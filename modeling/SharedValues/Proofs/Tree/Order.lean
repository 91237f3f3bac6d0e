import SharedValues.Proofs.Tree.Recursion

/-!
# The order of trees

Equality of trees takes a truth value for its number and else looks at everything, so trees are
equal exactly when they become the same tree once every truth value is replaced
(`equals_iff_loosen_eq`). Replacing them changes no answer of the order except the kinds that a
fault names (`order_loosen`). Hence equal trees can stand for each other in the order.

With this the order is transitive. In lists that mix kinds, three items meet at the first index
where two of the three lists differ: if one pair of them is equal, the comparison of the third pair
is one of those that are known to answer, and otherwise it is the case of smaller trees.
-/

namespace SharedValues.Tree

/-! ### Truth values as numbers -/

mutual

/-- The tree with every truth value replaced by its number. -/
def loosen : Tree → Tree
  | .bool b => .int (if b then 1 else 0)
  | .list items => .list (loosenItems items)
  | t => t

def loosenItems : List Tree → List Tree
  | [] => []
  | t :: rest => loosen t :: loosenItems rest

end

theorem length_loosenItems (ts : List Tree) : (loosenItems ts).length = ts.length := by
  induction ts with
  | nil => simp [loosenItems]
  | cons t ts ih => simp [loosenItems, ih]

theorem loosenItems_loosenItems {ts : List Tree} (hts : ∀ t ∈ ts, t.loosen.loosen = t.loosen) :
    loosenItems (loosenItems ts) = loosenItems ts := by
  induction ts with
  | nil => simp [loosenItems]
  | cons t ts ih =>
    obtain ⟨ht, hrest⟩ := List.forall_mem_cons.1 hts
    rw [loosenItems, loosenItems, ht, ih hrest]

theorem loosen_loosen (t : Tree) : t.loosen.loosen = t.loosen := by
  induction t using items_induction with
  | list items ih => rw [loosen, loosen, loosenItems_loosenItems ih]
  | _ => simp [loosen]

theorem equalItems_iff_loosenItems_eq {ss ts : List Tree}
    (hss : ∀ s ∈ ss, ∀ t, s.equals t = true ↔ s.loosen = t.loosen) :
    equalItems ss ts = true ↔ loosenItems ss = loosenItems ts := by
  induction ss generalizing ts with
  | nil => cases ts <;> simp [equalItems, loosenItems]
  | cons s ss ih =>
    obtain ⟨hs, hrest⟩ := List.forall_mem_cons.1 hss
    cases ts with
    | nil => simp [equalItems, loosenItems]
    | cons t ts => simp [equalItems, loosenItems, hs, ih hrest]

theorem equals_iff_loosen_eq {s t : Tree} : s.equals t = true ↔ s.loosen = t.loosen := by
  induction s using items_induction generalizing t with
  | list ss ih =>
    cases t with
    | list ts =>
      rw [equals, loosen, loosen, Tree.list.injEq]
      exact equalItems_iff_loosenItems_eq fun s hs t => ih s hs
    | _ => simp [equals, loosen, numeric?]
  | _ => cases t <;> simp [equals, loosen, numeric?]

theorem equals_loosen (s t : Tree) : s.loosen.equals t.loosen = s.equals t := by
  rw [Bool.eq_iff_iff, equals_iff_loosen_eq, equals_iff_loosen_eq, loosen_loosen, loosen_loosen]

/-! ### Equal trees in the order -/

theorem orderItems_loosenItems {ss ts : List Tree}
    (hss : ∀ s ∈ ss, ∀ t : Tree, (s.loosen.order t.loosen).toOption = (s.order t).toOption) :
    (orderItems (loosenItems ss) (loosenItems ts)).toOption = (orderItems ss ts).toOption := by
  induction ss generalizing ts with
  | nil => cases ts <;> simp [loosenItems, orderItems, length_loosenItems]
  | cons s ss ih =>
    obtain ⟨hs, hrest⟩ := List.forall_mem_cons.1 hss
    cases ts with
    | nil => simp [loosenItems, orderItems, length_loosenItems]
    | cons t ts =>
      rw [loosenItems, loosenItems, orderItems, orderItems, equals_loosen]
      split
      · exact ih hrest
      · exact hs t

/-- Replacing truth values by their numbers changes no answer of the order, but the kinds that the
fault names where there is none. -/
theorem order_loosen (s t : Tree) : (s.loosen.order t.loosen).toOption = (s.order t).toOption := by
  induction s using items_induction generalizing t with
  | list ss ih =>
    cases t with
    | list ts =>
      rw [loosen, loosen, order, order]
      exact orderItems_loosenItems ih
    | _ => simp [loosen, order, numeric?, Except.toOption]
  | _ => cases t <;> simp [loosen, order, numeric?, Except.toOption]

/-- Equal trees have the same answers in the order, on both sides of it. -/
theorem order_congr {s s' t t' : Tree} (hs : s.equals s' = true) (ht : t.equals t' = true) :
    (s.order t).toOption = (s'.order t').toOption := by
  rw [equals_iff_loosen_eq] at hs ht
  rw [← order_loosen s, ← order_loosen s', hs, ht]

theorem eq_ok_iff_toOption_eq_some {ε α : Type} {x : Except ε α} {a : α} :
    x = .ok a ↔ x.toOption = some a := by
  cases x <;> simp [Except.toOption]

theorem order_eq_ok_congr {s s' t t' : Tree} (hs : s.equals s' = true) (ht : t.equals t' = true)
    {o : Ordering} : s.order t = .ok o ↔ s'.order t' = .ok o := by
  rw [eq_ok_iff_toOption_eq_some, eq_ok_iff_toOption_eq_some, order_congr hs ht]

theorem order_self_ne_lt (t : Tree) : t.order t ≠ .ok .lt := by
  cases t with
  | list items => simp [order, orderItems_self]
  | _ => simp [order, numeric?]

theorem equals_eq_false_of_order_eq_lt {s t : Tree} (hst : s.order t = .ok .lt) :
    s.equals t = false := by
  rw [← Bool.not_eq_true]
  intro hequal
  exact order_self_ne_lt t ((order_eq_ok_congr hequal (equals_self t)).1 hst)

/-! ### Transitivity -/

theorem order_eq_lt_iff_of_numeric? {s t : Tree} {m : Int} (hs : s.numeric? = some m) :
    s.order t = .ok .lt ↔ ∃ n, t.numeric? = some n ∧ m < n := by
  cases s with
  | bool b =>
    obtain rfl : _ = m := Option.some.inj hs
    cases t <;> simp [order, numeric?, Int.compare_eq_lt]
  | int n =>
    obtain rfl : n = m := Option.some.inj hs
    cases t <;> simp [order, numeric?, Int.compare_eq_lt]
  | _ => simp [numeric?] at hs

theorem order_trans_of_numeric? {s t u : Tree} {m : Int} (hs : s.numeric? = some m)
    (hst : s.order t = .ok .lt) (htu : t.order u = .ok .lt) : s.order u = .ok .lt := by
  obtain ⟨n, ht, hmn⟩ := (order_eq_lt_iff_of_numeric? hs).1 hst
  obtain ⟨k, hu, hnk⟩ := (order_eq_lt_iff_of_numeric? ht).1 htu
  exact (order_eq_lt_iff_of_numeric? hs).2 ⟨k, hu, Int.lt_trans hmn hnk⟩

theorem orderItems_nil_eq_lt_iff {ts : List Tree} : orderItems [] ts = .ok .lt ↔ ts ≠ [] := by
  cases ts <;> simp [orderItems, Nat.compare_eq_lt]

theorem orderItems_nil_right_ne_lt (ss : List Tree) : orderItems ss [] ≠ .ok .lt := by
  cases ss <;> simp [orderItems, Nat.compare_eq_lt]

theorem orderItems_cons_eq_lt_iff {s t : Tree} {ss ts : List Tree} :
    orderItems (s :: ss) (t :: ts) = .ok .lt ↔
      (s.equals t = true ∧ orderItems ss ts = .ok .lt) ∨ s.order t = .ok .lt := by
  rw [orderItems]
  cases hst : s.equals t with
  | true =>
    have hnot : s.order t ≠ .ok .lt := by
      intro hlt
      rw [equals_eq_false_of_order_eq_lt hlt] at hst
      cases hst
    simp [hnot]
  | false => simp

theorem orderItems_trans {ss ts us : List Tree}
    (hss : ∀ s ∈ ss, ∀ t u : Tree, s.order t = .ok .lt → t.order u = .ok .lt →
      s.order u = .ok .lt)
    (hst : orderItems ss ts = .ok .lt) (htu : orderItems ts us = .ok .lt) :
    orderItems ss us = .ok .lt := by
  induction ss generalizing ts us with
  | nil =>
    rw [orderItems_nil_eq_lt_iff]
    rintro rfl
    exact orderItems_nil_right_ne_lt ts htu
  | cons s ss ih =>
    obtain ⟨hs, hrest⟩ := List.forall_mem_cons.1 hss
    cases ts with
    | nil => exact absurd hst (orderItems_nil_right_ne_lt (s :: ss))
    | cons t ts =>
      cases us with
      | nil => exact absurd htu (orderItems_nil_right_ne_lt (t :: ts))
      | cons u us =>
        rw [orderItems_cons_eq_lt_iff] at hst htu ⊢
        -- an equal head hands its comparison on, so only two heads that differ need `hs`
        rcases hst with ⟨heqst, hst⟩ | hst
        · rcases htu with ⟨heqtu, htu⟩ | htu
          · rw [equals_iff_loosen_eq] at heqst heqtu ⊢
            exact Or.inl ⟨heqst.trans heqtu, ih hrest hst htu⟩
          · exact Or.inr ((order_eq_ok_congr heqst (equals_self u)).2 htu)
        · rcases htu with ⟨heqtu, -⟩ | htu
          · exact Or.inr ((order_eq_ok_congr (equals_self s) heqtu).1 hst)
          · exact Or.inr (hs t u hst htu)

/-- The order of trees is transitive. In particular the third comparison has an answer. -/
theorem order_trans {s t u : Tree} (hst : s.order t = .ok .lt) (htu : t.order u = .ok .lt) :
    s.order u = .ok .lt := by
  induction s using items_induction generalizing t u with
  | none => cases t <;> simp [order, numeric?] at hst
  | bool b => exact order_trans_of_numeric? rfl hst htu
  | int n => exact order_trans_of_numeric? rfl hst htu
  | bytes a =>
    cases t with
    | bytes b =>
      cases u with
      | bytes c =>
        simp only [order, Except.ok.injEq] at hst htu ⊢
        exact Std.TransCmp.lt_trans hst htu
      | _ => simp [order, numeric?] at htu
    | _ => simp [order, numeric?] at hst
  | text a =>
    cases t with
    | text b =>
      cases u with
      | text c =>
        simp only [order, Except.ok.injEq] at hst htu ⊢
        exact Std.TransCmp.lt_trans hst htu
      | _ => simp [order, numeric?] at htu
    | _ => simp [order, numeric?] at hst
  | list ss ih =>
    cases t with
    | list ts =>
      cases u with
      | list us =>
        rw [order] at hst htu ⊢
        exact orderItems_trans (fun s hs t u => ih s hs) hst htu
      | _ => simp [order, numeric?] at htu
    | _ => simp [order, numeric?] at hst

end SharedValues.Tree
