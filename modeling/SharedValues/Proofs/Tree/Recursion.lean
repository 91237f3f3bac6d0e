import SharedValues.Proofs.Tree.Agreement
import SharedValues.Value.Order

/-!
# The walks on acyclic values are plain recursion

An acyclic value denotes one tree, whatever its lists share. The walks of equality and order carry a
path of pairs and stop early at a list compared with itself. From an acyclic value neither shows:
the left lists of the path reach the value at which the walk stands, so no pair is met again
(`agreeWithin_eq_nil_of_above`, `compareWithin_eq_order`), and a list compared with itself has one
tree on both sides, which is equal to itself even where its items have no order.
-/

namespace SharedValues

namespace Tree

variable {h : Store}

theorem denotedBy_unique {v : Value} {s t : Tree} (hs : DenotedBy h v s) (ht : DenotedBy h v t) :
    s = t :=
  (strictEq_iff_eq hs ht).1 (Value.agreeWithin_nil_self Value.strictLeaf_refl v)

/-! ### Equality -/

/-- The walk of equality decides the relation of trees that says the same of items, one by one, and
of trees that are not both lists. -/
theorem agreeWithin_nil_iff_of_denotedBy {leaf : Value → Value → Bool}
    (hrefl : Value.LeafRefl leaf) {R : Tree → Tree → Prop}
    (hlist : ∀ ss ts, R (.list ss) (.list ts) ↔ List.Forall₂ R ss ts)
    (hleaf : ∀ v w s t, v.list? = Option.none ∨ w.list? = Option.none → DenotedBy h v s →
      DenotedBy h w t → (leaf v w = true ↔ R s t))
    {v w : Value} {s t : Tree} (hs : DenotedBy h v s) (ht : DenotedBy h w t) :
    Value.agreeWithin leaf h [] v w = true ↔ R s t := by
  induction s using items_induction generalizing v w t with
  | list ss ih =>
    cases hs with
    | @list a _ hss =>
      cases ht with
      | @list b ts hts =>
        rw [agreeWithin_list_iff_forall₂ hrefl, hlist]
        exact forall₂_iff_of_denotedBy (allDenotedBy_iff_forall₂.1 hss)
          (allDenotedBy_iff_forall₂.1 hts) fun s hm v w t hs ht => ih s hm hs ht
      | _ =>
        rw [Value.agreeWithin_leaf (Or.inr rfl)]
        exact hleaf _ _ _ _ (Or.inr rfl) (.list hss) (by constructor)
  | _ =>
    cases hs
    rw [Value.agreeWithin_leaf (Or.inl rfl)]
    exact hleaf _ _ _ _ (Or.inl rfl) (by constructor) ht

theorem equalItems_iff_forall₂ {ss ts : List Tree} :
    equalItems ss ts = true ↔ List.Forall₂ (fun s t => s.equals t = true) ss ts := by
  induction ss generalizing ts with
  | nil => cases ts <;> simp [equalItems]
  | cons s ss ih => cases ts <;> simp [equalItems, ih]

theorem strictEqItems_iff_forall₂ {ss ts : List Tree} :
    strictEqItems ss ts = true ↔ List.Forall₂ (fun s t => s.strictEq t = true) ss ts := by
  induction ss generalizing ts with
  | nil => cases ts <;> simp [strictEqItems]
  | cons s ss ih => cases ts <;> simp [strictEqItems, ih]

theorem equals_self (t : Tree) : t.equals t = true := by
  induction t using items_induction with
  | list items ih =>
    rw [equals, equalItems_iff_forall₂, List.forall₂_same]
    exact ih
  | _ => simp [equals, numeric?]

theorem looseLeaf_eq_equals {v w : Value} {s t : Tree}
    (hvw : v.list? = Option.none ∨ w.list? = Option.none) (hs : DenotedBy h v s)
    (ht : DenotedBy h w t) : Value.looseLeaf v w = s.equals t := by
  cases hs <;> cases ht <;> simp_all [Value.looseLeaf, equals, numeric?, Value.numeric?,
    Value.list?]

theorem strictLeaf_eq_strictEq {v w : Value} {s t : Tree}
    (hvw : v.list? = Option.none ∨ w.list? = Option.none) (hs : DenotedBy h v s)
    (ht : DenotedBy h w t) : Value.strictLeaf v w = s.strictEq t := by
  cases hs <;> cases ht <;> simp_all [Value.strictLeaf, strictEq, Value.list?]

theorem equals_eq_of_denotedBy {v w : Value} {s t : Tree} (hs : DenotedBy h v s)
    (ht : DenotedBy h w t) : Value.equals h v w = s.equals t := by
  rw [Bool.eq_iff_iff]
  refine agreeWithin_nil_iff_of_denotedBy (R := fun s t => s.equals t = true)
    Value.looseLeaf_refl ?_ ?_ hs ht
  · intro ss ts
    rw [equals, equalItems_iff_forall₂]
  · intro v w s t hvw hs ht
    rw [looseLeaf_eq_equals hvw hs ht]

theorem strictEq_eq_of_denotedBy {v w : Value} {s t : Tree} (hs : DenotedBy h v s)
    (ht : DenotedBy h w t) : Value.strictEq h v w = s.strictEq t := by
  rw [Bool.eq_iff_iff]
  refine agreeWithin_nil_iff_of_denotedBy (R := fun s t => s.strictEq t = true)
    Value.strictLeaf_refl ?_ ?_ hs ht
  · intro ss ts
    rw [strictEq, strictEqItems_iff_forall₂]
  · intro v w s t hvw hs ht
    rw [strictLeaf_eq_strictEq hvw hs ht]

/-- From an acyclic value the walk of equality does not notice its path. -/
theorem agreeWithin_eq_nil_of_above {leaf : Value → Value → Bool} (hrefl : Value.LeafRefl leaf)
    (path : List (ListRef × ListRef)) (v w : Value) (hpath : h.Above (path.map Prod.fst) v)
    (hv : h.Acyclic v) :
    Value.agreeWithin leaf h path v w = Value.agreeWithin leaf h [] v w := by
  induction path, v, w using Value.agreeWithin.induct (h := h) with
  | case1 path a b hp =>
    rcases hp with rfl | hm
    · rw [Value.agreeWithin_list_of_mem (Or.inl rfl), Value.agreeWithin_list_of_mem (Or.inl rfl)]
    -- a pair that is met again has a left list above itself
    · exact absurd (List.mem_map_of_mem hm) (hv.not_mem_of_above hpath)
  | case2 path a b hp ih =>
    rw [Value.agreeWithin_list_of_not_mem hp, Bool.eq_iff_iff, Bool.and_eq_true, beq_iff_eq,
      List.all_eq_true, Value.agreeWithin_nil_list_iff hrefl]
    refine and_congr_right fun _ => forall₂_congr fun p hm => ?_
    have hleft := (List.of_mem_zip hm).1
    rw [ih p hm (hpath.cons_of_mem hleft) (hv.of_mem hleft)]
  | case3 path v w hlists =>
    rw [Value.agreeWithin, Value.agreeWithin]
    · exact hlists
    · exact hlists

/-! ### Order -/

theorem orderItems_self (ts : List Tree) : orderItems ts ts = .ok .eq := by
  induction ts with
  | nil => simp [orderItems]
  | cons t ts ih => rw [orderItems, equals_self, if_pos rfl, ih]

/-- Items are ordered by the first pair that differs, else by their number. Whether a pair of values
differs and how it is ordered may be found out in any way that says the same of the trees. -/
theorem firstDifferent_eq_orderItems {differ : Value × Value → Bool}
    {f : Value × Value → Except Fault Ordering} {vs ws : List Value} {ss ts : List Tree}
    (hvs : List.Forall₂ (DenotedBy h) vs ss) (hws : List.Forall₂ (DenotedBy h) ws ts)
    (hdiffer : ∀ p ∈ vs.zip ws, ∀ s ∈ ss, ∀ t, DenotedBy h p.1 s → DenotedBy h p.2 t →
      differ p = !s.equals t)
    (hf : ∀ p ∈ vs.zip ws, ∀ s ∈ ss, ∀ t, DenotedBy h p.1 s → DenotedBy h p.2 t →
      f p = s.order t) :
    (match (vs.zip ws).find? differ with
      | some p => f p
      | Option.none => .ok (compare vs.length ws.length)) = orderItems ss ts := by
  induction hvs generalizing ws ts with
  | nil => simp [orderItems, hws.length_eq]
  | @cons v s vs ss hv hvs ih =>
    cases hws with
    | nil => simp [orderItems, hvs.length_eq]
    | @cons w t ws ts hw hws =>
      have hpair : (v, w) ∈ (v :: vs).zip (w :: ws) := by simp
      have hhead : differ (v, w) = !s.equals t :=
        hdiffer (v, w) hpair s List.mem_cons_self t hv hw
      rw [List.zip_cons_cons, List.find?_cons, hhead, orderItems]
      cases hst : s.equals t with
      | false => exact hf (v, w) hpair s List.mem_cons_self t hv hw
      | true =>
        have hlength : compare (v :: vs).length (w :: ws).length =
            compare vs.length ws.length := by simp [Nat.compare_eq_ite_lt]
        rw [hlength]
        exact ih hws
          (fun p hp s hs => hdiffer p (List.mem_cons_of_mem _ hp) s (List.mem_cons_of_mem _ hs))
          (fun p hp s hs => hf p (List.mem_cons_of_mem _ hp) s (List.mem_cons_of_mem _ hs))

theorem compareLeaf_eq_order {v w : Value} {s t : Tree}
    (hvw : v.list? = Option.none ∨ w.list? = Option.none) (hs : DenotedBy h v s)
    (ht : DenotedBy h w t) : Value.compareLeaf v w = s.order t := by
  cases hs <;> cases ht <;> simp_all [Value.compareLeaf, order, numeric?, Value.numeric?,
    Value.list?, Value.typeName, Value.kind, kind]

/-- Wherever the walk of the order has met an acyclic value, it answers as its tree does. -/
theorem compareWithin_eq_order {path : List (ListRef × ListRef)} {v w : Value} {s t : Tree}
    (hs : DenotedBy h v s) (ht : DenotedBy h w t) (hpath : h.Above (path.map Prod.fst) v)
    (hv : h.Acyclic v) : Value.compareWithin h path v w = s.order t := by
  induction s using items_induction generalizing path v w t with
  | list ss ih =>
    cases hs with
    | @list a _ hss =>
      cases ht with
      | @list b ts hts =>
        by_cases hp : a = b ∨ (a, b) ∈ path
        · rcases hp with rfl | hm
          -- comparing item by item could fail here, but equal items are never compared
          · have hsame : Tree.list ss = .list ts := denotedBy_unique (.list hss) (.list hts)
            rw [Value.compareWithin_list_of_mem (Or.inl rfl), ← hsame, order, orderItems_self]
          · exact absurd (List.mem_map_of_mem hm) (hv.not_mem_of_above hpath)
        · rw [Value.compareWithin_list_of_not_mem hp, order]
          refine firstDifferent_eq_orderItems (allDenotedBy_iff_forall₂.1 hss)
            (allDenotedBy_iff_forall₂.1 hts) ?_ ?_
          · intro p hm s _ t hs ht
            have hleft := (List.of_mem_zip hm).1
            rw [agreeWithin_eq_nil_of_above Value.looseLeaf_refl _ _ _ (hpath.cons_of_mem hleft)
              (hv.of_mem hleft), ← equals_eq_of_denotedBy hs ht, Value.equals]
          · intro p hm s hmem t hs ht
            have hleft := (List.of_mem_zip hm).1
            exact ih s hmem hs ht (hpath.cons_of_mem hleft) (hv.of_mem hleft)
      | _ =>
        rw [Value.compareWithin_leaf (Or.inr rfl)]
        exact compareLeaf_eq_order (Or.inr rfl) (.list hss) (by constructor)
  | _ =>
    cases hs
    rw [Value.compareWithin_leaf (Or.inl rfl)]
    exact compareLeaf_eq_order (Or.inl rfl) (by constructor) ht

theorem compareValues_eq_of_denotedBy {v w : Value} {s t : Tree} (hs : DenotedBy h v s)
    (ht : DenotedBy h w t) (hv : h.Acyclic v) : Value.compareValues h v w = s.order t :=
  compareWithin_eq_order hs ht (Store.above_nil v) hv

end Tree

namespace Value

/-- Two acyclic values denote one tree each, and whatever they share, writing, the two equalities
and the order answer as plain recursion on these trees does. -/
theorem walks_eq_tree_recursion {h : Store} {v w : Value} (hv : h.Acyclic v) (hw : h.Acyclic w) :
    ∃ s t : Tree, (∀ u, Tree.DenotedBy h v u ↔ u = s) ∧ (∀ u, Tree.DenotedBy h w u ↔ u = t) ∧
      repr h v = String.ofList s.write ∧
      equals h v w = s.equals t ∧
      strictEq h v w = s.strictEq t ∧
      compareValues h v w = s.order t := by
  obtain ⟨s, hs⟩ := Tree.exists_denotedBy hv
  obtain ⟨t, ht⟩ := Tree.exists_denotedBy hw
  refine ⟨s, t, ?_, ?_, ?_, Tree.equals_eq_of_denotedBy hs ht, Tree.strictEq_eq_of_denotedBy hs ht,
    Tree.compareValues_eq_of_denotedBy hs ht hv⟩
  · intro u
    exact ⟨fun hu => Tree.denotedBy_unique hu hs, fun hu => hu ▸ hs⟩
  · intro u
    exact ⟨fun hu => Tree.denotedBy_unique hu ht, fun hu => hu ▸ ht⟩
  · rw [repr, Tree.write_eq_of_denotedBy hs hv]

/-- A list holds another one twice, a second list holds it once and beside it an equal one. Both of
these hold nothing, which has no order, and a truth value or the number that is equal to it. -/
def diamond : Store :=
  ⟨#[[.none, .int 1], [.none, .bool true], [.list ⟨0⟩, .list ⟨0⟩],
    [.list ⟨0⟩, .list ⟨1⟩, .text ⟨0, "a"⟩]], 1⟩

theorem walks_eq_tree_recursion_diamond :
    diamond.Acyclic (.list ⟨2⟩) ∧ diamond.Acyclic (.list ⟨3⟩) ∧
      ∃ s t : Tree, Tree.DenotedBy diamond (.list ⟨2⟩) s ∧ Tree.DenotedBy diamond (.list ⟨3⟩) t ∧
        s.write = "[[None, 1], [None, 1]]".toList ∧ s.equals t = false ∧ s.strictEq t = false ∧
        s.order t = .ok .lt := by
  have hacyclic : ∀ v, diamond.Acyclic v := Store.acyclic_of_older (by decide)
  have hrepr : repr diamond (.list ⟨2⟩) = "[[None, 1], [None, 1]]" := by decide +kernel
  have hequals : equals diamond (.list ⟨2⟩) (.list ⟨3⟩) = false := by decide +kernel
  have hstrict : strictEq diamond (.list ⟨2⟩) (.list ⟨3⟩) = false := by decide +kernel
  have hcompare : compareValues diamond (.list ⟨2⟩) (.list ⟨3⟩) = .ok .lt := by decide +kernel
  obtain ⟨s, t, hs, ht, hwrite, heq, hst, hord⟩ :=
    walks_eq_tree_recursion (hacyclic (.list ⟨2⟩)) (hacyclic (.list ⟨3⟩))
  refine ⟨hacyclic _, hacyclic _, s, t, (hs s).2 rfl, (ht t).2 rfl, ?_, ?_, ?_, ?_⟩
  · rw [← String.toList_ofList (l := s.write), ← hwrite, hrepr]
  · rw [← heq, hequals]
  · rw [← hst, hstrict]
  · rw [← hord, hcompare]

end Value

end SharedValues
