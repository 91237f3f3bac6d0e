import SharedValues.Value.Equality

/-!
# Agreement to a depth

`AlikeTo leaf h k v w` looks at two values at most `k` lists deep. It carries no path and does not
ask which list is which, so it is plain recursion on the depth. A walk that takes the pairs on its
path for granted answers whether two values are alike to every depth (`agreeWithin_nil_iff`).

That the walk may take a pair for granted is an induction on the depth: a pair of lists is alike to
depth `k + 1` once its elements are alike to depth `k`, and to depth `k` the pair itself is already
known to be alike. Hence the walk can be opened at two lists as if there were neither a path nor a
shared list (`agreeWithin_nil_list_iff`).
-/

namespace SharedValues.Value

/-- Two values look alike down to a depth. At depth zero nothing is looked at. -/
def AlikeTo (leaf : Value → Value → Bool) (h : Store) : Nat → Value → Value → Prop
  | 0, _, _ => True
  | k + 1, .list a, .list b =>
    (h.elements a).length = (h.elements b).length ∧
      ∀ p ∈ (h.elements a).zip (h.elements b), AlikeTo leaf h k p.1 p.2
  | _ + 1, v, w => leaf v w = true

/-- Values that are no lists agree with themselves. -/
def LeafRefl (leaf : Value → Value → Bool) : Prop :=
  ∀ v : Value, v.list? = Option.none → leaf v v = true

theorem looseLeaf_refl : LeafRefl looseLeaf := by
  intro v hv
  cases v with
  | list r => simp [list?] at hv
  | _ => simp [looseLeaf, numeric?]

theorem strictLeaf_refl : LeafRefl strictLeaf := by
  intro v hv
  cases v with
  | list r => simp [list?] at hv
  | _ => simp [strictLeaf]

/-- Two values are both lists, or one of them is none. -/
theorem lists_or_leaf (v w : Value) :
    (∃ a b, v = .list a ∧ w = .list b) ∨ (v.list? = Option.none ∨ w.list? = Option.none) := by
  cases v with
  | list a =>
    cases w with
    | list b => exact Or.inl ⟨a, b, rfl, rfl⟩
    | _ => exact Or.inr (Or.inr rfl)
  | _ => exact Or.inr (Or.inl rfl)

theorem leaf_of_not_lists {v w : Value} (hvw : ∀ a b, v = .list a → w = .list b → False) :
    v.list? = Option.none ∨ w.list? = Option.none := by
  rcases lists_or_leaf v w with ⟨a, b, hv, hw⟩ | hleaf
  · exact (hvw a b hv hw).elim
  · exact hleaf

section Depth

variable {leaf : Value → Value → Bool} {h : Store}

@[simp] theorem alikeTo_zero (v w : Value) : AlikeTo leaf h 0 v w := by
  simp [AlikeTo]

theorem alikeTo_succ_list {k : Nat} {a b : ListRef} :
    AlikeTo leaf h (k + 1) (.list a) (.list b) ↔
      (h.elements a).length = (h.elements b).length ∧
        ∀ p ∈ (h.elements a).zip (h.elements b), AlikeTo leaf h k p.1 p.2 := by
  rw [AlikeTo]

theorem alikeTo_succ_leaf {k : Nat} {v w : Value}
    (hvw : v.list? = Option.none ∨ w.list? = Option.none) :
    AlikeTo leaf h (k + 1) v w ↔ leaf v w = true := by
  rw [AlikeTo]
  rintro a b rfl rfl
  simp [list?] at hvw

theorem AlikeTo.of_succ {k : Nat} {v w : Value} (hvw : AlikeTo leaf h (k + 1) v w) :
    AlikeTo leaf h k v w := by
  induction k generalizing v w with
  | zero => exact alikeTo_zero v w
  | succ k ih =>
    rcases lists_or_leaf v w with ⟨a, b, rfl, rfl⟩ | hleaf
    · rw [alikeTo_succ_list] at hvw ⊢
      exact ⟨hvw.1, fun p hm => ih (hvw.2 p hm)⟩
    · rw [alikeTo_succ_leaf hleaf] at hvw ⊢
      exact hvw

theorem alikeTo_refl (hrefl : LeafRefl leaf) (k : Nat) (v : Value) : AlikeTo leaf h k v v := by
  induction k generalizing v with
  | zero => exact alikeTo_zero v v
  | succ k ih =>
    cases hv : v.list? with
    | none =>
      rw [alikeTo_succ_leaf (Or.inl hv)]
      exact hrefl v hv
    | some r =>
      rw [list?_eq_some_iff] at hv
      subst hv
      refine alikeTo_succ_list.2 ⟨rfl, ?_⟩
      intro p hm
      have hp : p.1 = p.2 := by
        rw [List.zip_eq_zipWith, List.zipWith_self, List.mem_map] at hm
        obtain ⟨v, _, rfl⟩ := hm
        rfl
      rw [← hp]
      exact ih p.1

/-- What the walk accepts is alike to any depth to which the pairs on the path are alike. -/
theorem AlikeTo.of_agreeWithin (hrefl : LeafRefl leaf) {k : Nat}
    {path : List (ListRef × ListRef)} {v w : Value}
    (hpath : ∀ p ∈ path, AlikeTo leaf h k (.list p.1) (.list p.2))
    (hvw : agreeWithin leaf h path v w = true) : AlikeTo leaf h k v w := by
  induction k generalizing path v w with
  | zero => exact alikeTo_zero v w
  | succ k ih =>
    rcases lists_or_leaf v w with ⟨a, b, rfl, rfl⟩ | hleaf
    · have hpath' : ∀ p ∈ path, AlikeTo leaf h k (.list p.1) (.list p.2) :=
        fun p hp => (hpath p hp).of_succ
      -- One level less deep the pair itself is alike, so the path may grow by it.
      have hself : AlikeTo leaf h k (.list a) (.list b) := ih hpath' hvw
      have hgrown : ∀ p ∈ (a, b) :: path, AlikeTo leaf h k (.list p.1) (.list p.2) :=
        List.forall_mem_cons.2 ⟨hself, hpath'⟩
      by_cases hp : a = b ∨ (a, b) ∈ path
      · rcases hp with rfl | hp
        · exact alikeTo_refl hrefl (k + 1) (.list a)
        · exact hpath (a, b) hp
      · rw [agreeWithin_list_of_not_mem hp, Bool.and_eq_true, beq_iff_eq, List.all_eq_true] at hvw
        exact alikeTo_succ_list.2 ⟨hvw.1, fun p hm => ih hgrown (hvw.2 p hm)⟩
    · rw [agreeWithin_leaf hleaf] at hvw
      rw [alikeTo_succ_leaf hleaf]
      exact hvw

/-- Alike to every depth, opened at two lists. -/
theorem forall_alikeTo_list_iff {a b : ListRef} :
    (∀ k, AlikeTo leaf h k (.list a) (.list b)) ↔
      (h.elements a).length = (h.elements b).length ∧
        ∀ p ∈ (h.elements a).zip (h.elements b), ∀ k, AlikeTo leaf h k p.1 p.2 := by
  constructor
  · intro hab
    have hsucc := fun k => alikeTo_succ_list.1 (hab (k + 1))
    exact ⟨(hsucc 0).1, fun p hm k => (hsucc k).2 p hm⟩
  · intro hab k
    cases k with
    | zero => exact alikeTo_zero _ _
    | succ k => exact alikeTo_succ_list.2 ⟨hab.1, fun p hm => hab.2 p hm k⟩

theorem forall_alikeTo_leaf_iff {v w : Value}
    (hvw : v.list? = Option.none ∨ w.list? = Option.none) :
    (∀ k, AlikeTo leaf h k v w) ↔ leaf v w = true := by
  constructor
  · intro hk
    exact (alikeTo_succ_leaf hvw).1 (hk 1)
  · intro hl k
    exact AlikeTo.of_succ ((alikeTo_succ_leaf hvw).2 hl)

/-- The walk accepts what is alike to every depth, whatever its path. -/
theorem agreeWithin_of_forall_alikeTo (path : List (ListRef × ListRef)) (v w : Value)
    (hvw : ∀ k, AlikeTo leaf h k v w) : agreeWithin leaf h path v w = true := by
  induction path, v, w using agreeWithin.induct (h := h) with
  | case1 path a b hp => exact agreeWithin_list_of_mem hp
  | case2 path a b hp ih =>
    obtain ⟨hlen, hel⟩ := forall_alikeTo_list_iff.1 hvw
    rw [agreeWithin_list_of_not_mem hp, Bool.and_eq_true, beq_iff_eq, List.all_eq_true]
    exact ⟨hlen, fun p hm => ih p hm (hel p hm)⟩
  | case3 path v w hlists =>
    have hleaf := leaf_of_not_lists hlists
    rw [agreeWithin_leaf hleaf]
    exact (forall_alikeTo_leaf_iff hleaf).1 hvw

/-- The walk decides whether two values are alike to every depth. -/
theorem agreeWithin_nil_iff (hrefl : LeafRefl leaf) {v w : Value} :
    agreeWithin leaf h [] v w = true ↔ ∀ k, AlikeTo leaf h k v w := by
  constructor
  · intro hvw k
    exact AlikeTo.of_agreeWithin hrefl (by simp) hvw
  · exact agreeWithin_of_forall_alikeTo [] v w

theorem agreeWithin_nil_self (hrefl : LeafRefl leaf) (v : Value) :
    agreeWithin leaf h [] v v = true :=
  (agreeWithin_nil_iff hrefl).2 fun k => alikeTo_refl hrefl k v

/-- The walk opened at two lists: neither a shared list nor the path shows in the answer. -/
theorem agreeWithin_nil_list_iff (hrefl : LeafRefl leaf) {a b : ListRef} :
    agreeWithin leaf h [] (.list a) (.list b) = true ↔
      (h.elements a).length = (h.elements b).length ∧
        ∀ p ∈ (h.elements a).zip (h.elements b), agreeWithin leaf h [] p.1 p.2 = true := by
  simp only [agreeWithin_nil_iff hrefl]
  exact forall_alikeTo_list_iff

end Depth

end SharedValues.Value
