import SharedValues.Proofs.Agreement.Bisimulation
import SharedValues.Store.Reach

/-!
# Values met at the same indices

Two values are compared by going down both at once, always at the same index. `LeadsTo` says which
pairs are met on the way. A walk that compares two values looks at these pairs and at nothing else:
what it answers does not hang on other pairs of its path (`agreeWithin_eq_of_sameOnward`), and it
agrees with another walk that accepts the same leaves among them (`agreeWithin_nil_mono`).
-/

namespace SharedValues.Value

variable {h : Store}

/-- Two values lead to two others if one can go from the first to the others element by element,
always at the same index on both sides. -/
inductive LeadsTo (h : Store) : Value → Value → Value → Value → Prop where
  | refl (v w : Value) : LeadsTo h v w v w
  | step {a b : ListRef} {x y v w : Value} : (x, y) ∈ (h.elements a).zip (h.elements b) →
    LeadsTo h x y v w → LeadsTo h (.list a) (.list b) v w

section LeadsTo

variable {u v w x y z : Value}

theorem LeadsTo.reaches (hlead : LeadsTo h v w x y) : h.Reaches v x ∧ h.Reaches w y := by
  induction hlead with
  | refl v w => exact ⟨.refl v, .refl w⟩
  | step hm _ ih =>
    obtain ⟨hleft, hright⟩ := List.of_mem_zip hm
    exact ⟨.step hleft ih.1, .step hright ih.2⟩

/-- A step at an index. -/
theorem LeadsTo.of_getElem? {a b : ListRef} {i : Nat} (hv : (h.elements a)[i]? = some v)
    (hw : (h.elements b)[i]? = some w) (hlead : LeadsTo h v w x y) :
    LeadsTo h (.list a) (.list b) x y :=
  .step (List.mem_of_getElem? (List.getElem?_zip_eq_some.2 ⟨hv, hw⟩)) hlead

theorem LeadsTo.symm (hlead : LeadsTo h v w x y) : LeadsTo h w v y x := by
  induction hlead with
  | refl v w => exact .refl w v
  | step hm _ ih =>
    obtain ⟨i, hi⟩ := List.mem_iff_getElem?.1 hm
    obtain ⟨hv, hw⟩ := List.getElem?_zip_eq_some.1 hi
    exact .of_getElem? hw hv ih

/-- Values to which agreeing values lead agree. -/
theorem LeadsTo.agree {leaf : Value → Value → Bool} (hrefl : LeafRefl leaf)
    (hlead : LeadsTo h v w x y) (hvw : agreeWithin leaf h [] v w = true) :
    agreeWithin leaf h [] x y = true := by
  induction hlead with
  | refl => exact hvw
  | step hm _ ih => exact ih (((agreeWithin_nil_list_iff hrefl).1 hvw).2 _ hm)

/-- A value that is equal to the left one stands between: equal lists have elements at the same
indices. -/
theorem LeadsTo.between (hlead : LeadsTo h u w x z) (huv : equals h u v = true) :
    ∃ y, LeadsTo h u v x y ∧ LeadsTo h v w y z := by
  induction hlead generalizing v with
  | refl u w => exact ⟨v, .refl u v, .refl v w⟩
  | @step a c x' z' x z hm _ ih =>
    cases matches_of_equals huv with
    | number hu _ => cases hu
    | @list _ b hlen hel =>
      obtain ⟨i, hi⟩ := List.mem_iff_getElem?.1 hm
      obtain ⟨hx, hz⟩ := List.getElem?_zip_eq_some.1 hi
      obtain ⟨hlt, -⟩ := List.getElem?_eq_some_iff.1 hx
      have hy := List.getElem?_eq_getElem (hlen ▸ hlt)
      obtain ⟨y, hxy, hyz⟩ := ih (hel i _ _ hx hy)
      exact ⟨y, .of_getElem? hx hy hxy, .of_getElem? hy hz hyz⟩

end LeadsTo

/-! ### Paths that do not matter -/

/-- Two paths hold the same of the pairs of lists to which two values lead. -/
def SameOnward (h : Store) (v w : Value) (path other : List (ListRef × ListRef)) : Prop :=
  ∀ c d, LeadsTo h v w (.list c) (.list d) → ((c, d) ∈ path ↔ (c, d) ∈ other)

section Onward

variable {path other : List (ListRef × ListRef)} {a b : ListRef}

theorem SameOnward.onPath_iff (hsame : SameOnward h (.list a) (.list b) path other) :
    a = b ∨ (a, b) ∈ path ↔ a = b ∨ (a, b) ∈ other :=
  or_congr_right (hsame a b (.refl _ _))

theorem SameOnward.cons (hsame : SameOnward h (.list a) (.list b) path other)
    {p : Value × Value} (hm : p ∈ (h.elements a).zip (h.elements b)) :
    SameOnward h p.1 p.2 ((a, b) :: path) ((a, b) :: other) := by
  intro c d hlead
  rw [List.mem_cons, List.mem_cons, hsame c d (.step hm hlead)]

theorem agreeWithin_eq_of_sameOnward {leaf : Value → Value → Bool} (path : List (ListRef × ListRef))
    (v w : Value) (hsame : SameOnward h v w path other) :
    agreeWithin leaf h path v w = agreeWithin leaf h other v w := by
  induction path, v, w using agreeWithin.induct (h := h) generalizing other with
  | case1 path a b hp =>
    rw [agreeWithin_list_of_mem hp, agreeWithin_list_of_mem (hsame.onPath_iff.1 hp)]
  | case2 path a b hp ih =>
    rw [agreeWithin_list_of_not_mem hp, agreeWithin_list_of_not_mem (mt hsame.onPath_iff.2 hp)]
    congr 1
    rw [Bool.eq_iff_iff, List.all_eq_true, List.all_eq_true]
    exact forall₂_congr fun p hm => by rw [ih p hm (hsame.cons hm)]
  | case3 path v w hlists =>
    have hleaf := leaf_of_not_lists hlists
    rw [agreeWithin_leaf hleaf, agreeWithin_leaf hleaf]

/-- Lists that are not met again may be on the path or not. -/
theorem sameOnward_of_not_leadsTo {x y : Value}
    (hback : ¬ LeadsTo h x y (.list a) (.list b)) : SameOnward h x y [(a, b)] [] := by
  intro c d hlead
  simp only [List.mem_singleton, Prod.mk.injEq, List.not_mem_nil, iff_false]
  rintro ⟨rfl, rfl⟩
  exact hback hlead

end Onward

/-! ### From one walk to the other -/

section Leaves

variable {leaf leaf' : Value → Value → Bool} {v w : Value}

theorem AlikeTo.mono {k : Nat}
    (hleaf : ∀ x y, LeadsTo h v w x y → leaf x y = true → leaf' x y = true)
    (hvw : AlikeTo leaf h k v w) : AlikeTo leaf' h k v w := by
  induction k generalizing v w with
  | zero => exact alikeTo_zero v w
  | succ k ih =>
    rcases lists_or_leaf v w with ⟨a, b, rfl, rfl⟩ | hnot
    · rw [alikeTo_succ_list] at hvw ⊢
      exact ⟨hvw.1, fun p hm =>
        ih (fun x y hlead => hleaf x y (.step hm hlead)) (hvw.2 p hm)⟩
    · rw [alikeTo_succ_leaf hnot] at hvw ⊢
      exact hleaf v w (.refl v w) hvw

/-- Agreement passes from one walk to another that accepts the same leaves among all to which the
two values lead. -/
theorem agreeWithin_nil_mono (hrefl : LeafRefl leaf)
    (hleaf : ∀ x y, LeadsTo h v w x y → leaf x y = true → leaf' x y = true)
    (hvw : agreeWithin leaf h [] v w = true) : agreeWithin leaf' h [] v w = true :=
  agreeWithin_of_forall_alikeTo [] v w fun k => ((agreeWithin_nil_iff hrefl).1 hvw k).mono hleaf

end Leaves

end SharedValues.Value
