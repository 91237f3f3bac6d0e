import SharedValues.Proofs.Agreement.Depth
import SharedValues.Proofs.Tree.Denotation

/-!
# Agreement of values that denote trees

Two lists that denote trees agree exactly when their items do, one by one. Strict equality asks for
equal kinds and equal payloads at every item, so it is equality of the trees.
-/

namespace SharedValues.Tree

open Value

variable {h : Store}

/-- Relations of values that say the same as a relation of the denoted trees. -/
theorem forall₂_iff_of_denotedBy {A : Value → Value → Prop} {R : Tree → Tree → Prop}
    {vs ws : List Value} {ss ts : List Tree} (hvs : List.Forall₂ (DenotedBy h) vs ss)
    (hws : List.Forall₂ (DenotedBy h) ws ts)
    (hiff : ∀ s ∈ ss, ∀ v w t, DenotedBy h v s → DenotedBy h w t → (A v w ↔ R s t)) :
    List.Forall₂ A vs ws ↔ List.Forall₂ R ss ts := by
  induction hvs generalizing ws ts with
  | nil =>
    cases hws with
    | nil => simp
    | cons _ _ => simp
  | cons hv _ ih =>
    obtain ⟨hfirst, hrest⟩ := List.forall_mem_cons.1 hiff
    cases hws with
    | nil => simp
    | cons hw hws =>
      rw [List.forall₂_cons, List.forall₂_cons, hfirst _ _ _ hv hw, ih hws hrest]

theorem agreeWithin_list_iff_forall₂ {leaf : Value → Value → Bool} (hrefl : LeafRefl leaf)
    {a b : ListRef} :
    agreeWithin leaf h [] (.list a) (.list b) = true ↔
      List.Forall₂ (fun v w => agreeWithin leaf h [] v w = true) (h.elements a)
        (h.elements b) := by
  rw [agreeWithin_nil_list_iff hrefl, List.forall₂_iff_zip]
  exact and_congr_right fun _ => ⟨fun hall _ _ hm => hall _ hm, fun hall p hm => hall hm⟩

/-- Values are strictly equal exactly when they denote the same tree. -/
theorem strictEq_iff_eq {v w : Value} {s t : Tree} (hs : DenotedBy h v s) (ht : DenotedBy h w t) :
    Value.strictEq h v w = true ↔ s = t := by
  induction s using items_induction generalizing v w t with
  | list ss ih =>
    cases hs with
    | @list a _ hss =>
      cases ht with
      | @list b ts hts =>
        calc Value.strictEq h (.list a) (.list b) = true
            ↔ List.Forall₂ (fun v w => Value.strictEq h v w = true) (h.elements a)
                (h.elements b) := agreeWithin_list_iff_forall₂ strictLeaf_refl
          _ ↔ List.Forall₂ Eq ss ts :=
            forall₂_iff_of_denotedBy (allDenotedBy_iff_forall₂.1 hss)
              (allDenotedBy_iff_forall₂.1 hts) fun s hm v w t hs ht => ih s hm hs ht
          _ ↔ Tree.list ss = .list ts := by rw [List.forall₂_eq_eq_eq, Tree.list.injEq]
      | _ =>
        rw [Value.strictEq, agreeWithin_leaf (Or.inr rfl)]
        simp [strictLeaf]
  | _ =>
    cases hs
    rw [Value.strictEq, agreeWithin_leaf (Or.inl rfl)]
    cases ht <;> simp [strictLeaf]

end SharedValues.Tree
