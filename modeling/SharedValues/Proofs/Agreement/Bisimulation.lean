import SharedValues.Proofs.Agreement.Depth
import SharedValues.Value.Bisimilar

/-!
# Equality is bisimilarity

Being alike to every depth is itself a bisimulation: elements are met index by index, so there is
nothing to choose that could differ from depth to depth. The walk of `equals` decides it, hence
`equals` relates exactly the values that some bisimulation relates, on lists that contain
themselves or each other too.
-/

namespace SharedValues.Value

variable {h : Store} {R : Value → Value → Prop}

theorem forall_mem_zip_iff {vs ws : List Value} :
    (∀ p ∈ vs.zip ws, R p.1 p.2) ↔
      ∀ (i : Nat) (v w : Value), vs[i]? = some v → ws[i]? = some w → R v w := by
  constructor
  · intro hzip i v w hv hw
    have hi : (vs.zip ws)[i]? = some (v, w) := List.getElem?_zip_eq_some.2 ⟨hv, hw⟩
    exact hzip (v, w) (List.mem_of_getElem? hi)
  · intro hindex p hm
    obtain ⟨i, hi⟩ := List.mem_iff_getElem?.1 hm
    obtain ⟨hv, hw⟩ := List.getElem?_zip_eq_some.1 hi
    exact hindex i p.1 p.2 hv hw

theorem matches_list_iff {a b : ListRef} :
    Matches h R (.list a) (.list b) ↔
      (h.elements a).length = (h.elements b).length ∧
        ∀ p ∈ (h.elements a).zip (h.elements b), R p.1 p.2 := by
  rw [forall_mem_zip_iff]
  constructor
  · intro hab
    cases hab with
    | list hlen hel => exact ⟨hlen, hel⟩
    | number ha _ => simp [numeric?] at ha
  · intro hab
    exact .list hab.1 hab.2

theorem matches_leaf_iff {v w : Value} (hvw : v.list? = Option.none ∨ w.list? = Option.none) :
    Matches h R v w ↔ looseLeaf v w = true := by
  constructor
  · intro hm
    cases hm with
    | none => rfl
    | bytes hd => simpa [looseLeaf] using hd
    | text hd => simpa [looseLeaf] using hd
    | number hv hw =>
      cases v with
      | bool b => cases w <;> simp_all [looseLeaf, numeric?]
      | int n => cases w <;> simp_all [looseLeaf, numeric?]
      | _ => simp [numeric?] at hv
    | list _ _ => simp [list?] at hvw
  · intro hl
    unfold looseLeaf at hl
    split at hl
    · exact .none
    · exact .bytes (by simpa using hl)
    · exact .text (by simpa using hl)
    · split at hl
      · rename_i m n hm hn
        rw [beq_iff_eq] at hl
        exact .number hm (hl ▸ hn)
      · exact absurd hl Bool.false_ne_true

theorem alikeTo_of_bisimilar {v w : Value} (hvw : Bisimilar h v w) (k : Nat) :
    AlikeTo looseLeaf h k v w := by
  induction k generalizing v w with
  | zero => exact alikeTo_zero v w
  | succ k ih =>
    have hm := hvw.matches
    rcases lists_or_leaf v w with ⟨a, b, rfl, rfl⟩ | hleaf
    · obtain ⟨hlen, hel⟩ := matches_list_iff.1 hm
      exact alikeTo_succ_list.2 ⟨hlen, fun p hp => ih (hel p hp)⟩
    · rw [alikeTo_succ_leaf hleaf]
      exact (matches_leaf_iff hleaf).1 hm

theorem isBisimulation_forall_alikeTo (h : Store) :
    IsBisimulation h fun v w => ∀ k, AlikeTo looseLeaf h k v w := by
  intro v w hvw
  rcases lists_or_leaf v w with ⟨a, b, rfl, rfl⟩ | hleaf
  · exact matches_list_iff.2 (forall_alikeTo_list_iff.1 hvw)
  · exact (matches_leaf_iff hleaf).2 ((forall_alikeTo_leaf_iff hleaf).1 hvw)

theorem bisimilar_iff_forall_alikeTo {v w : Value} :
    Bisimilar h v w ↔ ∀ k, AlikeTo looseLeaf h k v w := by
  constructor
  · exact alikeTo_of_bisimilar
  · intro hvw
    exact ⟨_, isBisimulation_forall_alikeTo h, hvw⟩

theorem equals_iff_bisimilar {v w : Value} : equals h v w = true ↔ Bisimilar h v w := by
  rw [equals, agreeWithin_nil_iff looseLeaf_refl, bisimilar_iff_forall_alikeTo]

theorem matches_of_equals {v w : Value} (hvw : equals h v w = true) :
    Matches h (fun v w => equals h v w = true) v w := by
  have hm := (equals_iff_bisimilar.1 hvw).matches
  exact hm.mono fun v w hvw => equals_iff_bisimilar.2 hvw

theorem equals_symm {v w : Value} (hvw : equals h v w = true) : equals h w v = true :=
  equals_iff_bisimilar.2 (equals_iff_bisimilar.1 hvw).symm

theorem equals_trans {u v w : Value} (huv : equals h u v = true) (hvw : equals h v w = true) :
    equals h u w = true :=
  equals_iff_bisimilar.2 ((equals_iff_bisimilar.1 huv).trans (equals_iff_bisimilar.1 hvw))

/-- Equality relates exactly the bisimilar values of a store, and so it is an equivalence. -/
theorem equals_decides_bisimilar (h : Store) :
    (∀ v w, equals h v w = true ↔ Bisimilar h v w) ∧
      Equivalence fun v w => equals h v w = true := by
  refine ⟨fun v w => equals_iff_bisimilar, ?_, ?_, ?_⟩
  · intro v
    exact equals_iff_bisimilar.2 (bisimilar_refl h v)
  · intro v w hvw
    exact equals_symm hvw
  · intro u v w huv hvw
    exact equals_trans huv hvw

end SharedValues.Value
