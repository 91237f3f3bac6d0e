import SharedValues.Proofs.Store.Closed
import SharedValues.Proofs.Store.Renaming

/-!
# Stores that have grown

A store extends another if it still has all lists of the other with their elements; a new list
extends a store. In a closed store nothing leads out of it, so what its values answer stays the same
in every extension: no list needs a new name.
-/

namespace SharedValues.Store

structure Extends (h g : Store) : Prop where
  size_le : h.size ≤ g.size
  elements : ∀ r, h.Holds r → g.elements r = h.elements r

variable {h g k : Store}

theorem Extends.trans (hg : Extends h g) (hk : Extends g k) : Extends h k := by
  refine ⟨Nat.le_trans hg.size_le hk.size_le, fun r hr => ?_⟩
  have hheld : g.Holds r := Nat.lt_of_lt_of_le hr hg.size_le
  rw [hk.elements r hheld, hg.elements r hr]

theorem extends_refl (h : Store) : Extends h h := ⟨Nat.le_refl _, fun _ _ => rfl⟩

theorem extends_newText (h : Store) (s : String) : Extends h (h.newText s).2 :=
  ⟨Nat.le_refl _, fun _ _ => rfl⟩

theorem extends_newBytes (h : Store) (bs : List UInt8) : Extends h (h.newBytes bs).2 :=
  ⟨Nat.le_refl _, fun _ _ => rfl⟩

theorem extends_newList (h : Store) (vs : List Value) : Extends h (h.newList vs).2 :=
  ⟨by simp, fun _ hr => elements_newList_of_holds hr vs⟩

theorem Closed.covers_of_reached (hh : h.Closed) {roots : List Value}
    (hroots : ∀ v ∈ roots, h.Covers v) {v : Value} (hv : h.Reached roots v) : h.Covers v :=
  hv.induction hroots fun r _ v hm => hh r v hm

theorem Extends.carries_id (hg : Extends h g) (hh : h.Closed) {roots : List Value}
    (hroots : ∀ v ∈ roots, h.Covers v) : Renaming.id.Carries h g roots :=
  Renaming.carries_id fun r hr => hg.elements r (hh.covers_of_reached hroots hr)

end SharedValues.Store

namespace SharedValues.Value

open Store

theorem equals_of_extends {h g : Store} (hg : Extends h g) (hh : h.Closed) {v w : Value}
    (hv : h.Covers v) (hw : h.Covers w) : equals g v w = equals h v w := by
  have hroots : ∀ u ∈ [v, w], h.Covers u := by simp [hv, hw]
  have hequal := equals_rename (hg.carries_id hh hroots) (reached_of_mem (v := v) (by simp))
    (reached_of_mem (v := w) (by simp))
  rwa [rename_id, rename_id] at hequal

end SharedValues.Value
