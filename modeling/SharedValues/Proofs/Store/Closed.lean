import SharedValues.Store.Basic

/-!
# Closed stores

A value is in a store if it is no list, or a list to which the store has given a name. A store is
closed if whatever its lists hold is in it. The empty store is closed, and a closed store stays so
when values that are in it are written to a list or gathered in a new one.
-/

namespace SharedValues.Store

/-- The value is in the store. -/
def Covers (h : Store) : Value → Prop
  | .list r => h.Holds r
  | _ => True

instance (h : Store) : DecidablePred h.Covers
  | .list r => inferInstanceAs (Decidable (h.Holds r))
  | .none | .bool _ | .int _ | .bytes _ | .text _ => inferInstanceAs (Decidable True)

/-- Every element of every list is in the store. -/
def Closed (h : Store) : Prop := ∀ (r : ListRef) (v : Value), v ∈ h.elements r → h.Covers v

theorem Covers.of_size_le {h g : Store} (hsize : h.size ≤ g.size) {v : Value} (hv : h.Covers v) :
    g.Covers v := by
  cases v with
  | list r => exact Nat.lt_of_lt_of_le hv hsize
  | _ => trivial

theorem Closed.covers_of_mem_zip {h : Store} (hh : h.Closed) {a b : ListRef}
    {p : Value × Value} (hp : p ∈ (h.elements a).zip (h.elements b)) :
    h.Covers p.1 ∧ h.Covers p.2 := by
  have hboth := List.of_mem_zip hp
  exact ⟨hh a p.1 hboth.1, hh b p.2 hboth.2⟩

theorem closed_empty : Store.empty.Closed := by
  intro r v hv
  simp [elements, empty] at hv

theorem Closed.write {h : Store} (hh : h.Closed) (r : ListRef) {vs : List Value}
    (hvs : ∀ v ∈ vs, h.Covers v) : (h.write r vs).Closed := by
  intro s v hv
  refine Covers.of_size_le (Nat.le_of_eq (size_write h r vs).symm) ?_
  by_cases hs : s = r
  · subst hs
    have hheld := holds_of_mem_elements hv
    rw [elements_write_self (by simpa [Holds] using hheld)] at hv
    exact hvs v hv
  · rw [elements_write_of_ne hs] at hv
    exact hh s v hv

theorem Closed.newList {h : Store} (hh : h.Closed) {vs : List Value}
    (hvs : ∀ v ∈ vs, h.Covers v) : (h.newList vs).2.Closed := by
  intro s v hv
  have hsize : h.size ≤ (h.newList vs).2.size := by simp
  refine Covers.of_size_le hsize ?_
  have hs : s.id < h.size + 1 := by simpa [Holds] using holds_of_mem_elements hv
  rcases Nat.lt_succ_iff_lt_or_eq.1 hs with hold | hnew
  · rw [elements_newList_of_holds hold] at hv
    exact hh s v hv
  · have hself : s = ⟨h.size⟩ := by cases s; simpa using hnew
    rw [hself, elements_newList_self] at hv
    exact hvs v hv

end SharedValues.Store
