import SharedValues.Store.Basic

/-!
# What is left beside a path

A walk through lists that may contain themselves carries the path of what it is inside of, and
turns back when it meets something on the path again. It ends because the path never holds
anything twice: each step leaves fewer lists, or fewer pairs of lists, that are not yet on it.
-/

namespace SharedValues

/-- How many of `all` are not on the path. -/
def remaining {α : Type} [DecidableEq α] (all path : List α) : Nat :=
  (all.filter fun a => decide (a ∉ path)).length

theorem remaining_nil {α : Type} [DecidableEq α] (all : List α) :
    remaining all [] = all.length := by
  simp [remaining]

theorem remaining_cons_lt {α : Type} [DecidableEq α] {all path : List α} {a : α}
    (ha : a ∈ all) (hp : a ∉ path) : remaining all (a :: path) < remaining all path := by
  have hsplit : (all.filter fun b => decide (b ∉ a :: path)) =
      (all.filter fun b => decide (b ∉ path)).filter fun b => decide (b ≠ a) := by
    rw [List.filter_filter]
    congr 1
    funext b
    simp
  unfold remaining
  rw [hsplit]
  refine List.length_filter_lt_length_iff_exists.2 ⟨a, ?_, by simp⟩
  simp [ha, hp]

namespace Store

/-- Entering a list that has an element leaves fewer lists beside the path. -/
theorem remaining_refs_lt {h : Store} {path : List ListRef} {r : ListRef} {v : Value}
    (hv : v ∈ h.elements r) (hp : r ∉ path) :
    remaining h.refs (r :: path) < remaining h.refs path :=
  remaining_cons_lt (mem_refs_iff.2 (holds_of_mem_elements hv)) hp

/-- Entering two lists that have elements at one index leaves fewer pairs beside the path. -/
theorem remaining_pairs_lt {h : Store} {path : List (ListRef × ListRef)} {a b : ListRef}
    {p : Value × Value} (hm : p ∈ (h.elements a).zip (h.elements b)) (hp : (a, b) ∉ path) :
    remaining h.pairs ((a, b) :: path) < remaining h.pairs path := by
  have hboth := List.of_mem_zip hm
  exact remaining_cons_lt
    (mem_pairs_iff.2 ⟨holds_of_mem_elements hboth.1, holds_of_mem_elements hboth.2⟩) hp

end Store

end SharedValues
