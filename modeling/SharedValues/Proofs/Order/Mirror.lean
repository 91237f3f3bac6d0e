import Mathlib.Data.List.Zip
import Mathlib.Data.Prod.Basic
import SharedValues.Proofs.Agreement.Depth
import SharedValues.Proofs.Order.Equality

/-!
# The order read from the right

Swapping two values mirrors their order: less becomes greater, equal stays equal, and a fault names
the two kinds the other way round. Both walks are followed on the path with every pair swapped.
-/

namespace SharedValues

/-- The fault of the same operation with its operands swapped. -/
def Fault.mirrored : Fault → Fault
  | .typeMismatch operation left right => .typeMismatch operation right left
  | fault => fault

namespace Value

/-- The answer of the order with its operands swapped. -/
def mirrored : Except Fault Ordering → Except Fault Ordering
  | .ok o => .ok o.swap
  | .error fault => .error fault.mirrored

variable {h : Store}

theorem looseLeaf_comm (v w : Value) : looseLeaf v w = looseLeaf w v := by
  cases v <;> cases w <;> simp [looseLeaf, numeric?, BEq.comm]

theorem compareLeaf_swap (v w : Value) : compareLeaf w v = mirrored (compareLeaf v w) := by
  cases v <;> cases w <;>
    simp [compareLeaf, numeric?, mirrored, Fault.mirrored, ← Std.OrientedCmp.eq_swap]

theorem onPath_swap_iff {path : List (ListRef × ListRef)} {a b : ListRef} :
    b = a ∨ (b, a) ∈ path.map Prod.swap ↔ a = b ∨ (a, b) ∈ path :=
  or_congr eq_comm (List.mem_map_of_injective Prod.swap_injective (a := (a, b)))

theorem agreeWithin_swap {leaf : Value → Value → Bool} (hcomm : ∀ v w, leaf v w = leaf w v)
    (path : List (ListRef × ListRef)) (v w : Value) :
    agreeWithin leaf h (path.map Prod.swap) w v = agreeWithin leaf h path v w := by
  induction path, v, w using agreeWithin.induct (h := h) with
  | case1 path a b hp =>
    rw [agreeWithin_list_of_mem hp, agreeWithin_list_of_mem (onPath_swap_iff.2 hp)]
  | case2 path a b hp ih =>
    rw [agreeWithin_list_of_not_mem hp, agreeWithin_list_of_not_mem (mt onPath_swap_iff.1 hp),
      BEq.comm, ← List.zip_swap, List.all_map]
    congr 1
    rw [Bool.eq_iff_iff, List.all_eq_true, List.all_eq_true]
    exact forall₂_congr fun p hm => Bool.eq_iff_iff.1 (ih p hm)
  | case3 path v w hlists =>
    rw [agreeWithin, agreeWithin, hcomm]
    · exact hlists
    · rintro a b rfl rfl
      exact hlists b a rfl rfl

theorem firstDifference?_swap (path : List (ListRef × ListRef)) (ps : List (Value × Value)) :
    firstDifference? h (path.map Prod.swap) (ps.map Prod.swap) =
      (firstDifference? h path ps).map Prod.swap := by
  have htest : (fun p : Value × Value => !agreeWithin looseLeaf h path p.1 p.2) =
      (fun p => !agreeWithin looseLeaf h (path.map Prod.swap) p.1 p.2) ∘ Prod.swap := by
    funext p
    simp only [Function.comp_apply, Prod.fst_swap, Prod.snd_swap, agreeWithin_swap looseLeaf_comm]
  rw [firstDifference?, firstDifference?, List.find?_map, htest]

/-- The two lists opened from the right: what is first different there is first different here. -/
theorem compareWithin_swap_list {path : List (ListRef × ListRef)} {a b : ListRef}
    (hp : ¬ (a = b ∨ (a, b) ∈ path)) :
    compareWithin h (path.map Prod.swap) (.list b) (.list a) =
      match firstDifference? h ((a, b) :: path) ((h.elements a).zip (h.elements b)) with
      | some p => compareWithin h (((a, b) :: path).map Prod.swap) p.2 p.1
      | Option.none => .ok (compare (h.length b) (h.length a)) := by
  have hfirst := firstDifference?_swap (h := h) ((a, b) :: path)
    ((h.elements a).zip (h.elements b))
  rw [List.zip_swap, List.map_cons, Prod.swap_prod_mk] at hfirst
  rw [compareWithin_list_of_not_mem (mt onPath_swap_iff.1 hp), hfirst, List.map_cons,
    Prod.swap_prod_mk]
  cases firstDifference? h ((a, b) :: path) ((h.elements a).zip (h.elements b)) with
  | none => rfl
  | some p => rfl

/-- On every path, swapping two values mirrors the answer of the order. -/
theorem compareWithin_swap (path : List (ListRef × ListRef)) (v w : Value) :
    compareWithin h (path.map Prod.swap) w v = mirrored (compareWithin h path v w) := by
  induction path, v, w using compareWithin.induct (h := h) with
  | case1 path a b hp =>
    rw [compareWithin_list_of_mem hp, compareWithin_list_of_mem (onPath_swap_iff.2 hp)]
    rfl
  | case2 path a b hp p hm hfirst ih =>
    rw [compareWithin_swap_list hp, compareWithin_list_of_not_mem hp,
      firstDifference?_of_mem hfirst]
    exact ih
  | case3 path a b hp hfirst =>
    rw [compareWithin_swap_list hp, compareWithin_list_of_not_mem hp,
      ← map_val_firstDifferenceMem?, hfirst]
    simp only [Option.map_none, mirrored, ← Std.OrientedCmp.eq_swap]
  | case4 path v w hlists =>
    rw [compareWithin, compareWithin, compareLeaf_swap]
    · exact hlists
    · rintro a b rfl rfl
      exact hlists b a rfl rfl

theorem compareValues_swap (v w : Value) :
    compareValues h w v = mirrored (compareValues h v w) :=
  compareWithin_swap [] v w

/-! ### The faults of the order -/

theorem typeMismatch_of_compareLeaf {v w : Value} {fault : Fault}
    (hfault : compareLeaf v w = .error fault) :
    fault = .typeMismatch "<" v.typeName w.typeName := by
  unfold compareLeaf at hfault
  split at hfault
  · cases hfault
  · cases hfault
  · split at hfault
    · cases hfault
    · cases hfault
      rfl

/-- On every path, the order has an answer or names two kinds that have no order. -/
theorem compareWithin_ok_or_typeMismatch (path : List (ListRef × ListRef)) (v w : Value) :
    (∃ o, compareWithin h path v w = .ok o) ∨
      ∃ x y : Value,
        compareWithin h path v w = .error (.typeMismatch "<" x.typeName y.typeName) := by
  induction path, v, w using compareWithin.induct (h := h) with
  | case1 path a b hp => exact Or.inl ⟨_, compareWithin_list_of_mem hp⟩
  | case2 path a b hp p hm hfirst ih =>
    rw [compareWithin_list_of_not_mem hp, firstDifference?_of_mem hfirst]
    exact ih
  | case3 path a b hp hfirst =>
    rw [compareWithin_list_of_not_mem hp, ← map_val_firstDifferenceMem?, hfirst]
    exact Or.inl ⟨_, rfl⟩
  | case4 path v w hlists =>
    rw [compareWithin_leaf (leaf_of_not_lists hlists)]
    cases hvw : compareLeaf v w with
    | ok o => exact Or.inl ⟨o, rfl⟩
    | error fault => exact Or.inr ⟨v, w, by rw [typeMismatch_of_compareLeaf hvw]⟩

theorem mirrored_mirrored (answer : Except Fault Ordering) :
    mirrored (mirrored answer) = answer := by
  cases answer with
  | ok o => rw [mirrored, mirrored, Ordering.swap_swap]
  | error fault => cases fault <;> rfl

/-- Swapping two values turns the ordering of their comparison around, and swaps the two kinds that
a fault of the comparison names. Every comparison has an ordering or such a fault. -/
theorem compareValues_mirrors (h : Store) (v w : Value) :
    (∀ o, compareValues h v w = .ok o ↔ compareValues h w v = .ok o.swap) ∧
      (∀ s t, compareValues h v w = .error (.typeMismatch "<" s t) ↔
        compareValues h w v = .error (.typeMismatch "<" t s)) ∧
      ((∃ o, compareValues h v w = .ok o) ∨
        ∃ x y : Value,
          compareValues h v w = .error (.typeMismatch "<" x.typeName y.typeName)) := by
  have hiff : ∀ answer, compareValues h v w = answer ↔ compareValues h w v = mirrored answer := by
    intro answer
    constructor
    · intro hvw
      rw [compareValues_swap v w, hvw]
    · intro hwv
      rw [compareValues_swap w v, hwv, mirrored_mirrored]
  exact ⟨fun o => hiff (.ok o), fun s t => hiff (.error (.typeMismatch "<" s t)),
    compareWithin_ok_or_typeMismatch [] v w⟩

end Value

end SharedValues
