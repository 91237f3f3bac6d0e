import Mathlib.Data.List.Basic
import SharedValues.Value.Order

/-!
# Order and equality

The order and equality are two walks. They treat the length of lists at different moments, and the
order looks for its first difference with the walk of equality on its own path. On every path the
order answers "equal" for the pairs that equality accepts, apart from nothing and nothing, which
have no order. That exception stays at the top: inside of lists such a pair is no difference, so
the order never gets to compare it.
-/

namespace SharedValues.Value

variable {h : Store}

theorem map_toNat_bytes_inj {a b : List UInt8} :
    a.map UInt8.toNat = b.map UInt8.toNat ↔ a = b :=
  (List.map_injective_iff.2 fun _ _ => UInt8.toNat_inj.1).eq_iff

theorem map_toNat_chars_inj {s t : String} :
    s.toList.map Char.toNat = t.toList.map Char.toNat ↔ s = t := by
  rw [(List.map_injective_iff.2 fun _ _ => Char.toNat_inj.1).eq_iff, String.toList_inj]

/-- Without lists: the order finds equal what equality does, but has no answer for nothing. -/
theorem compareLeaf_eq_ok_eq_iff {v w : Value} :
    compareLeaf v w = .ok .eq ↔ looseLeaf v w = true ∧ ¬ (v = .none ∧ w = .none) := by
  cases v with
  | none => cases w <;> simp [compareLeaf, looseLeaf, numeric?]
  | bool b => cases w <;> simp [compareLeaf, looseLeaf, numeric?]
  | int n => cases w <;> simp [compareLeaf, looseLeaf, numeric?]
  | bytes a =>
    cases w with
    | bytes b => simp [compareLeaf, looseLeaf, map_toNat_bytes_inj]
    | _ => simp [compareLeaf, looseLeaf, numeric?]
  | text a =>
    cases w with
    | text b => simp [compareLeaf, looseLeaf, map_toNat_chars_inj]
    | _ => simp [compareLeaf, looseLeaf, numeric?]
  | list a => cases w <;> simp [compareLeaf, looseLeaf, numeric?]

theorem firstDifference?_eq_none_iff {path : List (ListRef × ListRef)}
    {ps : List (Value × Value)} :
    firstDifference? h path ps = Option.none ↔
      ∀ p ∈ ps, agreeWithin looseLeaf h path p.1 p.2 = true := by
  simp [firstDifference?]

theorem not_agree_of_firstDifference? {path : List (ListRef × ListRef)}
    {ps : List (Value × Value)} {p : Value × Value} (hp : firstDifference? h path ps = some p) :
    agreeWithin looseLeaf h path p.1 p.2 = false := by
  have hnot := List.find?_some hp
  simpa using hnot

theorem firstDifference?_of_mem {path : List (ListRef × ListRef)} {ps : List (Value × Value)}
    {p : { p : Value × Value // p ∈ ps }} (hp : firstDifferenceMem? h path ps = some p) :
    firstDifference? h path ps = some p.1 := by
  rw [← map_val_firstDifferenceMem?, hp, Option.map_some]

/-- On every path, the order answers "equal" where equality answers yes, except for nothing. -/
theorem compareWithin_eq_ok_eq_iff (path : List (ListRef × ListRef)) (v w : Value) :
    compareWithin h path v w = .ok .eq ↔
      agreeWithin looseLeaf h path v w = true ∧ ¬ (v = .none ∧ w = .none) := by
  induction path, v, w using compareWithin.induct (h := h) with
  | case1 path a b hp => simp [compareWithin_list_of_mem hp, agreeWithin_list_of_mem hp]
  | case2 path a b hp p hm hfirst ih =>
    have hsome := firstDifference?_of_mem hfirst
    have hnot := not_agree_of_firstDifference? hsome
    rw [compareWithin_list_of_not_mem hp, hsome, agreeWithin_list_of_not_mem hp]
    -- The first difference is unequal on the longer path, so neither side holds.
    have hcompare : compareWithin h ((a, b) :: path) p.1 p.2 ≠ .ok .eq := by
      rw [Ne, ih, hnot]
      simp
    have hall : ¬ ((h.elements a).zip (h.elements b)).all (fun p =>
        agreeWithin looseLeaf h ((a, b) :: path) p.1 p.2) = true := by
      intro hall
      have hp := List.all_eq_true.1 hall p hm
      rw [hnot] at hp
      exact Bool.false_ne_true hp
    simp [hcompare, hall]
  | case3 path a b hp hfirst =>
    have hnone : firstDifference? h ((a, b) :: path)
        ((h.elements a).zip (h.elements b)) = Option.none := by
      rw [← map_val_firstDifferenceMem?, hfirst, Option.map_none]
    have hall := List.all_eq_true.2 (firstDifference?_eq_none_iff.1 hnone)
    rw [compareWithin_list_of_not_mem hp, hnone, agreeWithin_list_of_not_mem hp, hall]
    simp [Store.length_eq]
  | case4 path v w hlists =>
    rw [compareWithin, agreeWithin]
    · exact compareLeaf_eq_ok_eq_iff
    · exact hlists
    · exact hlists

/-- The order of two values is "equal" exactly when they are equal and not both nothing. So equal
values are ordered as equal, or else they are nothing and nothing, which the order refuses. -/
theorem compareValues_eq_iff_equals (h : Store) (v w : Value) :
    (compareValues h v w = .ok .eq ↔ equals h v w = true ∧ ¬ (v = .none ∧ w = .none)) ∧
      (equals h v w = true ↔ compareValues h v w = .ok .eq ∨
        (v = .none ∧ w = .none ∧
          compareValues h v w = .error (.typeMismatch "<" "NoneType" "NoneType"))) := by
  have hiff := compareWithin_eq_ok_eq_iff (h := h) [] v w
  refine ⟨hiff, ?_⟩
  constructor
  · intro hvw
    by_cases hnone : v = .none ∧ w = .none
    · obtain ⟨rfl, rfl⟩ := hnone
      have hfails : compareValues h .none .none = _ := compareWithin_leaf (Or.inl rfl)
      exact Or.inr ⟨rfl, rfl, hfails⟩
    · exact Or.inl (hiff.2 ⟨hvw, hnone⟩)
  · rintro (heq | ⟨rfl, rfl, _⟩)
    · exact (hiff.1 heq).1
    · exact agreeWithin_leaf (Or.inl rfl)

end SharedValues.Value
