import SharedValues.Fault
import SharedValues.Value.Equality

/-!
# The order of values

Numbers are ordered by value, byte strings and texts by their first difference, lists by their
first pair of elements that are not equal and else by length. Values of other kinds, or of two
kinds that are not both numbers, have no order.

As in equality, a pair of lists that is met again while it is being compared counts as equal; the
search for the first difference and the comparison of that difference share one path.
-/

namespace SharedValues.Value

/-- The order of values that are not both lists. -/
def compareLeaf : Value → Value → Except Fault Ordering
  | .bytes a, .bytes b => .ok (compare (a.data.map UInt8.toNat) (b.data.map UInt8.toNat))
  | .text a, .text b =>
    .ok (compare (a.data.toList.map Char.toNat) (b.data.toList.map Char.toNat))
  | v, w =>
    match v.numeric?, w.numeric? with
    | some m, some n => .ok (compare m n)
    | _, _ => .error (.typeMismatch "<" v.typeName w.typeName)

/-- The first of some pairs of values that are not equal, inside the pairs of lists of `path`. -/
def firstDifference? (h : Store) (path : List (ListRef × ListRef)) (ps : List (Value × Value)) :
    Option (Value × Value) :=
  ps.find? fun p => !agreeWithin looseLeaf h path p.1 p.2

/-- The first pair that is not equal, together with its membership. -/
def firstDifferenceMem? (h : Store) (path : List (ListRef × ListRef))
    (ps : List (Value × Value)) : Option { p : Value × Value // p ∈ ps } :=
  ps.attach.find? fun p => !agreeWithin looseLeaf h path p.1.1 p.1.2

theorem map_val_firstDifferenceMem? (h : Store) (path : List (ListRef × ListRef))
    (ps : List (Value × Value)) :
    (firstDifferenceMem? h path ps).map Subtype.val = firstDifference? h path ps := by
  have hattach : ps.attach.map Subtype.val = ps := List.attach_map_subtype_val ps
  conv => rhs; rw [firstDifference?, ← hattach, List.find?_map]
  rfl

/-- The order of two values inside the pairs of lists of `path`, which are taken to be equal. -/
def compareWithin (h : Store) (path : List (ListRef × ListRef)) :
    Value → Value → Except Fault Ordering
  | .list a, .list b =>
    if _hp : a = b ∨ (a, b) ∈ path then .ok .eq
    else
      match firstDifferenceMem? h ((a, b) :: path) ((h.elements a).zip (h.elements b)) with
      | some ⟨p, _⟩ => compareWithin h ((a, b) :: path) p.1 p.2
      | Option.none => .ok (compare (h.length a) (h.length b))
  | v, w => compareLeaf v w
termination_by remaining h.pairs path
decreasing_by
  rename_i hm
  exact Store.remaining_pairs_lt hm fun hp => _hp (Or.inr hp)

theorem compareWithin_list_of_mem {h : Store} {path : List (ListRef × ListRef)} {a b : ListRef}
    (hp : a = b ∨ (a, b) ∈ path) : compareWithin h path (.list a) (.list b) = .ok .eq := by
  rw [compareWithin]
  simp [hp]

theorem compareWithin_list_of_not_mem {h : Store} {path : List (ListRef × ListRef)}
    {a b : ListRef} (hp : ¬ (a = b ∨ (a, b) ∈ path)) :
    compareWithin h path (.list a) (.list b) =
      match firstDifference? h ((a, b) :: path) ((h.elements a).zip (h.elements b)) with
      | some p => compareWithin h ((a, b) :: path) p.1 p.2
      | Option.none => .ok (compare (h.length a) (h.length b)) := by
  rw [compareWithin, dif_neg hp, ← map_val_firstDifferenceMem?]
  cases firstDifferenceMem? h ((a, b) :: path) ((h.elements a).zip (h.elements b)) with
  | none => rfl
  | some p => rfl

theorem compareWithin_leaf {h : Store} {path : List (ListRef × ListRef)} {v w : Value}
    (hvw : v.list? = Option.none ∨ w.list? = Option.none) :
    compareWithin h path v w = compareLeaf v w := by
  rw [compareWithin]
  rintro a b rfl rfl
  simp [list?] at hvw

/-- The order of two values. -/
def compareValues (h : Store) (v w : Value) : Except Fault Ordering := compareWithin h [] v w

/-- Whether the first value is less than the second. -/
def lessThan (h : Store) (v w : Value) : Except Fault Bool :=
  (compareValues h v w).map fun o => o == .lt

end SharedValues.Value
