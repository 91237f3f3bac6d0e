import SharedValues.Store.Path

/-!
# Equality of values

Two lists agree if they are one list, or have equally many elements that agree index by index. On
lists that contain themselves this is read as generously as it can be: a pair of lists that is met
again while it is being compared counts as agreeing.

How values other than two lists agree is a parameter of the walk. For `equals` a truth value is the
number zero or one; `strictEq` keeps the kinds apart.
-/

namespace SharedValues.Value

/-- Agreement of two values when they are not both lists, numbers by their value. -/
def looseLeaf : Value → Value → Bool
  | .none, .none => true
  | .bytes a, .bytes b => a.data == b.data
  | .text a, .text b => a.data == b.data
  | v, w =>
    match v.numeric?, w.numeric? with
    | some m, some n => m == n
    | _, _ => false

/-- Agreement of two values of one kind when they are not both lists. -/
def strictLeaf : Value → Value → Bool
  | .none, .none => true
  | .bool a, .bool b => a == b
  | .int m, .int n => m == n
  | .bytes a, .bytes b => a.data == b.data
  | .text a, .text b => a.data == b.data
  | _, _ => false

/-- Agreement of two values inside the pairs of lists of `path`, which are taken to agree. -/
def agreeWithin (leaf : Value → Value → Bool) (h : Store) (path : List (ListRef × ListRef)) :
    Value → Value → Bool
  | .list a, .list b =>
    if _hp : a = b ∨ (a, b) ∈ path then true
    else
      (h.elements a).length == (h.elements b).length &&
        ((h.elements a).zip (h.elements b)).attach.all fun ⟨p, _⟩ =>
          agreeWithin leaf h ((a, b) :: path) p.1 p.2
  | v, w => leaf v w
termination_by remaining h.pairs path
decreasing_by
  rename_i hm
  exact Store.remaining_pairs_lt hm fun hp => _hp (Or.inr hp)

theorem agreeWithin_list_of_mem {leaf : Value → Value → Bool} {h : Store}
    {path : List (ListRef × ListRef)} {a b : ListRef} (hp : a = b ∨ (a, b) ∈ path) :
    agreeWithin leaf h path (.list a) (.list b) = true := by
  rw [agreeWithin]
  simp [hp]

theorem agreeWithin_list_of_not_mem {leaf : Value → Value → Bool} {h : Store}
    {path : List (ListRef × ListRef)} {a b : ListRef} (hp : ¬ (a = b ∨ (a, b) ∈ path)) :
    agreeWithin leaf h path (.list a) (.list b) =
      ((h.elements a).length == (h.elements b).length &&
        ((h.elements a).zip (h.elements b)).all fun p =>
          agreeWithin leaf h ((a, b) :: path) p.1 p.2) := by
  rw [agreeWithin, dif_neg hp]
  congr 1
  rw [Bool.eq_iff_iff, List.all_eq_true, List.all_eq_true]
  exact ⟨fun hall p hm => hall ⟨p, hm⟩ (List.mem_attach _ _), fun hall p _ => hall p.1 p.2⟩

theorem agreeWithin_leaf {leaf : Value → Value → Bool} {h : Store}
    {path : List (ListRef × ListRef)} {v w : Value}
    (hvw : v.list? = Option.none ∨ w.list? = Option.none) :
    agreeWithin leaf h path v w = leaf v w := by
  rw [agreeWithin]
  rintro a b rfl rfl
  simp [list?] at hvw

/-- Equality as the language's comparison sees it. -/
def equals (h : Store) (v w : Value) : Bool := agreeWithin looseLeaf h [] v w

/-- Equality that keeps truth values and integers apart. -/
def strictEq (h : Store) (v w : Value) : Bool := agreeWithin strictLeaf h [] v w

end SharedValues.Value
