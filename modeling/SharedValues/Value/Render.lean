import SharedValues.Literal
import SharedValues.Store.Path

/-!
# The written form of values

`repr` writes a value so that it can be told from every other: a list stands in brackets, a text or
a byte string as its literal. A list that is met again while it is being written is cut short to
`[...]`; a list that is only shared is written in full every time.

`display` is what printing shows: a text as it is, anything else as `repr` writes it.
-/

namespace SharedValues.Value

open Digits

/-- The mark of a list inside itself. -/
def cut : List Char := ['[', '.', '.', '.', ']']

/-- Elements between brackets. -/
def bracketed (items : List (List Char)) : List Char :=
  '[' :: ([',', ' '].intercalate items ++ [']'])

/-- The characters of a value inside the lists of `path`. -/
def writeWithin (h : Store) (path : List ListRef) : Value → List Char
  | .none => ['N', 'o', 'n', 'e']
  | .bool true => ['T', 'r', 'u', 'e']
  | .bool false => ['F', 'a', 'l', 's', 'e']
  | .int n => decimal n
  | .bytes object => Literal.ofBytes object.data
  | .text object => Literal.ofText object.data
  | .list r =>
    if _hp : r ∈ path then cut
    else bracketed ((h.elements r).attach.map fun ⟨v, _⟩ => writeWithin h (r :: path) v)
termination_by remaining h.refs path
decreasing_by
  rename_i hv
  exact Store.remaining_refs_lt hv _hp

theorem writeWithin_list_of_mem {h : Store} {path : List ListRef} {r : ListRef} (hr : r ∈ path) :
    writeWithin h path (.list r) = cut := by
  rw [writeWithin]
  simp [hr]

theorem writeWithin_list_of_not_mem {h : Store} {path : List ListRef} {r : ListRef}
    (hr : r ∉ path) :
    writeWithin h path (.list r) =
      bracketed ((h.elements r).map (writeWithin h (r :: path))) := by
  rw [writeWithin]
  simp [hr]

/-- The characters of the written form of a value. -/
def write (h : Store) (v : Value) : List Char := writeWithin h [] v

/-- The written form of a value. -/
def repr (h : Store) (v : Value) : String := String.ofList (write h v)

/-- The text of a value as printing shows it. -/
def display (h : Store) : Value → String
  | .text object => object.data
  | v => repr h v

/-- The form of a value that names its kind. -/
def debug (h : Store) : Value → String
  | .none => "None"
  | .bool b => "Bool(" ++ (if b then "true" else "false") ++ ")"
  | .int n => "Int(" ++ String.ofList (decimal n) ++ ")"
  | v => v.typeName ++ "(" ++ repr h v ++ ")"

end SharedValues.Value

namespace SharedValues.Store

/-- The elements of a list, each in the form that names its kind. -/
def debugList (h : Store) (r : ListRef) : String :=
  "[" ++ ", ".intercalate ((h.elements r).map (Value.debug h)) ++ "]"

end SharedValues.Store
