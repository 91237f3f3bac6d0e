import SharedValues.Fault
import SharedValues.Text.Character
import SharedValues.Value.Equality

/-!
# Operators on values

Truth, sum, containment and length. A sum is always a new object: sequences of one kind are joined,
numbers are added. A joined list has the very elements of both operands. A byte string is looked for
among the parts of another that have its length, a text among the bytes of another.
-/

namespace SharedValues.Value

/-- Nothing, the false truth value, zero and empty sequences are not truthy. -/
def isTruthy (h : Store) : Value → Bool
  | .none => false
  | .bool b => b
  | .int n => n != 0
  | .bytes object => !object.data.isEmpty
  | .text object => !object.data.isEmpty
  | .list r => !(h.elements r).isEmpty

/-- The opposite truth value. -/
def not (h : Store) (v : Value) : Value := .bool (!isTruthy h v)

/-- The sum of two values, in the store that holds it. -/
def add (h : Store) : Value → Value → Except Fault (Value × Store)
  | .bytes a, .bytes b => .ok (h.newBytes (a.data ++ b.data))
  | .text a, .text b => .ok (h.newText (a.data ++ b.data))
  | .list a, .list b => .ok (h.newList (h.elements a ++ h.elements b))
  | v, w =>
    match v.numeric?, w.numeric? with
    | some m, some n => .ok (.int (m + n), h)
    | _, _ => .error (.typeMismatch "+" v.typeName w.typeName)

section Search

variable {α : Type}

/-- The parts of a sequence that have a given length, in the order in which they begin. A sequence
has no cut into parts of length zero. -/
def windows? (size : Nat) (xs : List α) : Option (List (List α)) :=
  if size = 0 then Option.none
  else some ((List.range (xs.length + 1 - size)).map fun start => (xs.drop start).take size)

theorem windows?_eq_none_iff {size : Nat} {xs : List α} :
    windows? size xs = Option.none ↔ size = 0 := by
  simp [windows?]

variable [BEq α]

/-- Compares a sequence with all parts of its length. The empty one is found without a cut. -/
def hasWindow? (needle xs : List α) : Option Bool :=
  if needle.isEmpty then some true
  else (windows? needle.length xs).map fun parts => parts.any (· == needle)

/-- The parts that are asked for never have length zero. -/
theorem isSome_hasWindow? (needle xs : List α) : (hasWindow? needle xs).isSome = true := by
  cases needle with
  | nil => rfl
  | cons a rest => simp [hasWindow?, windows?]

/-- Whether a sequence is a part of another. -/
def hasWindow (needle xs : List α) : Bool :=
  (hasWindow? needle xs).get (isSome_hasWindow? needle xs)

/-- Whether a sequence begins at some place of another. -/
def occursIn (needle : List α) : List α → Bool
  | [] => needle.isEmpty
  | a :: rest => needle.isPrefixOf (a :: rest) || occursIn needle rest

end Search

/-- Whether a container holds an item: as a part of a byte string or a text, as an equal element
of a list. -/
def contains (h : Store) (container item : Value) : Except Fault Bool :=
  match container, item with
  | .bytes a, .bytes b => .ok (hasWindow b.data a.data)
  | .text a, .text b => .ok (occursIn (Text.utf8 b.data.toList) (Text.utf8 a.data.toList))
  | .list r, item => .ok ((h.elements r).any fun v => equals h v item)
  | container, item => .error (.typeMismatch "in" item.typeName container.typeName)

/-- The number of bytes, characters or elements of a sequence. -/
def length (h : Store) : Value → Except Fault Nat
  | .bytes object => .ok object.data.length
  | .text object => .ok object.data.length
  | .list r => .ok (h.length r)
  | v => .error (.wrongReceiver "len" "sized" v.typeName)

end SharedValues.Value
