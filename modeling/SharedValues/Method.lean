import SharedValues.Store.Access
import SharedValues.Value.Operators

/-!
# List methods

The operations of a list as a script calls them: on any value, with any value as index. The
receiver is checked first, then the index, then the operation itself.

A truth value is an index of zero or one. An integer beyond 64 bits is never the index of an
element; the fault then names it, moved into the range of 128 bits. An insertion takes such an
integer all the same: the sign that the fault still shows tells which end of the list it means.
-/

namespace SharedValues.Method

/-- The list on which a method is called. -/
def receiver (operation : String) : Value → Except Fault ListRef
  | .list r => .ok r
  | v => .error (.wrongReceiver operation Kind.list.name v.typeName)

/-- The integer that a value gives as an index. -/
def index : Value → Except Fault Int
  | .bool b => .ok (if b then 1 else 0)
  | .int n => .ok n
  | v => .error (.wrongReceiver "list index" Kind.int.name v.typeName)

/-- The first integer beyond a signed word of 64 bits. -/
def wordLimit : Int := 0x8000000000000000

/-- Whether an integer fits a signed word of 64 bits. -/
def fitsWord (n : Int) : Bool := decide (-wordLimit ≤ n ∧ n < wordLimit)

/-- The first integer beyond 128 signed bits. -/
def doubleWordLimit : Int := 0x80000000000000000000000000000000

/-- The nearest integer of 128 signed bits. -/
def saturate (n : Int) : Int := max (-doubleWordLimit) (min n (doubleWordLimit - 1))

/-- The index of an element of a list, refused at once if it does not fit a word. -/
def wordIndex (h : Store) (r : ListRef) (v : Value) : Except Fault Int := do
  let n ← index v
  if fitsWord n then .ok n else .error (h.outOfRange r (saturate n))

/-- The index of an insertion: the first one for an integer below all words, the largest word for an
integer above them. -/
def insertionIndex (h : Store) (r : ListRef) (v : Value) : Except Fault Int :=
  match wordIndex h r v with
  | .error (.indexOutOfRange _ n _) => .ok (if n < 0 then 0 else wordLimit - 1)
  | answer => answer

def length (h : Store) (on : Value) : Except Fault Nat := do
  let r ← receiver "len" on
  .ok (h.length r)

def get (h : Store) (on i : Value) : Except Fault Value := do
  let r ← receiver "__getitem__" on
  let n ← wordIndex h r i
  h.get r n

def set (h : Store) (on i v : Value) : Except Fault Store := do
  let r ← receiver "__setitem__" on
  let n ← wordIndex h r i
  h.set r n v

def append (h : Store) (on v : Value) : Except Fault Store := do
  let r ← receiver "append" on
  .ok (h.append r v)

def insert (h : Store) (on i v : Value) : Except Fault Store := do
  let r ← receiver "insert" on
  let n ← insertionIndex h r i
  .ok (h.insert r n v)

def pop (h : Store) (on : Value) (i : Option Value) : Except Fault (Value × Store) := do
  let r ← receiver "pop" on
  match i with
  | none => h.pop r none
  | some i => do
    let n ← wordIndex h r i
    h.pop r (some n)

def clear (h : Store) (on : Value) : Except Fault Store := do
  let r ← receiver "clear" on
  .ok (h.clear r)

def resize (h : Store) (on : Value) (count : Nat) : Except Fault Store := do
  let r ← receiver "resize" on
  .ok (h.resize r count)

def contains (h : Store) (on v : Value) : Except Fault Bool := do
  let _ ← receiver "__contains__" on
  Value.contains h on v

/-- A cursor in front of the first element. -/
def iterate (on : Value) : Except Fault Cursor := do
  let r ← receiver "__iter__" on
  .ok (Cursor.start r)

end SharedValues.Method
