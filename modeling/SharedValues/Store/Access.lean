import SharedValues.Fault
import SharedValues.Store.Basic

/-!
# Access to the elements of a list

Indices are integers counted from zero; there is no counting from the end. Reading, replacing and
removing need an index of an element. Inserting takes any index and moves one that is out of range
to the nearer end.

Each operation answers with what it found and with the store after it. An operation that fails
answers with the fault alone, so it leaves no store behind.

A cursor walks a list by position and reads the list as it is at that moment, so it sees what was
added, removed or replaced since its last step. At the end it stays where it is: if the list grows
later, the cursor goes on.
-/

namespace SharedValues

namespace Store

/-- The element at an index, if there is one. -/
def elementAt? (h : Store) (r : ListRef) (i : Int) : Option Value :=
  if 0 ≤ i then (h.elements r)[i.toNat]? else none

/-- The fault of an index that names no element of a list. -/
def outOfRange (h : Store) (r : ListRef) (i : Int) : Fault :=
  .indexOutOfRange "list" i (h.length r)

/-- The element at an index. -/
def get (h : Store) (r : ListRef) (i : Int) : Except Fault Value :=
  match h.elementAt? r i with
  | some v => .ok v
  | none => .error (h.outOfRange r i)

/-- Replaces the element at an index. -/
def set (h : Store) (r : ListRef) (i : Int) (v : Value) : Except Fault Store :=
  match h.elementAt? r i with
  | some _ => .ok (h.write r ((h.elements r).set i.toNat v))
  | none => .error (h.outOfRange r i)

/-- Adds an element at the end. -/
def append (h : Store) (r : ListRef) (v : Value) : Store :=
  h.write r (h.elements r ++ [v])

/-- The place of an insertion: the index itself, or the nearer end of a list of this length. -/
def insertionPoint (length : Nat) (i : Int) : Nat := min i.toNat length

/-- Puts an element in front of the one at an index. -/
def insert (h : Store) (r : ListRef) (i : Int) (v : Value) : Store :=
  let k := insertionPoint (h.length r) i
  h.write r ((h.elements r).take k ++ v :: (h.elements r).drop k)

/-- Removes the element at an index, or the last one, and answers with it. That there is no
element at all is noticed before the index is looked at. -/
def pop (h : Store) (r : ListRef) (i : Option Int) : Except Fault (Value × Store) :=
  if (h.elements r).isEmpty then .error (.emptyContainer "list")
  else
    let i := i.getD (h.length r - 1 : Nat)
    match h.elementAt? r i with
    | some v => .ok (v, h.write r ((h.elements r).eraseIdx i.toNat))
    | none => .error (h.outOfRange r i)

/-- Removes all elements. -/
def clear (h : Store) (r : ListRef) : Store := h.write r []

/-- Brings a list to a length: elements at the end are dropped, missing ones are nothing. -/
def resize (h : Store) (r : ListRef) (count : Nat) : Store :=
  h.write r ((h.elements r).take count ++ List.replicate (count - h.length r) Value.none)

theorem elementAt?_eq_some_iff {h : Store} {r : ListRef} {i : Int} {v : Value} :
    h.elementAt? r i = some v ↔ 0 ≤ i ∧ (h.elements r)[i.toNat]? = some v := by
  unfold elementAt?
  split
  · rename_i hi
    simp [hi]
  · rename_i hi
    simp [hi]

theorem elementAt?_eq_none_iff {h : Store} {r : ListRef} {i : Int} :
    h.elementAt? r i = none ↔ i < 0 ∨ (h.length r : Int) ≤ i := by
  unfold elementAt?
  split
  · rename_i hi
    rw [List.getElem?_eq_none_iff, ← length_eq]
    omega
  · simp
    omega

end Store

/-- A place in a list. -/
structure Cursor where
  list : ListRef
  position : Nat
deriving DecidableEq, Repr

namespace Cursor

/-- The cursor in front of the first element of a list. -/
def start (r : ListRef) : Cursor := ⟨r, 0⟩

/-- The element under the cursor, and the cursor behind it. -/
def next (h : Store) (c : Cursor) : Option Value × Cursor :=
  match (h.elements c.list)[c.position]? with
  | some v => (some v, ⟨c.list, c.position + 1⟩)
  | none => (none, c)

theorem next_of_lt {h : Store} {c : Cursor} {v : Value}
    (hv : (h.elements c.list)[c.position]? = some v) :
    c.next h = (some v, ⟨c.list, c.position + 1⟩) := by
  simp [next, hv]

theorem next_of_ge {h : Store} {c : Cursor} (hc : h.length c.list ≤ c.position) :
    c.next h = (none, c) := by
  have : (h.elements c.list)[c.position]? = none := List.getElem?_eq_none hc
  simp [next, this]

end Cursor

end SharedValues
