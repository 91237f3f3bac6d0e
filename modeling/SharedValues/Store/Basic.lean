import SharedValues.Value

/-!
# The store of lists

A store holds the elements of every list under the list's name. Names are given out in order and
are never given out again, so a new list is different from every list that the store already holds.
The store also gives out the tags of texts and byte strings.

`elements` is the view of a store. Each operation on a store is described by what it does to the
elements of every list: a write changes one list, a new list changes none of the old ones.
-/

namespace SharedValues

/-- The elements of every list, by name, and the next tag for a text or a byte string. -/
structure Store where
  cells : Array (List Value)
  nextTag : Nat
deriving Repr

namespace Store

/-- The store without lists. -/
def empty : Store := ⟨#[], 0⟩

/-- The number of lists. -/
def size (h : Store) : Nat := h.cells.size

/-- A list lives in the store that has given out its name. -/
def Holds (h : Store) (r : ListRef) : Prop := r.id < h.size

instance (h : Store) (r : ListRef) : Decidable (h.Holds r) :=
  inferInstanceAs (Decidable (r.id < h.size))

/-- The elements of a list, in order. A name that was never given out has none. -/
def elements (h : Store) (r : ListRef) : List Value := (h.cells[r.id]?).getD []

/-- The number of elements of a list. -/
def length (h : Store) (r : ListRef) : Nat := (h.elements r).length

/-- Replaces the elements of a list. -/
def write (h : Store) (r : ListRef) (vs : List Value) : Store :=
  { h with cells := h.cells.setIfInBounds r.id vs }

/-- A new list with the given elements. -/
def newList (h : Store) (vs : List Value) : Value × Store :=
  (.list ⟨h.size⟩, { h with cells := h.cells.push vs })

/-- A new text object. -/
def newText (h : Store) (s : String) : Value × Store :=
  (.text ⟨h.nextTag, s⟩, { h with nextTag := h.nextTag + 1 })

/-- A new byte string object. -/
def newBytes (h : Store) (bs : List UInt8) : Value × Store :=
  (.bytes ⟨h.nextTag, bs⟩, { h with nextTag := h.nextTag + 1 })

/-! ### What the operations do to the elements -/

theorem elements_of_not_holds {h : Store} {r : ListRef} (hr : ¬ h.Holds r) :
    h.elements r = [] := by
  have : h.cells[r.id]? = none := Array.getElem?_eq_none (Nat.le_of_not_lt hr)
  simp [elements, this]

theorem holds_of_mem_elements {h : Store} {r : ListRef} {v : Value} (hv : v ∈ h.elements r) :
    h.Holds r := by
  by_cases hr : h.Holds r
  · exact hr
  · simp [elements_of_not_holds hr] at hv

theorem length_eq (h : Store) (r : ListRef) : h.length r = (h.elements r).length := rfl

@[simp] theorem size_write (h : Store) (r : ListRef) (vs : List Value) :
    (h.write r vs).size = h.size := by
  simp [write, size]

theorem elements_write_self {h : Store} {r : ListRef} (hr : h.Holds r) (vs : List Value) :
    (h.write r vs).elements r = vs := by
  have : r.id < h.cells.size := hr
  simp [write, elements, this]

theorem elements_write_of_ne {h : Store} {r s : ListRef} (hs : s ≠ r) (vs : List Value) :
    (h.write r vs).elements s = h.elements s := by
  have : r.id ≠ s.id := fun e => hs (by cases r; cases s; simp_all)
  simp [write, elements, this]

@[simp] theorem size_newList (h : Store) (vs : List Value) :
    (h.newList vs).2.size = h.size + 1 := by
  simp [newList, size]

theorem elements_newList_self (h : Store) (vs : List Value) :
    (h.newList vs).2.elements ⟨h.size⟩ = vs := by
  simp [newList, elements, size]

theorem elements_newList_of_holds {h : Store} {r : ListRef} (hr : h.Holds r) (vs : List Value) :
    (h.newList vs).2.elements r = h.elements r := by
  have : r.id ≠ h.cells.size := Nat.ne_of_lt hr
  simp [newList, elements, Array.getElem?_push, this]

@[simp] theorem elements_newText (h : Store) (s : String) (r : ListRef) :
    (h.newText s).2.elements r = h.elements r := rfl

@[simp] theorem elements_newBytes (h : Store) (bs : List UInt8) (r : ListRef) :
    (h.newBytes bs).2.elements r = h.elements r := rfl

@[simp] theorem size_newText (h : Store) (s : String) : (h.newText s).2.size = h.size := rfl

@[simp] theorem size_newBytes (h : Store) (bs : List UInt8) :
    (h.newBytes bs).2.size = h.size := rfl

/-! ### The lists of a store -/

/-- The names of all lists of the store. -/
def refs (h : Store) : List ListRef := (List.range h.size).map ListRef.mk

/-- All ordered pairs of lists of the store. -/
def pairs (h : Store) : List (ListRef × ListRef) :=
  h.refs.flatMap fun a => h.refs.map fun b => (a, b)

theorem mem_refs_iff {h : Store} {r : ListRef} : r ∈ h.refs ↔ h.Holds r := by
  constructor
  · intro hr
    obtain ⟨i, hi, rfl⟩ := List.mem_map.1 hr
    exact List.mem_range.1 hi
  · intro hr
    exact List.mem_map.2 ⟨r.id, List.mem_range.2 hr, rfl⟩

theorem mem_pairs_iff {h : Store} {a b : ListRef} :
    (a, b) ∈ h.pairs ↔ h.Holds a ∧ h.Holds b := by
  simp [pairs, mem_refs_iff]

theorem length_refs (h : Store) : h.refs.length = h.size := by
  simp [refs]

theorem length_pairs (h : Store) : h.pairs.length = h.size * h.size := by
  rw [pairs, List.length_flatMap]
  simp only [List.length_map, length_refs, List.map_const', List.sum_replicate_nat]

end Store

end SharedValues
