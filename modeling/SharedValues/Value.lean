/-!
# Values

The values of the language. Nothing, truth values and integers are what they are. A text or a byte
string is an object: a payload that never changes, together with the tag of the object that holds
it. A list is only named here; its elements are in a `Store`, so that a list can be shared, changed
through any of its names, and can contain itself.

Two values are the same object exactly when they are equal as members of `Value`.
-/

namespace SharedValues

/-- The name of a list in a store. -/
structure ListRef where
  id : Nat
deriving DecidableEq, Repr

/-- An object with a payload that never changes. Objects made separately have different tags, so
two of them differ even if their payloads agree. -/
structure Boxed (α : Type) where
  tag : Nat
  data : α
deriving DecidableEq, Repr

/-- The values of the language. -/
inductive Value where
  | none
  | bool (b : Bool)
  | int (n : Int)
  | bytes (object : Boxed (List UInt8))
  | text (object : Boxed String)
  | list (ref : ListRef)
deriving DecidableEq, Repr

instance : Inhabited Value := ⟨.none⟩

/-- The kinds of value. -/
inductive Kind where
  | none
  | bool
  | int
  | bytes
  | text
  | list
deriving DecidableEq, Repr

/-- The name under which a kind appears in messages. -/
def Kind.name : Kind → String
  | .none => "NoneType"
  | .bool => "bool"
  | .int => "int"
  | .bytes => "bytes"
  | .text => "str"
  | .list => "list"

namespace Value

def kind : Value → Kind
  | .none => .none
  | .bool _ => .bool
  | .int _ => .int
  | .bytes _ => .bytes
  | .text _ => .text
  | .list _ => .list

/-- The name of the value's kind. -/
def typeName (v : Value) : String := v.kind.name

/-- The number a value stands for in arithmetic: a truth value counts as zero or one. -/
def numeric? : Value → Option Int
  | .bool b => some (if b then 1 else 0)
  | .int n => some n
  | _ => Option.none

/-- Whether two values are the same object. -/
def isSame (v w : Value) : Bool := decide (v = w)

def bool? : Value → Option Bool
  | .bool b => some b
  | _ => Option.none

def int? : Value → Option Int
  | .int n => some n
  | _ => Option.none

def bytes? : Value → Option (List UInt8)
  | .bytes object => some object.data
  | _ => Option.none

def text? : Value → Option String
  | .text object => some object.data
  | _ => Option.none

def list? : Value → Option ListRef
  | .list ref => some ref
  | _ => Option.none

theorem isSame_iff {v w : Value} : v.isSame w = true ↔ v = w := by
  simp [isSame]

@[simp] theorem isSame_self (v : Value) : v.isSame v = true := by
  simp [isSame]

theorem list?_eq_some_iff {v : Value} {r : ListRef} : v.list? = some r ↔ v = .list r := by
  cases v <;> simp [list?]

theorem kind_eq_list_iff {v : Value} : v.kind = .list ↔ ∃ r, v = .list r := by
  cases v <;> simp [kind]

end Value

end SharedValues
