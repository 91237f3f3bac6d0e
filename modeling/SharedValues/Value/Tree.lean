import SharedValues.Fault
import SharedValues.Literal
import SharedValues.Store.Basic
import SharedValues.Text.Digits

/-!
# Trees

A value from which no cycle is reached denotes a finite tree: its payload, or the trees of its
elements. Trees have no identity and no sharing, so on them the written form, equality and order are
plain recursion.
-/

namespace SharedValues

/-- What a value looks like when every list is spelled out. -/
inductive Tree where
  | none
  | bool (b : Bool)
  | int (n : Int)
  | bytes (data : List UInt8)
  | text (data : String)
  | list (items : List Tree)

namespace Tree

def kind : Tree → Kind
  | .none => .none
  | .bool _ => .bool
  | .int _ => .int
  | .bytes _ => .bytes
  | .text _ => .text
  | .list _ => .list

/-- The number a tree stands for. -/
def numeric? : Tree → Option Int
  | .bool b => some (if b then 1 else 0)
  | .int n => some n
  | _ => Option.none

mutual

/-- The value denotes the tree. -/
inductive DenotedBy (h : Store) : Value → Tree → Prop where
  | none : DenotedBy h .none .none
  | bool (b : Bool) : DenotedBy h (.bool b) (.bool b)
  | int (n : Int) : DenotedBy h (.int n) (.int n)
  | bytes (object : Boxed (List UInt8)) : DenotedBy h (.bytes object) (.bytes object.data)
  | text (object : Boxed String) : DenotedBy h (.text object) (.text object.data)
  | list {r : ListRef} {ts : List Tree} : AllDenotedBy h (h.elements r) ts →
      DenotedBy h (.list r) (.list ts)

/-- The values denote the trees, one by one. -/
inductive AllDenotedBy (h : Store) : List Value → List Tree → Prop where
  | nil : AllDenotedBy h [] []
  | cons {v : Value} {t : Tree} {vs : List Value} {ts : List Tree} : DenotedBy h v t →
      AllDenotedBy h vs ts → AllDenotedBy h (v :: vs) (t :: ts)

end

/-! ### Written form -/

mutual

/-- The characters of a tree. -/
def write : Tree → List Char
  | .none => "None".toList
  | .bool true => "True".toList
  | .bool false => "False".toList
  | .int n => Digits.decimal n
  | .bytes data => Literal.ofBytes data
  | .text data => Literal.ofText data
  | .list items => '[' :: (writeItems items ++ [']'])

/-- The characters of trees, a comma and a blank apart. -/
def writeItems : List Tree → List Char
  | [] => []
  | [t] => write t
  | t :: rest => write t ++ ',' :: ' ' :: writeItems rest

end

/-! ### Equality -/

mutual

/-- Whether two trees are equal, numbers by their value. -/
def equals : Tree → Tree → Bool
  | .none, .none => true
  | .bytes a, .bytes b => a == b
  | .text a, .text b => a == b
  | .list a, .list b => equalItems a b
  | s, t => s.numeric?.isSome && s.numeric? == t.numeric?

/-- Whether trees are equal one by one. -/
def equalItems : List Tree → List Tree → Bool
  | [], [] => true
  | s :: ss, t :: ts => equals s t && equalItems ss ts
  | _, _ => false

end

mutual

/-- Whether two trees are equal, truth values and integers kept apart. -/
def strictEq : Tree → Tree → Bool
  | .none, .none => true
  | .bool a, .bool b => a == b
  | .int m, .int n => m == n
  | .bytes a, .bytes b => a == b
  | .text a, .text b => a == b
  | .list a, .list b => strictEqItems a b
  | _, _ => false

/-- Whether trees are strictly equal one by one. -/
def strictEqItems : List Tree → List Tree → Bool
  | [], [] => true
  | s :: ss, t :: ts => strictEq s t && strictEqItems ss ts
  | _, _ => false

end

/-! ### Order -/

mutual

/-- The order of two trees. -/
def order : Tree → Tree → Except Fault Ordering
  | .bytes a, .bytes b => .ok (compare (a.map UInt8.toNat) (b.map UInt8.toNat))
  | .text a, .text b => .ok (compare (a.toList.map Char.toNat) (b.toList.map Char.toNat))
  | .list a, .list b => orderItems a b
  | s, t =>
    match s.numeric?, t.numeric? with
    | some m, some n => .ok (compare m n)
    | _, _ => .error (.typeMismatch "<" s.kind.name t.kind.name)

/-- The order of the first trees that are not equal, else of the lengths. -/
def orderItems : List Tree → List Tree → Except Fault Ordering
  | s :: ss, t :: ts => if equals s t then orderItems ss ts else order s t
  | ss, ts => .ok (compare ss.length ts.length)

end

end Tree

end SharedValues
