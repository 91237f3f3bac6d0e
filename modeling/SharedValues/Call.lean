import SharedValues.Method
import SharedValues.Value.Render

/-!
# Calls of list operations

A list is worked on in two ways: by methods, which can be called on any value and take any value as
an index, and by direct access, which needs a list and takes integers. A call names the operation and
has its operands. What an operand is stays open: in a script it is an expression, and a call is
carried out on the values of its operands.
-/

namespace SharedValues

/-- What an operation finds. -/
inductive Found where
  | nothing
  | value (v : Value)
  | count (n : Nat)
  | flag (b : Bool)
  | order (o : Ordering)
  | text (s : String)
  | cursor (c : Cursor)
  | elements (vs : List Value)

def Found.ofOption : Option Value → Found
  | some v => .value v
  | none => .nothing

/-! ### Methods -/

/-- A call of a list method, which checks its receiver and its index. -/
inductive Method.Call (α : Type) where
  | length
  | get (index : α)
  | set (index value : α)
  | append (value : α)
  | insert (index value : α)
  | pop (index : Option α)
  | clear
  | resize (count : Nat)
  | contains (value : α)
  | iterate

namespace Method.Call

/-- The call with other operands, which are found from left to right. -/
def mapM {m : Type → Type} [Monad m] {α β : Type} (f : α → m β) : Call α → m (Call β)
  | .length => return .length
  | .get index => return .get (← f index)
  | .set index value => return .set (← f index) (← f value)
  | .append value => return .append (← f value)
  | .insert index value => return .insert (← f index) (← f value)
  | .pop none => return .pop none
  | .pop (some index) => return .pop (some (← f index))
  | .clear => return .clear
  | .resize count => return .resize count
  | .contains value => return .contains (← f value)
  | .iterate => return .iterate

/-- Carries a call out: what it finds, and the store after it. -/
def perform (h : Store) (on : Value) : Call Value → Except Fault (Found × Store)
  | .length => (fun n => (.count n, h)) <$> Method.length h on
  | .get index => (fun v => (.value v, h)) <$> Method.get h on index
  | .set index value => (fun h => (.nothing, h)) <$> Method.set h on index value
  | .append value => (fun h => (.nothing, h)) <$> Method.append h on value
  | .insert index value => (fun h => (.nothing, h)) <$> Method.insert h on index value
  | .pop index => (fun a => (.value a.1, a.2)) <$> Method.pop h on index
  | .clear => (fun h => (.nothing, h)) <$> Method.clear h on
  | .resize count => (fun h => (.nothing, h)) <$> Method.resize h on count
  | .contains value => (fun b => (.flag b, h)) <$> Method.contains h on value
  | .iterate => (fun c => (.cursor c, h)) <$> Method.iterate on

end Method.Call

/-! ### Direct access -/

/-- Direct access to a list by its name. -/
inductive Access.Call (α : Type) where
  | length
  | isEmpty
  | get (index : Int)
  | getAt (position : Nat)
  | set (index : Int) (value : α)
  | append (value : α)
  | insert (index : Int) (value : α)
  | pop (index : Option Int)
  | clear
  | resize (count : Nat)
  | isSame (other : α)
  | elements
  | debug

namespace Access.Call

/-- The call with other operands, which are found from left to right. -/
def mapM {m : Type → Type} [Monad m] {α β : Type} (f : α → m β) : Call α → m (Call β)
  | .length => return .length
  | .isEmpty => return .isEmpty
  | .get index => return .get index
  | .getAt position => return .getAt position
  | .set index value => return .set index (← f value)
  | .append value => return .append (← f value)
  | .insert index value => return .insert index (← f value)
  | .pop index => return .pop index
  | .clear => return .clear
  | .resize count => return .resize count
  | .isSame other => return .isSame (← f other)
  | .elements => return .elements
  | .debug => return .debug

/-- Carries a call out: what it finds, and the store after it. -/
def perform (h : Store) (r : ListRef) : Call Value → Except Fault (Found × Store)
  | .length => .ok (.count (h.length r), h)
  | .isEmpty => .ok (.flag (h.elements r).isEmpty, h)
  | .get index => (fun v => (.value v, h)) <$> h.get r index
  | .getAt position => .ok (.ofOption (h.elements r)[position]?, h)
  | .set index value => (fun h => (.nothing, h)) <$> h.set r index value
  | .append value => .ok (.nothing, h.append r value)
  | .insert index value => .ok (.nothing, h.insert r index value)
  | .pop index => (fun a => (.value a.1, a.2)) <$> h.pop r index
  | .clear => .ok (.nothing, h.clear r)
  | .resize count => .ok (.nothing, h.resize r count)
  | .isSame other => .ok (.flag (other.isSame (.list r)), h)
  | .elements => .ok (.elements (h.elements r), h)
  | .debug => .ok (.text (h.debugList r), h)

end Access.Call

end SharedValues
