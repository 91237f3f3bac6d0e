import SharedValues.Console
import SharedValues.Script.Record
import SharedValues.Script.Syntax
import SharedValues.Value.Order

/-!
# The machine that runs actions

A machine holds the store, the named variables, cursors and loops, and the console. An action
changes the machine and answers with what it found. A failed action keeps nothing in a variable.
-/

namespace SharedValues.Script

/-- Named things, in the order in which their names first appeared. -/
abbrev Bindings (α : Type) := List (String × α)

namespace Bindings

variable {α : Type}

/-- Gives a name to a thing, instead of what it named before. -/
def put : Bindings α → String → α → Bindings α
  | [], name, a => [(name, a)]
  | entry :: rest, name, a =>
    if entry.1 = name then (name, a) :: rest else entry :: put rest name a

end Bindings

/-- What a running loop draws from. -/
inductive Source where
  | cursor (c : Cursor)
  | values (vs : List Value)
deriving DecidableEq, Repr

/-- Draws the next element. -/
def Source.draw (h : Store) : Source → Option Value × Source
  | .cursor c => ((c.next h).1, .cursor (c.next h).2)
  | .values [] => (none, .values [])
  | .values (v :: vs) => (some v, .values vs)

/-- The state of a running script. -/
structure Machine where
  store : Store
  locals : Bindings Value
  cursors : Bindings Cursor
  loops : Bindings (Loop Source)
  console : Console

namespace Machine

/-- A machine that has done nothing yet. -/
def start (console : Console) : Machine := ⟨.empty, [], [], [], console⟩

/-- Keeps a value in a variable. -/
def assign (m : Machine) (name : String) (v : Value) : Machine :=
  { m with locals := m.locals.put name v }

end Machine

/-- A value inside a number of new lists of one element. -/
def nestValue : Nat → Value → Store → Value × Store
  | 0, v, h => (v, h)
  | depth + 1, v, h =>
    let (inner, h) := nestValue depth v h
    h.newList [inner]

mutual

/-- The value of an expression, in the store that holds it. A variable that was never assigned is
nothing. -/
def Expr.eval (locals : Bindings Value) : Expr → Store → Value × Store
  | .none, h => (.none, h)
  | .bool b, h => (.bool b, h)
  | .int n, h => (.int n, h)
  | .bytes bs, h => h.newBytes bs
  | .text s, h => h.newText s
  | .list items, h =>
    let (vs, h) := Expr.evalAll locals items h
    h.newList vs
  | .nest depth item, h =>
    let (v, h) := Expr.eval locals item h
    nestValue depth v h
  | .var name, h => ((locals.lookup name).getD .none, h)

/-- The values of expressions, from left to right. -/
def Expr.evalAll (locals : Bindings Value) : List Expr → Store → List Value × Store
  | [], h => ([], h)
  | e :: es, h =>
    let (v, h) := Expr.eval locals e h
    let (vs, h) := Expr.evalAll locals es h
    (v :: vs, h)

end

namespace Machine

/-- Evaluates an expression. -/
def eval (m : Machine) (e : Expr) : Value × Machine :=
  let (v, h) := e.eval m.locals m.store
  (v, { m with store := h })

/-- Evaluates expressions from left to right. -/
def evalAll (m : Machine) (es : List Expr) : List Value × Machine :=
  let (vs, h) := Expr.evalAll m.locals es m.store
  (vs, { m with store := h })

/-- A value as a record shows it. -/
def shown (m : Machine) (v : Value) : Shown := ⟨v.typeName, v.repr m.store⟩

/-- Answers with a value, and keeps it in a variable if one is named. -/
def yield (m : Machine) (v : Value) (target : Option String) : Except Fault Answer × Machine :=
  (.ok (.value (m.shown v)),
    match target with
    | none => m
    | some name => m.assign name v)

/-- Answers with what an operation found; a value is kept in a variable if one is named. -/
def tell (m : Machine) (target : Option String) : Found → Except Fault Answer × Machine
  | .nothing => (.ok .nothing, m)
  | .value v => m.yield v target
  | .count n => (.ok (.count n), m)
  | .flag b => (.ok (.flag b), m)
  | .order o => (.ok (.order o), m)
  | .text s => (.ok (.text s), m)
  | .cursor c => (.ok (.count c.position), m)
  | .elements vs => (.ok (.values (vs.map m.shown)), m)

/-- Answers with what an operation found and goes on with the store after it. -/
def settle (m : Machine) (target : Option String) :
    Except Fault (Found × Store) → Except Fault Answer × Machine
  | .ok (found, h) => { m with store := h }.tell target found
  | .error fault => (.error fault, m)

/-- Answers with a value that was found in the store. -/
def found (m : Machine) (target : Option String) :
    Except Fault Value → Except Fault Answer × Machine
  | .ok v => m.yield v target
  | .error fault => (.error fault, m)

/-- Answers with a value and goes on with the store that holds it. -/
def made (m : Machine) (target : Option String) :
    Except Fault (Value × Store) → Except Fault Answer × Machine
  | .ok (v, h) => { m with store := h }.yield v target
  | .error fault => (.error fault, m)

/-- The payloads of a value. -/
def payloads (m : Machine) (v : Value) : Payloads where
  bool := v.bool?
  int := v.int?
  word := v.int?.filter Method.fitsWord
  bytes := v.bytes?
  text := v.text?
  length := v.list?.map m.store.length

def inspect (m : Machine) (v : Value) : Inspection → Answer
  | .repr => .text (v.repr m.store)
  | .display => .text (v.display m.store)
  | .debug => .text (v.debug m.store)
  | .typeName => .text v.typeName
  | .truthy => .flag (v.isTruthy m.store)
  | .payloads => .payloads (m.payloads v)

def relate (m : Machine) (v w : Value) : Comparison → Except Fault Answer
  | .equals => .ok (.flag (v.equals m.store w))
  | .strictEq => .ok (.flag (v.strictEq m.store w))
  | .isSame => .ok (.flag (v.isSame w))
  | .order => (v.compareValues m.store w).map .order
  | .lessThan => (v.lessThan m.store w).map .flag
  | .contains => (v.contains m.store w).map .flag

def compute (m : Machine) (target : Option String) : Computation → Except Fault Answer × Machine
  | .not value =>
    let (v, m) := m.eval value
    m.yield (v.not m.store) target
  | .add left right =>
    let (v, m) := m.eval left
    let (w, m) := m.eval right
    m.made target (v.add m.store w)
  | .repr value =>
    let (v, m) := m.eval value
    m.made target (.ok (m.store.newText (v.repr m.store)))
  | .str value =>
    let (v, m) := m.eval value
    match v with
    | .text _ => m.yield v target
    | v => m.made target (.ok (m.store.newText (v.display m.store)))
  | .length value =>
    let (v, m) := m.eval value
    m.found target ((v.length m.store).map fun n => .int n)

/-- The value of an operand. -/
def operand (e : Expr) : StateM Machine Value := fun m => m.eval e

/-- Evaluates the operands of a call and carries it out. -/
def callMethod (m : Machine) (on : Value) (target : Option String) (call : MethodCall) :
    Except Fault Answer × Machine :=
  let (call, m) := (call.mapM operand).run m
  m.settle target (call.perform m.store on)

/-- Evaluates the operands of a call and carries it out. -/
def callAccess (m : Machine) (r : ListRef) (target : Option String) (call : AccessCall) :
    Except Fault Answer × Machine :=
  let (call, m) := (call.mapM operand).run m
  m.settle target (call.perform m.store r)

/-- The source that a feed describes. -/
def source (m : Machine) : Feed → Except Fault Source × Machine
  | .live list =>
    let (v, m) := m.eval list
    ((Method.iterate v).map .cursor, m)
  | .values items =>
    let (vs, m) := m.evalAll items
    (.ok (.values vs), m)
  | .cursor name =>
    match m.cursors.lookup name with
    | some c => (.ok (.cursor c), m)
    | none => (.ok (.values []), m)

/-- Carries out an action. A cursor that was never opened has nothing to give. -/
def perform (m : Machine) : Action → Except Fault Answer × Machine
  | .assign value target =>
    let (v, m) := m.eval value
    m.yield v (some target)
  | .inspect what value =>
    let (v, m) := m.eval value
    (.ok (m.inspect v what), m)
  | .relate how left right =>
    let (v, m) := m.eval left
    let (w, m) := m.eval right
    (m.relate v w how, m)
  | .compute what target => m.compute target what
  | .print values =>
    let (vs, m) := m.evalAll values
    (.ok (.text (Console.line m.store vs)), { m with console := m.console.print m.store vs })
  | .raise fault => (.error fault, m)
  | .method on call target =>
    let (v, m) := m.eval on
    m.callMethod v target call
  | .newList target => m.made (some target) (.ok (m.store.newList []))
  | .access on call target =>
    let (v, m) := m.eval on
    match v.list? with
    | some r => m.callAccess r target call
    | none => (.ok .nothing, m)
  | .openCursor list cursor =>
    let (v, m) := m.eval list
    match Method.iterate v with
    | .ok c => (.ok (.count c.position), { m with cursors := m.cursors.put cursor c })
    | .error fault => (.error fault, m)
  | .copyCursor source cursor =>
    match m.cursors.lookup source with
    | some c => (.ok (.count c.position), { m with cursors := m.cursors.put cursor c })
    | none => (.ok .nothing, m)
  | .advance cursor target =>
    match m.cursors.lookup cursor with
    | some c =>
      let m := { m with cursors := m.cursors.put cursor (c.next m.store).2 }
      match (c.next m.store).1 with
      | some v => m.yield v target
      | none => (.ok .nothing, m)
    | none => (.ok .nothing, m)
  | .openLoop feed loop =>
    match m.source feed with
    | (.ok source, m) =>
      let opened := Loop.start source
      (.ok (.opened opened.stage opened.completedNormally),
        { m with loops := m.loops.put loop opened })
    | (.error fault, m) => (.error fault, m)

/-- The written form of the list on which an action works, evaluated again after it. -/
def stateAfter (m : Machine) : Action → Option String × Machine
  | .method on _ _ | .access on _ _ =>
    let (v, m) := m.eval on
    (some (v.repr m.store), m)
  | _ => (none, m)

/-- The position of the cursor that an action has moved. -/
def positionAfter (m : Machine) : Action → Option Nat
  | .advance cursor _ => (m.cursors.lookup cursor).map Cursor.position
  | _ => none

end Machine

end SharedValues.Script
