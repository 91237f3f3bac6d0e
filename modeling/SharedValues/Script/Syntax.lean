import SharedValues.Call

/-!
# Scripts

A script is a list of steps. A step either acts on values, or directs other steps: it branches,
catches faults, or loops. Variables, cursors and loops are named by texts.
-/

namespace SharedValues.Script

/-- What a step takes as a value. Every expression but a variable makes new objects each time it
is evaluated. -/
inductive Expr where
  | none
  | bool (b : Bool)
  | int (n : Int)
  | bytes (bs : List UInt8)
  | text (s : String)
  | list (items : List Expr)
  /-- An item inside this many lists of one element. -/
  | nest (depth : Nat) (item : Expr)
  | var (name : String)

/-- What a loop draws its elements from. -/
inductive Feed where
  /-- A list, read as it changes. -/
  | live (list : Expr)
  /-- Values that are evaluated once. -/
  | values (items : List Expr)
  /-- A copy of a cursor. -/
  | cursor (name : String)

/-- A question about one value. -/
inductive Inspection where
  | repr
  | display
  | debug
  | typeName
  | truthy
  | payloads
deriving DecidableEq, Repr

/-- A question about two values. -/
inductive Comparison where
  | equals
  | strictEq
  | isSame
  | order
  | lessThan
  /-- Whether the first value contains the second. -/
  | contains
deriving DecidableEq, Repr

/-- A computation of a value. -/
inductive Computation where
  | not (value : Expr)
  | add (left right : Expr)
  /-- The written form, as a new text. -/
  | repr (value : Expr)
  /-- The printed form: a text itself, or a new text. -/
  | str (value : Expr)
  | length (value : Expr)

/-- A call of a list method. -/
abbrev MethodCall := Method.Call Expr

/-- Direct access to a list. -/
abbrev AccessCall := Access.Call Expr

/-- A step that directs no other steps. The value it finds may be kept in a variable. -/
inductive Action where
  | assign (value : Expr) (target : String)
  | inspect (what : Inspection) (value : Expr)
  | relate (how : Comparison) (left right : Expr)
  | compute (what : Computation) (target : Option String)
  | print (values : List Expr)
  | raise (fault : Fault)
  | method (on : Expr) (call : MethodCall) (target : Option String)
  | newList (target : String)
  | access (on : Expr) (call : AccessCall) (target : Option String)
  | openCursor (list : Expr) (cursor : String)
  | copyCursor (source cursor : String)
  | advance (cursor : String) (target : Option String)
  | openLoop (feed : Feed) (loop : String)

/-- A step of a script. -/
inductive Step where
  | act (action : Action)
  /-- Leaves the enclosing loop. -/
  | leave
  /-- Goes on with the next round of the enclosing loop. -/
  | skip
  /-- Takes one of two branches, by the truth of a value or by its equality with another. -/
  | branch (cond : Expr) (equals : Option Expr) (yes no : List Step)
  /-- Runs steps, and a handler if they fail with a fault of this kind. -/
  | attempt (steps : List Step) (catches : FaultKind) (handler : List Step)
  /-- Runs a new loop. -/
  | forElse (feed : Feed) (element : String) (body otherwise : List Step)
  /-- Runs a loop that was opened before. -/
  | runLoop (loop element : String) (body otherwise : List Step)

end SharedValues.Script
