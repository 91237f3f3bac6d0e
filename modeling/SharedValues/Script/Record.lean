import SharedValues.Fault
import SharedValues.Loop

/-!
# The records of a script

What a script has done, step by step. A step that directs others records theirs.
-/

namespace SharedValues.Script

/-- A value as a record shows it. -/
structure Shown where
  typeName : String
  repr : String
deriving DecidableEq, Repr

/-- The payload of a value under each kind; a value has the payload of its own kind only, and an
integer counts as a word only if it fits one. -/
structure Payloads where
  bool : Option Bool
  int : Option Int
  word : Option Int
  bytes : Option (List UInt8)
  text : Option String
  length : Option Nat
deriving DecidableEq, Repr

/-- What an action finds. -/
inductive Answer where
  | nothing
  | value (shown : Shown)
  | text (s : String)
  | flag (b : Bool)
  | count (n : Nat)
  | order (o : Ordering)
  | values (items : List Shown)
  | payloads (p : Payloads)
  | opened (stage : Stage) (completedNormally : Bool)
deriving DecidableEq, Repr

/-- Why a script stops before its end: a fault, or a loop that was not given enough draws. -/
inductive Halt where
  | fault (f : Fault)
  | outOfDraws
deriving DecidableEq, Repr

/-- What is left of an executed step. -/
inductive Record where
  /-- An action: what it found; for an action on a list, the written form of the list after it;
  for a cursor, its position. -/
  | action (answer : Except Fault Answer) (state : Option String) (position : Option Nat)
  | leave
  | skip
  | branch (cond : Bool) (steps : List Record)
  /-- The steps, and those of the handler if it ran. -/
  | attempt (steps : List Record) (handler : Option (List Record))
  /-- The rounds, the else clause if it ran, and how the loop ended; for a loop that was opened
  before, also where it stands and whether it completed normally. -/
  | loop (rounds : List (List Record)) (otherwise : Option (List Record))
      (outcome : Except Halt Outcome) (ended : Option (Stage × Bool))

end SharedValues.Script
