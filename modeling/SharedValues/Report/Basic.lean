/-!
# Reports

A report counts verdicts and keeps the names and reasons of all that is not a pass. The counters
are words of 64 bits: a change that would take one beyond its range stops there, and what it has
changed before stays changed.
-/

namespace SharedValues

/-- The verdict on a scenario. -/
inductive Verdict where
  | pass
  /-- The printed lines differ from the expected ones. -/
  | fail (reason : String)
  /-- The script ended with a fault. -/
  | error (reason : String)
deriving DecidableEq, Repr

namespace Verdict

/-- The reason of a verdict that is not a pass. -/
def reason? : Verdict → Option String
  | .pass => none
  | .fail reason => some reason
  | .error reason => some reason

def isPass : Verdict → Bool
  | .pass => true
  | _ => false

def isFail : Verdict → Bool
  | .fail _ => true
  | _ => false

def isError : Verdict → Bool
  | .error _ => true
  | _ => false

end Verdict

/-- Counted verdicts, and the name and reason of every one that is not a pass. -/
structure Report where
  total : UInt64
  passed : UInt64
  failed : UInt64
  errored : UInt64
  failures : List (String × String)
deriving DecidableEq, Repr

/-- A counter would leave its range. -/
inductive Overflow where
  | add
deriving DecidableEq, Repr

/-- The text of an overflow. -/
def Overflow.message : Overflow → String
  | .add => "attempt to add with overflow"

namespace Report

/-- The report of no verdicts. -/
def empty : Report := ⟨0, 0, 0, 0, []⟩

/-- The four counters of a report. -/
inductive Counter where
  | total
  | passed
  | failed
  | errored
deriving DecidableEq, Repr

/-- The value of a counter. -/
def count (r : Report) : Counter → UInt64
  | .total => r.total
  | .passed => r.passed
  | .failed => r.failed
  | .errored => r.errored

/-- The report with another value of a counter. -/
def withCount (r : Report) (n : UInt64) : Counter → Report
  | .total => { r with total := n }
  | .passed => { r with passed := n }
  | .failed => { r with failed := n }
  | .errored => { r with errored := n }

/-- The sum of two words, if it is one. -/
def add? (m n : UInt64) : Option UInt64 :=
  if m.toNat + n.toNat < UInt64.size then some (m + n) else none

/-- A change of a report. It ends at the first overflow and keeps what it has changed until then. -/
abbrev Change := ExceptT Overflow (StateM Report) Unit

/-- Makes a change: whether it came to its end, and the report after it. -/
def apply (r : Report) (change : Change) : Except Overflow Unit × Report := change.run.run r

/-- Increases a counter. -/
def increase (c : Counter) (n : UInt64) : Change := do
  let r ← get
  match add? (r.count c) n with
  | some m => set (r.withCount m c)
  | none => throw .add

/-- Keeps more failures. -/
def extendFailures (failures : List (String × String)) : Change :=
  modify fun r => { r with failures := r.failures ++ failures }

/-- Counts a verdict. -/
def record (name : String) : Verdict → Change
  | .pass => do
    increase .total 1
    increase .passed 1
  | .fail reason => do
    increase .total 1
    increase .failed 1
    extendFailures [(name, reason)]
  | .error reason => do
    increase .total 1
    increase .errored 1
    extendFailures [(name, reason)]

/-- Adds the counts and failures of another report. -/
def merge (other : Report) : Change := do
  increase .total other.total
  increase .passed other.passed
  increase .failed other.failed
  increase .errored other.errored
  extendFailures other.failures

/-- Whether every verdict is a pass. -/
def isSuccess (r : Report) : Bool := r.failed == 0 && r.errored == 0

end Report

end SharedValues
