import SharedValues.Report.Basic
import SharedValues.Scenario
import SharedValues.Transcript

/-!
# The harness

A harness runs scenarios one after the other, each on a console of its own, judges what they print,
and keeps the verdicts in order.
-/

namespace SharedValues

/-- Verdicts so far, and the lines that were passed on while scenarios ran. -/
structure Harness where
  /-- Whether the lines of a scenario are passed on. -/
  echo : Bool
  echoed : List String
  results : List (String × Verdict)
deriving DecidableEq, Repr

namespace Harness

/-- A harness that has run nothing. -/
def start (echo : Bool) : Harness := ⟨echo, [], []⟩

/-- The console for a scenario. -/
def console (h : Harness) : Console := if h.echo then .forwarding else .silent

/-- The verdict on what a scenario printed, or on the fault that ended it. -/
def verdict (expected : List String) : Except Fault (List String) → Verdict
  | .error fault => .error fault.report
  | .ok lines =>
    match Transcript.mismatch? expected lines with
    | some mismatch => .fail mismatch.message
    | none => .pass

/-- Runs a scenario and keeps its verdict. -/
def runScenario (h : Harness) (s : Scenario) : Verdict × Harness :=
  let (lines, console) := s.run h.console
  let v := verdict s.expected lines
  (v, { h with echoed := h.echoed ++ console.forwarded, results := h.results ++ [(s.name, v)] })

/-- Runs scenarios in order and counts the verdict on each in a report before the next one runs. A
verdict that cannot be counted ends the run. -/
def runOnto (h : Harness) (report : Report) : List Scenario → Except Overflow Report × Harness
  | [] => (.ok report, h)
  | s :: rest =>
    let (v, h) := h.runScenario s
    match report.apply (Report.record s.name v) with
    | (.ok (), report) => h.runOnto report rest
    | (.error overflow, _) => (.error overflow, h)

/-- Runs scenarios in order and reports on them. -/
def runAll (h : Harness) (scenarios : List Scenario) : Except Overflow Report × Harness :=
  h.runOnto .empty scenarios

end Harness

end SharedValues
