import SharedValues.Script.Machine

/-!
# Running scripts

Steps run in order. A list of steps ends at its first step that fails or that leaves or goes on
with an enclosing loop, and hands this on; at the top of a script a failed step does not end it.

A loop takes what its body hands on: to leave ends the loop, to go on ends the round, and a fault
ends the loop and goes on outwards. Its else clause can end early, but it has no loop to leave.

Loops are given a number of draws that each of them may make.
-/

namespace SharedValues.Script

/-- What a step hands on to the steps around it. -/
inductive Signal where
  | next
  | leave
  | skip
  | halt (h : Halt)
deriving DecidableEq, Repr

/-- The signal of an action. -/
def signalOf : Except Fault Answer → Signal
  | .ok _ => .next
  | .error fault => .halt (.fault fault)

/-- The signal of a loop. -/
def signalOfOutcome : Except Halt Outcome → Signal
  | .ok _ => .next
  | .error h => .halt h

/-- What a loop records while it runs. -/
structure Log where
  rounds : List (List Record)
  otherwise : Option (List Record)

/-- Runs steps on a machine. -/
abbrev Block := Machine → List Record × Signal × Machine

/-- Draws the next element for a loop. -/
def drawElement (source : Source) (s : Machine × Log) : Option Value × Source × Machine × Log :=
  ((source.draw s.1.store).1, (source.draw s.1.store).2, s)

/-- One round: keeps the element in the variable and runs the body. -/
def runRound (element : String) (body : Block) (v : Value) (s : Machine × Log) :
    Except Halt Control × Machine × Log :=
  let (records, signal, m) := body (s.1.assign element v)
  let log := { s.2 with rounds := s.2.rounds ++ [records] }
  match signal with
  | .next | .skip => (.ok .proceed, m, log)
  | .leave => (.ok .leave, m, log)
  | .halt h => (.error h, m, log)

/-- Runs the else clause. -/
def runOtherwise (otherwise : Block) (s : Machine × Log) : Except Halt Unit × Machine × Log :=
  let (records, signal, m) := otherwise s.1
  let log := { s.2 with otherwise := some records }
  match signal with
  | .halt h => (.error h, m, log)
  | _ => (.ok (), m, log)

/-- Runs a loop whose body and else clause are blocks. -/
def driveLoop (draws : Nat) (loop : Loop Source) (element : String) (body otherwise : Block)
    (m : Machine) : Except Halt Outcome × Loop Source × Log × Machine :=
  match loop.run drawElement (runRound element body) (runOtherwise otherwise) draws
      (m, ⟨[], none⟩) with
  | some (outcome, loop, m, log) => (outcome, loop, log, m)
  | none => (.error .outOfDraws, loop, ⟨[], none⟩, m)

mutual

/-- Runs one step. -/
def Step.run (draws : Nat) : Step → Machine → Record × Signal × Machine
  | .act action, m =>
    let (answer, m) := m.perform action
    let position := m.positionAfter action
    let (state, m) := m.stateAfter action
    (.action answer state position, signalOf answer, m)
  | .leave, m => (.leave, .leave, m)
  | .skip, m => (.skip, .skip, m)
  | .branch cond equals yes no, m =>
    let (v, m) := m.eval cond
    let (holds, m) :=
      match equals with
      | none => (v.isTruthy m.store, m)
      | some other =>
        let (w, m) := m.eval other
        (v.equals m.store w, m)
    let (records, signal, m) := if holds then Step.runAll draws yes m else Step.runAll draws no m
    (.branch holds records, signal, m)
  | .attempt steps catches handler, m =>
    match Step.runAll draws steps m with
    | (records, .halt (.fault fault), m) =>
      if fault.kind = catches then
        let (handled, signal, m) := Step.runAll draws handler m
        (.attempt records (some handled), signal, m)
      else (.attempt records none, .halt (.fault fault), m)
    | (records, signal, m) => (.attempt records none, signal, m)
  | .forElse feed element body otherwise, m =>
    match m.source feed with
    | (.error fault, m) => (.action (.error fault) none none, .halt (.fault fault), m)
    | (.ok source, m) =>
      let (outcome, _, log, m) :=
        driveLoop draws (Loop.start source) element (Step.runAll draws body)
          (Step.runAll draws otherwise) m
      (.loop log.rounds log.otherwise outcome none, signalOfOutcome outcome, m)
  | .runLoop name element body otherwise, m =>
    match m.loops.lookup name with
    | none => (.action (.ok .nothing) none none, .next, m)
    | some loop =>
      let (outcome, loop, log, m) :=
        driveLoop draws loop element (Step.runAll draws body) (Step.runAll draws otherwise) m
      (.loop log.rounds log.otherwise outcome (some (loop.stage, loop.completedNormally)),
        signalOfOutcome outcome, { m with loops := m.loops.put name loop })

/-- Runs steps up to the first that does not simply go on. -/
def Step.runAll (draws : Nat) : List Step → Machine → List Record × Signal × Machine
  | [], m => ([], .next, m)
  | step :: steps, m =>
    match Step.run draws step m with
    | (record, .next, m) =>
      let (records, signal, m) := Step.runAll draws steps m
      (record :: records, signal, m)
    | (record, signal, m) => ([record], signal, m)

end

/-- Runs the steps of a script. A failed step does not end the script; a step that asks for an
enclosing loop does. -/
def run (draws : Nat) : List Step → Machine → List Record × Machine
  | [], m => ([], m)
  | step :: steps, m =>
    match step.run draws m with
    | (record, .next, m) | (record, .halt (.fault _), m) =>
      let (records, m) := run draws steps m
      (record :: records, m)
    | (record, _, m) => ([record], m)

/-- A script as a program that prints on a console and ends at its first fault. -/
def program (draws : Nat) (steps : List Step) (console : Console) :
    Except Fault Unit × Console :=
  match Step.runAll draws steps (Machine.start console) with
  | (_, .halt (.fault fault), m) => (.error fault, m.console)
  | (_, _, m) => (.ok (), m.console)

end SharedValues.Script
