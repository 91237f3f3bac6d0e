import SharedValues.Proofs.Loop.Simulation
import SharedValues.Scenario
import SharedValues.Script.Run

/-!
# Scripts only print

A program that is given a console could ask whether the console passes lines on, or take back lines
that stand on it. One that only prints does neither: its lines and its fault hang on the lines that
it can read there, and on nothing else.

Every script is such a program. Two runs of a script on different consoles stay abreast: their
machines differ in nothing but the console, and both consoles have got the same lines. An action
either leaves the console alone or prints one line (`perform_on`), a loop keeps any relation that
its parts keep (`Loop.run_kept`), and the rest is an induction on the steps.
-/

namespace SharedValues

/-- Prints lines in order. -/
def Console.writeAll (c : Console) (lines : List String) : Console := lines.foldl writeLine c

theorem Console.writeAll_append (c : Console) (lines more : List String) :
    c.writeAll (lines ++ more) = (c.writeAll lines).writeAll more :=
  List.foldl_append

theorem Console.transcript_writeAll (c : Console) (lines : List String) :
    (c.writeAll lines).transcript = c.transcript ++ lines := by
  induction lines generalizing c with
  | nil => exact (List.append_nil _).symm
  | cons line lines ih =>
    calc (c.writeAll (line :: lines)).transcript
        = (c.writeLine line).transcript ++ lines := ih (c.writeLine line)
      _ = c.transcript ++ line :: lines := by
        rw [transcript_writeLine, List.append_assoc, List.singleton_append]

/-- The transcript of the console decides what the program prints and how it ends. -/
def Program.OnlyPrints (p : Program) : Prop :=
  ∃ act : List String → Except Fault Unit × List String,
    ∀ c : Console, p c = ((act c.transcript).1, c.writeAll (act c.transcript).2)

namespace Script

/-! ### Actions -/

namespace Machine

/-- The machine with another console. -/
def on (m : Machine) (c : Console) : Machine := { m with console := c }

/-- The lines that an action prints. -/
def printed (m : Machine) : Action → List String
  | .print values => [Console.line (m.evalAll values).2.store (m.evalAll values).1]
  | _ => []

section On

variable (m : Machine) (c : Console)

@[simp] theorem store_on : (m.on c).store = m.store := rfl

@[simp] theorem cursors_on : (m.on c).cursors = m.cursors := rfl

@[simp] theorem loops_on : (m.on c).loops = m.loops := rfl

@[simp] theorem eval_on (e : Expr) : (m.on c).eval e = ((m.eval e).1, (m.eval e).2.on c) := rfl

@[simp] theorem yield_on (v : Value) (target : Option String) :
    (m.on c).yield v target = ((m.yield v target).1, (m.yield v target).2.on c) := by
  cases target <;> rfl

@[simp] theorem found_on (target : Option String) (r : Except Fault Value) :
    (m.on c).found target r = ((m.found target r).1, (m.found target r).2.on c) := by
  cases r with
  | error fault => rfl
  | ok v => exact yield_on m c v target

@[simp] theorem made_on (target : Option String) (r : Except Fault (Value × Store)) :
    (m.on c).made target r = ((m.made target r).1, (m.made target r).2.on c) := by
  cases r with
  | error fault => rfl
  | ok made => exact yield_on { m with store := made.2 } c made.1 target

theorem compute_on (target : Option String) (what : Computation) :
    (m.on c).compute target what =
      ((m.compute target what).1, (m.compute target what).2.on c) := by
  cases what with
  | str value =>
    simp only [compute, eval_on]
    cases (m.eval value).1 <;> simp
  | _ => simp [compute]

theorem tell_on (target : Option String) (found : Found) :
    (m.on c).tell target found =
      ((m.tell target found).1, (m.tell target found).2.on c) := by
  cases found with
  | value v => exact yield_on m c v target
  | _ => rfl

theorem settle_on (target : Option String) (r : Except Fault (Found × Store)) :
    (m.on c).settle target r = ((m.settle target r).1, (m.settle target r).2.on c) := by
  cases r with
  | error fault => rfl
  | ok made => exact tell_on { m with store := made.2 } c target made.1

theorem methodOperands_on (call : MethodCall) :
    (call.mapM operand).run (m.on c) =
      (((call.mapM operand).run m).1, ((call.mapM operand).run m).2.on c) := by
  cases call with
  | pop index => cases index <;> rfl
  | _ => rfl

theorem accessOperands_on (call : AccessCall) :
    (call.mapM operand).run (m.on c) =
      (((call.mapM operand).run m).1, ((call.mapM operand).run m).2.on c) := by
  cases call <;> rfl

theorem callMethod_on (on : Value) (target : Option String) (call : MethodCall) :
    (m.on c).callMethod on target call =
      ((m.callMethod on target call).1, (m.callMethod on target call).2.on c) := by
  rw [callMethod, methodOperands_on]
  exact settle_on _ c target _

theorem callAccess_on (r : ListRef) (target : Option String) (call : AccessCall) :
    (m.on c).callAccess r target call =
      ((m.callAccess r target call).1, (m.callAccess r target call).2.on c) := by
  rw [callAccess, accessOperands_on]
  exact settle_on _ c target _

theorem source_on (feed : Feed) :
    (m.on c).source feed = ((m.source feed).1, (m.source feed).2.on c) := by
  cases feed with
  | cursor name =>
    simp only [source, cursors_on]
    cases m.cursors.lookup name <;> rfl
  | _ => rfl

/-- An action does the same on every console, and adds the lines that it prints. -/
theorem perform_on (action : Action) :
    (m.on c).perform action =
      ((m.perform action).1, (m.perform action).2.on (c.writeAll (m.printed action))) := by
  have hnone : c.writeAll [] = c := rfl
  cases action with
  | assign value target => simp [perform, printed, hnone]
  | compute what target => exact compute_on m c target what
  | method on call target =>
    simp only [perform, eval_on, callMethod_on, printed, hnone]
  | newList target => simp [perform, printed, hnone]
  | access on call target =>
    simp only [perform, eval_on, printed, hnone]
    cases (m.eval on).1.list? with
    | none => rfl
    | some r => exact callAccess_on _ c r target call
  | openCursor list cursor =>
    simp only [perform, eval_on, printed, hnone]
    cases Method.iterate (m.eval list).1 <;> rfl
  | copyCursor source cursor =>
    simp only [perform, cursors_on, printed, hnone]
    cases m.cursors.lookup source <;> rfl
  | advance cursor target =>
    simp only [perform, cursors_on, store_on, printed, hnone]
    cases m.cursors.lookup cursor with
    | none => rfl
    | some opened =>
      dsimp only
      cases (opened.next m.store).1 with
      | none => rfl
      | some v =>
        exact yield_on { m with cursors := m.cursors.put cursor (opened.next m.store).2 } c v target
  | openLoop feed loop =>
    simp only [perform, source_on, printed, hnone]
    rcases m.source feed with ⟨_ | source, m⟩ <;> rfl
  | inspect | relate | print | raise => rfl

theorem stateAfter_on (action : Action) :
    (m.on c).stateAfter action = ((m.stateAfter action).1, (m.stateAfter action).2.on c) := by
  cases action <;> rfl

theorem positionAfter_on (action : Action) :
    (m.on c).positionAfter action = m.positionAfter action := by
  cases action <;> rfl

end On

end Machine

/-! ### Steps -/

/-- Machines that differ only in their consoles, with the same lines printed on two consoles. -/
inductive Abreast (c c' : Console) : Machine → Machine → Prop where
  | intro (m : Machine) (lines : List String) :
    Abreast c c' (m.on (c.writeAll lines)) (m.on (c'.writeAll lines))

variable {c c' : Console} {m m' : Machine}

theorem Abreast.perform (hm : Abreast c c' m m') (action : Action) :
    Kept (Abreast c c') (m.perform action) (m'.perform action) := by
  obtain ⟨m, lines⟩ := hm
  rw [Machine.perform_on, Machine.perform_on, ← Console.writeAll_append, ← Console.writeAll_append]
  exact .intro _ (.intro _ _)

theorem Abreast.assign (hm : Abreast c c' m m') (name : String) (v : Value) :
    Abreast c c' (m.assign name v) (m'.assign name v) := by
  obtain ⟨m, lines⟩ := hm
  exact .intro (m.assign name v) lines

/-- What keeps machines abreast, and records and hands on the same on both. -/
def InStep {β : Type} (c c' : Console) (run : Machine → β × Signal × Machine) : Prop :=
  ∀ ⦃m m' : Machine⦄, Abreast c c' m m' → Kept (Kept (Abreast c c')) (run m) (run m')

theorem InStep.branch {yes no : Block} (hyes : InStep c c' yes) (hno : InStep c c' no)
    (holds : Bool) : InStep c c' fun m => if holds then yes m else no m := by
  cases holds with
  | false => exact hno
  | true => exact hyes

/-- While a loop runs, a machine goes with the log that the loop keeps. -/
inductive Logged (c c' : Console) : Machine × Log → Machine × Log → Prop where
  | intro {m m' : Machine} (log : Log) (hm : Abreast c c' m m') : Logged c c' (m, log) (m', log)

section Logged

variable {body otherwise : Block} {s s' : Machine × Log}

theorem Logged.drawElement (hs : Logged c c' s s') (source : Source) :
    Kept (Kept (Logged c c')) (drawElement source s) (drawElement source s') := by
  obtain ⟨log, ⟨m, lines⟩⟩ := hs
  exact .intro _ (.intro _ (.intro log (.intro m lines)))

theorem Logged.runRound (hs : Logged c c' s s') (hbody : InStep c c' body) (element : String)
    (v : Value) : Kept (Logged c c') (runRound element body v s) (runRound element body v s') := by
  obtain @⟨m, m', log, hm⟩ := hs
  have hb := hbody (hm.assign element v)
  simp only [Script.runRound]
  generalize body (m.assign element v) = b, body (m'.assign element v) = b' at hb
  obtain ⟨records, ⟨signal, ht⟩⟩ := hb
  cases signal <;> exact .intro _ (.intro _ ht)

theorem Logged.runOtherwise (hs : Logged c c' s s') (hotherwise : InStep c c' otherwise) :
    Kept (Logged c c') (runOtherwise otherwise s) (runOtherwise otherwise s') := by
  obtain @⟨m, m', log, hm⟩ := hs
  have ho := hotherwise hm
  simp only [Script.runOtherwise]
  generalize otherwise m = o, otherwise m' = o' at ho
  obtain ⟨records, ⟨signal, ht⟩⟩ := ho
  cases signal <;> exact .intro _ (.intro _ ht)

theorem Abreast.driveLoop (hm : Abreast c c' m m') (hbody : InStep c c' body)
    (hotherwise : InStep c c' otherwise) (draws : Nat) (loop : Loop Source) (element : String) :
    Kept (Kept (Kept (Abreast c c'))) (driveLoop draws loop element body otherwise m)
      (driveLoop draws loop element body otherwise m') := by
  have hr := Loop.run_kept (fun source _ _ hs => Logged.drawElement hs source)
    (fun v _ _ hs => Logged.runRound hs hbody element v)
    (fun hs => Logged.runOtherwise hs hotherwise) draws loop (Logged.intro ⟨[], none⟩ hm)
  simp only [Script.driveLoop]
  generalize loop.run _ _ _ draws (m, _) = r, loop.run _ _ _ draws (m', _) = r' at hr
  cases hr with
  | none => exact .intro _ (.intro _ (.intro _ hm))
  | some hr =>
    obtain ⟨outcome, ⟨loop, ⟨log, ht⟩⟩⟩ := hr
    exact .intro _ (.intro _ (.intro _ ht))

end Logged

-- Conditions, sources and loops are looked up in what the two machines have in common, so both runs
-- take the same way through the steps.
mutual

theorem Step.run_inStep (draws : Nat) : (step : Step) → InStep c c' (step.run draws)
  | .act action => by
    intro m m' hm
    have hp := hm.perform action
    simp only [Step.run]
    generalize m.perform action = p, m'.perform action = p' at hp
    obtain ⟨answer, ⟨m, lines⟩⟩ := hp
    simp only [Machine.positionAfter_on, Machine.stateAfter_on]
    exact .intro _ (.intro _ (.intro _ lines))
  | .leave => fun _ _ hm => .intro _ (.intro _ hm)
  | .skip => fun _ _ hm => .intro _ (.intro _ hm)
  | .branch cond equals yes no => by
    rintro _ _ ⟨m, lines⟩
    have hbranch := (Step.runAll_inStep draws yes).branch (Step.runAll_inStep draws no)
    cases equals with
    | none =>
      simp only [Step.run, Machine.eval_on, Machine.store_on]
      exact (hbranch _ (.intro _ lines)).map _
    | some other =>
      simp only [Step.run, Machine.eval_on, Machine.store_on]
      exact (hbranch _ (.intro _ lines)).map _
  | .attempt steps catches handler => by
    intro m m' hm
    have hs := Step.runAll_inStep draws steps hm
    simp only [Step.run]
    generalize Step.runAll draws steps m = r, Step.runAll draws steps m' = r' at hs
    obtain ⟨records, @⟨signal, m₁, m₁', ht⟩⟩ := hs
    rcases signal with _ | _ | _ | fault | _
    case halt.fault =>
      dsimp only
      split
      · exact (Step.runAll_inStep draws handler ht).map fun handled =>
          Record.attempt records (some handled)
      · exact .intro _ (.intro _ ht)
    all_goals exact .intro _ (.intro _ ht)
  | .forElse feed element body otherwise => by
    rintro _ _ ⟨m, lines⟩
    simp only [Step.run, Machine.source_on]
    rcases m.source feed with ⟨fault | source, m⟩
    · exact .intro _ (.intro _ (.intro m lines))
    · have hl := Abreast.driveLoop (.intro m lines) (Step.runAll_inStep draws body)
        (Step.runAll_inStep draws otherwise) draws (Loop.start source) element
      dsimp only
      generalize driveLoop _ _ _ _ _ (m.on (c.writeAll lines)) = l,
        driveLoop _ _ _ _ _ (m.on (c'.writeAll lines)) = l' at hl
      obtain ⟨outcome, ⟨loop, ⟨log, ht⟩⟩⟩ := hl
      exact .intro _ (.intro _ ht)
  | .runLoop name element body otherwise => by
    rintro _ _ ⟨m, lines⟩
    simp only [Step.run, Machine.loops_on]
    cases m.loops.lookup name with
    | none => exact .intro _ (.intro _ (.intro m lines))
    | some loop =>
      have hl := Abreast.driveLoop (.intro m lines) (Step.runAll_inStep draws body)
        (Step.runAll_inStep draws otherwise) draws loop element
      dsimp only
      generalize driveLoop _ _ _ _ _ (m.on (c.writeAll lines)) = l,
        driveLoop _ _ _ _ _ (m.on (c'.writeAll lines)) = l' at hl
      -- The loop is put back in both machines.
      obtain ⟨outcome, ⟨loop, ⟨log, ⟨m, lines⟩⟩⟩⟩ := hl
      exact .intro _ (.intro _ (.intro { m with loops := m.loops.put name loop } lines))

theorem Step.runAll_inStep (draws : Nat) :
    (steps : List Step) → InStep c c' (Step.runAll draws steps)
  | [] => fun _ _ hm => .intro _ (.intro _ hm)
  | step :: steps => by
    intro m m' hm
    have hs := Step.run_inStep draws step hm
    simp only [Step.runAll]
    generalize step.run draws m = r, step.run draws m' = r' at hs
    obtain ⟨record, @⟨signal, m₁, m₁', ht⟩⟩ := hs
    cases signal with
    | next => exact (Step.runAll_inStep draws steps ht).map (record :: ·)
    | _ => exact .intro _ (.intro _ ht)

end

/-- What stands on a console at the start is not read by a script, and stays. -/
theorem onlyPrints_program (draws : Nat) (steps : List Step) :
    Program.OnlyPrints (program draws steps) := by
  refine ⟨fun _ => ((program draws steps .silent).1, (program draws steps .silent).2.transcript),
    fun c => ?_⟩
  have hstart : Abreast .silent c (Machine.start .silent) (Machine.start c) :=
    .intro (Machine.start c) []
  have hrun := Step.runAll_inStep draws steps hstart
  simp only [program]
  generalize Step.runAll draws steps (Machine.start .silent) = r,
    Step.runAll draws steps (Machine.start c) = r' at hrun
  obtain ⟨records, ⟨signal, ⟨m, lines⟩⟩⟩ := hrun
  have hlines : (m.on (Console.silent.writeAll lines)).console.transcript = lines :=
    Console.transcript_writeAll .silent lines
  rcases signal with _ | _ | _ | fault | _ <;> dsimp only <;> rw [hlines] <;> rfl

end Script

end SharedValues
