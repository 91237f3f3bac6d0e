/-!
# Loops with an else clause

A loop draws elements from a source and hands each to its body. The body asks to go on or to leave,
or it fails. If the source runs dry, the else clause runs; if the body leaves or fails, it does not.
A loop that is done remembers only whether it got as far as its else clause, and running it again
touches neither source nor body nor else clause.

Source, body and else clause may change any state, so a loop may go on for ever. A run is given the
number of draws it may make and answers `none` if these were not enough.
-/

namespace SharedValues

/-- What a loop body asks for. -/
inductive Control where
  | proceed
  | leave
deriving DecidableEq, Repr

/-- How a loop has ended: its source ran dry, or its body left it. -/
inductive Outcome where
  | completed
  | broken
deriving DecidableEq, Repr

/-- Where a loop stands. -/
inductive Stage where
  /-- The loop draws its next element. -/
  | running
  /-- The source had no further element. -/
  | exhausted
  /-- The else clause is about to run. -/
  | elsePending
  | done
deriving DecidableEq, Repr

/-- A loop over a source. -/
structure Loop (ι : Type) where
  source : ι
  stage : Stage
  /-- Whether the loop got as far as its else clause. -/
  completedNormally : Bool
deriving DecidableEq, Repr

/-- Why the rounds of a loop end. -/
inductive Exit (ε : Type) where
  | dry
  | left
  | failed (fault : ε)
deriving DecidableEq, Repr

namespace Loop

variable {σ ε ι α : Type}

/-- A loop that has not begun. -/
def start (source : ι) : Loop ι := ⟨source, .running, false⟩

/-- The outcome of a loop whose body does not leave or fail any more. -/
def outcome (loop : Loop ι) : Outcome :=
  if loop.completedNormally then .completed else .broken

/-- Draws and runs the body until the source runs dry or the body leaves or fails. -/
def rounds (draw : ι → σ → Option α × ι × σ) (body : α → σ → Except ε Control × σ) :
    Nat → ι → σ → Option (Exit ε × ι × σ)
  | 0, _, _ => none
  | draws + 1, source, s =>
    match draw source s with
    | (none, source, s) => some (.dry, source, s)
    | (some a, source, s) =>
      match body a s with
      | (.ok .proceed, s) => rounds draw body draws source s
      | (.ok .leave, s) => some (.left, source, s)
      | (.error fault, s) => some (.failed fault, source, s)

/-- What is left to do once no more elements are drawn. An exhausted loop runs its else clause, and
is done afterwards even if that fails. -/
def finish (otherwise : σ → Except ε Unit × σ) (loop : Loop ι) (s : σ) :
    Except ε Outcome × Loop ι × σ :=
  match loop.stage with
  | .exhausted =>
    let loop := { loop with stage := .elsePending, completedNormally := true }
    match otherwise s with
    | (.ok (), s) => (.ok loop.outcome, { loop with stage := .done }, s)
    | (.error fault, s) => (.error fault, { loop with stage := .done }, s)
  | _ => (.ok loop.outcome, loop, s)

/-- Runs a loop with at most `draws` draws. -/
def run (draw : ι → σ → Option α × ι × σ) (body : α → σ → Except ε Control × σ)
    (otherwise : σ → Except ε Unit × σ) (draws : Nat) (loop : Loop ι) (s : σ) :
    Option (Except ε Outcome × Loop ι × σ) :=
  match loop.stage with
  | .running =>
    match rounds draw body draws loop.source s with
    | none => none
    | some (.left, source, s) =>
      some (.ok .broken, { loop with source := source, stage := .done }, s)
    | some (.failed fault, source, s) =>
      some (.error fault, { loop with source := source, stage := .done }, s)
    | some (.dry, source, s) =>
      some (finish otherwise { loop with source := source, stage := .exhausted } s)
  | _ => some (finish otherwise loop s)

/-- More draws do not change a run of rounds that has ended. -/
theorem rounds_mono {draw : ι → σ → Option α × ι × σ} {body : α → σ → Except ε Control × σ}
    {n m : Nat} (hnm : n ≤ m) {source : ι} {s : σ} {r : Exit ε × ι × σ}
    (hr : rounds draw body n source s = some r) : rounds draw body m source s = some r := by
  induction n generalizing m source s with
  | zero => simp [rounds] at hr
  | succ n ih =>
    cases m with
    | zero => omega
    | succ m =>
      simp only [rounds] at hr ⊢
      rcases hd : draw source s with ⟨_ | a, source, s⟩ <;> simp only [hd] at hr ⊢
      · exact hr
      · rcases hb : body a s with ⟨_ | _ | _, s⟩ <;> simp only [hb] at hr ⊢
        · exact hr
        · exact ih (by omega) hr
        · exact hr

end Loop

end SharedValues
