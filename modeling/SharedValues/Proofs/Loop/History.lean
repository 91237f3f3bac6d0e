import SharedValues.Proofs.Loop.Simulation

/-!
# What a loop does over all its calls

A loop can be run again and again, each time with another body and another else clause and in a
state that anything may have changed since. `runAll` makes such calls in order. `watchAll` makes the
same calls while every draw, every round and every else clause notes what it answered; watching
changes nothing (`watchAll_erase`).

The first call decides. Its events go on, draw after round, up to the first that does not: the
source runs dry, or the body leaves or fails (`rounds_events`). What follows is fixed from there,
and it leaves the loop done (`watch_start`). A call of a loop that is done has no events at all
(`watch_of_done`).
-/

namespace SharedValues.Loop

/-- What a loop asks for, and the answer it gets: an element of the source, a round of the body on
an element, the else clause. -/
inductive Event (ε α : Type) where
  | drew (answer : Option α)
  | ran (element : α) (answer : Except ε Control)
  | closed (answer : Except ε Unit)

namespace Event

/-- After this event the loop goes on with its rounds. -/
def goesOn {ε α : Type} : Event ε α → Bool
  | .drew (some _) => true
  | .ran _ (.ok .proceed) => true
  | _ => false

def isElse {ε α : Type} : Event ε α → Bool
  | .closed _ => true
  | _ => false

end Event

/-- A call of a loop: its body, its else clause, the draws it may make, and the state in which it is
made. -/
structure Call (σ ε α : Type) where
  body : α → σ → Except ε Control × σ
  otherwise : σ → Except ε Unit × σ
  draws : Nat
  state : σ

/-- What a call returns, the loop and the state after it, and the events during it. -/
structure Turn (σ ε ι α : Type) where
  result : Except ε Outcome
  loop : Loop ι
  state : σ
  events : List (Event ε α)

variable {σ ε ι α : Type}

def Turn.answer (turn : Turn σ ε ι α) : Except ε Outcome × Loop ι × σ :=
  (turn.result, turn.loop, turn.state)

/-- Makes calls in order, if all of them return. -/
def runAll (draw : ι → σ → Option α × ι × σ) :
    Loop ι → List (Call σ ε α) → Option (List (Except ε Outcome × Loop ι × σ))
  | _, [] => some []
  | loop, c :: calls =>
    (loop.run draw c.body c.otherwise c.draws c.state).bind fun answer =>
      (runAll draw answer.2.1 calls).map fun answers => answer :: answers

/-! ### Watching -/

def noteDraw (draw : ι → σ → Option α × ι × σ) (source : ι) (t : σ × List (Event ε α)) :
    Option α × ι × σ × List (Event ε α) :=
  match draw source t.1 with
  | (a, source, s) => (a, source, s, t.2 ++ [.drew a])

def noteRound (body : α → σ → Except ε Control × σ) (a : α) (t : σ × List (Event ε α)) :
    Except ε Control × σ × List (Event ε α) :=
  match body a t.1 with
  | (answer, s) => (answer, s, t.2 ++ [.ran a answer])

def noteElse (otherwise : σ → Except ε Unit × σ) (t : σ × List (Event ε α)) :
    Except ε Unit × σ × List (Event ε α) :=
  match otherwise t.1 with
  | (answer, s) => (answer, s, t.2 ++ [.closed answer])

/-- Makes a call while its events are noted. -/
def watch (draw : ι → σ → Option α × ι × σ) (loop : Loop ι) (c : Call σ ε α) :
    Option (Turn σ ε ι α) :=
  (loop.run (noteDraw draw) (noteRound c.body) (noteElse c.otherwise) c.draws (c.state, [])).map
    fun answer => ⟨answer.1, answer.2.1, answer.2.2.1, answer.2.2.2⟩

def watchAll (draw : ι → σ → Option α × ι × σ) :
    Loop ι → List (Call σ ε α) → Option (List (Turn σ ε ι α))
  | _, [] => some []
  | loop, c :: calls =>
    (watch draw loop c).bind fun turn =>
      (watchAll draw turn.loop calls).map fun turns => turn :: turns

section Watching

variable {draw : ι → σ → Option α × ι × σ}

theorem noteDraw_noted (source : ι) (t : σ × List (Event ε α)) :
    Kept (Kept Noted) (noteDraw draw source t) (draw source t.1) := by
  unfold noteDraw
  rcases draw source t.1 with ⟨a, source, s⟩
  exact .intro _ (.intro _ rfl)

theorem noteRound_noted (body : α → σ → Except ε Control × σ) (a : α)
    (t : σ × List (Event ε α)) : Kept Noted (noteRound body a t) (body a t.1) := by
  unfold noteRound
  rcases body a t.1 with ⟨answer, s⟩
  exact .intro _ rfl

theorem noteElse_noted (otherwise : σ → Except ε Unit × σ) (t : σ × List (Event ε α)) :
    Kept Noted (noteElse otherwise t) (otherwise t.1) := by
  unfold noteElse
  rcases otherwise t.1 with ⟨answer, s⟩
  exact .intro _ rfl

theorem watch_erase (loop : Loop ι) (c : Call σ ε α) :
    (watch draw loop c).map Turn.answer = loop.run draw c.body c.otherwise c.draws c.state := by
  rw [watch, Option.map_map]
  exact run_erase noteDraw_noted (noteRound_noted c.body) (noteElse_noted c.otherwise) c.draws loop
    (c.state, [])

/-- Watched calls return what they return unwatched. -/
theorem watchAll_erase (loop : Loop ι) (calls : List (Call σ ε α)) :
    (watchAll draw loop calls).map (List.map Turn.answer) = runAll draw loop calls := by
  induction calls generalizing loop with
  | nil => rfl
  | cons c calls ih =>
    rw [watchAll, runAll, ← watch_erase]
    cases watch draw loop c with
    | none => rfl
    | some turn =>
      have hrest : runAll draw turn.loop calls = _ := (ih turn.loop).symm
      simp only [Option.bind_some, Option.map_some, Turn.answer, hrest, Option.map_map]
      rfl

end Watching

/-! ### One call -/

/-- How a first call ends: the events during it, what it returns, and whether it got as far as the
else clause. -/
inductive Ending : List (Event ε α) → Except ε Outcome → Bool → Prop where
  | left {before : List (Event ε α)} {a : α} : before.all Event.goesOn = true →
      Ending (before ++ [.ran a (.ok .leave)]) (.ok .broken) false
  | failed {before : List (Event ε α)} {a : α} {fault : ε} : before.all Event.goesOn = true →
      Ending (before ++ [.ran a (.error fault)]) (.error fault) false
  | completed {before : List (Event ε α)} : before.all Event.goesOn = true →
      Ending (before ++ [.drew none, .closed (.ok ())]) (.ok .completed) true
  | elseFailed {before : List (Event ε α)} {fault : ε} : before.all Event.goesOn = true →
      Ending (before ++ [.drew none, .closed (.error fault)]) (.error fault) true

section OneCall

variable {draw : ι → σ → Option α × ι × σ}

/-- The last event of rounds that end in this way. -/
def EndsWith : Exit ε → Event ε α → Prop
  | .dry, e => e = .drew none
  | .left, e => ∃ a, e = .ran a (.ok .leave)
  | .failed fault, e => ∃ a, e = .ran a (.error fault)

/-- Rounds go on up to their last event, which tells why they end. -/
theorem rounds_events {body : α → σ → Except ε Control × σ} {draws : Nat} {source source' : ι}
    {s s' : σ} {events events' : List (Event ε α)} {exit : Exit ε}
    (hr : rounds (noteDraw draw) (noteRound body) draws source (s, events) =
      some (exit, source', s', events')) :
    ∃ before last, events' = events ++ (before ++ [last]) ∧
      before.all Event.goesOn = true ∧ EndsWith exit last := by
  induction draws generalizing source s events with
  | zero => simp [rounds] at hr
  | succ draws ih =>
    rcases hd : draw source s with ⟨_ | a, source₁, s₁⟩
    · simp only [rounds, noteDraw, hd, Option.some.injEq, Prod.mk.injEq] at hr
      obtain ⟨rfl, -, -, rfl⟩ := hr
      exact ⟨[], .drew none, rfl, rfl, rfl⟩
    · rcases hb : body a s₁ with ⟨fault | _ | _, s₂⟩
      · simp only [rounds, noteDraw, noteRound, hd, hb, Option.some.injEq, Prod.mk.injEq] at hr
        obtain ⟨rfl, -, -, rfl⟩ := hr
        exact ⟨[.drew (some a)], .ran a (.error fault), by simp, rfl, a, rfl⟩
      · simp only [rounds, noteDraw, noteRound, hd, hb] at hr
        -- The round went on, so its draw and its answer come in front of the events to come.
        obtain ⟨before, last, rfl, hbefore, hlast⟩ := ih hr
        refine ⟨.drew (some a) :: .ran a (.ok .proceed) :: before, last, by simp, ?_, hlast⟩
        simpa [Event.goesOn] using hbefore
      · simp only [rounds, noteDraw, noteRound, hd, hb, Option.some.injEq, Prod.mk.injEq] at hr
        obtain ⟨rfl, -, -, rfl⟩ := hr
        exact ⟨[.drew (some a)], .ran a (.ok .leave), by simp, rfl, a, rfl⟩

/-- The first call ends in one of four ways and leaves the loop done. -/
theorem watch_start {source : ι} {c : Call σ ε α} {turn : Turn σ ε ι α}
    (hturn : watch draw (start source) c = some turn) :
    turn.loop.stage = .done ∧ Ending turn.events turn.result turn.loop.completedNormally := by
  simp only [watch, run, start] at hturn
  rcases hr : rounds (noteDraw draw) (noteRound c.body) c.draws source (c.state, []) with
    _ | ⟨exit, source', s, events⟩
  · simp [hr] at hturn
  obtain ⟨before, last, rfl, hbefore, hlast⟩ := rounds_events hr
  cases exit with
  | left =>
    obtain ⟨a, rfl⟩ := hlast
    simp only [hr, Option.map_some, Option.some.injEq] at hturn
    subst hturn
    exact ⟨rfl, .left hbefore⟩
  | failed fault =>
    obtain ⟨a, rfl⟩ := hlast
    simp only [hr, Option.map_some, Option.some.injEq] at hturn
    subst hturn
    exact ⟨rfl, .failed hbefore⟩
  | dry =>
    obtain rfl : last = .drew none := hlast
    rcases ho : c.otherwise s with ⟨fault | _, s₁⟩
    · simp only [hr, finish, noteElse, ho, Option.map_some, Option.some.injEq] at hturn
      subst hturn
      exact ⟨rfl, by simpa using Ending.elseFailed hbefore⟩
    · simp only [hr, finish, noteElse, ho, Option.map_some, Option.some.injEq] at hturn
      subst hturn
      exact ⟨rfl, by simpa [outcome] using Ending.completed hbefore⟩

/-- The turn of a call that is made once the loop is done. -/
def idleTurn (loop : Loop ι) (c : Call σ ε α) : Turn σ ε ι α :=
  ⟨.ok loop.outcome, loop, c.state, []⟩

@[simp] theorem idleTurn_loop (loop : Loop ι) (c : Call σ ε α) : (idleTurn loop c).loop = loop :=
  rfl

@[simp] theorem idleTurn_events (loop : Loop ι) (c : Call σ ε α) :
    (idleTurn loop c).events = [] := rfl

/-- A call of a loop that is done asks for nothing and changes nothing. -/
theorem watch_of_done {loop : Loop ι} (hdone : loop.stage = .done) (c : Call σ ε α) :
    watch draw loop c = some (idleTurn loop c) := by
  simp [watch, run, finish, hdone, idleTurn]

theorem watchAll_of_done {loop : Loop ι} (hdone : loop.stage = .done)
    (calls : List (Call σ ε α)) :
    watchAll draw loop calls = some (calls.map (idleTurn loop)) := by
  induction calls with
  | nil => rfl
  | cons c calls ih => simp [watchAll, watch_of_done hdone, ih]

end OneCall

/-! ### All calls -/

/-- The source ran dry, after every round so far had asked to go on. -/
def RanDry (events : List (Event ε α)) : Prop :=
  ∃ before after, events = before ++ .drew none :: after ∧
    ∀ a answer, .ran a answer ∈ before → answer = .ok .proceed

theorem Event.goesOn_iff {e : Event ε α} :
    e.goesOn = true ↔ (∃ a, e = .drew (some a)) ∨ ∃ a, e = .ran a (.ok .proceed) := by
  constructor
  · intro he
    unfold Event.goesOn at he
    split at he
    · exact Or.inl ⟨_, rfl⟩
    · exact Or.inr ⟨_, rfl⟩
    · cases he
  · rintro (⟨a, rfl⟩ | ⟨a, rfl⟩) <;> rfl

/-- An event after which the loop does not go on comes after all those after which it does. -/
theorem exists_append_of_goesOn {before tail before' after : List (Event ε α)} {e : Event ε α}
    (hon : before.all Event.goesOn = true) (he : e.goesOn = false)
    (hsplit : before ++ tail = before' ++ e :: after) :
    ∃ between, before' = before ++ between ∧ tail = between ++ e :: after := by
  rcases List.append_eq_append_iff.1 hsplit with ⟨between, hb, ht⟩ | ⟨between, hb, ht⟩
  · exact ⟨between, hb, ht⟩
  · cases between with
    | nil => exact ⟨[], by simpa using hb.symm, ht.symm⟩
    | cons x between =>
      obtain ⟨rfl, -⟩ := List.cons.inj ht
      have hmem : e ∈ before := by simp [hb]
      rw [List.all_eq_true.1 hon e hmem] at he
      cases he

namespace Ending

variable {events : List (Event ε α)} {result : Except ε Outcome} {completed : Bool}

theorem countP_isElse (hend : Ending events result completed) :
    events.countP Event.isElse = if completed then 1 else 0 := by
  have hbefore : ∀ before : List (Event ε α), before.all Event.goesOn = true →
      before.countP Event.isElse = 0 := by
    intro before hon
    rw [List.countP_eq_zero]
    intro e he
    rcases Event.goesOn_iff.1 (List.all_eq_true.1 hon e he) with ⟨a, rfl⟩ | ⟨a, rfl⟩ <;>
      simp [Event.isElse]
  cases hend with
  | left hon => simp [hbefore _ hon, Event.isElse]
  | failed hon => simp [hbefore _ hon, Event.isElse]
  | completed hon => simp [hbefore _ hon, Event.isElse]
  | elseFailed hon => simp [hbefore _ hon, Event.isElse]

theorem ranDry_append {before after : List (Event ε α)} (hon : before.all Event.goesOn = true) :
    RanDry (before ++ .drew none :: after) := by
  refine ⟨before, after, rfl, ?_⟩
  intro a answer hm
  rcases Event.goesOn_iff.1 (List.all_eq_true.1 hon _ hm) with ⟨b, hb⟩ | ⟨b, hb⟩
  · cases hb
  · cases hb
    rfl

theorem not_ranDry_of_ran {before : List (Event ε α)} {a : α} {answer : Except ε Control}
    (hon : before.all Event.goesOn = true) : ¬ RanDry (before ++ [.ran a answer]) := by
  rintro ⟨before', after, hsplit, -⟩
  obtain ⟨between, -, htail⟩ := exists_append_of_goesOn hon rfl hsplit
  cases between <;> simp at htail

theorem ranDry_iff (hend : Ending events result completed) :
    RanDry events ↔ completed = true := by
  cases hend with
  | left hon => simpa using not_ranDry_of_ran hon
  | failed hon => simpa using not_ranDry_of_ran hon
  | completed hon => simpa using ranDry_append hon
  | elseFailed hon => simpa using ranDry_append hon

theorem result_eq_error_iff (hend : Ending events result completed) {fault : ε} :
    result = .error fault ↔
      (∃ a, .ran a (.error fault) ∈ events) ∨ .closed (.error fault) ∈ events := by
  have hbefore : ∀ before : List (Event ε α), before.all Event.goesOn = true →
      (∀ a, .ran a (.error fault) ∉ before) ∧ .closed (.error fault) ∉ before := by
    intro before hon
    exact ⟨fun a hm => by simpa [Event.goesOn] using List.all_eq_true.1 hon _ hm,
      fun hm => by simpa [Event.goesOn] using List.all_eq_true.1 hon _ hm⟩
  cases hend with
  | left hon => simp [hbefore _ hon]
  | failed hon => simp [hbefore _ hon, eq_comm]
  | completed hon => simp [hbefore _ hon]
  | elseFailed hon => simp [hbefore _ hon, eq_comm]

theorem nothing_after (hend : Ending events result completed) {before after : List (Event ε α)}
    {a : α} {answer : Except ε Control} (hsplit : events = before ++ .ran a answer :: after)
    (hanswer : answer ≠ .ok .proceed) : after = [] := by
  have hstop : (Event.ran a answer : Event ε α).goesOn = false := by
    rw [← Bool.not_eq_true, Event.goesOn_iff]
    simp [hanswer]
  cases hend with
  | left hon =>
    obtain ⟨between, -, htail⟩ := exists_append_of_goesOn hon hstop hsplit
    cases between <;> simp_all
  | failed hon =>
    obtain ⟨between, -, htail⟩ := exists_append_of_goesOn hon hstop hsplit
    cases between <;> simp_all
  | completed hon =>
    obtain ⟨between, -, htail⟩ := exists_append_of_goesOn hon hstop hsplit
    rcases between with _ | ⟨x, _ | ⟨y, between⟩⟩ <;> simp at htail
  | elseFailed hon =>
    obtain ⟨between, -, htail⟩ := exists_append_of_goesOn hon hstop hsplit
    rcases between with _ | ⟨x, _ | ⟨y, between⟩⟩ <;> simp at htail

theorem eq_outcome (hend : Ending events result completed) {o : Outcome} (ho : result = .ok o) :
    (if completed then Outcome.completed else .broken) = o := by
  cases hend <;> simp_all

end Ending

/-- What holds of the first call of a loop and of all calls after it. -/
structure Lawful (first : Turn σ ε ι α) (later : List (Call σ ε α)) (turns : List (Turn σ ε ι α)) :
    Prop where
  /-- After each call the loop is done. -/
  done : ∀ t ∈ first :: turns, t.loop.stage = .done
  /-- The else clause runs at most once in all calls. -/
  else_once : ((first :: turns).flatMap Turn.events).countP Event.isElse ≤ 1
  /-- It runs exactly if the source of the first call runs dry while every round asks to go on. -/
  else_iff : (∃ e ∈ (first :: turns).flatMap Turn.events, e.isElse = true) ↔ RanDry first.events
  /-- The loop has completed normally, after any call, exactly if the else clause has run. -/
  completed_iff : ∀ t ∈ first :: turns, t.loop.completedNormally = true ↔
    ∃ e ∈ (first :: turns).flatMap Turn.events, e.isElse = true
  /-- A call returns exactly the fault with which its body or else clause has failed. -/
  fault_iff : ∀ t ∈ first :: turns, ∀ fault, t.result = .error fault ↔
    (∃ a, .ran a (.error fault) ∈ t.events) ∨ .closed (.error fault) ∈ t.events
  /-- After a round that leaves or fails nothing is drawn and neither body nor else clause runs. -/
  stops : ∀ t ∈ first :: turns, ∀ before a answer after,
    t.events = before ++ .ran a answer :: after → answer ≠ .ok .proceed → after = []
  /-- A later call has no events, changes neither loop nor state, and answers by how the first one
  ended. -/
  later_eq : turns = later.map fun c =>
    ⟨.ok (if first.loop.completedNormally then .completed else .broken), first.loop, c.state, []⟩
  /-- So the outcome of the first call, if it has one, is that of every later call. -/
  repeats : ∀ o, first.result = .ok o → ∀ t ∈ turns, t.result = .ok o

theorem forall_turn {P : Turn σ ε ι α → Prop} {first : Turn σ ε ι α} {later : List (Call σ ε α)}
    (hfirst : P first) (hidle : ∀ c, P (idleTurn first.loop c)) :
    ∀ t ∈ first :: later.map (idleTurn first.loop), P t := by
  intro t ht
  rcases List.mem_cons.1 ht with rfl | ht
  · exact hfirst
  · obtain ⟨c, -, rfl⟩ := List.mem_map.1 ht
    exact hidle c

theorem lawful_of_ending {first : Turn σ ε ι α} (hdone : first.loop.stage = .done)
    (hend : Ending first.events first.result first.loop.completedNormally)
    (later : List (Call σ ε α)) :
    Lawful first later (later.map (idleTurn first.loop)) := by
  have hevents : (first :: later.map (idleTurn first.loop)).flatMap Turn.events =
      first.events := by simp [List.flatMap_map]
  have helse : (∃ e ∈ first.events, e.isElse = true) ↔ first.loop.completedNormally = true := by
    rw [← List.countP_pos_iff, hend.countP_isElse]
    cases first.loop.completedNormally <;> simp
  constructor
  · exact forall_turn hdone fun _ => hdone
  · rw [hevents, hend.countP_isElse]
    split <;> simp
  · rw [hevents, helse, hend.ranDry_iff]
  · rw [hevents]
    exact forall_turn helse.symm fun _ => helse.symm
  · exact forall_turn (fun fault => hend.result_eq_error_iff) fun c fault => by simp [idleTurn]
  · exact forall_turn (fun before a answer after => hend.nothing_after)
      fun c before a answer after => by simp
  · rfl
  · intro o ho t ht
    obtain ⟨c, -, rfl⟩ := List.mem_map.1 ht
    exact congrArg Except.ok (hend.eq_outcome ho)

/-- Whatever calls are made of a new loop, in whatever states: if the first one returns, so do all
others, and their events obey the law above. -/
theorem calls_lawful (draw : ι → σ → Option α × ι × σ) (source : ι) (first : Call σ ε α)
    (later : List (Call σ ε α)) {answer : Except ε Outcome × Loop ι × σ}
    (hanswer : (start source).run draw first.body first.otherwise first.draws first.state =
      some answer) :
    ∃ turn turns, watchAll draw (start source) (first :: later) = some (turn :: turns) ∧
      runAll draw (start source) (first :: later) = some ((turn :: turns).map Turn.answer) ∧
      turn.answer = answer ∧ Lawful turn later turns := by
  rw [← watch_erase, Option.map_eq_some_iff] at hanswer
  obtain ⟨turn, hfirst, hturn⟩ := hanswer
  obtain ⟨hdone, hend⟩ := watch_start hfirst
  have hwatch : watchAll draw (start source) (first :: later) =
      some (turn :: later.map (idleTurn turn.loop)) := by
    simp [watchAll, hfirst, watchAll_of_done hdone later]
  refine ⟨turn, later.map (idleTurn turn.loop), hwatch, ?_, hturn,
    lawful_of_ending hdone hend later⟩
  rw [← watchAll_erase, hwatch, Option.map_some]

/-- Draws from numbers that are given in advance, and counts the draws. -/
def drawCounted : List Nat → Nat → Option Nat × List Nat × Nat
  | [], count => (none, [], count + 1)
  | n :: rest, count => (some n, rest, count + 1)

/-- Goes on in every round and fails in its else clause. -/
def failingElse : Call Nat String Nat :=
  ⟨fun _ count => (.ok .proceed, count), fun count => (.error "no", count), 3, 0⟩

/-- Would leave in its first round. -/
def leaving : Call Nat String Nat :=
  ⟨fun _ count => (.ok .leave, count), fun count => (.ok (), count), 0, 5⟩

theorem calls_lawful_failing_else :
    (start [7, 8]).run drawCounted failingElse.body failingElse.otherwise 3 0 =
        some (.error "no", ⟨[], .done, true⟩, 3) ∧
      ∃ turn turns, runAll drawCounted (start [7, 8]) [failingElse, leaving] =
          some ((turn :: turns).map Turn.answer) ∧
        turn.result = .error "no" ∧ Lawful turn [leaving] turns := by
  have hfirst : (start [7, 8]).run drawCounted failingElse.body failingElse.otherwise 3 0 =
      some (.error "no", ⟨[], .done, true⟩, 3) := rfl
  obtain ⟨turn, turns, -, hcalls, hanswer, hlaw⟩ :=
    calls_lawful drawCounted [7, 8] failingElse [leaving] hfirst
  exact ⟨hfirst, turn, turns, hcalls, (Prod.mk.inj hanswer).1, hlaw⟩

end SharedValues.Loop
