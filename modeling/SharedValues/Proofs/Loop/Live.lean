import Mathlib.Data.List.Infix
import SharedValues.Proofs.Loop.Simulation
import SharedValues.Script.Run

/-!
# Loops over a live list

A loop over a list draws from a cursor, which reads the list as it is at that moment. The run of
such a loop is traced: each round with the element that the body was given and the states around it,
and the state in which the cursor found no more elements. Tracing changes nothing (`trace_erase`).

Whatever the bodies do, the rounds walk along the list: the one that comes after `k` others gets the
element at index `k`, as it is then (`rounds_walks`). If no round does more to the list than add to
its end, an element that was given out stays at its index. Then the elements of all rounds together
are the list as it is when it runs dry (`Walks.map_element`).
-/

namespace SharedValues

/-- A source is drawn from as a cursor is moved over the store of the moment. Nothing but the cursor
changes. -/
def Cursor.DrawnBy {σ ι : Type} (store : σ → Store) (source : Cursor → ι)
    (draw : ι → σ → Option Value × ι × σ) : Prop :=
  ∀ (c : Cursor) (s : σ), draw (source c) s =
    ((c.next (store s)).1, source (c.next (store s)).2, s)

/-- The loops of scripts draw so from the lists that they are given. -/
theorem Script.drawnBy_drawElement :
    Cursor.DrawnBy (fun s : Machine × Log => s.1.store) Source.cursor drawElement :=
  fun _ _ => rfl

namespace Loop

variable {σ ε ι α : Type}

/-! ### Tracing -/

/-- A round: the element that the body is given, the state it finds and the state it leaves. -/
structure Round (σ α : Type) where
  element : α
  before : σ
  after : σ

/-- The rounds of a run, in order, and the state in which its source runs dry. -/
structure Trace (σ α : Type) where
  rounds : List (Round σ α)
  dry : Option σ

def traceDraw (draw : ι → σ → Option α × ι × σ) (source : ι) (t : σ × Trace σ α) :
    Option α × ι × σ × Trace σ α :=
  match draw source t.1 with
  | (none, source, s) => (none, source, s, { t.2 with dry := some s })
  | (some a, source, s) => (some a, source, s, t.2)

def traceRound (body : α → σ → Except ε Control × σ) (a : α) (t : σ × Trace σ α) :
    Except ε Control × σ × Trace σ α :=
  match body a t.1 with
  | (answer, s) => (answer, s, { t.2 with rounds := t.2.rounds ++ [⟨a, t.1, s⟩] })

def traceElse (otherwise : σ → Except ε Unit × σ) (t : σ × Trace σ α) :
    Except ε Unit × σ × Trace σ α :=
  match otherwise t.1 with
  | (answer, s) => (answer, s, t.2)

/-- Runs a loop and traces it. -/
def trace (draw : ι → σ → Option α × ι × σ) (body : α → σ → Except ε Control × σ)
    (otherwise : σ → Except ε Unit × σ) (draws : Nat) (loop : Loop ι) (s : σ) :
    Option (Except ε Outcome × Loop ι × σ × Trace σ α) :=
  loop.run (traceDraw draw) (traceRound body) (traceElse otherwise) draws (s, ⟨[], none⟩)

section Tracing

variable {draw : ι → σ → Option α × ι × σ} {body : α → σ → Except ε Control × σ}
  {otherwise : σ → Except ε Unit × σ} {draws : Nat}

theorem traceDraw_noted (source : ι) (t : σ × Trace σ α) :
    Kept (Kept Noted) (traceDraw draw source t) (draw source t.1) := by
  unfold traceDraw
  rcases draw source t.1 with ⟨_ | a, source, s⟩
  · exact .intro _ (.intro _ rfl)
  · exact .intro _ (.intro _ rfl)

theorem traceRound_noted (a : α) (t : σ × Trace σ α) :
    Kept Noted (traceRound body a t) (body a t.1) := by
  unfold traceRound
  rcases body a t.1 with ⟨answer, s⟩
  exact .intro _ rfl

theorem traceElse_noted (t : σ × Trace σ α) :
    Kept Noted (traceElse otherwise t) (otherwise t.1) := by
  unfold traceElse
  rcases otherwise t.1 with ⟨answer, s⟩
  exact .intro _ rfl

theorem trace_erase (loop : Loop ι) (s : σ) :
    (trace draw body otherwise draws loop s).map (fun r => (r.1, r.2.1, r.2.2.1)) =
      loop.run draw body otherwise draws s :=
  run_erase traceDraw_noted traceRound_noted traceElse_noted draws loop (s, ⟨[], none⟩)

/-- A new loop that completes has drawn until its source ran dry, and then its else clause has
succeeded. -/
theorem exists_rounds_of_completed {source : ι} {loop : Loop ι} {s s' : σ}
    (hrun : (start source).run draw body otherwise draws s = some (.ok .completed, loop, s')) :
    ∃ source' last, rounds draw body draws source s = some (.dry, source', last) ∧
      otherwise last = (.ok (), s') := by
  simp only [run, start] at hrun
  rcases hr : rounds draw body draws source s with _ | ⟨_ | _ | fault, source', last⟩
  · simp [hr] at hrun
  · rcases ho : otherwise last with ⟨fault | _, s₁⟩
    · simp [hr, finish, ho] at hrun
    · simp only [hr, finish, ho, Option.some.injEq, Prod.mk.injEq] at hrun
      obtain ⟨-, -, rfl⟩ := hrun
      exact ⟨source', last, rfl, ho⟩
  · simp [hr] at hrun
  · simp [hr] at hrun

end Tracing

/-! ### Walking along the list -/

/-- Rounds that lead from one state to another and are given the elements of a list from an index
on, each as it is when its round begins. -/
inductive Walks (store : σ → Store) (r : ListRef) : Nat → σ → List (Round σ Value) → σ → Prop where
  | nil (p : Nat) (s : σ) : Walks store r p s [] s
  | cons {p : Nat} {s s₁ s' : σ} {x : Value} {rest : List (Round σ Value)} :
      ((store s).elements r)[p]? = some x → Walks store r (p + 1) s₁ rest s' →
      Walks store r p s (⟨x, s, s₁⟩ :: rest) s'

section Walking

variable {store : σ → Store} {source : Cursor → ι} {draw : ι → σ → Option Value × ι × σ}
  {body : Value → σ → Except ε Control × σ}

/-- However the rounds end, they have walked along the list, and the cursor stands behind as many
elements as there were rounds. If it found no more, the list is not longer than that. -/
theorem rounds_walks (hdraw : Cursor.DrawnBy store source draw) {draws : Nat} {c : Cursor}
    {s s' : σ} {t t' : Trace σ Value} {exit : Exit ε} {source' : ι}
    (hr : rounds (traceDraw draw) (traceRound body) draws (source c) (s, t) =
      some (exit, source', s', t')) :
    ∃ visited, t'.rounds = t.rounds ++ visited ∧ Walks store c.list c.position s visited s' ∧
      source' = source ⟨c.list, c.position + visited.length⟩ ∧
      (exit = .dry → t'.dry = some s' ∧
        (store s').length c.list ≤ c.position + visited.length) := by
  induction draws generalizing c s t with
  | zero => simp [rounds] at hr
  | succ draws ih =>
    have hd := hdraw c s
    cases hx : ((store s).elements c.list)[c.position]? with
    | none =>
      have hend : (store s).length c.list ≤ c.position := List.getElem?_eq_none_iff.1 hx
      rw [Cursor.next_of_ge hend] at hd
      simp only [rounds, traceDraw, hd, Option.some.injEq, Prod.mk.injEq] at hr
      obtain ⟨-, rfl, rfl, rfl⟩ := hr
      exact ⟨[], (List.append_nil _).symm, .nil _ _, rfl, fun _ => ⟨rfl, hend⟩⟩
    | some x =>
      rw [Cursor.next_of_lt hx] at hd
      rcases hb : body x s with ⟨fault | _ | _, s₁⟩
      · simp only [rounds, traceDraw, traceRound, hd, hb, Option.some.injEq, Prod.mk.injEq] at hr
        obtain ⟨rfl, rfl, rfl, rfl⟩ := hr
        exact ⟨_, rfl, .cons hx (.nil _ _), rfl, fun hdry => by cases hdry⟩
      · simp only [rounds, traceDraw, traceRound, hd, hb] at hr
        -- The rounds to come walk on from the next index.
        obtain ⟨visited, hrounds, hwalks, hsource, hdry⟩ := ih hr
        have hcount : c.position + 1 + visited.length =
            c.position + (⟨x, s, s₁⟩ :: visited : List (Round σ Value)).length := by
          rw [List.length_cons]
          omega
        rw [hcount] at hsource hdry
        refine ⟨⟨x, s, s₁⟩ :: visited, ?_, .cons hx hwalks, hsource, hdry⟩
        rw [hrounds, List.append_assoc, List.singleton_append]
      · simp only [rounds, traceDraw, traceRound, hd, hb, Option.some.injEq, Prod.mk.injEq] at hr
        obtain ⟨rfl, rfl, rfl, rfl⟩ := hr
        exact ⟨_, rfl, .cons hx (.nil _ _), rfl, fun hdry => by cases hdry⟩

variable {r : ListRef} {p : Nat} {s s' : σ} {visited : List (Round σ Value)}

/-- What every round does to the list at most, all rounds together do at most. -/
theorem Walks.related {R : List Value → List Value → Prop} (hrefl : ∀ vs, R vs vs)
    (htrans : ∀ {us vs ws}, R us vs → R vs ws → R us ws) (hwalks : Walks store r p s visited s')
    (hround : ∀ round ∈ visited,
      R ((store round.before).elements r) ((store round.after).elements r)) :
    R ((store s).elements r) ((store s').elements r) := by
  induction hwalks with
  | nil p s => exact hrefl _
  | cons _ _ ih =>
    rw [List.forall_mem_cons] at hround
    exact htrans hround.1 (ih hround.2)

/-- Rounds that only add to the end of the list are given what stands in it after the last of
them. -/
theorem Walks.map_element (hwalks : Walks store r p s visited s')
    (hadds : ∀ round ∈ visited,
      (store round.before).elements r <+: (store round.after).elements r) :
    visited.map Round.element = (((store s').elements r).drop p).take visited.length := by
  induction hwalks with
  | nil p s => rw [List.map_nil, List.length_nil, List.take_zero]
  | @cons p s s₁ s' x rest hx hrest ih =>
    rw [List.forall_mem_cons] at hadds
    have hgrown : (store s).elements r <+: (store s').elements r :=
      hadds.1.trans (hrest.related List.prefix_refl List.IsPrefix.trans hadds.2)
    obtain ⟨hp, hget⟩ := List.getElem?_eq_some_iff.1 hx
    have hstays : ((store s').elements r)[p]? = some x :=
      (List.prefix_iff_getElem?.1 hgrown p hp).trans (congrArg some hget)
    obtain ⟨hpLast, hgetLast⟩ := List.getElem?_eq_some_iff.1 hstays
    rw [List.map_cons, ih hadds.2, List.drop_eq_getElem_cons hpLast, hgetLast, List.length_cons,
      List.take_succ_cons]

theorem Walks.map_element_of_length_le (hwalks : Walks store r 0 s visited s')
    (hend : (store s').length r ≤ visited.length)
    (hadds : ∀ round ∈ visited,
      (store round.before).elements r <+: (store round.after).elements r) :
    visited.map Round.element = (store s').elements r := by
  rw [hwalks.map_element hadds, List.drop_zero]
  exact List.take_of_length_le hend

end Walking

/-! ### Whole runs -/

/-- A new loop over a list that completes has walked along all of it, and the list it has walked
along is the one with which its else clause begins. -/
theorem completed_walks {store : σ → Store} {source : Cursor → ι}
    {draw : ι → σ → Option Value × ι × σ} (hdraw : Cursor.DrawnBy store source draw) {r : ListRef}
    {body : Value → σ → Except ε Control × σ} {otherwise : σ → Except ε Unit × σ} {draws : Nat}
    {loop : Loop ι} {s s' : σ}
    (hrun : (start (source (Cursor.start r))).run draw body otherwise draws s =
      some (.ok .completed, loop, s')) :
    ∃ visited last, trace draw body otherwise draws (start (source (Cursor.start r))) s =
        some (.ok .completed, loop, s', ⟨visited, some last⟩) ∧
      otherwise last = (.ok (), s') ∧ Walks store r 0 s visited last ∧
      (store last).length r ≤ visited.length := by
  rw [← trace_erase, Option.map_eq_some_iff] at hrun
  obtain ⟨⟨_, _, _, ⟨traced, dry⟩⟩, htrace, hsame⟩ := hrun
  cases hsame
  obtain ⟨source', ⟨last, t⟩, hrounds, helse⟩ := exists_rounds_of_completed htrace
  rcases ho : otherwise last with ⟨answer, s₁⟩
  simp only [traceElse, ho, Prod.mk.injEq] at helse
  obtain ⟨rfl, rfl, rfl⟩ := helse
  obtain ⟨visited, hvisited, hwalks, -, hdry⟩ := rounds_walks hdraw hrounds
  obtain ⟨rfl, hend⟩ := hdry rfl
  obtain rfl : traced = visited := hvisited
  rw [Cursor.start, Nat.zero_add] at hend
  exact ⟨traced, last, htrace, ho, hwalks, hend⟩

/-- A loop over a list that completes, with the state in which its source ran dry and its else
clause is run. If its rounds only add to the end of the list, they are given exactly the elements
that it then has, each once and in order, and these begin with the elements it had at the start. If
no round changes the list, they are given the elements it had at the start. -/
theorem completed_visits_elements {store : σ → Store} {source : Cursor → ι}
    {draw : ι → σ → Option Value × ι × σ} (hdraw : Cursor.DrawnBy store source draw)
    {r : ListRef} {c : Cursor} (hc : Method.iterate (.list r) = .ok c)
    {body : Value → σ → Except ε Control × σ} {otherwise : σ → Except ε Unit × σ} {draws : Nat}
    {loop : Loop ι} {s s' : σ}
    (hrun : (start (source c)).run draw body otherwise draws s =
      some (.ok .completed, loop, s')) :
    ∃ visited last, trace draw body otherwise draws (start (source c)) s =
        some (.ok .completed, loop, s', ⟨visited, some last⟩) ∧
      otherwise last = (.ok (), s') ∧
      ((∀ round ∈ visited, (store round.before).elements r <+: (store round.after).elements r) →
        visited.map Round.element = (store last).elements r ∧
          (store s).elements r <+: (store last).elements r) ∧
      ((∀ round ∈ visited, (store round.after).elements r = (store round.before).elements r) →
        visited.map Round.element = (store s).elements r) := by
  cases hc
  obtain ⟨visited, last, htrace, helse, hwalks, hend⟩ := completed_walks hdraw hrun
  have hall := hwalks.map_element_of_length_le hend
  refine ⟨visited, last, htrace, helse, fun hadds => ⟨hall hadds, ?_⟩, fun hkeeps => ?_⟩
  · exact hwalks.related List.prefix_refl List.IsPrefix.trans hadds
  · have hkept : (store last).elements r = (store s).elements r :=
      (hwalks.related (fun _ => rfl) Eq.trans fun round hm => (hkeeps round hm).symm).symm
    rw [hall fun round hm => (hkeeps round hm).symm ▸ List.prefix_refl _, hkept]

section Growing

open Script

/-- A machine with one list, named `a`. -/
def growing : Machine :=
  { Machine.start .silent with store := ⟨#[[.int 2, .int 0]], 0⟩, locals := [("a", .list ⟨0⟩)] }

/-- Adds a new list to the end of `a` if the element is truthy. -/
def growingBody : Block :=
  Step.runAll 0 [.branch (.var "x") none [.act (.method (.var "a") (.append (.list [])) none)] []]

/-- The loop of this body over `a`, traced. -/
def growingTrace :
    Option (Except Halt Outcome × Loop Source × (Machine × Log) × Trace (Machine × Log) Value) :=
  trace drawElement (runRound "x" growingBody) (runOtherwise (Step.runAll 0 [])) 4
    (start (.cursor (Cursor.start ⟨0⟩))) (growing, ⟨[], none⟩)

theorem completed_visits_elements_growing :
    ∃ loop s' visited last,
      (start (.cursor (Cursor.start ⟨0⟩))).run drawElement (runRound "x" growingBody)
          (runOtherwise (Step.runAll 0 [])) 4 (growing, ⟨[], none⟩) =
        some (.ok .completed, loop, s') ∧
      growingTrace = some (.ok .completed, loop, s', ⟨visited, some last⟩) ∧
      (∀ round ∈ visited,
        round.before.1.store.elements ⟨0⟩ <+: round.after.1.store.elements ⟨0⟩) ∧
      visited.map Round.element = last.1.store.elements ⟨0⟩ ∧
      last.1.store.elements ⟨0⟩ = [.int 2, .int 0, .list ⟨1⟩] := by
  obtain ⟨loop, s', hrun⟩ : ∃ loop s', (start (.cursor (Cursor.start ⟨0⟩))).run drawElement
      (runRound "x" growingBody) (runOtherwise (Step.runAll 0 [])) 4 (growing, ⟨[], none⟩) =
        some (.ok .completed, loop, s') := ⟨_, _, rfl⟩
  obtain ⟨visited, last, htrace, -, hvisits, -⟩ :=
    completed_visits_elements drawnBy_drawElement rfl hrun
  have hadds : growingTrace.map (fun a => a.2.2.2.rounds.all fun round => decide
      (round.before.1.store.elements ⟨0⟩ <+: round.after.1.store.elements ⟨0⟩)) = some true := by
    decide +kernel
  have hlast : growingTrace.map (fun a => a.2.2.2.dry.map fun s => s.1.store.elements ⟨0⟩) =
      some (some [.int 2, .int 0, .list ⟨1⟩]) := by decide +kernel
  have hgrowing : growingTrace = some (.ok .completed, loop, s', ⟨visited, some last⟩) := htrace
  simp only [hgrowing, Option.map_some, Option.some.injEq, List.all_eq_true,
    decide_eq_true_eq] at hadds hlast
  exact ⟨loop, s', visited, last, hrun, htrace, hadds, (hvisits hadds).1, hlast⟩

end Growing

end Loop

end SharedValues
