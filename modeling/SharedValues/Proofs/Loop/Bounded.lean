import SharedValues.Proofs.Loop.Live

/-!
# Loops end unless their list grows without bound

`beforeDraw? k` is where a loop stands when it makes the draw that follows `k` rounds. It speaks of
loops that never end as well: a run has used up its draws exactly if the loop still stands before a
draw (`rounds_eq_none_iff`).

Each round moves the cursor of a loop over a list by one, whatever its body does to the list. So the
cursor stands at index `k` before the draw that follows `k` rounds, and there is another round only
if the list is longer than `k` at that moment. The length may go up and down between the rounds, and
so may what is left of the list. The position only goes up, and it stays below the greatest length
that a draw meets.
-/

namespace SharedValues.Loop

variable {σ ε ι α : Type}

/-! ### Where a loop stands before a draw -/

/-- The source and the state before the draw that follows `k` rounds, if the loop comes so far. -/
def beforeDraw? (draw : ι → σ → Option α × ι × σ) (body : α → σ → Except ε Control × σ) :
    Nat → ι → σ → Option (ι × σ)
  | 0, source, s => some (source, s)
  | k + 1, source, s =>
    match draw source s with
    | (none, _, _) => none
    | (some a, source, s) =>
      match body a s with
      | (.ok .proceed, s) => beforeDraw? draw body k source s
      | (.ok .leave, _) => none
      | (.error _, _) => none

section Standing

variable {draw : ι → σ → Option α × ι × σ} {body : α → σ → Except ε Control × σ}

theorem beforeDraw?_add (k m : Nat) (source : ι) (s : σ) :
    beforeDraw? draw body (k + m) source s =
      (beforeDraw? draw body k source s).bind fun p => beforeDraw? draw body m p.1 p.2 := by
  induction k generalizing source s with
  | zero => rw [Nat.zero_add, beforeDraw?, Option.bind_some]
  | succ k ih =>
    rw [Nat.succ_add, beforeDraw?, beforeDraw?]
    rcases draw source s with ⟨_ | a, source, s⟩
    · rfl
    · dsimp only
      rcases body a s with ⟨fault | _ | _, s⟩
      · rfl
      · exact ih source s
      · rfl

theorem rounds_eq_none_iff {draws : Nat} {source : ι} {s : σ} :
    rounds draw body draws source s = none ↔ (beforeDraw? draw body draws source s).isSome := by
  induction draws generalizing source s with
  | zero => simp [rounds, beforeDraw?]
  | succ draws ih =>
    rw [rounds, beforeDraw?]
    rcases draw source s with ⟨_ | a, source, s⟩
    · simp
    · dsimp only
      rcases body a s with ⟨fault | _ | _, s⟩
      · simp
      · exact ih
      · simp

/-- Rounds begin one after the other at the draws of a loop, each with the element that its draw has
given. -/
def BeginAtDraws (draw : ι → σ → Option α × ι × σ) (body : α → σ → Except ε Control × σ)
    (source : ι) (s : σ) (visited : List (Round σ α)) : Prop :=
  ∀ k round, visited[k]? = some round → ∃ p, beforeDraw? draw body k source s = some p ∧
    ∃ source', draw p.1 p.2 = (some round.element, source', round.before)

theorem beginAtDraws_nil (source : ι) (s : σ) : BeginAtDraws draw body source s [] := by
  simp [BeginAtDraws]

theorem BeginAtDraws.cons {source source₁ : ι} {s s₁ s₂ : σ} {a : α} {rest : List (Round σ α)}
    (hrest : BeginAtDraws draw body source₁ s₂ rest) (hd : draw source s = (some a, source₁, s₁))
    (hb : rest ≠ [] → body a s₁ = (.ok .proceed, s₂)) :
    BeginAtDraws draw body source s (⟨a, s₁, s₂⟩ :: rest) := by
  intro k round hk
  cases k with
  | zero =>
    cases hk
    exact ⟨(source, s), rfl, source₁, hd⟩
  | succ k =>
    have hproceeds := hb (List.ne_nil_of_mem (List.mem_of_getElem? hk))
    rw [beforeDraw?, hd]
    dsimp only
    rw [hproceeds]
    exact hrest k round hk

theorem rounds_beginAtDraws {draws : Nat} {source source' : ι} {s s' : σ} {t t' : Trace σ α}
    {exit : Exit ε}
    (hr : rounds (traceDraw draw) (traceRound body) draws source (s, t) =
      some (exit, source', s', t')) :
    ∃ visited, t'.rounds = t.rounds ++ visited ∧ BeginAtDraws draw body source s visited := by
  induction draws generalizing source s t with
  | zero => simp [rounds] at hr
  | succ draws ih =>
    rcases hd : draw source s with ⟨_ | a, source₁, s₁⟩
    · simp only [rounds, traceDraw, hd, Option.some.injEq, Prod.mk.injEq] at hr
      obtain ⟨-, -, -, rfl⟩ := hr
      exact ⟨[], (List.append_nil _).symm, beginAtDraws_nil _ _⟩
    · -- The round of this draw is the first; only if its body goes on are there others.
      rcases hb : body a s₁ with ⟨fault | _ | _, s₂⟩
      · simp only [rounds, traceDraw, traceRound, hd, hb, Option.some.injEq, Prod.mk.injEq] at hr
        obtain ⟨-, -, -, rfl⟩ := hr
        exact ⟨_, rfl, (beginAtDraws_nil source₁ s₂).cons hd (absurd rfl)⟩
      · simp only [rounds, traceDraw, traceRound, hd, hb] at hr
        obtain ⟨visited, hrounds, hbegin⟩ := ih hr
        refine ⟨⟨a, s₁, s₂⟩ :: visited, ?_, hbegin.cons hd fun _ => hb⟩
        rw [hrounds, List.append_assoc, List.singleton_append]
      · simp only [rounds, traceDraw, traceRound, hd, hb, Option.some.injEq, Prod.mk.injEq] at hr
        obtain ⟨-, -, -, rfl⟩ := hr
        exact ⟨_, rfl, (beginAtDraws_nil source₁ s₂).cons hd (absurd rfl)⟩

/-- A new loop that has been traced to its end is done, and has kept the source with which its rounds
ended. The else clause adds nothing to the trace. -/
theorem exists_rounds_of_trace {otherwise : σ → Except ε Unit × σ} {draws : Nat} {source : ι}
    {s s' : σ} {result : Except ε Outcome} {loop : Loop ι} {t : Trace σ α}
    (ht : trace draw body otherwise draws (start source) s = some (result, loop, s', t)) :
    loop.stage = .done ∧ ∃ exit s₁,
      rounds (traceDraw draw) (traceRound body) draws source (s, ⟨[], none⟩) =
        some (exit, loop.source, s₁, t) := by
  simp only [trace, run, start] at ht
  rcases hr : rounds (traceDraw draw) (traceRound body) draws source (s, ⟨[], none⟩) with
    _ | ⟨_ | _ | fault, source', s₁, t₁⟩
  · simp [hr] at ht
  · simp only [hr, finish, traceElse] at ht
    rcases ho : otherwise s₁ with ⟨fault | _, s₂⟩
    · simp only [ho] at ht
      cases ht
      exact ⟨rfl, _, _, rfl⟩
    · simp only [ho] at ht
      cases ht
      exact ⟨rfl, _, _, rfl⟩
  · simp only [hr] at ht
    cases ht
    exact ⟨rfl, _, _, rfl⟩
  · simp only [hr] at ht
    cases ht
    exact ⟨rfl, _, _, rfl⟩

theorem run_eq_none_iff {otherwise : σ → Except ε Unit × σ} {draws : Nat} {source : ι} {s : σ} :
    (start source).run draw body otherwise draws s = none ↔
      rounds draw body draws source s = none := by
  simp only [run, start]
  rcases rounds draw body draws source s with _ | ⟨_ | _ | _, _, _⟩ <;> simp

end Standing

/-! ### Loops over a list -/

section Lists

variable {store : σ → Store} {source : Cursor → ι} {draw : ι → σ → Option Value × ι × σ}
  {body : Value → σ → Except ε Control × σ}

theorem draw_of_getElem? (hdraw : Cursor.DrawnBy store source draw) {r : ListRef} {p : Nat} {s : σ}
    {x : Value} (hx : ((store s).elements r)[p]? = some x) :
    draw (source ⟨r, p⟩) s = (some x, source ⟨r, p + 1⟩, s) := by
  rw [hdraw, Cursor.next_of_lt hx]

theorem draw_of_length_le (hdraw : Cursor.DrawnBy store source draw) {r : ListRef} {p : Nat} {s : σ}
    (hp : (store s).length r ≤ p) : draw (source ⟨r, p⟩) s = (none, source ⟨r, p⟩, s) := by
  rw [hdraw, Cursor.next_of_ge hp]

/-- What a draw has given stands in the list under the cursor. -/
theorem getElem?_of_draw (hdraw : Cursor.DrawnBy store source draw) {r : ListRef} {p : Nat}
    {s s₁ : σ} {x : Value} {source₁ : ι} (hd : draw (source ⟨r, p⟩) s = (some x, source₁, s₁)) :
    ((store s).elements r)[p]? = some x ∧ source₁ = source ⟨r, p + 1⟩ ∧ s₁ = s := by
  cases hx : ((store s).elements r)[p]? with
  | none =>
    rw [draw_of_length_le hdraw (List.getElem?_eq_none_iff.1 hx)] at hd
    cases hd
  | some y =>
    rw [draw_of_getElem? hdraw hx] at hd
    cases hd
    exact ⟨rfl, rfl, rfl⟩

theorem source_of_beforeDraw?_from (hdraw : Cursor.DrawnBy store source draw) {r : ListRef}
    {p k : Nat} {s s' : σ} {source' : ι}
    (hk : beforeDraw? draw body k (source ⟨r, p⟩) s = some (source', s')) :
    source' = source ⟨r, p + k⟩ := by
  induction k generalizing p s with
  | zero =>
    cases hk
    rfl
  | succ k ih =>
    rw [beforeDraw?] at hk
    rcases hd : draw (source ⟨r, p⟩) s with ⟨_ | x, source₁, s₁⟩
    · simp [hd] at hk
    · obtain ⟨-, rfl, rfl⟩ := getElem?_of_draw hdraw hd
      rw [hd] at hk
      dsimp only at hk
      rcases hb : body x s₁ with ⟨fault | _ | _, s₂⟩
      · simp [hb] at hk
      · rw [hb] at hk
        rw [ih hk, Nat.add_right_comm, Nat.add_assoc]
      · simp [hb] at hk

theorem source_of_beforeDraw? (hdraw : Cursor.DrawnBy store source draw) {r : ListRef} {k : Nat}
    {s s' : σ} {source' : ι}
    (hk : beforeDraw? draw body k (source ⟨r, 0⟩) s = some (source', s')) :
    source' = source ⟨r, k⟩ := by
  rw [source_of_beforeDraw?_from hdraw hk, Nat.zero_add]

/-- A loop that comes to one more draw has met a list with an element under the cursor. -/
theorem exists_lt_length_of_beforeDraw? (hdraw : Cursor.DrawnBy store source draw) {r : ListRef}
    {k : Nat} {s : σ} (hk : (beforeDraw? draw body (k + 1) (source ⟨r, 0⟩) s).isSome) :
    ∃ s', beforeDraw? draw body k (source ⟨r, 0⟩) s = some (source ⟨r, k⟩, s') ∧
      k < (store s').length r := by
  rw [beforeDraw?_add] at hk
  cases hbefore : beforeDraw? draw body k (source ⟨r, 0⟩) s with
  | none => simp [hbefore] at hk
  | some p =>
    obtain ⟨source', s'⟩ := p
    obtain rfl := source_of_beforeDraw? hdraw hbefore
    refine ⟨s', rfl, Nat.lt_of_not_le fun hlength => ?_⟩
    simp [hbefore, beforeDraw?, draw_of_length_le hdraw hlength] at hk

/-- Whenever the loop draws, the list has at most this many elements. -/
def DrawsWithin (store : σ → Store) (draw : ι → σ → Option Value × ι × σ)
    (body : Value → σ → Except ε Control × σ) (r : ListRef) (source : ι) (s : σ) (bound : Nat) :
    Prop :=
  ∀ k source' s', beforeDraw? draw body k source s = some (source', s') →
    (store s').length r ≤ bound

theorem DrawsWithin.run_ne_none (hdraw : Cursor.DrawnBy store source draw) {r : ListRef} {s : σ}
    {bound draws : Nat} (hbound : DrawsWithin store draw body r (source ⟨r, 0⟩) s bound)
    (hdraws : bound < draws) (otherwise : σ → Except ε Unit × σ) :
    (start (source ⟨r, 0⟩)).run draw body otherwise draws s ≠ none := by
  obtain ⟨k, rfl⟩ := Nat.exists_eq_add_of_lt hdraws
  rw [Ne, run_eq_none_iff, rounds_eq_none_iff]
  intro hmore
  obtain ⟨s', hbefore, hlt⟩ := exists_lt_length_of_beforeDraw? hdraw hmore
  have hle := hbound _ _ _ hbefore
  omega

/-- The rounds of a loop over a list get its elements index by index. -/
theorem BeginAtDraws.getElem? (hdraw : Cursor.DrawnBy store source draw) {r : ListRef} {s : σ}
    {visited : List (Round σ Value)}
    (hbegin : BeginAtDraws draw body (source ⟨r, 0⟩) s visited) {k : Nat} {round : Round σ Value}
    (hk : visited[k]? = some round) :
    beforeDraw? draw body k (source ⟨r, 0⟩) s = some (source ⟨r, k⟩, round.before) ∧
      ((store round.before).elements r)[k]? = some round.element := by
  obtain ⟨⟨source', s'⟩, hbefore, source₁, hd⟩ := hbegin k round hk
  obtain rfl := source_of_beforeDraw? hdraw hbefore
  obtain ⟨hx, -, hs⟩ := getElem?_of_draw hdraw hd
  rw [hs]
  exact ⟨hbefore, hx⟩

theorem DrawsWithin.length_le (hdraw : Cursor.DrawnBy store source draw) {r : ListRef} {s : σ}
    {bound : Nat} (hbound : DrawsWithin store draw body r (source ⟨r, 0⟩) s bound)
    {visited : List (Round σ Value)}
    (hbegin : BeginAtDraws draw body (source ⟨r, 0⟩) s visited) : visited.length ≤ bound := by
  -- A round beyond the bound would begin with an element at the index `bound`.
  refine Nat.le_of_not_lt fun hlt => ?_
  obtain ⟨hbefore, hx⟩ := hbegin.getElem? hdraw (List.getElem?_eq_getElem hlt)
  obtain ⟨hlonger, -⟩ := List.getElem?_eq_some_iff.1 hx
  exact Nat.not_le_of_lt hlonger (hbound _ _ _ hbefore)

/-- Any loop over a list, whatever its body does to the list. Before the draw that follows `k` rounds
the cursor stands at index `k`, and the next round gets the element that the list has there at that
moment. If the list has at most `bound` elements whenever the loop draws, the loop ends, after at
most `bound` rounds and with one more draw at most, and its cursor has come as far as there were
rounds. So a loop that does not end meets longer and longer lists. -/
theorem live_rounds_bounded (hdraw : Cursor.DrawnBy store source draw) {r : ListRef} {c : Cursor}
    (hc : Method.iterate (.list r) = .ok c) (body : Value → σ → Except ε Control × σ)
    (otherwise : σ → Except ε Unit × σ) (s : σ) :
    (∀ k source' s', beforeDraw? draw body k (source c) s = some (source', s') →
      source' = source ⟨r, k⟩ ∧ ∀ x source₁ s₁, draw source' s' = (some x, source₁, s₁) →
        ((store s').elements r)[k]? = some x ∧ source₁ = source ⟨r, k + 1⟩ ∧ s₁ = s') ∧
    (∀ bound, DrawsWithin store draw body r (source c) s bound → ∀ draws, bound < draws →
      ∃ result loop s' visited dry,
        (start (source c)).run draw body otherwise draws s = some (result, loop, s') ∧
        trace draw body otherwise draws (start (source c)) s =
          some (result, loop, s', ⟨visited, dry⟩) ∧
        visited.length ≤ bound ∧ loop.stage = .done ∧ loop.source = source ⟨r, visited.length⟩ ∧
        ∀ k round, visited[k]? = some round →
          beforeDraw? draw body k (source c) s = some (source ⟨r, k⟩, round.before) ∧
            ((store round.before).elements r)[k]? = some round.element) ∧
    ((∀ draws, (start (source c)).run draw body otherwise draws s = none) →
      ∀ bound, ¬ DrawsWithin store draw body r (source c) s bound) := by
  obtain rfl : c = ⟨r, 0⟩ := by
    cases hc
    rfl
  refine ⟨fun k source' s' hbefore => ?_, fun bound hbound draws hdraws => ?_,
    fun hforever bound hbound =>
      hbound.run_ne_none hdraw (Nat.lt_succ_self bound) otherwise (hforever _)⟩
  · obtain rfl := source_of_beforeDraw? hdraw hbefore
    exact ⟨rfl, fun x source₁ s₁ => getElem?_of_draw hdraw⟩
  · have hends := hbound.run_ne_none hdraw hdraws otherwise
    rw [← trace_erase, Ne, Option.map_eq_none_iff] at hends
    obtain ⟨⟨result, loop, s', visited, dry⟩, htrace⟩ := Option.ne_none_iff_exists'.1 hends
    obtain ⟨hdone, exit, last, hrounds⟩ := exists_rounds_of_trace htrace
    obtain ⟨_, hvisited, hbegin⟩ := rounds_beginAtDraws hrounds
    obtain ⟨_, hwalked, -, hsource, -⟩ := rounds_walks hdraw hrounds
    rw [List.nil_append] at hvisited hwalked
    subst hvisited
    rw [← hwalked, Nat.zero_add] at hsource
    refine ⟨result, loop, s', visited, dry, ?_, htrace, hbound.length_le hdraw hbegin, hdone,
      hsource, fun k round hk => hbegin.getElem? hdraw hk⟩
    rw [← trace_erase, htrace, Option.map_some]

end Lists

section Wavering

open Script

/-- Takes an element from the end of `a` and adds two new lists if the element is truthy, and clears
`a` otherwise. -/
def waveringBody : Block :=
  Step.runAll 0 [.branch (.var "x") none
    [.act (.method (.var "a") (.pop none) none), .act (.method (.var "a") (.append (.list [])) none),
      .act (.method (.var "a") (.append (.list [])) none)]
    [.act (.method (.var "a") .clear none)]]

/-- Where the loop of this body over `a` stands before a draw. -/
def waveringBefore? (k : Nat) : Option (Source × Machine × Log) :=
  beforeDraw? drawElement (runRound "x" waveringBody) k (.cursor (Cursor.start ⟨0⟩))
    (growing, ⟨[], none⟩)

theorem wavering_drawsWithin :
    DrawsWithin (fun s : Machine × Log => s.1.store) drawElement (runRound "x" waveringBody) ⟨0⟩
      (.cursor (Cursor.start ⟨0⟩)) (growing, ⟨[], none⟩) 3 := by
  have hfew : ∀ k < 3, (waveringBefore? k).all fun p => decide (p.2.1.store.length ⟨0⟩ ≤ 3) := by
    decide +kernel
  have hend : (waveringBefore? 3).isNone := by decide +kernel
  intro k source' s' hk
  rcases Nat.lt_or_ge k 3 with hlt | hge
  · have hk : waveringBefore? k = some (source', s') := hk
    simpa [hk] using hfew k hlt
  · obtain ⟨m, rfl⟩ := Nat.exists_eq_add_of_le hge
    have hend : beforeDraw? drawElement (runRound "x" waveringBody) 3 (.cursor (Cursor.start ⟨0⟩))
        (growing, ⟨[], none⟩) = none := Option.isNone_iff_eq_none.1 hend
    rw [beforeDraw?_add, hend] at hk
    cases hk

/-- The list has two, three and no elements at the three draws of this loop. -/
theorem live_rounds_bounded_wavering :
    [0, 1, 2, 3].map (fun k => (waveringBefore? k).map fun p => p.2.1.store.length ⟨0⟩) =
        [some 2, some 3, some 0, none] ∧
      ∃ result loop s' visited dry,
        trace drawElement (runRound "x" waveringBody) (runOtherwise (Step.runAll 0 [])) 4
            (start (.cursor (Cursor.start ⟨0⟩))) (growing, ⟨[], none⟩) =
          some (result, loop, s', ⟨visited, dry⟩) ∧
        visited.length ≤ 3 ∧ loop.stage = .done ∧
        loop.source = .cursor ⟨⟨0⟩, visited.length⟩ := by
  obtain ⟨-, hbounded, -⟩ := live_rounds_bounded drawnBy_drawElement rfl
    (runRound "x" waveringBody) (runOtherwise (Step.runAll 0 [])) (growing, ⟨[], none⟩)
  obtain ⟨result, loop, s', visited, dry, -, htrace, hlength, hdone, hsource, -⟩ :=
    hbounded 3 wavering_drawsWithin 4 (by decide)
  exact ⟨by decide +kernel, result, loop, s', visited, dry, htrace, hlength, hdone, hsource⟩

end Wavering

end SharedValues.Loop
