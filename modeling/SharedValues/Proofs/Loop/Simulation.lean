import SharedValues.Loop

/-!
# Two runs of a loop

Two loops that draw the same elements and get the same answers from their bodies and else clauses
run abreast, whatever else their states hold. The states are related from the start, every draw,
round and else clause keeps them related, and so does the whole run (`run_kept`). The two runs may
have states of different types, as a run that also notes what it does.
-/

namespace SharedValues

/-- Two results that are the same up to states in a relation. -/
inductive Kept {β σ τ : Type} (S : σ → τ → Prop) : β × σ → β × τ → Prop where
  | intro (b : β) {s : σ} {s' : τ} (hs : S s s') : Kept S (b, s) (b, s')

theorem Kept.map {β γ σ τ : Type} {S : σ → τ → Prop} {r : β × σ} {r' : β × τ} (hr : Kept S r r')
    (f : β → γ) : Kept S (f r.1, r.2) (f r'.1, r'.2) := by
  obtain ⟨b, hs⟩ := hr
  exact .intro (f b) hs

/-- Two runs that both have used up their draws, or that both have a result. -/
inductive KeptOption {β σ τ : Type} (S : σ → τ → Prop) :
    Option (β × σ) → Option (β × τ) → Prop where
  | none : KeptOption S none none
  | some {r : β × σ} {r' : β × τ} (hr : Kept S r r') : KeptOption S (some r) (some r')

namespace Loop

variable {σ τ ε ι α : Type} {S : σ → τ → Prop} {draw : ι → σ → Option α × ι × σ}
  {draw' : ι → τ → Option α × ι × τ} {body : α → σ → Except ε Control × σ}
  {body' : α → τ → Except ε Control × τ} {otherwise : σ → Except ε Unit × σ}
  {otherwise' : τ → Except ε Unit × τ}

theorem rounds_kept
    (hdraw : ∀ source {s s'}, S s s' → Kept (Kept S) (draw source s) (draw' source s'))
    (hbody : ∀ a {s s'}, S s s' → Kept S (body a s) (body' a s')) (draws : Nat) (source : ι)
    {s : σ} {s' : τ} (hs : S s s') :
    KeptOption (Kept S) (rounds draw body draws source s)
      (rounds draw' body' draws source s') := by
  induction draws generalizing source s s' with
  | zero => exact .none
  | succ draws ih =>
    simp only [rounds]
    have hd := hdraw source hs
    generalize draw source s = d, draw' source s' = d' at hd
    obtain ⟨a, ⟨source, ht⟩⟩ := hd
    cases a with
    | none => exact .some (.intro _ (.intro _ ht))
    | some a =>
      dsimp only
      have hb := hbody a ht
      generalize body a _ = b, body' a _ = b' at hb
      obtain ⟨answer, hu⟩ := hb
      rcases answer with fault | _ | _
      · exact .some (.intro _ (.intro _ hu))
      · exact ih source hu
      · exact .some (.intro _ (.intro _ hu))

theorem finish_kept (hotherwise : ∀ {s s'}, S s s' → Kept S (otherwise s) (otherwise' s'))
    (loop : Loop ι) {s : σ} {s' : τ} (hs : S s s') :
    Kept (Kept S) (finish otherwise loop s) (finish otherwise' loop s') := by
  unfold finish
  split
  · have ho := hotherwise hs
    generalize otherwise s = o, otherwise' s' = o' at ho
    obtain ⟨answer, ht⟩ := ho
    rcases answer with fault | _
    · exact .intro _ (.intro _ ht)
    · exact .intro _ (.intro _ ht)
  · exact .intro _ (.intro _ hs)

theorem run_kept
    (hdraw : ∀ source {s s'}, S s s' → Kept (Kept S) (draw source s) (draw' source s'))
    (hbody : ∀ a {s s'}, S s s' → Kept S (body a s) (body' a s'))
    (hotherwise : ∀ {s s'}, S s s' → Kept S (otherwise s) (otherwise' s')) (draws : Nat)
    (loop : Loop ι) {s : σ} {s' : τ} (hs : S s s') :
    KeptOption (Kept S) (run draw body otherwise draws loop s)
      (run draw' body' otherwise' draws loop s') := by
  unfold run
  split
  · have hr := rounds_kept hdraw hbody draws loop.source hs
    generalize rounds draw body draws loop.source s = r,
      rounds draw' body' draws loop.source s' = r' at hr
    cases hr with
    | none => exact .none
    | some hr =>
      obtain ⟨ending, ⟨source, ht⟩⟩ := hr
      cases ending with
      | dry => exact .some (finish_kept hotherwise _ ht)
      | left => exact .some (.intro _ (.intro _ ht))
      | failed fault => exact .some (.intro _ (.intro _ ht))
  · exact .some (finish_kept hotherwise loop hs)

/-- A state, and the same state with notes beside it. -/
def Noted {ν : Type} (t : σ × ν) (s : σ) : Prop := t.1 = s

/-- What draws, rounds and else clauses note beside the state does not change a run. -/
theorem run_erase {ν : Type} {draw : ι → σ → Option α × ι × σ}
    {body : α → σ → Except ε Control × σ} {otherwise : σ → Except ε Unit × σ}
    {draw' : ι → σ × ν → Option α × ι × σ × ν} {body' : α → σ × ν → Except ε Control × σ × ν}
    {otherwise' : σ × ν → Except ε Unit × σ × ν}
    (hdraw : ∀ source t, Kept (Kept Noted) (draw' source t) (draw source t.1))
    (hbody : ∀ a t, Kept Noted (body' a t) (body a t.1))
    (hotherwise : ∀ t, Kept Noted (otherwise' t) (otherwise t.1)) (draws : Nat) (loop : Loop ι)
    (t : σ × ν) :
    (run draw' body' otherwise' draws loop t).map (fun r => (r.1, r.2.1, r.2.2.1)) =
      run draw body otherwise draws loop t.1 := by
  have hr := run_kept (fun source t s (hs : Noted t s) => hs ▸ hdraw source t)
    (fun a t s hs => hs ▸ hbody a t) (fun {t s} hs => hs ▸ hotherwise t) draws loop
    (rfl : Noted t t.1)
  generalize run draw' body' otherwise' draws loop t = r,
    run draw body otherwise draws loop t.1 = r' at hr
  cases hr with
  | none => rfl
  | some hr =>
    obtain ⟨result, ⟨loop, hs⟩⟩ := hr
    rw [← hs]
    rfl

end Loop

end SharedValues
