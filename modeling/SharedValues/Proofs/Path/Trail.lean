import Mathlib.Data.List.Perm.Subperm

/-!
# Walks over one path that is changed in place

A walk that goes into lists can keep a single path: it adds an entry when it goes in, and takes the
newest entry off when it comes out. `Walk` is such a computation. It may go only so many calls deep
and gives up if it has to go deeper. Its `Trail` holds the path and remembers every content that the
path ever had, and for every call that has returned the path at its beginning and at its end.

`Settles all path walk x` says what a walk does that is started on `path`: it returns `x` and leaves
the path as it was, while nothing stood on the path twice or came from outside of `all`, and no
call inside of it left the path changed. There is one rule for each way to build a walk.
-/

namespace SharedValues

/-- A path with a record of what became of it. -/
structure Trail (α : Type) where
  /-- The entries of the path, the newest first. -/
  active : List α
  /-- Every content of the path so far. -/
  moments : List (List α)
  /-- The path at the beginning and at the end of every call that has returned. -/
  calls : List (List α × List α)

/-- The trail of a walk that has not begun. -/
def Trail.start {α : Type} : Trail α := ⟨[], [[]], []⟩

/-- A computation on a trail, which may give up. -/
abbrev Walk (α β : Type) := StateT (Trail α) Option β

namespace Walk

variable {α β γ : Type}

/-- Gives up. -/
def tooDeep : Walk α β := fun _ => none

/-- Changes the path. -/
def changePath (f : List α → List α) : Walk α Unit :=
  modify fun t => { t with active := f t.active, moments := f t.active :: t.moments }

/-- Does the work of `body` with one more entry on the path. -/
def inside (a : α) (body : Walk α β) : Walk α β := do
  changePath fun path => a :: path
  let x ← body
  changePath List.tail
  return x

/-- Makes `body` a call of its own: the path is noted when it begins and when it returns. -/
def call (body : Walk α β) : Walk α β := do
  let entry ← get
  let x ← body
  modify fun t => { t with calls := (entry.active, t.active) :: t.calls }
  return x

/-- Looks for the first item that does not pass `test` and answers with what `found` makes of it,
or with `otherwise` if all pass. -/
def firstFailing (test : γ → Walk α Bool) (found : γ → Walk α β) (otherwise : β) :
    List γ → Walk α β
  | [] => pure otherwise
  | c :: rest => do
    if ← test c then firstFailing test found otherwise rest
    else found c

end Walk

/-! ### What is kept on a trail -/

/-- Nothing stands on the path twice, or comes from outside of `all`. -/
def Fits {α : Type} (all path : List α) : Prop := path.Nodup ∧ path ⊆ all

theorem fits_nil {α : Type} (all : List α) : Fits all [] :=
  ⟨List.nodup_nil, List.nil_subset all⟩

theorem Fits.cons {α : Type} {all path : List α} {a : α} (hpath : Fits all path) (ha : a ∈ all)
    (hnew : a ∉ path) : Fits all (a :: path) :=
  ⟨List.nodup_cons.2 ⟨hnew, hpath.1⟩, List.cons_subset.2 ⟨ha, hpath.2⟩⟩

theorem Fits.length_le {α : Type} {all path : List α} (hpath : Fits all path) :
    path.length ≤ all.length :=
  (List.subperm_of_subset hpath.1 hpath.2).length_le

/-- The path fitted at every moment, and every call that has returned left it as it was. -/
structure Trail.Sound {α : Type} (all : List α) (t : Trail α) : Prop where
  fits : ∀ m ∈ t.moments, Fits all m
  restored : ∀ c ∈ t.calls, c.2 = c.1

theorem Trail.sound_start {α : Type} (all : List α) : (Trail.start : Trail α).Sound all := by
  constructor
  · intro m hm
    rw [start, List.mem_singleton] at hm
    exact hm ▸ fits_nil all
  · intro c hc
    simp [start] at hc

/-- Started on `path`, the walk returns `x` with the path as it was and a sound trail. -/
def Settles {α β : Type} (all path : List α) (walk : Walk α β) (x : β) : Prop :=
  ∀ t : Trail α, t.active = path → t.Sound all →
    ∃ t' : Trail α, walk.run t = some (x, t') ∧ t'.active = path ∧ t'.Sound all

namespace Settles

variable {α β γ : Type} {all path : List α}

theorem pure (x : β) : Settles all path (Pure.pure x) x := by
  intro t ht hs
  exact ⟨t, rfl, ht, hs⟩

theorem bind {walk : Walk α β} {x : β} {next : β → Walk α γ} {y : γ}
    (hwalk : Settles all path walk x) (hnext : Settles all path (next x) y) :
    Settles all path (walk >>= next) y := by
  intro t ht hs
  obtain ⟨t₁, hrun₁, ht₁, hs₁⟩ := hwalk t ht hs
  obtain ⟨t₂, hrun₂, ht₂, hs₂⟩ := hnext t₁ ht₁ hs₁
  refine ⟨t₂, ?_, ht₂, hs₂⟩
  rw [StateT.run_bind, hrun₁]
  exact hrun₂

/-- A walk may look at its path, which is known. -/
theorem get_bind {next : Trail α → Walk α β} {x : β}
    (hnext : ∀ t : Trail α, t.active = path → Settles all path (next t) x) :
    Settles all path (get >>= next) x := by
  intro t ht hs
  obtain ⟨t', hrun, ht', hs'⟩ := hnext t ht t ht hs
  exact ⟨t', hrun, ht', hs'⟩

theorem inside {a : α} {body : Walk α β} {x : β} (hpath : Fits all path)
    (hgrown : Fits all (a :: path)) (hbody : Settles all (a :: path) body x) :
    Settles all path (Walk.inside a body) x := by
  intro t ht hs
  subst ht
  have hpushed : Trail.Sound all ⟨a :: t.active, (a :: t.active) :: t.moments, t.calls⟩ :=
    ⟨List.forall_mem_cons.2 ⟨hgrown, hs.fits⟩, hs.restored⟩
  obtain ⟨t', hrun, ht', hs'⟩ := hbody ⟨a :: t.active, (a :: t.active) :: t.moments, t.calls⟩
    rfl hpushed
  -- The body has left its entry on top, so taking one entry off gives the old path back.
  have htail : t'.active.tail = t.active := by rw [ht', List.tail_cons]
  refine ⟨⟨t'.active.tail, t'.active.tail :: t'.moments, t'.calls⟩, ?_, htail, ?_⟩
  · simp only [Walk.inside, Walk.changePath, StateT.run_bind, StateT.run_modify,
      Option.pure_def, Option.bind_eq_bind, Option.bind_some, hrun, StateT.run_pure]
  · refine ⟨List.forall_mem_cons.2 ⟨?_, hs'.fits⟩, hs'.restored⟩
    rw [htail]
    exact hpath

theorem call {body : Walk α β} {x : β} (hbody : Settles all path body x) :
    Settles all path (Walk.call body) x := by
  intro t ht hs
  obtain ⟨t', hrun, ht', hs'⟩ := hbody t ht hs
  refine ⟨⟨t'.active, t'.moments, (t.active, t'.active) :: t'.calls⟩, ?_, ht', hs'.fits, ?_⟩
  · simp only [Walk.call, StateT.run_bind, StateT.run_get, StateT.run_modify, Option.pure_def,
      Option.bind_eq_bind, Option.bind_some, hrun, StateT.run_pure]
  · exact List.forall_mem_cons.2 ⟨ht'.trans ht.symm, hs'.restored⟩

theorem mapM {walk : γ → Walk α β} {f : γ → β} {items : List γ}
    (hwalk : ∀ c ∈ items, Settles all path (walk c) (f c)) :
    Settles all path (items.mapM walk) (items.map f) := by
  induction items with
  | nil => exact pure []
  | cons c rest ih =>
    obtain ⟨hc, hrest⟩ := List.forall_mem_cons.1 hwalk
    rw [List.mapM_cons]
    exact hc.bind ((ih hrest).bind (pure _))

theorem allM {test : γ → Walk α Bool} {p : γ → Bool} {items : List γ}
    (htest : ∀ c ∈ items, Settles all path (test c) (p c)) :
    Settles all path (items.allM test) (items.all p) := by
  induction items with
  | nil => exact pure true
  | cons c rest ih =>
    obtain ⟨hc, hrest⟩ := List.forall_mem_cons.1 htest
    refine hc.bind ?_
    cases hp : p c with
    | true => simpa [hp] using ih hrest
    | false => simpa [hp] using pure false

theorem firstFailing {test : γ → Walk α Bool} {p : γ → Bool} {found : γ → Walk α β} {f : γ → β}
    (otherwise : β) {items : List γ} (htest : ∀ c ∈ items, Settles all path (test c) (p c))
    (hfound : ∀ c ∈ items, Settles all path (found c) (f c)) :
    Settles all path (Walk.firstFailing test found otherwise items)
      (match items.find? fun c => !p c with
      | some c => f c
      | none => otherwise) := by
  induction items with
  | nil => exact pure otherwise
  | cons c rest ih =>
    obtain ⟨hc, hrest⟩ := List.forall_mem_cons.1 htest
    obtain ⟨hfc, hfrest⟩ := List.forall_mem_cons.1 hfound
    refine hc.bind ?_
    cases hp : p c with
    | true => simpa [hp] using ih hrest hfrest
    | false => simpa [hp] using hfc

end Settles

/-- Started on an empty path, the walk returns `x`. At every moment the path holds no entry twice
and at most `bound` entries, and every call down to the innermost leaves it as it found it. -/
def Returns {α β : Type} (bound : Nat) (walk : Walk α β) (x : β) : Prop :=
  ∃ t : Trail α, walk.run Trail.start = some (x, t) ∧ t.active = [] ∧
    (∀ m ∈ t.moments, m.Nodup ∧ m.length ≤ bound) ∧ ∀ c ∈ t.calls, c.2 = c.1

theorem Settles.returns {α β : Type} {all : List α} {walk : Walk α β} {x : β}
    (hwalk : Settles all [] walk x) : Returns all.length walk x := by
  obtain ⟨t, hrun, ht, hs⟩ := hwalk Trail.start rfl (Trail.sound_start all)
  refine ⟨t, hrun, ht, ?_, hs.restored⟩
  intro m hm
  have hfits := hs.fits m hm
  exact ⟨hfits.1, hfits.length_le⟩

end SharedValues
