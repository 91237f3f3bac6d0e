import SharedValues.Method

/-!
# List operations in place

The operations on lists once more, as computations on one store that is changed as they go. Such a
computation can fail after it has changed something, and what it changed then stays changed. Each
operation here looks at the elements, makes checks that may fail, and then makes at most one change.

`Runs x p` says that the computation `x` never fails half way: it answers what `p` answers, and
where `p` fails and leaves no store behind, `x` leaves the store as it found it. A computation runs
so if it only reads before its one change (`Runs.bind`).
-/

namespace SharedValues

/-- A computation on one store, which may fail at any moment with the store as it is then. -/
abbrev InPlace (β : Type) := ExceptT Fault (StateM Store) β

namespace InPlace

variable {β γ : Type}

/-- The answer of a computation and the store after it. -/
def outcome (x : InPlace β) (h : Store) : Except Fault β × Store := x.run.run h

theorem outcome_bind (x : InPlace β) (f : β → InPlace γ) (h : Store) :
    (x >>= f).outcome h =
      match x.outcome h with
      | (.ok b, h) => (f b).outcome h
      | (.error fault, h) => (.error fault, h) := by
  simp only [outcome, ExceptT.run_bind, StateT.run_bind]
  rcases x.run.run h with ⟨fault | b, h⟩ <;> rfl

/-- The answer and the store after an operation that leaves no store behind when it fails. -/
def settle (h : Store) : Except Fault (β × Store) → Except Fault β × Store
  | .ok (b, h) => (.ok b, h)
  | .error fault => (.error fault, h)

/-- The computation answers `e` and does not change the store. -/
def Reads (x : InPlace β) (e : Store → Except Fault β) : Prop := ∀ h, x.outcome h = (e h, h)

/-- The computation does what `p` does, and nothing where `p` fails. -/
def Runs (x : InPlace β) (p : Store → Except Fault (β × Store)) : Prop :=
  ∀ h, x.outcome h = settle h (p h)

/-! ### Rules -/

section Rules

variable {x : InPlace β} {f : β → InPlace γ} {e : Store → Except Fault β}

theorem Reads.pure (b : β) : Reads (Pure.pure b) fun _ => .ok b := fun _ => rfl

theorem Reads.bind {g : β → Store → Except Fault γ} (hx : Reads x e)
    (hf : ∀ b, Reads (f b) (g b)) : Reads (x >>= f) fun h => e h >>= fun b => g b h := by
  intro h
  rw [outcome_bind, hx h]
  dsimp only
  cases e h with
  | error fault => rfl
  | ok b => exact hf b h

theorem Reads.congr {e' : Store → Except Fault β} (hx : Reads x e) (he : ∀ h, e h = e' h) :
    Reads x e' :=
  fun h => (hx h).trans (by rw [he h])

/-- Whatever only reads may come before a change. -/
theorem Runs.bind {p : β → Store → Except Fault (γ × Store)} (hx : Reads x e)
    (hf : ∀ b, Runs (f b) (p b)) : Runs (x >>= f) fun h => e h >>= fun b => p b h := by
  intro h
  rw [outcome_bind, hx h]
  dsimp only
  cases e h with
  | error fault => rfl
  | ok b => exact hf b h

/-- After a change there may only be an answer. -/
theorem Runs.bind_pure {p : Store → Except Fault (β × Store)} (hx : Runs x p) (g : β → γ) :
    Runs (x >>= fun b => Pure.pure (g b)) fun h => (fun a => (g a.1, a.2)) <$> p h := by
  intro h
  rw [outcome_bind, hx h]
  dsimp only
  rcases p h with fault | ⟨b, h⟩
  · rfl
  · rfl

/-- What only reads leaves the store as it is, whether it fails or not. -/
theorem Reads.runs (hx : Reads x e) (g : β → γ) :
    Runs (x >>= fun b => Pure.pure (g b)) fun h => (fun b => (g b, h)) <$> e h := by
  intro h
  rw [outcome_bind, hx h]
  dsimp only
  cases e h with
  | error fault => rfl
  | ok b => rfl

theorem Runs.congr {p q : Store → Except Fault (β × Store)} (hx : Runs x p)
    (hpq : ∀ h, p h = q h) : Runs x q :=
  fun h => (hx h).trans (congrArg (settle h) (hpq h))

end Rules

/-! ### Steps -/

/-- The elements of a list as they are now. -/
def look (r : ListRef) : InPlace (List Value) := do return (← get).elements r

def put (r : ListRef) (vs : List Value) : InPlace Unit := modify fun h => h.write r vs

/-- A check that does not look at the store. -/
def check (e : Except Fault β) : InPlace β := ExceptT.mk (Pure.pure e)

/-- A question about the store as it is now. -/
def ask (e : Store → Except Fault β) : InPlace β := do check (e (← get))

theorem reads_look (r : ListRef) : Reads (look r) fun h => .ok (h.elements r) := fun _ => rfl

theorem runs_put (r : ListRef) (vs : List Value) :
    Runs (put r vs) fun h => .ok ((), h.write r vs) := fun _ => rfl

theorem reads_check (e : Except Fault β) : Reads (check e) fun _ => e := fun _ => rfl

theorem reads_ask (e : Store → Except Fault β) : Reads (ask e) e := fun _ => rfl

/-- The place that an index names among some elements. -/
def place (vs : List Value) (i : Int) : Except Fault (Fin vs.length) :=
  if hi : 0 ≤ i ∧ i < vs.length then .ok ⟨i.toNat, by omega⟩
  else .error (.indexOutOfRange "list" i vs.length)

/-- The place from which an element is removed. -/
def popPlace (vs : List Value) (i : Option Int) : Except Fault (Fin vs.length) :=
  if hempty : vs = [] then .error (.emptyContainer "list")
  else
    match i with
    | some i => place vs i
    | none => .ok ⟨vs.length - 1, Nat.sub_one_lt (mt List.length_eq_zero_iff.1 hempty)⟩

theorem place_of_lt {vs : List Value} {i : Int} (hi : 0 ≤ i ∧ i < vs.length) :
    place vs i = .ok ⟨i.toNat, by omega⟩ := dif_pos hi

theorem place_of_not_lt {vs : List Value} {i : Int} (hi : ¬ (0 ≤ i ∧ i < vs.length)) :
    place vs i = .error (.indexOutOfRange "list" i vs.length) := dif_neg hi

theorem elementAt?_of_lt {h : Store} {r : ListRef} {i : Int}
    (hi : 0 ≤ i ∧ i < (h.elements r).length) :
    h.elementAt? r i = some ((h.elements r).get ⟨i.toNat, by omega⟩) := by
  rw [Store.elementAt?_eq_some_iff, List.getElem?_eq_some_iff]
  exact ⟨hi.1, by omega, rfl⟩

theorem elementAt?_of_not_lt {h : Store} {r : ListRef} {i : Int}
    (hi : ¬ (0 ≤ i ∧ i < (h.elements r).length)) : h.elementAt? r i = none := by
  rw [Store.elementAt?_eq_none_iff, Store.length_eq]
  omega

theorem get_eq_place (h : Store) (r : ListRef) (i : Int) :
    h.get r i = (place (h.elements r) i).map (h.elements r).get := by
  by_cases hi : 0 ≤ i ∧ i < (h.elements r).length
  · rw [Store.get, elementAt?_of_lt hi, place_of_lt hi]
    rfl
  · rw [Store.get, elementAt?_of_not_lt hi, place_of_not_lt hi]
    rfl

theorem set_eq_place (h : Store) (r : ListRef) (i : Int) (v : Value) :
    h.set r i v =
      (place (h.elements r) i).map fun k => h.write r ((h.elements r).set k.val v) := by
  by_cases hi : 0 ≤ i ∧ i < (h.elements r).length
  · rw [Store.set, elementAt?_of_lt hi, place_of_lt hi]
    rfl
  · rw [Store.set, elementAt?_of_not_lt hi, place_of_not_lt hi]
    rfl

theorem pop_eq_popPlace (h : Store) (r : ListRef) (i : Option Int) :
    h.pop r i =
      (popPlace (h.elements r) i).map fun k =>
        ((h.elements r).get k, h.write r ((h.elements r).eraseIdx k.val)) := by
  by_cases hempty : h.elements r = []
  · rw [Store.pop, popPlace, dif_pos hempty, if_pos (by simp [hempty])]
    rfl
  · rw [Store.pop, popPlace, dif_neg hempty, if_neg (by simp [hempty])]
    cases i with
    | none =>
      -- the last index counts as one that was given
      have hlast : 0 ≤ ((h.length r - 1 : Nat) : Int) ∧
          ((h.length r - 1 : Nat) : Int) < (h.elements r).length := by
        have hpos := List.length_pos_iff.2 hempty
        rw [Store.length_eq]
        omega
      simp only [Option.getD_none, elementAt?_of_lt hlast]
      rfl
    | some i =>
      by_cases hi : 0 ≤ i ∧ i < (h.elements r).length
      · simp only [Option.getD_some, elementAt?_of_lt hi, place_of_lt hi]
        rfl
      · simp only [Option.getD_some, elementAt?_of_not_lt hi, place_of_not_lt hi]
        rfl

/-! ### Access -/

def getElement (r : ListRef) (i : Int) : InPlace Value := do
  let vs ← look r
  let k ← check (place vs i)
  return vs.get k

def setElement (r : ListRef) (i : Int) (v : Value) : InPlace Unit := do
  let vs ← look r
  let k ← check (place vs i)
  put r (vs.set k v)

def appendElement (r : ListRef) (v : Value) : InPlace Unit := do
  let vs ← look r
  put r (vs ++ [v])

def insertElement (r : ListRef) (i : Int) (v : Value) : InPlace Unit := do
  let vs ← look r
  let k := Store.insertionPoint vs.length i
  put r (vs.take k ++ v :: vs.drop k)

def popElement (r : ListRef) (i : Option Int) : InPlace Value := do
  let vs ← look r
  let k ← check (popPlace vs i)
  put r (vs.eraseIdx k)
  return vs.get k

def clearElements (r : ListRef) : InPlace Unit := put r []

def resizeElements (r : ListRef) (count : Nat) : InPlace Unit := do
  let vs ← look r
  put r (vs.take count ++ List.replicate (count - vs.length) Value.none)

theorem reads_getElement (r : ListRef) (i : Int) :
    Reads (getElement r i) fun h => h.get r i := by
  refine ((reads_look r).bind fun vs => (reads_check (place vs i)).bind fun k =>
    Reads.pure (vs.get k)).congr fun h => ?_
  rw [get_eq_place]
  rfl

theorem runs_setElement (r : ListRef) (i : Int) (v : Value) :
    Runs (setElement r i v) fun h => (fun h => ((), h)) <$> h.set r i v := by
  refine (Runs.bind (reads_look r) fun vs => Runs.bind (reads_check (place vs i)) fun k =>
    runs_put r (vs.set k v)).congr fun h => ?_
  rw [set_eq_place]
  cases hk : place (h.elements r) i with
  | error fault => simp [bind, Except.bind, Functor.map, Except.map, hk]
  | ok k => simp [bind, Except.bind, Functor.map, Except.map, hk]

theorem runs_appendElement (r : ListRef) (v : Value) :
    Runs (appendElement r v) fun h => .ok ((), h.append r v) :=
  (Runs.bind (reads_look r) fun vs => runs_put r (vs ++ [v])).congr fun _ => rfl

theorem runs_insertElement (r : ListRef) (i : Int) (v : Value) :
    Runs (insertElement r i v) fun h => .ok ((), h.insert r i v) :=
  (Runs.bind (reads_look r) fun _ => runs_put r _).congr fun _ => rfl

theorem runs_popElement (r : ListRef) (i : Option Int) :
    Runs (popElement r i) fun h => h.pop r i := by
  refine (Runs.bind (reads_look r) fun vs => Runs.bind (reads_check (popPlace vs i)) fun k =>
    (runs_put r (vs.eraseIdx k)).bind_pure fun _ => vs.get k).congr fun h => ?_
  rw [pop_eq_popPlace]
  rfl

theorem runs_clearElements (r : ListRef) :
    Runs (clearElements r) fun h => .ok ((), h.clear r) := runs_put r []

theorem runs_resizeElements (r : ListRef) (count : Nat) :
    Runs (resizeElements r count) fun h => .ok ((), h.resize r count) :=
  (Runs.bind (reads_look r) fun _ => runs_put r _).congr fun _ => rfl

/-! ### Methods -/

/-- The integer that a value gives as the index of an element. Only the fault of one that is too
large looks at the list. -/
def indexWord (r : ListRef) (i : Value) : InPlace Int := do
  let n ← check (Method.index i)
  if Method.fitsWord n then return n
  else
    let vs ← look r
    throw (.indexOutOfRange "list" (Method.saturate n) vs.length)

theorem reads_indexWord (r : ListRef) (i : Value) :
    Reads (indexWord r i) fun h => Method.wordIndex h r i := by
  refine (reads_check (Method.index i)).bind fun n => ?_
  cases Method.fitsWord n with
  | true => exact Reads.pure n
  | false =>
    refine ((reads_look r).bind fun vs => reads_check (.error _)).congr fun h => rfl

/-! ### Sums -/

def make (vs : List Value) : InPlace Value := modifyGet fun h => h.newList vs

def addValues (v w : Value) : InPlace Value :=
  match v, w with
  | .bytes a, .bytes b => modifyGet fun h => h.newBytes (a.data ++ b.data)
  | .text a, .text b => modifyGet fun h => h.newText (a.data ++ b.data)
  | .list a, .list b => do
    let vs ← look a
    let ws ← look b
    make (vs ++ ws)
  | v, w =>
    match v.numeric?, w.numeric? with
    | some m, some n => return .int (m + n)
    | _, _ => throw (.typeMismatch "+" v.typeName w.typeName)

theorem runs_addValues (v w : Value) : Runs (addValues v w) fun h => v.add h w := by
  intro h
  cases v <;> cases w <;> rfl

end InPlace

end SharedValues
