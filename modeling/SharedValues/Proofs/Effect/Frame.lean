import SharedValues.Call
import SharedValues.Proofs.Effect.InPlace
import SharedValues.Proofs.Store.Closed
import SharedValues.Value.Order

/-!
# What operations do to the lists of a store

Every operation on lists and values, with any arguments: the receiver may be one of the arguments or
one of its own elements, and one list may be both operands of a sum.

An operation does one of three things to the lists (`plain_effect`): nothing, a write to its own
receiver, or a new list made of the elements of two others. The frame follows from these three. That
an operation which fails has not begun any of them is what `runs_inPlace` says.
-/

namespace SharedValues

inductive Operator where
  | add (v w : Value)
  | not (v : Value)
  | equals (v w : Value)
  | compare (v w : Value)
  | contains (container item : Value)
  | repr (v : Value)

/-- An operation on lists and values. -/
inductive Operation where
  | access (r : ListRef) (a : Access.Call Value)
  | method (on : Value) (m : Method.Call Value)
  | operator (o : Operator)

def Operator.plain (h : Store) : Operator → Except Fault (Found × Store)
  | .add v w => (fun a => (.value a.1, a.2)) <$> v.add h w
  | .not v => .ok (.value (v.not h), h)
  | .equals v w => .ok (.flag (v.equals h w), h)
  | .compare v w => (fun o => (.order o, h)) <$> v.compareValues h w
  | .contains container item => (fun b => (.flag b, h)) <$> container.contains h item
  | .repr v => .ok (.text (v.repr h), h)

/-- The answer of an operation and the store after it. -/
def Operation.plain (h : Store) : Operation → Except Fault (Found × Store)
  | .access r a => a.perform h r
  | .method on m => m.perform h on
  | .operator o => o.plain h

/-! ### The operations in place -/

open InPlace

def Access.Call.inPlace (r : ListRef) : Access.Call Value → InPlace Found
  | .length => do return .count (← look r).length
  | .isEmpty => do return .flag (← look r).isEmpty
  | .get i => do return .value (← getElement r i)
  | .getAt position => do return .ofOption (← look r)[position]?
  | .set i v => do
    setElement r i v
    return .nothing
  | .append v => do
    appendElement r v
    return .nothing
  | .insert i v => do
    insertElement r i v
    return .nothing
  | .pop i => do return .value (← popElement r i)
  | .clear => do
    clearElements r
    return .nothing
  | .resize count => do
    resizeElements r count
    return .nothing
  | .isSame other => do return .flag (← check (.ok (other.isSame (.list r))))
  | .elements => do return .elements (← look r)
  | .debug => do return .text (← ask fun h => .ok (h.debugList r))

def Method.Call.inPlace (on : Value) : Method.Call Value → InPlace Found
  | .length => do
    let r ← check (Method.receiver "len" on)
    return .count (← look r).length
  | .get i => do
    let r ← check (Method.receiver "__getitem__" on)
    let n ← indexWord r i
    return .value (← getElement r n)
  | .set i v => do
    let r ← check (Method.receiver "__setitem__" on)
    let n ← indexWord r i
    setElement r n v
    return .nothing
  | .append v => do
    let r ← check (Method.receiver "append" on)
    appendElement r v
    return .nothing
  | .insert i v => do
    let r ← check (Method.receiver "insert" on)
    let n ← ask fun h => Method.insertionIndex h r i
    insertElement r n v
    return .nothing
  | .pop none => do
    let r ← check (Method.receiver "pop" on)
    return .value (← popElement r none)
  | .pop (some i) => do
    let r ← check (Method.receiver "pop" on)
    let n ← indexWord r i
    return .value (← popElement r (some n))
  | .clear => do
    let r ← check (Method.receiver "clear" on)
    clearElements r
    return .nothing
  | .resize count => do
    let r ← check (Method.receiver "resize" on)
    resizeElements r count
    return .nothing
  | .contains v => do
    let _ ← check (Method.receiver "__contains__" on)
    return .flag (← ask fun h => on.contains h v)
  | .iterate => do
    let r ← check (Method.receiver "__iter__" on)
    return .cursor (Cursor.start r)

def Operator.inPlace : Operator → InPlace Found
  | .add v w => do return .value (← addValues v w)
  | .not v => do return .value (← ask fun h => .ok (v.not h))
  | .equals v w => do return .flag (← ask fun h => .ok (v.equals h w))
  | .compare v w => do return .order (← ask fun h => v.compareValues h w)
  | .contains container item => do return .flag (← ask fun h => container.contains h item)
  | .repr v => do return .text (← ask fun h => .ok (v.repr h))

def Operation.inPlace : Operation → InPlace Found
  | .access r a => a.inPlace r
  | .method on m => m.inPlace on
  | .operator o => o.inPlace

theorem Access.Call.runs_inPlace (r : ListRef) (a : Access.Call Value) :
    Runs (a.inPlace r) fun h => a.perform h r := by
  cases a with
  | length => exact (reads_look r).runs _
  | isEmpty => exact (reads_look r).runs _
  | get i => exact (reads_getElement r i).runs _
  | getAt position => exact (reads_look r).runs _
  | set i v => exact ((runs_setElement r i v).bind_pure _).congr fun h => Functor.map_map ..
  | append v => exact (runs_appendElement r v).bind_pure _
  | insert i v => exact (runs_insertElement r i v).bind_pure _
  | pop i => exact (runs_popElement r i).bind_pure _
  | clear => exact (runs_clearElements r).bind_pure _
  | resize count => exact (runs_resizeElements r count).bind_pure _
  | isSame other => exact (reads_check _).runs _
  | elements => exact (reads_look r).runs _
  | debug => exact (reads_ask _).runs _

theorem Method.Call.runs_inPlace (on : Value) (m : Method.Call Value) :
    Runs (m.inPlace on) fun h => m.perform h on := by
  cases m with
  | length =>
    refine (Runs.bind (reads_check _) fun r => (reads_look r).runs _).congr fun h => ?_
    rw [perform, Method.length, map_bind]
    rfl
  | get i =>
    refine (Runs.bind (reads_check _) fun r => Runs.bind (reads_indexWord r i) fun n =>
      (reads_getElement r n).runs _).congr fun h => ?_
    simp only [perform, Method.get, map_bind]
  | set i v =>
    refine (Runs.bind (reads_check _) fun r => Runs.bind (reads_indexWord r i) fun n =>
      (runs_setElement r n v).bind_pure _).congr fun h => ?_
    simp only [perform, Method.set, map_bind, Functor.map_map]
  | append v =>
    refine (Runs.bind (reads_check _) fun r =>
      (runs_appendElement r v).bind_pure _).congr fun h => ?_
    rw [perform, Method.append, map_bind]
    rfl
  | insert i v =>
    refine (Runs.bind (reads_check _) fun r => Runs.bind (reads_ask _) fun n =>
      (runs_insertElement r n v).bind_pure _).congr fun h => ?_
    simp only [perform, Method.insert, map_bind]
    rfl
  | pop i =>
    cases i with
    | none =>
      refine (Runs.bind (reads_check _) fun r =>
        (runs_popElement r none).bind_pure _).congr fun h => ?_
      simp only [perform, Method.pop, map_bind]
    | some i =>
      refine (Runs.bind (reads_check _) fun r => Runs.bind (reads_indexWord r i) fun n =>
        (runs_popElement r (some n)).bind_pure _).congr fun h => ?_
      simp only [perform, Method.pop, map_bind]
  | clear =>
    refine (Runs.bind (reads_check _) fun r =>
      (runs_clearElements r).bind_pure _).congr fun h => ?_
    rw [perform, Method.clear, map_bind]
    rfl
  | resize count =>
    refine (Runs.bind (reads_check _) fun r =>
      (runs_resizeElements r count).bind_pure _).congr fun h => ?_
    rw [perform, Method.resize, map_bind]
    rfl
  | contains v =>
    refine (Runs.bind (reads_check _) fun _ => (reads_ask _).runs _).congr fun h => ?_
    rw [perform, Method.contains, map_bind]
  | iterate =>
    refine ((reads_check _).runs _).congr fun h => ?_
    simp only [perform, Method.iterate, map_bind]
    rfl

theorem Operator.runs_inPlace (o : Operator) : Runs o.inPlace fun h => o.plain h := by
  cases o with
  | add v w => exact (runs_addValues v w).bind_pure _
  | not v => exact (reads_ask _).runs _
  | equals v w => exact (reads_ask _).runs _
  | compare v w => exact (reads_ask _).runs _
  | contains container item => exact (reads_ask _).runs _
  | repr v => exact (reads_ask _).runs _

theorem Operation.runs_inPlace (op : Operation) : Runs op.inPlace fun h => op.plain h := by
  cases op with
  | access r a => exact a.runs_inPlace r
  | method on m => exact m.runs_inPlace on
  | operator o => exact o.runs_inPlace

/-! ### What an operation changes -/

def Access.Call.mutates : Access.Call Value → Bool
  | .set _ _ | .append _ | .insert _ _ | .pop _ | .clear | .resize _ => true
  | .length | .isEmpty | .get _ | .getAt _ | .isSame _ | .elements | .debug => false

def Method.Call.mutates : Method.Call Value → Bool
  | .set _ _ | .append _ | .insert _ _ | .pop _ | .clear | .resize _ => true
  | .length | .get _ | .contains _ | .iterate => false

namespace Operation

/-- The list that an operation may change. -/
def changes? : Operation → Option ListRef
  | .access r a => if a.mutates then some r else none
  | .method (.list r) m => if m.mutates then some r else none
  | _ => none

/-- The lists whose elements an operation joins in a new one. -/
def joins? : Operation → Option (ListRef × ListRef)
  | .operator (.add (.list a) (.list b)) => some (a, b)
  | _ => none

/-- The three things that an operation can do to the lists of a store. -/
inductive Effect (op : Operation) (h : Store) : Found → Store → Prop where
  | same {found : Found} {h' : Store} : op.joins? = none → h'.cells = h.cells →
      Effect op h found h'
  | wrote {found : Found} {r : ListRef} (vs : List Value) : op.joins? = none →
      op.changes? = some r → Effect op h found (h.write r vs)
  | joined {a b : ListRef} : op.joins? = some (a, b) →
      Effect op h (.value (h.newList (h.elements a ++ h.elements b)).1)
        (h.newList (h.elements a ++ h.elements b)).2

end Operation

section Inversion

variable {β γ : Type} {h h' : Store} {r : ListRef}

theorem bind_eq_ok {e : Except Fault β} {f : β → Except Fault γ} {c : γ}
    (hc : e >>= f = .ok c) : ∃ b, e = .ok b ∧ f b = .ok c := by
  cases e with
  | error fault => simp [bind, Except.bind] at hc
  | ok b => exact ⟨b, rfl, hc⟩

theorem map_eq_ok {e : Except Fault β} {f : β → γ} {c : γ} (hc : f <$> e = .ok c) :
    ∃ b, e = .ok b ∧ f b = c := by
  cases e with
  | error fault => simp [Functor.map, Except.map] at hc
  | ok b => exact ⟨b, rfl, Except.ok.inj hc⟩

theorem receiver_bind_eq_ok {operation : String} {on : Value} {f : ListRef → Except Fault γ} {c : γ}
    (hc : Method.receiver operation on >>= f = .ok c) : ∃ r, on = .list r ∧ f r = .ok c := by
  cases on with
  | list r => exact ⟨r, rfl, hc⟩
  | _ => cases hc

theorem set_eq_ok {i : Int} {v : Value} (hset : h.set r i v = .ok h') :
    ∃ vs, h' = h.write r vs := by
  rw [set_eq_place] at hset
  obtain ⟨k, -, hk⟩ := map_eq_ok hset
  exact ⟨_, hk.symm⟩

theorem pop_eq_ok {i : Option Int} {a : Value × Store} (hpop : h.pop r i = .ok a) :
    ∃ vs, a.2 = h.write r vs := by
  rw [pop_eq_popPlace] at hpop
  obtain ⟨k, -, hk⟩ := map_eq_ok hpop
  exact ⟨_, congrArg Prod.snd hk.symm⟩

end Inversion

namespace Operation

variable {β : Type} {op : Operation} {h h' : Store} {found : Found}

theorem Effect.of_read {e : Except Fault β} {g : β → Found} (hop : op.joins? = none)
    (he : (fun b => (g b, h)) <$> e = .ok (found, h')) : Effect op h found h' := by
  obtain ⟨b, -, hb⟩ := map_eq_ok he
  cases hb
  exact .same hop rfl

theorem Effect.of_write {r : ListRef} (hop : op.joins? = none) (hr : op.changes? = some r)
    (hw : ∃ vs, h' = h.write r vs) : Effect op h found h' := by
  obtain ⟨vs, rfl⟩ := hw
  exact .wrote vs hop hr

theorem access_effect {r : ListRef} {a : Access.Call Value} (ha : a.perform h r = .ok (found, h')) :
    Effect (.access r a) h found h' := by
  cases a with
  | get i => exact .of_read rfl ha
  | set i v =>
    obtain ⟨g, hset, hg⟩ := map_eq_ok ha
    cases hg
    exact .of_write rfl rfl (set_eq_ok hset)
  | pop i =>
    obtain ⟨a, hpop, hg⟩ := map_eq_ok ha
    cases hg
    exact .of_write rfl rfl (pop_eq_ok hpop)
  | length | isEmpty | getAt | isSame | elements | debug =>
    cases ha
    exact .same rfl rfl
  | append | insert | clear | resize =>
    cases ha
    exact .wrote _ rfl rfl

theorem method_effect {on : Value} {m : Method.Call Value} (hm : m.perform h on = .ok (found, h')) :
    Effect (.method on m) h found h' := by
  cases m with
  | length => exact .of_read rfl hm
  | get i => exact .of_read rfl hm
  | contains v => exact .of_read rfl hm
  | iterate => exact .of_read rfl hm
  | set i v =>
    obtain ⟨g, hcall, hg⟩ := map_eq_ok hm
    cases hg
    obtain ⟨r, rfl, hindex⟩ := receiver_bind_eq_ok hcall
    obtain ⟨n, -, hset⟩ := bind_eq_ok hindex
    exact .of_write rfl rfl (set_eq_ok hset)
  | insert i v =>
    obtain ⟨g, hcall, hg⟩ := map_eq_ok hm
    cases hg
    obtain ⟨r, rfl, hindex⟩ := receiver_bind_eq_ok hcall
    obtain ⟨n, -, hinsert⟩ := bind_eq_ok hindex
    cases hinsert
    exact .wrote _ rfl rfl
  | pop i =>
    obtain ⟨a, hcall, hg⟩ := map_eq_ok hm
    cases hg
    obtain ⟨r, rfl, hrest⟩ := receiver_bind_eq_ok hcall
    -- without an index nothing is checked between the receiver and the list
    cases i with
    | none => exact .of_write rfl rfl (pop_eq_ok hrest)
    | some i =>
      obtain ⟨n, -, hpop⟩ := bind_eq_ok hrest
      exact .of_write rfl rfl (pop_eq_ok hpop)
  | append | clear | resize =>
    obtain ⟨g, hcall, hg⟩ := map_eq_ok hm
    cases hg
    obtain ⟨r, rfl, hwrite⟩ := receiver_bind_eq_ok hcall
    cases hwrite
    exact .wrote _ rfl rfl

theorem add_effect {v w : Value} (hadd : (Operator.add v w).plain h = .ok (found, h')) :
    Effect (.operator (.add v w)) h found h' := by
  obtain ⟨a, ha, hg⟩ := map_eq_ok hadd
  cases hg
  cases v <;> cases w <;> cases ha
  case refl.list.list.refl => exact .joined rfl
  -- the sums that are left are numbers, texts and byte strings
  all_goals exact .same rfl rfl

theorem operator_effect {o : Operator} (ho : o.plain h = .ok (found, h')) :
    Effect (.operator o) h found h' := by
  cases o with
  | add v w => exact add_effect ho
  | compare v w => exact .of_read rfl ho
  | contains container item => exact .of_read rfl ho
  | not | equals | repr =>
    cases ho
    exact .same rfl rfl

theorem plain_effect (hop : op.plain h = .ok (found, h')) : Effect op h found h' := by
  cases op with
  | access r a => exact access_effect hop
  | method on m => exact method_effect hop
  | operator o => exact operator_effect hop

/-! ### The frame -/

/-- What an operation leaves of the lists when it succeeds. -/
structure Framed (op : Operation) (h : Store) (found : Found) (h' : Store) : Prop where
  /-- Only the list that the operation may change has other elements. -/
  unchanged : ∀ r, h.Holds r → op.changes? ≠ some r → h'.elements r = h.elements r
  /-- Every list is still there under its name. -/
  kept : ∀ r, h.Holds r → h'.Holds r
  /-- A list that was not there before is the sum of two lists. -/
  fresh : ∀ r, h'.Holds r → ¬ h.Holds r → op.joins?.isSome ∧ found = .value (.list r)
  /-- A sum of lists is a new list of the very elements of both. -/
  joined : ∀ a b, op.joins? = some (a, b) → ∃ r, found = .value (.list r) ∧ h'.Holds r ∧
    (∀ v, h.Covers v → v.isSame (.list r) = false) ∧ h'.elements r = h.elements a ++ h.elements b

theorem Framed.of_size_eq (hop : op.joins? = none) (hsize : h'.size = h.size)
    (hkept : ∀ r, op.changes? ≠ some r → h'.elements r = h.elements r) : Framed op h found h' := by
  have hholds : ∀ r, h'.Holds r ↔ h.Holds r := by
    intro r
    rw [Store.Holds, Store.Holds, hsize]
  refine ⟨fun r _ => hkept r, fun r => (hholds r).2, fun r hr hnot => ?_, fun a b hab => ?_⟩
  · exact absurd ((hholds r).1 hr) hnot
  · rw [hop] at hab
    cases hab

/-- The store gives the sum the first name that it has not given out. -/
theorem Framed.of_newList {a b : ListRef} (hop : op.joins? = some (a, b)) :
    Framed op h (.value (h.newList (h.elements a ++ h.elements b)).1)
      (h.newList (h.elements a ++ h.elements b)).2 := by
  have hholds : ∀ r, (h.newList (h.elements a ++ h.elements b)).2.Holds r ↔ r.id < h.size + 1 := by
    intro r
    rw [Store.Holds, Store.size_newList]
  refine ⟨fun r hr _ => Store.elements_newList_of_holds hr _, fun r hr => ?_, fun r hr hnot => ?_,
    fun a' b' hab => ?_⟩
  · exact (hholds r).2 (Nat.lt_succ_of_lt hr)
  · have hid : r.id = h.size := Nat.eq_of_lt_succ_of_not_lt ((hholds r).1 hr) hnot
    refine ⟨by simp [hop], ?_⟩
    rw [Store.newList, ← hid]
  · rw [hop] at hab
    cases hab
    refine ⟨⟨h.size⟩, rfl, (hholds _).2 (Nat.lt_succ_self _), fun v hv => ?_,
      Store.elements_newList_self h _⟩
    have hne : v ≠ .list ⟨h.size⟩ := by
      rintro rfl
      exact Nat.lt_irrefl _ hv
    exact Bool.eq_false_iff.2 (mt Value.isSame_iff.1 hne)

theorem Effect.framed (he : Effect op h found h') : Framed op h found h' := by
  cases he with
  | same hop hcells =>
    refine .of_size_eq hop (congrArg Array.size hcells) fun r _ => ?_
    rw [Store.elements, Store.elements, hcells]
  | @wrote _ s vs hop hs =>
    refine .of_size_eq hop (Store.size_write h s vs) fun r hr => ?_
    have hne : r ≠ s := fun heq => hr (heq ▸ hs)
    exact Store.elements_write_of_ne hne vs
  | joined hop => exact .of_newList hop

/-- Each operation does in place what it does as a function of the store. Where it fails it leaves
the store as it was, and where it succeeds it changes no list but its own receiver. -/
theorem outcome_framed (op : Operation) (h : Store) :
    op.inPlace.outcome h = settle h (op.plain h) ∧
      match op.inPlace.outcome h with
      | (.error _, h') => h' = h
      | (.ok found, h') => Framed op h found h' := by
  refine ⟨op.runs_inPlace h, ?_⟩
  rw [op.runs_inPlace h]
  dsimp only
  rcases hplain : op.plain h with fault | ⟨found, h'⟩
  · rfl
  · exact (plain_effect hplain).framed

end Operation

end SharedValues
