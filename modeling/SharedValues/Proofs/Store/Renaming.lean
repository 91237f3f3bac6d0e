import Mathlib.Data.List.Find
import SharedValues.Proofs.Agreement.Depth
import SharedValues.Proofs.Order.Equality
import SharedValues.Store.Reach
import SharedValues.Value.Operators
import SharedValues.Value.Render

/-!
# Names of lists do not show

A renaming carries what is reached from some values of a store into another store: every list that
is reached has there, under its new name, the same elements in the same order with their new names.
It must keep the reached lists apart. What else the two stores hold, and what the renaming does to
names that are not reached, does not matter. Tags of texts and byte strings may be renamed in any
way, since only identity looks at them.

The walks of writing, equality and order are followed on the renamed path. On a path whose lists are
all reached, a list or a pair is met again after renaming exactly when it is met again before.
-/

namespace SharedValues

/-- New names for lists and new tags for texts and byte strings. -/
structure Renaming where
  list : ListRef → ListRef
  tag : Nat → Nat

namespace Renaming

protected def id : Renaming := ⟨fun r => r, fun t => t⟩

def pair (ρ : Renaming) (p : ListRef × ListRef) : ListRef × ListRef := (ρ.list p.1, ρ.list p.2)

end Renaming

namespace Value

def rename (ρ : Renaming) : Value → Value
  | .bytes object => .bytes ⟨ρ.tag object.tag, object.data⟩
  | .text object => .text ⟨ρ.tag object.tag, object.data⟩
  | .list r => .list (ρ.list r)
  | v => v

def renamePair (ρ : Renaming) (p : Value × Value) : Value × Value := (p.1.rename ρ, p.2.rename ρ)

variable (ρ : Renaming)

@[simp] theorem rename_list (r : ListRef) : (list r).rename ρ = .list (ρ.list r) := rfl

@[simp] theorem rename_id (v : Value) : v.rename .id = v := by
  cases v <;> rfl

theorem list?_rename (v : Value) : (v.rename ρ).list? = v.list?.map ρ.list := by
  cases v <;> rfl

variable {ρ} in
theorem leaf_rename {v w : Value} (hvw : v.list? = Option.none ∨ w.list? = Option.none) :
    (v.rename ρ).list? = Option.none ∨ (w.rename ρ).list? = Option.none := by
  simpa only [list?_rename, Option.map_eq_none_iff] using hvw

theorem looseLeaf_rename (v w : Value) : looseLeaf (v.rename ρ) (w.rename ρ) = looseLeaf v w := by
  cases v <;> cases w <;> rfl

theorem strictLeaf_rename (v w : Value) :
    strictLeaf (v.rename ρ) (w.rename ρ) = strictLeaf v w := by
  cases v <;> cases w <;> rfl

theorem compareLeaf_rename (v w : Value) :
    compareLeaf (v.rename ρ) (w.rename ρ) = compareLeaf v w := by
  cases v <;> cases w <;> rfl

theorem zip_map_rename (vs ws : List Value) :
    (vs.map (rename ρ)).zip (ws.map (rename ρ)) = (vs.zip ws).map (renamePair ρ) :=
  List.zip_map

end Value

open Store

/-- A renaming that carries what is reached from the roots in one store into another store. -/
structure Renaming.Carries (ρ : Renaming) (h g : Store) (roots : List Value) : Prop where
  apart : ∀ r s, h.Reached roots (.list r) → h.Reached roots (.list s) → ρ.list r = ρ.list s → r = s
  elements : ∀ r, h.Reached roots (.list r) →
    g.elements (ρ.list r) = (h.elements r).map (Value.rename ρ)

/-- Stores that agree on all that is reached need no new names. -/
theorem Renaming.carries_id {h g : Store} {roots : List Value}
    (hagree : ∀ r, h.Reached roots (.list r) → g.elements r = h.elements r) :
    Renaming.id.Carries h g roots := by
  refine ⟨fun r s _ _ hrs => hrs, fun r hr => ?_⟩
  have hid : Value.rename .id = id := funext Value.rename_id
  rw [hid, List.map_id]
  exact hagree r hr

namespace Value

section Walks

variable {ρ : Renaming} {h g : Store} {roots : List Value}

theorem list_eq_iff (hρ : ρ.Carries h g roots) {r s : ListRef} (hr : h.Reached roots (.list r))
    (hs : h.Reached roots (.list s)) : ρ.list r = ρ.list s ↔ r = s :=
  ⟨hρ.apart r s hr hs, congrArg ρ.list⟩

theorem length_elements_rename (hρ : ρ.Carries h g roots) {r : ListRef}
    (hr : h.Reached roots (.list r)) : (g.elements (ρ.list r)).length = (h.elements r).length := by
  rw [hρ.elements r hr, List.length_map]

theorem zip_elements_rename (hρ : ρ.Carries h g roots) {a b : ListRef}
    (ha : h.Reached roots (.list a)) (hb : h.Reached roots (.list b)) :
    (g.elements (ρ.list a)).zip (g.elements (ρ.list b)) =
      ((h.elements a).zip (h.elements b)).map (renamePair ρ) := by
  rw [hρ.elements a ha, hρ.elements b hb, zip_map_rename]

/-- The lists of a path of pairs are reached. -/
def OnReached (h : Store) (roots : List Value) (path : List (ListRef × ListRef)) : Prop :=
  ∀ p ∈ path, h.Reached roots (.list p.1) ∧ h.Reached roots (.list p.2)

theorem OnReached.cons {path : List (ListRef × ListRef)} {a b : ListRef}
    (hpath : OnReached h roots path) (ha : h.Reached roots (.list a))
    (hb : h.Reached roots (.list b)) : OnReached h roots ((a, b) :: path) :=
  List.forall_mem_cons.2 ⟨⟨ha, hb⟩, hpath⟩

theorem pair_mem_map_iff (hρ : ρ.Carries h g roots) {path : List (ListRef × ListRef)}
    {a b : ListRef} (hpath : OnReached h roots path) (ha : h.Reached roots (.list a))
    (hb : h.Reached roots (.list b)) :
    (ρ.list a, ρ.list b) ∈ path.map ρ.pair ↔ (a, b) ∈ path := by
  constructor
  · intro hm
    obtain ⟨p, hp, hpair⟩ := List.mem_map.1 hm
    obtain ⟨hfst, hsnd⟩ := Prod.mk.inj hpair
    have hleft : p.1 = a := hρ.apart p.1 a (hpath p hp).1 ha hfst
    have hright : p.2 = b := hρ.apart p.2 b (hpath p hp).2 hb hsnd
    rwa [← hleft, ← hright]
  · intro hm
    exact List.mem_map.2 ⟨(a, b), hm, rfl⟩

theorem onPath_rename_iff (hρ : ρ.Carries h g roots) {path : List (ListRef × ListRef)}
    {a b : ListRef} (hpath : OnReached h roots path) (ha : h.Reached roots (.list a))
    (hb : h.Reached roots (.list b)) :
    ρ.list a = ρ.list b ∨ (ρ.list a, ρ.list b) ∈ path.map ρ.pair ↔ a = b ∨ (a, b) ∈ path :=
  or_congr (list_eq_iff hρ ha hb) (pair_mem_map_iff hρ hpath ha hb)

theorem agreeWithin_rename {leaf : Value → Value → Bool}
    (hleaf : ∀ v w, leaf (v.rename ρ) (w.rename ρ) = leaf v w) (hρ : ρ.Carries h g roots)
    (path : List (ListRef × ListRef)) (v w : Value) (hpath : OnReached h roots path)
    (hv : h.Reached roots v) (hw : h.Reached roots w) :
    agreeWithin leaf g (path.map ρ.pair) (v.rename ρ) (w.rename ρ) =
      agreeWithin leaf h path v w := by
  induction path, v, w using agreeWithin.induct (h := h) with
  | case1 path a b hp =>
    rw [agreeWithin_list_of_mem hp]
    exact agreeWithin_list_of_mem ((onPath_rename_iff hρ hpath hv hw).2 hp)
  | case2 path a b hp ih =>
    have hp' := mt (onPath_rename_iff hρ hpath hv hw).1 hp
    rw [agreeWithin_list_of_not_mem hp, rename_list, rename_list, agreeWithin_list_of_not_mem hp',
      length_elements_rename hρ hv, length_elements_rename hρ hw, zip_elements_rename hρ hv hw,
      List.all_map]
    congr 1
    rw [Bool.eq_iff_iff, List.all_eq_true, List.all_eq_true]
    refine forall₂_congr fun p hm => ?_
    obtain ⟨hfst, hsnd⟩ := Reached.step_zip hv hw hm
    exact Bool.eq_iff_iff.1 (ih p hm (hpath.cons hv hw) hfst hsnd)
  | case3 path v w hlists =>
    have hvw := leaf_of_not_lists hlists
    rw [agreeWithin_leaf hvw, agreeWithin_leaf (leaf_rename hvw), hleaf]

theorem firstDifference?_rename (hρ : ρ.Carries h g roots) {path : List (ListRef × ListRef)}
    {ps : List (Value × Value)} (hpath : OnReached h roots path)
    (hps : ∀ p ∈ ps, h.Reached roots p.1 ∧ h.Reached roots p.2) :
    firstDifference? g (path.map ρ.pair) (ps.map (renamePair ρ)) =
      (firstDifference? h path ps).map (renamePair ρ) := by
  rw [firstDifference?, firstDifference?, List.find?_map]
  congr 1
  apply List.find?_congr
  intro p hm
  obtain ⟨hfst, hsnd⟩ := hps p hm
  exact congrArg (!·) (agreeWithin_rename (looseLeaf_rename ρ) hρ path p.1 p.2 hpath hfst hsnd)

/-- The order of two renamed lists, opened: it goes on at the renamed first difference. -/
theorem compareWithin_rename_list (hρ : ρ.Carries h g roots) {path : List (ListRef × ListRef)}
    {a b : ListRef} (hpath : OnReached h roots path) (ha : h.Reached roots (.list a))
    (hb : h.Reached roots (.list b)) (hp : ¬ (a = b ∨ (a, b) ∈ path)) :
    compareWithin g (path.map ρ.pair) (.list (ρ.list a)) (.list (ρ.list b)) =
      match firstDifference? h ((a, b) :: path) ((h.elements a).zip (h.elements b)) with
      | some p => compareWithin g (((a, b) :: path).map ρ.pair) (p.1.rename ρ) (p.2.rename ρ)
      | Option.none => .ok (compare (h.length a) (h.length b)) := by
  have hfirst := firstDifference?_rename hρ (hpath.cons ha hb) fun p => Reached.step_zip ha hb
  rw [List.map_cons, Renaming.pair] at hfirst
  rw [compareWithin_list_of_not_mem (mt (onPath_rename_iff hρ hpath ha hb).1 hp),
    zip_elements_rename hρ ha hb, hfirst, Store.length_eq, Store.length_eq,
    length_elements_rename hρ ha, length_elements_rename hρ hb]
  cases firstDifference? h ((a, b) :: path) ((h.elements a).zip (h.elements b)) with
  | none => rfl
  | some p => rfl

theorem compareWithin_rename (hρ : ρ.Carries h g roots) (path : List (ListRef × ListRef))
    (v w : Value) (hpath : OnReached h roots path) (hv : h.Reached roots v)
    (hw : h.Reached roots w) :
    compareWithin g (path.map ρ.pair) (v.rename ρ) (w.rename ρ) = compareWithin h path v w := by
  induction path, v, w using compareWithin.induct (h := h) with
  | case1 path a b hp =>
    rw [compareWithin_list_of_mem hp]
    exact compareWithin_list_of_mem ((onPath_rename_iff hρ hpath hv hw).2 hp)
  | case2 path a b hp p hm hfirst ih =>
    obtain ⟨hfst, hsnd⟩ := Reached.step_zip hv hw hm
    rw [rename_list, rename_list, compareWithin_rename_list hρ hpath hv hw hp,
      compareWithin_list_of_not_mem hp, firstDifference?_of_mem hfirst]
    exact ih (hpath.cons hv hw) hfst hsnd
  | case3 path a b hp hfirst =>
    rw [rename_list, rename_list, compareWithin_rename_list hρ hpath hv hw hp,
      compareWithin_list_of_not_mem hp, ← map_val_firstDifferenceMem?, hfirst]
    rfl
  | case4 path v w hlists =>
    have hvw := leaf_of_not_lists hlists
    rw [compareWithin_leaf hvw, compareWithin_leaf (leaf_rename hvw), compareLeaf_rename]

theorem mem_map_list_iff (hρ : ρ.Carries h g roots) {path : List ListRef} {r : ListRef}
    (hpath : ∀ s ∈ path, h.Reached roots (.list s)) (hr : h.Reached roots (.list r)) :
    ρ.list r ∈ path.map ρ.list ↔ r ∈ path := by
  constructor
  · intro hm
    obtain ⟨s, hs, hsr⟩ := List.mem_map.1 hm
    rwa [← hρ.apart s r (hpath s hs) hr hsr]
  · exact List.mem_map_of_mem

theorem writeWithin_rename (hρ : ρ.Carries h g roots) (path : List ListRef) (v : Value)
    (hpath : ∀ s ∈ path, h.Reached roots (.list s)) (hv : h.Reached roots v) :
    writeWithin g (path.map ρ.list) (v.rename ρ) = writeWithin h path v := by
  induction path, v using writeWithin.induct (h := h) with
  | case7 path r hr =>
    rw [writeWithin_list_of_mem hr]
    exact writeWithin_list_of_mem ((mem_map_list_iff hρ hpath hv).2 hr)
  | case8 path r hr ih =>
    have hr' := mt (mem_map_list_iff hρ hpath hv).1 hr
    rw [writeWithin_list_of_not_mem hr, rename_list, writeWithin_list_of_not_mem hr',
      hρ.elements r hv, List.map_map]
    congr 1
    apply List.map_congr_left
    intro v hm
    exact ih v hm (List.forall_mem_cons.2 ⟨hv, hpath⟩) (hv.step hm)
  | _ => simp only [rename, writeWithin]

theorem repr_rename (hρ : ρ.Carries h g roots) {v : Value} (hv : h.Reached roots v) :
    repr g (v.rename ρ) = repr h v :=
  congrArg String.ofList (writeWithin_rename hρ [] v (by simp) hv)

theorem onReached_nil : OnReached h roots [] := by
  simp [OnReached]

theorem equals_rename (hρ : ρ.Carries h g roots) {v w : Value} (hv : h.Reached roots v)
    (hw : h.Reached roots w) : equals g (v.rename ρ) (w.rename ρ) = equals h v w :=
  agreeWithin_rename (looseLeaf_rename ρ) hρ [] v w onReached_nil hv hw

theorem strictEq_rename (hρ : ρ.Carries h g roots) {v w : Value} (hv : h.Reached roots v)
    (hw : h.Reached roots w) : strictEq g (v.rename ρ) (w.rename ρ) = strictEq h v w :=
  agreeWithin_rename (strictLeaf_rename ρ) hρ [] v w onReached_nil hv hw

theorem compareValues_rename (hρ : ρ.Carries h g roots) {v w : Value} (hv : h.Reached roots v)
    (hw : h.Reached roots w) : compareValues g (v.rename ρ) (w.rename ρ) = compareValues h v w :=
  compareWithin_rename hρ [] v w onReached_nil hv hw

theorem display_rename (hρ : ρ.Carries h g roots) {v : Value} (hv : h.Reached roots v) :
    display g (v.rename ρ) = display h v := by
  cases v with
  | text object => rfl
  | _ => exact repr_rename hρ hv

theorem debug_rename (hρ : ρ.Carries h g roots) {v : Value} (hv : h.Reached roots v) :
    debug g (v.rename ρ) = debug h v := by
  cases v with
  | bytes | text | list => simp only [rename, debug, typeName, kind, ← repr_rename hρ hv]
  | _ => rfl

theorem isTruthy_rename (hρ : ρ.Carries h g roots) {v : Value} (hv : h.Reached roots v) :
    isTruthy g (v.rename ρ) = isTruthy h v := by
  cases v with
  | list r => rw [rename_list, isTruthy, isTruthy, hρ.elements r hv, List.isEmpty_map]
  | _ => rfl

theorem length_rename (hρ : ρ.Carries h g roots) {v : Value} (hv : h.Reached roots v) :
    length g (v.rename ρ) = length h v := by
  cases v with
  | list r => exact congrArg Except.ok (length_elements_rename hρ hv)
  | _ => rfl

theorem contains_rename (hρ : ρ.Carries h g roots) {v w : Value} (hv : h.Reached roots v)
    (hw : h.Reached roots w) : contains g (v.rename ρ) (w.rename ρ) = contains h v w := by
  cases v with
  | list r =>
    rw [rename_list, contains, contains, hρ.elements r hv, List.any_map]
    congr 1
    rw [Bool.eq_iff_iff, List.any_eq_true, List.any_eq_true]
    refine exists_congr fun v => and_congr_right fun hm => ?_
    rw [Function.comp_apply, equals_rename hρ (hv.step hm) hw]
  | _ => cases w <;> rfl

end Walks

/-- Two values, each in its own store, give the same answers about themselves. -/
structure LooksAlike (h g : Store) (v v' : Value) : Prop where
  repr : v'.repr g = v.repr h
  display : v'.display g = v.display h
  debug : v'.debug g = v.debug h
  isTruthy : v'.isTruthy g = v.isTruthy h
  length : v'.length g = v.length h

/-- Two pairs of values, each in its own store, give the same answers about each other. -/
structure RelatesAlike (h g : Store) (v w v' w' : Value) : Prop where
  equals : v'.equals g w' = v.equals h w
  strictEq : v'.strictEq g w' = v.strictEq h w
  isSame : v.kind = .list → w.kind = .list → v'.isSame w' = v.isSame w
  order : v'.compareValues g w' = v.compareValues h w
  lessThan : v'.lessThan g w' = v.lessThan h w
  contains : v'.contains g w' = v.contains h w

/-- No answer depends on the names of lists, on the tags of texts and byte strings, or on what else
a store holds: a renaming that carries what is reached keeps them all, faults included. -/
theorem answers_rename {ρ : Renaming} {h g : Store} {roots : List Value}
    (hρ : ρ.Carries h g roots) {v w : Value} (hv : v ∈ roots) (hw : w ∈ roots) :
    LooksAlike h g v (v.rename ρ) ∧ RelatesAlike h g v w (v.rename ρ) (w.rename ρ) := by
  have hv : h.Reached roots v := reached_of_mem hv
  have hw : h.Reached roots w := reached_of_mem hw
  refine ⟨⟨repr_rename hρ hv, display_rename hρ hv, debug_rename hρ hv, isTruthy_rename hρ hv,
    length_rename hρ hv⟩, ⟨equals_rename hρ hv hw, strictEq_rename hρ hv hw, ?_,
    compareValues_rename hρ hv hw, ?_, contains_rename hρ hv hw⟩⟩
  · intro hkv hkw
    obtain ⟨r, rfl⟩ := kind_eq_list_iff.1 hkv
    obtain ⟨s, rfl⟩ := kind_eq_list_iff.1 hkw
    rw [Bool.eq_iff_iff, isSame_iff, isSame_iff, rename_list, rename_list, list.injEq, list.injEq]
    exact list_eq_iff hρ hv hw
  · rw [lessThan, lessThan, compareValues_rename hρ hv hw]

/-- Two lists that hold each other. -/
def tangle : Store :=
  ⟨#[[.list ⟨1⟩, .int 1, .text ⟨0, "a"⟩], [.list ⟨0⟩, .bool true, .text ⟨1, "a"⟩]], 2⟩

/-- The same two lists in the other order, between lists that have nothing to do with them. -/
def tangleMoved : Store :=
  ⟨#[[.none], [.list ⟨3⟩, .bool true, .text ⟨5, "a"⟩], [.list ⟨2⟩],
    [.list ⟨1⟩, .int 1, .text ⟨5, "a"⟩]], 6⟩

/-- Keeps the two lists apart and no others. -/
def tangleRenaming : Renaming := ⟨fun r => ⟨3 - 2 * r.id⟩, fun _ => 5⟩

theorem tangleRenaming_carries :
    tangleRenaming.Carries tangle tangleMoved [.list ⟨0⟩, .list ⟨1⟩] := by
  have hreached : ∀ r, tangle.Reached [.list ⟨0⟩, .list ⟨1⟩] (.list r) → r = ⟨0⟩ ∨ r = ⟨1⟩ := by
    intro r hr
    have hlist := Reached.induction (P := fun v => ∀ s ∈ v.list?, s = ⟨0⟩ ∨ s = ⟨1⟩) (by decide) (by
      intro s hs
      rcases hs s rfl with rfl | rfl
      · decide
      · decide) hr
    exact hlist r rfl
  refine ⟨?_, ?_⟩
  · intro r s hr hs
    rcases hreached r hr with rfl | rfl <;> rcases hreached s hs with rfl | rfl <;> decide
  · intro r hr
    rcases hreached r hr with rfl | rfl
    · rfl
    · rfl

theorem answers_rename_tangle :
    tangleRenaming.Carries tangle tangleMoved [.list ⟨0⟩, .list ⟨1⟩] ∧
      repr tangleMoved (.list ⟨3⟩) = "[[[...], True, 'a'], 1, 'a']" ∧
      equals tangleMoved (.list ⟨3⟩) (.list ⟨1⟩) = true ∧
      strictEq tangleMoved (.list ⟨3⟩) (.list ⟨1⟩) = false ∧
      compareValues tangleMoved (.list ⟨3⟩) (.list ⟨1⟩) = .ok .eq ∧
      contains tangleMoved (.list ⟨3⟩) (.list ⟨1⟩) = .ok true := by
  have hcarries := tangleRenaming_carries
  obtain ⟨hlooks, hrelates⟩ := answers_rename hcarries (v := .list ⟨0⟩) (w := .list ⟨1⟩) (by decide)
    (by decide)
  refine ⟨hcarries, ?_, ?_, ?_, ?_, ?_⟩
  · exact hlooks.repr.trans (by decide +kernel)
  · exact hrelates.equals.trans (by decide +kernel)
  · exact hrelates.strictEq.trans (by decide +kernel)
  · exact hrelates.order.trans (by decide +kernel)
  · exact hrelates.contains.trans (by decide +kernel)

end Value

end SharedValues
