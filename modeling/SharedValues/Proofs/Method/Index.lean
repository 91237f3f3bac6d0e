import Mathlib.Algebra.Group.Int.Defs
import Mathlib.Algebra.Group.Nat.Defs
import SharedValues.Proofs.Effect.InPlace

/-!
# The index of an element

A method that is given an index sees it pass through a word of 64 bits and a check against the
elements, each with a fault of its own. Together they do what one integer without bounds would do:
the call reaches the element of this number, and if there is none it fails with one fault that names
the integer, cut off only at 128 bits.

What a method does at the place it is given is a parameter (`actsAt_of_locate`). Removing differs in
one point: that there are no elements at all is noticed between the word and the check, so an empty
list refuses a word in another way than an integer that is no word.
-/

namespace SharedValues

/-- One element of a list has given way to others. All else is as before. -/
structure Store.Replaced (h : Store) (r : ListRef) (k : Nat) (x : Value) (new : List Value)
    (h' : Store) : Prop where
  elements : ∃ front back, front.length = k ∧ h.elements r = front ++ x :: back ∧
    h'.elements r = front ++ new ++ back
  others : ∀ s, s ≠ r → h'.elements s = h.elements s
  size : h'.size = h.size

namespace Method

open InPlace

/-- The fault of an integer that is not the number of an element. -/
def missing (length : Nat) (n : Int) : Fault :=
  .indexOutOfRange "list" (max (-2 ^ 127) (min n (2 ^ 127 - 1))) length

/-- The fault of an integer at which nothing can be removed. -/
def nothingToRemove (length : Nat) (n : Int) : Fault :=
  if length = 0 ∧ -2 ^ 63 ≤ n ∧ n < 2 ^ 63 then .emptyContainer "list" else missing length n

/-- A call takes its index as an integer without bounds, a truth value as zero or one. It succeeds
exactly at the numbers of elements, where it has done what `done` says. At other integers it fails
with `fault`, and any other kind of index is refused. -/
structure ActsAt {β : Type} (length : Nat) (call : Value → Except Fault β) (fault : Int → Fault)
    (done : Nat → β → Prop) : Prop where
  succeeds_iff : ∀ (i : Value) (n : Int), i.numeric? = some n →
    ((∃ b, call i = .ok b) ↔ 0 ≤ n ∧ n < length)
  acts : ∀ (i : Value) (n : Int) (b : β), i.numeric? = some n → call i = .ok b → done n.toNat b
  fails : ∀ (i : Value) (n : Int), i.numeric? = some n → ¬ (0 ≤ n ∧ n < length) →
    call i = .error (fault n)
  refuses : ∀ i, i.numeric? = none →
    call i = .error (.wrongReceiver "list index" "int" i.typeName)

/-! ### The index as a word -/

section Word

variable {i : Value} {n : Int}

theorem index_of_numeric? (hi : i.numeric? = some n) : index i = .ok n := by
  cases i with
  | bool | int =>
    cases hi
    rfl
  | _ => cases hi

theorem index_of_not_numeric? (hi : i.numeric? = none) :
    index i = .error (.wrongReceiver "list index" "int" i.typeName) := by
  cases i with
  | bool | int => cases hi
  | _ => rfl

theorem fitsWord_iff : fitsWord n = true ↔ -2 ^ 63 ≤ n ∧ n < 2 ^ 63 := by
  rw [fitsWord, decide_eq_true_iff]
  rfl

theorem outOfRange_saturate (h : Store) (r : ListRef) (n : Int) :
    h.outOfRange r (saturate n) = missing (h.length r) n := rfl

theorem missing_of_fitsWord (hn : fitsWord n = true) (length : Nat) :
    missing length n = .indexOutOfRange "list" n length := by
  rw [fitsWord_iff] at hn
  have hcut : max (-2 ^ 127) (min n (2 ^ 127 - 1)) = n := by omega
  rw [missing, hcut]

variable {h : Store} {r : ListRef}

theorem wordIndex_of_fitsWord (hi : i.numeric? = some n) (hn : fitsWord n = true) :
    wordIndex h r i = .ok n := by
  rw [wordIndex, index_of_numeric? hi]
  exact if_pos hn

theorem wordIndex_of_not_fitsWord (hi : i.numeric? = some n) (hn : ¬ fitsWord n = true) :
    wordIndex h r i = .error (missing (h.length r) n) := by
  rw [wordIndex, index_of_numeric? hi, ← outOfRange_saturate]
  exact if_neg hn

theorem wordIndex_of_not_numeric? (hi : i.numeric? = none) :
    wordIndex h r i = .error (.wrongReceiver "list index" "int" i.typeName) := by
  rw [wordIndex, index_of_not_numeric? hi]
  rfl

end Word

/-! ### One integer for word and check -/

section Locate

variable {β : Type} {h : Store} {r : ListRef}

/-- It is enough to say what the call does inside and what it does outside of the list. -/
theorem ActsAt.of_cases {length : Nat} {call : Value → Except Fault β} {fault : Int → Fault}
    {done : Nat → β → Prop}
    (hinside : ∀ (i : Value) (k : Nat), i.numeric? = some (k : Int) → k < length →
      ∃ b, call i = .ok b ∧ done k b)
    (houtside : ∀ (i : Value) (n : Int), i.numeric? = some n → ¬ (0 ≤ n ∧ n < length) →
      call i = .error (fault n))
    (hother : ∀ i, i.numeric? = none →
      call i = .error (.wrongReceiver "list index" "int" i.typeName)) :
    ActsAt length call fault done := by
  have hcases : ∀ (i : Value) (n : Int), i.numeric? = some n →
      ((0 ≤ n ∧ n < length) ∧ ∃ b, call i = .ok b ∧ done n.toNat b) ∨
        (¬ (0 ≤ n ∧ n < length) ∧ call i = .error (fault n)) := by
    intro i n hi
    by_cases hn : 0 ≤ n ∧ n < length
    · have hk : ((n.toNat : Nat) : Int) = n := Int.toNat_of_nonneg hn.1
      exact Or.inl ⟨hn, hinside i n.toNat (by rw [hk, hi]) (by omega)⟩
    · exact Or.inr ⟨hn, houtside i n hi hn⟩
  refine ⟨fun i n hi => ?_, fun i n b hi hb => ?_, houtside, hother⟩
  · rcases hcases i n hi with ⟨hn, b, hb, -⟩ | ⟨hn, hb⟩
    · exact iff_of_true ⟨b, hb⟩ hn
    · exact iff_of_false (by simp [hb]) hn
  · rcases hcases i n hi with ⟨-, b', hb', hdone⟩ | ⟨-, hb'⟩
    · rw [hb'] at hb
      cases hb
      exact hdone
    · rw [hb'] at hb
      cases hb

/-- A call that turns its index into a word, looks for the place of this number and acts there. In a
list with no more elements than there are words, every number of an element is a word. -/
theorem actsAt_of_locate (hlen : h.length r ≤ 2 ^ 63 - 1)
    {locate : Int → Except Fault (Fin (h.elements r).length)}
    {act : Fin (h.elements r).length → β} {fault : Int → Fault} {done : Nat → β → Prop}
    (hfound : ∀ k : Fin (h.elements r).length, locate (k.val : Int) = .ok k)
    (hmissing : ∀ n, fitsWord n = true → ¬ (0 ≤ n ∧ n < h.length r) → locate n = .error (fault n))
    (hbeyond : ∀ n, ¬ fitsWord n = true → fault n = missing (h.length r) n)
    (hdone : ∀ k, done k.val (act k)) :
    ActsAt (h.length r) (fun i => wordIndex h r i >>= fun n => (locate n).map act) fault done := by
  refine .of_cases (fun i k hi hk => ?_) (fun i n hi hn => ?_) (fun i hi => ?_)
  · have hword : fitsWord (k : Int) = true := by
      rw [fitsWord_iff]
      omega
    refine ⟨act ⟨k, hk⟩, ?_, hdone ⟨k, hk⟩⟩
    rw [wordIndex_of_fitsWord hi hword]
    exact congrArg (Except.map act) (hfound ⟨k, hk⟩)
  · by_cases hword : fitsWord n = true
    · rw [wordIndex_of_fitsWord hi hword]
      exact congrArg (Except.map act) (hmissing n hword hn)
    · rw [wordIndex_of_not_fitsWord hi hword, ← hbeyond n hword]
      rfl
  · rw [wordIndex_of_not_numeric? hi]
    rfl

theorem place_of_fin {vs : List Value} (k : Fin vs.length) : place vs (k.val : Int) = .ok k :=
  place_of_lt ⟨Int.natCast_nonneg _, Int.ofNat_lt.2 k.isLt⟩

theorem place_of_fitsWord {n : Int} (hword : fitsWord n = true)
    (hn : ¬ (0 ≤ n ∧ n < h.length r)) :
    place (h.elements r) n = .error (missing (h.length r) n) := by
  rw [place_of_not_lt hn, missing_of_fitsWord hword, Store.length_eq]

/-- The elements are looked at before the place. -/
theorem popPlace_of_fin {vs : List Value} (k : Fin vs.length) :
    popPlace vs (some (k.val : Int)) = .ok k := by
  have hne : vs ≠ [] := List.ne_nil_of_length_pos (Nat.zero_lt_of_lt k.isLt)
  rw [popPlace, dif_neg hne]
  exact place_of_fin k

theorem popPlace_of_fitsWord {n : Int} (hword : fitsWord n = true)
    (hn : ¬ (0 ≤ n ∧ n < h.length r)) :
    popPlace (h.elements r) (some n) = .error (nothingToRemove (h.length r) n) := by
  by_cases hempty : h.elements r = []
  · have hnone : h.length r = 0 := by rw [Store.length_eq, hempty, List.length_nil]
    rw [popPlace, dif_pos hempty, nothingToRemove, if_pos ⟨hnone, fitsWord_iff.1 hword⟩]
  · have hsome : h.length r ≠ 0 := mt List.length_eq_zero_iff.1 hempty
    rw [popPlace, dif_neg hempty, nothingToRemove, if_neg fun hnone => hsome hnone.1]
    exact place_of_fitsWord hword hn

theorem nothingToRemove_of_not_fitsWord {n : Int} (hword : ¬ fitsWord n = true) (length : Nat) :
    nothingToRemove length n = missing length n :=
  if_neg fun hnone => hword (fitsWord_iff.2 hnone.2)

end Locate

/-! ### The methods -/

section Methods

variable {h : Store} {r : ListRef}

theorem split_at (vs : List Value) (k : Fin vs.length) :
    vs = vs.take k.val ++ vs.get k :: vs.drop (k.val + 1) := by
  rw [List.get_eq_getElem, List.getElem_cons_drop, List.take_append_drop]

theorem replaced_write (k : Fin (h.elements r).length) (new : List Value) :
    h.Replaced r k.val ((h.elements r).get k) new
      (h.write r ((h.elements r).take k.val ++ new ++ (h.elements r).drop (k.val + 1))) := by
  have hheld : h.Holds r := Store.holds_of_mem_elements (List.get_mem (h.elements r) k)
  refine ⟨⟨_, _, ?_, split_at (h.elements r) k, Store.elements_write_self hheld _⟩,
    fun s hs => Store.elements_write_of_ne hs _, Store.size_write h r _⟩
  rw [List.length_take, Nat.min_eq_left (Nat.le_of_lt k.isLt)]

theorem get_list (i : Value) :
    get h (.list r) i =
      wordIndex h r i >>= fun n => (place (h.elements r) n).map (h.elements r).get := by
  simp only [get, receiver, ← get_eq_place]
  rfl

theorem set_list (i v : Value) :
    set h (.list r) i v =
      wordIndex h r i >>= fun n => (place (h.elements r) n).map fun k =>
        h.write r ((h.elements r).set k.val v) := by
  simp only [set, receiver, ← set_eq_place]
  rfl

theorem pop_list (i : Value) :
    pop h (.list r) (some i) =
      wordIndex h r i >>= fun n => (popPlace (h.elements r) (some n)).map fun k =>
        ((h.elements r).get k, h.write r ((h.elements r).eraseIdx k.val)) := by
  simp only [pop, receiver, ← pop_eq_popPlace]
  rfl

theorem get_actsAt (hlen : h.length r ≤ 2 ^ 63 - 1) :
    ActsAt (h.length r) (get h (.list r)) (missing (h.length r))
      fun k x => (h.elements r)[k]? = some x := by
  rw [funext get_list]
  exact actsAt_of_locate hlen place_of_fin (fun n => place_of_fitsWord) (fun n _ => rfl)
    fun k => List.getElem?_eq_getElem k.isLt

theorem set_actsAt (hlen : h.length r ≤ 2 ^ 63 - 1) (v : Value) :
    ActsAt (h.length r) (fun i => set h (.list r) i v) (missing (h.length r))
      fun k h' => ∃ x, h.Replaced r k x [v] h' := by
  rw [funext fun i => set_list i v]
  refine actsAt_of_locate hlen place_of_fin (fun n => place_of_fitsWord) (fun n _ => rfl)
    fun k => ⟨(h.elements r).get k, ?_⟩
  rw [List.set_eq_take_append_cons_drop, if_pos k.isLt, List.append_cons]
  exact replaced_write k [v]

theorem pop_actsAt (hlen : h.length r ≤ 2 ^ 63 - 1) :
    ActsAt (h.length r) (fun i => pop h (.list r) (some i)) (nothingToRemove (h.length r))
      fun k a => h.Replaced r k a.1 [] a.2 := by
  rw [funext pop_list]
  refine actsAt_of_locate hlen popPlace_of_fin (fun n => popPlace_of_fitsWord)
    (fun n hword => nothingToRemove_of_not_fitsWord hword _) fun k => ?_
  rw [List.eraseIdx_eq_take_drop_succ, ← List.append_nil (List.take _ _)]
  exact replaced_write k []

/-- The last element is the one at the number before the length, which is below zero if there is
none. -/
theorem pop_none_list (hlen : h.length r ≤ 2 ^ 63 - 1) :
    pop h (.list r) none = pop h (.list r) (some (.int ((h.length r : Int) - 1))) := by
  have hword : fitsWord ((h.length r : Int) - 1) = true := by
    rw [fitsWord_iff]
    omega
  have hplace : popPlace (h.elements r) none =
      popPlace (h.elements r) (some ((h.length r : Int) - 1)) := by
    by_cases hempty : h.elements r = []
    · rw [popPlace, popPlace, dif_pos hempty, dif_pos hempty]
    · have hpos : 0 < (h.elements r).length := List.length_pos_iff.2 hempty
      have hlast : (h.length r : Int) - 1 = (((h.elements r).length - 1 : Nat) : Int) := by
        rw [Store.length_eq]
        omega
      rw [hlast, popPlace_of_fin ⟨(h.elements r).length - 1, by omega⟩, popPlace, dif_neg hempty]
  rw [pop_list, wordIndex_of_fitsWord rfl hword]
  exact (pop_eq_popPlace h r none).trans (congrArg _ hplace)

end Methods

/-- Reading, replacing and removing take their index as an integer without bounds. They reach the
element of this number and no other, and fail with the integer itself, moved into 128 bits, where
there is none; an empty list has nothing to remove at any word. An index of another kind is refused
in every list, and a receiver that is no list before its index is looked at. -/
theorem methods_actAt (h : Store) (r : ListRef) (hlen : h.length r ≤ 2 ^ 63 - 1) :
    ActsAt (h.length r) (get h (.list r)) (missing (h.length r))
        (fun k x => (h.elements r)[k]? = some x) ∧
      (∀ v, ActsAt (h.length r) (fun i => set h (.list r) i v) (missing (h.length r))
        fun k h' => ∃ x, h.Replaced r k x [v] h') ∧
      ActsAt (h.length r) (fun i => pop h (.list r) (some i)) (nothingToRemove (h.length r))
        (fun k a => h.Replaced r k a.1 [] a.2) ∧
      pop h (.list r) none = pop h (.list r) (some (.int ((h.length r : Int) - 1))) ∧
      (h.elements r = [] → pop h (.list r) none = .error (.emptyContainer "list")) ∧
      ∀ on : Value, on.list? = none →
        (∀ i, get h on i = .error (.wrongReceiver "__getitem__" "list" on.typeName)) ∧
        (∀ i v, set h on i v = .error (.wrongReceiver "__setitem__" "list" on.typeName)) ∧
        ∀ i, pop h on i = .error (.wrongReceiver "pop" "list" on.typeName) := by
  refine ⟨get_actsAt hlen, set_actsAt hlen, pop_actsAt hlen, pop_none_list hlen, fun hempty => ?_,
    fun on hon => ?_⟩
  · have hlength : h.length r = 0 := by rw [Store.length_eq, hempty, List.length_nil]
    rw [pop_none_list hlen, (pop_actsAt hlen).fails _ _ rfl (by omega), hlength]
    rfl
  cases on with
  | list => cases hon
  | _ => exact ⟨fun _ => rfl, fun _ _ => rfl, fun _ => rfl⟩

/-- A list that is its own second element, and an empty one. -/
def drawers : Store := ⟨#[[.int 10, .list ⟨0⟩, .text ⟨0, "c"⟩], []], 1⟩

theorem methods_actAt_drawers :
    drawers.length ⟨0⟩ ≤ 2 ^ 63 - 1 ∧ drawers.length ⟨1⟩ ≤ 2 ^ 63 - 1 ∧
      (∃ x h', pop drawers (.list ⟨0⟩) (some (.bool true)) = .ok (x, h') ∧
        drawers.Replaced ⟨0⟩ 1 x [] h') ∧
      get drawers (.list ⟨0⟩) (.int (2 ^ 127)) =
        .error (.indexOutOfRange "list" (2 ^ 127 - 1) 3) ∧
      set drawers (.list ⟨0⟩) (.int (-1)) .none = .error (.indexOutOfRange "list" (-1) 3) ∧
      pop drawers (.list ⟨1⟩) (some (.int (2 ^ 63 - 1))) = .error (.emptyContainer "list") ∧
      pop drawers (.list ⟨1⟩) (some (.int (2 ^ 63))) =
        .error (.indexOutOfRange "list" (2 ^ 63) 0) ∧
      pop drawers (.list ⟨1⟩) (some .none) =
        .error (.wrongReceiver "list index" "int" "NoneType") := by
  have hfull : drawers.length ⟨0⟩ ≤ 2 ^ 63 - 1 := by decide
  have hempty : drawers.length ⟨1⟩ ≤ 2 ^ 63 - 1 := by decide
  obtain ⟨hget, hset, hpop, -⟩ := methods_actAt drawers ⟨0⟩ hfull
  obtain ⟨-, -, hpopEmpty, -⟩ := methods_actAt drawers ⟨1⟩ hempty
  obtain ⟨⟨x, h'⟩, hremoved⟩ := (hpop.succeeds_iff (.bool true) 1 rfl).2 (by decide)
  have hdone := hpop.acts (.bool true) 1 (x, h') rfl hremoved
  refine ⟨hfull, hempty, ⟨x, h', hremoved, hdone⟩, ?_, ?_, ?_, ?_, ?_⟩
  · exact hget.fails (.int (2 ^ 127)) (2 ^ 127) rfl (by decide)
  · exact (hset .none).fails (.int (-1)) (-1) rfl (by decide)
  · exact hpopEmpty.fails (.int (2 ^ 63 - 1)) (2 ^ 63 - 1) rfl (by decide)
  · exact hpopEmpty.fails (.int (2 ^ 63)) (2 ^ 63) rfl (by decide)
  · exact hpopEmpty.refuses .none rfl

end Method

end SharedValues
