import SharedValues.Proofs.Method.Index

/-!
# The index of an insertion

An insertion moves an index that is out of range to the nearer end of the list, and it does so in
two places. An integer that is no word has become a fault by then, and only the sign in this fault
tells the two ends apart; a word is moved when it is measured against the length. In a list that has
no more elements than there are words the two together are one cut into the range from zero to the
length (`insertionPoint_eq`).
-/

namespace SharedValues

namespace Store

theorem write_write (h : Store) (r : ListRef) (vs ws : List Value) :
    (h.write r vs).write r ws = h.write r ws := by
  simp [write]

theorem write_elements {h : Store} {r : ListRef} (hr : h.Holds r) :
    h.write r (h.elements r) = h := by
  have hid : r.id < h.cells.size := hr
  have hsame : h.cells.setIfInBounds r.id (h.elements r) = h.cells := by
    simp [elements, hid, Array.setIfInBounds]
  rw [write, hsame]

end Store

namespace Method

open InPlace

variable {h : Store} {r : ListRef} {i : Value} {n : Int}

/-- The word that an insertion takes for an integer: the nearer end if it is no word itself. -/
def wordFor (n : Int) : Int := if fitsWord n then n else if n < 0 then 0 else 2 ^ 63 - 1

theorem insertionIndex_of_numeric? (hi : i.numeric? = some n) :
    insertionIndex h r i = .ok (wordFor n) := by
  by_cases hword : fitsWord n = true
  · rw [insertionIndex, wordIndex_of_fitsWord hi hword, wordFor, if_pos hword]
  · -- what is cut off at 128 bits keeps its sign
    have hsign : max (-2 ^ 127) (min n (2 ^ 127 - 1)) < 0 ↔ n < 0 := by omega
    rw [insertionIndex, wordIndex_of_not_fitsWord hi hword, wordFor, if_neg hword, missing]
    simp only [hsign]
    rfl

theorem insertionIndex_of_not_numeric? (hi : i.numeric? = none) :
    insertionIndex h r i = .error (.wrongReceiver "list index" "int" i.typeName) := by
  rw [insertionIndex, wordIndex_of_not_numeric? hi]

/-- The place for a word and the word for an integer make one cut. -/
theorem insertionPoint_eq {length : Nat} (hlen : length ≤ 2 ^ 63 - 1) (n : Int) :
    Store.insertionPoint length (wordFor n) = (max 0 (min n length)).toNat := by
  rw [Store.insertionPoint, wordFor]
  split
  · omega
  · rename_i hword
    rw [fitsWord_iff] at hword
    split
    · omega
    · omega

theorem insert_list (i v : Value) :
    insert h (.list r) i v = insertionIndex h r i >>= fun n => .ok (h.insert r n v) := rfl

theorem insert_list_of_numeric? (hlen : h.length r ≤ 2 ^ 63 - 1) (hi : i.numeric? = some n)
    (v : Value) :
    insert h (.list r) i v =
      .ok (h.write r ((h.elements r).take (max 0 (min n (h.length r))).toNat ++
        v :: (h.elements r).drop (max 0 (min n (h.length r))).toNat)) := by
  rw [← insertionPoint_eq hlen n, insert_list, insertionIndex_of_numeric? hi]
  rfl

theorem exists_insert_eq_error_iff (on i v : Value) :
    (∃ fault, insert h on i v = .error fault) ↔ on.list? = none ∨ i.numeric? = none := by
  cases hon : on.list? with
  | none =>
    refine iff_of_true ⟨.wrongReceiver "insert" "list" on.typeName, ?_⟩ (Or.inl rfl)
    cases on with
    | list => cases hon
    | _ => rfl
  | some r =>
    obtain rfl := Value.list?_eq_some_iff.1 hon
    cases hi : i.numeric? with
    | none =>
      refine iff_of_true ⟨.wrongReceiver "list index" "int" i.typeName, ?_⟩ (Or.inr rfl)
      rw [insert_list, insertionIndex_of_not_numeric? hi]
      rfl
    | some n =>
      refine iff_of_false ?_ (by simp)
      rintro ⟨fault, hfault⟩
      rw [insert_list, insertionIndex_of_numeric? hi] at hfault
      cases hfault

/-- Removing at a place that a word can name, with what stands before and behind it. -/
theorem pop_of_split {front back : List Value} {v : Value}
    (hsplit : h.elements r = front ++ v :: back) (hlen : front.length ≤ 2 ^ 63 - 1)
    (hi : i.numeric? = some (front.length : Int)) :
    pop h (.list r) (some i) = .ok (v, h.write r (front ++ back)) := by
  have hword : fitsWord (front.length : Int) = true := by
    rw [fitsWord_iff]
    omega
  have hk : front.length < (h.elements r).length := by
    rw [hsplit, List.length_append, List.length_cons]
    omega
  have hget : (h.elements r).get ⟨front.length, hk⟩ = v := by
    simp only [List.get_eq_getElem, hsplit, List.getElem_append_right (Nat.le_refl _), Nat.sub_self,
      List.getElem_cons_zero]
  have herase : (h.elements r).eraseIdx front.length = front ++ back := by
    rw [hsplit, List.eraseIdx_append_of_length_le (Nat.le_refl _), Nat.sub_self,
      List.eraseIdx_cons_zero]
  have hplace := popPlace_of_fin ⟨front.length, hk⟩
  rw [pop_list, wordIndex_of_fitsWord hi hword, ← hget, ← herase]
  exact congrArg (Except.map _) hplace

/-- An insertion takes every integer for its place, cut into the range from zero to the length, and
changes no other list. Removing at this place undoes it. Only a receiver that is no list and an
index that is no number are refused. -/
theorem insert_cuts_index (h : Store) (v : Value) :
    (∀ (r : ListRef) (i : Value) (n : Int), h.Holds r → h.length r ≤ 2 ^ 63 - 1 →
      i.numeric? = some n → ∃ (k : Nat) (h' : Store), (k : Int) = max 0 (min n (h.length r)) ∧
        insert h (.list r) i v = .ok h' ∧
        h'.elements r = (h.elements r).take k ++ [v] ++ (h.elements r).drop k ∧
        (∀ s, s ≠ r → h'.elements s = h.elements s) ∧
        ∀ j : Value, j.numeric? = some (k : Int) → pop h' (.list r) (some j) = .ok (v, h)) ∧
      ∀ on i, (∃ fault, insert h on i v = .error fault) ↔ on.list? = none ∨ i.numeric? = none := by
  refine ⟨?_, fun on i => exists_insert_eq_error_iff on i v⟩
  intro r i n hr hlen hi
  have hcut : ((max 0 (min n (h.length r))).toNat : Int) = max 0 (min n (h.length r)) := by omega
  have hinsert := insert_list_of_numeric? hlen hi v
  generalize (max 0 (min n (h.length r))).toNat = k at hcut hinsert
  have helements :=
    Store.elements_write_self hr ((h.elements r).take k ++ v :: (h.elements r).drop k)
  refine ⟨k, _, hcut, hinsert, ?_, fun s hs => Store.elements_write_of_ne hs _, fun j hj => ?_⟩
  · rw [helements, List.append_cons]
  · have hfront : ((h.elements r).take k).length = k := by
      rw [List.length_take, ← Store.length_eq]
      omega
    rw [pop_of_split helements (by omega) (by rw [hfront, hj]), Store.write_write,
      List.take_append_drop, Store.write_elements hr]

theorem insert_cuts_index_drawers :
    drawers.Holds ⟨0⟩ ∧ drawers.length ⟨0⟩ ≤ 2 ^ 63 - 1 ∧
      (∃ h', insert drawers (.list ⟨0⟩) (.int (2 ^ 200)) (.list ⟨0⟩) = .ok h' ∧
        h'.elements ⟨0⟩ = drawers.elements ⟨0⟩ ++ [.list ⟨0⟩] ∧
        pop h' (.list ⟨0⟩) (some (.int 3)) = .ok (.list ⟨0⟩, drawers)) ∧
      ∃ fault, insert drawers (.int 0) (.int 0) .none = .error fault := by
  have hheld : drawers.Holds ⟨0⟩ := by decide
  have hlen : drawers.length ⟨0⟩ ≤ 2 ^ 63 - 1 := by decide
  obtain ⟨k, h', hk, hinsert, helements, -, hpop⟩ :=
    (insert_cuts_index drawers (.list ⟨0⟩)).1 ⟨0⟩ (.int (2 ^ 200)) (2 ^ 200) hheld hlen rfl
  have hend : (max 0 (min (2 ^ 200) (drawers.length ⟨0⟩)) : Int) = 3 := by decide
  obtain rfl : k = 3 := by omega
  exact ⟨hheld, hlen, ⟨h', hinsert, helements, hpop (.int 3) rfl⟩,
    ((insert_cuts_index drawers .none).2 (.int 0) (.int 0)).2 (Or.inl rfl)⟩

end Method

end SharedValues
