import SharedValues.Proofs.Text.Encoding
import SharedValues.Value.Operators

/-!
# Containment of sequences

A byte string or a text contains another exactly when it is the other between two more, either of
which may be empty. Byte strings are compared part by part, and the parts never have length zero.
Texts are searched byte by byte, with the same answer as if their characters were searched.
-/

namespace SharedValues.Value

section Search

variable {α : Type}

/-- The windows of a length are the parts that have it. -/
theorem mem_windows?_iff {size : Nat} {xs : List α} {parts : List (List α)}
    (hparts : windows? size xs = some parts) {part : List α} :
    part ∈ parts ↔ part.length = size ∧ part <:+: xs := by
  have hsize : size ≠ 0 := by
    rintro rfl
    cases hparts
  rw [windows?, if_neg hsize, Option.some.injEq] at hparts
  subst hparts
  rw [List.mem_map]
  constructor
  · rintro ⟨start, hstart, rfl⟩
    rw [List.mem_range] at hstart
    refine ⟨?_, (List.take_prefix size _).isInfix.trans (List.drop_suffix start xs).isInfix⟩
    rw [List.length_take, List.length_drop]
    omega
  · rintro ⟨hlength, before, after, rfl⟩
    refine ⟨before.length, ?_, ?_⟩
    · rw [List.mem_range]
      simp only [List.length_append]
      omega
    · rw [List.append_assoc, List.drop_left, ← hlength, List.take_left]

variable [BEq α] [LawfulBEq α]

/-- The comparison with all parts ends with an answer, and the answer is right. -/
theorem exists_hasWindow?_eq_some (needle xs : List α) :
    ∃ found, hasWindow? needle xs = some found ∧ (found = true ↔ needle <:+: xs) := by
  cases needle with
  | nil => exact ⟨true, rfl, by simp⟩
  | cons a rest =>
    have hsize : (a :: rest).length ≠ 0 := by simp
    have hparts : windows? (a :: rest).length xs = some _ := if_neg hsize
    refine ⟨_, by rw [hasWindow?, hparts]; rfl, ?_⟩
    rw [List.any_eq_true]
    constructor
    · rintro ⟨part, hpart, hequal⟩
      rw [← eq_of_beq hequal]
      exact ((mem_windows?_iff hparts).1 hpart).2
    · intro hpart
      exact ⟨_, (mem_windows?_iff hparts).2 ⟨rfl, hpart⟩, beq_self_eq_true _⟩

theorem occursIn_eq_true_iff {needle xs : List α} : occursIn needle xs = true ↔ needle <:+: xs := by
  induction xs with
  | nil => simp [occursIn]
  | cons a rest ih =>
    rw [occursIn, Bool.or_eq_true, ih, List.isPrefixOf_iff_prefix, List.infix_cons_iff]

end Search

/-- An answer to whether a sequence stands inside another without a gap. -/
structure Located {α : Type} (needle xs : List α) (found : Bool) : Prop where
  between : found = true ↔ ∃ before after, xs = before ++ needle ++ after
  of_empty : needle = [] → found = true
  of_longer : xs.length < needle.length → found = false

theorem located_of_isInfix_iff {α : Type} {needle xs : List α} {found : Bool}
    (hfound : found = true ↔ needle <:+: xs) : Located needle xs found := by
  refine ⟨?_, ?_, ?_⟩
  · rw [hfound]
    exact exists_congr fun before => exists_congr fun after => eq_comm
  · rintro rfl
    exact hfound.2 ⟨[], xs, rfl⟩
  · intro hlonger
    rw [← Bool.not_eq_true, hfound]
    intro hpart
    exact absurd hpart.length_le (Nat.not_le.2 hlonger)

/-- Containment of byte strings and of texts always answers, and it answers whether the one is
the other between two more: between bytes, and between characters. Only a cut into parts of length
zero has no result, and the comparison of byte strings always has one: it never asks for that cut. -/
theorem contains_locates (h : Store) :
    (∀ (size : Nat) (bytes : List UInt8), windows? size bytes = Option.none ↔ size = 0) ∧
    (∀ a b : Boxed (List UInt8), ∃ found, hasWindow? b.data a.data = some found ∧
      contains h (.bytes a) (.bytes b) = .ok found ∧ Located b.data a.data found) ∧
    ∀ a b : Boxed String, ∃ found, contains h (.text a) (.text b) = .ok found ∧
      Located b.data.toList a.data.toList found := by
  refine ⟨fun size bytes => windows?_eq_none_iff, ?_, ?_⟩
  · intro a b
    obtain ⟨found, hfound, hpart⟩ := exists_hasWindow?_eq_some b.data a.data
    refine ⟨found, hfound, ?_, located_of_isInfix_iff hpart⟩
    simp [contains, hasWindow, hfound]
  · intro a b
    refine ⟨_, rfl, located_of_isInfix_iff ?_⟩
    rw [occursIn_eq_true_iff, Text.utf8_isInfix_iff]

example : contains .empty (.text ⟨0, "naïve"⟩) (.text ⟨1, "ï"⟩) = .ok true ∧
    contains .empty (.bytes ⟨0, [1, 2, 3]⟩) (.bytes ⟨1, [1, 3]⟩) = .ok false := ⟨rfl, rfl⟩

end SharedValues.Value
