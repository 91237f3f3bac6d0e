import Mathlib.Algebra.Group.Nat.Defs
import SharedValues.Literal

/-!
# Literals are read back

Reading a literal gives its content back and leaves alone whatever follows it. The reader goes one
character at a time, so the statement is about the position it has reached: from between two
characters, the escape of a character brings it there again with that character read.
-/

namespace SharedValues.Literal

open Digits Text

theorem quoteFor_eq (cs : List Char) : quoteFor cs = '\'' ∨ quoteFor cs = '"' := by
  unfold quoteFor
  split
  · exact Or.inr rfl
  · exact Or.inl rfl

theorem charOfCode?_toNat (c : Char) : charOfCode? c.toNat = some c := by
  have hvalid : c.toNat.isValidChar := c.valid
  rw [charOfCode?, if_pos hvalid, Char.ofNat_toNat]

section Code

variable (quote : Char)

/-- One digit that is not the last. -/
theorem readFrom_digits_cons (left acc d : Nat) (hd : d < 16) (rest : List Char) :
    readFrom quote (.digits (left + 2) acc) (Nat.digitChar d :: rest) =
      readFrom quote (.digits (left + 1) (16 * acc + d)) rest := by
  have hvalue : hexValue? (Nat.digitChar d) = some d := hexValue?_digitChar ⟨d, hd⟩
  have hleft : ¬ left + 2 ≤ 1 := by omega
  rw [readFrom, hvalue]
  simp [hleft]

/-- The digits before the last are added to the code. -/
theorem readFrom_digits_append (k left acc n : Nat) (rest : List Char) :
    readFrom quote (.digits (k + (left + 1)) acc) (hexFixed k n ++ rest) =
      readFrom quote (.digits (left + 1) (16 ^ k * acc + n % 16 ^ k)) rest := by
  induction k generalizing left n rest with
  | zero => simp [hexFixed, Nat.mod_one]
  | succ k ih =>
    have hwidth : k + 1 + (left + 1) = k + (left + 1 + 1) := by omega
    have hcode : 16 * (16 ^ k * acc + n / 16 % 16 ^ k) + n % 16 =
        16 ^ (k + 1) * acc + n % 16 ^ (k + 1) := by
      rw [Nat.pow_succ', Nat.mod_mul, Nat.mul_add, Nat.mul_assoc]
      omega
    rw [hexFixed, List.append_assoc, List.singleton_append, hwidth, ih,
      readFrom_digits_cons quote left _ _ (Nat.mod_lt n (by decide)), hcode]

/-- The digits of a character's code are read as that character. -/
theorem readFrom_hexFixed (k : Nat) {c : Char} (hc : c.toNat < 16 ^ (k + 1)) (rest : List Char) :
    readFrom quote (.digits (k + 1) 0) (hexFixed (k + 1) c.toNat ++ rest) =
      andThen c (readFrom quote .between rest) := by
  have hlast : hexValue? (Nat.digitChar (c.toNat % 16)) = some (c.toNat % 16) :=
    hexValue?_digitChar ⟨c.toNat % 16, Nat.mod_lt _ (by decide)⟩
  have hhigh : c.toNat / 16 % 16 ^ k = c.toNat / 16 := by
    apply Nat.mod_eq_of_lt
    rw [Nat.pow_succ] at hc
    exact Nat.div_lt_of_lt_mul (by rw [Nat.mul_comm]; exact hc)
  have hcode : 16 * (c.toNat / 16 % 16 ^ k) + c.toNat % 16 = c.toNat := by
    rw [hhigh]
    omega
  rw [hexFixed, List.append_assoc, List.singleton_append, readFrom_digits_append quote k 0,
    readFrom, hlast]
  simp [hcode, charOfCode?_toNat]

end Code

section Quoted

variable {quote : Char} (hquote : quote = '\'' ∨ quote = '"')

include hquote

theorem readFrom_escapeCode (c : Char) (rest : List Char) :
    readFrom quote .between (escapeCode c ++ rest) = andThen c (readFrom quote .between rest) := by
  have hmax : c.toNat < 0x110000 := by
    have hvalid : c.toNat.isValidChar := c.valid
    simp only [Nat.isValidChar] at hvalid
    omega
  unfold escapeCode
  split
  · rename_i hsmall
    have hread := readFrom_hexFixed quote 1 (c := c) (by simpa using hsmall) rest
    rcases hquote with rfl | rfl <;> simpa [readFrom] using hread
  · split
    · rename_i hmiddle
      have hread := readFrom_hexFixed quote 3 (c := c) (by simpa using hmiddle) rest
      rcases hquote with rfl | rfl <;> simpa [readFrom] using hread
    · have hread := readFrom_hexFixed quote 7 (c := c) (by omega) rest
      rcases hquote with rfl | rfl <;> simpa [readFrom] using hread

/-- The escapes of one character after the backslash. -/
theorem readFrom_backslash {c d : Char} (hshort : (c, d) ∈ letters ∨ (c = quote ∧ d = quote))
    (rest : List Char) :
    readFrom quote .between ('\\' :: d :: rest) = andThen c (readFrom quote .between rest) := by
  simp only [letters, List.mem_cons, Prod.mk.injEq, List.not_mem_nil, or_false] at hshort
  rcases hquote with rfl | rfl <;>
    rcases hshort with (⟨rfl, rfl⟩ | ⟨rfl, rfl⟩ | ⟨rfl, rfl⟩ | ⟨rfl, rfl⟩) | ⟨rfl, rfl⟩ <;>
      simp [readFrom]

theorem readFrom_escape (shown : Char → Bool) (c : Char) (rest : List Char) :
    readFrom quote .between (escape shown quote c ++ rest) =
      andThen c (readFrom quote .between rest) := by
  have hwritten := written_escape shown quote c
  generalize escape shown quote c = cs at hwritten ⊢
  cases hwritten with
  | letter hd => exact readFrom_backslash hquote (Or.inl hd) rest
  | quote hc => exact readFrom_backslash hquote (Or.inr ⟨hc, rfl⟩) rest
  | shown hslash hother _ => simp [readFrom, hslash, hother]
  | code _ => exact readFrom_escapeCode hquote c rest

theorem readFrom_flatMap_escape (shown : Char → Bool) (cs rest : List Char) :
    readFrom quote .between (cs.flatMap (escape shown quote) ++ quote :: rest) =
      some (cs, rest) := by
  induction cs with
  | nil => simp [readFrom]
  | cons c cs ih =>
    rw [List.flatMap_cons, List.append_assoc, readFrom_escape hquote, ih]
    rfl

end Quoted

theorem read?_quoted_append (shown : Char → Bool) (cs rest : List Char) :
    read? (quoted shown cs ++ rest) = some (cs, rest) := by
  have hread := readFrom_flatMap_escape (quoteFor_eq cs) shown cs rest
  simpa [read?, quoted] using hread

theorem read?_ofText_append (s : String) (rest : List Char) :
    read? (ofText s ++ rest) = some (s.toList, rest) :=
  read?_quoted_append isPrintable s.toList rest

theorem charByte?_byteChar (b : UInt8) : charByte? (byteChar b) = some b := by
  have hb : b.toNat < 0x100 := b.toNat_lt
  have hvalid : b.toNat.isValidChar := Or.inl (by omega)
  have hcode : (byteChar b).toNat = b.toNat := by
    rw [byteChar, Char.ofNat, dif_pos hvalid]
    rfl
  rw [charByte?, hcode, if_pos hb, UInt8.ofNat_toNat]

theorem readBytes?_ofBytes_append (bs : List UInt8) (rest : List Char) :
    readBytes? (ofBytes bs ++ rest) = some (bs, rest) := by
  have hbytes : (bs.map byteChar).mapM charByte? = some bs := by
    induction bs with
    | nil => rfl
    | cons b bs ih => simp [charByte?_byteChar, ih]
  have hread := read?_quoted_append isPlain (bs.map byteChar) rest
  simp [ofBytes, readBytes?, hread, hbytes]

end SharedValues.Literal
