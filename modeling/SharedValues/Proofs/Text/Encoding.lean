import Mathlib.Data.List.Infix
import SharedValues.Text.Character

/-!
# Where characters begin among their bytes

A text is found among the bytes of another exactly where its characters stand in it. Two facts make
bytes as good as characters. The encoding of a character ends where the next one begins, whatever
follows: so a text whose bytes begin with those of another begins with the other. And a first byte
is never found inside of an encoding: so where the bytes of a text begin, a character begins.
-/

namespace SharedValues.Text

open String UInt8

variable {c d : Char} {x y : List UInt8}

/-- The encoding of a character can be told from the bytes that it begins. -/
theorem utf8EncodeChar_append_inj (hxy : utf8EncodeChar c ++ x = utf8EncodeChar d ++ y) :
    c = d ∧ x = y := by
  have hdecode : ∀ (e : Char) (z : List UInt8),
      (utf8EncodeChar e ++ z).toByteArray.utf8DecodeChar? 0 = some e := by
    intro e z
    rw [List.toByteArray_append, ByteArray.utf8DecodeChar?_utf8EncodeChar_append]
  have hchar : c = d := Option.some.inj ((hdecode c x).symm.trans (hxy ▸ hdecode d y))
  subst hchar
  exact ⟨rfl, List.append_cancel_left hxy⟩

/-- A text whose bytes begin with those of another begins with the other. -/
theorem isPrefix_of_utf8 {cs ds : List Char} (hbytes : utf8 cs <+: utf8 ds) : cs <+: ds := by
  induction cs generalizing ds with
  | nil => exact ⟨ds, rfl⟩
  | cons c cs ih =>
    obtain ⟨x, hx⟩ := hbytes
    rw [utf8_cons, List.append_assoc] at hx
    cases ds with
    | nil => exact absurd (List.append_eq_nil_iff.1 hx).1 utf8EncodeChar_ne_nil
    | cons d ds =>
      rw [utf8_cons] at hx
      obtain ⟨rfl, hrest⟩ := utf8EncodeChar_append_inj hx
      exact (List.prefix_cons_inj c).2 (ih ⟨x, hrest⟩)

/-- A first byte inside of an encoding is where the encoding begins. -/
theorem eq_nil_of_isUTF8FirstByte {b : UInt8} (hb : b.IsUTF8FirstByte)
    (hc : utf8EncodeChar c = x ++ b :: y) : x = [] := by
  have hlt : x.length < (utf8EncodeChar c).length := by simp [hc]
  have hat : (utf8EncodeChar c)[x.length] = b := by simp [hc]
  have hzero : x.length = 0 := isUTF8FirstByte_getElem_utf8EncodeChar.1 (hat ▸ hb)
  exact List.eq_nil_of_length_eq_zero hzero

/-- A first byte among the bytes of a text is where a character begins. -/
theorem exists_split_of_isUTF8FirstByte {b : UInt8} (hb : b.IsUTF8FirstByte) {ds : List Char}
    (hds : utf8 ds = x ++ b :: y) : ∃ before after, ds = before ++ after ∧ utf8 after = b :: y := by
  induction ds generalizing x with
  | nil => simp at hds
  | cons d ds ih =>
    rw [utf8_cons] at hds
    have hlater : ∀ z, utf8 ds = z ++ b :: y →
        ∃ before after, d :: ds = before ++ after ∧ utf8 after = b :: y := by
      intro z hz
      obtain ⟨before, after, rfl, hafter⟩ := ih hz
      exact ⟨d :: before, after, rfl, hafter⟩
    rcases List.append_eq_append_iff.1 hds with ⟨z, -, hrest⟩ | ⟨z, hd, hrest⟩
    · exact hlater z hrest
    · -- The byte is inside of the first encoding, or right after it.
      cases z with
      | nil => exact hlater [] hrest.symm
      | cons b' z =>
        obtain ⟨rfl, rfl⟩ := List.cons.inj hrest
        obtain rfl := eq_nil_of_isUTF8FirstByte hb hd
        exact ⟨[], d :: ds, rfl, by rw [utf8_cons, hd]; rfl⟩

theorem exists_first_byte (c : Char) (cs : List Char) :
    ∃ b rest, utf8 (c :: cs) = b :: rest ∧ b.IsUTF8FirstByte := by
  obtain ⟨b, rest, hbytes⟩ := List.exists_cons_of_ne_nil (utf8EncodeChar_ne_nil (c := c))
  have hfirst := isUTF8FirstByte_getElem_zero_utf8EncodeChar (c := c)
  refine ⟨b, rest ++ utf8 cs, by rw [utf8_cons, hbytes]; rfl, ?_⟩
  simpa [hbytes] using hfirst

/-- The bytes of a text are a part of the bytes of another exactly when its characters are a part of
the characters of the other. -/
theorem utf8_isInfix_iff {cs ds : List Char} : utf8 cs <:+: utf8 ds ↔ cs <:+: ds := by
  constructor
  · intro hbytes
    cases cs with
    | nil => exact ⟨[], ds, rfl⟩
    | cons c cs =>
      obtain ⟨x, y, hx⟩ := hbytes
      obtain ⟨b, rest, hfirst, hb⟩ := exists_first_byte c cs
      rw [hfirst, List.append_assoc, List.cons_append] at hx
      obtain ⟨before, after, rfl, hafter⟩ := exists_split_of_isUTF8FirstByte hb hx.symm
      have hbegins : utf8 (c :: cs) <+: utf8 after := ⟨y, by rw [hfirst, hafter]; rfl⟩
      exact List.infix_append_of_infix_right (isPrefix_of_utf8 hbegins).isInfix
  · rintro ⟨before, after, rfl⟩
    exact ⟨utf8 before, utf8 after, by rw [utf8_append, utf8_append]⟩

end SharedValues.Text
