import SharedValues.Text.Digits
import SharedValues.Text.Unicode

/-!
# Characters

A character is printable unless it is a control, a format character, a separator other than the
space, or for private use. Code points to which no character is assigned count as printable.

A line in a message stands between double quotes. There less is shown as it is: a combining mark
would hide behind the character before it, and a code point without a character has nothing to show.

A text is kept as the UTF-8 encodings of its characters, one after the other, and is searched byte
by byte.
-/

namespace SharedValues.Text

/-- Whether a character is printable. -/
def isPrintable (c : Char) : Bool :=
  !(inRanges controls c.toNat || inRanges separators c.toNat || inRanges formats c.toNat ||
    inRanges privateUse c.toNat)

/-- Whether a character is an ASCII character other than a control. -/
def isPlain (c : Char) : Bool := decide (0x20 ≤ c.toNat ∧ c.toNat ≤ 0x7e)

theorem isPrintable_of_isPlain {c : Char} (hc : isPlain c = true) : isPrintable c = true := by
  simp only [isPlain, decide_eq_true_eq] at hc
  simp [isPrintable, inRanges, controls, separators, formats, privateUse]
  omega

/-! ### Quoted lines -/

/-- Whether a character is shown as it is in a quoted line. -/
def isShown (c : Char) : Bool :=
  isPrintable c && !(inRanges marks c.toNat || inRanges unassigned c.toNat)

/-- A character of a quoted line. -/
def escapeInLine (c : Char) : List Char :=
  if c = '\x00' then ['\\', '0']
  else if c = '\t' then ['\\', 't']
  else if c = '\r' then ['\\', 'r']
  else if c = '\n' then ['\\', 'n']
  else if c = '"' then ['\\', '"']
  else if c = '\\' then ['\\', '\\']
  else if isShown c then [c]
  else '\\' :: 'u' :: '\x7b' :: (Digits.hex c.toNat ++ ['\x7d'])

/-- A line between double quotes, with escapes for what cannot be seen. -/
def quotedLine (s : String) : String :=
  String.ofList ('"' :: (s.toList.flatMap escapeInLine ++ ['"']))

/-! ### Bytes -/

/-- The bytes of a sequence of characters. -/
def utf8 (cs : List Char) : List UInt8 := cs.flatMap String.utf8EncodeChar

@[simp] theorem utf8_nil : utf8 [] = [] := rfl

theorem utf8_cons (c : Char) (cs : List Char) :
    utf8 (c :: cs) = String.utf8EncodeChar c ++ utf8 cs := by
  simp [utf8]

theorem utf8_append (cs ds : List Char) : utf8 (cs ++ ds) = utf8 cs ++ utf8 ds := by
  simp [utf8]

end SharedValues.Text
