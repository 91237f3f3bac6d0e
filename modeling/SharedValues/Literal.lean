import SharedValues.Text.Character
import SharedValues.Text.Digits

/-!
# Literals

The literal of a text stands between quotes and escapes what cannot be shown. The quote is `'`,
unless the text has a `'` and no `"`: then it is `"`. The literal of a byte string is the letter
`b` and the literal of the text of its bytes, of which only ASCII is shown.

`read` undoes a literal: it takes the first character as the quote, stops at the first quote that
is not escaped, and hands back what follows the literal.
-/

namespace SharedValues.Literal

open Digits Text

/-- The quote of a literal with this content. -/
def quoteFor (cs : List Char) : Char :=
  if '\'' ∈ cs ∧ '"' ∉ cs then '"' else '\''

/-- The escape of a character by its code: two, four or eight digits, as few as hold the code. -/
def escapeCode (c : Char) : List Char :=
  if c.toNat < 0x100 then '\\' :: 'x' :: hexFixed 2 c.toNat
  else if c.toNat < 0x10000 then '\\' :: 'u' :: hexFixed 4 c.toNat
  else '\\' :: 'U' :: hexFixed 8 c.toNat

theorem exists_escapeCode_eq (c : Char) : ∃ letter ∈ ['x', 'u', 'U'], ∃ width,
    escapeCode c = '\\' :: letter :: hexFixed width c.toNat := by
  unfold escapeCode
  split
  · exact ⟨'x', by simp, 2, rfl⟩
  · split
    · exact ⟨'u', by simp, 4, rfl⟩
    · exact ⟨'U', by simp, 8, rfl⟩

/-- How a character is written inside a literal; `shown` says which characters may stand for
themselves. -/
def escape (shown : Char → Bool) (quote c : Char) : List Char :=
  if c = '\\' then ['\\', '\\']
  else if c = '\n' then ['\\', 'n']
  else if c = '\r' then ['\\', 'r']
  else if c = '\t' then ['\\', 't']
  else if c = quote then ['\\', quote]
  else if shown c then [c]
  else escapeCode c

/-- The characters that are written as a backslash and a letter, each with its letter. -/
def letters : List (Char × Char) := [('\\', '\\'), ('\n', 'n'), ('\r', 'r'), ('\t', 't')]

/-- The ways in which a character is written inside a literal. -/
inductive Written (shown : Char → Bool) (quote c : Char) : List Char → Prop where
  | letter {d : Char} : (c, d) ∈ letters → Written shown quote c ['\\', d]
  | quote : c = quote → Written shown quote c ['\\', quote]
  | shown : c ≠ '\\' → c ≠ quote → shown c = true → Written shown quote c [c]
  | code : c ≠ quote → Written shown quote c (escapeCode c)

theorem written_escape (shown : Char → Bool) (quote c : Char) :
    Written shown quote c (escape shown quote c) := by
  unfold escape
  split
  · exact .letter (by simp [letters, ‹c = '\\'›])
  split
  · exact .letter (by simp [letters, ‹c = '\n'›])
  split
  · exact .letter (by simp [letters, ‹c = '\r'›])
  split
  · exact .letter (by simp [letters, ‹c = '\t'›])
  split
  · exact .quote ‹c = quote›
  split
  · exact .shown ‹¬ c = '\\'› ‹¬ c = quote› ‹shown c = true›
  · exact .code ‹¬ c = quote›

/-- The literal with this content between its quotes. -/
def quoted (shown : Char → Bool) (cs : List Char) : List Char :=
  quoteFor cs :: (cs.flatMap (escape shown (quoteFor cs)) ++ [quoteFor cs])

/-- The literal of a text. -/
def ofText (s : String) : List Char := quoted isPrintable s.toList

/-- The character whose code is a byte. -/
def byteChar (b : UInt8) : Char := Char.ofNat b.toNat

/-- The literal of a byte string. -/
def ofBytes (bs : List UInt8) : List Char := 'b' :: quoted isPlain (bs.map byteChar)

/-! ### Reading -/

/-- The character of a code point, if it is one. -/
def charOfCode? (code : Nat) : Option Char :=
  if code.isValidChar then some (Char.ofNat code) else none

/-- Where a reader stands inside a literal. -/
inductive Position where
  /-- Between two characters. -/
  | between
  /-- After a backslash. -/
  | escaped
  /-- Inside an escape by code, with this many digits still to come. -/
  | digits (left code : Nat)
deriving DecidableEq, Repr

/-- Puts a character that has been read in front of what is read after it. -/
def andThen (c : Char) (rest : Option (List Char × List Char)) : Option (List Char × List Char) :=
  rest.map fun p => (c :: p.1, p.2)

/-- Reads on from a position up to the closing quote. -/
def readFrom (quote : Char) : Position → List Char → Option (List Char × List Char)
  | _, [] => none
  | .between, c :: rest =>
    if c = quote then some ([], rest)
    else if c = '\\' then readFrom quote .escaped rest
    else andThen c (readFrom quote .between rest)
  | .escaped, c :: rest =>
    if c = '\\' ∨ c = quote then andThen c (readFrom quote .between rest)
    else if c = 'n' then andThen '\n' (readFrom quote .between rest)
    else if c = 'r' then andThen '\r' (readFrom quote .between rest)
    else if c = 't' then andThen '\t' (readFrom quote .between rest)
    else if c = 'x' then readFrom quote (.digits 2 0) rest
    else if c = 'u' then readFrom quote (.digits 4 0) rest
    else if c = 'U' then readFrom quote (.digits 8 0) rest
    else none
  | .digits left code, c :: rest =>
    match hexValue? c with
    | none => none
    | some d =>
      if left ≤ 1 then
        match charOfCode? (16 * code + d) with
        | none => none
        | some e => andThen e (readFrom quote .between rest)
      else readFrom quote (.digits (left - 1) (16 * code + d)) rest

/-- Reads a literal: its content, and what follows it. -/
def read? : List Char → Option (List Char × List Char)
  | [] => none
  | quote :: rest => readFrom quote .between rest

/-- The byte whose value is the code of a character. -/
def charByte? (c : Char) : Option UInt8 :=
  if c.toNat < 0x100 then some (UInt8.ofNat c.toNat) else none

/-- Reads the literal of a byte string: its bytes, and what follows it. -/
def readBytes? : List Char → Option (List UInt8 × List Char)
  | 'b' :: rest =>
    match read? rest with
    | none => none
    | some (cs, after) => (cs.mapM charByte?).map fun bs => (bs, after)
  | _ => none

end SharedValues.Literal
