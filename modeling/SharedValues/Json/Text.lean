import SharedValues.Text.Digits

/-!
# Texts of JSON documents

A text of a document is a sequence of pieces: characters, and units of sixteen bits written by their
code. Two units of the surrogate ranges, a high one and then a low one, stand for one character; a
surrogate without its partner stands for none, and then the text has no content.
-/

namespace SharedValues.Json

/-- A piece of a text. -/
inductive Piece where
  | char (c : Char)
  | unit (code : Nat)
deriving DecidableEq, Repr

/-- Whether a unit is the first half of a pair. -/
def isHigh (code : Nat) : Bool := decide (0xd800 ≤ code ∧ code < 0xdc00)

/-- Whether a unit is the second half of a pair. -/
def isLow (code : Nat) : Bool := decide (0xdc00 ≤ code ∧ code < 0xe000)

/-- The character of a pair of units. -/
def pairChar (high low : Nat) : Char :=
  Char.ofNat (0x10000 + 0x400 * (high - 0xd800) + (low - 0xdc00))

/-- The characters of a text. -/
def content? : List Piece → Option (List Char)
  | [] => some []
  | .char c :: rest => (content? rest).map (c :: ·)
  | .unit code :: rest =>
    if isHigh code then
      match rest with
      | .unit low :: rest =>
        if isLow low then (content? rest).map (pairChar code low :: ·) else none
      | _ => none
    else if isLow code then none
    else (content? rest).map (Char.ofNat code :: ·)

/-- How a piece is written: quotes, backslashes and controls are escaped. -/
def writePiece : Piece → List Char
  | .unit code => '\\' :: 'u' :: Digits.hexFixed 4 code
  | .char c =>
    if c = '"' then ['\\', '"']
    else if c = '\\' then ['\\', '\\']
    else if c = '\x08' then ['\\', 'b']
    else if c = '\x0c' then ['\\', 'f']
    else if c = '\n' then ['\\', 'n']
    else if c = '\r' then ['\\', 'r']
    else if c = '\t' then ['\\', 't']
    else if c.toNat < 0x20 then '\\' :: 'u' :: Digits.hexFixed 4 c.toNat
    else [c]

/-- A text between its quotes. -/
def writeText (pieces : List Piece) : List Char :=
  '"' :: (pieces.flatMap writePiece ++ ['"'])

end SharedValues.Json
