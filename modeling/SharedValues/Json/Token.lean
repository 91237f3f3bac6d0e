import SharedValues.Json.Text

/-!
# Tokens of JSON documents

A document is a sequence of tokens with blanks between them. The scanner reads one character at a
time: `step` says what a character does to its position, and which tokens it completes.
-/

namespace SharedValues.Json

/-- A token of a document. -/
inductive Token where
  | openBrace
  | closeBrace
  | openBracket
  | closeBracket
  | colon
  | comma
  | null
  | bool (b : Bool)
  | number (lexeme : List Char)
  | text (pieces : List Piece)
deriving DecidableEq, Repr

/-! ### Numbers -/

/-- Digits up to the end, at least one. -/
def isDigits (cs : List Char) : Bool := !cs.isEmpty && cs.all Char.isDigit

/-- Nothing, or an exponent. -/
def isExponent : List Char → Bool
  | [] => true
  | c :: cs =>
    (c == 'e' || c == 'E') &&
      match cs with
      | [] => false
      | sign :: ds => if sign == '+' || sign == '-' then isDigits ds else isDigits (sign :: ds)

/-- What may follow the integer part of a number. -/
def isFraction : List Char → Bool
  | '.' :: cs => !(cs.takeWhile Char.isDigit).isEmpty && isExponent (cs.dropWhile Char.isDigit)
  | cs => isExponent cs

/-- An integer part has no needless zero in front. -/
def isInteger : List Char → Bool
  | [] => false
  | '0' :: ds => ds.isEmpty
  | _ => true

/-- A number without sign. -/
def isUnsigned (cs : List Char) : Bool :=
  isInteger (cs.takeWhile Char.isDigit) && isFraction (cs.dropWhile Char.isDigit)

/-- Whether characters form a number. -/
def isNumber : List Char → Bool
  | '-' :: cs => isUnsigned cs
  | cs => isUnsigned cs

/-- The characters of which numbers are made. -/
def isNumberChar (c : Char) : Bool :=
  c.isDigit || c == '-' || c == '+' || c == '.' || c == 'e' || c == 'E'

/-! ### The scanner -/

/-- Where the scanner stands. What has been read of a number or a text is kept in reverse. -/
inductive Position where
  | between
  /-- Inside a word, with these letters still to come. -/
  | word (rest : List Char) (token : Token)
  | number (lexeme : List Char)
  | text (pieces : List Piece)
  /-- After a backslash in a text. -/
  | escaped (pieces : List Piece)
  /-- Inside a unit in a text, with this many digits still to come. -/
  | unit (left code : Nat) (pieces : List Piece)
deriving DecidableEq, Repr

def isBlank (c : Char) : Bool := c == ' ' || c == '\t' || c == '\n' || c == '\r'

/-- What a character does between two tokens. -/
def begin? (c : Char) : Option (List Token × Position) :=
  if isBlank c then some ([], .between)
  else if c = '\x7b' then some ([.openBrace], .between)
  else if c = '\x7d' then some ([.closeBrace], .between)
  else if c = '[' then some ([.openBracket], .between)
  else if c = ']' then some ([.closeBracket], .between)
  else if c = ':' then some ([.colon], .between)
  else if c = ',' then some ([.comma], .between)
  else if c = '"' then some ([], .text [])
  else if c = 'n' then some ([], .word ['u', 'l', 'l'] .null)
  else if c = 't' then some ([], .word ['r', 'u', 'e'] (.bool true))
  else if c = 'f' then some ([], .word ['a', 'l', 's', 'e'] (.bool false))
  else if c = '-' || c.isDigit then some ([], .number [c])
  else none

/-- The token of a number, if it is one. -/
def numberToken? (lexeme : List Char) : Option Token :=
  if isNumber lexeme.reverse then some (.number lexeme.reverse) else none

/-- The character that an escape letter stands for. -/
def escapeLetter? (c : Char) : Option Char :=
  if c = '"' then some '"'
  else if c = '\\' then some '\\'
  else if c = '/' then some '/'
  else if c = 'b' then some '\x08'
  else if c = 'f' then some '\x0c'
  else if c = 'n' then some '\n'
  else if c = 'r' then some '\r'
  else if c = 't' then some '\t'
  else none

/-- What a character does: the tokens that it completes, and the position after it. -/
def step? : Position → Char → Option (List Token × Position)
  | .between, c => begin? c
  | .word [] _, _ => none
  | .word [last] token, c => if c = last then some ([token], .between) else none
  | .word (next :: rest) token, c => if c = next then some ([], .word rest token) else none
  | .number lexeme, c =>
    if isNumberChar c then some ([], .number (c :: lexeme))
    else
      match numberToken? lexeme, begin? c with
      | some token, some (tokens, position) => some (token :: tokens, position)
      | _, _ => none
  | .text pieces, c =>
    if c = '"' then some ([.text pieces.reverse], .between)
    else if c = '\\' then some ([], .escaped pieces)
    else if c.toNat < 0x20 then none
    else some ([], .text (.char c :: pieces))
  | .escaped pieces, c =>
    if c = 'u' then some ([], .unit 4 0 pieces)
    else (escapeLetter? c).map fun e => ([], .text (.char e :: pieces))
  | .unit left code pieces, c =>
    (Digits.hexValue? c).map fun d =>
      if left ≤ 1 then ([], .text (.unit (16 * code + d) :: pieces))
      else ([], .unit (left - 1) (16 * code + d) pieces)

/-- What the end of the document completes. -/
def finish? : Position → Option (List Token)
  | .between => some []
  | .number lexeme => (numberToken? lexeme).map fun token => [token]
  | _ => none

/-- The tokens of a document from a position on. -/
def scanFrom? : Position → List Char → Option (List Token)
  | position, [] => finish? position
  | position, c :: cs =>
    match step? position c with
    | none => none
    | some (tokens, position) => (scanFrom? position cs).map (tokens ++ ·)

/-- The tokens of a document. -/
def scan? (cs : List Char) : Option (List Token) := scanFrom? .between cs

end SharedValues.Json
