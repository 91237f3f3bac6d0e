import SharedValues.Json.Token

/-!
# JSON documents

A document as a tree, its reading from tokens, and its layout with two blanks of indentation per
level. The reader keeps the arrays and objects that it is inside of on a stack, so documents may be
nested to any depth. Members of an object are kept in order, with repeated keys.
-/

namespace SharedValues

/-- A JSON document. Numbers and texts are kept as they are written. -/
inductive Json where
  | null
  | bool (b : Bool)
  | number (lexeme : List Char)
  | text (pieces : List Json.Piece)
  | array (items : List Json)
  | object (members : List (List Json.Piece × Json))

namespace Json

/-! ### Reading -/

/-- An array or object that is being read; what it holds so far is in reverse. -/
inductive Frame where
  | array (done : List Json)
  | object (done : List (List Piece × Json)) (key : List Piece)

/-- What the reader expects, and the frames around it. -/
inductive Expectation where
  | value (frames : List Frame)
  /-- After an opening bracket. -/
  | item (frames : List Frame)
  /-- After an opening brace. -/
  | member (frames : List Frame)
  /-- After a comma between members. -/
  | key (done : List (List Piece × Json)) (frames : List Frame)
  | colon (done : List (List Piece × Json)) (key : List Piece) (frames : List Frame)
  /-- After a value. -/
  | after (v : Json) (frames : List Frame)

/-- What a token does where a value is expected. -/
def beginValue? (frames : List Frame) : Token → Option Expectation
  | .null => some (.after .null frames)
  | .bool b => some (.after (.bool b) frames)
  | .number lexeme => some (.after (.number lexeme) frames)
  | .text pieces => some (.after (.text pieces) frames)
  | .openBracket => some (.item frames)
  | .openBrace => some (.member frames)
  | _ => none

/-- What a token does to the expectation. -/
def accept? : Expectation → Token → Option Expectation
  | .value frames, token => beginValue? frames token
  | .item frames, .closeBracket => some (.after (.array []) frames)
  | .item frames, token => beginValue? (.array [] :: frames) token
  | .member frames, .closeBrace => some (.after (.object []) frames)
  | .member frames, .text key => some (.colon [] key frames)
  | .key done frames, .text key => some (.colon done key frames)
  | .colon done key frames, .colon => some (.value (.object done key :: frames))
  | .after v (.array done :: frames), .comma => some (.value (.array (v :: done) :: frames))
  | .after v (.array done :: frames), .closeBracket =>
    some (.after (.array (v :: done).reverse) frames)
  | .after v (.object done key :: frames), .comma => some (.key ((key, v) :: done) frames)
  | .after v (.object done key :: frames), .closeBrace =>
    some (.after (.object ((key, v) :: done).reverse) frames)
  | _, _ => none

/-- The expectation after tokens. -/
def acceptAll? : Expectation → List Token → Option Expectation
  | expectation, [] => some expectation
  | expectation, token :: tokens =>
    match accept? expectation token with
    | none => none
    | some next => acceptAll? next tokens

/-- The document that tokens form. -/
def ofTokens? (tokens : List Token) : Option Json :=
  match acceptAll? (.value []) tokens with
  | some (.after v []) => some v
  | _ => none

/-- Reads a document. -/
def read? (s : String) : Option Json :=
  match scan? s.toList with
  | none => none
  | some tokens => ofTokens? tokens

/-! ### Layout -/

/-- A new line at a level. -/
def newLine (depth : Nat) : List Char := '\n' :: List.replicate (2 * depth) ' '

/-- Parts between brackets, each on a line of its own one level deeper. -/
def enclose (opening closing : Char) (depth : Nat) : List (List Char) → List Char
  | [] => [opening, closing]
  | parts =>
    opening :: (newLine (depth + 1) ++ (',' :: newLine (depth + 1)).intercalate parts ++
      newLine depth ++ [closing])

mutual

/-- The layout of a document at a level. -/
def layout (depth : Nat) : Json → List Char
  | .null => ['n', 'u', 'l', 'l']
  | .bool true => ['t', 'r', 'u', 'e']
  | .bool false => ['f', 'a', 'l', 's', 'e']
  | .number lexeme => lexeme
  | .text pieces => writeText pieces
  | .array items => enclose '[' ']' depth (layoutItems (depth + 1) items)
  | .object members => enclose '\x7b' '\x7d' depth (layoutMembers (depth + 1) members)

/-- The layouts of the items of an array. -/
def layoutItems (depth : Nat) : List Json → List (List Char)
  | [] => []
  | v :: rest => layout depth v :: layoutItems depth rest

/-- The layouts of the members of an object. -/
def layoutMembers (depth : Nat) : List (List Piece × Json) → List (List Char)
  | [] => []
  | (key, v) :: rest =>
    (writeText key ++ ':' :: ' ' :: layout depth v) :: layoutMembers depth rest

end

/-- Writes a document. -/
def write (v : Json) : String := String.ofList (layout 0 v)

/-! ### Contents -/

/-- The document of a natural number. -/
def ofNat (n : Nat) : Json := .number (Nat.toDigits 10 n)

/-- The document of a text. -/
def ofString (s : String) : Json := .text (s.toList.map .char)

/-- The value of decimal digits. -/
def digitsValue (cs : List Char) : Nat := cs.foldl (fun n c => 10 * n + (c.toNat - 48)) 0

/-- The natural number of a document; one with a sign, a fraction or an exponent is none. -/
def natural? : Json → Option Nat
  | .number lexeme => if lexeme.all Char.isDigit then some (digitsValue lexeme) else Option.none
  | _ => Option.none

/-- The content of a text. -/
def string? : Json → Option String
  | .text pieces => (content? pieces).map String.ofList
  | _ => Option.none

/-- The items of an array. -/
def items? : Json → Option (List Json)
  | .array items => some items
  | _ => Option.none

end Json

end SharedValues
