import Mathlib.Data.List.Forall2
import Mathlib.Data.List.TakeWhile
import SharedValues.Json.Document

/-!
# The layout of a document is scanned into its tokens

The scanner goes one character at a time, so what it makes of a text is told by two positions and
the tokens completed between them (`Scans`). Blanks, marks, words and texts lead it from between two
tokens to between two tokens, whatever follows. Only a number could run on: it is complete where no
further character of a number follows, so the layout of a document is scanned into its tokens
before such a boundary (`Spells`), and this is what follows a document inside of another one.

A control character in a text that has no letter of its own is written by its code. It comes back as
that unit, so the tokens are those of the document `asRead`.
-/

namespace SharedValues.Json

open Digits

/-! ### How a document comes back -/

/-- How a piece of a text comes back from its written form. -/
def Piece.asRead : Piece → Piece
  | .unit code => .unit code
  | .char c =>
    if c.toNat < 0x20 ∧ c ∉ ['\x08', '\x0c', '\n', '\r', '\t'] then .unit c.toNat else .char c

/-- A unit has sixteen bits. -/
def Piece.Fits : Piece → Prop
  | .unit code => code < 0x10000
  | .char _ => True

mutual

/-- How a document comes back from its written form. -/
def asRead : Json → Json
  | .null => .null
  | .bool b => .bool b
  | .number lexeme => .number lexeme
  | .text pieces => .text (pieces.map Piece.asRead)
  | .array items => .array (asReadItems items)
  | .object members => .object (asReadMembers members)

def asReadItems : List Json → List Json
  | [] => []
  | v :: rest => asRead v :: asReadItems rest

def asReadMembers : List (List Piece × Json) → List (List Piece × Json)
  | [] => []
  | (key, v) :: rest => (key.map Piece.asRead, asRead v) :: asReadMembers rest

end

mutual

/-- The tokens of a document. -/
def tokens : Json → List Token
  | .null => [.null]
  | .bool b => [.bool b]
  | .number lexeme => [.number lexeme]
  | .text pieces => [.text pieces]
  | .array items => .openBracket :: ([.comma].intercalate (tokensOfItems items) ++ [.closeBracket])
  | .object members =>
    .openBrace :: ([.comma].intercalate (tokensOfMembers members) ++ [.closeBrace])

def tokensOfItems : List Json → List (List Token)
  | [] => []
  | v :: rest => tokens v :: tokensOfItems rest

def tokensOfMembers : List (List Piece × Json) → List (List Token)
  | [] => []
  | (key, v) :: rest => (.text key :: .colon :: tokens v) :: tokensOfMembers rest

end

/-- A document whose numbers are numbers and whose units have sixteen bits. -/
inductive Legible : Json → Prop where
  | null : Legible .null
  | bool (b : Bool) : Legible (.bool b)
  | number {lexeme : List Char} : isNumber lexeme = true → Legible (.number lexeme)
  | text {pieces : List Piece} : (∀ p ∈ pieces, p.Fits) → Legible (.text pieces)
  | array {items : List Json} : (∀ v ∈ items, Legible v) → Legible (.array items)
  | object {members : List (List Piece × Json)} : (∀ m ∈ members, ∀ p ∈ m.1, p.Fits) →
    (∀ m ∈ members, Legible m.2) → Legible (.object members)

/-! ### Scanning -/

/-- Scanning characters from one position completes tokens and leads to another position. -/
def Scans (p : Position) (cs : List Char) (ts : List Token) (q : Position) : Prop :=
  ∀ rest, scanFrom? p (cs ++ rest) = (scanFrom? q rest).map (ts ++ ·)

/-- A text in front of which a number is complete. -/
def Boundary (cs : List Char) : Prop := ∀ c ∈ cs.head?, isNumberChar c = false

/-- Characters that are scanned into tokens where a boundary follows. -/
def Spells (cs : List Char) (ts : List Token) : Prop :=
  ∀ rest, Boundary rest →
    scanFrom? .between (cs ++ rest) = (scanFrom? .between rest).map (ts ++ ·)

section Rules

variable {p q r : Position} {xs ys : List Char} {ts us : List Token}

theorem map_append_map (ts us : List Token) (scanned : Option (List Token)) :
    (scanned.map (us ++ ·)).map (ts ++ ·) = scanned.map ((ts ++ us) ++ ·) := by
  rw [Option.map_map]
  refine congrArg (fun f => scanned.map f) ?_
  funext rest
  exact (List.append_assoc ts us rest).symm

theorem scans_nil (p : Position) : Scans p [] [] p := by
  intro rest
  simp

theorem Scans.append (hx : Scans p xs ts q) (hy : Scans q ys us r) :
    Scans p (xs ++ ys) (ts ++ us) r := by
  intro rest
  rw [List.append_assoc, hx, hy, map_append_map]

/-- One character. -/
theorem Scans.of_step {c : Char} (hstep : step? p c = some (ts, q)) : Scans p [c] ts q := by
  intro rest
  rw [List.singleton_append, scanFrom?, hstep]

/-- A character that completes nothing, and what follows it. -/
theorem Scans.cons {c : Char} (hstep : step? p c = some ([], q)) (hx : Scans q xs ts r) :
    Scans p (c :: xs) ts r :=
  (Scans.of_step hstep).append hx

theorem Scans.spells (hx : Scans .between xs ts .between) : Spells xs ts :=
  fun rest _ => hx rest

theorem Scans.append_spells (hx : Scans .between xs ts .between) (hy : Spells ys us) :
    Spells (xs ++ ys) (ts ++ us) := by
  intro rest hrest
  rw [List.append_assoc, hx, hy rest hrest, map_append_map]

/-- A character that is no part of a number completes what stands before it. -/
theorem Spells.append_scans (hx : Spells xs ts) {c : Char} (hc : isNumberChar c = false)
    (hy : Scans .between (c :: ys) us .between) :
    Scans .between (xs ++ c :: ys) (ts ++ us) .between := by
  intro rest
  have hboundary : Boundary (c :: ys ++ rest) := by
    intro d hd
    cases hd
    exact hc
  rw [List.append_assoc, hx _ hboundary, hy, map_append_map]

end Rules

/-! ### Blanks and marks -/

theorem scans_blanks {cs : List Char} (hcs : ∀ c ∈ cs, isBlank c = true) :
    Scans .between cs [] .between := by
  induction cs with
  | nil => exact scans_nil _
  | cons c cs ih =>
    obtain ⟨hc, hrest⟩ := List.forall_mem_cons.1 hcs
    have hstep : step? .between c = some ([], .between) := by
      rw [step?, begin?, if_pos hc]
    exact Scans.cons hstep (ih hrest)

theorem scans_newLine (depth : Nat) : Scans .between (newLine depth) [] .between := by
  refine scans_blanks (List.forall_mem_cons.2 ⟨rfl, ?_⟩)
  intro c hc
  rw [List.eq_of_mem_replicate hc]
  rfl

/-! ### Texts -/

section Text

variable (done : List Piece)

theorem scans_letter {letter c : Char} (hu : letter ≠ 'u') (hc : escapeLetter? letter = some c) :
    Scans (.text done) ['\\', letter] [] (.text (.char c :: done)) := by
  have hslash : step? (.text done) '\\' = some ([], .escaped done) := by
    simp [step?]
  refine Scans.cons hslash (Scans.of_step ?_)
  rw [step?, if_neg hu, hc, Option.map_some]

/-- Four digits of a code. -/
theorem scans_hexFixed {code : Nat} (hcode : code < 0x10000) :
    Scans (.unit 4 0 done) (hexFixed 4 code) [] (.text (.unit code :: done)) := by
  have hdigit : ∀ n, hexValue? (Nat.digitChar (n % 16)) = some (n % 16) :=
    fun n => hexValue?_digitChar ⟨n % 16, Nat.mod_lt n (by decide)⟩
  have hvalue : 16 * (16 * (16 * (code / 16 / 16 / 16 % 16) + code / 16 / 16 % 16) +
      code / 16 % 16) + code % 16 = code := by
    omega
  intro rest
  simp [hexFixed, scanFrom?, step?, hdigit, hvalue]

theorem scans_unit {code : Nat} (hcode : code < 0x10000) :
    Scans (.text done) ('\\' :: 'u' :: hexFixed 4 code) [] (.text (.unit code :: done)) := by
  have hslash : step? (.text done) '\\' = some ([], .escaped done) := by
    simp [step?]
  have hletter : step? (.escaped done) 'u' = some ([], .unit 4 0 done) := by
    simp [step?]
  exact Scans.cons hslash (Scans.cons hletter (scans_hexFixed done hcode))

/-- The characters that are written as a backslash and a letter. -/
theorem exists_letter : ∀ c ∈ ['"', '\\', '\x08', '\x0c', '\n', '\r', '\t'],
    ∃ letter ∈ ['"', '\\', 'b', 'f', 'n', 'r', 't'], writePiece (.char c) = ['\\', letter] ∧
      escapeLetter? letter = some c ∧ (Piece.char c).asRead = .char c := by
  intro c hc
  simp only [List.mem_cons, List.not_mem_nil, or_false] at hc
  rcases hc with rfl | rfl | rfl | rfl | rfl | rfl | rfl <;>
    exact ⟨_, by simp, rfl, rfl, rfl⟩

theorem scans_writePiece {p : Piece} (hp : p.Fits) :
    Scans (.text done) (writePiece p) [] (.text (p.asRead :: done)) := by
  cases p with
  | unit code => exact scans_unit done hp
  | char c =>
    by_cases hshort : c ∈ ['"', '\\', '\x08', '\x0c', '\n', '\r', '\t']
    · obtain ⟨letter, hmem, hwrite, hletter, hread⟩ := exists_letter c hshort
      have hu : letter ≠ 'u' := by
        rintro rfl
        exact absurd hmem (by decide)
      rw [hwrite, hread]
      exact scans_letter done hu hletter
    · simp only [List.mem_cons, List.not_mem_nil, or_false, not_or] at hshort
      obtain ⟨hquote, hslash, hb, hf, hn, hr, ht⟩ := hshort
      by_cases hlow : c.toNat < 0x20
      · have hwrite : writePiece (.char c) = '\\' :: 'u' :: hexFixed 4 c.toNat := by
          simp [writePiece, hquote, hslash, hb, hf, hn, hr, ht, hlow]
        have hread : (Piece.char c).asRead = .unit c.toNat := by
          simp [Piece.asRead, hlow, hb, hf, hn, hr, ht]
        rw [hwrite, hread]
        exact scans_unit done (by omega)
      · have hwrite : writePiece (.char c) = [c] := by
          simp [writePiece, hquote, hslash, hb, hf, hn, hr, ht, hlow]
        have hread : (Piece.char c).asRead = .char c := by
          simp [Piece.asRead, hlow]
        rw [hwrite, hread]
        refine Scans.of_step ?_
        simp [step?, hquote, hslash, hlow]

theorem scans_flatMap_writePiece {pieces : List Piece} (hpieces : ∀ p ∈ pieces, p.Fits) :
    Scans (.text done) (pieces.flatMap writePiece) []
      (.text ((pieces.map Piece.asRead).reverse ++ done)) := by
  induction pieces generalizing done with
  | nil => exact scans_nil _
  | cons p pieces ih =>
    obtain ⟨hp, hrest⟩ := List.forall_mem_cons.1 hpieces
    have hscan := (scans_writePiece done hp).append (ih (p.asRead :: done) hrest)
    simpa using hscan

end Text

theorem scans_writeText {pieces : List Piece} (hpieces : ∀ p ∈ pieces, p.Fits) :
    Scans .between (writeText pieces) [.text (pieces.map Piece.asRead)] .between := by
  have hopen : step? .between '"' = some ([], .text []) := by decide
  have hclose : step? (.text (pieces.map Piece.asRead).reverse) '"' =
      some ([.text (pieces.map Piece.asRead)], .between) := by
    simp [step?]
  have hbody := scans_flatMap_writePiece [] hpieces
  rw [List.append_nil] at hbody
  exact Scans.cons hopen (hbody.append (Scans.of_step hclose))

/-! ### Numbers -/

theorem isNumberChar_of_isDigit {c : Char} (hc : c.isDigit = true) : isNumberChar c = true := by
  simp [isNumberChar, hc]

theorem isNumberChar_of_isDigits {cs : List Char} (hcs : isDigits cs = true) :
    ∀ c ∈ cs, isNumberChar c = true := by
  intro c hc
  rw [isDigits, Bool.and_eq_true, List.all_eq_true] at hcs
  exact isNumberChar_of_isDigit (hcs.2 c hc)

/-- What holds of the digits in front and of what follows them holds of the whole. -/
theorem forall_mem_of_takeWhile {P : Char → Prop} {cs : List Char}
    (hdigits : ∀ c : Char, c.isDigit = true → P c) (hrest : ∀ c ∈ cs.dropWhile Char.isDigit, P c) :
    ∀ c ∈ cs, P c := by
  intro c hc
  rw [← List.takeWhile_append_dropWhile (p := Char.isDigit) (l := cs), List.mem_append] at hc
  rcases hc with hfront | hback
  · exact hdigits c (List.mem_takeWhile_imp hfront)
  · exact hrest c hback

theorem isNumberChar_of_isExponent {cs : List Char} (hcs : isExponent cs = true) :
    ∀ c ∈ cs, isNumberChar c = true := by
  cases cs with
  | nil => exact fun c hc => absurd hc List.not_mem_nil
  | cons e cs =>
    simp only [isExponent, Bool.and_eq_true] at hcs
    obtain ⟨he, hsigned⟩ := hcs
    have hmark : isNumberChar e = true := by
      simp only [Bool.or_eq_true, beq_iff_eq] at he
      rcases he with rfl | rfl <;> rfl
    refine List.forall_mem_cons.2 ⟨hmark, ?_⟩
    cases cs with
    | nil => exact fun c hc => absurd hc List.not_mem_nil
    | cons sign ds =>
      simp only at hsigned
      split at hsigned
      · rename_i hsign
        have hchar : isNumberChar sign = true := by
          simp only [Bool.or_eq_true, beq_iff_eq] at hsign
          rcases hsign with rfl | rfl <;> rfl
        exact List.forall_mem_cons.2 ⟨hchar, isNumberChar_of_isDigits hsigned⟩
      · exact isNumberChar_of_isDigits hsigned

theorem isNumberChar_of_isFraction {cs : List Char} (hcs : isFraction cs = true) :
    ∀ c ∈ cs, isNumberChar c = true := by
  unfold isFraction at hcs
  split at hcs
  · rw [Bool.and_eq_true] at hcs
    exact List.forall_mem_cons.2 ⟨rfl, forall_mem_of_takeWhile (fun _ => isNumberChar_of_isDigit)
      (isNumberChar_of_isExponent hcs.2)⟩
  · exact isNumberChar_of_isExponent hcs

/-- A number without sign begins with a digit, and goes on with characters of a number. -/
theorem exists_of_isUnsigned {cs : List Char} (hcs : isUnsigned cs = true) :
    ∃ c rest, cs = c :: rest ∧ c.isDigit = true ∧ ∀ d ∈ cs, isNumberChar d = true := by
  rw [isUnsigned, Bool.and_eq_true] at hcs
  have hall := forall_mem_of_takeWhile (fun _ => isNumberChar_of_isDigit)
    (isNumberChar_of_isFraction hcs.2)
  cases cs with
  | nil => cases hcs.1
  | cons c rest =>
    refine ⟨c, rest, rfl, ?_, hall⟩
    by_contra hc
    rw [List.takeWhile_cons_of_neg hc] at hcs
    cases hcs.1

theorem scans_number {cs : List Char} (hcs : ∀ c ∈ cs, isNumberChar c = true) (done : List Char) :
    Scans (.number done) cs [] (.number (cs.reverse ++ done)) := by
  induction cs generalizing done with
  | nil => exact scans_nil _
  | cons c cs ih =>
    obtain ⟨hc, hrest⟩ := List.forall_mem_cons.1 hcs
    have hstep : step? (.number done) c = some ([], .number (c :: done)) := by
      rw [step?, if_pos hc]
    have hscan := Scans.cons hstep (ih hrest (c :: done))
    simpa using hscan

/-- A number is begun by a minus sign or a digit and read up to its end. -/
theorem scans_lexeme {lexeme : List Char} (hnumber : isNumber lexeme = true) :
    Scans .between lexeme [] (.number lexeme.reverse) := by
  have hread : ∀ (c : Char) (rest : List Char), step? .between c = some ([], .number [c]) →
      (∀ d ∈ rest, isNumberChar d = true) →
      Scans .between (c :: rest) [] (.number (c :: rest).reverse) := by
    intro c rest hstep hrest
    rw [List.reverse_cons]
    exact Scans.cons hstep (scans_number hrest [c])
  unfold isNumber at hnumber
  split at hnumber
  · obtain ⟨c, rest, rfl, -, hall⟩ := exists_of_isUnsigned hnumber
    exact hread '-' (c :: rest) (by decide) hall
  · obtain ⟨c, rest, rfl, hc, hall⟩ := exists_of_isUnsigned hnumber
    have hne : ∀ d : Char, d.isDigit = false → c ≠ d := fun d hd => ne_of_isDigit hc hd
    have hstep : step? .between c = some ([], .number [c]) := by
      simp [step?, begin?, isBlank, hc, hne ' ' rfl, hne '\t' rfl, hne '\n' rfl, hne '\r' rfl,
        hne '\x7b' rfl, hne '\x7d' rfl, hne '[' rfl, hne ']' rfl, hne ':' rfl, hne ',' rfl,
        hne '"' rfl, hne 'n' rfl, hne 't' rfl, hne 'f' rfl]
    exact hread c rest hstep (List.forall_mem_cons.1 hall).2

/-- A number is complete at a boundary. -/
theorem scanFrom?_number {lexeme rest : List Char} (hnumber : isNumber lexeme = true)
    (hrest : Boundary rest) :
    scanFrom? (.number lexeme.reverse) rest =
      (scanFrom? .between rest).map ([.number lexeme] ++ ·) := by
  have htoken : numberToken? lexeme.reverse = some (.number lexeme) := by
    rw [numberToken?, List.reverse_reverse, if_pos hnumber]
  cases rest with
  | nil => simp [scanFrom?, finish?, htoken]
  | cons c rest =>
    have hc : isNumberChar c = false := hrest c rfl
    simp only [scanFrom?, step?, hc, htoken]
    cases begin? c with
    | none => rfl
    | some next => simp [Function.comp_def]

theorem spells_number {lexeme : List Char} (hnumber : isNumber lexeme = true) :
    Spells lexeme [.number lexeme] := by
  intro rest hrest
  rw [scans_lexeme hnumber, scanFrom?_number hnumber hrest, map_append_map, List.nil_append]

/-! ### Arrays and objects -/

section Enclosed

variable {parts : List (List Char)} {tss : List (List Token)}

theorem spells_intercalate (depth : Nat) (hparts : List.Forall₂ Spells parts tss) :
    Spells ((',' :: newLine depth).intercalate parts) ([.comma].intercalate tss) := by
  induction hparts with
  | nil => exact (scans_nil _).spells
  | cons hpart hrest ih =>
    cases hrest with
    | nil =>
      rw [List.intercalate_singleton, List.intercalate_singleton]
      exact hpart
    | cons =>
      have hstep : step? .between ',' = some ([.comma], .between) := by decide
      have hcomma := (Scans.of_step hstep).append (scans_newLine depth)
      rw [List.intercalate_cons_cons, List.intercalate_cons_cons]
      exact (hpart.append_scans rfl hcomma).append_spells ih

theorem scans_enclose {opening closing : Char} {first last : Token} (depth : Nat)
    (hopening : step? .between opening = some ([first], .between))
    (hclosing : step? .between closing = some ([last], .between))
    (hparts : List.Forall₂ Spells parts tss) :
    Scans .between (enclose opening closing depth parts)
      (first :: ([.comma].intercalate tss ++ [last])) .between := by
  have hopen := Scans.of_step hopening
  have hclose := (scans_newLine depth).append (Scans.of_step hclosing)
  cases hparts with
  | nil => exact hopen.append (Scans.of_step hclosing)
  | cons hpart hrest =>
    have hinner := spells_intercalate (depth + 1) (.cons hpart hrest)
    have hbegun := (hopen.append (scans_newLine (depth + 1))).append_spells hinner
    have hended := hbegun.append_scans rfl hclose
    simpa [enclose, newLine] using hended

end Enclosed

theorem forall₂_spells_items {items : List Json} {depth : Nat}
    (hitems : ∀ v ∈ items, Spells (layout depth v) v.asRead.tokens) :
    List.Forall₂ Spells (layoutItems depth items) (tokensOfItems (asReadItems items)) := by
  induction items with
  | nil => exact .nil
  | cons v rest ih =>
    obtain ⟨hv, hrest⟩ := List.forall_mem_cons.1 hitems
    exact .cons hv (ih hrest)

theorem forall₂_spells_members {members : List (List Piece × Json)} {depth : Nat}
    (hkeys : ∀ m ∈ members, ∀ p ∈ m.1, p.Fits)
    (hvalues : ∀ m ∈ members, Spells (layout depth m.2) m.2.asRead.tokens) :
    List.Forall₂ Spells (layoutMembers depth members)
      (tokensOfMembers (asReadMembers members)) := by
  induction members with
  | nil => exact .nil
  | cons m rest ih =>
    obtain ⟨hkey, hkeys⟩ := List.forall_mem_cons.1 hkeys
    obtain ⟨hvalue, hvalues⟩ := List.forall_mem_cons.1 hvalues
    have hstep : step? .between ':' = some ([.colon], .between) := by decide
    have hblank : Scans .between [' '] [] .between := scans_blanks (by simp [isBlank])
    have hcolon := (Scans.of_step hstep).append hblank
    have hmember := (scans_writeText hkey).append_spells (hcolon.append_spells hvalue)
    exact .cons hmember (ih hkeys hvalues)

/-- The layout of a document is scanned into the tokens of the document as it is read. -/
theorem spells_layout {v : Json} (hv : Legible v) (depth : Nat) :
    Spells (layout depth v) v.asRead.tokens := by
  induction hv generalizing depth with
  | null =>
    refine Scans.spells ?_
    exact .cons rfl (.cons rfl (.cons rfl (.of_step rfl)))
  | bool b =>
    cases b with
    | true => exact (Scans.cons rfl (.cons rfl (.cons rfl (.of_step rfl)))).spells
    | false => exact (Scans.cons rfl (.cons rfl (.cons rfl (.cons rfl (.of_step rfl))))).spells
  | number hnumber => exact spells_number hnumber
  | text hpieces => exact (scans_writeText hpieces).spells
  | array _ ih =>
    exact (scans_enclose depth rfl rfl (forall₂_spells_items fun v hm => ih v hm _)).spells
  | object hkeys _ ih =>
    exact (scans_enclose depth rfl rfl
      (forall₂_spells_members hkeys fun m hm => ih m hm _)).spells

theorem scan?_layout {v : Json} (hv : Legible v) : scan? (layout 0 v) = some v.asRead.tokens := by
  have hspells := spells_layout hv 0 [] (by simp [Boundary])
  simpa [scan?, scanFrom?, finish?] using hspells

end SharedValues.Json
