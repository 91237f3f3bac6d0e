import Mathlib.Data.List.Basic
import SharedValues.Proofs.Literal.RoundTrip
import SharedValues.Proofs.Literal.Unquoted

/-!
# Escaped quotes

A literal is read back whatever follows it, and has an escaped quote only where no choice of quotes
could have done without: its content has quotes of both kinds.

Whether a quote is escaped is told from the literal alone, by going through it with a backslash
taken together with the character after it. Only the escape of the literal's own quote shows, and
the quote is chosen so that it is in the content only if the other one is too.
-/

namespace SharedValues.Literal

open Digits Text

/-- Whether a quote stands right after the backslash of an escape, from a position on. -/
def escapesQuoteFrom : Side → List Char → Bool
  | _, [] => false
  | .outside, c :: rest =>
    if isQuote c then escapesQuoteFrom (.inside c) rest else escapesQuoteFrom .outside rest
  | .inside quote, c :: rest =>
    if c = quote then escapesQuoteFrom .outside rest
    else if c = '\\' then escapesQuoteFrom (.escaped quote) rest
    else escapesQuoteFrom (.inside quote) rest
  | .escaped quote, c :: rest => isQuote c || escapesQuoteFrom (.inside quote) rest

/-- Whether a quote is escaped in some literal of a text. -/
def escapesQuote (cs : List Char) : Bool := escapesQuoteFrom .outside cs

example : escapesQuote "'\\\\'".toList = false ∧ escapesQuote "'\\'\"'".toList = true := by decide

theorem isQuote_letters : ∀ p ∈ letters, isQuote p.1 = false ∧ isQuote p.2 = false := by
  simp [letters, isQuote]

section Inside

variable {quote : Char} (hquote : isQuote quote = true)

include hquote

theorem escapesQuoteFrom_pair (d : Char) (rest : List Char) :
    escapesQuoteFrom (.inside quote) ('\\' :: d :: rest) =
      (isQuote d || escapesQuoteFrom (.inside quote) rest) := by
  rw [escapesQuoteFrom, if_neg (quote_ne_backslash hquote).symm, if_pos rfl, escapesQuoteFrom]

omit hquote in
/-- Characters that neither end the literal nor begin an escape. -/
theorem escapesQuoteFrom_append_of_ne {cs : List Char} (hcs : ∀ c ∈ cs, c ≠ quote ∧ c ≠ '\\')
    (rest : List Char) :
    escapesQuoteFrom (.inside quote) (cs ++ rest) = escapesQuoteFrom (.inside quote) rest := by
  induction cs with
  | nil => rfl
  | cons c cs ih =>
    obtain ⟨⟨hend, hslash⟩, htail⟩ := List.forall_mem_cons.1 hcs
    rw [List.cons_append, escapesQuoteFrom, if_neg hend, if_neg hslash, ih htail]

theorem escapesQuoteFrom_escapeCode (c : Char) (rest : List Char) :
    escapesQuoteFrom (.inside quote) (escapeCode c ++ rest) =
      escapesQuoteFrom (.inside quote) rest := by
  obtain ⟨letter, hmem, width, hcode⟩ := exists_escapeCode_eq c
  have hletters : ∀ d ∈ ['x', 'u', 'U'], isQuote d = false := by simp [isQuote]
  rw [hcode, List.cons_append, List.cons_append, escapesQuoteFrom_pair hquote,
    hletters letter hmem, Bool.false_or,
    escapesQuoteFrom_append_of_ne (ne_of_mem_hexFixed hquote width c.toNat)]

/-- Of all characters only the quote of the literal is written as an escaped quote. -/
theorem escapesQuoteFrom_escape (shown : Char → Bool) (c : Char) (rest : List Char) :
    escapesQuoteFrom (.inside quote) (escape shown quote c ++ rest) =
      (decide (c = quote) || escapesQuoteFrom (.inside quote) rest) := by
  have hwritten := written_escape shown quote c
  generalize escape shown quote c = cs at hwritten ⊢
  cases hwritten with
  | @letter d hd =>
    obtain ⟨hc, hd⟩ := isQuote_letters (c, d) hd
    have hne : c ≠ quote := ne_of_isQuote_eq_false hquote hc
    rw [decide_eq_false hne, ← hd]
    exact escapesQuoteFrom_pair hquote d rest
  | quote hc =>
    rw [decide_eq_true hc, ← hquote]
    exact escapesQuoteFrom_pair hquote quote rest
  | shown hslash hne _ =>
    rw [decide_eq_false hne, Bool.false_or]
    exact escapesQuoteFrom_append_of_ne (List.forall_mem_singleton.2 ⟨hne, hslash⟩) rest
  | code hne =>
    rw [decide_eq_false hne, Bool.false_or]
    exact escapesQuoteFrom_escapeCode hquote c rest

theorem escapesQuoteFrom_flatMap_escape (shown : Char → Bool) (cs : List Char) :
    escapesQuoteFrom (.inside quote) (cs.flatMap (escape shown quote) ++ [quote]) =
      decide (quote ∈ cs) := by
  induction cs with
  | nil => simp [escapesQuoteFrom]
  | cons c cs ih =>
    rw [List.flatMap_cons, List.append_assoc, escapesQuoteFrom_escape hquote, ih]
    simp [eq_comm]

end Inside

theorem quoteFor_mem_iff {cs : List Char} : quoteFor cs ∈ cs ↔ '\'' ∈ cs ∧ '"' ∈ cs := by
  unfold quoteFor
  split
  · rename_i hsingle
    simp [hsingle]
  · rename_i hsingle
    constructor
    · intro hs
      exact ⟨hs, by_contra fun hd => hsingle ⟨hs, hd⟩⟩
    · exact And.left

theorem escapesQuote_quoted_iff (shown : Char → Bool) (cs : List Char) :
    escapesQuote (quoted shown cs) = true ↔ '\'' ∈ cs ∧ '"' ∈ cs := by
  have hquote := isQuote_quoteFor cs
  rw [quoted, escapesQuote, escapesQuoteFrom, if_pos hquote, escapesQuoteFrom_flatMap_escape hquote,
    decide_eq_true_eq, quoteFor_mem_iff]

theorem byteChar_injective : Function.Injective byteChar := by
  intro a b hab
  have hbyte := charByte?_byteChar a
  rw [hab, charByte?_byteChar b, Option.some.injEq] at hbyte
  exact hbyte.symm

/-- A literal is read back as its content, whatever follows it, and what follows is left as it is.
An escaped quote is in it exactly when both kinds of quote are in the content. -/
theorem literals_read_back :
    (∀ (s : String) (rest : List Char), read? (ofText s ++ rest) = some (s.toList, rest)) ∧
    (∀ (bs : List UInt8) (rest : List Char),
      readBytes? (ofBytes bs ++ rest) = some (bs, rest)) ∧
    (∀ s : String, escapesQuote (ofText s) = true ↔ '\'' ∈ s.toList ∧ '"' ∈ s.toList) ∧
    ∀ bs : List UInt8, escapesQuote (ofBytes bs) = true ↔ 0x27 ∈ bs ∧ 0x22 ∈ bs := by
  refine ⟨read?_ofText_append, readBytes?_ofBytes_append,
    fun s => escapesQuote_quoted_iff isPrintable s.toList, fun bs => ?_⟩
  have hmem : ∀ b : UInt8, byteChar b ∈ bs.map byteChar ↔ b ∈ bs :=
    fun b => List.mem_map_of_injective byteChar_injective
  exact (escapesQuote_quoted_iff isPlain (bs.map byteChar)).trans (and_congr (hmem 0x27) (hmem 0x22))

end SharedValues.Literal
