import SharedValues.Literal

/-!
# Text outside of literals

`unquoted` takes the literals out of a text. It knows of a literal only that it begins with a quote,
ends with the same quote, and that a character after a backslash does not end it. A text is balanced
if every literal that it begins also ends in it; then what is outside of literals in the text and
what is outside of them in the text that follows can be told separately.
-/

namespace SharedValues.Literal

open Digits

/-- Where a reader stands that only tells literals from other text. -/
inductive Side where
  | outside
  | inside (quote : Char)
  /-- After a backslash in a literal. -/
  | escaped (quote : Char)
deriving DecidableEq, Repr

/-- The characters that begin a literal. -/
def isQuote (c : Char) : Bool := c == '\'' || c == '"'

/-- The characters outside of literals from a position on. -/
def unquotedFrom : Side → List Char → List Char
  | _, [] => []
  | .outside, c :: rest =>
    if isQuote c then unquotedFrom (.inside c) rest else c :: unquotedFrom .outside rest
  | .inside quote, c :: rest =>
    if c = quote then unquotedFrom .outside rest
    else if c = '\\' then unquotedFrom (.escaped quote) rest
    else unquotedFrom (.inside quote) rest
  | .escaped quote, _ :: rest => unquotedFrom (.inside quote) rest

/-- The characters of a text outside of its literals. -/
def unquoted (cs : List Char) : List Char := unquotedFrom .outside cs

example : unquoted "['[...]', [...], b\"it's\"]".toList = "[, [...], b]".toList := by decide

/-- Every literal that the text begins also ends in it. -/
def Balanced (cs : List Char) : Prop :=
  ∀ rest, unquoted (cs ++ rest) = unquoted cs ++ unquoted rest

theorem balanced_nil : Balanced [] := fun _ => rfl

theorem Balanced.append {xs ys : List Char} (hx : Balanced xs) (hy : Balanced ys) :
    Balanced (xs ++ ys) := by
  intro rest
  rw [List.append_assoc, hx, hy, hx, List.append_assoc]

/-! ### Text without quotes -/

theorem unquoted_append_of_plain {cs : List Char} (hcs : ∀ c ∈ cs, isQuote c = false)
    (rest : List Char) : unquoted (cs ++ rest) = cs ++ unquoted rest := by
  induction cs with
  | nil => rfl
  | cons c cs ih =>
    obtain ⟨hc, htail⟩ := List.forall_mem_cons.1 hcs
    rw [List.cons_append, unquoted, unquotedFrom, hc, ← unquoted, ih htail]
    rfl

theorem unquoted_of_plain {cs : List Char} (hcs : ∀ c ∈ cs, isQuote c = false) :
    unquoted cs = cs := by
  have hnil := unquoted_append_of_plain hcs []
  rwa [List.append_nil, show unquoted [] = [] from rfl, List.append_nil] at hnil

theorem balanced_of_plain {cs : List Char} (hcs : ∀ c ∈ cs, isQuote c = false) : Balanced cs := by
  intro rest
  rw [unquoted_append_of_plain hcs, unquoted_of_plain hcs]

/-! ### Literals -/

section Quoted

variable {quote : Char} (hquote : isQuote quote = true)

include hquote

theorem ne_of_isQuote_eq_false {c : Char} (hc : isQuote c = false) : c ≠ quote := by
  rintro rfl
  rw [hquote] at hc
  cases hc

theorem quote_ne_backslash : quote ≠ '\\' := (ne_of_isQuote_eq_false hquote rfl).symm

theorem unquotedFrom_escaped_pair (d : Char) (rest : List Char) :
    unquotedFrom (.inside quote) ('\\' :: d :: rest) = unquotedFrom (.inside quote) rest := by
  have hne := quote_ne_backslash hquote
  simp [unquotedFrom, hne.symm]

omit hquote in
/-- Characters that neither end the literal nor begin an escape. -/
theorem unquotedFrom_append_of_ne {cs : List Char} (hcs : ∀ c ∈ cs, c ≠ quote ∧ c ≠ '\\')
    (rest : List Char) :
    unquotedFrom (.inside quote) (cs ++ rest) = unquotedFrom (.inside quote) rest := by
  induction cs with
  | nil => rfl
  | cons c cs ih =>
    obtain ⟨⟨hend, hslash⟩, htail⟩ := List.forall_mem_cons.1 hcs
    rw [List.cons_append, unquotedFrom, if_neg hend, if_neg hslash, ih htail]

theorem ne_of_mem_hexFixed (k n : Nat) : ∀ c ∈ hexFixed k n, c ≠ quote ∧ c ≠ '\\' := by
  have hdigit : ∀ d : Fin 16, isQuote (Nat.digitChar d) = false ∧ Nat.digitChar d ≠ '\\' := by
    decide
  exact forall_mem_hexFixed
    (fun d => ⟨ne_of_isQuote_eq_false hquote (hdigit d).1, (hdigit d).2⟩) k n

theorem unquotedFrom_escapeCode (c : Char) (rest : List Char) :
    unquotedFrom (.inside quote) (escapeCode c ++ rest) = unquotedFrom (.inside quote) rest := by
  obtain ⟨letter, -, width, hcode⟩ := exists_escapeCode_eq c
  rw [hcode, List.cons_append, List.cons_append, unquotedFrom_escaped_pair hquote,
    unquotedFrom_append_of_ne (ne_of_mem_hexFixed hquote width c.toNat)]

/-- A character of the content does not end its literal. -/
theorem unquotedFrom_escape (shown : Char → Bool) (c : Char) (rest : List Char) :
    unquotedFrom (.inside quote) (escape shown quote c ++ rest) =
      unquotedFrom (.inside quote) rest := by
  have hwritten := written_escape shown quote c
  generalize escape shown quote c = cs at hwritten ⊢
  cases hwritten with
  | letter _ | quote _ => exact unquotedFrom_escaped_pair hquote _ rest
  | shown hslash hother _ =>
    exact unquotedFrom_append_of_ne (List.forall_mem_singleton.2 ⟨hother, hslash⟩) rest
  | code _ => exact unquotedFrom_escapeCode hquote c rest

theorem unquotedFrom_flatMap_escape (shown : Char → Bool) (cs rest : List Char) :
    unquotedFrom (.inside quote) (cs.flatMap (escape shown quote) ++ quote :: rest) =
      unquoted rest := by
  induction cs with
  | nil => simp [unquotedFrom, unquoted]
  | cons c cs ih =>
    rw [List.flatMap_cons, List.append_assoc, unquotedFrom_escape hquote, ih]

end Quoted

theorem isQuote_quoteFor (cs : List Char) : isQuote (quoteFor cs) = true := by
  unfold quoteFor
  split
  · rfl
  · rfl

theorem unquoted_quoted_append (shown : Char → Bool) (cs rest : List Char) :
    unquoted (quoted shown cs ++ rest) = unquoted rest := by
  have hquote := isQuote_quoteFor cs
  have hbody := unquotedFrom_flatMap_escape hquote shown cs rest
  rw [quoted, List.cons_append, List.append_assoc, List.singleton_append, unquoted, unquotedFrom,
    hquote]
  exact hbody

theorem unquoted_quoted (shown : Char → Bool) (cs : List Char) :
    unquoted (quoted shown cs) = [] := by
  have hnil := unquoted_quoted_append shown cs []
  rwa [List.append_nil] at hnil

theorem balanced_quoted (shown : Char → Bool) (cs : List Char) : Balanced (quoted shown cs) := by
  intro rest
  rw [unquoted_quoted_append, unquoted_quoted, List.nil_append]

end SharedValues.Literal
