import SharedValues.Console
import SharedValues.Proofs.Render.Recursion

/-!
# Written values are printable

Every character of the written form of a value is printable, and where no text is reached every
character is plain ASCII. So values that are not texts are printed on one line.

A literal is made of plain characters and of characters that are shown as they are. Lists add only
plain characters to what their elements write, so whatever holds of plain characters and of the
literals of the texts that are reached holds of the whole, cut short or not.
-/

namespace SharedValues.Text

/-- The code points that end a line. -/
def lineBreaks : List (Nat × Nat) := [(0xa, 0xd), (0x85, 0x85), (0x2028, 0x2029)]

/-- Whether a character ends a line. -/
def isLineBreak (c : Char) : Bool := inRanges lineBreaks c.toNat

variable {c : Char}

theorem isPrintable_iff : isPrintable c = true ↔
    ∀ ranges ∈ [controls, separators, formats, privateUse], inRanges ranges c.toNat = false := by
  simp [isPrintable, and_assoc]

theorem isLineBreak_of_isPrintable (hc : isPrintable c = true) : isLineBreak c = false := by
  rw [isPrintable_iff] at hc
  have hcontrol := hc controls (by simp)
  have hseparator := hc separators (by simp)
  simp only [inRanges, controls, separators, List.any_cons, List.any_nil, Bool.or_eq_false_iff,
    decide_eq_false_iff_not, and_true] at hcontrol hseparator
  simp only [isLineBreak, inRanges, lineBreaks, List.any_cons, List.any_nil, Bool.or_eq_false_iff,
    decide_eq_false_iff_not, and_true]
  omega

theorem isPlain_of_isDigit (hc : c.isDigit = true) : isPlain c = true := by
  have hrange : 0x30 ≤ c.toNat ∧ c.toNat ≤ 0x39 := Char.isDigit_iff_toNat.1 hc
  exact decide_eq_true (by omega)

theorem isPlain_digitChar : ∀ d : Fin 16, isPlain (Nat.digitChar d) = true := by
  decide

end SharedValues.Text

namespace SharedValues.Literal

open Digits Text

/-! ### Characters of literals -/

theorem isPlain_letters : ∀ p ∈ letters, isPlain p.2 = true := by
  simp [letters, isPlain]

variable {P : Char → Prop} (hplain : ∀ c, isPlain c = true → P c)

include hplain

theorem forall_mem_of_all_isPlain {cs : List Char} (hcs : cs.all isPlain = true) :
    ∀ c ∈ cs, P c :=
  fun c hc => hplain c (List.all_eq_true.1 hcs c hc)

theorem forall_mem_decimal (n : Int) : ∀ c ∈ decimal n, P c := by
  have hdigits : ∀ m, ∀ c ∈ Nat.toDigits 10 m, P c := fun m c hc =>
    hplain c (isPlain_of_isDigit (Nat.isDigit_of_mem_toDigits (by decide) (by decide) hc))
  cases n with
  | ofNat m => exact hdigits m
  | negSucc m => exact List.forall_mem_cons.2 ⟨hplain '-' rfl, hdigits (m + 1)⟩

theorem forall_mem_escapeCode (c : Char) : ∀ d ∈ escapeCode c, P d := by
  obtain ⟨letter, hmem, width, hcode⟩ := exists_escapeCode_eq c
  have hletters : ∀ d ∈ ['x', 'u', 'U'], isPlain d = true := by simp [isPlain]
  rw [hcode, List.forall_mem_cons, List.forall_mem_cons]
  exact ⟨hplain '\\' rfl, hplain letter (hletters letter hmem),
    forall_mem_hexFixed (fun d => hplain _ (isPlain_digitChar d)) width c.toNat⟩

section Shown

variable {shown : Char → Bool} (hshown : ∀ c, shown c = true → P c)

include hshown

theorem forall_mem_escape {quote : Char} (hquote : P quote) (c : Char) :
    ∀ d ∈ escape shown quote c, P d := by
  have hpair : ∀ d, P d → ∀ e ∈ ['\\', d], P e := by
    intro d hd
    rw [List.forall_mem_cons, List.forall_mem_singleton]
    exact ⟨hplain '\\' rfl, hd⟩
  have hwritten := written_escape shown quote c
  generalize escape shown quote c = cs at hwritten ⊢
  cases hwritten with
  | @letter d hd => exact hpair d (hplain d (isPlain_letters (c, d) hd))
  | quote _ => exact hpair quote hquote
  | shown _ _ hc => exact List.forall_mem_singleton.2 (hshown c hc)
  | code _ => exact forall_mem_escapeCode hplain c

/-- What holds of plain characters and of those that are shown as they are holds of every character
of a literal. -/
theorem forall_mem_quoted (cs : List Char) : ∀ c ∈ quoted shown cs, P c := by
  have hquote : P (quoteFor cs) := by
    unfold quoteFor
    split
    · exact hplain '"' rfl
    · exact hplain '\'' rfl
  rw [quoted, List.forall_mem_cons, List.forall_mem_append, List.forall_mem_singleton]
  refine ⟨hquote, ?_, hquote⟩
  intro d hd
  obtain ⟨c, -, hc⟩ := List.mem_flatMap.1 hd
  exact forall_mem_escape hplain hshown hquote c d hc

end Shown

end SharedValues.Literal

namespace SharedValues.Value

open Literal Text

variable {h : Store}

/-! ### Characters of values -/

theorem forall_mem_intercalate {P : Char → Prop} {separator : List Char}
    {items : List (List Char)} (hseparator : ∀ c ∈ separator, P c)
    (hitems : ∀ item ∈ items, ∀ c ∈ item, P c) :
    ∀ c ∈ separator.intercalate items, P c :=
  intercalate_of_append (P := fun cs => ∀ c ∈ cs, P c) (List.forall_mem_nil P)
    (fun _ _ hx hy => List.forall_mem_append.2 ⟨hx, hy⟩) hseparator hitems

section Written

variable {P : Char → Prop} (hplain : ∀ c, isPlain c = true → P c)

include hplain

theorem forall_mem_bracketed {items : List (List Char)} (hitems : ∀ item ∈ items, ∀ c ∈ item, P c) :
    ∀ c ∈ bracketed items, P c := by
  have hseparator : ∀ c ∈ [',', ' '], P c := forall_mem_of_all_isPlain hplain rfl
  rw [bracketed, List.forall_mem_cons, List.forall_mem_append, List.forall_mem_singleton]
  exact ⟨hplain '[' rfl, forall_mem_intercalate hseparator hitems, hplain ']' rfl⟩

/-- What holds of plain characters and of the literals of all texts that are reached holds of every
character of the written form. -/
theorem forall_mem_writeWithin (path : List ListRef) (v : Value)
    (htext : ∀ object, h.Reaches v (.text object) → ∀ c ∈ ofText object.data, P c) :
    ∀ c ∈ writeWithin h path v, P c := by
  induction path, v using writeWithin.induct (h := h) with
  | case1 | case2 | case3 =>
    rw [writeWithin]
    exact forall_mem_of_all_isPlain hplain rfl
  | case4 path n =>
    rw [writeWithin]
    exact forall_mem_decimal hplain n
  | case5 path object =>
    rw [writeWithin, ofBytes, List.forall_mem_cons]
    exact ⟨hplain 'b' rfl, forall_mem_quoted hplain hplain _⟩
  | case6 path object =>
    rw [writeWithin]
    exact htext object (.refl _)
  | case7 path r hr =>
    rw [writeWithin_list_of_mem hr]
    exact forall_mem_of_all_isPlain hplain rfl
  | case8 path r hr ih =>
    rw [writeWithin_list_of_not_mem hr]
    refine forall_mem_bracketed hplain (List.forall_mem_map.2 fun v hv => ih v hv ?_)
    exact fun object hobject => htext object (.step hv hobject)

end Written

theorem isPrintable_of_mem_repr {v : Value} {c : Char} (hc : c ∈ (repr h v).toList) :
    isPrintable c = true := by
  rw [repr, String.toList_ofList] at hc
  refine forall_mem_writeWithin (fun _ => isPrintable_of_isPlain) [] v ?_ c hc
  exact fun object _ => forall_mem_quoted (fun _ => isPrintable_of_isPlain) (fun _ hd => hd) _

theorem isPlain_of_mem_repr {v : Value} (hv : ∀ object, ¬ h.Reaches v (.text object)) {c : Char}
    (hc : c ∈ (repr h v).toList) : isPlain c = true := by
  rw [repr, String.toList_ofList] at hc
  refine forall_mem_writeWithin (fun _ hd => hd) [] v ?_ c hc
  exact fun object hobject => absurd hobject (hv object)

theorem display_eq_repr {v : Value} (hv : v.kind ≠ .text) : display h v = repr h v := by
  cases v with
  | text object => exact absurd rfl hv
  | _ => rfl

/-- The line on which values are printed that are not texts. -/
theorem isPrintable_of_mem_line {vs : List Value} (hvs : ∀ v ∈ vs, v.kind ≠ .text) {c : Char}
    (hc : c ∈ (Console.line h vs).toList) : isPrintable c = true := by
  rw [Console.line, String.toList_intercalate, List.map_map] at hc
  refine forall_mem_intercalate (P := fun c => isPrintable c = true) ?_ ?_ c hc
  · exact forall_mem_of_all_isPlain (fun _ => isPrintable_of_isPlain) rfl
  · intro item hitem
    obtain ⟨v, hv, rfl⟩ := List.mem_map.1 hitem
    rw [Function.comp_apply, display_eq_repr (hvs v hv)]
    exact fun d hd => isPrintable_of_mem_repr hd

/-- Every character of the written form of a value is printable: it is no control, no format
character, no separator other than the space and not for private use. Where no text is reached it
is plain ASCII. Printing values that are not texts adds one line to the transcript, and the line has
no line break in it. -/
theorem repr_printable (h : Store) :
    (∀ v, ∀ c ∈ (repr h v).toList, isPrintable c = true ∧ c ≠ '\n' ∧
      ∀ ranges ∈ [controls, separators, formats, privateUse], inRanges ranges c.toNat = false) ∧
    (∀ v, (∀ object, ¬ h.Reaches v (.text object)) →
      ∀ c ∈ (repr h v).toList, 0x20 ≤ c.toNat ∧ c.toNat ≤ 0x7e) ∧
    ∀ (console : Console) (vs : List Value), (∀ v ∈ vs, v.kind ≠ .text) →
      ∃ line, (console.print h vs).transcript = console.transcript ++ [line] ∧
        ∀ c ∈ line.toList, isPrintable c = true ∧ isLineBreak c = false := by
  refine ⟨?_, ?_, ?_⟩
  · intro v c hc
    have hprintable := isPrintable_of_mem_repr hc
    refine ⟨hprintable, ?_, isPrintable_iff.1 hprintable⟩
    rintro rfl
    cases hprintable
  · intro v hv c hc
    exact of_decide_eq_true (isPlain_of_mem_repr hv hc)
  · intro console vs hvs
    refine ⟨_, Console.transcript_print console h vs, fun c hc => ?_⟩
    have hprintable := isPrintable_of_mem_line hvs hc
    exact ⟨hprintable, isLineBreak_of_isPrintable hprintable⟩

/-- A list of itself and of bytes that cannot all be shown, and a list of itself and of a text that
has line breaks. -/
def coiled : Store :=
  ⟨#[[.list ⟨0⟩, .bytes ⟨0, [10, 39, 255]⟩, .int (-3)], [.text ⟨1, "é\n\u2028"⟩, .list ⟨1⟩]], 2⟩

theorem repr_printable_coiled :
    (∀ object, ¬ coiled.Reaches (.list ⟨0⟩) (.text object)) ∧
      repr coiled (.list ⟨0⟩) = "[[...], b\"\\n'\\xff\", -3]" ∧
      (∀ c ∈ (repr coiled (.list ⟨0⟩)).toList, 0x20 ≤ c.toNat ∧ c.toNat ≤ 0x7e) ∧
      ∃ line, (Console.silent.print coiled [.list ⟨1⟩, .list ⟨0⟩]).transcript = [line] ∧
        ∀ c ∈ line.toList, isPrintable c = true ∧ isLineBreak c = false := by
  have hstay : ∀ v w, coiled.Reaches v w → v ∈ .list ⟨0⟩ :: coiled.elements ⟨0⟩ →
      w ∈ .list ⟨0⟩ :: coiled.elements ⟨0⟩ := by
    intro v w hvw
    induction hvw with
    | refl => exact id
    | @step r _ _ hmem _ ih =>
      intro hr
      have hzero : r = ⟨0⟩ := by simpa [coiled, Store.elements] using hr
      exact ih (List.mem_cons_of_mem _ (hzero ▸ hmem))
  have hnone : ∀ object, ¬ coiled.Reaches (.list ⟨0⟩) (.text object) := by
    intro object hobject
    simpa [coiled, Store.elements] using hstay _ _ hobject List.mem_cons_self
  obtain ⟨-, hascii, hlines⟩ := repr_printable coiled
  exact ⟨hnone, by decide +kernel, hascii _ hnone, hlines .silent _ (by simp [kind])⟩

end SharedValues.Value
