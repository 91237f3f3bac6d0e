import SharedValues.Proofs.Json.Reading
import SharedValues.Report.Document

/-!
# Reports are read back

A report that is written as a JSON document and read again is the same report, whether its counters
fit together or not and whatever the names and reasons of its failures are made of. The document
comes back up to controls, which are then units instead of characters; neither the content of a text
nor anything else that a report is made of depends on that.
-/

namespace SharedValues

namespace Json

open Digits

/-! ### Counters as numbers -/

theorem exists_head_toDigits_of_pos {n : Nat} (hn : 0 < n) :
    ∃ c rest, Nat.toDigits 10 n = c :: rest ∧ c ≠ '0' := by
  induction n using Nat.strongRecOn with
  | ind n ih =>
    by_cases hsmall : n < 10
    · have hdigit : ∀ d : Fin 10, 0 < d.val → Nat.digitChar d ≠ '0' := by decide
      rw [Nat.toDigits_of_lt_base hsmall]
      exact ⟨_, [], rfl, hdigit ⟨n, hsmall⟩ hn⟩
    · -- all digits but the last are those of the tenth part
      obtain ⟨c, rest, htenth, hc⟩ := ih (n / 10) (by omega) (by omega)
      have hsplit := Nat.toDigits_append_toDigits (b := 10) (n := n / 10) (d := n % 10) (by decide)
        (by omega) (by omega)
      rw [Nat.div_add_mod] at hsplit
      rw [← hsplit, htenth]
      exact ⟨c, _, rfl, hc⟩

theorem isInteger_toDigits (n : Nat) : isInteger (Nat.toDigits 10 n) = true := by
  rcases Nat.eq_zero_or_pos n with rfl | hn
  · rfl
  · obtain ⟨c, rest, hdigits, hc⟩ := exists_head_toDigits_of_pos hn
    rw [hdigits]
    simp [isInteger, hc]

theorem isNumber_toDigits (n : Nat) : isNumber (Nat.toDigits 10 n) = true := by
  have hall : ∀ c ∈ Nat.toDigits 10 n, c.isDigit = true :=
    fun c hc => Nat.isDigit_of_mem_toDigits (by decide) (by decide) hc
  have hunsigned : isUnsigned (Nat.toDigits 10 n) = true := by
    rw [isUnsigned, List.takeWhile_eq_self_iff.2 hall, List.dropWhile_eq_nil_iff.2 hall,
      isInteger_toDigits]
    rfl
  obtain ⟨c, rest, hdigits, hc⟩ := exists_head_toDigits n
  rw [hdigits] at hunsigned ⊢
  rw [isNumber]
  · exact hunsigned
  · intro cs hminus
    exact ne_of_isDigit hc rfl (List.cons.inj hminus).1

theorem natural?_ofNat (n : Nat) : (ofNat n).natural? = some n := by
  have hall : (Nat.toDigits 10 n).all Char.isDigit = true := List.all_eq_true.2 fun c hc =>
    Nat.isDigit_of_mem_toDigits (by decide) (by decide) hc
  rw [ofNat, natural?, if_pos hall]
  exact congrArg some Nat.ofDigitChars_ten_toDigits

/-! ### Texts -/

/-- A unit below the surrogates is the character with its code. -/
theorem content?_asRead_cons (c : Char) (pieces : List Piece) :
    content? ((Piece.char c).asRead :: pieces) = (content? pieces).map (c :: ·) := by
  rw [Piece.asRead]
  split
  · rename_i hcontrol
    have hhigh : isHigh c.toNat = false := by
      simp [isHigh]
      omega
    have hlow : isLow c.toNat = false := by
      simp [isLow]
      omega
    rw [content?.eq_def]
    simp [hhigh, hlow]
  · rfl

theorem content?_asRead (cs : List Char) :
    content? ((cs.map Piece.char).map Piece.asRead) = some cs := by
  induction cs with
  | nil => rfl
  | cons c cs ih => rw [List.map_cons, List.map_cons, content?_asRead_cons, ih, Option.map_some]

theorem string?_asRead (s : String) : (ofString s).asRead.string? = some s := by
  rw [ofString, asRead, string?, content?_asRead, Option.map_some, String.ofList_toList]

theorem asReadItems_eq_map (items : List Json) : asReadItems items = items.map asRead := by
  induction items with
  | nil => rfl
  | cons v items ih => rw [asReadItems, ih, List.map_cons]

end Json

namespace Report

open Json

theorem counter?_asRead (n : UInt64) : counter? (ofNat n.toNat).asRead = some n := by
  have hread : (ofNat n.toNat).asRead = ofNat n.toNat := by
    rw [ofNat, asRead]
  have hrange : n.toNat < UInt64.size := n.toNat_lt
  rw [counter?, hread, natural?_ofNat]
  simp [hrange]

theorem failure?_asRead (failure : String × String) :
    failure? (failureDocument failure).asRead = some failure := by
  simp [failureDocument, asRead, asReadItems, failure?, items?, string?_asRead]

theorem failures?_asRead (failures : List (String × String)) :
    failures? (Json.array (failures.map failureDocument)).asRead = some failures := by
  have hall : ((failures.map failureDocument).map asRead).mapM failure? = some failures := by
    induction failures with
    | nil => rfl
    | cons failure failures ih =>
      rw [List.map_cons, List.map_cons, List.mapM_cons, failure?_asRead, ih]
      rfl
  rw [asRead, asReadItems_eq_map]
  exact hall

/-! ### Fields -/

/-- Keys have their names as content, and the values come back one by one. -/
theorem keyed?_asRead (names : List String) (values : List Json) :
    keyed? (asReadMembers ((names.map fun name => name.toList.map Piece.char).zip values)) =
      some ((names.map String.toList).zip (values.map asRead)) := by
  induction names generalizing values with
  | nil => rfl
  | cons name names ih =>
    cases values with
    | nil => rfl
    | cons v values =>
      have hrest := ih values
      rw [keyed?] at hrest
      rw [List.map_cons, List.zip_cons_cons, asReadMembers, keyed?, List.mapM_cons,
        content?_asRead, hrest]
      rfl

/-- Every field is found under its name. -/
theorem mapM_member?_fieldNames (total passed failed errored failures : Json) :
    fieldNames.mapM (member? ((fieldNames.map String.toList).zip
      [total, passed, failed, errored, failures])) =
      some [total, passed, failed, errored, failures] := by
  simp [fieldNames, member?]

theorem ofDocument?_asRead (r : Report) : ofDocument? r.document.asRead = some r := by
  rw [document, asRead, ofDocument?, keyed?_asRead]
  simp [fieldDocuments, mapM_member?_fieldNames, ofFields?, counter?_asRead, failures?_asRead]

theorem legible_document (r : Report) : Legible r.document := by
  have hchars : ∀ (s : String), ∀ p ∈ s.toList.map Piece.char, p.Fits := by
    intro s p hp
    obtain ⟨c, -, rfl⟩ := List.mem_map.1 hp
    trivial
  have hfailure : ∀ failure, Legible (failureDocument failure) := by
    intro failure
    exact .array (by simpa [ofString] using ⟨.text (hchars _), .text (hchars _)⟩)
  have hcounter : ∀ n : UInt64, Legible (ofNat n.toNat) := fun n => .number (isNumber_toDigits _)
  have hfields : ∀ v ∈ r.fieldDocuments, Legible v := by
    simp only [fieldDocuments, List.forall_mem_cons]
    exact ⟨hcounter _, hcounter _, hcounter _, hcounter _,
      .array (List.forall_mem_map.2 fun failure _ => hfailure failure), by simp⟩
  refine .object ?_ ?_
  · intro m hm
    obtain ⟨name, -, hkey⟩ := List.mem_map.1 (List.of_mem_zip hm).1
    rw [← hkey]
    exact hchars name
  · intro m hm
    exact hfields m.2 (List.of_mem_zip hm).2

/-- A report is read back from the document that it is written as. -/
theorem json_roundtrip (r : Report) : ofJson? r.toJson = some r := by
  rw [ofJson?, toJson, read?_write r.legible_document]
  exact ofDocument?_asRead r

example : toJson ⟨18446744073709551615, 0, 2, 0, [("a\"b", "\x01 \\ é"), ("", "\n")]⟩ =
    "\n".intercalate
      ["\x7b", "  \"total\": 18446744073709551615,", "  \"passed\": 0,", "  \"failed\": 2,",
        "  \"errored\": 0,", "  \"failures\": [", "    [", "      \"a\\\"b\",",
        "      \"\\u0001 \\\\ é\"", "    ],", "    [", "      \"\",", "      \"\\n\"", "    ]",
        "  ]", "\x7d"] := by
  decide +kernel

end Report

end SharedValues
