import Mathlib.Order.Bounds.Defs
import SharedValues.Transcript

/-!
# Where two transcripts part

Two transcripts have lines in common up to some index and part there: the next lines differ, or one
of the two ends, or both do (`exists_parted`). The first difference is read off the place where they
part, and the lines before it do nothing but count (`mismatchFrom?_append`).

`scan` finds the same difference without taking the transcripts apart. It goes through the lines
that both have, and if these are the same it asks which transcript is longer and reads the first
line that only this one has by its index. This index always has a line (`scan_eq_ok`).
-/

namespace SharedValues.Transcript

/-! ### Scanning by index -/

/-- A line was read at an index that the transcript does not have. -/
structure OutOfBounds where
  index : Nat
  length : Nat
deriving DecidableEq, Repr

/-- The line at an index. -/
def lineAt (lines : List String) (i : Nat) : Except OutOfBounds String :=
  match lines[i]? with
  | some line => .ok line
  | none => .error ⟨i, lines.length⟩

/-- Two lines that stand at an index, if they differ. -/
def changed? (entry : (String × String) × Nat) : Option Mismatch :=
  if entry.1.1 = entry.1.2 then none else some (.changed (entry.2 + 1) entry.1.1 entry.1.2)

/-- The first difference, from the lines at the same indices and the lengths. -/
def scan (expected actual : List String) : Except OutOfBounds (Option Mismatch) :=
  match (expected.zip actual).zipIdx.findSome? changed? with
  | some mismatch => .ok (some mismatch)
  | none =>
    match compare expected.length actual.length with
    | .gt => do
      let e ← lineAt expected actual.length
      .ok (some (.missing (actual.length + 1) e))
    | .lt => do
      let a ← lineAt actual expected.length
      .ok (some (.extra (expected.length + 1) a))
    | .eq => .ok none

/-! ### Parting -/

/-- Two transcripts that do not begin with the same line. -/
inductive Parted : List String → List String → Prop where
  | changed {e a : String} (hea : e ≠ a) (es as : List String) : Parted (e :: es) (a :: as)
  | missing (e : String) (es : List String) : Parted (e :: es) []
  | extra (a : String) (as : List String) : Parted [] (a :: as)
  | equal : Parted [] []

theorem exists_parted (expected actual : List String) :
    ∃ common es as, expected = common ++ es ∧ actual = common ++ as ∧ Parted es as := by
  induction expected generalizing actual with
  | nil =>
    cases actual with
    | nil => exact ⟨[], [], [], rfl, rfl, .equal⟩
    | cons a as => exact ⟨[], [], a :: as, rfl, rfl, .extra a as⟩
  | cons e es ih =>
    cases actual with
    | nil => exact ⟨[], e :: es, [], rfl, rfl, .missing e es⟩
    | cons a as =>
      by_cases hea : e = a
      · subst hea
        obtain ⟨common, es', as', rfl, rfl, hparted⟩ := ih as
        exact ⟨e :: common, es', as', rfl, rfl, hparted⟩
      · exact ⟨[], e :: es, a :: as, rfl, rfl, .changed hea es as⟩

theorem getElem?_length_append (common rest : List String) :
    (common ++ rest)[common.length]? = rest[0]? := by
  rw [List.getElem?_append_right (Nat.le_refl _), Nat.sub_self]

theorem Parted.not_same {es as : List String} (hparted : Parted es as) {line : String}
    (hes : es[0]? = some line) : as[0]? ≠ some line := by
  cases hparted with
  | changed hea =>
    cases hes
    simpa using Ne.symm hea
  | _ => simp_all

/-- What two transcripts have in common before they part is their longest common beginning. -/
theorem Parted.isGreatest {es as : List String} (hparted : Parted es as) (common : List String) :
    IsGreatest {n | ∃ shared, shared.length = n ∧ shared <+: common ++ es ∧ shared <+: common ++ as}
      common.length := by
  refine ⟨⟨common, rfl, List.prefix_append _ _, List.prefix_append _ _⟩, ?_⟩
  rintro n ⟨shared, rfl, hes, has⟩
  refine Nat.le_of_not_lt fun hlt => ?_
  -- A longer one would go on with a line that both sides have where they part.
  have hline : ∀ {rest}, shared <+: common ++ rest → rest[0]? = some shared[common.length] := by
    intro rest hshared
    rw [← getElem?_length_append common rest]
    exact List.prefix_iff_getElem?.1 hshared common.length hlt
  exact hparted.not_same (hline hes) (hline has)

/-! ### The first difference -/

theorem mismatchFrom?_append (line : Nat) (common es as : List String) :
    mismatchFrom? line (common ++ es) (common ++ as) =
      mismatchFrom? (line + common.length) es as := by
  induction common generalizing line with
  | nil => rfl
  | cons c common ih =>
    rw [List.cons_append, List.cons_append, mismatchFrom?, if_pos rfl, ih, List.length_cons,
      Nat.add_right_comm, Nat.add_assoc]

/-- The first difference of two transcripts that part at once, by the index at which they do. -/
def partedAt? (p : Nat) : Option String → Option String → Option Mismatch
  | some e, some a => some (.changed (p + 1) e a)
  | some e, none => some (.missing (p + 1) e)
  | none, some a => some (.extra (p + 1) a)
  | none, none => none

theorem Parted.mismatch? {es as : List String} (hparted : Parted es as) (common : List String) :
    mismatch? (common ++ es) (common ++ as) = partedAt? common.length es[0]? as[0]? := by
  rw [Transcript.mismatch?, mismatchFrom?_append, Nat.add_comm]
  cases hparted with
  | changed hea => exact if_neg hea
  | _ => rfl

theorem findSome?_changed?_self (p : Nat) (common : List String) :
    ((common.zip common).zipIdx p).findSome? changed? = none := by
  induction common generalizing p with
  | nil => rfl
  | cons line common ih =>
    have hsame : changed? ((line, line), p) = none := if_pos rfl
    rw [List.zip_cons_cons, List.zipIdx_cons, List.findSome?_cons, hsame]
    exact ih (p + 1)

theorem lineAt_length_append (common : List String) (line : String) (rest : List String) :
    lineAt (common ++ line :: rest) common.length = .ok line := by
  rw [lineAt, getElem?_length_append]
  rfl

/-- The scan reads no line that is not there, and finds the first difference. -/
theorem scan_eq_ok (expected actual : List String) :
    scan expected actual = .ok (mismatch? expected actual) := by
  obtain ⟨common, es, as, rfl, rfl, hparted⟩ := exists_parted expected actual
  -- The lines in common differ nowhere, so the scan finds what it finds where they end.
  have hzip : ((common ++ es).zip (common ++ as)).zipIdx.findSome? changed? =
      ((es.zip as).zipIdx common.length).findSome? changed? := by
    rw [List.zip_append rfl, List.zipIdx_append, List.findSome?_append, findSome?_changed?_self,
      Option.none_or, List.length_zip, Nat.min_self, Nat.zero_add]
  have hlength : ∀ line rest, common.length < (common ++ line :: rest : List String).length := by
    simp
  rw [scan, hzip, hparted.mismatch?]
  cases hparted with
  | changed hea es as => simp [changed?, hea, partedAt?]
  | missing e es =>
    rw [List.append_nil, List.zip_nil_right, Nat.compare_eq_gt.2 (hlength e es)]
    dsimp only [List.zipIdx_nil, List.findSome?_nil]
    rw [lineAt_length_append]
    rfl
  | extra a as =>
    rw [List.append_nil, List.zip_nil_left, Nat.compare_eq_lt.2 (hlength a as)]
    dsimp only [List.zipIdx_nil, List.findSome?_nil]
    rw [lineAt_length_append]
    rfl
  | equal =>
    rw [Nat.compare_eq_eq.2 rfl]
    rfl

/-- Two transcripts have no first difference exactly if they are equal. Otherwise it is found at the
index `p` that is the length of their longest common beginning, and told as line `p + 1`: as a
change if both have a line there, as missing or as extra output if only one of them does. This holds
however the lines are quoted; `Mismatch.message` quotes them as `Text.quotedLine` does. A scan by
index finds the difference too, and never reads beyond the end of a transcript. -/
theorem first_difference_at_common_length (expected actual : List String) :
    scan expected actual = .ok (mismatch? expected actual) ∧
      (mismatch? expected actual = none ↔ expected = actual) ∧
      Mismatch.message = Mismatch.messageWith Text.quotedLine ∧
      ∃ p, IsGreatest {n | ∃ common : List String,
          common.length = n ∧ common <+: expected ∧ common <+: actual} p ∧
        ∀ quote : String → String,
          (mismatch? expected actual).map (Mismatch.messageWith quote) =
            match expected[p]?, actual[p]? with
            | some e, some a =>
              some ("line " ++ (p + 1).repr ++ ": expected " ++ quote e ++ ", got " ++ quote a)
            | some e, none =>
              some ("missing output from line " ++ (p + 1).repr ++ ": expected " ++ quote e)
            | none, some a =>
              some ("unexpected extra output at line " ++ (p + 1).repr ++ ": " ++ quote a)
            | none, none => none := by
  refine ⟨scan_eq_ok expected actual, mismatchFrom?_eq_none_iff, rfl, ?_⟩
  obtain ⟨common, es, as, rfl, rfl, hparted⟩ := exists_parted expected actual
  refine ⟨common.length, hparted.isGreatest common, fun quote => ?_⟩
  rw [hparted.mismatch?, getElem?_length_append, getElem?_length_append]
  cases es[0]? <;> cases as[0]? <;> rfl

end SharedValues.Transcript
