import SharedValues.Text.Character

/-!
# Transcripts

The comparison of the lines that were expected with those that were printed. It finds the first
line that differs, counted from one.
-/

namespace SharedValues.Transcript

/-- The first difference between two transcripts. -/
inductive Mismatch where
  /-- Both have this line, and it differs. -/
  | changed (line : Nat) (expected actual : String)
  /-- Only the expected transcript has this line. -/
  | missing (line : Nat) (expected : String)
  /-- Only the actual transcript has this line. -/
  | extra (line : Nat) (actual : String)
deriving DecidableEq, Repr

/-- The text of a difference, in which lines are quoted in a given way. -/
def Mismatch.messageWith (quote : String → String) : Mismatch → String
  | .changed line expected actual =>
    "line " ++ line.repr ++ ": expected " ++ quote expected ++ ", got " ++ quote actual
  | .missing line expected =>
    "missing output from line " ++ line.repr ++ ": expected " ++ quote expected
  | .extra line actual => "unexpected extra output at line " ++ line.repr ++ ": " ++ quote actual

/-- The text of a difference. -/
def Mismatch.message : Mismatch → String := messageWith Text.quotedLine

/-- The first difference of two transcripts whose first lines have this number. -/
def mismatchFrom? (line : Nat) : List String → List String → Option Mismatch
  | [], [] => none
  | e :: _, [] => some (.missing line e)
  | [], a :: _ => some (.extra line a)
  | e :: es, a :: as =>
    if e = a then mismatchFrom? (line + 1) es as else some (.changed line e a)

/-- The first difference between the expected and the actual transcript. -/
def mismatch? (expected actual : List String) : Option Mismatch :=
  mismatchFrom? 1 expected actual

theorem mismatchFrom?_eq_none_iff {line : Nat} {expected actual : List String} :
    mismatchFrom? line expected actual = none ↔ expected = actual := by
  induction expected generalizing line actual with
  | nil => cases actual <;> simp [mismatchFrom?]
  | cons e es ih =>
    cases actual with
    | nil => simp [mismatchFrom?]
    | cons a as =>
      by_cases h : e = a
      · simp [mismatchFrom?, h, ih]
      · simp [mismatchFrom?, h]

end SharedValues.Transcript
