import Mathlib.Algebra.Group.Nat.Defs
import SharedValues.Report.Basic

/-!
# Reports that calls have made

A report is made from the empty one by counting verdicts and by merging in reports that were made in
the same way. Each such report is consistent: its total is the sum of the other counters, and it has
one failure for every verdict that is not a pass.

A call adds to several counters one after the other, and any of these additions could overflow. In
consistent reports no counter exceeds the total, and the total is added to first. So a call that
gets past its first addition comes to its end, and one that does not has changed nothing.

Counting a verdict is merging in the report of this one verdict, so all that is said about a call is
said about `merge`.
-/

namespace SharedValues.Report

/-! ### Changes step by step -/

theorem add?_of_lt {m n : UInt64} (hmn : m.toNat + n.toNat < UInt64.size) :
    add? m n = some (m + n) :=
  if_pos hmn

theorem add?_of_not_lt {m n : UInt64} (hmn : ¬ m.toNat + n.toNat < UInt64.size) :
    add? m n = none :=
  if_neg hmn

theorem toNat_add_of_lt {m n : UInt64} (hmn : m.toNat + n.toNat < UInt64.size) :
    (m + n).toNat = m.toNat + n.toNat := by
  rw [UInt64.toNat_add]
  exact Nat.mod_eq_of_lt hmn

theorem apply_bind_of_ok {r r' : Report} {first : Change} (rest : Change)
    (hfirst : r.apply first = (.ok (), r')) : r.apply (do first; rest) = r'.apply rest := by
  change StateT.run first.run r = _ at hfirst
  simp only [apply, ExceptT.run_bind, StateT.run_bind]
  rw [hfirst]
  rfl

theorem apply_bind_of_error {r r' : Report} {first : Change} {overflow : Overflow} (rest : Change)
    (hfirst : r.apply first = (.error overflow, r')) :
    r.apply (do first; rest) = (.error overflow, r') := by
  change StateT.run first.run r = _ at hfirst
  simp only [apply, ExceptT.run_bind, StateT.run_bind]
  rw [hfirst]
  rfl

theorem apply_bind_congr {rest rest' : Change} (hrest : ∀ r : Report, r.apply rest = r.apply rest')
    (r : Report) (first : Change) : r.apply (do first; rest) = r.apply (do first; rest') := by
  rcases hfirst : r.apply first with ⟨overflow | ⟨⟩, r'⟩
  · rw [apply_bind_of_error _ hfirst, apply_bind_of_error _ hfirst]
  · rw [apply_bind_of_ok _ hfirst, apply_bind_of_ok _ hfirst, hrest]

theorem apply_bind_of_idle {rest : Change} (hrest : ∀ r : Report, r.apply rest = (.ok (), r))
    (r : Report) (first : Change) : r.apply (do first; rest) = r.apply first := by
  rcases hfirst : r.apply first with ⟨overflow | ⟨⟩, r'⟩
  · rw [apply_bind_of_error _ hfirst]
  · rw [apply_bind_of_ok _ hfirst, hrest]

theorem apply_increase (r : Report) (c : Counter) (n : UInt64) :
    r.apply (increase c n) =
      match add? (r.count c) n with
      | some m => (.ok (), r.withCount m c)
      | none => (.error .add, r) := by
  have hrun : r.apply (increase c n) = r.apply (match add? (r.count c) n with
      | some m => set (r.withCount m c)
      | none => throw .add) := rfl
  rw [hrun]
  cases add? (r.count c) n with
  | none => rfl
  | some m => rfl

theorem apply_extendFailures (r : Report) (failures : List (String × String)) :
    r.apply (extendFailures failures) = (.ok (), { r with failures := r.failures ++ failures }) :=
  rfl

/-! ### Merging -/

/-- The counters of two reports added up, and the failures of both. -/
def plus (r s : Report) : Report :=
  ⟨r.total + s.total, r.passed + s.passed, r.failed + s.failed, r.errored + s.errored,
    r.failures ++ s.failures⟩

theorem apply_increase_of_lt {r : Report} {c : Counter} {n : UInt64}
    (hn : (r.count c).toNat + n.toNat < UInt64.size) :
    r.apply (increase c n) = (.ok (), r.withCount (r.count c + n) c) := by
  rw [apply_increase, add?_of_lt hn]

theorem apply_increase_of_not_lt {r : Report} {c : Counter} {n : UInt64}
    (hn : ¬ (r.count c).toNat + n.toNat < UInt64.size) :
    r.apply (increase c n) = (.error .add, r) := by
  rw [apply_increase, add?_of_not_lt hn]

theorem lt_of_apply_increase {r r' : Report} {c : Counter} {n : UInt64}
    (hn : r.apply (increase c n) = (.ok (), r')) :
    (r.count c).toNat + n.toNat < UInt64.size := by
  by_cases hlt : (r.count c).toNat + n.toNat < UInt64.size
  · exact hlt
  · rw [apply_increase_of_not_lt hlt] at hn
    cases hn

theorem apply_merge_of_lt {r s : Report}
    (hfits : ∀ c, (r.count c).toNat + (s.count c).toNat < UInt64.size) :
    r.apply (merge s) = (.ok (), r.plus s) := by
  let r₁ : Report := { r with total := r.total + s.total }
  let r₂ : Report := { r₁ with passed := r.passed + s.passed }
  let r₃ : Report := { r₂ with failed := r.failed + s.failed }
  let r₄ : Report := { r₃ with errored := r.errored + s.errored }
  have htotal : r.apply (increase .total s.total) = (.ok (), r₁) :=
    apply_increase_of_lt (hfits .total)
  have hpassed : r₁.apply (increase .passed s.passed) = (.ok (), r₂) :=
    apply_increase_of_lt (hfits .passed)
  have hfailed : r₂.apply (increase .failed s.failed) = (.ok (), r₃) :=
    apply_increase_of_lt (hfits .failed)
  have herrored : r₃.apply (increase .errored s.errored) = (.ok (), r₄) :=
    apply_increase_of_lt (hfits .errored)
  rw [merge, apply_bind_of_ok _ htotal, apply_bind_of_ok _ hpassed, apply_bind_of_ok _ hfailed,
    apply_bind_of_ok _ herrored]
  rfl

theorem apply_merge_of_not_lt {r s : Report}
    (htotal : ¬ r.total.toNat + s.total.toNat < UInt64.size) :
    r.apply (merge s) = (.error .add, r) :=
  apply_bind_of_error _ (apply_increase_of_not_lt (c := .total) htotal)

/-- The report of one verdict. -/
def single (name : String) : Verdict → Report
  | .pass => ⟨1, 1, 0, 0, []⟩
  | .fail reason => ⟨1, 0, 1, 0, [(name, reason)]⟩
  | .error reason => ⟨1, 0, 0, 1, [(name, reason)]⟩

theorem apply_increase_zero (r : Report) (c : Counter) : r.apply (increase c 0) = (.ok (), r) := by
  have hlt : (r.count c).toNat + (0 : UInt64).toNat < UInt64.size := (r.count c).toNat_lt_size
  rw [apply_increase_of_lt hlt, UInt64.add_zero]
  cases c <;> rfl

theorem apply_skip (r : Report) (c : Counter) (rest : Change) :
    r.apply (do increase c 0; rest) = r.apply rest :=
  apply_bind_of_ok rest (apply_increase_zero r c)

/-- Adding zero never overflows, so it does not show that counting a verdict leaves out the
additions of zero that merging makes. -/
theorem apply_record (r : Report) (name : String) (verdict : Verdict) :
    r.apply (record name verdict) = r.apply (merge (single name verdict)) := by
  cases verdict with
  | pass =>
    refine apply_bind_congr (fun r => ?_) r _
    refine (apply_bind_of_idle (fun r => ?_) r _).symm
    dsimp only [single]
    rw [apply_skip, apply_skip, apply_extendFailures, List.append_nil]
  | fail reason =>
    refine apply_bind_congr (fun r => ?_) r _
    refine Eq.trans ?_ (apply_skip r .passed _).symm
    refine apply_bind_congr (fun r => ?_) r _
    exact (apply_skip r .errored _).symm
  | error reason =>
    refine apply_bind_congr (fun r => ?_) r _
    exact ((apply_skip r .passed _).trans (apply_skip r .failed _)).symm

/-! ### Consistency -/

/-- What the counters and the failures of a report have to do with each other. -/
structure Consistent (r : Report) : Prop where
  total : r.total.toNat = r.passed.toNat + r.failed.toNat + r.errored.toNat
  failures : r.failures.length = r.failed.toNat + r.errored.toNat

theorem consistent_empty : empty.Consistent := ⟨rfl, rfl⟩

theorem consistent_single (name : String) (verdict : Verdict) :
    (single name verdict).Consistent := by
  cases verdict <;> exact ⟨rfl, rfl⟩

theorem Consistent.count_le {r : Report} (hr : r.Consistent) (c : Counter) :
    (r.count c).toNat ≤ r.total.toNat := by
  have htotal := hr.total
  cases c <;> simp only [count] <;> omega

theorem Consistent.fits {r s : Report} (hr : r.Consistent) (hs : s.Consistent)
    (htotal : r.total.toNat + s.total.toNat < UInt64.size) (c : Counter) :
    (r.count c).toNat + (s.count c).toNat < UInt64.size := by
  have hle := Nat.add_le_add (hr.count_le c) (hs.count_le c)
  exact Nat.lt_of_le_of_lt hle htotal

/-- Merging consistent reports does all or nothing, and the totals decide which. -/
theorem Consistent.apply_merge {r s : Report} (hr : r.Consistent) (hs : s.Consistent) :
    r.apply (merge s) =
      if r.total.toNat + s.total.toNat < UInt64.size then (.ok (), r.plus s)
      else (.error .add, r) := by
  split
  · rename_i htotal
    exact apply_merge_of_lt (hr.fits hs htotal)
  · rename_i htotal
    exact apply_merge_of_not_lt htotal

theorem Consistent.plus {r s : Report} (hr : r.Consistent) (hs : s.Consistent)
    (htotal : r.total.toNat + s.total.toNat < UInt64.size) : (r.plus s).Consistent := by
  have hsum : ∀ c, (r.count c + s.count c).toNat = (r.count c).toNat + (s.count c).toNat :=
    fun c => toNat_add_of_lt (hr.fits hs htotal c)
  have hpassed := hsum .passed
  have hfailed := hsum .failed
  have herrored := hsum .errored
  simp only [count] at hpassed hfailed herrored
  constructor
  · rw [Report.plus, toNat_add_of_lt htotal, hpassed, hfailed, herrored, hr.total, hs.total]
    omega
  · rw [Report.plus, List.length_append, hfailed, herrored, hr.failures, hs.failures]
    omega

theorem Consistent.of_merge {r s : Report} (hr : r.Consistent) (hs : s.Consistent) :
    (r.apply (merge s)).2.Consistent := by
  rw [hr.apply_merge hs]
  split
  · rename_i htotal
    exact hr.plus hs htotal
  · exact hr

theorem isSuccess_iff {r : Report} :
    r.isSuccess = true ↔ r.failed.toNat = 0 ∧ r.errored.toNat = 0 := by
  rw [isSuccess, Bool.and_eq_true, beq_iff_eq, beq_iff_eq, ← UInt64.toNat_inj, ← UInt64.toNat_inj]
  rfl

theorem Consistent.isSuccess_iff_failures {r : Report} (hr : r.Consistent) :
    r.isSuccess = true ↔ r.failures = [] := by
  have hfailures := hr.failures
  rw [isSuccess_iff, ← List.length_eq_zero_iff]
  omega

theorem Consistent.isSuccess_iff_passed {r : Report} (hr : r.Consistent) :
    r.isSuccess = true ↔ r.passed = r.total := by
  have htotal := hr.total
  rw [isSuccess_iff, ← UInt64.toNat_inj]
  omega

/-! ### Reports that calls have made -/

/-- How a report is made: from the empty one, by counting verdicts and by merging in reports that
are made in the same way. -/
inductive Making where
  | new
  | record (before : Making) (name : String) (verdict : Verdict)
  | merge (before other : Making)

/-- The report that is made. A call that overflows leaves a report too, and later calls go on with
what it has left. -/
def Making.report : Making → Report
  | .new => .empty
  | .record before name verdict => (before.report.apply (Report.record name verdict)).2
  | .merge before other => (before.report.apply (Report.merge other.report)).2

theorem Making.consistent (m : Making) : m.report.Consistent := by
  induction m with
  | new => exact consistent_empty
  | record before name verdict ih =>
    rw [report, apply_record]
    exact ih.of_merge (consistent_single name verdict)
  | merge before other ih ih' => exact ih.of_merge ih'

/-- A change to a report that adds another one to it, all or nothing. -/
structure Atomic (r s : Report) (change : Change) : Prop where
  /-- The change begins with the addition to the total, and nothing after that overflows. -/
  first : ∃ rest : Change, change = (do increase .total s.total; rest) ∧
    ∀ r', r.apply (increase .total s.total) = (.ok (), r') → (r'.apply rest).1 = .ok ()
  /-- The change comes to its end, or it leaves the whole report as it was. -/
  settled : r.apply change = (.ok (), r.plus s) ∨ r.apply change = (.error .add, r)

theorem Consistent.atomic {r s : Report} {rest : Change} (hr : r.Consistent) (hs : s.Consistent)
    (hmerge : r.apply (do increase .total s.total; rest) = r.apply (Report.merge s)) :
    Atomic r s (do increase .total s.total; rest) := by
  refine ⟨⟨rest, rfl, fun r' hfirst => ?_⟩, ?_⟩
  · have htotal : r.total.toNat + s.total.toNat < UInt64.size := lt_of_apply_increase hfirst
    rw [← apply_bind_of_ok rest hfirst, hmerge, hr.apply_merge hs, if_pos htotal]
  · rw [hmerge, hr.apply_merge hs]
    split
    · exact Or.inl rfl
    · exact Or.inr rfl

/-- A report that calls have made counts each verdict once. Any further call on it overflows in its
first addition or not at all, and when it overflows the report stays as it was. -/
theorem made_consistent (m : Making) :
    m.report.Consistent ∧
      (m.report.isSuccess = true ↔ m.report.failures = []) ∧
      (m.report.failures = [] ↔ m.report.passed = m.report.total) ∧
      (∀ name verdict, Atomic m.report (single name verdict) (Report.record name verdict)) ∧
      ∀ other : Making, Atomic m.report other.report (Report.merge other.report) := by
  have hm : m.report.Consistent := m.consistent
  refine ⟨hm, hm.isSuccess_iff_failures, ?_, fun name verdict => ?_, fun other => ?_⟩
  · rw [← hm.isSuccess_iff_failures, hm.isSuccess_iff_passed]
  · have hrecord := apply_record m.report name verdict
    have hsingle := consistent_single name verdict
    cases verdict with
    | pass => exact hm.atomic hsingle hrecord
    | fail reason => exact hm.atomic hsingle hrecord
    | error reason => exact hm.atomic hsingle hrecord
  · exact hm.atomic other.consistent rfl

/-- One pass, merged with itself over and over. -/
def Making.doubled : Nat → Making
  | 0 => .record .new "pass" .pass
  | n + 1 => .merge (doubled n) (doubled n)

theorem Making.total_doubled {n : Nat} (hn : n < 64) : (doubled n).report.total.toNat = 2 ^ n := by
  induction n with
  | zero => rfl
  | succ n ih =>
    have hn' : (doubled n).report.total.toNat = 2 ^ n := ih (by omega)
    have hpow : 2 ^ n + 2 ^ n = 2 ^ (n + 1) := by omega
    have hlt : (doubled n).report.total.toNat + (doubled n).report.total.toNat < UInt64.size := by
      rw [hn', hpow]
      exact Nat.pow_lt_pow_right (by decide) hn
    rw [doubled, report, (doubled n).consistent.apply_merge (doubled n).consistent, if_pos hlt,
      Report.plus, toNat_add_of_lt hlt, hn', hpow]

-- Calls can overflow: the sixty-fourth doubling does.
example : (Making.doubled 63).report.apply (Report.merge (Making.doubled 63).report) =
    (.error .add, (Making.doubled 63).report) := by
  apply apply_merge_of_not_lt
  rw [Making.total_doubled (by decide)]
  decide

end SharedValues.Report
