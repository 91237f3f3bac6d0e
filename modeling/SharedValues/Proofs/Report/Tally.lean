import SharedValues.Proofs.Report.Consistency

/-!
# The report of a list of verdicts

`tally` says at once what counting verdicts one after the other leads to: every counter is the
number of the verdicts that it counts, and the failures are the names and reasons of all verdicts
that are not a pass, in order. The report of a first verdict and of the rest add up, so the fold
over the list is an induction in which the reports before it are added to.
-/

namespace SharedValues.Report

/-- The failure that a report keeps of a verdict, if it keeps one. -/
def failureOf? (entry : String × Verdict) : Option (String × String) :=
  entry.2.reason?.map fun reason => (entry.1, reason)

def tally (verdicts : List (String × Verdict)) : Report where
  total := .ofNat verdicts.length
  passed := .ofNat (verdicts.countP fun entry => entry.2.isPass)
  failed := .ofNat (verdicts.countP fun entry => entry.2.isFail)
  errored := .ofNat (verdicts.countP fun entry => entry.2.isError)
  failures := verdicts.filterMap failureOf?

theorem plus_assoc (r s t : Report) : (r.plus s).plus t = r.plus (s.plus t) := by
  simp only [plus, UInt64.add_assoc, List.append_assoc]

theorem plus_empty (r : Report) : r.plus empty = r := by
  simp only [plus, empty, UInt64.add_zero, List.append_nil]

theorem empty_plus (r : Report) : empty.plus r = r := by
  simp only [plus, empty, UInt64.zero_add, List.nil_append]

theorem tally_nil : tally [] = empty := rfl

theorem tally_cons (name : String) (verdict : Verdict) (rest : List (String × Verdict)) :
    tally ((name, verdict) :: rest) = (single name verdict).plus (tally rest) := by
  cases verdict <;>
    simp [tally, single, plus, List.filterMap_cons, failureOf?, Verdict.isPass, Verdict.isFail,
      Verdict.isError, Verdict.reason?, UInt64.ofNat_add, UInt64.add_comm]

theorem total_single (name : String) (verdict : Verdict) : (single name verdict).total = 1 := by
  cases verdict <;> rfl

section Record

variable {r : Report} {name : String} {verdict : Verdict}

/-- A consistent report counts a verdict unless its total is at its limit. -/
theorem Consistent.apply_record (hr : r.Consistent) :
    r.apply (record name verdict) =
      if r.total.toNat + 1 < UInt64.size then (.ok (), r.plus (single name verdict))
      else (.error .add, r) := by
  rw [Report.apply_record, hr.apply_merge (consistent_single name verdict), total_single,
    UInt64.toNat_one]

theorem toNat_total_plus_single (hlt : r.total.toNat + 1 < UInt64.size) :
    (r.plus (single name verdict)).total.toNat = r.total.toNat + 1 := by
  have htotal : (r.plus (single name verdict)).total = r.total + 1 := by
    rw [plus, total_single]
  rw [htotal, toNat_add_of_lt hlt, UInt64.toNat_one]

theorem Consistent.plus_single (hr : r.Consistent) (hlt : r.total.toNat + 1 < UInt64.size) :
    (r.plus (single name verdict)).Consistent := by
  refine hr.plus (consistent_single name verdict) ?_
  rwa [total_single, UInt64.toNat_one]

end Record

/-- Counts verdicts in order. -/
def recordAll : List (String × Verdict) → Change
  | [] => pure ()
  | (name, verdict) :: rest => do
    record name verdict
    recordAll rest

/-- Counting verdicts adds their tally, as long as the total keeps in its range. -/
theorem apply_recordAll {r : Report} {verdicts : List (String × Verdict)} (hr : r.Consistent)
    (hlen : r.total.toNat + verdicts.length < UInt64.size) :
    r.apply (recordAll verdicts) = (.ok (), r.plus (tally verdicts)) := by
  induction verdicts generalizing r with
  | nil =>
    rw [tally_nil, plus_empty]
    rfl
  | cons entry rest ih =>
    obtain ⟨name, verdict⟩ := entry
    rw [List.length_cons] at hlen
    have hlt : r.total.toNat + 1 < UInt64.size := by omega
    have hrecord : r.apply (record name verdict) = (.ok (), r.plus (single name verdict)) := by
      rw [hr.apply_record, if_pos hlt]
    have hrest : (r.plus (single name verdict)).total.toNat + rest.length < UInt64.size := by
      rw [toNat_total_plus_single hlt]
      omega
    calc r.apply (recordAll ((name, verdict) :: rest))
        = (r.plus (single name verdict)).apply (recordAll rest) := apply_bind_of_ok _ hrecord
      _ = (.ok (), (r.plus (single name verdict)).plus (tally rest)) :=
        ih (hr.plus_single hlt) hrest
      _ = (.ok (), r.plus (tally ((name, verdict) :: rest))) := by rw [plus_assoc, tally_cons]

/-- What a report says about the verdicts that it counts. -/
structure Sums (verdicts : List (String × Verdict)) (r : Report) : Prop where
  total : r.total.toNat = verdicts.length
  passed : r.passed.toNat = verdicts.countP fun entry => entry.2.isPass
  failed : r.failed.toNat = verdicts.countP fun entry => entry.2.isFail
  errored : r.errored.toNat = verdicts.countP fun entry => entry.2.isError
  failures : r.failures = verdicts.filterMap failureOf?

theorem sums_tally {verdicts : List (String × Verdict)} (hlen : verdicts.length < UInt64.size) :
    Sums verdicts (tally verdicts) := by
  have hcount : ∀ p : String × Verdict → Bool,
      (UInt64.ofNat (verdicts.countP p)).toNat = verdicts.countP p := fun p =>
    UInt64.toNat_ofNat_of_lt (Nat.lt_of_le_of_lt List.countP_le_length hlen)
  exact ⟨UInt64.toNat_ofNat_of_lt hlen, hcount _, hcount _, hcount _, rfl⟩

end SharedValues.Report
