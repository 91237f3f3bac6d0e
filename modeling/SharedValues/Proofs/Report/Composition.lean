import SharedValues.Proofs.Report.Tally

/-!
# Reports compose

Counting verdicts on a new report succeeds exactly if there are fewer of them than a counter can
hold, and then leads to their tally (`collected_iff`). The tally of two lists of verdicts in a row is
the sum of their tallies, and merging adds reports, so it does not matter whether verdicts are
counted one after the other or in parts that are merged. The laws of `merge` on these reports are
those of `plus`.

A tally consists of counts and of a filtered list, so the order of the verdicts shows only in the
order of the failures.
-/

namespace SharedValues.Report

variable {xs ys zs : List (String × Verdict)} {r s t : Report}

/-- The report that counting the verdicts on a new report leads to. -/
def Collected (verdicts : List (String × Verdict)) (r : Report) : Prop :=
  empty.apply (recordAll verdicts) = (.ok (), r)

/-! ### What is collected -/

theorem Consistent.apply_record_eq_ok_iff {name : String} {verdict : Verdict} (hr : r.Consistent) :
    r.apply (record name verdict) = (.ok (), s) ↔
      r.total.toNat + 1 < UInt64.size ∧ s = r.plus (single name verdict) := by
  rw [hr.apply_record]
  split
  · rename_i hlt
    simp [hlt, eq_comm]
  · rename_i hlt
    simp [hlt]

theorem lt_of_apply_recordAll (hr : r.Consistent)
    (hok : r.apply (recordAll xs) = (.ok (), s)) : r.total.toNat + xs.length < UInt64.size := by
  induction xs generalizing r with
  | nil => exact r.total.toNat_lt_size
  | cons entry rest ih =>
    obtain ⟨name, verdict⟩ := entry
    rcases hrecord : r.apply (record name verdict) with ⟨overflow | ⟨⟩, r'⟩
    · rw [recordAll, apply_bind_of_error _ hrecord] at hok
      cases hok
    · rw [recordAll, apply_bind_of_ok _ hrecord] at hok
      -- The rest is counted on a report that is consistent again and has one verdict more.
      obtain ⟨hlt, rfl⟩ := hr.apply_record_eq_ok_iff.1 hrecord
      have hrest := ih (hr.plus_single hlt) hok
      rw [toNat_total_plus_single hlt] at hrest
      rw [List.length_cons]
      omega

theorem collected_tally (hlen : xs.length < UInt64.size) : Collected xs (tally xs) := by
  have hfits : empty.total.toNat + xs.length < UInt64.size := by
    rwa [empty, UInt64.toNat_zero, Nat.zero_add]
  rw [Collected, apply_recordAll consistent_empty hfits, empty_plus]

/-- Counting on a new report succeeds exactly if the total keeps in its range. -/
theorem collected_iff : Collected xs r ↔ xs.length < UInt64.size ∧ r = tally xs := by
  constructor
  · intro hr
    have hlen := lt_of_apply_recordAll consistent_empty hr
    rw [empty, UInt64.toNat_zero, Nat.zero_add] at hlen
    rw [Collected, collected_tally hlen] at hr
    cases hr
    exact ⟨hlen, rfl⟩
  · rintro ⟨hlen, rfl⟩
    exact collected_tally hlen

theorem consistent_tally (hlen : xs.length < UInt64.size) : (tally xs).Consistent := by
  induction xs with
  | nil => exact consistent_empty
  | cons entry rest ih =>
    obtain ⟨name, verdict⟩ := entry
    rw [List.length_cons] at hlen
    have hrest : rest.length < UInt64.size := Nat.lt_of_succ_lt hlen
    rw [tally_cons]
    refine (consistent_single name verdict).plus (ih hrest) ?_
    rwa [total_single, (sums_tally hrest).total, UInt64.toNat_one, Nat.add_comm]

/-! ### Verdicts in parts, and in another order -/

theorem tally_append (xs ys : List (String × Verdict)) :
    tally (xs ++ ys) = (tally xs).plus (tally ys) := by
  simp only [tally, plus, List.length_append, List.countP_append, List.filterMap_append,
    UInt64.ofNat_add]

theorem apply_merge_tally (hlen : xs.length + ys.length < UInt64.size) :
    (tally xs).apply (merge (tally ys)) = (.ok (), tally (xs ++ ys)) := by
  have hxs : xs.length < UInt64.size := by omega
  have hys : ys.length < UInt64.size := by omega
  have htotal : (tally xs).total.toNat + (tally ys).total.toNat < UInt64.size := by
    rwa [(sums_tally hxs).total, (sums_tally hys).total]
  rw [(consistent_tally hxs).apply_merge (consistent_tally hys), if_pos htotal, tally_append]

theorem count_empty (c : Counter) : empty.count c = 0 := by
  cases c <;> rfl

theorem apply_merge_empty (r : Report) : r.apply (merge empty) = (.ok (), r) := by
  rw [apply_merge_of_lt, plus_empty]
  intro c
  rw [count_empty, UInt64.toNat_zero, Nat.add_zero]
  exact (r.count c).toNat_lt_size

theorem apply_empty_merge (r : Report) : empty.apply (merge r) = (.ok (), r) := by
  rw [apply_merge_of_lt, empty_plus]
  intro c
  rw [count_empty, UInt64.toNat_zero, Nat.zero_add]
  exact (r.count c).toNat_lt_size

theorem count_tally_of_perm (hperm : xs.Perm ys) (c : Counter) :
    (tally xs).count c = (tally ys).count c := by
  cases c with
  | total => exact congrArg UInt64.ofNat hperm.length_eq
  | _ => exact congrArg UInt64.ofNat (hperm.countP_eq _)

theorem isSuccess_eq_of_count (hcount : ∀ c, r.count c = s.count c) : r.isSuccess = s.isSuccess := by
  have hfailed : r.failed = s.failed := hcount .failed
  have herrored : r.errored = s.errored := hcount .errored
  rw [isSuccess, isSuccess, hfailed, herrored]

/-- Two reports that say the same but for the order of their failures. -/
structure SameUpToOrder (r s : Report) : Prop where
  count : ∀ c, r.count c = s.count c
  isSuccess : r.isSuccess = s.isSuccess
  failures : r.failures.Perm s.failures

theorem sameUpToOrder_tally (hperm : xs.Perm ys) : SameUpToOrder (tally xs) (tally ys) := by
  have hcount := count_tally_of_perm hperm
  exact ⟨hcount, isSuccess_eq_of_count hcount, hperm.filterMap failureOf?⟩

/-- Reports of verdicts compose. Counting two lists of verdicts one after the other is merging the
report of the second into the report of the first. Merging is associative on such reports, as long
as their totals add up to a word, and the new report is neutral on both sides. Verdicts in another
order lead to the same report, but for the order of its failures. -/
theorem reports_compose :
    (∀ xs ys : List (String × Verdict), xs.length + ys.length < UInt64.size →
      ∃ r s t, Collected xs r ∧ Collected ys s ∧ Collected (xs ++ ys) t ∧
        r.apply (merge s) = (.ok (), t)) ∧
    (∀ xs ys zs r s t, Collected xs r → Collected ys s → Collected zs t →
      r.total.toNat + s.total.toNat + t.total.toNat < UInt64.size →
      ∃ rs st rst, r.apply (merge s) = (.ok (), rs) ∧ rs.apply (merge t) = (.ok (), rst) ∧
        s.apply (merge t) = (.ok (), st) ∧ r.apply (merge st) = (.ok (), rst)) ∧
    (∀ r : Report, r.apply (merge empty) = (.ok (), r) ∧ empty.apply (merge r) = (.ok (), r)) ∧
    (∀ xs ys : List (String × Verdict), xs.Perm ys → xs.length < UInt64.size →
      ∃ r s, Collected xs r ∧ Collected ys s ∧ SameUpToOrder r s) := by
  refine ⟨fun xs ys hlen => ?_, fun xs ys zs r s t hr hs ht htotal => ?_,
    fun r => ⟨apply_merge_empty r, apply_empty_merge r⟩, fun xs ys hperm hlen => ?_⟩
  · refine ⟨tally xs, tally ys, tally (xs ++ ys), collected_tally (by omega),
      collected_tally (by omega), collected_tally ?_, apply_merge_tally hlen⟩
    rwa [List.length_append]
  · obtain ⟨hxs, rfl⟩ := collected_iff.1 hr
    obtain ⟨hys, rfl⟩ := collected_iff.1 hs
    obtain ⟨hzs, rfl⟩ := collected_iff.1 ht
    rw [(sums_tally hxs).total, (sums_tally hys).total, (sums_tally hzs).total] at htotal
    refine ⟨_, _, tally (xs ++ ys ++ zs), apply_merge_tally (by omega), apply_merge_tally ?_,
      apply_merge_tally (by omega), ?_⟩
    · rwa [List.length_append]
    · rw [List.append_assoc]
      refine apply_merge_tally ?_
      rwa [List.length_append, ← Nat.add_assoc]
  · exact ⟨tally xs, tally ys, collected_tally hlen, collected_tally (hperm.length_eq ▸ hlen),
      sameUpToOrder_tally hperm⟩

/-- Verdicts of a first part of a run. -/
def morning : List (String × Verdict) := [("a", .pass), ("b", .fail "x")]

/-- Verdicts of a second part. -/
def evening : List (String × Verdict) := [("c", .error "y"), ("d", .fail "z"), ("e", .pass)]

theorem reports_compose_day :
    (∃ r s t, Collected morning r ∧ Collected evening s ∧ Collected (morning ++ evening) t ∧
      r.apply (merge s) = (.ok (), t)) ∧
    (∃ rs st rst, (tally morning).apply (merge (tally evening)) = (.ok (), rs) ∧
      rs.apply (merge (tally morning)) = (.ok (), rst) ∧
      (tally evening).apply (merge (tally morning)) = (.ok (), st) ∧
      (tally morning).apply (merge st) = (.ok (), rst)) ∧
    ∃ r s, Collected (morning ++ evening) r ∧ Collected (evening ++ morning) s ∧
      SameUpToOrder r s ∧ r.failures ≠ s.failures := by
  obtain ⟨happend, hassoc, -, horder⟩ := reports_compose
  have hmorning : Collected morning (tally morning) := collected_tally (by decide)
  have hevening : Collected evening (tally evening) := collected_tally (by decide)
  obtain ⟨r, s, hr, hs, hsame⟩ := horder (morning ++ evening) (evening ++ morning)
    List.perm_append_comm (by decide)
  refine ⟨happend morning evening (by decide),
    hassoc _ _ _ _ _ _ hmorning hevening hmorning (by decide), r, s, hr, hs, hsame, ?_⟩
  rw [(collected_iff.1 hr).2, (collected_iff.1 hs).2]
  decide

end SharedValues.Report
