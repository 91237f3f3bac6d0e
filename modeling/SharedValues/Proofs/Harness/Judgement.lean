import SharedValues.Harness
import SharedValues.Proofs.Report.Tally
import SharedValues.Proofs.Script.Printing

/-!
# What a harness says about scenarios

Every scenario gets a console of its own, so its verdict is the one that it gets on a new harness,
whatever has run before it (`verdict_runScenario`). All else follows along the list of scenarios:
each adds an entry to the results and is counted in the report before the next one runs, so a run
ends early only where the report is at its limit.

A harness that passes lines on gives out another kind of console than one that does not. A script
that only prints cannot tell them apart, so its verdict does not hang on this choice either
(`Scenario.verdictAlone_eq`).
-/

namespace SharedValues

namespace Scenario

/-- The verdict on a scenario that runs alone on a new harness. -/
def verdictAlone (s : Scenario) (echo : Bool) : Verdict := ((Harness.start echo).runScenario s).1

/-- What is to be said about a scenario that is run on a console: a fault of its script counts
before all lines that were printed, and without one the lines have to be those that were
expected. -/
inductive Judged (s : Scenario) (c : Console) : Verdict → Prop where
  | error {fault : Fault} {after : Console} (hrun : s.script c = (.error fault, after)) :
    Judged s c (.error (fault.kind.name ++ ": " ++ fault.message))
  | pass {after : Console} (hrun : s.script c = (.ok (), after))
    (hlines : after.transcript = s.expected) : Judged s c .pass
  | fail {after : Console} {mismatch : Transcript.Mismatch} (hrun : s.script c = (.ok (), after))
    (hlines : after.transcript ≠ s.expected)
    (hmismatch : Transcript.mismatch? s.expected after.transcript = some mismatch) :
    Judged s c (.fail mismatch.message)

theorem verdict_eq_of_judged {s : Scenario} {c : Console} {verdict : Verdict}
    (hs : s.Judged c verdict) : Harness.verdict s.expected (s.run c).1 = verdict := by
  cases hs with
  | error hrun =>
    rw [run, hrun]
    rfl
  | pass hrun hlines =>
    have hnone : Transcript.mismatch? s.expected s.expected = none :=
      Transcript.mismatchFrom?_eq_none_iff.2 rfl
    rw [run, hrun]
    simp only [Harness.verdict, hlines, hnone]
  | fail hrun hlines hmismatch =>
    rw [run, hrun]
    simp only [Harness.verdict, hmismatch]

theorem judged_verdict (s : Scenario) (c : Console) :
    s.Judged c (Harness.verdict s.expected (s.run c).1) := by
  rcases hrun : s.script c with ⟨fault | _, after⟩
  · rw [run, hrun]
    exact .error hrun
  · rw [run, hrun]
    simp only [Harness.verdict]
    cases hmismatch : Transcript.mismatch? s.expected after.transcript with
    | none => exact .pass hrun (Transcript.mismatchFrom?_eq_none_iff.1 hmismatch).symm
    | some mismatch =>
      refine .fail hrun (fun hlines => ?_) hmismatch
      rw [Transcript.mismatch?, Transcript.mismatchFrom?_eq_none_iff.2 hlines.symm] at hmismatch
      cases hmismatch

theorem verdict_eq_iff_judged {s : Scenario} {c : Console} {verdict : Verdict} :
    Harness.verdict s.expected (s.run c).1 = verdict ↔ s.Judged c verdict :=
  ⟨fun hs => hs ▸ judged_verdict s c, verdict_eq_of_judged⟩

theorem run_eq_of_onlyPrints {s : Scenario} (hs : s.script.OnlyPrints) {c c' : Console}
    (hc : c.transcript = c'.transcript) : (s.run c).1 = (s.run c').1 := by
  obtain ⟨act, hact⟩ := hs
  simp only [run, hact, hc]
  rcases act c'.transcript with ⟨fault | _, lines⟩
  · rfl
  · simp only [Console.transcript_writeAll, hc]

theorem verdictAlone_eq {s : Scenario} (hs : s.script.OnlyPrints) (echo echo' : Bool) :
    s.verdictAlone echo = s.verdictAlone echo' := by
  have hfresh (echo : Bool) : (Harness.start echo).console.transcript = [] := by
    cases echo <;> rfl
  have hrun := run_eq_of_onlyPrints hs ((hfresh echo).trans (hfresh echo').symm)
  exact congrArg (Harness.verdict s.expected) hrun

end Scenario

namespace Harness

variable (h : Harness) (scenarios : List Scenario)

/-- The scenarios' names with the verdicts on each of them alone. -/
def alone (echo : Bool) (scenarios : List Scenario) : List (String × Verdict) :=
  scenarios.map fun s => (s.name, s.verdictAlone echo)

theorem verdict_runScenario (s : Scenario) : (h.runScenario s).1 = s.verdictAlone h.echo := rfl

theorem echo_runScenario (s : Scenario) : (h.runScenario s).2.echo = h.echo := rfl

theorem results_runScenario (s : Scenario) :
    (h.runScenario s).2.results = h.results ++ [(s.name, s.verdictAlone h.echo)] := rfl

/-! ### Runs -/

section Run

variable {report : Report}

theorem runOnto_cons_of_lt (hreport : report.Consistent)
    (hlt : report.total.toNat + 1 < UInt64.size) (s : Scenario) :
    h.runOnto report (s :: scenarios) =
      (h.runScenario s).2.runOnto (report.plus (.single s.name (s.verdictAlone h.echo)))
        scenarios := by
  simp only [runOnto, hreport.apply_record, if_pos hlt, verdict_runScenario]

theorem runOnto_cons_of_not_lt (hreport : report.Consistent)
    (hlt : ¬ report.total.toNat + 1 < UInt64.size) (s : Scenario) :
    h.runOnto report (s :: scenarios) = (.error .add, (h.runScenario s).2) := by
  simp only [runOnto, hreport.apply_record, if_neg hlt]

/-- The report of a run: the tally of all verdicts is added, if the total has room for them. -/
theorem runOnto_fst (hreport : report.Consistent) :
    (h.runOnto report scenarios).1 =
      if report.total.toNat + scenarios.length < UInt64.size then
        .ok (report.plus (Report.tally (alone h.echo scenarios)))
      else .error .add := by
  induction scenarios generalizing h report with
  | nil =>
    rw [List.length_nil, Nat.add_zero, if_pos report.total.toNat_lt_size, alone, List.map_nil,
      Report.tally_nil, Report.plus_empty]
    rfl
  | cons s rest ih =>
    by_cases hlt : report.total.toNat + 1 < UInt64.size
    · rw [runOnto_cons_of_lt h rest hreport hlt, ih _ (hreport.plus_single hlt),
        Report.toNat_total_plus_single hlt, echo_runScenario, Report.plus_assoc,
        ← Report.tally_cons, List.length_cons, Nat.add_right_comm, Nat.add_assoc]
      rfl
    · have hnot : ¬ report.total.toNat + (s :: rest).length < UInt64.size := by
        rw [List.length_cons]
        omega
      rw [runOnto_cons_of_not_lt h rest hreport hlt, if_neg hnot]

/-- The results of a run: one for each scenario until the total is at its limit, where the run ends
with the scenario whose verdict could not be counted. -/
theorem results_runOnto (hreport : report.Consistent) :
    (h.runOnto report scenarios).2.results =
      h.results ++ alone h.echo (scenarios.take (UInt64.size - report.total.toNat)) := by
  induction scenarios generalizing h report with
  | nil =>
    rw [List.take_nil]
    exact (List.append_nil _).symm
  | cons s rest ih =>
    by_cases hlt : report.total.toNat + 1 < UInt64.size
    · have hroom : UInt64.size - report.total.toNat =
          UInt64.size - (report.total.toNat + 1) + 1 := by omega
      rw [runOnto_cons_of_lt h rest hreport hlt, ih _ (hreport.plus_single hlt),
        Report.toNat_total_plus_single hlt, echo_runScenario, results_runScenario, hroom,
        List.take_succ_cons, List.append_assoc]
      rfl
    · have hroom : UInt64.size - report.total.toNat = 1 := by
        have := report.total.toNat_lt_size
        omega
      rw [runOnto_cons_of_not_lt h rest hreport hlt, results_runScenario, hroom]
      rfl

end Run

/-- Whatever a harness has run before: each scenario starts on an empty console and is judged as if
it were alone, the results grow by these verdicts, and the report sums them up. A run of more
scenarios than the report can count ends with the first that it cannot. -/
theorem runAll_judges :
    h.console.transcript = [] ∧
      (∀ s ∈ scenarios,
        (∀ verdict, s.verdictAlone h.echo = verdict ↔ s.Judged h.console verdict) ∧
          (s.script.OnlyPrints → ∀ echo, s.verdictAlone echo = s.verdictAlone h.echo)) ∧
      (h.runAll scenarios).2.results = h.results ++ alone h.echo (scenarios.take UInt64.size) ∧
      (scenarios.length < UInt64.size →
        (h.runAll scenarios).2.results = h.results ++ alone h.echo scenarios ∧
          ∃ report, (h.runAll scenarios).1 = .ok report ∧ report.Sums (alone h.echo scenarios)) ∧
      (UInt64.size ≤ scenarios.length → (h.runAll scenarios).1 = .error .add) := by
  have hzero : Report.empty.total.toNat = 0 := rfl
  have hresults := results_runOnto h scenarios Report.consistent_empty
  have hreport := runOnto_fst h scenarios Report.consistent_empty
  rw [hzero, Nat.sub_zero] at hresults
  rw [hzero, Nat.zero_add, Report.empty_plus] at hreport
  refine ⟨?_, fun s _ => ⟨fun verdict => ?_, fun hs echo => ?_⟩, hresults, fun hlen => ⟨?_, ?_⟩,
    fun hlen => ?_⟩
  · rw [console]
    split <;> rfl
  · exact Scenario.verdict_eq_iff_judged
  · exact Scenario.verdictAlone_eq hs echo h.echo
  · rw [runAll, hresults, List.take_of_length_le (Nat.le_of_lt hlen)]
  · rw [if_pos hlen] at hreport
    refine ⟨_, hreport, Report.sums_tally ?_⟩
    rw [alone, List.length_map]
    exact hlen
  · rw [if_neg (Nat.not_lt.2 hlen)] at hreport
    exact hreport

/-- Two scenarios of one name, of which the second expects another line, and one whose script prints
the expected line and then fails. -/
def trials : List Scenario :=
  let hello : Script.Step := .act (.print [.text "hello"])
  [⟨"greeting", ["hello"], Script.program 0 [hello]⟩,
    ⟨"greeting", ["goodbye"], Script.program 0 [hello]⟩,
    ⟨"fault", ["hello"], Script.program 0 [hello, .act (.raise (.emptyContainer "list"))]⟩]

/-- A harness that passes lines on and has run a scenario before. -/
def used : Harness := ⟨true, ["hello"], [("greeting", .pass)]⟩

def trialVerdicts : List (String × Verdict) :=
  [("greeting", .pass),
    ("greeting", .fail "line 1: expected \"goodbye\", got \"hello\""),
    ("fault", .error "IndexError: pop from empty list")]

theorem alone_trials : alone true trials = trialVerdicts := by decide +kernel

theorem onlyPrints_trials : ∀ s ∈ trials, s.script.OnlyPrints := by
  simp only [trials, List.forall_mem_cons]
  exact ⟨Script.onlyPrints_program _ _, Script.onlyPrints_program _ _,
    Script.onlyPrints_program _ _, List.forall_mem_nil _⟩

theorem runAll_judges_trials :
    trials.length < UInt64.size ∧
      (∀ s ∈ trials, s.script.OnlyPrints ∧ ∀ echo, s.verdictAlone echo = s.verdictAlone true) ∧
      (used.runAll trials).2.results = ("greeting", .pass) :: trialVerdicts ∧
      (∃ report, (used.runAll trials).1 = .ok report ∧ report.Sums trialVerdicts) ∧
      ∀ s, (used.runAll (List.replicate UInt64.size s)).1 = .error .add := by
  obtain ⟨-, hs, -, hfits, -⟩ := runAll_judges used trials
  have hlen : trials.length < UInt64.size := by decide
  obtain ⟨hresults, report, hok, hsums⟩ := hfits hlen
  refine ⟨hlen, fun s hmem => ?_, ?_, ⟨report, hok, alone_trials ▸ hsums⟩, fun s => ?_⟩
  · exact ⟨onlyPrints_trials s hmem, (hs s hmem).2 (onlyPrints_trials s hmem)⟩
  · rw [hresults, ← alone_trials]
    rfl
  · obtain ⟨-, -, -, -, hlimit⟩ := runAll_judges used (List.replicate UInt64.size s)
    exact hlimit (Nat.le_of_eq List.length_replicate.symm)

end Harness

end SharedValues
