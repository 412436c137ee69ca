import ScopeCheck.Proofs.SinkIndependence
import ScopeCheck.Proofs.Verdict

/-!
# The exit status

A host reads one thing off a whole run, whether it should exit with success.  This module says which
runs fail, from the chains on the lines of the cases up to the report.

* `NormalCase.Fails`: a case that does not pass.
* `NormalCase.hasFailures_stats_iff`: only such a case leaves a failure in the statistics.
* `Engine.hasFailures_iff`: the statistics of loading and of all cases hold a failure when the
  grammar did not load or a case fails.
* `Setup.exit_tells_failures`: what the report of a whole run says, and what it does not depend on.
-/

namespace ScopeCheck

variable {S σ : Type}

/-- The parts of a case have different numbers of lines, or on some line the chains of the tokens
are not the expected ones. -/
def NormalCase.Fails (case : NormalCase) (tokenizer : Tokenizer S) (root : String) : Prop :=
  case.text.length ≠ case.expect.length ∨
    ∃ i < case.text.length, case.actual tokenizer i ≠ case.wanted root i

/-- A case that fails is counted as failed or as an error, and no other case is. -/
theorem NormalCase.hasFailures_stats_iff (case : NormalCase) (tokenizer : Tokenizer S)
    (root : String) :
    (case.stats tokenizer root).hasFailures = true ↔ case.Fails tokenizer root := by
  rw [Stats.hasFailures_iff, NormalCase.stats, NormalCase.Fails]
  by_cases h : case.text.length = case.expect.length
  · rw [if_neg (not_not.mpr h)]
    dsimp only
    split
    · rename_i hlines
      simpa [h] using hlines
    · rename_i hlines
      simpa [h] using hlines
  · rw [if_pos h]
    simp [h]

namespace Engine

theorem hasFailures_casesTally_iff (grammar : Grammar) (tokenizer : Tokenizer S)
    (options : Options) (cases : List Case) :
    (casesTally (.ready grammar tokenizer) options cases).hasFailures = true ↔
      ∃ case ∈ cases.map Case.normalize, case.Fails tokenizer grammar.scopeName := by
  rw [casesTally_ready, Stats.hasFailures_sum_iff]
  constructor
  · rintro ⟨_, hmem, hfailures⟩
    obtain ⟨case, hcase, rfl⟩ := List.mem_map.mp hmem
    exact ⟨case, hcase, (case.hasFailures_stats_iff _ _).mp hfailures⟩
  · rintro ⟨case, hcase, hfails⟩
    exact ⟨_, List.mem_map.mpr ⟨case, hcase, rfl⟩, (case.hasFailures_stats_iff _ _).mpr hfails⟩

/-- Loading and the cases after it leave a failure when the grammar did not load or a case fails. -/
theorem hasFailures_iff (engine : Engine S σ) (cases : List Case) :
    (Step.tally (loadSteps engine.backing) +
        casesTally engine.backing engine.options cases).hasFailures = true ↔
      engine.loadError? ≠ none ∨
        ∃ grammar tokenizer, engine.backing = .ready grammar tokenizer ∧
          ∃ case ∈ cases.map Case.normalize, case.Fails tokenizer grammar.scopeName := by
  rw [Stats.hasFailures_add_iff, loadError?]
  cases engine.backing with
  | ready grammar tokenizer =>
    rw [hasFailures_casesTally_iff]
    constructor
    · rintro (hload | hcases)
      · cases hload
      · exact .inr ⟨grammar, tokenizer, rfl, hcases⟩
    · rintro (hload | ⟨_, _, hready, hcases⟩)
      · exact absurd rfl hload
      · cases hready
        exact .inr hcases
  | failed source error => exact iff_of_true (.inl rfl) (.inl (Option.some_ne_none _))

end Engine

namespace Setup

/-- The report on a whole run fails when the policy of the engine asks for it and the grammar did
not load or a case fails. -/
theorem report_of_executeAll (setup : Setup S) (options : Options) {sink : Sink σ}
    (hsink : sink.NeverPanics) (state : σ) (cases : List Case) :
    let started := setup.start options sink state
    ∃ report, (started.after.executeAll cases).result = some report ∧
      (report.success = false ↔ options.terminateHostOnFailure = true ∧
        (started.after.loadError? ≠ none ∨
          ∃ grammar tokenizer, started.after.backing = .ready grammar tokenizer ∧
            ∃ case ∈ cases.map Case.normalize, case.Fails tokenizer grammar.scopeName)) := by
  intro started
  have hoptions : started.after.options = options := setup.start_after_options options sink state
  obtain ⟨-, hstats, -⟩ := setup.start_of_result_ne_none options sink state
    (setup.start_result_ne_none _ _ _ hsink)
  obtain ⟨hreport, -⟩ := Engine.executeAll_of_neverPanics started.after
    ((setup.start_after_sink options sink state).symm ▸ hsink) cases
  refine ⟨_, hreport, ?_⟩
  have hstart : started.after.stats = Step.tally (Engine.loadSteps started.after.backing) := hstats
  rw [Report.ofStats, hstart, hoptions, ← started.after.hasFailures_iff cases, hoptions]
  simp

/-- The host is told to fail exactly when the policy of the engine asks for it and the grammar did
not load or a case fails.  Another sink, other overrides, and other cases or another order of them
do not change that, as long as the same cases fail. -/
theorem exit_tells_failures (setup : Setup S) (options : Options) {sink : Sink σ}
    (hsink : sink.NeverPanics) (state : σ) (cases : List Case) :
    let started := setup.start options sink state
    ∃ report, (started.after.executeAll cases).result = some report ∧
      (report.success = false ↔ options.terminateHostOnFailure = true ∧
        (started.after.loadError? ≠ none ∨
          ∃ grammar tokenizer, started.after.backing = .ready grammar tokenizer ∧
            ∃ case ∈ cases.map Case.normalize, case.Fails tokenizer grammar.scopeName)) ∧
      (report.exit = .failure ↔ report.success = false) ∧
      ∀ (τ : Type) (sink' : Sink τ) (state' : τ) (cases' : List Case), sink'.NeverPanics →
        (∀ grammar tokenizer, started.after.backing = .ready grammar tokenizer →
          ∀ case : NormalCase, case.Fails tokenizer grammar.scopeName →
            (case ∈ cases.map Case.normalize ↔ case ∈ cases'.map Case.normalize)) →
        ∃ report', ((setup.start options sink' state').after.executeAll cases').result =
            some report' ∧
          report'.success = report.success ∧ report'.exit = report.exit := by
  intro started
  obtain ⟨report, hreport, hsuccess⟩ := setup.report_of_executeAll options hsink state cases
  refine ⟨report, hreport, hsuccess, ?_, ?_⟩
  · rw [Report.exit]
    cases report.success <;> simp
  · intro τ sink' state' cases' hsink' hfailing
    obtain ⟨report', hreport', hsuccess'⟩ :=
      setup.report_of_executeAll options hsink' state' cases'
    have hbacking : (setup.start options sink' state').after.backing = started.after.backing :=
      setup.start_after_backing options sink' state' sink state
    have herror : (setup.start options sink' state').after.loadError? =
        started.after.loadError? := by
      rw [Engine.loadError?, Engine.loadError?, hbacking]
    rw [hbacking, herror] at hsuccess'
    have hcases : (∃ grammar tokenizer, started.after.backing = .ready grammar tokenizer ∧
          ∃ case ∈ cases'.map Case.normalize, case.Fails tokenizer grammar.scopeName) ↔
        ∃ grammar tokenizer, started.after.backing = .ready grammar tokenizer ∧
          ∃ case ∈ cases.map Case.normalize, case.Fails tokenizer grammar.scopeName := by
      refine exists₂_congr fun grammar tokenizer => and_congr_right fun hready =>
        exists_congr fun case => and_congr_left fun hfails => ?_
      exact (hfailing grammar tokenizer hready case hfails).symm
    rw [hcases, ← hsuccess] at hsuccess'
    have hsame : report'.success = report.success := by
      rw [← Bool.not_inj_iff, Bool.eq_iff_iff, Bool.not_eq_true', Bool.not_eq_true']
      exact hsuccess'
    exact ⟨report', hreport', hsame, by rw [Report.exit, Report.exit, hsame]⟩

/-- The sink refuses every event, and the case that fails on its second line asks for a lenient
exit.  The host is told to fail all the same, and also when the sink keeps every event, the case
asks for nothing and two cases pass after it. -/
theorem exit_tells_failures_lenient_case :
    let tokenizer := Tokenizer.comment "source.c"
    let setup : Setup Bool := .ready ⟨"source.c", .null⟩ tokenizer
    let refusing := Sink.behind
      { refuse := ["invalid", "token_failed", "token_passed", "case_failed", "case_passed",
          "stats"] }
      .tracing
    let passing : Case := ⟨"words", .compact "a b", .compact "word|word", none⟩
    let strict : Case :=
      ⟨"number", .compact "/* a\nb */ 1", .compact "comment.block\ncomment.block|number", none⟩
    let lenient : Case := { strict with options := some { terminateHostOnFailure := some false } }
    refusing.NeverPanics ∧ Sink.recording.NeverPanics ∧
      lenient.normalize.Fails tokenizer "source.c" ∧
      (∃ report, ((setup.start {} refusing (0, ())).after.executeAll [passing, lenient]).result =
        some report ∧ report.exit = .failure) ∧
      ∃ report, ((setup.start {} .recording []).after.executeAll
        [strict, passing, passing]).result = some report ∧ report.exit = .failure := by
  intro tokenizer setup refusing passing strict lenient
  have hrefusing : refusing.NeverPanics := Sink.neverPanics_tracing.behind rfl
  have hfails : lenient.normalize.Fails tokenizer "source.c" := .inr ⟨1, by decide, by decide⟩
  obtain ⟨report, hreport, hsuccess, hexit, hother⟩ :=
    exit_tells_failures setup {} hrefusing (0, ()) [passing, lenient]
  have hfailure : report.exit = .failure := by
    rw [hexit, hsuccess]
    exact ⟨rfl, .inr ⟨_, _, rfl, lenient.normalize, by simp, hfails⟩⟩
  have hsame (case : NormalCase) : case ∈ [passing, lenient].map Case.normalize ↔
      case ∈ [strict, passing, passing].map Case.normalize := by
    show case ∈ [passing.normalize, lenient.normalize] ↔
      case ∈ [lenient.normalize, passing.normalize, passing.normalize]
    generalize passing.normalize = words
    generalize lenient.normalize = number
    simp [or_comm]
  obtain ⟨report', hreport', -, hexit'⟩ := hother _ Sink.recording [] [strict, passing, passing]
    Sink.neverPanics_recording fun _ _ _ case _ => hsame case
  exact ⟨hrefusing, Sink.neverPanics_recording, hfails, ⟨report, hreport, hfailure⟩, report',
    hreport', hexit'.trans hfailure⟩

end Setup

end ScopeCheck
