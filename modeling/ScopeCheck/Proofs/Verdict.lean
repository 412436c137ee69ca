import ScopeCheck.Proofs.Running
import ScopeCheck.Tokenizer

/-!
# The verdict and the counters of one case

On an engine that has its grammar, a case ends as the chains of its tokens say, and adds to the
statistics exactly what is on its lines.  Neither depends on what the engine ran before, on the
options or on what the sink makes of the events.

* `caseOutcome_eq_passed_iff` and its companions: how a case ends.
* `NormalCase.stats`: what a case adds to the statistics.
* `Engine.casesTally_ready`, `Engine.progress_of_runs`: what many cases add, and how they end one
  after the other.
* `Engine.run_verdict_and_counters`: the result of a run and the statistics after it.
-/

namespace ScopeCheck

variable {S σ : Type}

section Outcome

variable (tokenizer : Tokenizer S) (root : String) (case : NormalCase)

theorem caseOutcome_eq_invalid_iff :
    caseOutcome tokenizer root case = .invalid ↔ case.text.length ≠ case.expect.length := by
  rw [caseOutcome]
  split
  · simp [*]
  · split <;> simp [*]

/-- A case passes when its parts have as many lines, and on every line the chains of the tokens are
the expected ones. -/
theorem caseOutcome_eq_passed_iff :
    caseOutcome tokenizer root case = .passed ↔
      case.text.length = case.expect.length ∧
        ∀ i < case.text.length, case.actual tokenizer i = case.wanted root i := by
  rw [caseOutcome]
  by_cases h : case.text.length = case.expect.length
  · rw [if_neg (not_not.mpr h), ← caseFailures_eq_zero_iff tokenizer root h]
    split <;> simp [*]
  · rw [if_pos h]
    simp [h]

theorem caseOutcome_eq_failed_iff :
    caseOutcome tokenizer root case = .failed ↔
      case.text.length = case.expect.length ∧
        ∃ i < case.text.length, case.actual tokenizer i ≠ case.wanted root i := by
  have hinvalid := caseOutcome_eq_invalid_iff tokenizer root case
  have hpassed := caseOutcome_eq_passed_iff tokenizer root case
  cases houtcome : caseOutcome tokenizer root case with
  | invalid => simp [hinvalid.mp houtcome]
  | passed =>
    obtain ⟨-, hlines⟩ := hpassed.mp houtcome
    simpa using fun _ => hlines
  | failed =>
    rw [houtcome] at hinvalid hpassed
    have hlength : case.text.length = case.expect.length := by simpa using hinvalid
    simpa [hlength] using hpassed

end Outcome

/-- What a case adds to the statistics.  A case whose parts have different numbers of lines is an
error and nothing else.  Any other case adds its lines and the places on them, where a place is
passed when the chains of the tokens and the expected ones agree at it. -/
def NormalCase.stats (case : NormalCase) (tokenizer : Tokenizer S) (root : String) : Stats :=
  let actual := case.actual tokenizer
  let wanted := case.wanted root
  let lines := List.range case.text.length
  if case.text.length ≠ case.expect.length then { errors := 1 }
  else
    { cases := 1
      passedCases := if ∀ i < case.text.length, actual i = wanted i then 1 else 0
      failedCases := if ∀ i < case.text.length, actual i = wanted i then 0 else 1
      lines := case.text.length
      passedLines := lines.countP fun i => actual i = wanted i
      failedLines := lines.countP fun i => actual i ≠ wanted i
      tokens := (lines.map fun i => max (actual i).length (wanted i).length).sum
      passedTokens := (lines.map fun i => agreements (actual i) (wanted i)).sum
      failedTokens := (lines.map fun i => mismatches (actual i) (wanted i)).sum }

/-- Every line and every place on it is passed or failed. -/
theorem NormalCase.stats_passed_add_failed (case : NormalCase) (tokenizer : Tokenizer S)
    (root : String) :
    let added := case.stats tokenizer root
    added.passedLines + added.failedLines = added.lines ∧
      added.passedTokens + added.failedTokens = added.tokens := by
  by_cases h : case.text.length = case.expect.length
  · rw [NormalCase.stats, if_neg (not_not.mpr h)]
    constructor
    · have hlines := List.length_eq_countP_add_countP
        (fun i => decide (case.actual tokenizer i = case.wanted root i))
        (l := List.range case.text.length)
      rw [List.length_range] at hlines
      refine Eq.trans ?_ hlines.symm
      simp only [decide_eq_true_eq]
    · refine List.sum_map_add.symm.trans (congrArg List.sum (List.map_congr_left fun i _ => ?_))
      exact agreements_add_mismatches _ _
  · rw [NormalCase.stats, if_pos h]
    exact ⟨rfl, rfl⟩

namespace Engine

/-- What a case adds to the statistics of an engine that has its grammar. -/
theorem tally_caseSteps_ready (grammar : Grammar) (tokenizer : Tokenizer S) (options : Options)
    (case : Case) :
    Step.tally (caseSteps (.ready grammar tokenizer) options case) =
      case.normalize.stats tokenizer grammar.scopeName := by
  rw [(caseSteps_ready grammar tokenizer options case).1, NormalCase.stats]
  by_cases h : case.normalize.text.length = case.normalize.expect.length
  · rw [if_pos h, if_neg (not_not.mpr h), tally_comparisonSteps _ _ _ h, Stats.single_case,
      sum_lineStats, List.length_range]
    simp [Stats.add_def, caseFailures_eq_zero_iff _ _ h]
  · rw [if_neg h, if_pos h, tally_rejectionSteps]

/-- What cases add to the statistics of an engine that has its grammar depends on nothing but their
normal forms. -/
theorem casesTally_ready (grammar : Grammar) (tokenizer : Tokenizer S) (options : Options)
    (cases : List Case) :
    casesTally (.ready grammar tokenizer) options cases =
      ((cases.map Case.normalize).map fun case =>
        case.stats tokenizer grammar.scopeName).sum := by
  unfold casesTally
  rw [List.map_map]
  refine congrArg List.sum (List.map_congr_left fun case _ => ?_)
  exact tally_caseSteps_ready grammar tokenizer options case

/-- How cases end one after the other, and the statistics after each of them. -/
def progress (tokenizer : Tokenizer S) (root : String) :
    Stats → List NormalCase → List (Option Outcome × Stats)
  | _, [] => []
  | stats, case :: cases =>
    let after := stats + case.stats tokenizer root
    (some (caseOutcome tokenizer root case), after) :: progress tokenizer root after cases

/-- The results of cases on an engine that has its grammar, and the statistics after each. -/
theorem progress_of_runs {sink : Sink σ} (hsink : sink.NeverPanics) (grammar : Grammar)
    (tokenizer : Tokenizer S) (options : Options) (bench : Bench σ) (cases : List Case) :
    let engine : Engine S σ := ⟨.ready grammar tokenizer, options, sink, bench⟩
    (engine.runs cases).map (fun ended => (ended.result, ended.after.stats)) =
      progress tokenizer grammar.scopeName bench.stats (cases.map Case.normalize) := by
  intro engine
  induction cases generalizing bench with
  | nil => rfl
  | cons case cases ih =>
    obtain ⟨hresult, hstats, -⟩ :=
      run_of_result_ne_none (run_result_ne_none engine hsink case)
    rw [tally_caseSteps_ready] at hstats
    have hafter : (engine.run case).after =
        ⟨.ready grammar tokenizer, options, sink, (engine.run case).after.bench⟩ := by
      rw [run_eq]
    have hrest := ih (engine.run case).after.bench
    rw [← hafter] at hrest
    rw [runs, List.map_cons, List.map_cons, progress, hresult, hstats, hrest]
    exact congrArg _ (congrArg (progress _ _ · _) hstats)

/-- How a case ends on an engine that has its grammar, and what it adds to the statistics that the
engine had so far. -/
theorem run_verdict_and_counters {sink : Sink σ} (hsink : sink.NeverPanics) (grammar : Grammar)
    (tokenizer : Tokenizer S) (options : Options) (bench : Bench σ) (case : Case) :
    let engine : Engine S σ := ⟨.ready grammar tokenizer, options, sink, bench⟩
    let text := case.normalize.text
    let expect := case.normalize.expect
    let actual := case.normalize.actual tokenizer
    let wanted := case.normalize.wanted grammar.scopeName
    let added := case.normalize.stats tokenizer grammar.scopeName
    (∃ outcome, (engine.run case).result = some outcome ∧
      (outcome = .invalid ↔ text.length ≠ expect.length) ∧
      (outcome = .passed ↔
        text.length = expect.length ∧ ∀ i < text.length, actual i = wanted i) ∧
      (outcome = .failed ↔
        text.length = expect.length ∧ ∃ i < text.length, actual i ≠ wanted i)) ∧
    (engine.run case).after.stats = bench.stats + added ∧
      added.passedLines + added.failedLines = added.lines ∧
      added.passedTokens + added.failedTokens = added.tokens := by
  intro engine text expect actual wanted added
  obtain ⟨hresult, hstats, -⟩ :=
    run_of_result_ne_none (run_result_ne_none engine hsink case)
  refine ⟨⟨_, hresult, caseOutcome_eq_invalid_iff _ _ _, caseOutcome_eq_passed_iff _ _ _,
    caseOutcome_eq_failed_iff _ _ _⟩, ?_, NormalCase.stats_passed_add_failed _ _ _⟩
  rw [hstats, tally_caseSteps_ready]
  rfl

/-- A comment that is open over two lines, and a word too many after its end. -/
theorem run_verdict_and_counters_open_comment :
    let case : Case :=
      ⟨"comment", .compact "/* a\nb */ c", .compact "comment.block\ncomment.block|word|word", none⟩
    let engine : Engine Bool (List Event) :=
      ⟨.ready ⟨"source.c", .null⟩ (.comment "source.c"), {}, .recording,
        { stats := { errors := 2 }, state := [] }⟩
    Sink.recording.NeverPanics ∧ (engine.run case).result = some .failed ∧
      (engine.run case).after.stats =
        { errors := 2, cases := 1, failedCases := 1, lines := 2, passedLines := 1
          failedLines := 1, tokens := 4, passedTokens := 3, failedTokens := 1 } := by
  intro case engine
  obtain ⟨⟨outcome, hresult, -, -, hfailed⟩, hstats, -⟩ :=
    run_verdict_and_counters Sink.neverPanics_recording ⟨"source.c", .null⟩ (.comment "source.c") {}
      { stats := { errors := 2 }, state := [] } case
  refine ⟨Sink.neverPanics_recording, ?_, ?_⟩
  · rw [hresult, hfailed.mpr ⟨by decide, 1, by decide⟩]
  · exact hstats.trans (by decide)

end Engine

end ScopeCheck
