import ScopeCheck.Proofs.Verdict

/-!
# How the tokenizer is called

A tokenizer is asked for its initial state once for each case that is compared, and then gets every
line of the case once, with the state that it returned for the line before.  A case that is rejected
does not reach it.

* `NormalCase.calls`: the calls for a case.  `calls_comparisonSteps` says that comparing makes them.
* `Engine.calls`: the calls while an engine runs cases.
* `Engine.resets_of_runs`: an engine counts those of them that ask for the initial state.
* `Engine.map_shown_runs_congr`: runs show no more of a tokenizer than the steps that it leads to.
* `Engine.tokenizer_driven_once`: the calls over a whole run, and what they do not depend on.
-/

namespace ScopeCheck

variable {S σ : Type}

/-! ## The calls for a case -/

namespace Tokenizer

/-- The calls for lines in order, each with the state that the call before it returned. -/
def lineCalls (tokenizer : Tokenizer S) : S → List String → List (Call S)
  | _, [] => []
  | state, line :: lines =>
    .line line state :: tokenizer.lineCalls (tokenizer.tokenize line state).next lines

theorem countP_lineCalls (tokenizer : Tokenizer S) (state : S) (lines : List String) :
    (tokenizer.lineCalls state lines).countP Call.isInitial = 0 := by
  induction lines generalizing state with
  | nil => rfl
  | cons line lines ih =>
    rw [lineCalls, List.countP_cons, ih]
    rfl

end Tokenizer

/-- The calls for a case: none, unless its parts have as many lines. -/
def NormalCase.calls (case : NormalCase) (tokenizer : Tokenizer S) : List (Tokenizer.Call S) :=
  if case.text.length = case.expect.length then
    .initial :: tokenizer.lineCalls tokenizer.initial case.text
  else []

/-- The calls for a case ask for the initial state once if the case is counted, and never if not. -/
theorem NormalCase.countP_calls (case : NormalCase) (tokenizer : Tokenizer S) (root : String) :
    (case.calls tokenizer).countP Tokenizer.Call.isInitial =
      (case.stats tokenizer root).cases := by
  rw [NormalCase.calls, NormalCase.stats]
  by_cases h : case.text.length = case.expect.length
  · rw [if_pos h, if_neg (not_not.mpr h), List.countP_cons, tokenizer.countP_lineCalls]
    rfl
  · rw [if_neg h, if_pos h]
    rfl

theorem Position.calls_steps (case : String) (verbose : Bool) (line : ComparedLine S)
    (p : Position) : Step.calls (p.steps case verbose line) = [] := by
  rw [Position.steps]
  cases p.passed with
  | false => rfl
  | true => cases verbose <;> rfl

/-- Whatever is reported of its positions, a line is tokenized once. -/
theorem ComparedLine.calls_steps (root case : String) (verbose : Bool) (line : ComparedLine S) :
    Step.calls (line.steps root case verbose) = [.line line.text line.state] := by
  rw [steps, Step.calls_cons, Step.calls_append, Step.calls_flatMap]
  simp only [Position.calls_steps, List.flatMap_eq_nil_iff.mpr fun _ _ => rfl]
  rfl

/-- The lines are compared in the states in which they are tokenized. -/
theorem map_comparedLinesFrom (tokenizer : Tokenizer S) (index : Nat) (state : S)
    (lines : List (String × List ScopeChain)) :
    (comparedLinesFrom tokenizer index state lines).map
        (fun line => Tokenizer.Call.line line.text line.state) =
      tokenizer.lineCalls state (lines.map Prod.fst) := by
  induction lines generalizing index state with
  | nil => rfl
  | cons line lines ih => exact congrArg _ (ih _ _)

theorem calls_comparisonSteps (tokenizer : Tokenizer S) (root : String) (verbose : Bool)
    {case : NormalCase} (h : case.text.length = case.expect.length) :
    Step.calls (comparisonSteps tokenizer root verbose case) =
      .initial :: tokenizer.lineCalls tokenizer.initial case.text := by
  rw [comparisonSteps, Step.calls_cons, Step.calls_append, Step.calls_flatMap]
  simp only [ComparedLine.calls_steps, ← List.map_eq_flatMap]
  rw [comparedLines, map_comparedLinesFrom, List.map_fst_zip h.le]
  exact congrArg _ (List.append_nil _)

namespace Engine

theorem calls_caseSteps_ready (grammar : Grammar) (tokenizer : Tokenizer S) (options : Options)
    (case : Case) :
    Step.calls (caseSteps (.ready grammar tokenizer) options case) =
      case.normalize.calls tokenizer := by
  rw [(caseSteps_ready grammar tokenizer options case).2.2, NormalCase.calls]
  by_cases h : case.normalize.text.length = case.normalize.expect.length
  · rw [if_pos h, if_pos h, calls_comparisonSteps _ _ _ h]
  · rw [if_neg h, if_neg h]
    rfl

/-! ## The calls over a run -/

/-- The calls that the tokenizer gets while cases run one after the other. -/
def calls (engine : Engine S σ) (cases : List Case) : List (Tokenizer.Call S) :=
  (engine.runs cases).flatMap Ended.calls

theorem calls_cons (engine : Engine S σ) (case : Case) (cases : List Case) :
    engine.calls (case :: cases) =
      (engine.run case).calls ++ (engine.run case).after.calls cases :=
  List.flatMap_cons

/-- An engine counts how often it asks for the initial state, whatever its sink does. -/
theorem resets_of_runs (engine : Engine S σ) (cases : List Case) :
    ((engine.runs cases).foldl (fun _ ended => ended.after) engine).bench.resets =
      engine.bench.resets + (engine.calls cases).countP Tokenizer.Call.isInitial := by
  induction cases generalizing engine with
  | nil => rfl
  | cons case cases ih =>
    have hrun : (engine.run case).after.bench.resets =
        engine.bench.resets + (engine.run case).calls.countP Tokenizer.Call.isInitial := by
      rw [run_eq]
      exact engine.sink.play_resets _ engine.bench
    rw [runs, List.foldl_cons, ih, hrun, calls_cons, List.countP_append, Nat.add_assoc]

/-- Over a sink that never breaks down, a run makes the calls of its steps. -/
theorem run_calls (engine : Engine S σ) (hsink : engine.sink.NeverPanics) (case : Case) :
    (engine.run case).calls = Step.calls (caseSteps engine.backing engine.options case) := by
  rw [run_eq]
  exact (engine.sink.play_carriedOut _ engine.bench).2.1.trans
    (congrArg Step.calls (hsink.carriedOut_eq _ _))

/-- Over a sink that never breaks down, the calls are those for the cases in order. -/
theorem calls_ready {sink : Sink σ} (hsink : sink.NeverPanics) (grammar : Grammar)
    (tokenizer : Tokenizer S) (options : Options) (bench : Bench σ) (cases : List Case) :
    let engine : Engine S σ := ⟨.ready grammar tokenizer, options, sink, bench⟩
    engine.calls cases = (cases.map Case.normalize).flatMap fun case => case.calls tokenizer := by
  induction cases generalizing bench with
  | nil => rfl
  | cons case cases ih =>
    intro engine
    have hcase : (engine.run case).calls = case.normalize.calls tokenizer :=
      (run_calls engine hsink case).trans (calls_caseSteps_ready grammar tokenizer options case)
    have hrest : (engine.run case).after.calls cases =
        (cases.map Case.normalize).flatMap fun case => case.calls tokenizer := by
      rw [run_eq]
      exact ih _
    rw [calls_cons, hcase, hrest, List.map_cons, List.flatMap_cons]

/-- An engine that has compared as many cases as it has reset its tokenizer keeps that up. -/
theorem resets_eq_cases {sink : Sink σ} (hsink : sink.NeverPanics) (grammar : Grammar)
    (tokenizer : Tokenizer S) (options : Options) {bench : Bench σ}
    (hbench : bench.resets = bench.stats.cases) (cases : List Case) :
    let engine : Engine S σ := ⟨.ready grammar tokenizer, options, sink, bench⟩
    let last := (engine.runs cases).foldl (fun _ ended => ended.after) engine
    last.bench.resets = last.stats.cases := by
  intro engine last
  have hcount : (engine.calls cases).countP Tokenizer.Call.isInitial =
      (casesTally engine.backing options cases).cases := by
    rw [calls_ready hsink, casesTally_ready, Stats.cases_sum, List.countP_flatMap]
    generalize cases.map Case.normalize = normals
    rw [List.map_map]
    refine congrArg List.sum (List.map_congr_left fun case _ => ?_)
    exact case.countP_calls tokenizer grammar.scopeName
  rw [resets_of_runs engine, (engine.runs_of_neverPanics hsink cases).2, hcount]
  exact congrArg (· + _) hbench

/-! ## What the answers decide -/

/-- Of two tokenizers that answer the calls for a case alike, one can stand for the other in its
steps and in its outcome. -/
theorem caseSteps_eq_of_answers {grammar : Grammar} {tokenizer other : Tokenizer S}
    {options : Options} {case : Case}
    (h : ∀ call ∈ case.normalize.calls tokenizer, other.answer call = tokenizer.answer call) :
    caseSteps (.ready grammar other) options case =
        caseSteps (.ready grammar tokenizer) options case ∧
      outcome (.ready grammar other) case.normalize =
        outcome (.ready grammar tokenizer) case.normalize := by
  obtain ⟨hsteps, hresult⟩ :=
    work_eq (.ready grammar tokenizer) (activeFor options case) case.normalize
  obtain ⟨hsteps', hresult'⟩ :=
    work_eq (.ready grammar other) (activeFor options case) case.normalize
  have hwork : work (.ready grammar other) (activeFor options case) case.normalize =
      work (.ready grammar tokenizer) (activeFor options case) case.normalize := by
    refine Procedure.run_eq_of_answers fun call hcall => h call ?_
    rw [← calls_caseSteps_ready grammar tokenizer options case, caseSteps, ← hsteps,
      Step.calls_cons]
    exact List.mem_append_right _ hcall
  rw [caseSteps, caseSteps, ← hsteps, ← hsteps', ← hresult, ← hresult', hwork]
  exact ⟨rfl, rfl⟩

/-- What a run shows of itself: all but what the engine tokenizes with. -/
def shown (ended : Ended S (Engine S σ) Outcome) :
    Option Outcome × List Handed × List (Tokenizer.Call S) × List Log.Record × Bench σ :=
  (ended.result, ended.handed, ended.calls, ended.log, ended.after.bench)

/-- Where the cases have the same steps and outcomes, runs show the same, also where they break
off. -/
theorem map_shown_runs_congr {backing backing' : Backing S} {options : Options} {sink : Sink σ}
    {bench : Bench σ} {cases : List Case}
    (h : ∀ case ∈ cases, caseSteps backing' options case = caseSteps backing options case ∧
      outcome backing' case.normalize = outcome backing case.normalize) :
    ((⟨backing', options, sink, bench⟩ : Engine S σ).runs cases).map shown =
      ((⟨backing, options, sink, bench⟩ : Engine S σ).runs cases).map shown := by
  induction cases generalizing bench with
  | nil => rfl
  | cons case cases ih =>
    obtain ⟨⟨hsteps, houtcome⟩, hcases⟩ := List.forall_mem_cons.mp h
    have hrest := @ih (sink.play (caseSteps backing options case) bench).bench hcases
    simp only [runs, run_eq, hsteps, houtcome, List.map_cons, hrest]
    rfl

/-! ## The calls and what comes of them -/

/-- Over a sink that never breaks down, the tokenizer is called for each case that is compared, once
for the initial state and then once for each line, with the state that the call before it returned.
Finishing does not call it.  The calls are the same on any other such engine for cases with the same
lines and as many expected lines.  They are all that the runs know of it: a tokenizer that answers
them alike makes the same runs.  The engine counts those for the initial state, and they stay as
many as the cases that it has compared. -/
theorem tokenizer_driven_once {sink : Sink σ} (hsink : sink.NeverPanics) (grammar : Grammar)
    (tokenizer : Tokenizer S) (options : Options) (bench : Bench σ) (cases : List Case) :
    let engine : Engine S σ := ⟨.ready grammar tokenizer, options, sink, bench⟩
    let last := (engine.runs cases).foldl (fun _ ended => ended.after) engine
    engine.calls cases =
      ((cases.map Case.normalize).flatMap fun case => case.calls tokenizer) ∧
    last.finish.calls = [] ∧
    (∀ (τ : Type) (sink' : Sink τ) (grammar' : Grammar) (options' : Options) (bench' : Bench τ)
        (cases' : List Case), sink'.NeverPanics →
      List.Forall₂ (fun case case' : Case =>
        case.normalize.text = case'.normalize.text ∧
          case.normalize.expect.length = case'.normalize.expect.length) cases cases' →
      let engine' : Engine S τ := ⟨.ready grammar' tokenizer, options', sink', bench'⟩
      engine'.calls cases' = engine.calls cases) ∧
    (∀ other : Tokenizer S,
      (∀ call ∈ engine.calls cases, other.answer call = tokenizer.answer call) →
      let engine' : Engine S σ := ⟨.ready grammar other, options, sink, bench⟩
      (engine'.runs cases).map shown = (engine.runs cases).map shown) ∧
    last.bench.resets = bench.resets + (engine.calls cases).countP Tokenizer.Call.isInitial ∧
    (bench.resets = bench.stats.cases → last.bench.resets = last.stats.cases) := by
  intro engine last
  refine ⟨calls_ready hsink .., ?_, ?_, ?_, resets_of_runs engine cases,
    fun hbench => resets_eq_cases hsink grammar tokenizer options hbench cases⟩
  · have hlast : last.sink.NeverPanics := (runs_after engine cases).2.2.symm ▸ hsink
    exact (last.sink.play_carriedOut (finishSteps last.stats) last.bench).2.1.trans
      (congrArg Step.calls (hlast.carriedOut_eq _ _))
  · intro τ sink' grammar' options' bench' cases' hsink' hcases engine'
    rw [calls_ready hsink', calls_ready hsink]
    induction hcases with
    | nil => rfl
    | cons hcase _ ih =>
      rw [List.map_cons, List.map_cons, List.flatMap_cons, List.flatMap_cons, ih, NormalCase.calls,
        NormalCase.calls, hcase.1, hcase.2]
  · intro other hanswers engine'
    rw [calls_ready hsink] at hanswers
    refine map_shown_runs_congr fun case hcase => caseSteps_eq_of_answers fun call hcall => ?_
    exact hanswers call (List.mem_flatMap.mpr ⟨case.normalize, List.mem_map_of_mem hcase, hcall⟩)

/-- The sink refuses everything.  A comment is open from the first line to the second, the next case
has a line too many, and the last one has no lines.  The calls are the same where the sink keeps
every event and the cases expect something else, and the runs are the same with a tokenizer that has
never seen another line. -/
theorem tokenizer_driven_once_no_lines :
    let refusing := Sink.behind
      { refuse := ["invalid", "token_failed", "case_failed", "case_passed", "stats"] } .tracing
    let cases : List Case :=
      [⟨"comment", .lines ["/* a", "b */"], .compact "comment.block\ncomment.block", none⟩,
        ⟨"uneven", .lines ["a", "b"], .rows [[["word"]]], none⟩,
        ⟨"empty", .lines [], .rows [], none⟩]
    let others : List Case :=
      [⟨"comment", .lines ["/* a", "b */"], .rows [[], [["word"]]],
          some { logAllPassedTokens := some true }⟩,
        ⟨"uneven", .lines ["a", "b"], .rows [[]], none⟩,
        ⟨"empty", .lines [], .rows [], none⟩]
    let bench : Bench (Nat × Unit) := { state := (0, ()) }
    let comments : Tokenizer Bool := .comment "source.c"
    let narrow : Tokenizer Bool :=
      ⟨false, fun line state =>
        if line ∈ ["/* a", "b */"] then comments.tokenize line state else ⟨[], true⟩⟩
    let engine : Engine Bool (Nat × Unit) :=
      ⟨.ready ⟨"source.c", .null⟩ comments, {}, refusing, bench⟩
    let narrowed : Engine Bool (Nat × Unit) :=
      ⟨.ready ⟨"source.c", .null⟩ narrow, {}, refusing, bench⟩
    let other : Engine Bool (List Event) :=
      ⟨.ready ⟨"source.c", .null⟩ comments, {}, .recording, { state := [] }⟩
    let last := (engine.runs cases).foldl (fun _ ended => ended.after) engine
    refusing.NeverPanics ∧ Sink.recording.NeverPanics ∧
      engine.calls cases = [.initial, .line "/* a" false, .line "b */" true, .initial] ∧
      last.finish.calls = [] ∧ other.calls others = engine.calls cases ∧
      (narrowed.runs cases).map shown = (engine.runs cases).map shown ∧
      bench.resets = bench.stats.cases ∧ last.bench.resets = 2 ∧ last.stats.cases = 2 := by
  intro refusing cases others bench comments narrow engine narrowed other last
  have hrefusing : refusing.NeverPanics := Sink.neverPanics_tracing.behind rfl
  obtain ⟨hcalls, hfinish, hothers, hanswers, hresets, hcases⟩ := tokenizer_driven_once hrefusing
    ⟨"source.c", .null⟩ comments {} bench cases
  have hlisted : engine.calls cases =
      [.initial, .line "/* a" false, .line "b */" true, .initial] :=
    hcalls.trans (by decide)
  have htwo : last.bench.resets = 2 := by
    rw [hresets, hlisted]
    rfl
  have hsame : other.calls others = engine.calls cases :=
    hothers _ _ _ _ _ others Sink.neverPanics_recording
      (.cons ⟨rfl, by decide⟩ (.cons ⟨rfl, rfl⟩ (.cons ⟨rfl, rfl⟩ .nil)))
  have hnarrowed : (narrowed.runs cases).map shown = (engine.runs cases).map shown := by
    refine hanswers narrow fun call hcall => ?_
    rw [hlisted] at hcall
    simp only [List.mem_cons, List.not_mem_nil, or_false] at hcall
    obtain rfl | rfl | rfl | rfl := hcall <;> rfl
  exact ⟨hrefusing, Sink.neverPanics_recording, hlisted, hfinish, hsame, hnarrowed, rfl, htwo,
    (hcases rfl).symm.trans htwo⟩

end Engine

end ScopeCheck
