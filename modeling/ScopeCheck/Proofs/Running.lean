import ScopeCheck.Engine
import ScopeCheck.Proofs.Comparison

/-!
# What an engine does

The actions of an engine as functions of its grammar, its options and its statistics.

* `Engine.caseSteps`: the steps that an engine runs for a case.  `Engine.tally_caseSteps` and
  `Engine.events_caseSteps` give what they come to.
* `Engine.run_eq`: a run of a case plays these steps and leaves all but the bench as it was.
* `Engine.run_of_result_ne_none`: what a run that does not break off adds and hands over.
* `Engine.runAll_of_neverPanics`, `Engine.runs_of_neverPanics`, `Engine.executeAll_of_neverPanics`:
  the same for many cases, over a sink that never breaks down.
* `Engine.executeAll_recording`: a recording holds the events handed over.
* `Setup.start_of_result_ne_none`: what making an engine adds and hands over.
-/

namespace ScopeCheck

variable {S σ : Type}

namespace Engine

/-! ## The steps of a case -/

/-- The options that are active while a case runs. -/
def activeFor (options : Options) (case : Case) : Options :=
  (options.enter case.options).1

/-- What the override of a case says about passed tokens goes before the options of the engine. -/
theorem activeFor_logAllPassedTokens (options : Options) (case : Case) :
    (activeFor options case).logAllPassedTokens =
      (case.options.bind Override.logAllPassedTokens).getD options.logAllPassedTokens := by
  rw [activeFor]
  cases case.options <;> rfl

/-- The steps for a case under the active options. -/
def steps (backing : Backing S) (active : Options) (case : NormalCase) : List (Step S) :=
  caseStart case ::
    match backing with
    | .ready grammar tokenizer =>
      ScopeCheck.caseSteps tokenizer grammar.scopeName active.logAllPassedTokens case
    | .failed source _ => rejectionSteps case.name ("grammar " ++ source ++ " did not load")

/-- How a case ends. -/
def outcome (backing : Backing S) (case : NormalCase) : Outcome :=
  match backing with
  | .ready grammar tokenizer => caseOutcome tokenizer grammar.scopeName case
  | .failed _ _ => .invalid

/-- The work on a case is its steps and comes to its outcome, which does not depend on the
options. -/
theorem work_eq (backing : Backing S) (active : Options) (case : NormalCase) :
    caseStart case :: (work backing active case).steps = steps backing active case ∧
      (work backing active case).result = outcome backing case := by
  cases backing with
  | ready grammar tokenizer =>
    rw [work, run_compareCase]
    exact ⟨rfl, rfl⟩
  | failed source error => exact ⟨rfl, rfl⟩

/-- The steps that an engine runs for a case. -/
def caseSteps (backing : Backing S) (options : Options) (case : Case) : List (Step S) :=
  steps backing (activeFor options case) case.normalize

/-- What a case that is rejected adds to the statistics. -/
theorem tally_rejectionSteps (subject reason : String) :
    Step.tally (rejectionSteps (S := S) subject reason) = { errors := 1 } :=
  rfl

theorem events_rejectionSteps (subject reason : String) :
    Step.events (rejectionSteps (S := S) subject reason) = [.invalid subject reason] :=
  rfl

/-- On an engine that has its grammar, the steps around those of the comparison neither count nor
report anything, and do not call the tokenizer. -/
theorem caseSteps_ready (grammar : Grammar) (tokenizer : Tokenizer S) (options : Options)
    (case : Case) :
    let normal := case.normalize
    let inner : List (Step S) :=
      if normal.text.length = normal.expect.length then
        comparisonSteps tokenizer grammar.scopeName (activeFor options case).logAllPassedTokens
          normal
      else rejectionSteps normal.name (lengthMismatch normal.text.length normal.expect.length)
    Step.tally (caseSteps (.ready grammar tokenizer) options case) = Step.tally inner ∧
      Step.events (caseSteps (.ready grammar tokenizer) options case) = Step.events inner ∧
      Step.calls (caseSteps (.ready grammar tokenizer) options case) = Step.calls inner := by
  intro normal inner
  have hsteps : caseSteps (.ready grammar tokenizer) options case =
      .log .debug "running case" [("case", normal.name), ("lines", toString normal.text.length)] ::
        .enter caseSpan [("case", normal.name)] :: (inner ++ [.leave caseSpan]) :=
    rfl
  rw [hsteps]
  refine ⟨?_, ?_, ?_⟩
  · rw [Step.tally_cons, Step.tally_cons, Step.tally_append]
    exact (zero_add _).trans ((zero_add _).trans (add_zero _))
  · rw [Step.events_cons, Step.events_cons, Step.events_append]
    exact List.append_nil _
  · rw [Step.calls_cons, Step.calls_cons, Step.calls_append]
    exact List.append_nil _

theorem events_caseSteps_ready (grammar : Grammar) (tokenizer : Tokenizer S) (options : Options)
    (case : Case) :
    Step.events (caseSteps (.ready grammar tokenizer) options case) =
      case.normalize.events tokenizer grammar.scopeName
        (activeFor options case).logAllPassedTokens := by
  rw [(caseSteps_ready grammar tokenizer options case).2.1, NormalCase.events]
  by_cases h : case.normalize.text.length = case.normalize.expect.length
  · rw [if_pos h, if_pos h, events_comparisonSteps _ _ _ h]
  · rw [if_neg h, if_neg h, events_rejectionSteps]

/-! ## One case -/

theorem run_eq (engine : Engine S σ) (case : Case) :
    let played := engine.sink.play (caseSteps engine.backing engine.options case) engine.bench
    engine.run case =
      ⟨{ engine with bench := played.bench },
        if played.panicked then none else some (outcome engine.backing case.normalize),
        played.handed, played.calls, played.log⟩ := by
  obtain ⟨hsteps, hresult⟩ :=
    work_eq engine.backing (activeFor engine.options case) case.normalize
  rw [caseSteps, ← hsteps, ← hresult, run, activeFor, Options.within]
  cases case.options <;> rfl

@[simp] theorem run_after_backing (engine : Engine S σ) (case : Case) :
    (engine.run case).after.backing = engine.backing := by
  rw [run_eq]

@[simp] theorem run_after_options (engine : Engine S σ) (case : Case) :
    (engine.run case).after.options = engine.options := by
  rw [run_eq]

@[simp] theorem run_after_sink (engine : Engine S σ) (case : Case) :
    (engine.run case).after.sink = engine.sink := by
  rw [run_eq]

/-- A run that breaks off has handed over an event at which the sink broke down. -/
theorem run_result_eq_none_iff (engine : Engine S σ) (case : Case) :
    (engine.run case).result = none ↔
      ∃ handed ∈ (engine.run case).handed, handed.fate = .panicked := by
  rw [run_eq, ← Sink.play_panicked_iff]
  split <;> simp [*]

/-- A run that does not break off adds the tally of its steps and hands over their events. -/
theorem run_of_result_ne_none {engine : Engine S σ} {case : Case}
    (h : (engine.run case).result ≠ none) :
    let steps := caseSteps engine.backing engine.options case
    (engine.run case).result = some (outcome engine.backing case.normalize) ∧
      (engine.run case).after.stats = engine.stats + Step.tally steps ∧
      (engine.run case).handed.map Handed.event = Step.events steps := by
  rw [run_eq] at h ⊢
  split at h
  · exact absurd rfl h
  · rename_i hpanicked
    rw [if_neg hpanicked]
    have hplayed := Sink.play_of_not_panicked (Bool.not_eq_true _ ▸ hpanicked)
    exact ⟨rfl, hplayed.1, hplayed.2⟩

theorem run_result_ne_none (engine : Engine S σ) (hsink : engine.sink.NeverPanics)
    (case : Case) : (engine.run case).result ≠ none := by
  rw [run_eq, hsink.play_not_panicked]
  exact Option.some_ne_none _

/-! ## Many cases -/

/-- What cases add to the statistics, one after the other. -/
def casesTally (backing : Backing S) (options : Options) (cases : List Case) : Stats :=
  (cases.map fun case => Step.tally (caseSteps backing options case)).sum

/-- The events of cases, one block for each. -/
def caseBlocks (backing : Backing S) (options : Options) (cases : List Case) :
    List (List Event) :=
  cases.map fun case => Step.events (caseSteps backing options case)

/-- After a case with a result, the other cases run on the engine that it leaves. -/
theorem runAll_cons {engine : Engine S σ} {case : Case} {outcome : Outcome}
    (h : (engine.run case).result = some outcome) (cases : List Case) :
    engine.runAll (case :: cases) =
      ⟨((engine.run case).after.runAll cases).after,
        ((engine.run case).after.runAll cases).result.map (outcome :: ·),
        (engine.run case).handed ++ ((engine.run case).after.runAll cases).handed,
        (engine.run case).calls ++ ((engine.run case).after.runAll cases).calls,
        (engine.run case).log ++ ((engine.run case).after.runAll cases).log⟩ := by
  rw [runAll, h]

theorem runAll_after (engine : Engine S σ) (cases : List Case) :
    (engine.runAll cases).after.backing = engine.backing ∧
      (engine.runAll cases).after.options = engine.options ∧
      (engine.runAll cases).after.sink = engine.sink := by
  induction cases generalizing engine with
  | nil => exact ⟨rfl, rfl, rfl⟩
  | cons case cases ih =>
    cases hresult : (engine.run case).result with
    | none =>
      rw [runAll, hresult]
      simp
    | some outcome =>
      rw [runAll_cons hresult]
      simpa using ih (engine.run case).after

theorem runs_after (engine : Engine S σ) (cases : List Case) :
    let last := (engine.runs cases).foldl (fun _ ended => ended.after) engine
    last.backing = engine.backing ∧ last.options = engine.options ∧ last.sink = engine.sink := by
  induction cases generalizing engine with
  | nil => exact ⟨rfl, rfl, rfl⟩
  | cons case cases ih =>
    rw [runs, List.foldl_cons]
    simpa using ih (engine.run case).after

/-- Over a sink that never breaks down, every case has its result, and the statistics and events
of the cases add up. -/
theorem runAll_of_neverPanics (engine : Engine S σ) (hsink : engine.sink.NeverPanics)
    (cases : List Case) :
    (engine.runAll cases).result =
        some (cases.map fun case => outcome engine.backing case.normalize) ∧
      (engine.runAll cases).after.stats =
        engine.stats + casesTally engine.backing engine.options cases ∧
      (engine.runAll cases).handed.map Handed.event =
        (caseBlocks engine.backing engine.options cases).flatten := by
  induction cases generalizing engine with
  | nil => exact ⟨rfl, (add_zero _).symm, rfl⟩
  | cons case cases ih =>
    obtain ⟨hresult, hstats, hevents⟩ :=
      run_of_result_ne_none (run_result_ne_none engine hsink case)
    have hsink' : (engine.run case).after.sink.NeverPanics := by rwa [run_after_sink]
    obtain ⟨hresults, htally, hblocks⟩ := ih (engine.run case).after hsink'
    rw [run_after_backing, run_after_options] at htally hblocks
    rw [run_after_backing] at hresults
    rw [runAll_cons hresult]
    refine ⟨?_, ?_, ?_⟩
    · rw [hresults]
      rfl
    · rw [htally, hstats, add_assoc]
      rfl
    · rw [List.map_append, hevents, hblocks]
      rfl

/-- Over a sink that never breaks down, every case has its result and its events, and the statistics
add up. -/
theorem runs_of_neverPanics (engine : Engine S σ) (hsink : engine.sink.NeverPanics)
    (cases : List Case) :
    (engine.runs cases).map (fun ended => (ended.result, ended.handed.map Handed.event)) =
        cases.map (fun case => (some (outcome engine.backing case.normalize),
          Step.events (caseSteps engine.backing engine.options case))) ∧
      ((engine.runs cases).foldl (fun _ ended => ended.after) engine).stats =
        engine.stats + casesTally engine.backing engine.options cases := by
  induction cases generalizing engine with
  | nil => exact ⟨rfl, (add_zero _).symm⟩
  | cons case cases ih =>
    obtain ⟨hresult, hstats, hevents⟩ :=
      run_of_result_ne_none (run_result_ne_none engine hsink case)
    obtain ⟨hruns, hlast⟩ := ih (engine.run case).after ((run_after_sink engine case).symm ▸ hsink)
    rw [run_after_backing, run_after_options] at hruns hlast
    rw [runs, List.map_cons, List.map_cons, List.foldl_cons, hresult, hevents, hruns, hlast, hstats,
      add_assoc]
    exact ⟨rfl, rfl⟩

theorem exists_run_of_getElem? (engine : Engine S σ) (hsink : engine.sink.NeverPanics)
    {cases : List Case} {k : Nat} {case : Case} (h : cases[k]? = some case) :
    ∃ ended, (engine.runs cases)[k]? = some ended ∧
      ended.handed.map Handed.event =
        Step.events (caseSteps engine.backing engine.options case) := by
  have hruns := congrArg (·[k]?) (engine.runs_of_neverPanics hsink cases).1
  simp only [List.getElem?_map, h, Option.map_some] at hruns
  obtain ⟨ended, hended, hshown⟩ := Option.map_eq_some_iff.mp hruns
  exact ⟨ended, hended, congrArg Prod.snd hshown⟩

/-- Runs that the sink never cuts off add the tallies of their cases and hand over their events. -/
theorem runs_unbroken (engine : Engine S σ) (cases : List Case)
    (h : ∀ handed ∈ (engine.runs cases).flatMap Ended.handed, handed.fate ≠ .panicked) :
    ((engine.runs cases).foldl (fun _ ended => ended.after) engine).stats =
        engine.stats + casesTally engine.backing engine.options cases ∧
      ((engine.runs cases).flatMap Ended.handed).map Handed.event =
        (caseBlocks engine.backing engine.options cases).flatten := by
  induction cases generalizing engine with
  | nil => exact ⟨(add_zero _).symm, rfl⟩
  | cons case cases ih =>
    rw [runs, List.flatMap_cons, List.forall_mem_append] at h
    have hne : (engine.run case).result ≠ none := by
      rw [Ne, run_result_eq_none_iff]
      rintro ⟨handed, hmem, hfate⟩
      exact h.1 handed hmem hfate
    obtain ⟨-, hstats, hevents⟩ := run_of_result_ne_none hne
    obtain ⟨htally, hblocks⟩ := ih _ h.2
    rw [run_after_backing, run_after_options] at htally hblocks
    rw [runs, List.foldl_cons, htally, hstats, List.flatMap_cons, List.map_append, hevents, hblocks,
      add_assoc]
    exact ⟨rfl, rfl⟩

/-- Finishing emits the statistics and reports on them. -/
theorem finish_of_neverPanics (engine : Engine S σ) (hsink : engine.sink.NeverPanics) :
    engine.finish.result = some (.ofStats engine.stats engine.options) ∧
      engine.finish.handed.map Handed.event = [.stats engine.stats] := by
  have hplayed := hsink.play_not_panicked (finishSteps (S := S) engine.stats) engine.bench
  rw [finish, hplayed]
  exact ⟨rfl, (Sink.play_of_not_panicked hplayed).2⟩

/-- The report and the events of running cases and finishing, over a sink that never breaks
down. -/
theorem executeAll_of_neverPanics (engine : Engine S σ) (hsink : engine.sink.NeverPanics)
    (cases : List Case) :
    let stats := engine.stats + casesTally engine.backing engine.options cases
    (engine.executeAll cases).result = some (.ofStats stats engine.options) ∧
      (engine.executeAll cases).handed.map Handed.event =
        (caseBlocks engine.backing engine.options cases).flatten ++ [.stats stats] := by
  intro stats
  obtain ⟨hresults, hstats, hevents⟩ := runAll_of_neverPanics engine hsink cases
  obtain ⟨-, hoptions, hsame⟩ := runAll_after engine cases
  have hfinish := finish_of_neverPanics (engine.runAll cases).after (hsame.symm ▸ hsink)
  rw [hstats, hoptions] at hfinish
  rw [executeAll, hresults]
  refine ⟨hfinish.1, ?_⟩
  rw [List.map_append, hevents, hfinish.2]

/-! ## Recording -/

/-- The sink that keeps every event ends up with those handed over after those it had. -/
theorem play_recording (steps : List (Step S)) (bench : Bench (List Event)) :
    (Sink.recording.play steps bench).bench.state =
      bench.state ++ (Sink.recording.play steps bench).handed.map Handed.event := by
  induction steps generalizing bench with
  | nil => exact (List.append_nil _).symm
  | cons step steps ih =>
    cases step with
    | emit event =>
      rw [Sink.play, if_neg (Sink.neverPanics_recording.fate_ne_panicked _ _)]
      refine (ih _).trans ?_
      exact List.append_assoc _ [event] _
    | _ => exact ih _

theorem runAll_recording {engine : Engine S (List Event)} (hsink : engine.sink = .recording)
    (cases : List Case) :
    (engine.runAll cases).after.bench.state =
      engine.bench.state ++ (engine.runAll cases).handed.map Handed.event := by
  induction cases generalizing engine with
  | nil => exact (List.append_nil _).symm
  | cons case cases ih =>
    have hne : (engine.run case).result ≠ none :=
      run_result_ne_none engine (hsink ▸ Sink.neverPanics_recording) case
    have hrun : (engine.run case).after.bench.state =
        engine.bench.state ++ (engine.run case).handed.map Handed.event := by
      rw [run_eq, hsink]
      exact play_recording _ _
    rw [runAll_cons (run_of_result_ne_none hne).1, ih ((run_after_sink _ _).trans hsink), hrun,
      List.append_assoc, List.map_append]

/-- After running cases and finishing, a recording is what it was and the events handed over. -/
theorem executeAll_recording {engine : Engine S (List Event)} (hsink : engine.sink = .recording)
    (cases : List Case) :
    (engine.executeAll cases).after =
      engine.bench.state ++ (engine.executeAll cases).handed.map Handed.event := by
  have hresults := (runAll_of_neverPanics engine
    (hsink ▸ Sink.neverPanics_recording) cases).1
  have hsame := (runAll_after engine cases).2.2.trans hsink
  have hfinish : (engine.runAll cases).after.finish.after =
      (engine.runAll cases).after.bench.state ++
        (engine.runAll cases).after.finish.handed.map Handed.event := by
    rw [finish, hsame]
    exact play_recording _ _
  rw [executeAll, hresults]
  show (engine.runAll cases).after.finish.after = _
  rw [hfinish, runAll_recording hsink, List.append_assoc, ← List.map_append]

end Engine

/-! ## Making an engine -/

namespace Setup

variable (setup : Setup S) (options : Options) (sink : Sink σ) (state : σ)

theorem start_after_options : (setup.start options sink state).after.options = options := by
  cases setup <;> rfl

theorem start_after_sink : (setup.start options sink state).after.sink = sink := by
  cases setup <;> rfl

/-- The grammar and the tokenizer of an engine do not depend on its sink. -/
theorem start_after_backing {τ : Type} (other : Sink τ) (start : τ) :
    (setup.start options sink state).after.backing =
      (setup.start options other start).after.backing := by
  cases setup <;> rfl

/-- Making an engine breaks off only where the sink breaks down at an event. -/
theorem start_result_eq_none_iff :
    (setup.start options sink state).result = none ↔
      ∃ handed ∈ (setup.start options sink state).handed, handed.fate = .panicked := by
  cases setup with
  | ready grammar tokenizer => simp [start]
  | load text files backend =>
    simp only [start, Engine.load]
    rw [← Sink.play_panicked_iff]
    split <;> simp [*]

/-- Making an engine, unless it breaks off, adds the tally of its steps and hands over their
events. -/
theorem start_of_result_ne_none (h : (setup.start options sink state).result ≠ none) :
    let started := setup.start options sink state
    started.result = some () ∧
      started.after.stats = Step.tally (Engine.loadSteps started.after.backing) ∧
      started.handed.map Handed.event = Step.events (Engine.loadSteps started.after.backing) := by
  cases setup with
  | ready grammar tokenizer => exact ⟨rfl, rfl, rfl⟩
  | load text files backend =>
    simp only [start, Engine.load] at h ⊢
    split at h
    · exact absurd rfl h
    · rename_i hpanicked
      obtain ⟨hstats, hevents⟩ := Sink.play_of_not_panicked (Bool.not_eq_true _ ▸ hpanicked)
      rw [if_neg hpanicked]
      exact ⟨rfl, hstats.trans (zero_add _), hevents⟩

theorem start_result_ne_none (hsink : sink.NeverPanics) :
    (setup.start options sink state).result ≠ none := by
  cases setup with
  | ready grammar tokenizer => exact Option.some_ne_none _
  | load text files backend =>
    simp only [start, Engine.load]
    rw [hsink.play_not_panicked]
    exact Option.some_ne_none _

end Setup

end ScopeCheck
