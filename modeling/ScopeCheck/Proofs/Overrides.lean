import ScopeCheck.Proofs.Moments
import ScopeCheck.Tokenizer

/-!
# Overrides end with their case

The override of a case is set when the case begins and taken back when it is over, also when the
sink cuts it off.  Over a whole history, each case therefore runs under its own override of the
options that the engine was made with, and nothing of it is left for the next case or for the
report.

* `Case.optionsOver`: the options under the override of a case, field by field.
* `Options.within_override`: what a scope shows to its body, and what it leaves.
* `Engine.run_under_override`: a run of a case, with the options that hold during it.
* `History.overrides_end_with_their_case`: every run of a history, and every finish.
-/

namespace ScopeCheck

variable {S σ : Type}

/-- The options under the override of a case.  A field that it leaves unset, or all of them if there
is none, keep their values. -/
def Case.optionsOver (case : Case) (base : Options) : Options where
  logAllPassedTokens :=
    (case.options.bind Override.logAllPassedTokens).getD base.logAllPassedTokens
  terminateHostOnFailure :=
    (case.options.bind Override.terminateHostOnFailure).getD base.terminateHostOnFailure
  grammarIsInlineDocument :=
    (case.options.bind Override.grammarIsInlineDocument).getD base.grammarIsInlineDocument

/-- Whatever is done in the scope of a case sees the options under its override, and leaves the
options from before. -/
theorem Options.within_override {α : Type} (options : Options) (case : Case) (body : Options → α) :
    options.within case.options body = (body (case.optionsOver options), options) := by
  rw [within, Case.optionsOver]
  cases case.options <;> rfl

namespace Engine

/-- A run of a case plays the work on it under its override and leaves all but the bench as it was,
however it ends. -/
theorem run_under_override (engine : Engine S σ) (case : Case) :
    let done := work engine.backing (case.optionsOver engine.options) case.normalize
    let played := engine.sink.play (caseStart case.normalize :: done.steps) engine.bench
    engine.run case =
      ⟨{ engine with bench := played.bench },
        if played.panicked then none else some done.result, played.handed, played.calls,
        played.log⟩ := by
  rw [run, Options.within_override]

/-- Finishing reports on the statistics under the options of the engine, unless the sink breaks down
at the last event. -/
theorem finish_result (engine : Engine S σ) :
    (engine.finish.result = none ↔ ∃ handed ∈ engine.finish.handed, handed.fate = .panicked) ∧
      ∀ report, engine.finish.result = some report →
        report = .ofStats engine.stats engine.options := by
  rw [finish, ← Sink.play_panicked_iff]
  split
  · simp [*]
  · rename_i hpanicked
    refine ⟨by simp [hpanicked], fun report hreport => ?_⟩
    exact (Option.some.inj hreport).symm

end Engine

namespace History

/-- Over a whole history, however its cases end, the engine is left with the options that it was
made with after each of them, and a finish reports under these.  Run `k` sees only its own override
of them. -/
theorem overrides_end_with_their_case (setup : Setup S) (options : Options) (sink : Sink σ)
    (state : σ) (cases : List Case) :
    let history := of setup options sink state cases
    (∀ k ≤ cases.length,
      let engine := (history.upTo k).engine
      engine.options = options ∧
        (engine.finish.result = none ↔
          ∃ handed ∈ engine.finish.handed, handed.fate = .panicked) ∧
        ∀ report, engine.finish.result = some report → report = .ofStats engine.stats options) ∧
      ∀ k case, cases[k]? = some case →
        let engine := (history.upTo k).engine
        let active : Options :=
          { logAllPassedTokens := (case.options.bind Override.logAllPassedTokens).getD
              options.logAllPassedTokens
            terminateHostOnFailure := (case.options.bind Override.terminateHostOnFailure).getD
              options.terminateHostOnFailure
            grammarIsInlineDocument := (case.options.bind Override.grammarIsInlineDocument).getD
              options.grammarIsInlineDocument }
        let done := Engine.work engine.backing active case.normalize
        let played := sink.play (Engine.caseStart case.normalize :: done.steps) engine.bench
        (∀ (α : Type) (body : Options → α),
          engine.options.within case.options body = (body active, options)) ∧
          history.runs[k]? = some
            ⟨⟨engine.backing, options, sink, played.bench⟩,
              if played.panicked then none else some done.result, played.handed, played.calls,
              played.log⟩ := by
  intro history
  have hoptions : ∀ k, (history.upTo k).engine.options = options := by
    intro k
    rw [upTo_of]
    exact engine_options setup options sink state (cases.take k)
  have hsink : ∀ k, (history.upTo k).engine.sink = sink := by
    intro k
    rw [upTo_of]
    exact engine_sink setup options sink state (cases.take k)
  constructor
  · intro k _ engine
    have hfinish := engine.finish_result
    rw [hoptions k] at hfinish
    exact ⟨hoptions k, hfinish⟩
  · intro k case hcase engine active done played
    have hrun := engine.run_under_override case
    rw [hoptions k, hsink k] at hrun
    refine ⟨fun α body => ?_, ?_⟩
    · rw [hoptions k]
      exact Options.within_override options case body
    · exact (runs_getElem? setup options sink state cases hcase).trans (congrArg some hrun)

/-- The first case asks for passed tokens and is cut off at the first one.  The second has no
override, so its token passes unreported and the case passes. -/
theorem overrides_end_with_their_case_cut_off :
    let verbose : Override :=
      { logAllPassedTokens := some true, terminateHostOnFailure := some false }
    let cut : Case := ⟨"cut", .compact "a", .compact "word", some verbose⟩
    let quiet : Case := ⟨"quiet", .compact "a", .compact "word", none⟩
    let history := of (.ready ⟨"source.c", .null⟩ (.comment "source.c")) {}
      (Sink.behind { panicOn := ["token_passed"] } .recording) (0, []) [cut, quiet]
    history.runs.map Ended.result = [none, some .passed] ∧
      (history.upTo 1).engine.options = {} ∧ (history.upTo 2).engine.options = {} ∧
      ∀ report, (history.upTo 2).engine.finish.result = some report →
        report = .ofStats (history.upTo 2).engine.stats {} := by
  intro verbose cut quiet history
  obtain ⟨hafter, -⟩ := overrides_end_with_their_case
    (.ready ⟨"source.c", .null⟩ (.comment "source.c")) {}
    (Sink.behind { panicOn := ["token_passed"] } .recording) (0, []) [cut, quiet]
  obtain ⟨hfirst, -⟩ := hafter 1 (by decide)
  obtain ⟨hsecond, -, hreport⟩ := hafter 2 (by decide)
  exact ⟨by decide, hfirst, hsecond, hreport⟩

end History

end ScopeCheck
