import ScopeCheck.Proofs.Running
import ScopeCheck.Tokenizer

/-!
# Sinks do not influence runs

Two engines that differ only in their sinks stay in lock step.  What a sink keeps, accepts or
refuses never gets back into a run.

* `Ended.shown`: what an action of an engine shows.
* `Engine.SameButSink`: engines that differ only in their sinks.  `SameButSink.run` follows one
  case, `SameButSink.runs` and `SameButSink.executeAll` follow many.
* `Setup.sink_independence`: the lock step from the making of the engines to their reports.
-/

namespace ScopeCheck

variable {S σ τ : Type}

/-- What an action of an engine shows: its result, the statistics and options after it, and the
events handed over. -/
structure Shown (β : Type) where
  result : Option β
  stats : Stats
  options : Options
  events : List Event

def Ended.shown {β : Type} (ended : Ended S (Engine S σ) β) : Shown β :=
  ⟨ended.result, ended.after.stats, ended.after.options, ended.handed.map Handed.event⟩

namespace Engine

/-- Two engines that differ only in their sinks and in the states of these. -/
structure SameButSink (first : Engine S σ) (second : Engine S τ) : Prop where
  backing : first.backing = second.backing
  options : first.options = second.options
  stats : first.stats = second.stats

namespace SameButSink

variable {first : Engine S σ} {second : Engine S τ}

/-- One case shows the same on both engines and leaves them the same again. -/
theorem run (h : SameButSink first second) (hfirst : first.sink.NeverPanics)
    (hsecond : second.sink.NeverPanics) (case : Case) :
    (first.run case).shown = (second.run case).shown ∧
      SameButSink (first.run case).after (second.run case).after := by
  obtain ⟨hresult, hstats, hevents⟩ :=
    run_of_result_ne_none (run_result_ne_none first hfirst case)
  obtain ⟨hresult', hstats', hevents'⟩ :=
    run_of_result_ne_none (run_result_ne_none second hsecond case)
  rw [h.backing, h.options, h.stats] at hstats
  rw [h.backing] at hresult
  rw [h.backing, h.options] at hevents
  refine ⟨?_, ?_, ?_, ?_⟩
  · rw [Ended.shown, Ended.shown, hresult, hresult', hstats, hstats', hevents, hevents',
      run_after_options, run_after_options, h.options]
  · rw [run_after_backing, run_after_backing, h.backing]
  · rw [run_after_options, run_after_options, h.options]
  · rw [hstats, hstats']

/-- Cases one after the other show the same on both engines. -/
theorem runs (h : SameButSink first second) (hfirst : first.sink.NeverPanics)
    (hsecond : second.sink.NeverPanics) (cases : List Case) :
    (first.runs cases).map Ended.shown = (second.runs cases).map Ended.shown := by
  induction cases generalizing first second with
  | nil => rfl
  | cons case cases ih =>
    obtain ⟨hshown, hafter⟩ := h.run hfirst hsecond case
    have hrest := ih hafter ((run_after_sink first case).symm ▸ hfirst)
      ((run_after_sink second case).symm ▸ hsecond)
    rw [Engine.runs, Engine.runs, List.map_cons, List.map_cons, hshown, hrest]

/-- Running cases and finishing gives the same report and hands over the same events. -/
theorem executeAll (h : SameButSink first second) (hfirst : first.sink.NeverPanics)
    (hsecond : second.sink.NeverPanics) (cases : List Case) :
    (∃ report, (first.executeAll cases).result = some report ∧
        (second.executeAll cases).result = some report) ∧
      (first.executeAll cases).handed.map Handed.event =
        (second.executeAll cases).handed.map Handed.event := by
  obtain ⟨hresult, hevents⟩ := executeAll_of_neverPanics first hfirst cases
  obtain ⟨hresult', hevents'⟩ := executeAll_of_neverPanics second hsecond cases
  rw [h.backing, h.options, h.stats] at hresult hevents
  exact ⟨⟨_, hresult, hresult'⟩, hevents.trans hevents'.symm⟩

end SameButSink

/-- Over a sink that never breaks down, every case has a result. -/
theorem runs_result_ne_none (engine : Engine S σ) (hsink : engine.sink.NeverPanics)
    (cases : List Case) : ∀ ended ∈ engine.runs cases, ended.result ≠ none := by
  induction cases generalizing engine with
  | nil => exact fun ended hmem => absurd hmem List.not_mem_nil
  | cons case cases ih =>
    rw [runs, List.forall_mem_cons]
    exact ⟨run_result_ne_none engine hsink case,
      ih _ ((run_after_sink engine case).symm ▸ hsink)⟩

end Engine

namespace Setup

variable (setup : Setup S) (options : Options) {sink₁ : Sink σ} {sink₂ : Sink τ}

/-- Whatever is made of the event of a load that failed, the engines are the same. -/
theorem start_sameButSink (hsink₁ : sink₁.NeverPanics) (hsink₂ : sink₂.NeverPanics) (state₁ : σ)
    (state₂ : τ) :
    (setup.start options sink₁ state₁).shown = (setup.start options sink₂ state₂).shown ∧
      Engine.SameButSink (setup.start options sink₁ state₁).after
        (setup.start options sink₂ state₂).after := by
  obtain ⟨hresult₁, hstats₁, hevents₁⟩ :=
    setup.start_of_result_ne_none options sink₁ state₁ (setup.start_result_ne_none _ _ _ hsink₁)
  obtain ⟨hresult₂, hstats₂, hevents₂⟩ :=
    setup.start_of_result_ne_none options sink₂ state₂ (setup.start_result_ne_none _ _ _ hsink₂)
  have hbacking := setup.start_after_backing options sink₁ state₁ sink₂ state₂
  have hoptions : (setup.start options sink₁ state₁).after.options =
      (setup.start options sink₂ state₂).after.options := by
    cases setup <;> rfl
  rw [hbacking] at hstats₁ hevents₁
  refine ⟨?_, hbacking, hoptions, hstats₁.trans hstats₂.symm⟩
  rw [Ended.shown, Ended.shown, hresult₁, hresult₂, hstats₁, hstats₂, hevents₁, hevents₂, hoptions]

/-- Two engines that are made alike over two sinks that never break down, whatever these accept and
refuse, show the same when they are made, at every case, and when they run all cases and finish. -/
theorem sink_independence (hsink₁ : sink₁.NeverPanics) (hsink₂ : sink₂.NeverPanics) (state₁ : σ)
    (state₂ : τ) (cases : List Case) :
    let started₁ := setup.start options sink₁ state₁
    let started₂ := setup.start options sink₂ state₂
    let executed₁ := started₁.after.executeAll cases
    let executed₂ := started₂.after.executeAll cases
    (started₁.result = some () ∧ started₁.shown = started₂.shown) ∧
      ((∀ ended ∈ started₁.after.runs cases, ended.result ≠ none) ∧
        (started₁.after.runs cases).map Ended.shown =
          (started₂.after.runs cases).map Ended.shown) ∧
      ((∃ report, executed₁.result = some report ∧ executed₂.result = some report) ∧
        executed₁.result.map Report.exit = executed₂.result.map Report.exit ∧
        executed₁.handed.map Handed.event = executed₂.handed.map Handed.event) := by
  intro started₁ started₂ executed₁ executed₂
  have hfirst : started₁.after.sink.NeverPanics := by
    rwa [setup.start_after_sink options sink₁ state₁]
  have hsecond : started₂.after.sink.NeverPanics := by
    rwa [setup.start_after_sink options sink₂ state₂]
  obtain ⟨hresult, -⟩ := setup.start_of_result_ne_none options sink₁ state₁
    (setup.start_result_ne_none _ _ _ hsink₁)
  obtain ⟨hshown, hsame⟩ := setup.start_sameButSink options hsink₁ hsink₂ state₁ state₂
  obtain ⟨⟨report, hreport₁, hreport₂⟩, hevents⟩ := hsame.executeAll hfirst hsecond cases
  refine ⟨⟨hresult, hshown⟩, ⟨Engine.runs_result_ne_none _ hfirst cases,
    hsame.runs hfirst hsecond cases⟩, ⟨report, hreport₁, hreport₂⟩, ?_, hevents⟩
  rw [hreport₁, hreport₂]

/-- The grammar of both engines is missing.  One sink keeps every event, the other refuses all
reports on errors, so that the event of the failed load and its replacement are dropped. -/
theorem sink_independence_refused_load :
    let files : Files := fun _ => .error "No such file or directory (os error 2)"
    let setup : Setup Bool := .load "missing.json" files fun _ => .ok (.comment "source.c")
    let refusing := Sink.behind { refuse := ["invalid"] } .tracing
    let case : Case := ⟨"word", .compact "a", .compact "word", none⟩
    let kept := setup.start {} .recording []
    let dropped := setup.start {} refusing (0, ())
    kept.handed.map Handed.fate = [.accepted] ∧ dropped.handed.map Handed.fate = [.dropped] ∧
      Sink.recording.NeverPanics ∧ refusing.NeverPanics ∧ kept.shown = dropped.shown ∧
      (kept.after.runs [case]).map Ended.shown = (dropped.after.runs [case]).map Ended.shown := by
  intro files setup refusing case kept dropped
  have hrefusing : refusing.NeverPanics := Sink.neverPanics_tracing.behind rfl
  obtain ⟨⟨-, hstarted⟩, ⟨-, hruns⟩, -⟩ :=
    sink_independence setup {} Sink.neverPanics_recording hrefusing [] (0, ()) [case]
  exact ⟨by decide, by decide, Sink.neverPanics_recording, hrefusing, hstarted, hruns⟩

end Setup

end ScopeCheck
