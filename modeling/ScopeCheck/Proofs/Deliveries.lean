import Mathlib.Data.List.Forall2
import ScopeCheck.Proofs.Agreement
import ScopeCheck.Proofs.SinkIndependence

/-!
# Delivering all events of a history

A sink gets one report for every event, and after each refusal one more that takes its place.  This
module says what that comes to over a whole history, whatever the sink refuses.

There are four groups.

* The calls of a sink.  `Sink.calls` and `Sink.stateAfter` replay reports on a sink.  `Attempts`
  says which calls belong to one event and what becomes of it, and `Sink.deliver_attempts` that a
  delivery makes just these calls.
* Deliveries in turn.  `Delivered` relates the events handed over to what is logged meanwhile and
  to the state of the sink after them.  `Sink.play_delivered` is the step from deliveries to runs.
* Laws of deliveries in turn.  `Delivered.attempts` splits the calls into one block for each event,
  and `Delivered.warnings` counts the warnings.
* Whole histories.  `History.course` is all that happened from the making of an engine on, with or
  without its finish, and `History.every_event_delivered` is the result.
-/

namespace ScopeCheck

variable {S σ : Type}

/-! ## The calls of a sink -/

/-- A report to a sink, its verdict on it, and what it logged. -/
structure Call where
  report : Event
  verdict : Verdict
  log : List Log.Record

namespace Call

def isAccepted (call : Call) : Bool :=
  call.verdict = .accepted

def isRefused (call : Call) : Bool :=
  match call.verdict with
  | .refused _ => true
  | _ => false

end Call

namespace Sink

/-- The calls of a sink that is given reports one after the other. -/
def calls (sink : Sink σ) : σ → List Event → List Call
  | _, [] => []
  | state, report :: reports =>
    let answer := sink.report state report
    ⟨report, answer.verdict, answer.log⟩ :: sink.calls answer.state reports

/-- The state of a sink after reports. -/
def stateAfter (sink : Sink σ) (state : σ) (reports : List Event) : σ :=
  reports.foldl (fun state report => (sink.report state report).state) state

theorem calls_append (sink : Sink σ) (state : σ) (first second : List Event) :
    sink.calls state (first ++ second) =
      sink.calls state first ++ sink.calls (sink.stateAfter state first) second := by
  induction first generalizing state with
  | nil => rfl
  | cons report reports ih =>
    rw [List.cons_append, calls, calls, ih, List.cons_append]
    rfl

theorem stateAfter_append (sink : Sink σ) (state : σ) (first second : List Event) :
    sink.stateAfter state (first ++ second) =
      sink.stateAfter (sink.stateAfter state first) second :=
  List.foldl_append

/-- Every call is an answer of the sink in some state. -/
theorem exists_of_mem_calls {sink : Sink σ} {state : σ} {reports : List Event} {call : Call}
    (h : call ∈ sink.calls state reports) :
    ∃ before, call.verdict = (sink.report before call.report).verdict := by
  induction reports generalizing state with
  | nil => exact absurd h List.not_mem_nil
  | cons report reports ih =>
    rcases List.mem_cons.mp h with rfl | h
    · exact ⟨state, rfl⟩
    · exact ih h

end Sink

/-- Whether a record warns of a dropped event. -/
def Log.Record.warnsOfDrop : Log.Record → Bool
  | .message .warn text _ => text = "diagnostic dropped"
  | _ => false

/-- The calls that belong to one event, and what becomes of it.  A refused event is followed by one
report of its replacement, which gives the kind of the event and the words of the refusal, and by
nothing more. -/
inductive Attempts (event : Event) : List Call → Fate → Prop where
  | accepted {log : List Log.Record} : Attempts event [⟨event, .accepted, log⟩] .accepted
  | replaced {error : SinkError} {log more : List Log.Record} :
      Attempts event
        [⟨event, .refused error, log⟩,
          ⟨.invalid (event.kind.name ++ " diagnostic") error.message, .accepted, more⟩] .replaced
  | dropped {error again : SinkError} {log more : List Log.Record} :
      Attempts event
        [⟨event, .refused error, log⟩,
          ⟨.invalid (event.kind.name ++ " diagnostic") error.message, .refused again, more⟩]
        .dropped

/-! ### One delivery -/

namespace Sink

section Deliver

variable {sink : Sink σ} {state : σ} {event : Event} {error again : SinkError}

theorem deliver_of_accepted (h : (sink.report state event).verdict = .accepted) :
    sink.deliver state event =
      ⟨(sink.report state event).state, [event], .accepted, (sink.report state event).log⟩ := by
  rw [deliver, h]

/-- A refused event whose replacement is accepted. -/
theorem deliver_of_replaced (h : (sink.report state event).verdict = .refused error)
    (hnext : (sink.report (sink.report state event).state (replacement event error)).verdict =
      .accepted) :
    let first := sink.report state event
    let second := sink.report first.state (replacement event error)
    sink.deliver state event =
      ⟨second.state, [event, replacement event error], .replaced, first.log ++ second.log⟩ := by
  simp only [deliver, h, hnext]

/-- A refused event whose replacement is refused too. -/
theorem deliver_of_dropped (h : (sink.report state event).verdict = .refused error)
    (hnext : (sink.report (sink.report state event).state (replacement event error)).verdict =
      .refused again) :
    let first := sink.report state event
    let second := sink.report first.state (replacement event error)
    sink.deliver state event =
      ⟨second.state, [event, replacement event error], .dropped,
        first.log ++ second.log ++ [droppedRecord event again]⟩ := by
  simp only [deliver, h, hnext]

theorem NeverPanics.accepted_or_refused (hsink : sink.NeverPanics) (state : σ) (event : Event) :
    (sink.report state event).verdict = .accepted ∨
      ∃ error, (sink.report state event).verdict = .refused error := by
  cases hverdict : (sink.report state event).verdict with
  | accepted => exact Or.inl rfl
  | refused error => exact Or.inr ⟨error, rfl⟩
  | panicked => exact absurd hverdict (hsink state event)

end Deliver

/-- A delivery makes the calls that belong to its event and no others.  Beside what the sink logs,
it logs one warning when it drops the event. -/
theorem deliver_attempts {sink : Sink σ} (hsink : sink.NeverPanics) (state : σ) (event : Event) :
    let delivery := sink.deliver state event
    let calls := sink.calls state delivery.reports
    Attempts event calls delivery.fate ∧ delivery.state = sink.stateAfter state delivery.reports ∧
      delivery.log.countP Log.Record.warnsOfDrop =
        (if delivery.fate = .dropped then 1 else 0) +
          (calls.flatMap Call.log).countP Log.Record.warnsOfDrop := by
  intro delivery calls
  have hdelivery : delivery = sink.deliver state event := rfl
  have hcalls : calls = sink.calls state delivery.reports := rfl
  rcases hsink.accepted_or_refused state event with hfirst | ⟨error, hfirst⟩
  · rw [deliver_of_accepted hfirst] at hdelivery
    rw [hcalls, hdelivery, Sink.calls, Sink.calls, hfirst]
    refine ⟨.accepted, rfl, ?_⟩
    simp
  · rcases hsink.accepted_or_refused (sink.report state event).state (replacement event error)
      with hsecond | ⟨again, hsecond⟩
    · rw [deliver_of_replaced hfirst hsecond] at hdelivery
      rw [hcalls, hdelivery, Sink.calls, Sink.calls, Sink.calls, hfirst, hsecond]
      refine ⟨.replaced, rfl, ?_⟩
      simp
    · rw [deliver_of_dropped hfirst hsecond] at hdelivery
      rw [hcalls, hdelivery, Sink.calls, Sink.calls, Sink.calls, hfirst, hsecond]
      refine ⟨.dropped, rfl, ?_⟩
      simp [droppedRecord, Log.Record.warnsOfDrop]
      omega

end Sink

/-! ## Deliveries in turn -/

/-- An event as it was handed over for a delivery. -/
def Delivery.handed (delivery : Delivery σ) (event : Event) (stats : Stats) : Handed :=
  ⟨event, stats, delivery.reports, delivery.fate⟩

/-- Whether an event was dropped. -/
def Handed.isDropped (handed : Handed) : Bool :=
  handed.fate = .dropped

theorem Delivery.isDropped_handed (delivery : Delivery σ) (event : Event) (stats : Stats) :
    (delivery.handed event stats).isDropped = true ↔ delivery.fate = .dropped :=
  decide_eq_true_iff

/-- Deliveries one after the other, from one state of a sink to another: the events with what
became of them, and what was logged from the first of them to the last.  Other records get into the
log between the deliveries. -/
inductive Delivered (sink : Sink σ) : σ → List Handed → List Log.Record → σ → Prop where
  | nil {state : σ} : Delivered sink state [] [] state
  | quiet {state last : σ} {handed : List Handed} {log : List Log.Record} {record : Log.Record}
      (hrecord : record.warnsOfDrop = false) (rest : Delivered sink state handed log last) :
      Delivered sink state handed (record :: log) last
  | deliver {state last : σ} {handed : List Handed} {log : List Log.Record} (event : Event)
      (stats : Stats) (rest : Delivered sink (sink.deliver state event).state handed log last) :
      Delivered sink state ((sink.deliver state event).handed event stats :: handed)
        ((sink.deliver state event).log ++ log) last

theorem Delivered.append {sink : Sink σ} {state middle last : σ} {first second : List Handed}
    {log more : List Log.Record} (hfirst : Delivered sink state first log middle)
    (hsecond : Delivered sink middle second more last) :
    Delivered sink state (first ++ second) (log ++ more) last := by
  induction hfirst with
  | nil => exact hsecond
  | quiet hrecord _ ih => exact .quiet hrecord (ih hsecond)
  | deliver event stats _ ih =>
    rw [List.append_assoc]
    exact .deliver event stats (ih hsecond)

theorem Delivered.quiet_of_forall {sink : Sink σ} {state : σ} {log : List Log.Record}
    (h : ∀ record ∈ log, record.warnsOfDrop = false) : Delivered sink state [] log state := by
  induction log with
  | nil => exact .nil
  | cons record log ih =>
    exact .quiet (h record List.mem_cons_self) (ih fun r hr => h r (List.mem_cons_of_mem _ hr))

/-! ### Runs of steps -/

/-- Whether a step logs a warning. -/
def Step.isWarning : Step S → Bool
  | log .warn _ _ => true
  | _ => false

theorem warnsOfDrop_of_mem_unwind {steps : List (Step S)} {record : Log.Record}
    (h : record ∈ unwind steps) : record.warnsOfDrop = false := by
  induction steps with
  | nil => exact absurd h List.not_mem_nil
  | cons step steps ih =>
    cases step with
    | leave span =>
      rcases List.mem_cons.mp h with rfl | h
      · rfl
      · exact ih h
    | _ => exact ih h

/-- A run of steps that log no warnings delivers the events that it hands over, one after the
other.  This also holds of a run that is cut off. -/
theorem Sink.play_delivered (sink : Sink σ) {steps : List (Step S)}
    (hsteps : ∀ step ∈ steps, step.isWarning = false) (bench : Bench σ) :
    let played := sink.play steps bench
    Delivered sink bench.state played.handed played.log played.bench.state := by
  induction steps generalizing bench with
  | nil => exact .nil
  | cons step steps ih =>
    obtain ⟨hstep, hsteps⟩ := List.forall_mem_cons.mp hsteps
    have hrest := ih hsteps
    cases step with
    | emit event =>
      rw [play]
      split
      · exact .deliver event bench.stats
          (.quiet_of_forall fun record hrecord => warnsOfDrop_of_mem_unwind hrecord)
      · exact .deliver event bench.stats
          (hrest { bench with state := (sink.deliver bench.state event).state })
    | log level text fields =>
      refine .quiet ?_ (hrest bench)
      cases level with
      | warn => cases hstep
      | _ => rfl
    | enter span fields => exact .quiet rfl (hrest bench)
    | leave span => exact .quiet rfl (hrest bench)
    | call c => exact hrest (bench.called c)
    | count c => exact hrest { bench with stats := bench.stats.add c }

/-! ## Laws of deliveries in turn -/

namespace Delivered

variable {sink : Sink σ} {state last : σ} {handed : List Handed} {log : List Log.Record}

/-- The reports that are noted beside the events are those that lead the sink from its first state
to its last, and its calls fall into one block for each event. -/
theorem attempts (hsink : sink.NeverPanics) (h : Delivered sink state handed log last) :
    let reports := handed.flatMap Handed.reports
    last = sink.stateAfter state reports ∧
      ∃ blocks : List (List Call), sink.calls state reports = blocks.flatten ∧
        List.Forall₂ (fun handed block => Attempts handed.event block handed.fate) handed
          blocks := by
  induction h with
  | nil => exact ⟨rfl, [], rfl, .nil⟩
  | quiet _ _ ih => exact ih
  | @deliver state last handed log event stats _ ih =>
    obtain ⟨hattempts, hstate, -⟩ := Sink.deliver_attempts hsink state event
    obtain ⟨hlast, blocks, hcalls, hblocks⟩ := ih
    rw [hstate] at hlast hcalls
    refine ⟨?_, _ :: blocks, ?_, .cons hattempts hblocks⟩
    · rw [List.flatMap_cons, Sink.stateAfter_append]
      exact hlast
    · rw [List.flatMap_cons, Sink.calls_append, List.flatten_cons]
      exact congrArg _ hcalls

theorem fate_ne_panicked (hsink : sink.NeverPanics) (h : Delivered sink state handed log last) :
    ∀ each ∈ handed, each.fate ≠ .panicked := by
  induction h with
  | nil => exact fun each hmem => absurd hmem List.not_mem_nil
  | quiet _ _ ih => exact ih
  | deliver event stats _ ih =>
    exact List.forall_mem_cons.mpr ⟨hsink.fate_ne_panicked _ event, ih⟩

/-- Beside the warnings that the sink itself logs, there is one for each event that is dropped. -/
theorem warnings (hsink : sink.NeverPanics) (h : Delivered sink state handed log last) :
    let calls := sink.calls state (handed.flatMap Handed.reports)
    log.countP Log.Record.warnsOfDrop =
      handed.countP Handed.isDropped +
        (calls.flatMap Call.log).countP Log.Record.warnsOfDrop := by
  induction h with
  | nil => rfl
  | quiet hrecord _ ih =>
    rw [List.countP_cons_of_neg (by simp [hrecord])]
    exact ih
  | @deliver state last handed log event stats _ ih =>
    obtain ⟨-, hstate, hwarnings⟩ := Sink.deliver_attempts hsink state event
    rw [hstate] at ih
    intro calls
    have hcalls : calls = sink.calls state (sink.deliver state event).reports ++
        sink.calls (sink.stateAfter state (sink.deliver state event).reports)
          (handed.flatMap Handed.reports) := by
      rw [← Sink.calls_append]
      rfl
    rw [hcalls, List.flatMap_append, List.countP_append, List.countP_append, hwarnings, ih,
      List.countP_cons]
    simp only [Delivery.isDropped_handed]
    omega

end Delivered

/-! ### Sinks that refuse no error -/

theorem Sink.isRefused_of_mem_calls {sink : Sink σ}
    (hinvalid : ∀ before subject reason error,
      (sink.report before (.invalid subject reason)).verdict ≠ .refused error)
    {state : σ} {reports : List Event} {call : Call} (hcall : call ∈ sink.calls state reports)
    (herror : call.report.isInvalid = true) : call.isRefused = false := by
  obtain ⟨before, hverdict⟩ := Sink.exists_of_mem_calls hcall
  cases hreport : call.report with
  | invalid subject reason =>
    have hne := hinvalid before subject reason
    rw [← hreport, ← hverdict] at hne
    rw [Call.isRefused]
    split
    · exact absurd ‹_› (hne _)
    · rfl
  | _ =>
    rw [hreport] at herror
    cases herror

theorem Attempts.counts {event : Event} {block : List Call} {fate : Fate}
    (h : Attempts event block fate)
    (hinvalid : ∀ call ∈ block, call.report.isInvalid = true → call.isRefused = false) :
    block.countP Call.isAccepted = 1 ∧
      block.countP (fun call => call.isAccepted && call.report.isInvalid) =
        (if event.isInvalid then 1 else 0) + block.countP Call.isRefused := by
  cases h with
  | accepted => simp [Call.isAccepted, Call.isRefused]
  | replaced =>
    -- the event was refused, so it is no error itself
    have hevent : event.isInvalid = false := by
      have hcall := hinvalid _ List.mem_cons_self
      cases hkind : event.isInvalid with
      | false => rfl
      | true => cases hcall hkind
    rw [hevent]
    exact ⟨rfl, rfl⟩
  | dropped =>
    have hcall := hinvalid _ (List.mem_cons_of_mem _ List.mem_cons_self) rfl
    cases hcall

/-- A sink that refuses no error accepts one report for each event, and each refusal adds one
error to those it accepts. -/
theorem counts_of_attempts {handed : List Handed} {blocks : List (List Call)}
    (h : List.Forall₂ (fun handed block => Attempts handed.event block handed.fate) handed blocks)
    (hinvalid : ∀ call ∈ blocks.flatten, call.report.isInvalid = true → call.isRefused = false) :
    blocks.flatten.countP Call.isAccepted = handed.length ∧
      blocks.flatten.countP (fun call => call.isAccepted && call.report.isInvalid) =
        (handed.map Handed.event).countP Event.isInvalid +
          blocks.flatten.countP Call.isRefused := by
  induction h with
  | nil => exact ⟨rfl, rfl⟩
  | @cons first block handed blocks hfirst _ ih =>
    rw [List.flatten_cons, List.forall_mem_append] at hinvalid
    obtain ⟨haccepted, herrors⟩ := hfirst.counts hinvalid.1
    obtain ⟨haccepteds, herrorss⟩ := ih hinvalid.2
    rw [List.flatten_cons, List.countP_append, List.countP_append, List.countP_append, haccepted,
      haccepteds, herrors, herrorss, List.length_cons, List.map_cons, List.countP_cons]
    omega

/-! ## Whole histories -/

theorem isWarning_of_mem_positionSteps (case : String) (verbose : Bool) (line : ComparedLine S)
    (p : Position) : ∀ step ∈ p.steps case verbose line, step.isWarning = false := by
  rw [Position.steps]
  cases p.passed with
  | false => simp [Step.isWarning]
  | true => cases verbose <;> simp [Step.isWarning]

theorem isWarning_of_mem_comparisonSteps (tokenizer : Tokenizer S) (root : String) (verbose : Bool)
    (case : NormalCase) :
    ∀ step ∈ comparisonSteps tokenizer root verbose case, step.isWarning = false := by
  have hline : ∀ line : ComparedLine S, ∀ step ∈ line.steps root case.name verbose,
      step.isWarning = false := by
    intro line step hstep
    rcases List.mem_cons.mp hstep with rfl | hstep
    · rfl
    rcases List.mem_append.mp hstep with hstep | hstep
    · obtain ⟨p, -, hstep⟩ := List.mem_flatMap.mp hstep
      exact isWarning_of_mem_positionSteps case.name verbose line p step hstep
    · rw [List.mem_singleton.mp hstep]
      rfl
  intro step hstep
  rcases List.mem_cons.mp hstep with rfl | hstep
  · rfl
  rcases List.mem_append.mp hstep with hstep | hstep
  · obtain ⟨line, -, hstep⟩ := List.mem_flatMap.mp hstep
    exact hline line step hstep
  · simp only [List.mem_cons, List.not_mem_nil, or_false] at hstep
    rcases hstep with rfl | rfl | rfl <;> rfl

theorem isWarning_of_mem_rejectionSteps (subject reason : String) :
    ∀ step ∈ rejectionSteps (S := S) subject reason, step.isWarning = false := by
  simp [rejectionSteps, Step.isWarning]

namespace Engine

/-- No case logs a warning of its own. -/
theorem isWarning_of_mem_caseSteps (backing : Backing S) (options : Options) (case : Case) :
    ∀ step ∈ caseSteps backing options case, step.isWarning = false := by
  refine List.forall_mem_cons.mpr ⟨rfl, ?_⟩
  cases backing with
  | failed source error => exact isWarning_of_mem_rejectionSteps _ _
  | ready grammar tokenizer =>
    refine List.forall_mem_cons.mpr ⟨rfl, List.forall_mem_append.mpr ⟨?_, ?_⟩⟩
    · split
      · exact isWarning_of_mem_comparisonSteps _ _ _ _
      · exact isWarning_of_mem_rejectionSteps _ _
    · simp [Step.isWarning]

theorem isWarning_of_mem_loadSteps (backing : Backing S) :
    ∀ step ∈ loadSteps backing, step.isWarning = false := by
  cases backing with
  | ready grammar tokenizer => simp [loadSteps, Step.isWarning]
  | failed source error => exact isWarning_of_mem_rejectionSteps _ _

theorem run_delivered (engine : Engine S σ) (case : Case) :
    let ended := engine.run case
    Delivered engine.sink engine.bench.state ended.handed ended.log ended.after.bench.state := by
  rw [run_eq]
  exact engine.sink.play_delivered (isWarning_of_mem_caseSteps _ _ _) engine.bench

theorem runs_delivered (engine : Engine S σ) (cases : List Case) :
    let ran := engine.runs cases
    Delivered engine.sink engine.bench.state (ran.flatMap Ended.handed) (ran.flatMap Ended.log)
      (ran.foldl (fun _ ended => ended.after) engine).bench.state := by
  induction cases generalizing engine with
  | nil => exact .nil
  | cons case cases ih =>
    have hrest := ih (engine.run case).after
    rw [run_after_sink] at hrest
    rw [runs]
    exact (engine.run_delivered case).append hrest

theorem finish_delivered (engine : Engine S σ) :
    let finished := engine.finish
    Delivered engine.sink engine.bench.state finished.handed finished.log finished.after := by
  refine engine.sink.play_delivered (S := S) ?_ engine.bench
  simp [finishSteps, Step.isWarning]

end Engine

/-- Making an engine delivers the events that it hands over. -/
theorem Setup.start_delivered (setup : Setup S) (options : Options) (sink : Sink σ) (state : σ) :
    let started := setup.start options sink state
    Delivered sink state started.handed started.log started.after.bench.state := by
  cases setup with
  | ready grammar tokenizer => exact .nil
  | load text files backend =>
    exact sink.play_delivered (Engine.isWarning_of_mem_loadSteps _) ⟨{}, state, 0⟩

/-- All that happened from the making of an engine on: the state of the sink at last, the events
handed over and the log. -/
structure Course (σ : Type) where
  last : σ
  handed : List Handed
  log : List Log.Record

/-- The events of a course, in the order in which they were handed over. -/
def Course.events (course : Course σ) : List Event :=
  course.handed.map Handed.event

/-- The reports that the sink was given, in order. -/
def Course.reports (course : Course σ) : List Event :=
  course.handed.flatMap Handed.reports

namespace History

/-- The course of a history, with or without finishing the engine at its end. -/
def course (history : History S σ) (finished : Bool) : Course σ :=
  let log := history.started.log ++ history.runs.flatMap Ended.log
  if finished then
    let finish := history.engine.finish
    ⟨finish.after, history.handed ++ finish.handed, log ++ finish.log⟩
  else ⟨history.engine.bench.state, history.handed, log⟩

variable (setup : Setup S) (options : Options) (sink : Sink σ) (state : σ) (cases : List Case)
  (finished : Bool)

/-- A history is one line of deliveries, from making the engine to its last run or its finish. -/
theorem course_delivered :
    let course := (of setup options sink state cases).course finished
    Delivered sink state course.handed course.log course.last := by
  have hstart := setup.start_delivered options sink state
  have hruns := Engine.runs_delivered (setup.start options sink state).after cases
  rw [setup.start_after_sink] at hruns
  have hhistory := hstart.append hruns
  cases finished with
  | false => exact hhistory
  | true =>
    have hfinish := (of setup options sink state cases).engine.finish_delivered
    rw [engine_sink] at hfinish
    exact hhistory.append hfinish

/-- Finishing adds the statistics to the events, also when the sink breaks down at them. -/
theorem course_events (history : History S σ) (finished : Bool) :
    (history.course finished).events =
      history.events ++ if finished then [.stats history.engine.stats] else [] := by
  cases finished with
  | false => exact (List.append_nil _).symm
  | true =>
    have hfinish : history.engine.finish.handed.map Handed.event =
        [.stats history.engine.stats] := by
      rw [Engine.finish, Engine.finishSteps, Sink.play, Sink.play]
      split <;> rfl
    rw [if_pos rfl, ← hfinish]
    exact List.map_append

/-- As many errors are handed over as are counted. -/
theorem countP_isInvalid_course :
    let history := of setup options sink state cases
    (history.course finished).events.countP Event.isInvalid = history.engine.stats.errors := by
  intro history
  have hempty : Moment.Agrees ⟨{}, []⟩ := ⟨rfl, rfl, rfl, rfl, rfl, rfl, rfl⟩
  have hagrees := last_of_keeps setup options sink state cases hempty Engine.keeps_loadSteps
    Engine.keeps_caseSteps
  have hhistory : history.events.countP Event.isInvalid = history.engine.stats.errors :=
    hagrees.invalid
  rw [course_events, List.countP_append, hhistory]
  cases finished <;> rfl

/-- Over a sink that never breaks down, whatever it refuses, every event of loading, of the cases
and of the finish is handed over in order and delivered once.  The calls of the sink are one block
of attempts for each event, so that it is accepted, replaced or dropped, and a warning is logged for
each that is dropped.  Where errors are never refused, one report is accepted for each event, and
each refusal adds an error. -/
theorem every_event_delivered {sink : Sink σ} (hsink : sink.NeverPanics) :
    let history := of setup options sink state cases
    let engine := history.started.after
    let course := history.course finished
    let calls := sink.calls state course.reports
    course.events =
        Step.events (Engine.loadSteps engine.backing) ++
          (Engine.caseBlocks engine.backing engine.options cases).flatten ++
            (if finished then [.stats history.engine.stats] else []) ∧
      course.last = sink.stateAfter state course.reports ∧
      (∃ blocks : List (List Call), calls = blocks.flatten ∧
        List.Forall₂ (fun handed block => Attempts handed.event block handed.fate) course.handed
          blocks) ∧
      course.log.countP Log.Record.warnsOfDrop =
        course.handed.countP Handed.isDropped +
          (calls.flatMap Call.log).countP Log.Record.warnsOfDrop ∧
      ((∀ before subject reason error,
          (sink.report before (.invalid subject reason)).verdict ≠ .refused error) →
        calls.countP Call.isAccepted = course.events.length ∧
          calls.countP (fun call => call.isAccepted && call.report.isInvalid) =
            history.engine.stats.errors + calls.countP Call.isRefused) := by
  intro history engine course calls
  have hdelivered : Delivered sink state course.handed course.log course.last :=
    course_delivered setup options sink state cases finished
  have hunbroken : ∀ handed ∈ history.handed, handed.fate ≠ .panicked :=
    (course_delivered setup options sink state cases false).fate_ne_panicked hsink
  obtain ⟨-, hevents⟩ :=
    stats_and_events_of_unbroken setup options sink state cases hunbroken
  obtain ⟨hlast, blocks, hcalls, hblocks⟩ := hdelivered.attempts hsink
  refine ⟨?_, hlast, ⟨blocks, hcalls, hblocks⟩, hdelivered.warnings hsink, fun hinvalid => ?_⟩
  · exact (course_events history finished).trans (congrArg (· ++ _) hevents)
  · have hkept : ∀ call ∈ blocks.flatten, call.report.isInvalid = true → call.isRefused = false :=
      fun call hcall => Sink.isRefused_of_mem_calls hinvalid (hcalls ▸ hcall)
    obtain ⟨haccepted, herrors⟩ := counts_of_attempts hblocks hkept
    have hcounted : course.events.countP Event.isInvalid = history.engine.stats.errors :=
      countP_isInvalid_course setup options sink state cases finished
    rw [show calls = blocks.flatten from hcalls, haccepted, herrors]
    exact ⟨(List.length_map _).symm, congrArg (· + _) hcounted⟩

/-- A gate that refuses failing tokens and the statistics, in front of a sink that keeps all it
gets.  Each of the two tokens that fail, and the statistics, are replaced by an error. -/
theorem every_event_delivered_refused_tokens :
    let setup : Setup Bool := .ready ⟨"source.c", .null⟩ (.comment "source.c")
    let gate : Gate := { refuse := ["token_failed", "stats"] }
    let sink := Sink.recording.behind gate
    let case : Case := ⟨"word", .compact "a b", .compact "number|", none⟩
    let course := (of setup {} sink (0, []) [case]).course true
    let calls := sink.calls (0, []) course.reports
    sink.NeverPanics ∧
      (∀ before subject reason error,
        (sink.report before (.invalid subject reason)).verdict ≠ .refused error) ∧
      course.handed.map Handed.fate = [.replaced, .replaced, .accepted, .replaced] ∧
      calls.countP Call.isAccepted = 4 ∧
      calls.countP (fun call => call.isAccepted && call.report.isInvalid) = 3 := by
  intro setup gate sink case course calls
  have hsink : sink.NeverPanics := Sink.neverPanics_recording.behind rfl
  have hinvalid : ∀ before subject reason error,
      (sink.report before (.invalid subject reason)).verdict ≠ .refused error := by
    intro before subject reason error hrefused
    cases hrefused
  obtain ⟨-, -, -, -, hcounts⟩ :=
    every_event_delivered setup {} (0, []) [case] true hsink
  obtain ⟨haccepted, herrors⟩ := hcounts hinvalid
  refine ⟨hsink, hinvalid, by decide, ?_, ?_⟩
  · exact haccepted.trans (by decide)
  · exact herrors.trans (by decide)

end History

end ScopeCheck
