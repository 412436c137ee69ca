import ScopeCheck.Proofs.Running

/-!
# Moments of a run

A run can be looked at whenever its sink is called, and when it is over, whether it came to its end
or was cut off.  A moment is what there is to see then: the counters, and the events that were
handed over.

* `Moment`, `Moment.after`: a moment, and the one that steps lead to.
* `HoldsAtEmits`, `Keeps`: a property that holds whenever steps hand over an event, and one that
  steps keep, also at the events in between.  `Keeps.append` builds the property of a list of steps
  from its parts.
* `Sink.play_moments`: what steps keep holds at every moment of a run of them, whatever the sink
  does and wherever it breaks down.
* `Climbs`, `Sink.play_climbs`: the counters never decrease from one moment to the next.
* `History`: an engine and the runs of cases on it, with their moments.
* `History.moments_of_keeps`, `History.moments_pairwise`: both at once for a whole history.
-/

namespace ScopeCheck

variable {S σ : Type}

/-- The counters at some time, and the events handed over up to then. -/
structure Moment where
  stats : Stats
  events : List Event

namespace Moment

/-- The moment after a step. -/
def step (moment : Moment) : Step S → Moment
  | .count count => { moment with stats := moment.stats.add count }
  | .emit event => { moment with events := moment.events ++ [event] }
  | _ => moment

/-- The moment after steps. -/
def after (moment : Moment) (steps : List (Step S)) : Moment :=
  steps.foldl step moment

end Moment

/-! ## What steps keep -/

/-- A property holds whenever steps, run from a moment, hand over an event.  The event counts as
handed over then. -/
def HoldsAtEmits (holds : Moment → Prop) : Moment → List (Step S) → Prop
  | _, [] => True
  | moment, step :: steps =>
    (step.event?.isSome → holds (moment.step step)) ∧
      HoldsAtEmits holds (moment.step step) steps

/-- Steps keep a property: run from a moment at which it holds, it holds whenever they hand over an
event, and after them. -/
def Keeps (holds : Moment → Prop) (steps : List (Step S)) : Prop :=
  ∀ moment, holds moment → HoldsAtEmits holds moment steps ∧ holds (moment.after steps)

theorem HoldsAtEmits.append {holds : Moment → Prop} {moment : Moment}
    {first second : List (Step S)} (hfirst : HoldsAtEmits holds moment first)
    (hsecond : HoldsAtEmits holds (moment.after first) second) :
    HoldsAtEmits holds moment (first ++ second) := by
  induction first generalizing moment with
  | nil => exact hsecond
  | cons step steps ih => exact ⟨hfirst.1, ih hfirst.2 hsecond⟩

theorem HoldsAtEmits.cons_count {holds : Moment → Prop} {moment : Moment} {count : Count}
    {steps : List (Step S)}
    (h : HoldsAtEmits holds { moment with stats := moment.stats.add count } steps) :
    HoldsAtEmits holds moment (.count count :: steps) :=
  ⟨fun hsome => absurd hsome Bool.false_ne_true, h⟩

theorem HoldsAtEmits.cons_log {holds : Moment → Prop} {moment : Moment} {level : Log.Level}
    {text : String} {fields : Log.Fields} {steps : List (Step S)}
    (h : HoldsAtEmits holds moment steps) :
    HoldsAtEmits holds moment (.log level text fields :: steps) :=
  ⟨fun hsome => absurd hsome Bool.false_ne_true, h⟩

/-- Handing over one event at the end. -/
theorem HoldsAtEmits.emit {holds : Moment → Prop} {moment : Moment} {event : Event}
    (h : holds { moment with events := moment.events ++ [event] }) :
    HoldsAtEmits holds moment [(.emit event : Step S)] :=
  ⟨fun _ => h, trivial⟩

namespace Keeps

variable {holds : Moment → Prop}

theorem nil : Keeps holds ([] : List (Step S)) :=
  fun _ h => ⟨trivial, h⟩

theorem append {first second : List (Step S)} (hfirst : Keeps holds first)
    (hsecond : Keeps holds second) : Keeps holds (first ++ second) := by
  intro moment h
  obtain ⟨hemits, hafter⟩ := hfirst moment h
  obtain ⟨hemits', hafter'⟩ := hsecond _ hafter
  refine ⟨hemits.append hemits', ?_⟩
  rw [Moment.after, List.foldl_append]
  exact hafter'

/-- A step that neither counts nor hands over anything keeps every property. -/
theorem cons_quiet {step : Step S} {steps : List (Step S)} (hcount : step.count? = none)
    (hevent : step.event? = none) (h : Keeps holds steps) : Keeps holds (step :: steps) := by
  intro moment hmoment
  have hsame : moment.step step = moment := by
    cases step with
    | count c => cases hcount
    | emit event => cases hevent
    | _ => rfl
  obtain ⟨hemits, hafter⟩ := h moment hmoment
  rw [HoldsAtEmits, hevent, Moment.after, List.foldl_cons, hsame]
  exact ⟨⟨by simp, hemits⟩, hafter⟩

theorem flatMap {α : Type} {xs : List α} {steps : α → List (Step S)}
    (h : ∀ x ∈ xs, Keeps holds (steps x)) : Keeps holds (xs.flatMap steps) := by
  induction xs with
  | nil => exact nil
  | cons x xs ih =>
    rw [List.flatMap_cons]
    exact (h x List.mem_cons_self).append (ih fun y hy => h y (List.mem_cons_of_mem x hy))

end Keeps

/-! ## Moments of a run -/

/-- The moments at which the sink is called for an event handed over after others: one for each
report that it is given, also for the report of a replacement. -/
def Handed.moments (before : List Event) (handed : Handed) : List Moment :=
  handed.reports.map fun _ => ⟨handed.stats, before ++ [handed.event]⟩

theorem Handed.eq_of_mem_moments {before : List Event} {handed : Handed} {moment : Moment}
    (h : moment ∈ handed.moments before) : moment = ⟨handed.stats, before ++ [handed.event]⟩ := by
  obtain ⟨report, -, rfl⟩ := List.mem_map.mp h
  rfl

/-- The moments at which the sink is called for events handed over after others. -/
def callMoments : List Event → List Handed → List Moment
  | _, [] => []
  | before, handed :: rest =>
    handed.moments before ++ callMoments (before ++ [handed.event]) rest

namespace Sink

variable (sink : Sink σ)

/-- What steps keep holds at every call of the sink during a run, and at the end of the run.  The
induction follows the run; where the sink breaks down, the end is the moment of that call. -/
theorem play_moments {holds : Moment → Prop} {steps : List (Step S)} (bench : Bench σ)
    (before : List Event) (hemits : HoldsAtEmits holds ⟨bench.stats, before⟩ steps)
    (hafter : holds (Moment.after ⟨bench.stats, before⟩ steps)) :
    (∀ moment ∈ callMoments before (sink.play steps bench).handed, holds moment) ∧
      holds ⟨(sink.play steps bench).bench.stats,
        before ++ (sink.play steps bench).handed.map Handed.event⟩ := by
  induction steps generalizing bench before with
  | nil =>
    refine ⟨fun moment h => absurd h List.not_mem_nil, ?_⟩
    simpa [play, Moment.after] using hafter
  | cons step steps ih =>
    obtain ⟨hevent, hemits⟩ := hemits
    cases step with
    | emit event =>
      rw [play]
      split
      · refine ⟨fun moment h => ?_, hevent rfl⟩
        rw [callMoments, callMoments, List.append_nil] at h
        rw [Handed.eq_of_mem_moments h]
        exact hevent rfl
      · obtain ⟨hrest, hend⟩ := ih { bench with state := (sink.deliver bench.state event).state }
          (before ++ [event]) hemits hafter
        refine ⟨fun moment h => ?_, ?_⟩
        · rcases List.mem_append.mp h with h | h
          · rw [Handed.eq_of_mem_moments h]
            exact hevent rfl
          · exact hrest moment h
        · simpa [Played.logged, Played.handing] using hend
    | call c => exact ih (bench.called c) before hemits hafter
    | count c => exact ih { bench with stats := bench.stats.add c } before hemits hafter
    | _ => exact ih bench before hemits hafter

end Sink

/-! ## Counters that never decrease -/

/-- The counters climb over moments: from a start they never decrease, neither from one moment to
a later one nor up to what they are at last. -/
structure Climbs (start : Stats) (moments : List Moment) (last : Stats) : Prop where
  start_le_last : start ≤ last
  start_le : ∀ moment ∈ moments, start ≤ moment.stats
  le_last : ∀ moment ∈ moments, moment.stats ≤ last
  pairwise : moments.Pairwise fun earlier later => earlier.stats ≤ later.stats

namespace Climbs

variable {start middle last : Stats} {moments : List Moment}

/-- Moments with the counters of the start. -/
theorem still (h : ∀ moment ∈ moments, moment.stats = start) : Climbs start moments start where
  start_le_last := le_refl start
  start_le moment hmem := (h moment hmem).ge
  le_last moment hmem := (h moment hmem).le
  pairwise := List.pairwise_of_forall_mem_list fun earlier hearlier later hlater =>
    (h earlier hearlier).trans (h later hlater).symm |>.le

theorem from_below (hle : start ≤ middle) (h : Climbs middle moments last) :
    Climbs start moments last where
  start_le_last := hle.trans h.start_le_last
  start_le moment hmem := hle.trans (h.start_le moment hmem)
  le_last := h.le_last
  pairwise := h.pairwise

theorem append {more : List Moment} (hfirst : Climbs start moments middle)
    (hsecond : Climbs middle more last) : Climbs start (moments ++ more) last where
  start_le_last := hfirst.start_le_last.trans hsecond.start_le_last
  start_le moment hmem := by
    rcases List.mem_append.mp hmem with hmem | hmem
    · exact hfirst.start_le moment hmem
    · exact hfirst.start_le_last.trans (hsecond.start_le moment hmem)
  le_last moment hmem := by
    rcases List.mem_append.mp hmem with hmem | hmem
    · exact (hfirst.le_last moment hmem).trans hsecond.start_le_last
    · exact hsecond.le_last moment hmem
  pairwise := by
    refine List.pairwise_append.mpr ⟨hfirst.pairwise, hsecond.pairwise, ?_⟩
    intro earlier hearlier later hlater
    exact (hfirst.le_last earlier hearlier).trans (hsecond.start_le later hlater)

end Climbs

/-- Over a run, however it ends, no counter decreases. -/
theorem Sink.play_climbs (sink : Sink σ) (steps : List (Step S)) (bench : Bench σ)
    (before : List Event) :
    Climbs bench.stats (callMoments before (sink.play steps bench).handed)
      (sink.play steps bench).bench.stats := by
  induction steps generalizing bench before with
  | nil => exact Climbs.still fun moment h => absurd h List.not_mem_nil
  | cons step steps ih =>
    cases step with
    | emit event =>
      have hcalls : ∀ handed : Handed, handed.stats = bench.stats →
          Climbs bench.stats (handed.moments before) bench.stats := by
        intro handed hstats
        refine Climbs.still fun moment h => ?_
        rw [Handed.eq_of_mem_moments h, hstats]
      rw [play]
      split
      · rw [callMoments, callMoments, List.append_nil]
        exact hcalls _ rfl
      · exact (hcalls _ rfl).append
          (ih { bench with state := (sink.deliver bench.state event).state } (before ++ [event]))
    | count c =>
      exact (ih { bench with stats := bench.stats.add c } before).from_below
        (Stats.le_add bench.stats c)
    | call c => exact ih (bench.called c) before
    | _ => exact ih bench before

/-! ## Histories -/

/-- The moments of what an engine did, after events handed over before: the calls of its sink, and
the end. -/
def Ended.moments {β : Type} (before : List Event) (ended : Ended S (Engine S σ) β) : List Moment :=
  callMoments before ended.handed ++ [⟨ended.after.stats, before ++ ended.handed.map Handed.event⟩]

/-- The moments of runs of cases, one after the other. -/
def runMoments : List Event → List (Ended S (Engine S σ) Outcome) → List Moment
  | _, [] => []
  | before, ended :: rest =>
    ended.moments before ++ runMoments (before ++ ended.handed.map Handed.event) rest

/-- How an engine was made, and the runs of cases on it since then. -/
structure History (S σ : Type) where
  started : Ended S (Engine S σ) Unit
  runs : List (Ended S (Engine S σ) Outcome)

namespace History

/-- The history of an engine that runs cases, each one also when the sink broke down before. -/
def of (setup : Setup S) (options : Options) (sink : Sink σ) (state : σ) (cases : List Case) :
    History S σ :=
  let started := setup.start options sink state
  ⟨started, started.after.runs cases⟩

/-- The history up to a run. -/
def upTo (history : History S σ) (k : Nat) : History S σ :=
  { history with runs := history.runs.take k }

/-- The events handed over, in order, with what became of them. -/
def handed (history : History S σ) : List Handed :=
  history.started.handed ++ history.runs.flatMap Ended.handed

def events (history : History S σ) : List Event :=
  history.handed.map Handed.event

/-- The engine as the last run left it. -/
def engine (history : History S σ) : Engine S σ :=
  history.runs.foldl (fun _ ended => ended.after) history.started.after

/-- All calls of the sink, and the ends of all runs. -/
def moments (history : History S σ) : List Moment :=
  history.started.moments [] ++
    runMoments (history.started.handed.map Handed.event) history.runs

end History

/-! ## Invariants of histories -/

/-- What an engine did was to play steps, as far as its statistics and the events tell. -/
structure Ended.Plays {β : Type} (ended : Ended S (Engine S σ) β) (sink : Sink σ)
    (steps : List (Step S)) (bench : Bench σ) : Prop where
  stats : ended.after.stats = (sink.play steps bench).bench.stats
  handed : ended.handed = (sink.play steps bench).handed

namespace Ended.Plays

variable {β : Type} {ended : Ended S (Engine S σ) β} {sink : Sink σ} {steps : List (Step S)}
  {bench : Bench σ} {before : List Event}

/-- Playing steps that keep a property, an engine keeps it. -/
theorem moments_of_keeps {holds : Moment → Prop} (hplays : ended.Plays sink steps bench)
    (hkeeps : Keeps holds steps) (h : holds ⟨bench.stats, before⟩) :
    (∀ moment ∈ ended.moments before, holds moment) ∧
      holds ⟨ended.after.stats, before ++ ended.handed.map Handed.event⟩ := by
  obtain ⟨hemits, hafter⟩ := hkeeps _ h
  obtain ⟨hcalls, hend⟩ := sink.play_moments bench before hemits hafter
  rw [moments, hplays.stats, hplays.handed]
  refine ⟨fun moment hmem => ?_, hend⟩
  rcases List.mem_append.mp hmem with hmem | hmem
  · exact hcalls moment hmem
  · rw [List.mem_singleton.mp hmem]
    exact hend

/-- Playing steps, an engine lowers no counter. -/
theorem climbs (hplays : ended.Plays sink steps bench) :
    Climbs bench.stats (ended.moments before) ended.after.stats := by
  rw [moments, hplays.handed, hplays.stats]
  refine (sink.play_climbs steps bench before).append (Climbs.still fun moment hmem => ?_)
  rw [List.mem_singleton.mp hmem]

end Ended.Plays

namespace Engine

theorem run_plays (engine : Engine S σ) (case : Case) :
    (engine.run case).Plays engine.sink (caseSteps engine.backing engine.options case)
      engine.bench := by
  rw [run_eq]
  exact ⟨rfl, rfl⟩

/-- What every case keeps holds at every moment of runs of cases and after them, if it held before
them. -/
theorem runs_moments {holds : Moment → Prop}
    (hkeeps : ∀ (backing : Backing S) options case, Keeps holds (caseSteps backing options case))
    {engine : Engine S σ} {before : List Event} (h : holds ⟨engine.stats, before⟩)
    (cases : List Case) :
    (∀ moment ∈ runMoments before (engine.runs cases), holds moment) ∧
      holds ⟨((engine.runs cases).foldl (fun _ ended => ended.after) engine).stats,
        before ++ ((engine.runs cases).flatMap Ended.handed).map Handed.event⟩ := by
  induction cases generalizing engine before with
  | nil =>
    refine ⟨fun moment hmem => absurd hmem List.not_mem_nil, ?_⟩
    simpa [runs] using h
  | cons case cases ih =>
    have hrun := (engine.run_plays case).moments_of_keeps
      (hkeeps engine.backing engine.options case) h
    obtain ⟨hmoments, hlast⟩ := ih hrun.2
    rw [runs, List.foldl_cons, List.flatMap_cons, List.map_append, ← List.append_assoc]
    refine ⟨fun moment hmem => ?_, hlast⟩
    rw [runMoments] at hmem
    rcases List.mem_append.mp hmem with hmem | hmem
    · exact hrun.1 moment hmem
    · exact hmoments moment hmem

theorem runs_climbs (engine : Engine S σ) (before : List Event) (cases : List Case) :
    ∃ last, Climbs engine.stats (runMoments before (engine.runs cases)) last := by
  induction cases generalizing engine before with
  | nil => exact ⟨_, Climbs.still fun moment hmem => absurd hmem List.not_mem_nil⟩
  | cons case cases ih =>
    obtain ⟨last, hrest⟩ := ih (engine.run case).after
      (before ++ (engine.run case).handed.map Handed.event)
    exact ⟨last, (engine.run_plays case).climbs.append hrest⟩

/-- The runs of the first cases are the first runs. -/
theorem runs_take (engine : Engine S σ) (cases : List Case) (k : Nat) :
    (engine.runs cases).take k = engine.runs (cases.take k) := by
  induction cases generalizing engine k with
  | nil => rw [List.take_nil, runs, List.take_nil]
  | cons case cases ih =>
    cases k with
    | zero => rfl
    | succ k => rw [List.take_succ_cons, runs, runs, List.take_succ_cons, ih]

theorem runs_getElem? (engine : Engine S σ) (cases : List Case) (k : Nat) :
    (engine.runs cases)[k]? =
      cases[k]?.map
        ((engine.runs (cases.take k)).foldl (fun _ ended => ended.after) engine).run := by
  induction cases generalizing engine k with
  | nil => rfl
  | cons case cases ih =>
    cases k with
    | zero => rfl
    | succ k =>
      rw [runs, List.getElem?_cons_succ, ih, List.getElem?_cons_succ]
      rfl

end Engine

/-- The steps of making an engine. -/
def Setup.steps (setup : Setup S) (options : Options) : List (Step S) :=
  match setup with
  | ready _ _ => []
  | load text files backend =>
    Engine.loadSteps
      (Backing.load (.ofText text options.grammarIsInlineDocument) files backend)

theorem Setup.start_plays (setup : Setup S) (options : Options) (sink : Sink σ) (state : σ) :
    (setup.start options sink state).Plays sink (setup.steps options) ⟨{}, state, 0⟩ := by
  cases setup with
  | ready grammar tokenizer => exact ⟨rfl, rfl⟩
  | load text files backend => exact ⟨rfl, rfl⟩

namespace History

variable (setup : Setup S) (options : Options) (sink : Sink σ) (state : σ) (cases : List Case)

theorem upTo_of (k : Nat) :
    (of setup options sink state cases).upTo k = of setup options sink state (cases.take k) := by
  rw [upTo, of, of, Engine.runs_take]

/-- Whatever happened, the engine has the options that it was made with. -/
theorem engine_options : (of setup options sink state cases).engine.options = options :=
  (Engine.runs_after _ cases).2.1.trans (setup.start_after_options options sink state)

theorem engine_sink : (of setup options sink state cases).engine.sink = sink :=
  (Engine.runs_after _ cases).2.2.trans (setup.start_after_sink options sink state)

/-- Run `k` is the run of case `k` on the engine that the runs before it leave. -/
theorem runs_getElem? {k : Nat} {case : Case} (h : cases[k]? = some case) :
    let history := of setup options sink state cases
    history.runs[k]? = some ((history.upTo k).engine.run case) := by
  intro history
  rw [upTo_of]
  exact (Engine.runs_getElem? _ cases k).trans (congrArg _ h)

section Keeps

variable {holds : Moment → Prop} (hempty : holds ⟨{}, []⟩)
  (hload : ∀ backing : Backing S, Keeps holds (Engine.loadSteps backing))
  (hcase : ∀ (backing : Backing S) options case,
    Keeps holds (Engine.caseSteps backing options case))

include hempty hload

theorem start_of_keeps :
    let started := setup.start options sink state
    (∀ moment ∈ started.moments [], holds moment) ∧
      holds ⟨started.after.stats, started.handed.map Handed.event⟩ := by
  have hsteps : Keeps holds (setup.steps options) := by
    cases setup with
    | ready grammar tokenizer => exact Keeps.nil
    | load text files backend => exact hload _
  exact (setup.start_plays options sink state).moments_of_keeps hsteps hempty

include hcase

/-- What loading and every case keep holds at every moment of every history, if it holds of empty
counters and no events. -/
theorem moments_of_keeps :
    ∀ moment ∈ (of setup options sink state cases).moments, holds moment := by
  obtain ⟨hstart, hstarted⟩ := start_of_keeps setup options sink state hempty hload
  obtain ⟨hruns, -⟩ := Engine.runs_moments hcase hstarted cases
  intro moment hmem
  rcases List.mem_append.mp hmem with hmem | hmem
  · exact hstart moment hmem
  · exact hruns moment hmem

/-- It also holds of the counters and events at the end of the history. -/
theorem last_of_keeps :
    let history := of setup options sink state cases
    holds ⟨history.engine.stats, history.events⟩ := by
  obtain ⟨-, hstarted⟩ := start_of_keeps setup options sink state hempty hload
  obtain ⟨-, hlast⟩ := Engine.runs_moments hcase hstarted cases
  rw [← List.map_append] at hlast
  exact hlast

end Keeps

/-- From one moment of a history to a later one, no counter decreases. -/
theorem moments_pairwise :
    (of setup options sink state cases).moments.Pairwise
      fun earlier later => earlier.stats ≤ later.stats := by
  obtain ⟨last, hruns⟩ := Engine.runs_climbs (setup.start options sink state).after
    ((setup.start options sink state).handed.map Handed.event) cases
  exact ((setup.start_plays options sink state).climbs.append hruns).pairwise

end History

end ScopeCheck
