import ScopeCheck.Delivery
import ScopeCheck.Proofs.Counters
import ScopeCheck.Sink

/-!
# What running steps comes to

A list of steps counts things, hands over events and calls the tokenizer, in an order that is fixed
before any sink sees them.  This module says how much of that a run carries out.

* `Step.tally`, `Step.events`, `Step.calls`: what all steps together add to the statistics, the
  events that they hand over, and their calls of the tokenizer.  They turn concatenation into sums
  and concatenation.
* `Sink.carriedOut`: the steps that a run gets to.  `Sink.play_carriedOut` says that they are what
  the run counts, hands over and resets.
* `Sink.play_of_not_panicked`: a run that is not cut off adds the tally and hands over the events,
  whatever the sink accepts or refuses.
* `Sink.play_panicked_iff`: a run is cut off only where the sink breaks down at an event.
* `Sink.NeverPanics`: a sink that never breaks down, so that no run is cut off.
-/

namespace ScopeCheck

variable {S σ : Type}

/-! ## Tally, events and calls of steps -/

namespace Step

/-- The thing that a step counts. -/
def count? : Step S → Option Count
  | count c => some c
  | _ => none

/-- The event that a step hands over. -/
def event? : Step S → Option Event
  | emit event => some event
  | _ => none

/-- The call of the tokenizer that a step makes. -/
def call? : Step S → Option (Tokenizer.Call S)
  | call c => some c
  | _ => none

/-- What steps add to the statistics. -/
def tally (steps : List (Step S)) : Stats :=
  ((steps.filterMap count?).map Stats.single).sum

/-- The events that steps hand over, in order. -/
def events (steps : List (Step S)) : List Event :=
  steps.filterMap event?

/-- The calls of the tokenizer that steps make, in order. -/
def calls (steps : List (Step S)) : List (Tokenizer.Call S) :=
  steps.filterMap call?

@[simp] theorem tally_nil : tally ([] : List (Step S)) = 0 :=
  rfl

@[simp] theorem events_nil : events ([] : List (Step S)) = [] :=
  rfl

theorem tally_append (first second : List (Step S)) :
    tally (first ++ second) = tally first + tally second := by
  rw [tally, List.filterMap_append, List.map_append, List.sum_append]
  rfl

theorem events_append (first second : List (Step S)) :
    events (first ++ second) = events first ++ events second :=
  List.filterMap_append

theorem calls_append (first second : List (Step S)) :
    calls (first ++ second) = calls first ++ calls second :=
  List.filterMap_append

theorem tally_flatMap {α : Type} (xs : List α) (steps : α → List (Step S)) :
    tally (xs.flatMap steps) = (xs.map fun x => tally (steps x)).sum := by
  induction xs with
  | nil => rfl
  | cons x xs ih => rw [List.flatMap_cons, tally_append, ih, List.map_cons, List.sum_cons]

theorem events_flatMap {α : Type} (xs : List α) (steps : α → List (Step S)) :
    events (xs.flatMap steps) = xs.flatMap fun x => events (steps x) := by
  induction xs with
  | nil => rfl
  | cons x xs ih => rw [List.flatMap_cons, events_append, ih, List.flatMap_cons]

theorem calls_flatMap {α : Type} (xs : List α) (steps : α → List (Step S)) :
    calls (xs.flatMap steps) = xs.flatMap fun x => calls (steps x) := by
  induction xs with
  | nil => rfl
  | cons x xs ih => rw [List.flatMap_cons, calls_append, ih, List.flatMap_cons]

/-- The first step adds what it counts to the tally of the others. -/
theorem tally_cons (step : Step S) (steps : List (Step S)) :
    tally (step :: steps) = (step.count?.map Stats.single).getD 0 + tally steps := by
  cases step with
  | count c => rfl
  | _ => exact (zero_add _).symm

theorem events_cons (step : Step S) (steps : List (Step S)) :
    events (step :: steps) = step.event?.toList ++ events steps := by
  cases step <;> rfl

theorem calls_cons (step : Step S) (steps : List (Step S)) :
    calls (step :: steps) = step.call?.toList ++ calls steps := by
  cases step <;> rfl

end Step

/-! ## What a run carries out -/

namespace Sink

/-- The steps that a run carries out: all of them, or those up to the event at which the sink breaks
down. -/
def carriedOut (sink : Sink σ) : List (Step S) → σ → List (Step S)
  | [], _ => []
  | .emit event :: steps, state =>
    let delivery := sink.deliver state event
    .emit event ::
      if delivery.fate = .panicked then [] else sink.carriedOut steps delivery.state
  | step :: steps, state => step :: sink.carriedOut steps state

theorem carriedOut_cons_of_event?_eq_none (sink : Sink σ) {step : Step S} (h : step.event? = none)
    (steps : List (Step S)) (state : σ) :
    sink.carriedOut (step :: steps) state = step :: sink.carriedOut steps state := by
  cases step with
  | emit event => cases h
  | _ => rfl

/-- A run counts what the steps that it carries out count, and makes their calls and hands over
their events. -/
theorem play_carriedOut (sink : Sink σ) (steps : List (Step S)) (bench : Bench σ) :
    (sink.play steps bench).bench.stats =
        bench.stats + Step.tally (sink.carriedOut steps bench.state) ∧
      (sink.play steps bench).calls = Step.calls (sink.carriedOut steps bench.state) ∧
      (sink.play steps bench).handed.map Handed.event =
        Step.events (sink.carriedOut steps bench.state) := by
  induction steps generalizing bench with
  | nil => exact ⟨(add_zero _).symm, rfl, rfl⟩
  | cons step steps ih =>
    -- a run ends early only at an event, and changes its counters only at a count
    cases step with
    | emit event =>
      rw [play, carriedOut, Step.tally_cons, Step.calls_cons, Step.events_cons]
      split
      · exact ⟨(add_zero _).symm, rfl, rfl⟩
      · obtain ⟨hstats, hcalls, hevents⟩ :=
          ih { bench with state := (sink.deliver bench.state event).state }
        exact ⟨hstats.trans (congrArg _ (zero_add _).symm), hcalls, congrArg (event :: ·) hevents⟩
    | count c =>
      obtain ⟨hstats, hcalls, hevents⟩ := ih { bench with stats := bench.stats.add c }
      rw [carriedOut_cons_of_event?_eq_none _ rfl, Step.tally_cons]
      refine ⟨hstats.trans ?_, hcalls, hevents⟩
      rw [Stats.add_eq_add_single, add_assoc]
      rfl
    | call c =>
      obtain ⟨hstats, hcalls, hevents⟩ := ih (bench.called c)
      rw [carriedOut_cons_of_event?_eq_none _ rfl, Step.tally_cons, Step.calls_cons]
      exact ⟨hstats.trans (congrArg _ (zero_add _).symm), congrArg (c :: ·) hcalls, hevents⟩
    | _ =>
      obtain ⟨hstats, hcalls, hevents⟩ := ih bench
      rw [carriedOut_cons_of_event?_eq_none _ rfl, Step.tally_cons, Step.calls_cons]
      exact ⟨hstats.trans (congrArg _ (zero_add _).symm), hcalls, hevents⟩

/-- A run counts those of its calls that ask for the initial state. -/
theorem play_resets (sink : Sink σ) (steps : List (Step S)) (bench : Bench σ) :
    (sink.play steps bench).bench.resets =
      bench.resets + (sink.play steps bench).calls.countP Tokenizer.Call.isInitial := by
  induction steps generalizing bench with
  | nil => rfl
  | cons step steps ih =>
    cases step with
    | emit event =>
      rw [play]
      split
      · rfl
      · exact ih { bench with state := (sink.deliver bench.state event).state }
    | call c =>
      have hcalled : (bench.called c).resets = bench.resets + if c.isInitial then 1 else 0 := rfl
      have hrest := ih (bench.called c)
      rw [play, Played.calling, List.countP_cons, hrest, hcalled]
      omega
    | count c => exact ih { bench with stats := bench.stats.add c }
    | _ => exact ih bench

/-! ## Runs that are not cut off -/

/-- A run that is not cut off carries out all its steps. -/
theorem carriedOut_of_not_panicked {sink : Sink σ} {steps : List (Step S)} {bench : Bench σ}
    (h : (sink.play steps bench).panicked = false) :
    sink.carriedOut steps bench.state = steps := by
  induction steps generalizing bench with
  | nil => rfl
  | cons step steps ih =>
    cases step with
    | emit event =>
      rw [play] at h
      rw [carriedOut]
      split at h
      · exact absurd h (by simp)
      · rename_i hfate
        rw [if_neg hfate, ih h]
    | _ => exact congrArg _ (ih h)

/-- A run that is not cut off adds the tally of its steps and hands over all their events. -/
theorem play_of_not_panicked {sink : Sink σ} {steps : List (Step S)} {bench : Bench σ}
    (h : (sink.play steps bench).panicked = false) :
    (sink.play steps bench).bench.stats = bench.stats + Step.tally steps ∧
      (sink.play steps bench).handed.map Handed.event = Step.events steps := by
  obtain ⟨hstats, -, hevents⟩ := sink.play_carriedOut steps bench
  rw [carriedOut_of_not_panicked h] at hstats hevents
  exact ⟨hstats, hevents⟩

/-- A run is cut off exactly when the sink breaks down at one of the events handed over. -/
theorem play_panicked_iff (sink : Sink σ) (steps : List (Step S)) (bench : Bench σ) :
    (sink.play steps bench).panicked = true ↔
      ∃ handed ∈ (sink.play steps bench).handed, handed.fate = .panicked := by
  induction steps generalizing bench with
  | nil => simp [play]
  | cons step steps ih =>
    cases step with
    | emit event =>
      rw [play]
      split
      · rename_i hfate
        simp [hfate]
      · rename_i hfate
        refine (ih _).trans ?_
        simp only [Played.logged, Played.handing, List.mem_cons, exists_eq_or_imp, hfate,
          false_or]
    | _ => exact ih _

/-! ## Sinks that never break down -/

/-- A sink that never breaks down.  It may refuse whatever it likes. -/
def NeverPanics (sink : Sink σ) : Prop :=
  ∀ state event, (sink.report state event).verdict ≠ .panicked

theorem neverPanics_recording : recording.NeverPanics := by
  intro state event h
  cases h

theorem neverPanics_tracing : tracing.NeverPanics := by
  intro state event h
  cases h

/-- A gate that only refuses events. -/
theorem NeverPanics.behind {sink : Sink σ} (hsink : sink.NeverPanics) {gate : Gate}
    (hgate : gate.panicOn = []) : (sink.behind gate).NeverPanics := by
  intro state event
  simp only [Sink.behind, hgate]
  split
  · contradiction
  · split
    · split
      · exact hsink _ _
      · simp
    · exact hsink _ _

theorem NeverPanics.fate_ne_panicked {sink : Sink σ} (hsink : sink.NeverPanics) (state : σ)
    (event : Event) : (sink.deliver state event).fate ≠ .panicked := by
  unfold deliver
  cases hfirst : (sink.report state event).verdict with
  | accepted => simp [hfirst]
  | panicked => exact absurd hfirst (hsink _ _)
  | refused error =>
    have hreplacement := hsink (sink.report state event).state (replacement event error)
    cases hsecond :
        (sink.report (sink.report state event).state (replacement event error)).verdict with
    | accepted => simp [hfirst, hsecond]
    | panicked => exact absurd hsecond hreplacement
    | refused again => simp [hfirst, hsecond]

theorem NeverPanics.play_not_panicked {sink : Sink σ} (hsink : sink.NeverPanics)
    (steps : List (Step S)) (bench : Bench σ) : (sink.play steps bench).panicked = false := by
  induction steps generalizing bench with
  | nil => rfl
  | cons step steps ih =>
    cases step with
    | emit event =>
      rw [play, if_neg (hsink.fate_ne_panicked _ _)]
      exact ih _
    | _ => exact ih _

theorem NeverPanics.carriedOut_eq {sink : Sink σ} (hsink : sink.NeverPanics)
    (steps : List (Step S)) (state : σ) : sink.carriedOut steps state = steps :=
  carriedOut_of_not_panicked (hsink.play_not_panicked steps ⟨{}, state, 0⟩)

end Sink

end ScopeCheck
