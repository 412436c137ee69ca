import ScopeCheck.Comparison
import ScopeCheck.Sink

/-!
# Delivering events

An event that a sink refuses is replaced by an `invalid` event that says why.  When that is refused
too, the event is dropped, and only the log tells of it.

* `Fate`, `Delivery`: what became of an event.
* `Sink.deliver`: delivers one event.
* `Handed`: an event that a run handed over, and what came of it.
* `Bench`, `Sink.play`: the state of a run, and the run of a list of steps.
-/

namespace ScopeCheck

/-- What became of an event. -/
inductive Fate where
  | accepted
  /-- Refused, and its replacement accepted. -/
  | replaced
  /-- Refused, and its replacement too. -/
  | dropped
  /-- The sink broke down. -/
  | panicked
  deriving DecidableEq, Repr

/-- What the delivery of an event did: the state of the sink after it, the reports that the sink
was given, what became of the event, and what was logged. -/
structure Delivery (σ : Type) where
  state : σ
  reports : List Event
  fate : Fate
  log : List Log.Record

/-- The event that takes the place of a refused one. -/
def replacement (event : Event) (error : SinkError) : Event :=
  .invalid (event.kind.name ++ " diagnostic") error.message

/-- The log record of a dropped event. -/
def droppedRecord (event : Event) (error : SinkError) : Log.Record :=
  .message .warn "diagnostic dropped" [("kind", event.kind.name), ("error", error.message)]

/-- Delivers an event to a sink. -/
def Sink.deliver {σ : Type} (sink : Sink σ) (state : σ) (event : Event) : Delivery σ :=
  let first := sink.report state event
  match first.verdict with
  | .accepted => ⟨first.state, [event], .accepted, first.log⟩
  | .panicked => ⟨first.state, [event], .panicked, first.log⟩
  | .refused error =>
    let second := sink.report first.state (replacement event error)
    let reports := [event, replacement event error]
    match second.verdict with
    | .accepted => ⟨second.state, reports, .replaced, first.log ++ second.log⟩
    | .panicked => ⟨second.state, reports, .panicked, first.log ++ second.log⟩
    | .refused again =>
      ⟨second.state, reports, .dropped,
        first.log ++ second.log ++ [droppedRecord event again]⟩

/-! ## Running steps -/

/-- The state of a run: its statistics, the state of its sink, and how often its tokenizer was
asked for the initial state. -/
structure Bench (σ : Type) where
  stats : Stats := {}
  state : σ
  resets : Nat := 0

/-- The state of a run after a call of its tokenizer. -/
def Bench.called {S σ : Type} (bench : Bench σ) (call : Tokenizer.Call S) : Bench σ :=
  { bench with resets := bench.resets + if call.isInitial then 1 else 0 }

/-- An event that a run handed over for delivery: the counters at that time, the reports that the
sink was given, and what became of the event. -/
structure Handed where
  event : Event
  stats : Stats
  reports : List Event
  fate : Fate
  deriving DecidableEq, Repr

/-- What running steps did. -/
structure Played (S σ : Type) where
  bench : Bench σ
  /-- The sink broke down before the last step. -/
  panicked : Bool
  /-- The events handed over, in order. -/
  handed : List Handed
  /-- The calls of the tokenizer, in order. -/
  calls : List (Tokenizer.Call S)
  log : List Log.Record

/-- The spans that are left when a run breaks off in front of steps. -/
def unwind {S : Type} : List (Step S) → List Log.Record
  | [] => []
  | .leave span :: steps => .leave span :: unwind steps
  | _ :: steps => unwind steps

namespace Played

variable {S σ : Type}

/-- Puts log records in front of what was logged later. -/
def logged (log : List Log.Record) (played : Played S σ) : Played S σ :=
  { played with log := log ++ played.log }

/-- Puts an event in front of those that were handed over later. -/
def handing (first : Handed) (played : Played S σ) : Played S σ :=
  { played with handed := first :: played.handed }

/-- Puts a call in front of those that were made later. -/
def calling (first : Tokenizer.Call S) (played : Played S σ) : Played S σ :=
  { played with calls := first :: played.calls }

end Played

/-- Runs steps.  When the sink breaks down, the remaining steps are given up. -/
def Sink.play {S σ : Type} (sink : Sink σ) : List (Step S) → Bench σ → Played S σ
  | [], bench => ⟨bench, false, [], [], []⟩
  | .call call :: steps, bench => (sink.play steps (bench.called call)).calling call
  | .count c :: steps, bench => sink.play steps { bench with stats := bench.stats.add c }
  | .emit event :: steps, bench =>
    let delivery := sink.deliver bench.state event
    let handed : Handed := ⟨event, bench.stats, delivery.reports, delivery.fate⟩
    let bench := { bench with state := delivery.state }
    if delivery.fate = .panicked then ⟨bench, true, [handed], [], delivery.log ++ unwind steps⟩
    else ((sink.play steps bench).handing handed).logged delivery.log
  | .log level text fields :: steps, bench =>
    (sink.play steps bench).logged [.message level text fields]
  | .enter span fields :: steps, bench => (sink.play steps bench).logged [.enter span fields]
  | .leave span :: steps, bench => (sink.play steps bench).logged [.leave span]

end ScopeCheck
