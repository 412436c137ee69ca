import ScopeCheck.Event

/-!
# Sinks

A sink receives the events of a run.  It may refuse an event, and it may fail altogether.

* `Sink`: a sink as a state machine, with `Answer` as its answer to one event.
* `Sink.recording`: keeps every event.
* `Sink.tracing`: writes every event to the log.
* `Gate`, `Sink.behind`: a gate in front of a sink, which keeps chosen events from it.
-/

namespace ScopeCheck

/-- Why a sink refuses an event. -/
inductive SinkError where
  /-- Writing failed. -/
  | io (message : String)
  /-- The event has no text. -/
  | render (message : String)
  deriving DecidableEq, Repr

/-- The wording of an error. -/
def SinkError.message : SinkError → String
  | io message => message
  | render message => "cannot render diagnostic: " ++ message

/-- What a sink makes of an event. -/
inductive Verdict where
  | accepted
  | refused (error : SinkError)
  /-- The sink broke down, and whoever reported to it is cut off. -/
  | panicked
  deriving DecidableEq, Repr

/-- The answer of a sink to one event, and what it logged. -/
structure Answer (σ : Type) where
  state : σ
  verdict : Verdict
  log : List Log.Record := []

/-- A receiver of events with states `σ`. -/
structure Sink (σ : Type) where
  report : σ → Event → Answer σ

namespace Sink

/-- Keeps every event, in order. -/
def recording : Sink (List Event) where
  report events event := ⟨events ++ [event], .accepted, []⟩

/-- Writes every event to the log and keeps nothing. -/
def tracing : Sink Unit where
  report _ event := ⟨(), .accepted, [event.record]⟩

end Sink

/-! ## Gates -/

/-- Which events a gate keeps back, by name. -/
structure Gate where
  /-- Events at which the gate breaks down. -/
  panicOn : List String := []
  /-- Events that the gate refuses. -/
  refuse : List String := []
  /-- How many of the events to be refused pass first. -/
  refuseAfter : Nat := 0
  refusal : SinkError := .render "no"

namespace Sink

/-- A sink behind a gate.  The states also count the events to be refused that have passed. -/
def behind {σ : Type} (gate : Gate) (sink : Sink σ) : Sink (Nat × σ) where
  report state event :=
    let pass (count : Nat) : Answer (Nat × σ) :=
      let answer := sink.report state.2 event
      ⟨(count, answer.state), answer.verdict, answer.log⟩
    if event.name ∈ gate.panicOn then ⟨state, .panicked, []⟩
    else if event.name ∈ gate.refuse then
      if state.1 < gate.refuseAfter then pass (state.1 + 1)
      else ⟨state, .refused gate.refusal, []⟩
    else pass state.1

end Sink

end ScopeCheck
