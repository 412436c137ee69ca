import ScopeCheck.Delivery
import ScopeCheck.Grammar
import ScopeCheck.Report

/-!
# Engines

An engine runs cases with one tokenizer and reports to one sink.  Its grammar may have failed to
load; then every case is invalid.

* `Engine`: an engine, made by `Engine.ready` or `Engine.load`; `Setup` names the two ways.
* `Engine.run`: runs a case; the override of the case is active only while it runs.
* `Engine.runs`: runs cases one after the other, also after one that broke off.
* `Engine.finish`: the statistics as the last event, and the report.
* `Engine.executeAll`: runs cases one after the other and finishes.
-/

namespace ScopeCheck

/-- What an engine tokenizes with. -/
inductive Backing (S : Type) where
  | ready (grammar : Grammar) (tokenizer : Tokenizer S)
  | failed (source : String) (error : LoadError)

/-- What a source and a backend make: a grammar with its tokenizer, or the reason why not.  The
backend builds the tokenizer of a grammar, or says why it cannot. -/
def Backing.load {S : Type} (source : GrammarSource) (files : Files)
    (backend : Grammar → Except String (Tokenizer S)) : Backing S :=
  match source.load files with
  | .error error => .failed source.describe error
  | .ok grammar =>
    match backend grammar with
    | .ok tokenizer => .ready grammar tokenizer
    | .error message => .failed source.describe (.rejected grammar.scopeName message)

/-- An engine over a tokenizer with states `S` and a sink with states `σ`. -/
structure Engine (S σ : Type) where
  backing : Backing S
  options : Options
  sink : Sink σ
  bench : Bench σ

/-- What an action of an engine came to; without a result, the sink broke down. -/
structure Ended (S α β : Type) where
  after : α
  result : Option β
  /-- The events handed over for delivery, in order. -/
  handed : List Handed
  /-- The calls of the tokenizer, in order. -/
  calls : List (Tokenizer.Call S)
  log : List Log.Record

namespace Engine

variable {S σ : Type}

/-- What is done for a case under the active options.  Without a grammar, every case is rejected. -/
def work (backing : Backing S) (active : Options) (case : NormalCase) : Done S Outcome :=
  match backing with
  | .ready grammar tokenizer =>
    (compareCase grammar.scopeName active.logAllPassedTokens case).run tokenizer
  | .failed source _ =>
    ⟨rejectionSteps case.name ("grammar " ++ source ++ " did not load"), .invalid⟩

/-- What is logged when work on a case begins. -/
def caseStart (case : NormalCase) : Step S :=
  .log .debug "running case" [("case", case.name), ("lines", toString case.text.length)]

/-! ## Making an engine -/

/-- An engine with a grammar and a tokenizer that are there already. -/
def ready (grammar : Grammar) (tokenizer : Tokenizer S) (options : Options) (sink : Sink σ)
    (state : σ) : Engine S σ :=
  ⟨.ready grammar tokenizer, options, sink, ⟨{}, state, 0⟩⟩

/-- The steps of loading. -/
def loadSteps : Backing S → List (Step S)
  | .ready grammar _ => [.log .debug "grammar loaded" [("scope", grammar.scopeName)]]
  | .failed source error =>
    rejectionSteps source ("cannot run tests with invalid grammar: " ++ error.message)

/-- An engine for a grammar that is still to be loaded.  A failure is reported, and the engine
goes on without a tokenizer. -/
def load (text : String) (files : Files) (backend : Grammar → Except String (Tokenizer S))
    (options : Options) (sink : Sink σ) (state : σ) : Ended S (Engine S σ) Unit :=
  let source := GrammarSource.ofText text options.grammarIsInlineDocument
  let backing := Backing.load source files backend
  let played := sink.play (loadSteps backing) ⟨{}, state, 0⟩
  ⟨⟨backing, options, sink, played.bench⟩, if played.panicked then none else some (),
    played.handed, played.calls, played.log⟩

/-! ## What an engine shows -/

/-- The grammar, if it loaded. -/
def grammar? (engine : Engine S σ) : Option Grammar :=
  match engine.backing with
  | .ready grammar _ => some grammar
  | .failed _ _ => none

/-- Why the grammar did not load. -/
def loadError? (engine : Engine S σ) : Option LoadError :=
  match engine.backing with
  | .ready _ _ => none
  | .failed _ error => some error

def stats (engine : Engine S σ) : Stats :=
  engine.bench.stats

/-! ## Running -/

/-- Runs a case under its override. -/
def run (engine : Engine S σ) (case : Case) : Ended S (Engine S σ) Outcome :=
  let normal := case.normalize
  let ((played, outcome), options) := engine.options.within case.options fun active =>
    let done := work engine.backing active normal
    (engine.sink.play (caseStart normal :: done.steps) engine.bench, done.result)
  ⟨{ engine with options, bench := played.bench },
    if played.panicked then none else some outcome, played.handed, played.calls, played.log⟩

/-- Runs cases one after the other.  A case at which the sink breaks down ends, and the next one
runs on the engine that it leaves. -/
def runs (engine : Engine S σ) : List Case → List (Ended S (Engine S σ) Outcome)
  | [] => []
  | case :: cases =>
    let ended := engine.run case
    ended :: ended.after.runs cases

/-- Runs cases one after the other, up to one at which the sink breaks down. -/
def runAll (engine : Engine S σ) : List Case → Ended S (Engine S σ) (List Outcome)
  | [] => ⟨engine, some [], [], [], []⟩
  | case :: cases =>
    let first := engine.run case
    match first.result with
    | none => ⟨first.after, none, first.handed, first.calls, first.log⟩
    | some outcome =>
      let rest := first.after.runAll cases
      ⟨rest.after, rest.result.map (outcome :: ·), first.handed ++ rest.handed,
        first.calls ++ rest.calls, first.log ++ rest.log⟩

/-- The steps of finishing. -/
def finishSteps (stats : Stats) : List (Step S) :=
  [.log .info "grammar tests finished"
      [("cases", toString stats.cases), ("failed_cases", toString stats.failedCases),
        ("errors", toString stats.errors)],
    .emit (.stats stats)]

/-- Emits the statistics and makes the report; only the sink is left. -/
def finish (engine : Engine S σ) : Ended S σ Report :=
  let played := engine.sink.play (finishSteps engine.stats) engine.bench
  ⟨played.bench.state,
    if played.panicked then none else some (.ofStats engine.stats engine.options), played.handed,
    played.calls, played.log⟩

/-- Runs cases and finishes. -/
def executeAll (engine : Engine S σ) (cases : List Case) : Ended S σ Report :=
  let ran := engine.runAll cases
  match ran.result with
  | none => ⟨ran.after.bench.state, none, ran.handed, ran.calls, ran.log⟩
  | some _ =>
    let finished := ran.after.finish
    ⟨finished.after, finished.result, ran.handed ++ finished.handed, ran.calls ++ finished.calls,
      ran.log ++ finished.log⟩

end Engine

/-! ## Ways to make an engine -/

/-- How an engine is made: around a grammar and a tokenizer that are there, or by loading. -/
inductive Setup (S : Type) where
  | ready (grammar : Grammar) (tokenizer : Tokenizer S)
  | load (text : String) (files : Files) (backend : Grammar → Except String (Tokenizer S))

/-- Makes an engine. -/
def Setup.start {S σ : Type} (setup : Setup S) (options : Options) (sink : Sink σ) (state : σ) :
    Ended S (Engine S σ) Unit :=
  match setup with
  | ready grammar tokenizer =>
    ⟨Engine.ready grammar tokenizer options sink state, some (), [], [], []⟩
  | load text files backend => Engine.load text files backend options sink state

end ScopeCheck
