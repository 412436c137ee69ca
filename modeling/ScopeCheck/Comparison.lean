import ScopeCheck.Case
import ScopeCheck.Event
import ScopeCheck.Tokenizer

/-!
# Comparing a case

The tokens of every line are compared with the expected chains, position by position.  A comparison
does not hold the tokenizer: it is a procedure that calls it and goes on with the answer.  What
else it does, counting, reporting and logging, is fixed by those answers, and does not depend on
who receives the events.

* `Step`, `Procedure`: one step of a run, and what is done step by step up to a result.
* `Procedure.run`: a procedure over a tokenizer: the steps, with the calls among them, and the
  result.
* `Position`: a token and the chain expected at its place, either of which may be missing.
* `comparePositions`, `compareLines`, `compareCase`: the comparison of a line, of the lines of a
  case and of a case.
-/

namespace ScopeCheck

/-- How a case ended. -/
inductive Outcome where
  | passed
  | failed
  /-- Rejected before any line was tokenized. -/
  | invalid
  deriving DecidableEq, Repr

def Outcome.name : Outcome → String
  | passed => "Passed"
  | failed => "Failed"
  | invalid => "Invalid"

/-! ## Steps and procedures -/

/-- One step of a run over a tokenizer with states `S`. -/
inductive Step (S : Type) where
  /-- The tokenizer is called. -/
  | call (call : Tokenizer.Call S)
  | count (count : Count)
  /-- An event is handed over for delivery. -/
  | emit (event : Event)
  | log (level : Log.Level) (text : String) (fields : Log.Fields)
  | enter (span : String) (fields : Log.Fields)
  | leave (span : String)

/-- What a step comes back with: a call with the answer, any other step with nothing. -/
def Step.Answer {S : Type} : Step S → Type
  | call c => c.Answer
  | _ => Unit

/-- What a step over a tokenizer comes back with. -/
def Tokenizer.reply {S : Type} (tokenizer : Tokenizer S) : (step : Step S) → step.Answer
  | .call c => tokenizer.answer c
  | .count _ => ()
  | .emit _ => ()
  | .log _ _ _ => ()
  | .enter _ _ => ()
  | .leave _ => ()

/-- What is done step by step, up to a result.  What a tokenizer answers can be learned from a step
that calls it, and in no other way. -/
inductive Procedure (S α : Type) where
  | done (result : α)
  | step (step : Step S) (next : step.Answer → Procedure S α)

/-- The steps that were done, and what they came to. -/
structure Done (S α : Type) where
  steps : List (Step S)
  result : α

namespace Procedure

variable {S α β : Type}

/-- Goes on with the result of a procedure. -/
def bind : Procedure S α → (α → Procedure S β) → Procedure S β
  | done result, go => go result
  | step s next, go => step s fun answer => (next answer).bind go

instance : Monad (Procedure S) where
  pure := done
  bind := bind

/-- Asks the tokenizer for its initial state. -/
def initialState : Procedure S S :=
  step (.call .initial) done

/-- Gives the tokenizer a line and a state. -/
def tokenize (line : String) (state : S) : Procedure S (LineTokens S) :=
  step (.call (.line line state)) done

/-- Does one step. -/
def act (s : Step S) : Procedure S Unit :=
  step s fun _ => done ()

/-- Does steps in order. -/
def acts : List (Step S) → Procedure S Unit
  | [] => done ()
  | s :: steps => step s fun _ => acts steps

/-- Does a procedure over a tokenizer, which answers every call in its turn. -/
def run (tokenizer : Tokenizer S) : Procedure S α → Done S α
  | done result => ⟨[], result⟩
  | step s next =>
    let rest := (next (tokenizer.reply s)).run tokenizer
    ⟨s :: rest.steps, rest.result⟩

end Procedure

open Procedure (initialState tokenize act acts)

/-! ## Lines -/

/-- A line of a case with its tokens, and the state it was tokenized in. -/
structure ComparedLine (S : Type) where
  index : Nat
  text : String
  state : S
  tokens : List Token
  expected : List ScopeChain

/-- A token and the full chain expected at its place. -/
structure Position where
  index : Nat
  token : Option Token
  expected : Option (List String)
  deriving DecidableEq, Repr

/-- A position passes when it has both sides and the chains are the same. -/
def Position.passed (p : Position) : Bool :=
  match p.token, p.expected with
  | some token, some chain => token.scopes = chain
  | _, _ => false

/-- The positions of a line, up to the end of the longer side. -/
def ComparedLine.positions {S : Type} (root : String) (line : ComparedLine S) : List Position :=
  (List.range (max line.tokens.length line.expected.length)).map fun i =>
    ⟨i, line.tokens[i]?, line.expected[i]?.map (root :: ·)⟩

/-- The report on a position. -/
def Position.report {S : Type} (case : String) (line : ComparedLine S) (p : Position) :
    TokenReport where
  case := case
  lineIndex := line.index
  tokenIndex := p.index
  line := line.text
  span := p.token.map fun token => ⟨token.start, token.stop⟩
  expected := p.expected
  actual := p.token.map Token.scopes

/-- Compares the positions of a line and adds to the number of those that failed before them.  A
position is counted; a failure is always reported, a success only when asked for. -/
def comparePositions {S : Type} (case : String) (verbose : Bool) (line : ComparedLine S) :
    Nat → List Position → Procedure S Nat
  | failures, [] => return failures
  | failures, p :: positions => do
    act (.count (.token p.passed))
    if p.passed then
      if verbose then act (.emit (.tokenPassed (p.report case line)))
      comparePositions case verbose line failures positions
    else
      act (.emit (.tokenFailed (p.report case line)))
      comparePositions case verbose line (failures + 1) positions

/-! ## Cases -/

/-- The wording for a case whose parts have different numbers of lines. -/
def lengthMismatch (lines rows : Nat) : String :=
  "`text` has " ++ toString lines ++ " lines but `expect` has " ++ toString rows ++
    "; both must have the same number of lines"

/-- Compares the lines of a case from one on, with the state passed on from line to line, and adds
to the number of positions that failed before them.  A line is tokenized, compared and counted. -/
def compareLines {S : Type} (root case : String) (verbose : Bool) :
    Nat → S → Nat → List (String × List ScopeChain) → Procedure S Nat
  | _, _, failures, [] => return failures
  | index, state, failures, (text, expected) :: lines => do
    let produced ← tokenize text state
    let line : ComparedLine S := ⟨index, text, state, produced.tokens, expected⟩
    let failed ← comparePositions case verbose line 0 (line.positions root)
    act (.count (.line (failed = 0)))
    compareLines root case verbose (index + 1) produced.next (failures + failed) lines

/-- The event at the end of a compared case. -/
def caseVerdict (case : String) (failures : Nat) : Event :=
  if failures = 0 then .casePassed case else .caseFailed case failures

/-- The steps of rejecting what cannot be checked. -/
def rejectionSteps {S : Type} (subject reason : String) : List (Step S) :=
  [.count .error, .emit (.invalid subject reason)]

/-- The name of the span of work on a case. -/
def caseSpan : String := "compare_case"

/-- Compares a case.  A case whose parts have different numbers of lines is rejected. -/
def compareCase {S : Type} (root : String) (verbose : Bool) (case : NormalCase) :
    Procedure S Outcome := do
  act (.enter caseSpan [("case", case.name)])
  if case.text.length ≠ case.expect.length then
    acts (rejectionSteps case.name (lengthMismatch case.text.length case.expect.length))
    act (.leave caseSpan)
    return .invalid
  else
    let state ← initialState
    let failures ← compareLines root case.name verbose 0 state 0 (case.text.zip case.expect)
    act (.count (.case (failures = 0)))
    act (.log .debug "case compared"
      [("case", case.name), ("failed_tokens", toString failures)])
    act (.emit (caseVerdict case.name failures))
    act (.leave caseSpan)
    return if failures = 0 then .passed else .failed

end ScopeCheck
