import ScopeCheck.Proofs.Steps

/-!
# What a procedure comes to

A comparison is a procedure that calls a tokenizer.  This module says what it comes to over one:
its steps are a double loop over lines and positions, and its result follows from the number of
positions that fail.

* `Procedure.run_bind`: a procedure that goes on with the result of another one.
* `Procedure.run_eq_of_answers`: nothing of a tokenizer matters to a procedure but its answers to
  the calls that the procedure makes.
* `comparedLines`: the lines of a case with their tokens.
* `ComparedLine.steps`, `comparisonSteps`, `caseSteps`: the steps for a line and for a case.
* `caseFailures`, `caseOutcome`: how many positions of a case fail, and how the case ends.
* `run_compareCase`: comparing a case does these steps and comes to this outcome.
-/

namespace ScopeCheck

variable {S α β : Type}

/-! ## One procedure after another -/

namespace Procedure

variable (tokenizer : Tokenizer S)

@[simp] theorem run_pure (result : α) :
    (pure result : Procedure S α).run tokenizer = ⟨[], result⟩ :=
  rfl

@[simp] theorem run_act (s : Step S) : (act s).run tokenizer = ⟨[s], ()⟩ :=
  rfl

@[simp] theorem run_acts (steps : List (Step S)) : (acts steps).run tokenizer = ⟨steps, ()⟩ := by
  induction steps with
  | nil => rfl
  | cons s steps ih => rw [acts, run, ih]

@[simp] theorem run_initialState :
    (initialState : Procedure S S).run tokenizer = ⟨[.call .initial], tokenizer.initial⟩ :=
  rfl

@[simp] theorem run_tokenize (line : String) (state : S) :
    (tokenize line state).run tokenizer =
      ⟨[.call (.line line state)], tokenizer.tokenize line state⟩ :=
  rfl

@[simp] theorem run_bind (first : Procedure S α) (go : α → Procedure S β) :
    (first >>= go).run tokenizer =
      ⟨(first.run tokenizer).steps ++ ((go (first.run tokenizer).result).run tokenizer).steps,
        ((go (first.run tokenizer).result).run tokenizer).result⟩ := by
  induction first with
  | done result => rfl
  | step s next ih =>
    have hstep : (step s next >>= go) = step s fun answer => next answer >>= go := rfl
    rw [hstep, run, ih, run]
    rfl

/-- A tokenizer that answers the calls of a procedure as another one does takes it through the same
steps to the same result. -/
theorem run_eq_of_answers {tokenizer other : Tokenizer S} {procedure : Procedure S α}
    (h : ∀ call ∈ Step.calls (procedure.run tokenizer).steps,
      other.answer call = tokenizer.answer call) :
    procedure.run other = procedure.run tokenizer := by
  induction procedure with
  | done result => rfl
  | step s next ih =>
    rw [run, Step.calls_cons] at h
    have hreply : other.reply s = tokenizer.reply s := by
      cases s with
      | call c => exact h c (List.mem_cons_self ..)
      | _ => rfl
    have hnext : (next (tokenizer.reply s)).run other = (next (tokenizer.reply s)).run tokenizer :=
      ih _ fun call hcall => h call (List.mem_append_right _ hcall)
    rw [run, run, hreply, hnext]

end Procedure

/-! ## The lines of a case -/

/-- The lines of a case from one on, with the state passed on from line to line. -/
def comparedLinesFrom (tokenizer : Tokenizer S) :
    Nat → S → List (String × List ScopeChain) → List (ComparedLine S)
  | _, _, [] => []
  | index, state, (line, expected) :: lines =>
    let produced := tokenizer.tokenize line state
    ⟨index, line, state, produced.tokens, expected⟩ ::
      comparedLinesFrom tokenizer (index + 1) produced.next lines

/-- The lines of a case. -/
def comparedLines (tokenizer : Tokenizer S) (case : NormalCase) : List (ComparedLine S) :=
  comparedLinesFrom tokenizer 0 tokenizer.initial (case.text.zip case.expect)

/-- The number of positions of a line that fail. -/
def ComparedLine.failures (root : String) (line : ComparedLine S) : Nat :=
  (line.positions root).countP fun p => !p.passed

/-- The steps for a position. -/
def Position.steps (case : String) (verbose : Bool) (line : ComparedLine S) (p : Position) :
    List (Step S) :=
  .count (.token p.passed) ::
    (if p.passed then if verbose then [.emit (.tokenPassed (p.report case line))] else []
    else [.emit (.tokenFailed (p.report case line))])

/-- The steps for a line. -/
def ComparedLine.steps (root case : String) (verbose : Bool) (line : ComparedLine S) :
    List (Step S) :=
  .call (.line line.text line.state) ::
    ((line.positions root).flatMap (Position.steps case verbose line) ++
      [.count (.line (line.failures root = 0))])

/-- Comparing positions does the steps for each and counts those that fail. -/
theorem run_comparePositions (tokenizer : Tokenizer S) (case : String) (verbose : Bool)
    (line : ComparedLine S) (failures : Nat) (positions : List Position) :
    (comparePositions case verbose line failures positions).run tokenizer =
      ⟨positions.flatMap (Position.steps case verbose line),
        failures + positions.countP fun p => !p.passed⟩ := by
  induction positions generalizing failures with
  | nil => rfl
  | cons p positions ih =>
    cases hp : p.passed with
    | true => cases verbose <;> simp [comparePositions, Position.steps, hp, ih]
    | false => simp [comparePositions, Position.steps, hp, ih, Nat.add_assoc, Nat.add_comm 1]

/-- Comparing lines does the steps for each and counts the positions that fail. -/
theorem run_compareLines (tokenizer : Tokenizer S) (root case : String) (verbose : Bool)
    (index : Nat) (state : S) (failures : Nat) (lines : List (String × List ScopeChain)) :
    let compared := comparedLinesFrom tokenizer index state lines
    (compareLines root case verbose index state failures lines).run tokenizer =
      ⟨compared.flatMap (ComparedLine.steps root case verbose),
        failures + (compared.map (ComparedLine.failures root)).sum⟩ := by
  induction lines generalizing index state failures with
  | nil => rfl
  | cons line lines ih =>
    obtain ⟨text, expected⟩ := line
    simp [compareLines, comparedLinesFrom, run_comparePositions, ih, ComparedLine.steps,
      ComparedLine.failures, Nat.add_assoc]

/-! ## Cases -/

/-- The number of positions of a case that fail. -/
def caseFailures (tokenizer : Tokenizer S) (root : String) (case : NormalCase) : Nat :=
  ((comparedLines tokenizer case).map (ComparedLine.failures root)).sum

/-- How a case ends. -/
def caseOutcome (tokenizer : Tokenizer S) (root : String) (case : NormalCase) : Outcome :=
  if case.text.length ≠ case.expect.length then .invalid
  else if caseFailures tokenizer root case = 0 then .passed
  else .failed

/-- The steps of comparing a case whose parts have as many lines. -/
def comparisonSteps (tokenizer : Tokenizer S) (root : String) (verbose : Bool)
    (case : NormalCase) : List (Step S) :=
  let failures := caseFailures tokenizer root case
  .call .initial ::
    ((comparedLines tokenizer case).flatMap (ComparedLine.steps root case.name verbose) ++
      [.count (.case (failures = 0)),
        .log .debug "case compared"
          [("case", case.name), ("failed_tokens", toString failures)],
        .emit (caseVerdict case.name failures)])

/-- The steps of a case. -/
def caseSteps (tokenizer : Tokenizer S) (root : String) (verbose : Bool) (case : NormalCase) :
    List (Step S) :=
  .enter caseSpan [("case", case.name)] ::
    ((if case.text.length = case.expect.length then comparisonSteps tokenizer root verbose case
      else rejectionSteps case.name (lengthMismatch case.text.length case.expect.length)) ++
      [.leave caseSpan])

/-- Comparing a case does its steps and comes to its outcome, in one pass over the lines. -/
theorem run_compareCase (tokenizer : Tokenizer S) (root : String) (verbose : Bool)
    (case : NormalCase) :
    (compareCase root verbose case).run tokenizer =
      ⟨caseSteps tokenizer root verbose case, caseOutcome tokenizer root case⟩ := by
  have hlines : (compareLines root case.name verbose 0 tokenizer.initial 0
      (case.text.zip case.expect)).run tokenizer =
        ⟨(comparedLines tokenizer case).flatMap (ComparedLine.steps root case.name verbose),
          caseFailures tokenizer root case⟩ := by
    rw [run_compareLines, Nat.zero_add]
    rfl
  by_cases h : case.text.length = case.expect.length
  · simp [compareCase, caseSteps, caseOutcome, comparisonSteps, h, hlines]
  · simp [compareCase, caseSteps, caseOutcome, h]

end ScopeCheck
