import ScopeCheck.Proofs.Lines
import ScopeCheck.Proofs.Steps

/-!
# What comparing a case comes to

The steps of a case are a double loop over lines and positions.  This module sums it up in the two
views of `ScopeCheck.Proofs.Steps`.

* `Position.tally_steps`, `ComparedLine.tally_steps`, `tally_comparisonSteps`: what a position, a
  line and a case add to the statistics.
* `Position.events`, `NormalCase.tokenEvents`, `events_comparisonSteps`: the events of a position
  and of a case.  `NormalCase.events` are those of a case that may also be rejected.
* `caseFailures_eq_zero_iff`: a case passes when on every line the chains of the tokens are the
  expected ones.
-/

namespace ScopeCheck

variable {S : Type}

/-! ## Positions -/

/-- The events of a position: a failure always has one, a success only when asked for. -/
def Position.events (case : String) (verbose : Bool) (line : ComparedLine S) (p : Position) :
    List Event :=
  if p.passed then if verbose then [.tokenPassed (p.report case line)] else []
  else [.tokenFailed (p.report case line)]

theorem Position.events_steps (case : String) (verbose : Bool) (line : ComparedLine S)
    (p : Position) : Step.events (p.steps case verbose line) = p.events case verbose line := by
  rw [Position.steps, Position.events]
  cases p.passed with
  | false => rfl
  | true => cases verbose <;> rfl

/-- Whatever is reported, a position counts as one token. -/
theorem Position.tally_steps (case : String) (verbose : Bool) (line : ComparedLine S)
    (p : Position) : Step.tally (p.steps case verbose line) = Stats.single (.token p.passed) := by
  rw [Position.steps, Step.tally_cons]
  cases p.passed with
  | false => rfl
  | true => cases verbose <;> rfl

/-- Whether an event reports a token that failed. -/
def Event.isTokenFailed : Event → Bool
  | tokenFailed _ => true
  | _ => false

theorem Position.countP_events (case : String) (verbose : Bool) (line : ComparedLine S)
    (p : Position) :
    (p.events case verbose line).countP Event.isTokenFailed = if p.passed then 0 else 1 := by
  rw [Position.events]
  cases p.passed with
  | false => rfl
  | true => cases verbose <;> rfl

/-- Tokens add up to their number, and to the numbers of those that passed and that failed. -/
theorem Stats.sum_single_token {α : Type} (xs : List α) (passed : α → Bool) :
    (xs.map fun x => single (.token (passed x))).sum =
      { tokens := xs.length
        passedTokens := xs.countP passed
        failedTokens := xs.countP fun x => !passed x } := by
  induction xs with
  | nil => rfl
  | cons x xs ih =>
    rw [List.map_cons, List.sum_cons, ih, List.countP_cons, List.countP_cons, List.length_cons]
    cases passed x <;> simp [single_token, add_def, Nat.add_comm]

/-! ## Lines -/

/-- The statistics of one line, of whose tokens and expectation the chains are given. -/
def lineStats (actual wanted : List (List String)) : Stats where
  lines := 1
  passedLines := if actual = wanted then 1 else 0
  failedLines := if actual = wanted then 0 else 1
  tokens := max actual.length wanted.length
  passedTokens := agreements actual wanted
  failedTokens := mismatches actual wanted

namespace ComparedLine

theorem events_steps (root case : String) (verbose : Bool) (line : ComparedLine S) :
    Step.events (line.steps root case verbose) =
      (line.positions root).flatMap (Position.events case verbose line) := by
  rw [steps, Step.events_cons, Step.events_append, Step.events_flatMap]
  simp only [Position.events_steps]
  exact List.append_nil _

theorem tally_steps (root case : String) (verbose : Bool) (line : ComparedLine S) :
    Step.tally (line.steps root case verbose) = lineStats line.actual (line.wanted root) := by
  have hlength : (line.positions root).length =
      max line.actual.length (line.wanted root).length := by
    rw [positions, List.length_map, List.length_range, actual, wanted, List.length_map,
      List.length_map]
  have hfailed : (line.positions root).countP (fun p => !p.passed) =
      mismatches line.actual (line.wanted root) := line.failures_eq root
  rw [steps, Step.tally_cons, Step.tally_append, Step.tally_flatMap]
  simp only [Position.tally_steps]
  rw [Stats.sum_single_token, hlength, countP_passed, hfailed, failures_eq, Step.tally_cons]
  simp [lineStats, mismatches_eq_zero_iff, Step.count?, Stats.single_line, Stats.add_def,
    Stats.zero_def]

/-- Of the events of a line, as many report a failed token as positions of it fail. -/
theorem countP_events (root case : String) (verbose : Bool) (line : ComparedLine S) :
    ((line.positions root).flatMap (Position.events case verbose line)).countP
      Event.isTokenFailed = line.failures root := by
  rw [failures]
  induction line.positions root with
  | nil => rfl
  | cons p positions ih =>
    rw [List.flatMap_cons, List.countP_append, ih, Position.countP_events, List.countP_cons]
    cases p.passed <;> simp [Nat.add_comm]

end ComparedLine

/-- Lines add up counter by counter. -/
theorem sum_lineStats {α : Type} (xs : List α) (actual wanted : α → List (List String)) :
    (xs.map fun x => lineStats (actual x) (wanted x)).sum =
      { lines := xs.length
        passedLines := xs.countP fun x => actual x = wanted x
        failedLines := xs.countP fun x => actual x ≠ wanted x
        tokens := (xs.map fun x => max (actual x).length (wanted x).length).sum
        passedTokens := (xs.map fun x => agreements (actual x) (wanted x)).sum
        failedTokens := (xs.map fun x => mismatches (actual x) (wanted x)).sum } := by
  induction xs with
  | nil => rfl
  | cons x xs ih =>
    rw [List.map_cons, List.sum_cons, ih]
    by_cases h : actual x = wanted x <;>
      simp [lineStats, h, Stats.add_def, Nat.add_comm]

/-! ## Cases -/

section Cases

variable (tokenizer : Tokenizer S) (root : String) {case : NormalCase}

/-- The failures of a case, from the chains on its lines. -/
theorem caseFailures_eq (h : case.text.length = case.expect.length) :
    caseFailures tokenizer root case =
      ((List.range case.text.length).map fun i =>
        mismatches (case.actual tokenizer i) (case.wanted root i)).sum := by
  rw [caseFailures, comparedLines_eq tokenizer h, List.map_map]
  refine congrArg List.sum (List.map_congr_left fun i _ => ?_)
  exact ComparedLine.failures_eq root _

/-- A case has no failure exactly when the chains on all its lines are the expected ones. -/
theorem caseFailures_eq_zero_iff (h : case.text.length = case.expect.length) :
    caseFailures tokenizer root case = 0 ↔
      ∀ i < case.text.length, case.actual tokenizer i = case.wanted root i := by
  rw [caseFailures_eq tokenizer root h, List.sum_eq_zero_iff_forall_eq_nat]
  constructor
  · intro hzero i hi
    rw [← mismatches_eq_zero_iff]
    exact hzero _ (List.mem_map.mpr ⟨i, List.mem_range.mpr hi, rfl⟩)
  · intro heq n hn
    obtain ⟨i, hi, rfl⟩ := List.mem_map.mp hn
    exact (mismatches_eq_zero_iff _ _).mpr (heq i (List.mem_range.mp hi))

/-- What comparing a case adds to the statistics. -/
theorem tally_comparisonSteps (verbose : Bool) (h : case.text.length = case.expect.length) :
    Step.tally (comparisonSteps tokenizer root verbose case) =
      Stats.single (.case (caseFailures tokenizer root case = 0)) +
        ((List.range case.text.length).map fun i =>
          lineStats (case.actual tokenizer i) (case.wanted root i)).sum := by
  have hlines : Step.tally ((comparedLines tokenizer case).flatMap
      (ComparedLine.steps root case.name verbose)) =
        ((List.range case.text.length).map fun i =>
          lineStats (case.actual tokenizer i) (case.wanted root i)).sum := by
    rw [comparedLines_eq tokenizer h, Step.tally_flatMap, List.map_map]
    refine congrArg List.sum (List.map_congr_left fun i _ => ?_)
    exact ComparedLine.tally_steps root case.name verbose _
  rw [comparisonSteps, Step.tally_cons, Step.tally_append, hlines, Step.tally_cons]
  exact (zero_add _).trans (add_comm _ _)

/-- The token events of a case, line by line and position by position. -/
def NormalCase.tokenEvents (case : NormalCase) (tokenizer : Tokenizer S) (root : String)
    (verbose : Bool) : List Event :=
  (List.range case.text.length).flatMap fun i =>
    ((case.compared tokenizer i).positions root).flatMap
      (Position.events case.name verbose (case.compared tokenizer i))

/-- The events of comparing a case: those of its tokens, and the verdict. -/
theorem events_comparisonSteps (verbose : Bool) (h : case.text.length = case.expect.length) :
    Step.events (comparisonSteps tokenizer root verbose case) =
      case.tokenEvents tokenizer root verbose ++
        [caseVerdict case.name (caseFailures tokenizer root case)] := by
  rw [comparisonSteps, Step.events_cons, Step.events_append, Step.events_flatMap,
    comparedLines_eq tokenizer h, List.flatMap_map]
  simp only [ComparedLine.events_steps]
  rfl

/-- The events of a case: those of its tokens and the verdict, or the one that rejects it. -/
def NormalCase.events (case : NormalCase) (tokenizer : Tokenizer S) (root : String)
    (verbose : Bool) : List Event :=
  if case.text.length = case.expect.length then
    case.tokenEvents tokenizer root verbose ++
      [caseVerdict case.name (caseFailures tokenizer root case)]
  else [.invalid case.name (lengthMismatch case.text.length case.expect.length)]

/-- Of the token events of a case, as many report a failed token as the case has failures. -/
theorem countP_tokenEvents (verbose : Bool) (h : case.text.length = case.expect.length) :
    (case.tokenEvents tokenizer root verbose).countP Event.isTokenFailed =
      caseFailures tokenizer root case := by
  rw [NormalCase.tokenEvents, List.countP_flatMap, caseFailures, comparedLines_eq tokenizer h,
    List.map_map]
  refine congrArg List.sum (List.map_congr_left fun i _ => ?_)
  exact ComparedLine.countP_events root case.name verbose _

end Cases

end ScopeCheck
