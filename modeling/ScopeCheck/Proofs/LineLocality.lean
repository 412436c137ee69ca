import ScopeCheck.Proofs.EventLog
import ScopeCheck.Tokenizer

/-!
# What a line of a case depends on

The tokens of a line depend on the text up to it, and whether they pass depends on what is expected
on that line besides.  So what is expected on other lines changes neither the events of a line nor
its result, and a case that is cut behind a line has the events of the lines that are left.

* `NormalCase.lineEvents`: the token events of one line.  `NormalCase.lineEvents_congr` says what
  they depend on, and `tokenEventsOn_tokenEvents` finds them among the events of the case.
* `Step.lineResults`: which lines steps count as passed.  `Step.lines_tally` says that the statistics
  count these, and `Engine.lineResults_ready` what they are for a case.
* `Ended.eventsOn`: the token events of chosen lines in a run, which `Engine.eventsOn_run` gives line
  by line.
* `Engine.mismatches_stay_on_their_line`: two cases with one text, and a case with its front.
-/

namespace ScopeCheck

variable {S σ : Type}

/-! ## The events of a line -/

/-- Of events, the token events on chosen lines. -/
def tokenEventsOn (chosen : Nat → Bool) (events : List Event) : List Event :=
  events.filter fun event => event.report?.any fun report => chosen report.lineIndex

theorem tokenEventsOn_append (chosen : Nat → Bool) (first second : List Event) :
    tokenEventsOn chosen (first ++ second) =
      tokenEventsOn chosen first ++ tokenEventsOn chosen second :=
  List.filter_append ..

/-- The verdict on a case is on no line. -/
theorem tokenEventsOn_caseVerdict (chosen : Nat → Bool) (case : String) (failures : Nat) :
    tokenEventsOn chosen [caseVerdict case failures] = [] := by
  rw [caseVerdict]
  split <;> rfl

namespace NormalCase

variable (case : NormalCase) (tokenizer : Tokenizer S) (root : String) (verbose : Bool)

/-- The token events of line `i`. -/
def lineEvents (i : Nat) : List Event :=
  (List.range (max (case.actual tokenizer i).length (case.wanted root i).length)).flatMap
    (case.eventsAt tokenizer root verbose i)

variable {case tokenizer root verbose}

/-- Every token event of a line bears the number of the line. -/
theorem tokenEventsOn_lineEvents (chosen : Nat → Bool) (i : Nat) :
    tokenEventsOn chosen (case.lineEvents tokenizer root verbose i) =
      if chosen i then case.lineEvents tokenizer root verbose i else [] := by
  have hline : ∀ event ∈ case.lineEvents tokenizer root verbose i,
      (event.report?.any fun report => chosen report.lineIndex) = chosen i := by
    intro event hevent
    obtain ⟨k, -, hevent⟩ := List.mem_flatMap.mp hevent
    rw [report?_of_mem_eventsAt hevent]
    rfl
  rw [tokenEventsOn]
  split
  · rename_i hchosen
    apply List.filter_eq_self.mpr
    intro event hevent
    rw [hline event hevent, hchosen]
  · rename_i hchosen
    apply List.filter_eq_nil_iff.mpr
    intro event hevent
    rwa [hline event hevent]

theorem tokenEventsOn_tokenEvents (chosen : Nat → Bool) :
    tokenEventsOn chosen (case.tokenEvents tokenizer root verbose) =
      (List.range case.text.length).flatMap fun i =>
        if chosen i then case.lineEvents tokenizer root verbose i else [] := by
  rw [tokenEvents_eq, tokenEventsOn, List.filter_flatMap]
  apply List.flatMap_congr
  intro i _
  exact tokenEventsOn_lineEvents chosen i

end NormalCase

/-! ## What a line depends on -/

/-- Texts that agree up to a line agree on it. -/
theorem getElem?_of_take_succ {α : Type} {first second : List α} {i : Nat}
    (h : first.take (i + 1) = second.take (i + 1)) : first[i]? = second[i]? := by
  rw [← List.getElem?_take_of_lt (Nat.lt_succ_self i), h,
    List.getElem?_take_of_lt (Nat.lt_succ_self i)]

theorem Tokenizer.tokensAt_congr (tokenizer : Tokenizer S) {first second : List String} {i : Nat}
    (h : first.take (i + 1) = second.take (i + 1)) :
    tokenizer.tokensAt first i = tokenizer.tokensAt second i := by
  have hbefore : first.take i = second.take i := by
    have htake := congrArg (List.take i) h
    rwa [List.take_take, List.take_take, Nat.min_eq_left (Nat.le_succ i)] at htake
  rw [tokensAt, tokensAt, getElem?_of_take_succ h, hbefore]

namespace NormalCase

variable (first second : NormalCase) {i : Nat}

/-- The chains on a line depend on the text up to it, and those expected on it on nothing else. -/
theorem chains_congr (tokenizer : Tokenizer S) (root : String)
    (htext : first.text.take (i + 1) = second.text.take (i + 1))
    (hexpect : first.expect[i]? = second.expect[i]?) :
    first.actual tokenizer i = second.actual tokenizer i ∧
      first.wanted root i = second.wanted root i := by
  constructor
  · rw [actual, actual, tokenizer.tokensAt_congr htext]
  · rw [wanted, wanted, List.getD_eq_getElem?_getD, List.getD_eq_getElem?_getD, hexpect]

/-- The events of a line depend on the text up to it and on what is expected on it. -/
theorem lineEvents_congr (tokenizer : Tokenizer S) (root : String) (verbose : Bool)
    (hname : first.name = second.name)
    (htext : first.text.take (i + 1) = second.text.take (i + 1))
    (hexpect : first.expect[i]? = second.expect[i]?) :
    first.lineEvents tokenizer root verbose i = second.lineEvents tokenizer root verbose i := by
  obtain ⟨hactual, hwanted⟩ := chains_congr first second tokenizer root htext hexpect
  have hline : first.text.getD i "" = second.text.getD i "" := by
    rw [List.getD_eq_getElem?_getD, List.getD_eq_getElem?_getD, getElem?_of_take_succ htext]
  have hreport : first.reportAt tokenizer root i = second.reportAt tokenizer root i := by
    funext k
    simp only [reportAt, hname, hline, hactual, hwanted, tokenizer.tokensAt_congr htext]
  have hevents : first.eventsAt tokenizer root verbose i =
      second.eventsAt tokenizer root verbose i := by
    funext k
    simp only [eventsAt, hactual, hwanted, hreport]
  rw [lineEvents, lineEvents, hactual, hwanted, hevents]

end NormalCase

/-! ## The results of lines -/

namespace Step

/-- The result of the line that a step counts. -/
def lineResult? : Step S → Option Bool
  | count (.line passed) => some passed
  | _ => none

/-- The results of the lines that steps count, in order. -/
def lineResults (steps : List (Step S)) : List Bool :=
  steps.filterMap lineResult?

theorem lineResults_cons (step : Step S) (steps : List (Step S)) :
    lineResults (step :: steps) = step.lineResult?.toList ++ lineResults steps := by
  rw [lineResults, List.filterMap_cons]
  cases step.lineResult? with
  | none => rfl
  | some passed => rfl

theorem lineResults_append (first second : List (Step S)) :
    lineResults (first ++ second) = lineResults first ++ lineResults second :=
  List.filterMap_append

theorem lineResults_flatMap {α : Type} (xs : List α) (steps : α → List (Step S)) :
    lineResults (xs.flatMap steps) = xs.flatMap fun x => lineResults (steps x) :=
  List.filterMap_flatMap

/-- What a step adds to the counters of lines is the result that it counts. -/
theorem lines_of_step (step : Step S) :
    let added := (step.count?.map Stats.single).getD 0
    added.passedLines = step.lineResult?.toList.count true ∧
      added.failedLines = step.lineResult?.toList.count false := by
  cases step with
  | count c =>
    cases c with
    | error => exact ⟨rfl, rfl⟩
    | token passed => cases passed <;> exact ⟨rfl, rfl⟩
    | line passed => cases passed <;> exact ⟨rfl, rfl⟩
    | case passed => cases passed <;> exact ⟨rfl, rfl⟩
  | _ => exact ⟨rfl, rfl⟩

/-- The statistics count the lines that passed, and those that failed. -/
theorem lines_tally (steps : List (Step S)) :
    (tally steps).passedLines = (lineResults steps).count true ∧
      (tally steps).failedLines = (lineResults steps).count false := by
  induction steps with
  | nil => exact ⟨rfl, rfl⟩
  | cons step steps ih =>
    obtain ⟨hpassed, hfailed⟩ := lines_of_step step
    rw [tally_cons, lineResults_cons, List.count_append, List.count_append, ← hpassed, ← hfailed,
      ← ih.1, ← ih.2, Stats.add_def]
    exact ⟨rfl, rfl⟩

end Step

/-- No position counts a line. -/
theorem Position.lineResults_steps (case : String) (verbose : Bool) (line : ComparedLine S)
    (p : Position) : Step.lineResults (p.steps case verbose line) = [] := by
  rw [Position.steps]
  cases p.passed with
  | false => rfl
  | true => cases verbose <;> rfl

/-- A line counts once, as passed when the chains of its tokens are the expected ones. -/
theorem ComparedLine.lineResults_steps (root case : String) (verbose : Bool)
    (line : ComparedLine S) :
    Step.lineResults (line.steps root case verbose) =
      [decide (line.actual = line.wanted root)] := by
  have hresult : decide (line.failures root = 0) = decide (line.actual = line.wanted root) := by
    rw [line.failures_eq, decide_eq_decide]
    exact mismatches_eq_zero_iff _ _
  rw [steps, Step.lineResults_cons, Step.lineResults_append, Step.lineResults_flatMap]
  simp only [Position.lineResults_steps, List.flatMap_eq_nil_iff.mpr fun _ _ => rfl, hresult]
  rfl

theorem lineResults_comparisonSteps (tokenizer : Tokenizer S) (root : String) (verbose : Bool)
    {case : NormalCase} (h : case.text.length = case.expect.length) :
    Step.lineResults (comparisonSteps tokenizer root verbose case) =
      (List.range case.text.length).map fun i =>
        decide (case.actual tokenizer i = case.wanted root i) := by
  rw [comparisonSteps, Step.lineResults_cons, Step.lineResults_append, Step.lineResults_flatMap,
    comparedLines_eq tokenizer h, List.flatMap_map]
  simp only [ComparedLine.lineResults_steps, ← List.map_eq_flatMap]
  exact List.append_nil _

/-! ## Runs -/

/-- The lines behind a cut have no events in front of it. -/
theorem flatMap_range_of_lt {k lines : Nat} (h : k ≤ lines) (events : Nat → List Event) :
    ((List.range lines).flatMap fun i => if decide (i < k) then events i else []) =
      (List.range k).flatMap events := by
  obtain ⟨rest, rfl⟩ := Nat.exists_eq_add_of_le h
  have hfront : ∀ i ∈ List.range k, (if decide (i < k) then events i else []) = events i := by
    intro i hi
    rw [if_pos (decide_eq_true (List.mem_range.mp hi))]
  have hbehind : ∀ i ∈ (List.range rest).map (k + ·),
      (if decide (i < k) then events i else []) = [] := by
    intro i hi
    obtain ⟨j, -, rfl⟩ := List.mem_map.mp hi
    apply if_neg
    rw [decide_eq_true_eq]
    omega
  rw [List.range_add, List.flatMap_append, List.flatMap_congr hfront,
    List.flatMap_eq_nil_iff.mpr hbehind, List.append_nil]

/-- The token events on chosen lines that a run handed over. -/
def Ended.eventsOn {α β : Type} (ended : Ended S α β) (chosen : Nat → Bool) : List Event :=
  tokenEventsOn chosen (ended.handed.map Handed.event)

namespace Engine

/-- The results of the lines that the run of a case counts, in order. -/
def lineResults (engine : Engine S σ) (case : Case) : List Bool :=
  Step.lineResults (engine.sink.carriedOut (caseSteps engine.backing engine.options case)
    engine.bench.state)

/-- A run adds the results of its lines to the statistics, whatever its sink does. -/
theorem lines_of_run (engine : Engine S σ) (case : Case) :
    (engine.run case).after.stats.passedLines =
        engine.stats.passedLines + (engine.lineResults case).count true ∧
      (engine.run case).after.stats.failedLines =
        engine.stats.failedLines + (engine.lineResults case).count false := by
  have hstats : (engine.run case).after.stats = engine.stats +
      Step.tally (engine.sink.carriedOut (caseSteps engine.backing engine.options case)
        engine.bench.state) := by
    rw [run_eq]
    exact (engine.sink.play_carriedOut _ engine.bench).1
  rw [hstats, lineResults, ← (Step.lines_tally _).1, ← (Step.lines_tally _).2]
  exact ⟨rfl, rfl⟩

section Ready

variable {sink : Sink σ} (hsink : sink.NeverPanics) (grammar : Grammar) (tokenizer : Tokenizer S)
  (options : Options) (bench : Bench σ)
include hsink

/-- The results of the lines of a case: which of them have the expected chains. -/
theorem lineResults_ready (case : Case)
    (h : case.normalize.text.length = case.normalize.expect.length) :
    lineResults ⟨.ready grammar tokenizer, options, sink, bench⟩ case =
      (List.range case.normalize.text.length).map fun i =>
        decide (case.normalize.actual tokenizer i =
          case.normalize.wanted grammar.scopeName i) := by
  rw [lineResults, hsink.carriedOut_eq]
  show Step.lineResults (_ :: _ :: (_ ++ [_])) = _
  rw [if_pos h, Step.lineResults_cons, Step.lineResults_cons, Step.lineResults_append,
    lineResults_comparisonSteps _ _ _ h]
  exact List.append_nil _

/-- The token events that a run hands over, line by line. -/
theorem eventsOn_run (case : Case)
    (h : case.normalize.text.length = case.normalize.expect.length) (chosen : Nat → Bool) :
    (run ⟨.ready grammar tokenizer, options, sink, bench⟩ case).eventsOn chosen =
      (List.range case.normalize.text.length).flatMap fun i =>
        if chosen i then
          case.normalize.lineEvents tokenizer grammar.scopeName
            (activeFor options case).logAllPassedTokens i
        else [] := by
  obtain ⟨-, -, hevents⟩ := run_of_result_ne_none
    (run_result_ne_none ⟨.ready grammar tokenizer, options, sink, bench⟩ hsink case)
  rw [Ended.eventsOn, hevents, events_caseSteps_ready, NormalCase.events, if_pos h,
    tokenEventsOn_append, tokenEventsOn_caseVerdict, List.append_nil,
    NormalCase.tokenEventsOn_tokenEvents]

variable (bench' : Bench σ) (name : String) (text : CaseText) (override : Option Override)

/-- What is expected on a line decides on its events, together with the text. -/
theorem eventsOn_line_congr {expect expect' : CaseExpect}
    (h : text.toLines.length = expect.toRows.length)
    (h' : text.toLines.length = expect'.toRows.length) {i : Nat}
    (hexpect : expect.toRows[i]? = expect'.toRows[i]?) :
    (run ⟨.ready grammar tokenizer, options, sink, bench⟩
        ⟨name, text, expect, override⟩).eventsOn (· = i) =
      (run ⟨.ready grammar tokenizer, options, sink, bench'⟩
        ⟨name, text, expect', override⟩).eventsOn (· = i) := by
  let case : Case := ⟨name, text, expect, override⟩
  let case' : Case := ⟨name, text, expect', override⟩
  have hline : case.normalize.lineEvents tokenizer grammar.scopeName
        (activeFor options case).logAllPassedTokens i =
      case'.normalize.lineEvents tokenizer grammar.scopeName
        (activeFor options case').logAllPassedTokens i :=
    NormalCase.lineEvents_congr _ _ tokenizer grammar.scopeName _ rfl rfl hexpect
  rw [eventsOn_run hsink grammar tokenizer options bench case h,
    eventsOn_run hsink grammar tokenizer options bench' case' h']
  apply List.flatMap_congr
  intro j _
  by_cases hj : j = i
  · rw [hj, hline]
  · simp [hj]

/-- What is expected on a line decides on its result, together with the text. -/
theorem lineResults_line_congr {expect expect' : CaseExpect}
    (h : text.toLines.length = expect.toRows.length)
    (h' : text.toLines.length = expect'.toRows.length) {i : Nat} (hi : i < text.toLines.length)
    (hexpect : expect.toRows[i]? = expect'.toRows[i]?) :
    ∃ passed,
      (lineResults ⟨.ready grammar tokenizer, options, sink, bench⟩
        ⟨name, text, expect, override⟩)[i]? = some passed ∧
      (lineResults ⟨.ready grammar tokenizer, options, sink, bench'⟩
        ⟨name, text, expect', override⟩)[i]? = some passed := by
  let case : Case := ⟨name, text, expect, override⟩
  let case' : Case := ⟨name, text, expect', override⟩
  have hresult : ∀ results : Nat → Bool,
      ((List.range text.toLines.length).map results)[i]? = some (results i) := by
    intro results
    rw [List.getElem?_map, List.getElem?_range hi]
    rfl
  obtain ⟨hactual, hwanted⟩ := NormalCase.chains_congr case.normalize case'.normalize
    tokenizer grammar.scopeName rfl hexpect
  rw [lineResults_ready hsink grammar tokenizer options bench case h,
    lineResults_ready hsink grammar tokenizer options bench' case' h']
  refine ⟨_, hresult _, (hresult _).trans ?_⟩
  rw [hactual, hwanted]

/-- A case that is cut behind a line has the events of the lines that are left. -/
theorem eventsOn_cut {expect : CaseExpect} (h : text.toLines.length = expect.toRows.length)
    {k : Nat} (hk : k ≤ text.toLines.length) :
    (run ⟨.ready grammar tokenizer, options, sink, bench'⟩
        ⟨name, .lines (text.toLines.take k), .rows (expect.toRows.take k), override⟩).eventsOn
          (fun _ => true) =
      (run ⟨.ready grammar tokenizer, options, sink, bench⟩
        ⟨name, text, expect, override⟩).eventsOn (· < k) := by
  let case : Case := ⟨name, text, expect, override⟩
  let cut : Case :=
    ⟨name, .lines (text.toLines.take k), .rows (expect.toRows.take k), override⟩
  have hlength : cut.normalize.text.length = k := List.length_take_of_le hk
  have hcut : cut.normalize.text.length = cut.normalize.expect.length := by
    show (text.toLines.take k).length = (expect.toRows.take k).length
    rw [List.length_take, List.length_take, h]
  have hline : ∀ i < k, cut.normalize.lineEvents tokenizer grammar.scopeName
        (activeFor options cut).logAllPassedTokens i =
      case.normalize.lineEvents tokenizer grammar.scopeName
        (activeFor options case).logAllPassedTokens i := by
    intro i hi
    apply NormalCase.lineEvents_congr _ _ tokenizer grammar.scopeName
    · rfl
    · show (text.toLines.take k).take (i + 1) = text.toLines.take (i + 1)
      rw [List.take_take, Nat.min_eq_left hi]
    · exact List.getElem?_take_of_lt hi
  rw [eventsOn_run hsink grammar tokenizer options bench' cut hcut,
    eventsOn_run hsink grammar tokenizer options bench case h, hlength]
  show _ = (List.range text.toLines.length).flatMap _
  rw [flatMap_range_of_lt hk]
  apply List.flatMap_congr
  intro i hi
  rw [if_pos rfl, hline i (List.mem_range.mp hi)]

end Ready

/-- On a line on which two cases with one text expect the same, their runs have the same token events
and count the same result, whatever they expect on other lines.  A case that is cut behind line `k`
has the token events of the lines that are left.  The results of lines are those that the statistics
count. -/
theorem mismatches_stay_on_their_line {sink : Sink σ} (hsink : sink.NeverPanics)
    (grammar : Grammar) (tokenizer : Tokenizer S) (options : Options) (bench bench' : Bench σ)
    (name : String) (text : CaseText) (override : Option Override) :
    let engine : Engine S σ := ⟨.ready grammar tokenizer, options, sink, bench⟩
    let engine' : Engine S σ := ⟨.ready grammar tokenizer, options, sink, bench'⟩
    let expecting := fun expect : CaseExpect => (⟨name, text, expect, override⟩ : Case)
    (∀ expect expect' : CaseExpect, text.toLines.length = expect.toRows.length →
        text.toLines.length = expect'.toRows.length →
      ∀ i < text.toLines.length, expect.toRows[i]? = expect'.toRows[i]? →
        (engine.run (expecting expect)).eventsOn (· = i) =
            (engine'.run (expecting expect')).eventsOn (· = i) ∧
          ∃ passed, (engine.lineResults (expecting expect))[i]? = some passed ∧
            (engine'.lineResults (expecting expect'))[i]? = some passed) ∧
    (∀ expect : CaseExpect, text.toLines.length = expect.toRows.length →
      ∀ k ≤ text.toLines.length,
        let cut : Case :=
          ⟨name, .lines (text.toLines.take k), .rows (expect.toRows.take k), override⟩
        (engine'.run cut).eventsOn (fun _ => true) =
          (engine.run (expecting expect)).eventsOn (· < k)) ∧
    ∀ case : Case,
      (engine.run case).after.stats.passedLines =
          bench.stats.passedLines + (engine.lineResults case).count true ∧
        (engine.run case).after.stats.failedLines =
          bench.stats.failedLines + (engine.lineResults case).count false := by
  intro engine engine' expecting
  refine ⟨?_, ?_, lines_of_run engine⟩
  · intro expect expect' h h' i hi hexpect
    constructor
    · exact eventsOn_line_congr hsink grammar tokenizer options bench bench' name text override h h'
        hexpect
    · exact lineResults_line_congr hsink grammar tokenizer options bench bench' name text override h
        h' hi hexpect
  · intro expect h k hk
    exact eventsOn_cut hsink grammar tokenizer options bench bench' name text override h hk

/-- A comment is open from the first line to the second, and passed tokens are reported.  What goes
wrong on the first line does not change the events of the second, nor that it passes.  Cut behind
the first line, the case has just the event of that line. -/
theorem mismatches_stay_on_their_line_open_comment :
    let text : CaseText := .compact "/* a\nb */ c"
    let right : CaseExpect := .compact "comment.block\ncomment.block|word"
    let wrong : CaseExpect := .compact "word|word\ncomment.block|word"
    let verbose : Options := { logAllPassedTokens := true }
    let engine : Engine Bool (List Event) :=
      ⟨.ready ⟨"source.c", .null⟩ (.comment "source.c"), verbose, .recording, { state := [] }⟩
    let expecting := fun expect : CaseExpect => (⟨"comment", text, expect, none⟩ : Case)
    let cut : Case := ⟨"comment", .lines ["/* a"], .rows [[["comment.block"]]], none⟩
    Sink.recording.NeverPanics ∧ text.toLines.length = right.toRows.length ∧
      text.toLines.length = wrong.toRows.length ∧ right.toRows[1]? = wrong.toRows[1]? ∧
      ((engine.run (expecting right)).eventsOn (· = 1)).length = 2 ∧
      (engine.run (expecting right)).eventsOn (· = 1) =
        (engine.run (expecting wrong)).eventsOn (· = 1) ∧
      (engine.run (expecting wrong)).result = some .failed ∧
      (∃ passed, (engine.lineResults (expecting right))[1]? = some passed ∧
        (engine.lineResults (expecting wrong))[1]? = some passed) ∧
      (engine.run cut).eventsOn (fun _ => true) =
        (engine.run (expecting right)).eventsOn (· < 1) := by
  intro text right wrong verbose engine expecting cut
  obtain ⟨hline, hcut, -⟩ := mismatches_stay_on_their_line Sink.neverPanics_recording
    ⟨"source.c", .null⟩ (.comment "source.c") verbose { state := [] } { state := [] } "comment" text
    none
  have hright : text.toLines.length = right.toRows.length := by decide
  have hwrong : text.toLines.length = wrong.toRows.length := by decide
  have hagree : right.toRows[1]? = wrong.toRows[1]? := by decide
  obtain ⟨hevents, hpassed⟩ := hline right wrong hright hwrong 1 (by decide) hagree
  exact ⟨Sink.neverPanics_recording, hright, hwrong, hagree, by decide, hevents, by decide, hpassed,
    hcut right hright 1 (by decide)⟩

end Engine

end ScopeCheck
