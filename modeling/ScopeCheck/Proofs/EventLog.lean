import Mathlib.Data.List.Forall2
import ScopeCheck.Proofs.Running

/-!
# The log of a run

The events of a run, said without the loops that produce them.  Each case has one block of events.
A block holds one event for every failing position and, on request, one for every passing position,
in the order of lines and positions, and the verdict after them.

* `NormalCase.reportAt`: the report on position `k` of line `i`.
* `TokenLog`: what the token events of a case are, and in which order.
* `CaseBlock`: what the events of a case are.
* `Engine.executeAll_recorded_events`: a recording of a whole run is one block for each case and the
  statistics after them.
-/

namespace ScopeCheck

variable {S : Type}

/-! ## Token events -/

/-- The report on position `k` of line `i` of a case.  A side that has nothing there is absent. -/
def NormalCase.reportAt (case : NormalCase) (tokenizer : Tokenizer S) (root : String)
    (i k : Nat) : TokenReport where
  case := case.name
  lineIndex := i
  tokenIndex := k
  line := case.text.getD i ""
  span := (tokenizer.tokensAt case.text i)[k]?.map fun token => ⟨token.start, token.stop⟩
  expected := (case.wanted root i)[k]?
  actual := (case.actual tokenizer i)[k]?

/-- The report of a token event. -/
def Event.report? : Event → Option TokenReport
  | tokenFailed report => some report
  | tokenPassed report => some report
  | _ => none

/-- Both events are token events, and the position of the first comes before that of the second. -/
def Event.Precedes (first second : Event) : Prop :=
  ∃ r s, first.report? = some r ∧ second.report? = some s ∧
    (r.lineIndex < s.lineIndex ∨ r.lineIndex = s.lineIndex ∧ r.tokenIndex < s.tokenIndex)

/-- The token events of a case.  Each position has at most one event, because positions strictly
increase along the list. -/
structure TokenLog (tokenizer : Tokenizer S) (root : String) (verbose : Bool) (case : NormalCase)
    (events : List Event) : Prop where
  only : ∀ event ∈ events, event.report?.isSome
  ordered : events.Pairwise Event.Precedes
  failed : ∀ report, .tokenFailed report ∈ events ↔
    ∃ i < case.text.length,
      ∃ k < max (case.actual tokenizer i).length (case.wanted root i).length,
        (case.actual tokenizer i)[k]? ≠ (case.wanted root i)[k]? ∧
          report = case.reportAt tokenizer root i k
  passed : ∀ report, .tokenPassed report ∈ events ↔
    verbose = true ∧ ∃ i < case.text.length,
      ∃ k < max (case.actual tokenizer i).length (case.wanted root i).length,
        (case.actual tokenizer i)[k]? = (case.wanted root i)[k]? ∧
          report = case.reportAt tokenizer root i k

/-- The events of a case. -/
inductive CaseBlock (tokenizer : Tokenizer S) (root : String) (verbose : Bool)
    (case : NormalCase) : List Event → Prop where
  | invalid (h : case.text.length ≠ case.expect.length) :
      CaseBlock tokenizer root verbose case
        [.invalid case.name (lengthMismatch case.text.length case.expect.length)]
  | passed {events : List Event} (h : case.text.length = case.expect.length)
      (hlog : TokenLog tokenizer root verbose case events)
      (hnone : events.countP Event.isTokenFailed = 0) :
      CaseBlock tokenizer root verbose case (events ++ [.casePassed case.name])
  | failed {events : List Event} (h : case.text.length = case.expect.length)
      (hlog : TokenLog tokenizer root verbose case events)
      (hsome : 0 < events.countP Event.isTokenFailed) :
      CaseBlock tokenizer root verbose case
        (events ++ [.caseFailed case.name (events.countP Event.isTokenFailed)])

section Events

variable (tokenizer : Tokenizer S) (root : String) (verbose : Bool) (case : NormalCase)

/-- The events of position `k` of line `i`. -/
def NormalCase.eventsAt (i k : Nat) : List Event :=
  if (case.actual tokenizer i)[k]? = (case.wanted root i)[k]? then
    if verbose then [.tokenPassed (case.reportAt tokenizer root i k)] else []
  else [.tokenFailed (case.reportAt tokenizer root i k)]

theorem tokenEvents_eq :
    case.tokenEvents tokenizer root verbose =
      (List.range case.text.length).flatMap fun i =>
        (List.range (max (case.actual tokenizer i).length (case.wanted root i).length)).flatMap
          (case.eventsAt tokenizer root verbose i) := by
  rw [NormalCase.tokenEvents]
  refine List.flatMap_congr fun i _ => ?_
  rw [ComparedLine.positions, List.flatMap_map, NormalCase.actual, NormalCase.wanted,
    List.length_map, List.length_map]
  refine List.flatMap_congr fun k hk => ?_
  have hpassed := Position.passed_eq root (tokenizer.tokensAt case.text i)
    (case.expect.getD i []) (List.mem_range.mp hk)
  have hreport : Position.report case.name (case.compared tokenizer i)
      ⟨k, (tokenizer.tokensAt case.text i)[k]?, (case.expect.getD i [])[k]?.map (root :: ·)⟩ =
        case.reportAt tokenizer root i k := by
    simp [Position.report, NormalCase.reportAt, NormalCase.compared, NormalCase.wanted,
      NormalCase.actual]
  simp only [NormalCase.compared] at hreport ⊢
  rw [Position.events, hpassed, hreport, NormalCase.eventsAt, NormalCase.actual,
    NormalCase.wanted]
  simp only [decide_eq_true_eq]

variable {tokenizer root verbose case}

theorem report?_of_mem_eventsAt {i k : Nat} {event : Event}
    (h : event ∈ case.eventsAt tokenizer root verbose i k) :
    event.report? = some (case.reportAt tokenizer root i k) := by
  rw [NormalCase.eventsAt] at h
  split at h
  · cases verbose with
    | false => cases h
    | true =>
      rw [List.mem_singleton.mp h]
      rfl
  · rw [List.mem_singleton.mp h]
    rfl

theorem tokenFailed_mem_eventsAt {i k : Nat} {report : TokenReport} :
    .tokenFailed report ∈ case.eventsAt tokenizer root verbose i k ↔
      (case.actual tokenizer i)[k]? ≠ (case.wanted root i)[k]? ∧
        report = case.reportAt tokenizer root i k := by
  rw [NormalCase.eventsAt]
  split
  · cases verbose <;> simp [*]
  · simp [*]

theorem tokenPassed_mem_eventsAt {i k : Nat} {report : TokenReport} :
    .tokenPassed report ∈ case.eventsAt tokenizer root verbose i k ↔
      verbose = true ∧ (case.actual tokenizer i)[k]? = (case.wanted root i)[k]? ∧
        report = case.reportAt tokenizer root i k := by
  rw [NormalCase.eventsAt]
  split
  · cases verbose <;> simp [*]
  · simp [*]

/-- The events of one position hold at most one, so they are in order. -/
theorem eventsAt_pairwise (i k : Nat) :
    (case.eventsAt tokenizer root verbose i k).Pairwise Event.Precedes := by
  rw [NormalCase.eventsAt]
  split
  · cases verbose <;> simp
  · simp

theorem tokenEvents_pairwise :
    (case.tokenEvents tokenizer root verbose).Pairwise Event.Precedes := by
  rw [tokenEvents_eq, List.pairwise_flatMap]
  refine ⟨fun i _ => ?_, ?_⟩
  · rw [List.pairwise_flatMap]
    refine ⟨fun k _ => eventsAt_pairwise i k, List.pairwise_lt_range.imp fun hk => ?_⟩
    intro first hfirst second hsecond
    exact ⟨_, _, report?_of_mem_eventsAt hfirst, report?_of_mem_eventsAt hsecond,
      Or.inr ⟨rfl, hk⟩⟩
  · refine List.pairwise_lt_range.imp fun hi => ?_
    intro first hfirst second hsecond
    obtain ⟨k, -, hfirst⟩ := List.mem_flatMap.mp hfirst
    obtain ⟨l, -, hsecond⟩ := List.mem_flatMap.mp hsecond
    exact ⟨_, _, report?_of_mem_eventsAt hfirst, report?_of_mem_eventsAt hsecond, Or.inl hi⟩

theorem mem_tokenEvents {event : Event} :
    event ∈ case.tokenEvents tokenizer root verbose ↔
      ∃ i < case.text.length,
        ∃ k < max (case.actual tokenizer i).length (case.wanted root i).length,
          event ∈ case.eventsAt tokenizer root verbose i k := by
  rw [tokenEvents_eq]
  simp only [List.mem_flatMap, List.mem_range]

/-- The token events that the comparison of a case hands over are its token log. -/
theorem tokenLog_tokenEvents :
    TokenLog tokenizer root verbose case (case.tokenEvents tokenizer root verbose) where
  only event h := by
    obtain ⟨i, -, k, -, h⟩ := mem_tokenEvents.mp h
    rw [report?_of_mem_eventsAt h]
    rfl
  ordered := tokenEvents_pairwise
  failed report := by
    rw [mem_tokenEvents]
    simp only [tokenFailed_mem_eventsAt]
  passed report := by
    rw [mem_tokenEvents]
    simp only [tokenPassed_mem_eventsAt]
    constructor
    · rintro ⟨i, hi, k, hk, hverbose, h⟩
      exact ⟨hverbose, i, hi, k, hk, h⟩
    · rintro ⟨hverbose, i, hi, k, hk, h⟩
      exact ⟨i, hi, k, hk, hverbose, h⟩

end Events

/-! ## Blocks -/

namespace Engine

/-- The events of a case on an engine that has its grammar. -/
theorem caseBlock_caseSteps (grammar : Grammar) (tokenizer : Tokenizer S) (options : Options)
    (case : Case) :
    CaseBlock tokenizer grammar.scopeName (activeFor options case).logAllPassedTokens
      case.normalize (Step.events (caseSteps (.ready grammar tokenizer) options case)) := by
  rw [events_caseSteps_ready, NormalCase.events]
  by_cases h : case.normalize.text.length = case.normalize.expect.length
  · have hcount := countP_tokenEvents tokenizer grammar.scopeName
      (activeFor options case).logAllPassedTokens h
    rw [if_pos h, caseVerdict, ← hcount]
    split
    · rename_i hzero
      exact .passed h tokenLog_tokenEvents hzero
    · rename_i hpos
      exact .failed h tokenLog_tokenEvents (Nat.pos_of_ne_zero hpos)
  · rw [if_neg h]
    exact .invalid h

/-- The recording of a whole run: after the events recorded before, one block for each case in
order, and one event with the statistics of the report. -/
theorem executeAll_recorded_events (grammar : Grammar) (tokenizer : Tokenizer S)
    (options : Options) (bench : Bench (List Event)) (cases : List Case) :
    let engine : Engine S (List Event) := ⟨.ready grammar tokenizer, options, .recording, bench⟩
    ∃ report blocks, (engine.executeAll cases).result = some report ∧
      (engine.executeAll cases).after =
        bench.state ++ blocks.flatten ++ [.stats report.stats] ∧
      List.Forall₂
        (fun case block =>
          CaseBlock tokenizer grammar.scopeName
            ((case.options.bind Override.logAllPassedTokens).getD options.logAllPassedTokens)
            case.normalize block)
        cases blocks := by
  intro engine
  obtain ⟨hresult, hevents⟩ :=
    executeAll_of_neverPanics engine Sink.neverPanics_recording cases
  refine ⟨_, caseBlocks engine.backing engine.options cases, hresult, ?_, ?_⟩
  · rw [executeAll_recording rfl, hevents, ← List.append_assoc]
    rfl
  · rw [caseBlocks, List.forall₂_map_right_iff, List.forall₂_same]
    intro case _
    rw [← activeFor_logAllPassedTokens]
    exact caseBlock_caseSteps grammar tokenizer options case

end Engine

end ScopeCheck
