import ScopeCheck.Proofs.EventLog
import ScopeCheck.Proofs.Moments
import ScopeCheck.Proofs.Verdict

/-!
# Counters and events agree

Failing tokens, cases and errors are counted right before their events are handed over.  Passing
tokens and lines are counted without an event that stands for them.  So whenever the sink is called,
and wherever it cuts a run off, the counters and the events agree.

* `Moment.Agrees`: the counters add up, and are the numbers of the events they stand for.
* `Engine.keeps_caseSteps`, `Engine.keeps_loadSteps`: cases and loading keep the agreement.
* `Engine.cases_counted_once`, `History.counted_once`: while the sink has not broken down, every
  case is counted once.
* `History.agreement`: the agreement at every moment of every history.
-/

namespace ScopeCheck

variable {S σ : Type}

/-! ## Agreement -/

namespace Event

def isCaseFailed : Event → Bool
  | caseFailed _ _ => true
  | _ => false

def isCasePassed : Event → Bool
  | casePassed _ => true
  | _ => false

def isInvalid : Event → Bool
  | invalid _ _ => true
  | _ => false

/-- What is counted right before an event is handed over. -/
def count? : Event → Option Count
  | invalid _ _ => some .error
  | tokenFailed _ => some (.token false)
  | caseFailed _ _ => some (.case false)
  | casePassed _ => some (.case true)
  | tokenPassed _ => none
  | stats _ => none

end Event

namespace Moment

/-- The counters add up, and each is the number of the events that it stands for. -/
structure Agrees (moment : Moment) : Prop where
  tokens : moment.stats.passedTokens + moment.stats.failedTokens = moment.stats.tokens
  lines : moment.stats.passedLines + moment.stats.failedLines = moment.stats.lines
  cases : moment.stats.passedCases + moment.stats.failedCases = moment.stats.cases
  tokenFailed : moment.events.countP Event.isTokenFailed = moment.stats.failedTokens
  caseFailed : moment.events.countP Event.isCaseFailed = moment.stats.failedCases
  casePassed : moment.events.countP Event.isCasePassed = moment.stats.passedCases
  invalid : moment.events.countP Event.isInvalid = moment.stats.errors

namespace Agrees

variable {moment : Moment}

/-- Counting a thing and handing over its event. -/
theorem announced (h : moment.Agrees) (event : Event) {count : Count}
    (hcount : event.count? = some count) :
    Agrees ⟨moment.stats.add count, moment.events ++ [event]⟩ := by
  obtain ⟨htokens, hlines, hcases, htokenFailed, hcaseFailed, hcasePassed, hinvalid⟩ := h
  cases event with
  | tokenPassed report => cases hcount
  | stats stats => cases hcount
  | _ =>
    cases hcount
    constructor <;>
      simp [Stats.add, Event.isTokenFailed, Event.isCaseFailed, Event.isCasePassed,
        Event.isInvalid, *] <;>
      omega

/-- Counting a token that passes. -/
theorem count_token (h : moment.Agrees) :
    Agrees { moment with stats := moment.stats.add (.token true) } := by
  have htokens := h.tokens
  refine ⟨?_, h.lines, h.cases, h.tokenFailed, h.caseFailed, h.casePassed, h.invalid⟩
  simp only [Stats.add]
  omega

/-- Counting a line. -/
theorem count_line (h : moment.Agrees) (passed : Bool) :
    Agrees { moment with stats := moment.stats.add (.line passed) } := by
  have hlines := h.lines
  cases passed with
  | false =>
    refine ⟨h.tokens, ?_, h.cases, h.tokenFailed, h.caseFailed, h.casePassed, h.invalid⟩
    simp only [Stats.add]
    omega
  | true =>
    refine ⟨h.tokens, ?_, h.cases, h.tokenFailed, h.caseFailed, h.casePassed, h.invalid⟩
    simp only [Stats.add]
    omega

/-- Handing over a token that passes. -/
theorem emit_tokenPassed (h : moment.Agrees) (report : TokenReport) :
    Agrees { moment with events := moment.events ++ [.tokenPassed report] } where
  tokens := h.tokens
  lines := h.lines
  cases := h.cases
  tokenFailed := by rw [List.countP_append, h.tokenFailed]; rfl
  caseFailed := by rw [List.countP_append, h.caseFailed]; rfl
  casePassed := by rw [List.countP_append, h.casePassed]; rfl
  invalid := by rw [List.countP_append, h.invalid]; rfl

end Agrees

end Moment

/-! ## Steps keep the agreement -/

open Moment (Agrees)

theorem keeps_rejectionSteps (subject reason : String) :
    Keeps Agrees (rejectionSteps (S := S) subject reason) := by
  intro moment h
  have hinvalid := h.announced (.invalid subject reason) rfl
  exact ⟨.cons_count (.emit hinvalid), hinvalid⟩

theorem keeps_positionSteps (case : String) (verbose : Bool) (line : ComparedLine S)
    (p : Position) : Keeps Agrees (p.steps case verbose line) := by
  intro moment h
  rw [Position.steps]
  cases p.passed with
  | false =>
    have hfailed := h.announced (.tokenFailed (p.report case line)) rfl
    exact ⟨.cons_count (.emit hfailed), hfailed⟩
  | true =>
    have hpassed := h.count_token
    cases verbose with
    | false => exact ⟨.cons_count trivial, hpassed⟩
    | true =>
      have hreported := hpassed.emit_tokenPassed (p.report case line)
      exact ⟨.cons_count (.emit hreported), hreported⟩

theorem keeps_lineSteps (root case : String) (verbose : Bool) (line : ComparedLine S) :
    Keeps Agrees (line.steps root case verbose) := by
  refine Keeps.cons_quiet rfl rfl (Keeps.append (Keeps.flatMap fun p _ => ?_) ?_)
  · exact keeps_positionSteps case verbose line p
  · intro moment h
    exact ⟨.cons_count trivial, h.count_line _⟩

theorem count?_caseVerdict (case : String) (failures : Nat) :
    (caseVerdict case failures).count? = some (.case (failures = 0)) := by
  rw [caseVerdict]
  split <;> simp [Event.count?, *]

theorem keeps_comparisonSteps (tokenizer : Tokenizer S) (root : String) (verbose : Bool)
    (case : NormalCase) : Keeps Agrees (comparisonSteps tokenizer root verbose case) := by
  refine Keeps.cons_quiet rfl rfl (Keeps.append (Keeps.flatMap fun line _ => ?_) ?_)
  · exact keeps_lineSteps root case.name verbose line
  · intro moment h
    have hverdict := h.announced _ (count?_caseVerdict case.name (caseFailures tokenizer root case))
    exact ⟨.cons_count (.cons_log (.emit hverdict)), hverdict⟩

namespace Engine

theorem keeps_caseSteps (backing : Backing S) (options : Options) (case : Case) :
    Keeps Agrees (caseSteps backing options case) := by
  refine Keeps.cons_quiet rfl rfl ?_
  cases backing with
  | ready grammar tokenizer =>
    refine Keeps.cons_quiet rfl rfl (Keeps.append ?_ (Keeps.cons_quiet rfl rfl Keeps.nil))
    split
    · exact keeps_comparisonSteps _ _ _ _
    · exact keeps_rejectionSteps _ _
  | failed source error => exact keeps_rejectionSteps _ _

theorem keeps_loadSteps (backing : Backing S) : Keeps Agrees (loadSteps backing) := by
  cases backing with
  | ready grammar tokenizer => exact Keeps.cons_quiet rfl rfl Keeps.nil
  | failed source error => exact keeps_rejectionSteps _ _

end Engine

/-! ## Runs that the sink never cuts off -/

/-- The failures that a case announces with its verdict. -/
def Event.failedTokens : Event → Nat
  | caseFailed _ failedTokens => failedTokens
  | _ => 0

theorem failedTokens_caseVerdict (case : String) (failures : Nat) :
    (caseVerdict case failures).failedTokens = failures := by
  rw [caseVerdict]
  split
  · rename_i hzero
    exact hzero.symm
  · rfl

theorem sum_failedTokens_tokenEvents (tokenizer : Tokenizer S) (root : String) (verbose : Bool)
    (case : NormalCase) :
    ((case.tokenEvents tokenizer root verbose).map Event.failedTokens).sum = 0 := by
  rw [List.sum_eq_zero_iff_forall_eq_nat]
  intro n hn
  obtain ⟨event, hevent, rfl⟩ := List.mem_map.mp hn
  have hsome := tokenLog_tokenEvents.only event hevent
  cases event with
  | caseFailed case failedTokens => cases hsome
  | _ => rfl

namespace Engine

/-- What a case adds to the statistics, compared with its events: it is counted once, and its
verdict announces its failed tokens. -/
theorem caseSteps_counted_once (backing : Backing S) (options : Options) (case : Case) :
    let steps := caseSteps backing options case
    (Step.tally steps).cases + (Step.tally steps).errors = 1 ∧
      ((Step.events steps).map Event.failedTokens).sum = (Step.tally steps).failedTokens := by
  cases backing with
  | failed source error => exact ⟨rfl, rfl⟩
  | ready grammar tokenizer =>
    intro steps
    rw [events_caseSteps_ready, tally_caseSteps_ready, NormalCase.events, NormalCase.stats]
    by_cases h : case.normalize.text.length = case.normalize.expect.length
    · rw [if_pos h, if_neg (not_not.mpr h), List.map_append, List.sum_append,
        sum_failedTokens_tokenEvents, List.map_singleton, List.sum_singleton,
        failedTokens_caseVerdict, caseFailures_eq _ _ h]
      exact ⟨rfl, Nat.zero_add _⟩
    · rw [if_neg h, if_pos h]
      exact ⟨rfl, rfl⟩

theorem cases_counted_once (backing : Backing S) (options : Options) (cases : List Case) :
    (casesTally backing options cases).cases + (casesTally backing options cases).errors =
        cases.length ∧
      ((caseBlocks backing options cases).flatten.map Event.failedTokens).sum =
        (casesTally backing options cases).failedTokens := by
  induction cases with
  | nil => exact ⟨rfl, rfl⟩
  | cons case cases ih =>
    obtain ⟨hcounted, hannounced⟩ := caseSteps_counted_once backing options case
    obtain ⟨hcounteds, hannounceds⟩ := ih
    have htally : casesTally backing options (case :: cases) =
        Step.tally (caseSteps backing options case) + casesTally backing options cases :=
      List.sum_cons
    have hblocks : (caseBlocks backing options (case :: cases)).flatten =
        Step.events (caseSteps backing options case) ++
          (caseBlocks backing options cases).flatten :=
      List.flatten_cons
    rw [htally, hblocks, List.map_append, List.sum_append, hannounced, hannounceds, Stats.add_def,
      List.length_cons]
    refine ⟨?_, rfl⟩
    show _ + _ + (_ + _) = _
    omega

/-- A failed load counts once. -/
theorem loadSteps_counted_once (engine : Engine S σ) :
    let steps := loadSteps engine.backing
    (Step.tally steps).cases + (Step.tally steps).errors =
        (if engine.loadError?.isSome then 1 else 0) ∧
      ((Step.events steps).map Event.failedTokens).sum = (Step.tally steps).failedTokens := by
  rw [loadError?]
  cases engine.backing with
  | ready grammar tokenizer => exact ⟨rfl, rfl⟩
  | failed source error => exact ⟨rfl, rfl⟩

end Engine

namespace History

section Unbroken

variable (setup : Setup S) (options : Options) (sink : Sink σ) (state : σ) (cases : List Case)
  (h : ∀ handed ∈ (of setup options sink state cases).handed, handed.fate ≠ .panicked)

include h

/-- As long as the sink has not broken down, the counters and events are those of loading and of
all cases. -/
theorem stats_and_events_of_unbroken :
    let history := of setup options sink state cases
    let engine := history.started.after
    history.engine.stats = Step.tally (Engine.loadSteps engine.backing) +
        Engine.casesTally engine.backing engine.options cases ∧
      history.events = Step.events (Engine.loadSteps engine.backing) ++
        (Engine.caseBlocks engine.backing engine.options cases).flatten := by
  intro history engine
  rw [handed, List.forall_mem_append] at h
  have hstarted : history.started.result ≠ none := by
    intro hnone
    obtain ⟨handed, hmem, hfate⟩ :=
      (setup.start_result_eq_none_iff options sink state).mp hnone
    exact h.1 handed hmem hfate
  obtain ⟨-, hstart, hload⟩ := setup.start_of_result_ne_none options sink state hstarted
  obtain ⟨hruns, hblocks⟩ := Engine.runs_unbroken _ _ h.2
  constructor
  · exact hruns.trans (congrArg (· + _) hstart)
  · rw [events, handed, List.map_append]
    exact congrArg₂ _ hload hblocks

/-- Then every case is counted once, so is a load that failed, and the verdicts announce all failed
tokens. -/
theorem counted_once :
    let history := of setup options sink state cases
    history.engine.stats.cases + history.engine.stats.errors =
        cases.length + (if history.started.after.loadError?.isSome then 1 else 0) ∧
      (history.events.map Event.failedTokens).sum = history.engine.stats.failedTokens := by
  intro history
  obtain ⟨hstats, hevents⟩ : history.engine.stats =
        Step.tally (Engine.loadSteps history.started.after.backing) +
          Engine.casesTally history.started.after.backing history.started.after.options cases ∧
      history.events = Step.events (Engine.loadSteps history.started.after.backing) ++
        (Engine.caseBlocks history.started.after.backing history.started.after.options
          cases).flatten :=
    stats_and_events_of_unbroken setup options sink state cases h
  obtain ⟨hloaded, hloadFailures⟩ := Engine.loadSteps_counted_once history.started.after
  obtain ⟨hcounted, hfailures⟩ := Engine.cases_counted_once history.started.after.backing
    history.started.after.options cases
  rw [hevents, hstats, List.map_append, List.sum_append, hloadFailures, hfailures, Stats.add_def]
  refine ⟨?_, rfl⟩
  show _ + _ + (_ + _) = _
  omega

end Unbroken

/-- The agreement of counters and events, for every way to make an engine, every sink and every
sequence of cases, also when the sink refuses events and breaks down. -/
theorem agreement (setup : Setup S) (options : Options) (sink : Sink σ) (state : σ)
    (cases : List Case) :
    let history := of setup options sink state cases
    (∀ moment ∈ history.moments, moment.Agrees) ∧
      history.moments.Pairwise (fun earlier later => earlier.stats ≤ later.stats) ∧
      ∀ k ≤ cases.length,
        let past := history.upTo k
        (∀ handed ∈ past.handed, handed.fate ≠ .panicked) →
          past.engine.stats.cases + past.engine.stats.errors =
              k + (if past.started.after.loadError?.isSome then 1 else 0) ∧
            (past.events.map Event.failedTokens).sum = past.engine.stats.failedTokens := by
  intro history
  refine ⟨?_, moments_pairwise setup options sink state cases, ?_⟩
  · have hempty : Moment.Agrees ⟨{}, []⟩ := ⟨rfl, rfl, rfl, rfl, rfl, rfl, rfl⟩
    exact moments_of_keeps setup options sink state cases hempty Engine.keeps_loadSteps
      Engine.keeps_caseSteps
  · intro k hk past hunbroken
    have hpast : past = of setup options sink state (cases.take k) :=
      upTo_of setup options sink state cases k
    have hlength : (cases.take k).length = k := by
      rw [List.length_take]
      omega
    rw [hpast] at hunbroken ⊢
    obtain ⟨hcounted, hfailures⟩ := counted_once setup options sink state (cases.take k) hunbroken
    rw [hlength] at hcounted
    exact ⟨hcounted, hfailures⟩

/-- A gate that breaks down at the first failing token of both cases.  Neither their lines nor the
cases themselves get counted, and the counters still agree with the events. -/
theorem agreement_broken_gate :
    let case : Case := ⟨"word", .compact "a b c", .compact "word|number|word", none⟩
    let history := of (.ready ⟨"source.c", .null⟩ (.comment "source.c")) {}
      (Sink.behind { panicOn := ["token_failed"] } .recording) (0, []) [case, case]
    history.engine.stats = { tokens := 4, passedTokens := 2, failedTokens := 2 } ∧
      history.events.length = 2 ∧ ∀ moment ∈ history.moments, moment.Agrees := by
  intro case history
  refine ⟨by decide, by decide, ?_⟩
  exact (agreement (.ready ⟨"source.c", .null⟩ (.comment "source.c")) {}
    (Sink.behind { panicOn := ["token_failed"] } .recording) (0, []) [case, case]).1

end History

end ScopeCheck
