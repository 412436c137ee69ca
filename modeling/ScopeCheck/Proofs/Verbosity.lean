import ScopeCheck.Proofs.Independence
import ScopeCheck.Proofs.SinkIndependence
import ScopeCheck.Proofs.Verdict

/-!
# Options change what is logged of passes

Of the options, a run of cases reads one: whether passed tokens are reported.  It adds events and
changes nothing else.  The exit policy is read once, when the engine finishes.

* `Event.withoutPassed`: what is left of a log without its passed tokens.
* `NormalCase.withoutPassed_events`: a verbose block and a quiet block of one case.
* `Engine.withoutPassed_caseBlocks`: the same for all cases of a run.
* `Engine.quiet_block_of_runs`: a quiet block among the runs of two engines.
* `Engine.options_change_only_passes`: two runs of the same cases under any options.
-/

namespace ScopeCheck

variable {S σ τ : Type}

/-! ## Logs without passed tokens -/

namespace Event

def isTokenPassed : Event → Bool
  | tokenPassed _ => true
  | _ => false

/-- Events without those that report a passed token. -/
def withoutPassed (events : List Event) : List Event :=
  events.filter fun event => !event.isTokenPassed

theorem withoutPassed_append (first second : List Event) :
    withoutPassed (first ++ second) = withoutPassed first ++ withoutPassed second :=
  List.filter_append _ _

end Event

open Event (withoutPassed withoutPassed_append)

/-- Quiet positions report what verbose ones do, save the passed tokens. -/
theorem Position.withoutPassed_events (case : String) (verbose : Bool) (line : ComparedLine S)
    (p : Position) : withoutPassed (p.events case verbose line) = p.events case false line := by
  rw [Position.events, Position.events]
  cases p.passed with
  | false => rfl
  | true => cases verbose <;> rfl

section Blocks

variable (tokenizer : Tokenizer S) (root : String)

namespace NormalCase

variable (case : NormalCase) (verbose : Bool)

theorem withoutPassed_tokenEvents :
    withoutPassed (case.tokenEvents tokenizer root verbose) =
      case.tokenEvents tokenizer root false := by
  rw [tokenEvents, tokenEvents, withoutPassed, List.filter_flatMap]
  refine List.flatMap_congr fun i _ => ?_
  rw [List.filter_flatMap]
  exact List.flatMap_congr fun p _ => p.withoutPassed_events _ _ _

/-- A verbose block is a quiet one, without its passed tokens. -/
theorem withoutPassed_events :
    withoutPassed (case.events tokenizer root verbose) = case.events tokenizer root false := by
  have hverdict (failures : Nat) :
      withoutPassed [caseVerdict case.name failures] = [caseVerdict case.name failures] := by
    rw [caseVerdict]
    split <;> rfl
  rw [events, events]
  split
  · rw [withoutPassed_append, withoutPassed_tokenEvents, hverdict]
  · rfl

end NormalCase

end Blocks

namespace Engine

/-- Without passed tokens, the events of cases depend on nothing but their normal forms. -/
theorem withoutPassed_caseBlocks (grammar : Grammar) (tokenizer : Tokenizer S) (options : Options)
    (cases : List Case) :
    withoutPassed (caseBlocks (.ready grammar tokenizer) options cases).flatten =
      ((cases.map Case.normalize).map fun case =>
        case.events tokenizer grammar.scopeName false).flatten := by
  rw [caseBlocks, withoutPassed, List.filter_flatten, List.map_map, List.map_map]
  refine congrArg List.flatten (List.map_congr_left fun case _ => ?_)
  rw [Function.comp_apply, Function.comp_apply, events_caseSteps_ready]
  exact case.normalize.withoutPassed_events tokenizer grammar.scopeName _

/-- A case that is quiet on an engine reports there what any other engine reports of it, save the
passed tokens. -/
theorem quiet_block_of_runs {sink₁ : Sink σ} {sink₂ : Sink τ} (hsink₁ : sink₁.NeverPanics)
    (hsink₂ : sink₂.NeverPanics) (grammar : Grammar) (tokenizer : Tokenizer S)
    (options₁ options₂ : Options) (bench₁ : Bench σ) (bench₂ : Bench τ) {cases₁ cases₂ : List Case}
    (hcases : cases₁.map Case.normalize = cases₂.map Case.normalize) {k : Nat} {case : Case}
    (hcase : cases₂[k]? = some case)
    (hquiet : (case.options.bind Override.logAllPassedTokens).getD options₂.logAllPassedTokens =
      false) :
    let engine₁ : Engine S σ := ⟨.ready grammar tokenizer, options₁, sink₁, bench₁⟩
    let engine₂ : Engine S τ := ⟨.ready grammar tokenizer, options₂, sink₂, bench₂⟩
    ∃ ended₁ ended₂, (engine₁.runs cases₁)[k]? = some ended₁ ∧
      (engine₂.runs cases₂)[k]? = some ended₂ ∧
      ended₂.handed.map Handed.event = withoutPassed (ended₁.handed.map Handed.event) := by
  intro engine₁ engine₂
  have hnormal := congrArg (·[k]?) hcases
  simp only [List.getElem?_map, hcase, Option.map_some] at hnormal
  obtain ⟨case₁, hcase₁, hsame⟩ := Option.map_eq_some_iff.mp hnormal
  obtain ⟨ended₁, hended₁, hevents₁⟩ := engine₁.exists_run_of_getElem? hsink₁ hcase₁
  obtain ⟨ended₂, hended₂, hevents₂⟩ := engine₂.exists_run_of_getElem? hsink₂ hcase
  refine ⟨ended₁, ended₂, hended₁, hended₂, ?_⟩
  rw [hevents₁, hevents₂, events_caseSteps_ready, events_caseSteps_ready,
    NormalCase.withoutPassed_events, activeFor_logAllPassedTokens, hquiet, hsame]

/-- Two engines that differ in their options run cases that may differ in their overrides.  Every
case ends the same and leaves the same statistics, the logs are the same but for passed tokens, and
so is the report if both engines have the same exit policy.  A case that is quiet on one of them
logs there what is left of its block on the other without the passed tokens. -/
theorem options_change_only_passes (grammar : Grammar) (tokenizer : Tokenizer S)
    (options₁ options₂ : Options) (bench₁ bench₂ : Bench (List Event)) (cases₁ cases₂ : List Case)
    (hstats : bench₁.stats = bench₂.stats)
    (hlog : withoutPassed bench₁.state = withoutPassed bench₂.state)
    (hcases : cases₁.map Case.normalize = cases₂.map Case.normalize) :
    let engine₁ : Engine S (List Event) := ⟨.ready grammar tokenizer, options₁, .recording, bench₁⟩
    let engine₂ : Engine S (List Event) := ⟨.ready grammar tokenizer, options₂, .recording, bench₂⟩
    ((∀ ended ∈ engine₁.runs cases₁, ended.result ≠ none) ∧
      (engine₁.runs cases₁).map (fun ended => (ended.result, ended.after.stats)) =
        (engine₂.runs cases₂).map (fun ended => (ended.result, ended.after.stats))) ∧
    withoutPassed (engine₁.executeAll cases₁).after =
      withoutPassed (engine₂.executeAll cases₂).after ∧
    (options₁.terminateHostOnFailure = options₂.terminateHostOnFailure →
      ∃ report, (engine₁.executeAll cases₁).result = some report ∧
        (engine₂.executeAll cases₂).result = some report) ∧
    ∀ (k : Nat) (case : Case), cases₂[k]? = some case →
      (case.options.bind Override.logAllPassedTokens).getD options₂.logAllPassedTokens = false →
      ∃ ended₁ ended₂, (engine₁.runs cases₁)[k]? = some ended₁ ∧
        (engine₂.runs cases₂)[k]? = some ended₂ ∧
        ended₂.handed.map Handed.event = withoutPassed (ended₁.handed.map Handed.event) := by
  intro engine₁ engine₂
  have hsink₁ : engine₁.sink.NeverPanics := Sink.neverPanics_recording
  have hsink₂ : engine₂.sink.NeverPanics := Sink.neverPanics_recording
  obtain ⟨hreport₁, hafter₁⟩ :=
    executeAll_of_recording (.ready grammar tokenizer) options₁ bench₁ cases₁
  obtain ⟨hreport₂, hafter₂⟩ :=
    executeAll_of_recording (.ready grammar tokenizer) options₂ bench₂ cases₂
  have htally : casesTally (.ready grammar tokenizer) options₁ cases₁ =
      casesTally (.ready grammar tokenizer) options₂ cases₂ := by
    rw [casesTally_ready, casesTally_ready, hcases]
  rw [hstats, htally] at hreport₁ hafter₁
  refine ⟨⟨runs_result_ne_none engine₁ hsink₁ cases₁, ?_⟩, ?_, ?_, ?_⟩
  · rw [progress_of_runs Sink.neverPanics_recording, progress_of_runs Sink.neverPanics_recording,
      hstats, hcases]
  · rw [hafter₁, hafter₂]
    simp only [withoutPassed_append, withoutPassed_caseBlocks, hlog, hcases]
  · intro hpolicy
    refine ⟨_, hreport₁, ?_⟩
    rw [hreport₂, Report.ofStats, Report.ofStats, hpolicy]
  · intro k case hcase hquiet
    exact quiet_block_of_runs hsink₁ hsink₂ grammar tokenizer options₁ options₂ bench₁ bench₂ hcases
      hcase hquiet

/-- The first engine reports passed tokens and has run a case before, the second does neither.  The
first case is quiet on the first engine and verbose on the second, and the other one, which fails,
the other way round. -/
theorem options_change_only_passes_mixed_overrides :
    let passed : Event := .tokenPassed ⟨"before", 0, 0, "a", some ⟨0, 1⟩, some ["s"], some ["s"]⟩
    let verbose : Options := { logAllPassedTokens := true }
    let cases₁ : List Case :=
      [⟨"words", .compact "a b", .compact "word|word", some { logAllPassedTokens := some false }⟩,
        ⟨"number", .compact "a 1", .compact "word|number", none⟩]
    let cases₂ : List Case :=
      [⟨"words", .compact "a b", .compact "word|word", some { logAllPassedTokens := some true }⟩,
        ⟨"number", .compact "a 1", .compact "word|number",
          some { terminateHostOnFailure := some false }⟩]
    let bench₁ : Bench (List Event) := { state := [passed] }
    let bench₂ : Bench (List Event) := { state := [] }
    let engine₁ : Engine Bool (List Event) :=
      ⟨.ready ⟨"source.c", .null⟩ (.comment "source.c"), verbose, .recording, bench₁⟩
    let engine₂ : Engine Bool (List Event) :=
      ⟨.ready ⟨"source.c", .null⟩ (.comment "source.c"), {}, .recording, bench₂⟩
    bench₁.stats = bench₂.stats ∧ withoutPassed bench₁.state = withoutPassed bench₂.state ∧
      cases₁.map Case.normalize = cases₂.map Case.normalize ∧
      (engine₁.executeAll cases₁).after ≠ (engine₂.executeAll cases₂).after ∧
      withoutPassed (engine₁.executeAll cases₁).after =
        withoutPassed (engine₂.executeAll cases₂).after ∧
      (∃ report, (engine₁.executeAll cases₁).result = some report ∧
        (engine₂.executeAll cases₂).result = some report) ∧
      ∃ ended₁ ended₂, (engine₁.runs cases₁)[1]? = some ended₁ ∧
        (engine₂.runs cases₂)[1]? = some ended₂ ∧
        ended₂.handed.map Handed.event = withoutPassed (ended₁.handed.map Handed.event) := by
  intro passed verbose cases₁ cases₂ bench₁ bench₂ engine₁ engine₂
  obtain ⟨-, hlogs, hreports, hblocks⟩ := options_change_only_passes ⟨"source.c", .null⟩
    (.comment "source.c") verbose {} bench₁ bench₂ cases₁ cases₂ rfl rfl rfl
  exact ⟨rfl, rfl, rfl, by decide, hlogs, hreports rfl, hblocks 1 _ rfl rfl⟩

end Engine

end ScopeCheck
