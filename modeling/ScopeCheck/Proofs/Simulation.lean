import ScopeCheck.Proofs.EventLog
import ScopeCheck.Proofs.Independence
import ScopeCheck.Proofs.SinkIndependence
import ScopeCheck.Proofs.Verdict

/-!
# Tokenizers that simulate each other

A run sees of a tokenizer the scope chains on each line, in the states that the tokenizer itself
passes on.  Two tokenizers that give the same chains, whatever their states and offsets are, are
therefore the same to a run, save for the spans in its reports.

* `Tokenizer.Simulates`: a relation between the states of two tokenizers that no line breaks.
* `Simulates.stateFrom`, `Simulates.actual`: the relation after lines, and the chains on line `i`.
* `Simulates.stats`, `Simulates.caseOutcome`, `Simulates.events`: what a case comes to over both.
* `Engine.offsets_change_only_spans`: whole runs over both.
-/

namespace ScopeCheck

variable {S T σ τ : Type}

/-- Two tokenizers in related states give every line the same scope chains, and go on in related
states.  Nothing is said about the offsets of the tokens. -/
structure Tokenizer.Simulates (first : Tokenizer S) (second : Tokenizer T) (R : S → T → Prop) :
    Prop where
  initial : R first.initial second.initial
  scopes : ∀ (line : String) (state : S) (state' : T), R state state' →
    (first.tokenize line state).tokens.map Token.scopes =
      (second.tokenize line state').tokens.map Token.scopes
  next : ∀ (line : String) (state : S) (state' : T), R state state' →
    R (first.tokenize line state).next (second.tokenize line state').next

/-! ## Events without their spans -/

def TokenReport.withoutSpan (report : TokenReport) : TokenReport :=
  { report with span := none }

/-- An event without the place of its token. -/
def Event.withoutSpan : Event → Event
  | tokenFailed report => tokenFailed report.withoutSpan
  | tokenPassed report => tokenPassed report.withoutSpan
  | invalid subject reason => invalid subject reason
  | caseFailed case failedTokens => caseFailed case failedTokens
  | casePassed case => casePassed case
  | stats s => stats s

/-! ## One case -/

namespace Tokenizer.Simulates

variable {first : Tokenizer S} {second : Tokenizer T} {R : S → T → Prop}

theorem stateFrom (h : first.Simulates second R) {state : S} {state' : T} (hstate : R state state')
    (lines : List String) : R (first.stateFrom state lines) (second.stateFrom state' lines) := by
  induction lines generalizing state state' with
  | nil => exact hstate
  | cons line lines ih => exact ih (h.next line state state' hstate)

/-- Every line of a case has the same chains. -/
theorem actual (h : first.Simulates second R) (case : NormalCase) (i : Nat) :
    case.actual first i = case.actual second i := by
  rw [NormalCase.actual, NormalCase.actual, tokensAt, tokensAt]
  cases case.text[i]? with
  | none => rfl
  | some line => exact h.scopes line _ _ (h.stateFrom h.initial _)

theorem stats (h : first.Simulates second R) (root : String) (case : NormalCase) :
    case.stats first root = case.stats second root := by
  rw [NormalCase.stats, NormalCase.stats, funext (h.actual case)]

theorem caseFailures (h : first.Simulates second R) (root : String) {case : NormalCase}
    (hlength : case.text.length = case.expect.length) :
    caseFailures first root case = caseFailures second root case := by
  rw [caseFailures_eq _ _ hlength, caseFailures_eq _ _ hlength, funext (h.actual case)]

theorem caseOutcome (h : first.Simulates second R) (root : String) (case : NormalCase) :
    caseOutcome first root case = caseOutcome second root case := by
  rw [ScopeCheck.caseOutcome, ScopeCheck.caseOutcome]
  by_cases hlength : case.text.length = case.expect.length
  · rw [h.caseFailures root hlength]
  · rw [if_pos hlength, if_pos hlength]

/-- The events at one position are the same, but for the span. -/
theorem eventsAt (h : first.Simulates second R) (root : String) (verbose : Bool)
    (case : NormalCase) (i k : Nat) :
    (case.eventsAt first root verbose i k).map Event.withoutSpan =
      (case.eventsAt second root verbose i k).map Event.withoutSpan := by
  have hreport : (case.reportAt first root i k).withoutSpan =
      (case.reportAt second root i k).withoutSpan := by
    rw [NormalCase.reportAt, NormalCase.reportAt, h.actual]
    rfl
  rw [NormalCase.eventsAt, NormalCase.eventsAt, h.actual]
  split
  · cases verbose with
    | false => rfl
    | true => exact congrArg (fun report => [Event.tokenPassed report]) hreport
  · exact congrArg (fun report => [Event.tokenFailed report]) hreport

theorem events (h : first.Simulates second R) (root : String) (verbose : Bool)
    (case : NormalCase) :
    (case.events first root verbose).map Event.withoutSpan =
      (case.events second root verbose).map Event.withoutSpan := by
  rw [NormalCase.events, NormalCase.events]
  by_cases hlength : case.text.length = case.expect.length
  · rw [if_pos hlength, if_pos hlength, h.caseFailures root hlength, tokenEvents_eq,
      tokenEvents_eq]
    simp only [List.map_append, List.map_flatMap, h.actual, h.eventsAt]
  · rw [if_neg hlength, if_neg hlength]

/-- Cases one after the other end the same and leave the same statistics. -/
theorem progress (h : first.Simulates second R) (root : String) (stats : Stats)
    (cases : List NormalCase) :
    Engine.progress first root stats cases = Engine.progress second root stats cases := by
  induction cases generalizing stats with
  | nil => rfl
  | cons case cases ih =>
    rw [Engine.progress, Engine.progress, h.caseOutcome, h.stats, ih]

end Tokenizer.Simulates

/-! ## Whole runs -/

namespace Engine

variable {first : Tokenizer S} {second : Tokenizer T} {R : S → T → Prop}

theorem casesTally_of_simulates (h : first.Simulates second R) (grammar : Grammar)
    (options : Options) (cases : List Case) :
    casesTally (.ready grammar first) options cases =
      casesTally (.ready grammar second) options cases := by
  rw [casesTally_ready, casesTally_ready]
  simp only [h.stats]

theorem caseBlocks_of_simulates (h : first.Simulates second R) (grammar : Grammar)
    (options : Options) (cases : List Case) :
    (caseBlocks (.ready grammar first) options cases).flatten.map Event.withoutSpan =
      (caseBlocks (.ready grammar second) options cases).flatten.map Event.withoutSpan := by
  rw [caseBlocks, caseBlocks, List.map_flatten, List.map_flatten, List.map_map, List.map_map]
  refine congrArg List.flatten (List.map_congr_left fun case _ => ?_)
  rw [Function.comp_apply, Function.comp_apply, events_caseSteps_ready, events_caseSteps_ready,
    h.events]

/-- Two engines with the same grammar and options run cases over tokenizers of which one simulates
the other.  Every case ends the same and leaves the same statistics, and so does the whole run.
Where both record their events, the recordings are the same but for the spans. -/
theorem offsets_change_only_spans (h : first.Simulates second R) (grammar : Grammar)
    (options : Options) {sink₁ : Sink σ} {sink₂ : Sink τ} (hsink₁ : sink₁.NeverPanics)
    (hsink₂ : sink₂.NeverPanics) (bench₁ : Bench σ) (bench₂ : Bench τ)
    (hstats : bench₁.stats = bench₂.stats) (cases : List Case) :
    let engine₁ : Engine S σ := ⟨.ready grammar first, options, sink₁, bench₁⟩
    let engine₂ : Engine T τ := ⟨.ready grammar second, options, sink₂, bench₂⟩
    ((∀ ended ∈ engine₁.runs cases, ended.result ≠ none) ∧
      (engine₁.runs cases).map (fun ended => (ended.result, ended.after.stats)) =
        (engine₂.runs cases).map (fun ended => (ended.result, ended.after.stats))) ∧
    (∃ report, (engine₁.executeAll cases).result = some report ∧
      (engine₂.executeAll cases).result = some report) ∧
    ∀ log₁ log₂ : List Event, log₁.map Event.withoutSpan = log₂.map Event.withoutSpan →
      let recording₁ : Engine S (List Event) :=
        ⟨.ready grammar first, options, .recording, { stats := bench₁.stats, state := log₁ }⟩
      let recording₂ : Engine T (List Event) :=
        ⟨.ready grammar second, options, .recording, { stats := bench₂.stats, state := log₂ }⟩
      (recording₁.executeAll cases).after.map Event.withoutSpan =
        (recording₂.executeAll cases).after.map Event.withoutSpan := by
  intro engine₁ engine₂
  have htally := casesTally_of_simulates h grammar options cases
  refine ⟨⟨runs_result_ne_none engine₁ hsink₁ cases, ?_⟩, ?_, ?_⟩
  · rw [progress_of_runs hsink₁, progress_of_runs hsink₂, hstats, h.progress]
  · obtain ⟨hreport₁, -⟩ := executeAll_of_neverPanics engine₁ hsink₁ cases
    obtain ⟨hreport₂, -⟩ := executeAll_of_neverPanics engine₂ hsink₂ cases
    have hstart : engine₁.stats = engine₂.stats := hstats
    rw [hstart, htally] at hreport₁
    exact ⟨_, hreport₁, hreport₂⟩
  · intro log₁ log₂ hlog recording₁ recording₂
    obtain ⟨-, hafter₁⟩ := executeAll_of_recording (.ready grammar first) options
      { stats := bench₁.stats, state := log₁ } cases
    obtain ⟨-, hafter₂⟩ := executeAll_of_recording (.ready grammar second) options
      { stats := bench₂.stats, state := log₂ } cases
    rw [hafter₁, hafter₂]
    simp only [List.map_append, hlog, caseBlocks_of_simulates h, hstats, htally]

/-- The second tokenizer counts the lines that a comment has been open for, and places its tokens
anywhere.  One sink keeps every event, the other refuses the failed tokens. -/
theorem offsets_change_only_spans_misplaced_tokens :
    let comment := Tokenizer.comment "source.c"
    let misplaced : Tokenizer Nat :=
      { initial := 0
        tokenize := fun line depth =>
          let produced := comment.tokenize line (0 < depth)
          ⟨produced.tokens.map fun token => { token with start := 100, stop := 7 },
            if produced.next then depth + 1 else 0⟩ }
    let agrees (inside : Bool) (depth : Nat) : Prop := inside = decide (0 < depth)
    let refusing := Sink.behind { refuse := ["token_failed"] } .tracing
    let cases : List Case :=
      [⟨"open", .compact "/* a\nb\nc */ d", .compact "comment.block\ncomment.block\ncomment.block",
        none⟩]
    let kept : Bench (List Event) := { state := [] }
    let engine₁ : Engine Bool (List Event) :=
      ⟨.ready ⟨"source.c", .null⟩ comment, {}, .recording, kept⟩
    let engine₂ : Engine Nat (Nat × Unit) :=
      ⟨.ready ⟨"source.c", .null⟩ misplaced, {}, refusing, { state := (0, ()) }⟩
    let engine₃ : Engine Nat (List Event) :=
      ⟨.ready ⟨"source.c", .null⟩ misplaced, {}, .recording, kept⟩
    comment.Simulates misplaced agrees ∧ Sink.recording.NeverPanics ∧ refusing.NeverPanics ∧
      (∃ report, (engine₁.executeAll cases).result = some report ∧
        (engine₂.executeAll cases).result = some report) ∧
      (engine₁.executeAll cases).after ≠ (engine₃.executeAll cases).after ∧
      (engine₁.executeAll cases).after.map Event.withoutSpan =
        (engine₃.executeAll cases).after.map Event.withoutSpan := by
  intro comment misplaced agrees refusing cases kept engine₁ engine₂ engine₃
  have hsimulates : comment.Simulates misplaced agrees := by
    refine ⟨rfl, ?_, ?_⟩
    · rintro line inside depth rfl
      show _ = List.map Token.scopes (List.map _ _)
      rw [List.map_map]
      rfl
    · rintro line inside depth rfl
      show (comment.tokenize line _).next = decide (0 < if _ then depth + 1 else 0)
      cases (comment.tokenize line (0 < depth)).next with
      | false => rfl
      | true => rfl
  have hrefusing : refusing.NeverPanics := Sink.neverPanics_tracing.behind rfl
  obtain ⟨-, hreports, hlogs⟩ := offsets_change_only_spans hsimulates ⟨"source.c", .null⟩ {}
    Sink.neverPanics_recording hrefusing kept { state := (0, ()) } rfl cases
  exact ⟨hsimulates, Sink.neverPanics_recording, hrefusing, hreports, by decide, hlogs [] [] rfl⟩

end Engine

end ScopeCheck
