import ScopeCheck.Proofs.CommentScan
import ScopeCheck.Proofs.Transcript
import ScopeCheck.Tokenizer

/-!
# Histories that are written as a whole

An event has no block only if it shows a token that does not fit its line.  So a tokenizer whose
tokens all fit never makes an event that the text sink refuses for its span, and in a buffer without
a limit every block is written.

* `Tokenizer.TokensFit`: tokenizers whose tokens fit.  Both the tokenizer of words and comments and
  the scripted one are such.
* `Event.HasBlock`: the events with a block.  `Engine.hasBlock_of_mem_caseSteps` says that over such
  a tokenizer a case has no others.
* `Delivered.text_unlimited`: deliveries of such events to a buffer without a limit.
* `Course.Written`: the courses that are written as a whole, and `History.every_block_written`, what
  histories over the two tokenizers come to.
-/

namespace ScopeCheck

open Text

variable {S : Type}

/-! ## Tokens that fit -/

/-- Every token of a tokenizer fits its line. -/
def Tokenizer.TokensFit (tokenizer : Tokenizer S) : Prop :=
  ∀ line state, ∀ token ∈ (tokenizer.tokenize line state).tokens,
    Span.Fits ⟨token.start, token.stop⟩ line.toList

namespace Tokenizer

theorem layout_comment (root line : String) (inside : Bool) :
    Comment.Layout line.toList 0 ((comment root).tokenize line inside).tokens :=
  ((Comment.turns_iff root line inside _ _).mpr rfl).layout

theorem tokensFit_comment (root : String) : (comment root).TokensFit := fun line inside =>
  (layout_comment root line inside).fits

/-- The span of a whole line fits it. -/
theorem tokensFit_scripted (root : String) (script : List ScriptLine) :
    (scripted root script).TokensFit := by
  intro line state token hmem
  have hwhole : Span.Fits ⟨0, byteLength line.toList⟩ line.toList := by
    apply Span.exists_parts_iff.mp
    refine ⟨[], line.toList, [], Span.parts?_eq_some_iff.mpr ⟨?_, rfl, Nat.zero_add _⟩⟩
    rw [List.append_nil, List.nil_append]
  rw [scripted] at hmem
  dsimp only at hmem
  split at hmem
  · obtain ⟨chain, -, rfl⟩ := List.mem_map.mp hmem
    exact hwhole
  · exact absurd hmem List.not_mem_nil

theorem TokensFit.of_mem_tokensAt {tokenizer : Tokenizer S} (h : tokenizer.TokensFit)
    {text : List String} {i : Nat} {token : Token} (hmem : token ∈ tokenizer.tokensAt text i) :
    Span.Fits ⟨token.start, token.stop⟩ (text.getD i "").toList := by
  rw [tokensAt] at hmem
  split at hmem
  · rename_i line hline
    rw [List.getD_eq_getElem?_getD, hline]
    exact h line _ token hmem
  · exact absurd hmem List.not_mem_nil

end Tokenizer

/-! ## Events with a block -/

/-- The event has a text. -/
def Event.HasBlock (event : Event) : Prop :=
  ∃ block, event.block = .ok block

theorem TokenReport.hasBlock_event {report : TokenReport}
    (h : ∀ span, report.span = some span → span.Fits report.line.toList) (passed : Bool) :
    (report.event passed).HasBlock := by
  have hmark : ∃ shown, mark report.line.toList report.span = .ok shown := by
    cases hspan : report.span with
    | none => exact ⟨_, rfl⟩
    | some span => exact ⟨_, mark_of_fits (h span hspan)⟩
  obtain ⟨shown, hshown⟩ := hmark
  rw [Event.HasBlock, block_event, hshown]
  exact ⟨_, rfl⟩

theorem hasBlock_caseVerdict (case : String) (failures : Nat) :
    (caseVerdict case failures).HasBlock := by
  rw [caseVerdict]
  split
  · exact ⟨_, rfl⟩
  · exact ⟨_, rfl⟩

section Case

variable {tokenizer : Tokenizer S} (htokens : tokenizer.TokensFit) (case : NormalCase)
  (root : String)

include htokens

/-- The span that a case reports at a position fits the line that it reports there. -/
theorem fits_reportAt (i k : Nat) (span : Span)
    (h : (case.reportAt tokenizer root i k).span = some span) :
    span.Fits (case.reportAt tokenizer root i k).line.toList := by
  obtain ⟨token, htoken, rfl⟩ := Option.map_eq_some_iff.mp h
  exact htokens.of_mem_tokensAt (List.mem_of_getElem? htoken)

theorem hasBlock_of_mem_tokenEvents (verbose : Bool) :
    ∀ event ∈ case.tokenEvents tokenizer root verbose, event.HasBlock := by
  intro event hevent
  obtain ⟨i, -, k, -, hevent⟩ := mem_tokenEvents.mp hevent
  have hblock := TokenReport.hasBlock_event (fits_reportAt htokens case root i k)
  rw [NormalCase.eventsAt] at hevent
  split at hevent
  · cases verbose with
    | false => cases hevent
    | true =>
      rw [List.mem_singleton.mp hevent]
      exact hblock true
  · rw [List.mem_singleton.mp hevent]
    exact hblock false

end Case

namespace Engine

/-- The tokens fit, if there is a tokenizer at all. -/
def TokensFit : Backing S → Prop
  | .ready _ tokenizer => tokenizer.TokensFit
  | .failed _ _ => True

theorem hasBlock_of_mem_caseSteps {backing : Backing S} (h : TokensFit backing) (options : Options)
    (case : Case) : ∀ event ∈ Step.events (caseSteps backing options case), event.HasBlock := by
  cases backing with
  | failed source error => exact List.forall_mem_singleton.mpr ⟨_, rfl⟩
  | ready grammar tokenizer =>
    rw [events_caseSteps_ready, NormalCase.events]
    split
    · refine List.forall_mem_append.mpr ⟨hasBlock_of_mem_tokenEvents h _ _ _, ?_⟩
      exact List.forall_mem_singleton.mpr (hasBlock_caseVerdict _ _)
    · exact List.forall_mem_singleton.mpr ⟨_, rfl⟩

theorem hasBlock_of_mem_loadSteps (backing : Backing S) :
    ∀ event ∈ Step.events (loadSteps backing), event.HasBlock := by
  cases backing with
  | ready grammar tokenizer => exact fun event hevent => absurd hevent List.not_mem_nil
  | failed source error => exact List.forall_mem_singleton.mpr ⟨_, rfl⟩

end Engine

/-! ## A buffer without a limit -/

/-- In a buffer without a limit, an event with a block is accepted at once, and its entry stands
behind what was written before. -/
theorem Sink.deliver_text_unlimited (failure : String) (written : List UInt8) {event : Event}
    (h : event.HasBlock) :
    (Sink.text ⟨none, failure⟩).deliver written event =
      ⟨written ++ event.entryBytes, [event], .accepted, []⟩ := by
  obtain ⟨block, hblock⟩ := h
  have hreport : (Sink.text ⟨none, failure⟩).report written event =
      ⟨written ++ event.entryBytes, .accepted, []⟩ := by
    rw [Event.entryBytes, Event.entry_of_block hblock]
    apply text_report_of_room hblock
    intro limit hlimit
    cases hlimit
  rw [deliver_of_accepted (by rw [hreport]), hreport]

/-- Deliveries in turn of events with a block. -/
theorem Delivered.text_unlimited {failure : String} {written last : List UInt8}
    {handed : List Handed} {log : List Log.Record}
    (h : Delivered (Sink.text ⟨none, failure⟩) written handed log last)
    (hblocks : ∀ each ∈ handed, each.event.HasBlock) :
    last = written ++ transcript (handed.map Handed.event) ∧
      ∀ each ∈ handed, each.fate = .accepted ∧ each.reports = [each.event] := by
  induction h with
  | nil => exact ⟨(List.append_nil _).symm, fun each hmem => absurd hmem List.not_mem_nil⟩
  | quiet _ _ ih => exact ih hblocks
  | @deliver written last handed log event stats _ ih =>
    obtain ⟨hblock, hblocks⟩ := List.forall_mem_cons.mp hblocks
    have hdelivery : (Sink.text ⟨none, failure⟩).deliver written event = _ :=
      Sink.deliver_text_unlimited failure written hblock
    rw [hdelivery] at ih ⊢
    obtain ⟨hlast, haccepted⟩ := ih hblocks
    refine ⟨?_, List.forall_mem_cons.mpr ⟨⟨rfl, rfl⟩, haccepted⟩⟩
    rw [hlast, List.append_assoc]
    rfl

/-- Where every event has a block, the transcript is the blocks one after the other. -/
theorem exists_blocks_transcript {events : List Event} (h : ∀ event ∈ events, event.HasBlock) :
    ∃ blocks : List String, events.map Event.block = blocks.map .ok ∧
      transcript events = blocks.flatMap fun block => bytes block.toList := by
  induction events with
  | nil => exact ⟨[], rfl, rfl⟩
  | cons event events ih =>
    obtain ⟨⟨block, hblock⟩, hevents⟩ := List.forall_mem_cons.mp h
    obtain ⟨blocks, hblocks, htranscript⟩ := ih hevents
    refine ⟨block :: blocks, ?_, ?_⟩
    · rw [List.map_cons, List.map_cons, hblock, hblocks]
    · rw [transcript, List.flatMap_cons, List.flatMap_cons, ← htranscript, Event.entryBytes,
        Event.entry_of_block hblock]
      rfl

/-! ## Whole histories -/

/-- What all tokenizers of an engine have in common that is made in a certain way, whichever
grammar it loads. -/
def Setup.Over (holds : Tokenizer S → Prop) : Setup S → Prop
  | ready _ tokenizer => holds tokenizer
  | load _ _ backend => ∀ grammar tokenizer, backend grammar = .ok tokenizer → holds tokenizer

/-- Every event of a course was accepted as it is, and reported once.  Behind what was written
before, there are the blocks of the events and nothing else. -/
structure Course.Written (course : Course (List UInt8)) (before : List UInt8) : Prop where
  accepted : ∀ each ∈ course.handed, each.fate = .accepted ∧ each.reports = [each.event]
  text : ∃ blocks : List String, course.events.map Event.block = blocks.map .ok ∧
    course.last = before ++ blocks.flatMap fun block => bytes block.toList

/-- The text of a course that is written as a whole, from the blocks of its events. -/
theorem Course.Written.last_eq {course : Course (List UInt8)}
    {before : List UInt8} (h : course.Written before) {blocks : List String}
    (hblocks : course.events.map Event.block = blocks.map .ok) :
    course.last = before ++ blocks.flatMap fun block => bytes block.toList := by
  obtain ⟨blocks', hblocks', hlast⟩ := h.text
  have hsame : blocks' = blocks := by
    apply List.map_injective_iff.mpr (fun _ _ h => Except.ok.inj h)
    exact hblocks'.symm.trans hblocks
  rw [hlast, hsame]

theorem Setup.Over.imp {holds others : Tokenizer S → Prop} {setup : Setup S}
    (h : setup.Over holds) (himp : ∀ tokenizer, holds tokenizer → others tokenizer) :
    setup.Over others := by
  cases setup with
  | ready grammar tokenizer => exact himp tokenizer h
  | load text files backend =>
    exact fun grammar tokenizer hbackend => himp tokenizer (h grammar tokenizer hbackend)

theorem Setup.tokensFit_start {setup : Setup S} (h : setup.Over Tokenizer.TokensFit)
    {σ : Type} (options : Options) (sink : Sink σ) (state : σ) :
    Engine.TokensFit (setup.start options sink state).after.backing := by
  cases setup with
  | ready grammar tokenizer => exact h
  | load text files backend =>
    show Engine.TokensFit (Backing.load _ files backend)
    rw [Backing.load]
    split
    · trivial
    · split
      · rename_i tokenizer htokenizer
        exact h _ tokenizer htokenizer
      · trivial

namespace History

/-- Over a tokenizer whose tokens fit, every event of a history has a block. -/
theorem hasBlock_of_mem_course {setup : Setup S} (h : setup.Over Tokenizer.TokensFit)
    (options : Options) (buffer : Buffer) (before : List UInt8) (cases : List Case)
    (finished : Bool) :
    ∀ event ∈ ((of setup options (.text buffer) before cases).course finished).events,
      event.HasBlock := by
  have hunbroken : ∀ handed ∈ (of setup options (.text buffer) before cases).handed,
      handed.fate ≠ .panicked :=
    (course_delivered setup options (.text buffer) before cases false).fate_ne_panicked
      (Sink.neverPanics_text buffer)
  obtain ⟨-, hevents⟩ :=
    stats_and_events_of_unbroken setup options (.text buffer) before cases hunbroken
  have hfit := setup.tokensFit_start h options (.text buffer) before
  rw [course_events, hevents]
  refine List.forall_mem_append.mpr ⟨List.forall_mem_append.mpr ⟨?_, ?_⟩, ?_⟩
  · exact Engine.hasBlock_of_mem_loadSteps _
  · intro event hevent
    obtain ⟨block, hblock, hevent⟩ := List.mem_flatten.mp hevent
    obtain ⟨case, -, rfl⟩ := List.mem_map.mp hblock
    exact Engine.hasBlock_of_mem_caseSteps hfit _ case event hevent
  · cases finished with
    | false => exact fun event hevent => absurd hevent List.not_mem_nil
    | true => exact List.forall_mem_singleton.mpr ⟨_, rfl⟩

theorem written_of_tokensFit {setup : Setup S} (h : setup.Over Tokenizer.TokensFit)
    (options : Options) (failure : String) (before : List UInt8) (cases : List Case)
    (finished : Bool) :
    ((of setup options (.text ⟨none, failure⟩) before cases).course finished).Written before := by
  have hblocks := hasBlock_of_mem_course h options ⟨none, failure⟩ before cases finished
  obtain ⟨hlast, haccepted⟩ :=
    (course_delivered setup options (.text ⟨none, failure⟩) before cases finished).text_unlimited
      (List.forall_mem_map.mp hblocks)
  obtain ⟨blocks, hevents, htranscript⟩ := exists_blocks_transcript hblocks
  refine ⟨haccepted, blocks, hevents, ?_⟩
  rw [hlast, ← htranscript]
  rfl

/-- On every line, the tokenizer of words and comments takes turns that start between characters and
lead to the end of the line, and it lays its tokens on the line in order, with only spaces between
them.  Over this tokenizer and the scripted one, every history is written as a whole. -/
theorem every_block_written :
    (∀ (root line : String) (inside : Bool),
      let produced := (Tokenizer.comment root).tokenize line inside
      (∀ tokens last, Comment.Turns root line.toList 0 inside tokens last ↔
          produced = ⟨tokens, last⟩) ∧
        Comment.Layout line.toList 0 produced.tokens) ∧
    (∀ setup : Setup Bool, setup.Over (fun tokenizer => ∃ root, tokenizer = .comment root) →
      ∀ (options : Options) (failure : String) (before : List UInt8) (cases : List Case)
        (finished : Bool),
        ((of setup options (.text ⟨none, failure⟩) before cases).course finished).Written before) ∧
    ∀ setup : Setup Unit,
      setup.Over (fun tokenizer => ∃ root script, tokenizer = .scripted root script) →
        ∀ (options : Options) (failure : String) (before : List UInt8) (cases : List Case)
          (finished : Bool),
          ((of setup options (.text ⟨none, failure⟩) before cases).course finished).Written
            before := by
  refine ⟨fun root line inside => ⟨Comment.turns_iff root line inside, ?_⟩, ?_, ?_⟩
  · exact Tokenizer.layout_comment root line inside
  · intro setup hsetup
    apply written_of_tokensFit
    apply hsetup.imp
    rintro tokenizer ⟨root, rfl⟩
    exact Tokenizer.tokensFit_comment root
  · intro setup hsetup
    apply written_of_tokensFit
    apply hsetup.imp
    rintro tokenizer ⟨root, script, rfl⟩
    exact Tokenizer.tokensFit_scripted root script

/-- A comment that is open at the end of a line, between characters of two bytes, and a line of a
script that is expected to have one more token. -/
theorem every_block_written_open_comment :
    let comment : Setup Bool := .ready ⟨"source.c", .null⟩ (.comment "source.c")
    let scripted : Setup Unit :=
      .ready ⟨"source.x", .null⟩ (.scripted "source.x" [⟨"π", [["unit"]]⟩])
    let long : Case := ⟨"long", .compact "é /*/\nπ */", .compact "word|word\ncomment.block", none⟩
    let short : Case := ⟨"short", .compact "π", .compact "unit|more", none⟩
    let first := (of comment { logAllPassedTokens := true } (.text {}) [] [long]).course false
    let second := (of scripted {} (.text {}) [] [short]).course false
    let firstBlocks :=
      ["[Passed]: long Line: 0 Token: 0  [é]·/*/\n",
        "\n[Failed]: long Line: 0 Token: 1\n\n      é·[/*/]\n\n      Expected: source.c word\n" ++
          "      Received: source.c comment.block\n\n",
        "[Passed]: long Line: 1 Token: 0  [π·*/]\n",
        "[Failed]: long (1 mismatched)\n"]
    let secondBlocks :=
      ["\n[Failed]: short Line: 0 Token: 1\n\n      π\n\n      Expected: source.x more\n" ++
          "      Received: undefined\n\n",
        "[Failed]: short (1 mismatched)\n"]
    comment.Over (fun tokenizer => ∃ root, tokenizer = .comment root) ∧
      scripted.Over (fun tokenizer => ∃ root script, tokenizer = .scripted root script) ∧
      first.Written [] ∧ second.Written [] ∧
      first.last = firstBlocks.flatMap (fun block => bytes block.toList) ∧
      second.last = secondBlocks.flatMap (fun block => bytes block.toList) := by
  intro comment scripted long short first second firstBlocks secondBlocks
  obtain ⟨-, hcomments, hscripts⟩ := every_block_written
  have hcomment : comment.Over fun tokenizer => ∃ root, tokenizer = .comment root := ⟨_, rfl⟩
  have hscripted : scripted.Over fun tokenizer =>
      ∃ root script, tokenizer = .scripted root script := ⟨_, _, rfl⟩
  have hfirst : first.Written [] := hcomments comment hcomment _ _ [] [long] false
  have hsecond : second.Written [] := hscripts scripted hscripted _ _ [] [short] false
  have hfirstBlocks : first.events.map Event.block = firstBlocks.map .ok := by decide
  have hsecondBlocks : second.events.map Event.block = secondBlocks.map .ok := by decide
  have hfirstLast := hfirst.last_eq hfirstBlocks
  have hsecondLast := hsecond.last_eq hsecondBlocks
  rw [List.nil_append] at hfirstLast hsecondLast
  exact ⟨hcomment, hscripted, hfirst, hsecond, hfirstLast, hsecondLast⟩

end History

end ScopeCheck
