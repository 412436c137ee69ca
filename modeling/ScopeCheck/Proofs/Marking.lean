import ScopeCheck.Sink.Text

/-!
# Marked lines

The block of a token shows its line with the token in brackets.  A span that does not fit the line
has no block, and then nothing is written.

* `Span.Fits`: the spans that fit a line.  `Span.parts?_eq_some_iff` and `Span.exists_parts_iff` say
  that these are the spans with three parts.
* `Span.bracketed`: the marked line in one pass, character by character.  `Span.bracketed_of_parts`
  says that it is made up of the three parts.
* `byteLength_bracketed`: how much longer the marked line is.
* `TokenReport.event`, `TokenReport.frame`: the events of tokens, and what their blocks show around
  the line.
* `Sink.text_report_marks_token`: what the text sink does with the event of a token.
-/

namespace ScopeCheck

open Text

/-! ## Spans that fit -/

/-- The ends of a span are in order, and both fall between two characters of the line. -/
structure Span.Fits (span : Span) (line : List Char) : Prop where
  ordered : span.start ≤ span.stop
  inside : span.stop ≤ byteLength line
  start_boundary : IsBoundary line span.start
  stop_boundary : IsBoundary line span.stop

namespace Span

variable {span : Span} {line before middle after : List Char}

/-- The three parts make up the line, and the first two are as long as the ends of the span say. -/
theorem parts?_eq_some_iff :
    span.parts? line = some (before, middle, after) ↔
      line = before ++ (middle ++ after) ∧ byteLength before = span.start ∧
        span.start + byteLength middle = span.stop := by
  rw [parts?]
  by_cases hordered : span.stop < span.start
  · rw [if_pos hordered]
    constructor
    · intro h
      cases h
    · rintro ⟨-, -, hstop⟩
      omega
  · rw [if_neg hordered]
    constructor
    · intro h
      split at h
      · cases h
      · rename_i first rest hfirst
        split at h
        · cases h
        · rename_i second last hsecond
          cases h
          obtain ⟨rfl, hstart⟩ := cutAt_eq_some_iff.mp hfirst
          obtain ⟨rfl, hstop⟩ := cutAt_eq_some_iff.mp hsecond
          exact ⟨rfl, hstart, by omega⟩
    · rintro ⟨rfl, hstart, hstop⟩
      have hfirst : cutAt span.start (before ++ (middle ++ after)) =
          some (before, middle ++ after) :=
        cutAt_eq_some_iff.mpr ⟨rfl, hstart⟩
      have hsecond : cutAt (span.stop - span.start) (middle ++ after) = some (middle, after) :=
        cutAt_eq_some_iff.mpr ⟨rfl, by omega⟩
      simp only [hfirst, hsecond]

/-- The spans with three parts are those that fit. -/
theorem exists_parts_iff :
    (∃ before middle after, span.parts? line = some (before, middle, after)) ↔
      span.Fits line := by
  constructor
  · rintro ⟨before, middle, after, hparts⟩
    obtain ⟨rfl, hstart, hstop⟩ := parts?_eq_some_iff.mp hparts
    refine ⟨by omega, ?_, ⟨before, List.prefix_append _ _, hstart⟩, before ++ middle, ?_, ?_⟩
    · rw [byteLength_append, byteLength_append]
      omega
    · rw [← List.append_assoc]
      exact List.prefix_append _ _
    · rw [byteLength_append, hstart, hstop]
  · intro h
    obtain ⟨before, ⟨rest, rfl⟩, hstart⟩ := h.start_boundary
    obtain ⟨front, hfront, hstop⟩ := h.stop_boundary
    have hordered := h.ordered
    -- both are fronts of the line, so the shorter one is a front of the longer one
    rcases List.prefix_or_prefix_of_prefix (List.prefix_append before rest) hfront with hle | hle
    · obtain ⟨middle, rfl⟩ := hle
      obtain ⟨after, hafter⟩ := hfront
      rw [List.append_assoc, List.append_cancel_left_eq] at hafter
      rw [byteLength_append] at hstop
      refine ⟨before, middle, after, parts?_eq_some_iff.mpr ⟨?_, hstart, ?_⟩⟩
      · rw [hafter]
      · omega
    · obtain ⟨middle, rfl⟩ := hle
      rw [byteLength_append] at hstart
      refine ⟨front ++ middle, [], rest, parts?_eq_some_iff.mpr ⟨rfl, ?_, ?_⟩⟩
      · rw [byteLength_append, hstart]
      · rw [byteLength_nil]
        omega

/-! ## The marked line in one pass -/

/-- The brackets in front of the byte offset `n`. -/
def bracketsAt (span : Span) (n : Nat) : List Char :=
  (if n = span.start then ['['] else []) ++ if n = span.stop then [']'] else []

/-- The rest of a line from the byte offset `n` on.  Every space is a dot, and the brackets stand in
front of the characters at the two ends of the span, or at the end of the line. -/
def bracketedFrom (span : Span) : Nat → List Char → List Char
  | n, [] => span.bracketsAt n
  | n, c :: cs =>
    span.bracketsAt n ++ (if c = ' ' then '·' else c) :: span.bracketedFrom (n + c.utf8Size) cs

/-- A line with its spaces as dots and the brackets of a span in it. -/
def bracketed (span : Span) (line : List Char) : List Char :=
  span.bracketedFrom 0 line

theorem bracketsAt_eq_nil {n : Nat} (hstart : n ≠ span.start) (hstop : n ≠ span.stop) :
    span.bracketsAt n = [] := by
  rw [bracketsAt, if_neg hstart, if_neg hstop, List.append_nil]

/-- Where no end of the span falls into a text, it is shown without brackets. -/
theorem bracketedFrom_append (text rest : List Char) {n : Nat}
    (h : ∀ m, n ≤ m → m < n + byteLength text → m ≠ span.start ∧ m ≠ span.stop) :
    span.bracketedFrom n (text ++ rest) =
      visible text ++ span.bracketedFrom (n + byteLength text) rest := by
  induction text generalizing n with
  | nil => rfl
  | cons c text ih =>
    have hpos := c.utf8Size_pos
    rw [byteLength_cons] at h
    obtain ⟨hstart, hstop⟩ := h n (Nat.le_refl n) (by omega)
    have hrest : span.bracketedFrom (n + c.utf8Size) (text ++ rest) =
        visible text ++ span.bracketedFrom (n + c.utf8Size + byteLength text) rest :=
      ih fun m hle hlt => h m (by omega) (by omega)
    rw [List.cons_append, bracketedFrom, bracketsAt_eq_nil hstart hstop, hrest, byteLength_cons,
      Nat.add_assoc]
    rfl

/-- From the later end of the span on, there are no brackets but those right there. -/
theorem bracketedFrom_of_le {n : Nat} (hstart : span.start ≤ n) (hstop : span.stop ≤ n)
    (rest : List Char) : span.bracketedFrom n rest = span.bracketsAt n ++ visible rest := by
  induction rest generalizing n with
  | nil => exact (List.append_nil _).symm
  | cons c rest ih =>
    have hpos := c.utf8Size_pos
    have hbehind : span.bracketsAt (n + c.utf8Size) = [] :=
      bracketsAt_eq_nil (by omega) (by omega)
    rw [bracketedFrom, ih (by omega) (by omega), hbehind]
    rfl

/-- Where a span starts, its middle part stands in brackets, and what is behind it has none. -/
theorem bracketedFrom_start (h : span.start + byteLength middle = span.stop) (after : List Char) :
    span.bracketedFrom span.start (middle ++ after) =
      '[' :: (visible middle ++ ']' :: visible after) := by
  cases middle with
  | nil =>
    have hsame : span.start = span.stop := h
    rw [List.nil_append, bracketedFrom_of_le (Nat.le_refl _) (Nat.le_of_eq hsame.symm), bracketsAt,
      if_pos rfl, if_pos hsame]
    rfl
  | cons c middle =>
    have hpos := c.utf8Size_pos
    rw [byteLength_cons] at h
    have hstop : span.start + c.utf8Size + byteLength middle = span.stop := by omega
    have hopen : span.bracketsAt span.start = ['['] := by
      rw [bracketsAt, if_pos rfl, if_neg (by omega), List.append_nil]
    have hclose : span.bracketsAt span.stop = [']'] := by
      rw [bracketsAt, if_neg (by omega), if_pos rfl, List.nil_append]
    have hmiddle : span.bracketedFrom (span.start + c.utf8Size) (middle ++ after) =
        visible middle ++ (']' :: visible after) := by
      rw [bracketedFrom_append, hstop, bracketedFrom_of_le (by omega) (Nat.le_refl _), hclose]
      · rfl
      · intro m _ hm
        omega
    rw [List.cons_append, bracketedFrom, hopen, hmiddle]
    rfl

/-- The line in one pass is the line in its three parts. -/
theorem bracketed_of_parts (h : span.parts? line = some (before, middle, after)) :
    span.bracketed line = visible before ++ '[' :: (visible middle ++ ']' :: visible after) := by
  obtain ⟨rfl, hstart, hstop⟩ := parts?_eq_some_iff.mp h
  rw [bracketed, bracketedFrom_append, Nat.zero_add, hstart, bracketedFrom_start hstop]
  intro m _ hm
  omega

end Span

/-! ## How long it is -/

/-- A dot takes one byte more than a space. -/
theorem byteLength_visible (cs : List Char) :
    byteLength (visible cs) = byteLength cs + cs.count ' ' := by
  induction cs with
  | nil => rfl
  | cons c cs ih =>
    have hvisible : visible (c :: cs) = (if c = ' ' then '·' else c) :: visible cs := rfl
    rw [hvisible, byteLength_cons, byteLength_cons, ih]
    by_cases hc : c = ' '
    · have hdot : '·'.utf8Size = ' '.utf8Size + 1 := by decide
      rw [if_pos hc, hc, hdot, List.count_cons_self]
      omega
    · rw [if_neg hc, List.count_cons_of_ne hc]
      omega

theorem byteLength_bracketed {span : Span} {line : List Char} (h : span.Fits line) :
    byteLength (span.bracketed line) = byteLength line + (2 + line.count ' ') := by
  obtain ⟨before, middle, after, hparts⟩ := Span.exists_parts_iff.mpr h
  obtain ⟨hline, -, -⟩ := Span.parts?_eq_some_iff.mp hparts
  have hopen : '['.utf8Size = 1 := by decide
  have hclose : ']'.utf8Size = 1 := by decide
  rw [Span.bracketed_of_parts hparts, hline]
  simp only [byteLength_append, byteLength_cons, byteLength_visible, List.count_append, hopen,
    hclose]
  omega

/-! ## The block of a token -/

theorem mark_of_fits {span : Span} {line : List Char} (h : span.Fits line) :
    mark line (some span) = .ok (span.bracketed line) := by
  obtain ⟨before, middle, after, hparts⟩ := Span.exists_parts_iff.mpr h
  rw [mark, hparts, Span.bracketed_of_parts hparts]

theorem mark_of_not_fits {span : Span} {line : List Char} (h : ¬ span.Fits line) :
    mark line (some span) = .error (span.misfit line) := by
  have hparts : span.parts? line = none := by
    apply Option.eq_none_iff_forall_ne_some.mpr
    rintro ⟨before, middle, after⟩ hparts
    exact h (Span.exists_parts_iff.mp ⟨before, middle, after, hparts⟩)
  rw [mark, hparts]

namespace TokenReport

/-- The event of a token that passed or failed. -/
def event (report : TokenReport) (passed : Bool) : Event :=
  if passed then .tokenPassed report else .tokenFailed report

/-- What the block of a token shows in front of its line and behind it. -/
def frame (report : TokenReport) (passed : Bool) : String × String :=
  if passed then ("[Passed]: " ++ report.place ++ "  ", "\n")
  else
    ("\n[Failed]: " ++ report.place ++ "\n\n      ",
      "\n\n      Expected: " ++ chainText report.expected ++ "\n      Received: " ++
        chainText report.actual ++ "\n\n")

/-- The bytes of a block that shows a line. -/
def blockBytes (report : TokenReport) (passed : Bool) (shown : List Char) : List UInt8 :=
  bytes (((report.frame passed).1 ++ String.ofList shown ++ (report.frame passed).2).toList)

theorem block_event (report : TokenReport) (passed : Bool) :
    (report.event passed).block =
      (mark report.line.toList report.span).map fun shown =>
        (report.frame passed).1 ++ String.ofList shown ++ (report.frame passed).2 := by
  cases passed with
  | false =>
    show Event.block (.tokenFailed report) = _
    rw [Event.block]
    cases mark report.line.toList report.span with
    | error error => rfl
    | ok shown => simp [Except.map, frame, String.append_assoc]
  | true =>
    show Event.block (.tokenPassed report) = _
    rw [Event.block]
    cases mark report.line.toList report.span with
    | error error => rfl
    | ok shown => rfl

end TokenReport

/-! ## The text sink -/

/-- A buffer never fails while no more than `size` bytes are in it. -/
def Buffer.HasRoom (buffer : Buffer) (size : Nat) : Prop :=
  ∀ limit, buffer.limit = some limit → size ≤ limit

theorem Buffer.write_of_hasRoom (buffer : Buffer) {written bytes : List UInt8}
    (h : buffer.HasRoom (written.length + bytes.length)) :
    buffer.write written bytes = (written ++ bytes, true) := by
  rw [Buffer.write]
  split
  · rfl
  · rename_i limit hlimit
    have hle := h limit hlimit
    rw [if_pos (by omega)]

namespace Sink

variable {buffer : Buffer} {written : List UInt8} {event : Event} {block : String}

/-- Where there is room for it, a block is appended as a whole. -/
theorem text_report_of_room (h : event.block = .ok block)
    (hroom : buffer.HasRoom (written.length + (bytes block.toList).length)) :
    (text buffer).report written event = ⟨written ++ bytes block.toList, .accepted, []⟩ := by
  simp only [text, h, buffer.write_of_hasRoom hroom]

/-- An event with a block is refused only for want of room. -/
theorem text_verdict_of_block (h : event.block = .ok block) :
    ((text buffer).report written event).verdict = .accepted ∨
      ((text buffer).report written event).verdict = .refused (.io buffer.failure) := by
  simp only [text, h]
  split
  · exact .inl rfl
  · exact .inr rfl

/-- What the text sink does with a token whose line is shown in a certain way, or not at all. -/
theorem text_report_of_mark (buffer : Buffer) (written : List UInt8) (report : TokenReport)
    (passed : Bool) :
    let answer := (text buffer).report written (report.event passed)
    (∀ error, mark report.line.toList report.span = .error error →
      answer = ⟨written, .refused error, []⟩) ∧
    ∀ shown, mark report.line.toList report.span = .ok shown →
      (∀ message, answer.verdict ≠ .refused (.render message)) ∧
        (buffer.HasRoom (written.length + (report.blockBytes passed shown).length) →
          answer = ⟨written ++ report.blockBytes passed shown, .accepted, []⟩) := by
  intro answer
  have hblock := report.block_event passed
  constructor
  · intro error hmark
    rw [hmark] at hblock
    exact text_report_of_no_block hblock
  · intro shown hmark
    rw [hmark] at hblock
    refine ⟨fun message hverdict => ?_, fun hroom => text_report_of_room hblock hroom⟩
    rcases text_verdict_of_block hblock with haccepted | hrefused
    · cases haccepted.symm.trans hverdict
    · cases hrefused.symm.trans hverdict

/-- The text sink cannot render a token whose span does not fit its line, and writes nothing then.
The block of any other token is appended as a whole where there is room.  It shows the line with
every space as a dot and the token in brackets, which makes it longer by two bytes and one for each
space; a token without a span gets no brackets. -/
theorem text_report_marks_token (buffer : Buffer) (written : List UInt8) (report : TokenReport)
    (passed : Bool) :
    let line := report.line.toList
    let answer := (text buffer).report written (report.event passed)
    let unrendered := ∃ message, answer.verdict = .refused (.render message)
    (∀ span, report.span = some span →
      (unrendered ↔ ¬ (span.start ≤ span.stop ∧ span.stop ≤ byteLength line ∧
        IsBoundary line span.start ∧ IsBoundary line span.stop)) ∧
      (unrendered → answer = ⟨written, .refused (span.misfit line), []⟩) ∧
      (¬ unrendered →
        byteLength (span.bracketed line) = byteLength line + (2 + line.count ' ') ∧
        (buffer.HasRoom
            (written.length + (report.blockBytes passed (span.bracketed line)).length) →
          answer = ⟨written ++ report.blockBytes passed (span.bracketed line), .accepted, []⟩))) ∧
    (report.span = none →
      ¬ unrendered ∧
        (buffer.HasRoom (written.length + (report.blockBytes passed (visible line)).length) →
          answer = ⟨written ++ report.blockBytes passed (visible line), .accepted, []⟩)) := by
  intro line answer unrendered
  obtain ⟨hmisfit, hshown⟩ := text_report_of_mark buffer written report passed
  constructor
  · intro span hspan
    have hfits : span.Fits line ↔ span.start ≤ span.stop ∧ span.stop ≤ byteLength line ∧
        IsBoundary line span.start ∧ IsBoundary line span.stop :=
      ⟨fun h => ⟨h.1, h.2, h.3, h.4⟩, fun h => ⟨h.1, h.2.1, h.2.2.1, h.2.2.2⟩⟩
    rw [hspan] at hmisfit hshown
    by_cases h : span.Fits line
    · obtain ⟨hrendered, hwritten⟩ := hshown _ (mark_of_fits h)
      have hnot : ¬ unrendered := fun ⟨message, hverdict⟩ => hrendered message hverdict
      exact ⟨iff_of_false hnot (not_not_intro (hfits.mp h)), fun hun => absurd hun hnot,
        fun _ => ⟨byteLength_bracketed h, hwritten⟩⟩
    · have hanswer : answer = ⟨written, .refused (span.misfit line), []⟩ :=
        hmisfit _ (mark_of_not_fits h)
      have hun : unrendered := ⟨_, congrArg Answer.verdict hanswer⟩
      exact ⟨iff_of_true hun fun hall => h (hfits.mpr hall), fun _ => hanswer,
        fun hnot => absurd hun hnot⟩
  · intro hspan
    rw [hspan] at hshown
    obtain ⟨hrendered, hwritten⟩ := hshown (visible line) rfl
    exact ⟨fun ⟨message, hverdict⟩ => hrendered message hverdict, hwritten⟩

/-- A line with a character of two bytes and a space.  One span marks the last two characters, and
the other one starts inside the first character. -/
theorem text_report_marks_token_torn_character :
    let buffer : Buffer := { limit := some 80 }
    let marked : TokenReport := ⟨"c", 0, 1, "é x", some ⟨2, 4⟩, none, none⟩
    let torn : TokenReport := ⟨"c", 0, 1, "é x", some ⟨1, 2⟩, none, none⟩
    (text buffer).report [] (marked.event true) =
        ⟨bytes "[Passed]: c Line: 0 Token: 1  é[·x]\n".toList, .accepted, []⟩ ∧
      (text buffer).report [] (torn.event true) =
        ⟨[], .refused (.render "token 1..2 does not fit line of 4 bytes"), []⟩ := by
  intro buffer marked torn
  constructor
  · have hbytes : marked.blockBytes true (Span.bracketed ⟨2, 4⟩ marked.line.toList) =
        bytes "[Passed]: c Line: 0 Token: 1  é[·x]\n".toList := by decide
    obtain ⟨hspan, -⟩ := text_report_marks_token buffer [] marked true
    obtain ⟨hiff, -, hmarked⟩ := hspan ⟨2, 4⟩ rfl
    obtain ⟨-, hwritten⟩ := hmarked (mt hiff.mp (not_not_intro (by decide)))
    rw [hbytes] at hwritten
    apply hwritten
    intro limit hlimit
    cases hlimit
    decide
  · have hmisfit : Span.misfit ⟨1, 2⟩ torn.line.toList =
        .render "token 1..2 does not fit line of 4 bytes" := by decide
    obtain ⟨hspan, -⟩ := text_report_marks_token buffer [] torn true
    obtain ⟨hiff, hnothing, -⟩ := hspan ⟨1, 2⟩ rfl
    rw [hmisfit] at hnothing
    exact hnothing (hiff.mpr (by decide))

end Sink

end ScopeCheck
