import ScopeCheck.Sink
import ScopeCheck.Text.Bytes
import ScopeCheck.Text.Split

/-!
# Events as text

Every event has a block of text.  The block of a token shows its line with the token in brackets
and every space as a dot.

* `mark`: the marked line.
* `Event.block`: the block of an event; an event whose span does not fit its line has none.
* `Sink.text`: appends the blocks to a buffer of limited size.
-/

namespace ScopeCheck

/-- A text with its spaces made visible. -/
def visible (cs : List Char) : List Char :=
  cs.map fun c => if c = ' ' then '·' else c

/-- The three parts of a line around a span.  Both ends of the span have to fall between two
characters, in order. -/
def Span.parts? (span : Span) (line : List Char) :
    Option (List Char × List Char × List Char) :=
  if span.stop < span.start then none
  else
    match Text.cutAt span.start line with
    | none => none
    | some (before, rest) =>
      match Text.cutAt (span.stop - span.start) rest with
      | none => none
      | some (middle, after) => some (before, middle, after)

/-- The refusal of a span that does not fit its line. -/
def Span.misfit (span : Span) (line : List Char) : SinkError :=
  .render ("token " ++ toString span.start ++ ".." ++ toString span.stop ++
    " does not fit line of " ++ toString (Text.byteLength line) ++ " bytes")

/-- The line of a token, with the token in brackets. -/
def mark (line : List Char) : Option Span → Except SinkError (List Char)
  | none => .ok (visible line)
  | some span =>
    match span.parts? line with
    | some (before, middle, after) =>
      .ok (visible before ++ '[' :: (visible middle ++ ']' :: visible after))
    | none => .error (span.misfit line)

/-- A chain of scopes on one line. -/
def chainText : Option (List String) → String
  | some scopes => Text.joined ' ' scopes
  | none => "undefined"

/-- Where a token stands. -/
def TokenReport.place (r : TokenReport) : String :=
  r.case ++ " Line: " ++ toString r.lineIndex ++ " Token: " ++ toString r.tokenIndex

/-- The block of an event. -/
def Event.block : Event → Except SinkError String
  | invalid subject reason => .ok ("[INVALID]: " ++ subject ++ " " ++ reason ++ "\n")
  | tokenFailed r =>
    match mark r.line.toList r.span with
    | .error e => .error e
    | .ok marked => .ok ("\n[Failed]: " ++ r.place ++ "\n\n      " ++ String.ofList marked ++
        "\n\n      Expected: " ++ chainText r.expected ++
        "\n      Received: " ++ chainText r.actual ++ "\n\n")
  | tokenPassed r =>
    match mark r.line.toList r.span with
    | .error e => .error e
    | .ok marked => .ok ("[Passed]: " ++ r.place ++ "  " ++ String.ofList marked ++ "\n")
  | caseFailed case failedTokens =>
    .ok ("[Failed]: " ++ case ++ " (" ++ toString failedTokens ++ " mismatched)\n")
  | casePassed case => .ok ("[Passed]: " ++ case ++ "\n")
  | stats s =>
    .ok ("cases: " ++ toString s.passedCases ++ " passed, " ++ toString s.failedCases ++
      " failed, " ++ toString s.errors ++ " invalid\n" ++
      "lines: " ++ toString s.passedLines ++ " passed, " ++ toString s.failedLines ++
      " failed\n" ++
      "tokens: " ++ toString s.passedTokens ++ " passed, " ++ toString s.failedTokens ++
      " failed\n")

/-! ## The buffer -/

/-- A buffer that holds at most `limit` bytes, and what writing beyond that fails with. -/
structure Buffer where
  limit : Option Nat := none
  failure : String := "failed to write whole buffer"

/-- Writes bytes behind those written already.  What fits is kept even when not all does. -/
def Buffer.write (buffer : Buffer) (written bytes : List UInt8) : List UInt8 × Bool :=
  match buffer.limit with
  | none => (written ++ bytes, true)
  | some limit =>
    let room := limit - written.length
    if bytes.length ≤ room then (written ++ bytes, true)
    else (written ++ bytes.take room, false)

namespace Sink

/-- Appends the block of every event to a buffer; the states are the bytes written. -/
def text (buffer : Buffer) : Sink (List UInt8) where
  report written event :=
    match event.block with
    | .error e => ⟨written, .refused e, []⟩
    | .ok block =>
      match buffer.write written (Text.bytes block.toList) with
      | (written, true) => ⟨written, .accepted, []⟩
      | (written, false) => ⟨written, .refused (.io buffer.failure), []⟩

/-- An event without a block is refused before anything is written. -/
theorem text_report_of_no_block {buffer : Buffer} {written : List UInt8} {event : Event}
    {error : SinkError} (h : event.block = .error error) :
    (text buffer).report written event = ⟨written, .refused error, []⟩ := by
  simp only [text, h]

end Sink

end ScopeCheck
