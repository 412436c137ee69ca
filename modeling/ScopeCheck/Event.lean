import ScopeCheck.Stats

/-!
# Events and log records

Events are the results of a run, one by one: what became of tokens and cases, what could not be
checked, and the statistics at the end.  The log tells beside them what a run is doing.

* `Event`: an event, with `Event.kind` and `Event.name` to group and to tell them.
* `Event.toJson`: an event as a JSON object.
* `Log.Record`: a message, or the start or the end of a span of work.
* `Event.record`: an event as a message of the log.
-/

namespace ScopeCheck

/-- The bytes of a token within its line. -/
structure Span where
  start : Nat
  stop : Nat
  deriving DecidableEq, Repr

/-- The outcome at one token position. -/
structure TokenReport where
  case : String
  lineIndex : Nat
  tokenIndex : Nat
  /-- The source line that the token belongs to. -/
  line : String
  /-- Absent when no token was produced here. -/
  span : Option Span
  /-- The expected chain with the root scope; absent when nothing was expected here. -/
  expected : Option (List String)
  /-- The chain of the token; absent when no token was produced here. -/
  actual : Option (List String)
  deriving DecidableEq, Repr

/-- One result of a run. -/
inductive Event where
  | invalid (subject reason : String)
  | tokenFailed (report : TokenReport)
  | tokenPassed (report : TokenReport)
  | caseFailed (case : String) (failedTokens : Nat)
  | casePassed (case : String)
  | stats (stats : Stats)
  deriving DecidableEq, Repr

/-- The groups of events. -/
inductive EventKind where
  | invalid
  | failed
  | passed
  | stats
  deriving DecidableEq, Repr

def EventKind.name : EventKind → String
  | invalid => "invalid"
  | failed => "failed"
  | passed => "passed"
  | stats => "stats"

namespace Event

/-- The group of an event. -/
def kind : Event → EventKind
  | invalid _ _ => .invalid
  | tokenFailed _ => .failed
  | caseFailed _ _ => .failed
  | tokenPassed _ => .passed
  | casePassed _ => .passed
  | stats _ => .stats

/-- The name of an event, which no other event shares. -/
def name : Event → String
  | invalid _ _ => "invalid"
  | tokenFailed _ => "token_failed"
  | tokenPassed _ => "token_passed"
  | caseFailed _ _ => "case_failed"
  | casePassed _ => "case_passed"
  | stats _ => "stats"

end Event

/-! ## Documents -/

/-- A member that is left out when it is unset. -/
def optionalMember {α : Type} (name : String) (encode : α → Json) :
    Option α → List (String × Json)
  | some x => [(name, encode x)]
  | none => []

def Span.toJson (span : Span) : Json :=
  .obj [("start", .integer span.start), ("end", .integer span.stop)]

/-- A chain of scopes as a JSON list. -/
def chainToJson (scopes : List String) : Json :=
  .arr (scopes.map .str)

def TokenReport.members (r : TokenReport) : List (String × Json) :=
  [("case", .str r.case), ("line_index", .integer r.lineIndex),
    ("token_index", .integer r.tokenIndex), ("line", .str r.line)] ++
  optionalMember "span" Span.toJson r.span ++
  optionalMember "expected" chainToJson r.expected ++
  optionalMember "actual" chainToJson r.actual

/-- The members of an event beside its name. -/
def Event.members : Event → List (String × Json)
  | invalid subject reason => [("subject", .str subject), ("reason", .str reason)]
  | tokenFailed report => report.members
  | tokenPassed report => report.members
  | caseFailed case failedTokens =>
    [("case", .str case), ("failed_tokens", .integer failedTokens)]
  | casePassed case => [("case", .str case)]
  | stats s => s.named.map fun c => (c.1, .integer c.2)

/-- An event as a JSON object; its name stands beside its members. -/
def Event.toJson (event : Event) : Json :=
  .obj (("event", .str event.name) :: event.members)

/-! ## The log -/

namespace Log

/-- How important a message is. -/
inductive Level where
  | error
  | warn
  | info
  | debug
  deriving DecidableEq, Repr

/-- Named texts, in the order in which they are shown. -/
abbrev Fields := List (String × String)

/-- One record of the log. -/
inductive Record where
  | message (level : Level) (text : String) (fields : Fields)
  | enter (span : String) (fields : Fields)
  | leave (span : String)
  deriving DecidableEq, Repr

end Log

/-- The log record of an event. -/
def Event.record : Event → Log.Record
  | invalid subject reason => .message .error "invalid" [("subject", subject), ("reason", reason)]
  | tokenFailed r =>
    .message .warn "token failed"
      [("case", r.case), ("line", toString r.lineIndex), ("token", toString r.tokenIndex),
        ("expected", Text.quotedOption r.expected), ("actual", Text.quotedOption r.actual)]
  | tokenPassed r =>
    .message .debug "token passed"
      [("case", r.case), ("line", toString r.lineIndex), ("token", toString r.tokenIndex)]
  | caseFailed case failedTokens =>
    .message .warn "case failed" [("case", case), ("failed_tokens", toString failedTokens)]
  | casePassed case => .message .debug "case passed" [("case", case)]
  | stats s => .message .info "grammar test statistics" [("stats", s.describe)]

end ScopeCheck
