import ScopeCheck.Schema.Value

/-!
# Statistics

* `Stats`: the counters of a run.
* `Count`: what is counted.
* `Stats.add`: counts one thing.
-/

namespace ScopeCheck

/-- The counters of a run.  `cases` counts the cases that were compared; a case that was rejected
is counted in `errors`. -/
structure Stats where
  cases : Nat := 0
  passedCases : Nat := 0
  failedCases : Nat := 0
  errors : Nat := 0
  lines : Nat := 0
  passedLines : Nat := 0
  failedLines : Nat := 0
  tokens : Nat := 0
  passedTokens : Nat := 0
  failedTokens : Nat := 0
  deriving DecidableEq, Repr, Inhabited

/-- What is counted. -/
inductive Count where
  | error
  | token (passed : Bool)
  | line (passed : Bool)
  | case (passed : Bool)
  deriving DecidableEq, Repr

namespace Stats

/-- Counts one thing. -/
def add (stats : Stats) : Count → Stats
  | .error => { stats with errors := stats.errors + 1 }
  | .token true =>
    { stats with tokens := stats.tokens + 1, passedTokens := stats.passedTokens + 1 }
  | .token false =>
    { stats with tokens := stats.tokens + 1, failedTokens := stats.failedTokens + 1 }
  | .line true => { stats with lines := stats.lines + 1, passedLines := stats.passedLines + 1 }
  | .line false => { stats with lines := stats.lines + 1, failedLines := stats.failedLines + 1 }
  | .case true => { stats with cases := stats.cases + 1, passedCases := stats.passedCases + 1 }
  | .case false => { stats with cases := stats.cases + 1, failedCases := stats.failedCases + 1 }

/-- Whether a case failed or was rejected. -/
def hasFailures (stats : Stats) : Bool :=
  0 < stats.failedCases || 0 < stats.errors

/-- All counters by name, in declaration order. -/
def named (s : Stats) : List (String × Nat) :=
  [("cases", s.cases), ("passed_cases", s.passedCases), ("failed_cases", s.failedCases),
    ("errors", s.errors), ("lines", s.lines), ("passed_lines", s.passedLines),
    ("failed_lines", s.failedLines), ("tokens", s.tokens), ("passed_tokens", s.passedTokens),
    ("failed_tokens", s.failedTokens)]

/-- All counters on one line. -/
def describe (s : Stats) : String :=
  "Stats \x7b " ++
    String.intercalate ", " (s.named.map fun c => c.1 ++ ": " ++ toString c.2) ++ " \x7d"

end Stats

/-- Counters are words of 64 bits. -/
def Range.word : Range := ⟨"usize", Nat.pow 2 64⟩

/-- Statistics in a document; every counter has to be given. -/
def Stats.schema : Schema Stats :=
  .via
    (.record "Stats"
      (.required "cases" (.count .word) (.required "passed_cases" (.count .word)
        (.required "failed_cases" (.count .word) (.required "errors" (.count .word)
          (.required "lines" (.count .word) (.required "passed_lines" (.count .word)
            (.required "failed_lines" (.count .word) (.required "tokens" (.count .word)
              (.required "passed_tokens" (.count .word)
                (.required "failed_tokens" (.count .word) .nil)))))))))))
    (fun (cases, passedCases, failedCases, errors, lines, passedLines, failedLines, tokens,
        passedTokens, failedTokens, ()) =>
      ⟨cases, passedCases, failedCases, errors, lines, passedLines, failedLines, tokens,
        passedTokens, failedTokens⟩)
    (fun s => (s.cases, s.passedCases, s.failedCases, s.errors, s.lines, s.passedLines,
      s.failedLines, s.tokens, s.passedTokens, s.failedTokens, ()))

end ScopeCheck
