import ScopeCheck.Stats
import ScopeCheck.Text.Bytes

/-!
# Tokenizers

A tokenizer assigns scopes to the tokens of one line at a time.  What it has to remember from one
line to the next is its state.

* `Token`: a span of a line, in bytes, with the scope chain assigned to it.
* `Tokenizer`: the state at the start of a text, and the step for one line.
* `Tokenizer.Call`, `Tokenizer.answer`: the calls of a tokenizer, and what they come back with.
* `Tokenizer.scripted`: the scope chains of every known line are given beforehand.
* `Tokenizer.comment`: words and block comments; its state tells whether a comment is open.
-/

namespace ScopeCheck

/-- A span of a line and its scope chain, outermost scope first.  Offsets count bytes; nothing
bounds them by the length of the line. -/
structure Token where
  start : Nat
  stop : Nat
  scopes : List String
  deriving DecidableEq, Repr

/-- A token in a document. -/
def Token.schema : Schema Token :=
  .via
    (.record "Token"
      (.required "start" (.count .word)
        (.required "end" (.count .word) (.required "scopes" (.list .text) .nil))))
    (fun (start, stop, scopes, ()) => ⟨start, stop, scopes⟩)
    (fun t => (t.start, t.stop, t.scopes, ()))

/-- The tokens of a line, and the state to go on with. -/
structure LineTokens (S : Type) where
  tokens : List Token
  next : S

/-- A tokenizer with states `S`. -/
structure Tokenizer (S : Type) where
  /-- The state at the start of a text, with no construct open. -/
  initial : S
  tokenize : String → S → LineTokens S

/-! ## Calls -/

namespace Tokenizer

variable {S : Type}

/-- A call of a tokenizer with states `S`. -/
inductive Call (S : Type) where
  /-- The tokenizer is asked for its initial state. -/
  | initial
  /-- The tokenizer is given a line and a state. -/
  | line (text : String) (state : S)
  deriving DecidableEq, Repr

/-- Whether a call asks for the initial state. -/
def Call.isInitial : Call S → Bool
  | initial => true
  | line _ _ => false

/-- What a call comes back with. -/
def Call.Answer : Call S → Type
  | initial => S
  | line _ _ => LineTokens S

/-- The answer of a tokenizer to a call. -/
def answer (tokenizer : Tokenizer S) : (call : Call S) → call.Answer
  | .initial => tokenizer.initial
  | .line text state => tokenizer.tokenize text state

end Tokenizer

/-! ## Scripts -/

/-- The chains of a line, without the root scope. -/
structure ScriptLine where
  line : String
  chains : List (List String)
  deriving DecidableEq, Repr

/-- Every token of a known line spans the whole line; an unknown line has no tokens.  Of two
entries for one line the later one counts. -/
def Tokenizer.scripted (root : String) (script : List ScriptLine) : Tokenizer Unit where
  initial := ()
  tokenize line _ :=
    match script.reverse.find? fun entry => entry.line = line with
    | some entry =>
      ⟨entry.chains.map fun chain => ⟨0, Text.byteLength line.toList, root :: chain⟩, ()⟩
    | none => ⟨[], ()⟩

/-! ## Words and block comments

Words are separated by spaces.  A block comment starts with `/*` where a word could start and ends
with the next `*/`, on the same line or on a later one. -/

namespace Comment

/-- Where in a line the scan is. -/
inductive Mode where
  /-- Between two tokens. -/
  | gap
  /-- Inside a word that starts at a byte offset. -/
  | word (start : Nat)
  /-- Inside a comment that starts at a byte offset; `star` tells that a slash would close it. -/
  | comment (start : Nat) (star : Bool)
  deriving DecidableEq, Repr

def wordToken (root : String) (start stop : Nat) : Token :=
  ⟨start, stop, [root, "word"]⟩

def commentToken (root : String) (start stop : Nat) : Token :=
  ⟨start, stop, [root, "comment.block"]⟩

/-- The tokens of the rest of a line, which starts at the byte offset `pos`, and whether a comment
is open behind it. -/
def scan (root : String) : Mode → Nat → List Char → List Token × Bool
  | .gap, _, [] => ([], false)
  | .word start, pos, [] => ([wordToken root start pos], false)
  | .comment start _, pos, [] =>
    (if start < pos then [commentToken root start pos] else [], true)
  | .gap, pos, '/' :: '*' :: cs => scan root (.comment pos false) (pos + 2) cs
  | .gap, pos, c :: cs =>
    if c = ' ' then scan root .gap (pos + 1) cs
    else scan root (.word pos) (pos + c.utf8Size) cs
  | .word start, pos, c :: cs =>
    if c = ' ' then
      let (tokens, inside) := scan root .gap (pos + 1) cs
      (wordToken root start pos :: tokens, inside)
    else scan root (.word start) (pos + c.utf8Size) cs
  | .comment start star, pos, c :: cs =>
    if star && c = '/' then
      let (tokens, inside) := scan root .gap (pos + 1) cs
      (commentToken root start (pos + 1) :: tokens, inside)
    else scan root (.comment start (c = '*')) (pos + c.utf8Size) cs

/-- The mode at the start of a line. -/
def startMode (inside : Bool) : Mode :=
  if inside then .comment 0 false else .gap

end Comment

/-- The tokenizer of words and block comments below a root scope. -/
def Tokenizer.comment (root : String) : Tokenizer Bool where
  initial := false
  tokenize line inside :=
    let (tokens, inside) := Comment.scan root (Comment.startMode inside) 0 line.toList
    ⟨tokens, inside⟩

end ScopeCheck
