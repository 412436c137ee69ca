import ScopeCheck.Json.Reader

/-!
# Grammars

A grammar is a JSON document that names the root scope of everything it matches.

* `Grammar`: the document and its root scope.
* `Files`: what reading a file comes to; nothing else is known of files here.
* `GrammarSource`: where a grammar comes from, a path or the document itself.
* `LoadError`: why a grammar cannot be used.
-/

namespace ScopeCheck

/-- Why a grammar cannot be used. -/
inductive LoadError where
  | unreadable (path message : String)
  | malformed (message : String)
  | missingScopeName
  /-- The backend that builds tokenizers does not accept the grammar. -/
  | rejected (scopeName : String) (message : String)
  deriving DecidableEq, Repr

/-- The wording of an error. -/
def LoadError.message : LoadError → String
  | unreadable path message => "cannot read grammar " ++ path ++ ": " ++ message
  | malformed message => "malformed grammar document: " ++ message
  | missingScopeName => "grammar document has no string `scopeName`"
  | rejected scopeName message =>
    "tokenizer backend rejected grammar `" ++ scopeName ++ "`: " ++ message

/-- A grammar document and its root scope. -/
structure Grammar where
  /-- The scope that every expected chain starts with. -/
  scopeName : String
  document : Json

namespace Grammar

/-- The grammar of a document, which has to be an object with a text as `scopeName`. -/
def ofDocument (document : Json) : Except LoadError Grammar :=
  match (document.member? "scopeName").bind Json.str? with
  | some scopeName => .ok ⟨scopeName, document⟩
  | none => .error .missingScopeName

/-- The grammar of a JSON text. -/
def ofText (text : String) : Except LoadError Grammar :=
  match Json.parse text.toList with
  | .ok document => ofDocument document
  | .error stop => .error (.malformed (stop.message text.toList))

end Grammar

/-! ## Files -/

/-- How files are read: the bytes at a path, or the wording of the error. -/
abbrev Files := String → Except String (List UInt8)

/-- The text that bytes are the UTF-8 form of. -/
def textOfBytes? (bytes : List UInt8) : Option String :=
  String.fromUTF8? ⟨bytes.toArray⟩

/-- The text of the file at a path. -/
def Files.readText (files : Files) (path : String) : Except String String :=
  match files path with
  | .error message => .error message
  | .ok content =>
    match textOfBytes? content with
    | some text => .ok text
    | none => .error "stream did not contain valid UTF-8"

/-! ## Sources -/

/-- Where a grammar comes from. -/
inductive GrammarSource where
  /-- A file that holds the document. -/
  | named (path : String)
  /-- The text of the document. -/
  | inline (text : String)
  deriving DecidableEq, Repr

namespace GrammarSource

/-- A text as a source: the document itself, or its path. -/
def ofText (text : String) (isDocument : Bool) : GrammarSource :=
  if isDocument then .inline text else .named text

/-- The text of a source as it was given. -/
def text : GrammarSource → String
  | named path => path
  | inline text => text

/-- What a source is called in a message. -/
def describe : GrammarSource → String
  | named path => path
  | inline _ => "<inline grammar>"

/-- The grammar of a source. -/
def load (files : Files) : GrammarSource → Except LoadError Grammar
  | inline text => Grammar.ofText text
  | named path =>
    match files.readText path with
    | .ok text => Grammar.ofText text
    | .error message => .error (.unreadable path message)

end GrammarSource

end ScopeCheck
