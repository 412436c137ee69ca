import ScopeCheck.Case
import ScopeCheck.Schema.Text
import ScopeCheck.Schema.Tree
import ScopeCheck.Toml.Reader

/-!
# Suites

A suite is a list of cases in one text: a TOML document with a table for each case, or a JSON text
of the same shape.

* `Suite.ofToml`, `Suite.ofJson`: the two readers.
* `Suite.read`: the first of them that accepts the text.
-/

namespace ScopeCheck

/-- Why a text is no suite: the message of each reader. -/
structure SuiteError where
  toml : String
  json : String
  deriving DecidableEq, Repr

def SuiteError.message (e : SuiteError) : String :=
  "failed to parse suite as TOML (" ++ e.toml ++ ") or JSON (" ++ e.json ++ ")"

namespace Suite

/-- A suite in a document: the cases, which may be left out when there are none. -/
def schema : Schema (List Case) :=
  .via (.record "RawSuite" (.defaulted "cases" [] (.list Case.schema) .nil))
    (fun (cases, ()) => cases)
    (fun cases => (cases, ()))

/-- The cases of a TOML document. -/
def ofToml (text : List Char) : Except String (List Case) :=
  match Toml.parse text with
  | .error complaint => .error (complaint.message text)
  | .ok table =>
    match schema.ofTree table.toNode with
    | .error misfit => .error (Toml.message text misfit.span misfit.fault.message)
    | .ok cases => .ok cases

/-- The cases of a JSON text. -/
def ofJson (text : List Char) : Except String (List Case) :=
  match schema.parse text with
  | .error mistake => .error (mistake.message text)
  | .ok cases => .ok cases

/-- The cases of a text. -/
def read (text : String) : Except SuiteError (List Case) :=
  match ofToml text.toList with
  | .ok cases => .ok cases
  | .error toml =>
    match ofJson text.toList with
    | .ok cases => .ok cases
    | .error json => .error ⟨toml, json⟩

end Suite

end ScopeCheck
