import ScopeCheck.Options
import ScopeCheck.Text.Split

/-!
# Cases

A case names source lines and the scope chains expected for every token of every line.  Both parts
come in a compact form, one string, or in a structured form.

* `Compact.lines`, `Compact.rows`: the lines of a text and the rows of an expectation in compact
  form.
* `Compact.write`: the compact form of rows.
* `CaseText`, `CaseExpect`: the two parts.
* `Case`: a case as it is given, with an override of the options.
* `NormalCase`: a case with both parts in structured form, made by `Case.normalize`.
-/

namespace ScopeCheck

/-! ## The compact notation

One string describes the expected scopes of all lines: rows are separated by line breaks, the
groups of a row by bars, and the scopes of a group by single spaces.  An empty row has no group,
and an empty group no scope. -/

/-- The scopes of one token, outermost first, without the root scope of the grammar. -/
abbrev ScopeChain := List String

namespace Compact

/-- The lines of a text joined by line breaks. -/
def lines (text : String) : List String :=
  Text.pieces '\n' text

/-- The scopes of a group.  A stray space makes an empty scope, which no token has. -/
def chain (group : List Char) : ScopeChain :=
  if group.isEmpty then [] else (Text.splitOn ' ' group).map String.ofList

/-- The groups of a row. -/
def row (cs : List Char) : List ScopeChain :=
  if cs.isEmpty then [] else (Text.splitOn '|' cs).map chain

/-- The rows of a notation. -/
def rows (text : String) : List (List ScopeChain) :=
  (Text.splitOn '\n' text.toList).map row

/-- The group of a chain. -/
def writeChain (scopes : ScopeChain) : List Char :=
  Text.joinWith ' ' (scopes.map String.toList)

/-- The row of chains. -/
def writeRow (chains : List ScopeChain) : List Char :=
  Text.joinWith '|' (chains.map writeChain)

/-- The notation of rows. -/
def write (rows : List (List ScopeChain)) : String :=
  String.ofList (Text.joinWith '\n' (rows.map writeRow))

end Compact

/-! ## Cases in both forms -/

/-- The source lines of a case: already split, or joined by line breaks. -/
inductive CaseText where
  | lines (lines : List String)
  | compact (text : String)
  deriving DecidableEq, Repr

/-- The expected scopes of a case: structured rows, or the compact notation. -/
inductive CaseExpect where
  | rows (rows : List (List ScopeChain))
  | compact (text : String)
  deriving DecidableEq, Repr

/-- The source lines. -/
def CaseText.toLines : CaseText → List String
  | lines ls => ls
  | compact text => Compact.lines text

/-- The expected chains, line by line and token by token. -/
def CaseExpect.toRows : CaseExpect → List (List ScopeChain)
  | rows rs => rs
  | compact text => Compact.rows text

/-- A case as it is given. -/
structure Case where
  name : String
  text : CaseText
  expect : CaseExpect
  options : Option Override := none
  deriving DecidableEq, Repr

/-- A case with both parts in structured form.  They need not have the same number of lines. -/
structure NormalCase where
  name : String
  text : List String
  expect : List (List ScopeChain)
  deriving DecidableEq, Repr

/-- The structured form of a case, without its override. -/
def Case.normalize (c : Case) : NormalCase :=
  ⟨c.name, c.text.toLines, c.expect.toRows⟩

/-! ## Documents -/

/-- The lines of a case in a document. -/
def CaseText.schema : Schema CaseText :=
  .via (.either "CaseText" (.list .text) .text)
    (fun x => match x with
      | .inl ls => .lines ls
      | .inr text => .compact text)
    (fun x => match x with
      | .lines ls => .inl ls
      | .compact text => .inr text)

/-- The expectation of a case in a document. -/
def CaseExpect.schema : Schema CaseExpect :=
  .via (.either "CaseExpect" (.list (.list (.list .text))) .text)
    (fun x => match x with
      | .inl rs => .rows rs
      | .inr text => .compact text)
    (fun x => match x with
      | .rows rs => .inl rs
      | .compact text => .inr text)

/-- A case in a document. -/
def Case.schema : Schema Case :=
  .via
    (.record "CaseDescriptor"
      (.required "name" .text
        (.required "text" CaseText.schema
          (.required "expect" CaseExpect.schema
            (.optional "options" Override.schema .nil)))))
    (fun (name, text, expect, options, ()) => ⟨name, text, expect, options⟩)
    (fun c => (c.name, c.text, c.expect, c.options, ()))

end ScopeCheck
