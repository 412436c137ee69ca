import ScopeCheck.Decimal

/-!
# TOML trees

A TOML document is a tree of tables, arrays and scalars.  Every part knows the bytes of the text
that it was written with, and a table knows how it came about, since that decides what may still
be added to it.

* `Extent`, `Key`, `Scalar`, `Style`: the parts.
* `Key.written`: the name of a key as a document writes it.
* `Node`: a value of the tree, and `Table`: a table that is being filled.
-/

namespace ScopeCheck.Toml

open ScopeCheck.Decimal (Binary64)

/-- The bytes from `start` up to `stop`. -/
structure Extent where
  start : Nat
  stop : Nat
  deriving DecidableEq, Repr

/-- One part of a key. -/
structure Key where
  name : String
  span : Extent
  deriving DecidableEq, Repr

/-- What a bare key is made of. -/
def isBareChar (c : Char) : Bool :=
  c.isAlphanum || c = '-' || c = '_'

/-- How one character of a key is written between double quotes. -/
def quotedKeyChar (c : Char) : List Char :=
  if c = '\"' then ['\\', '\"']
  else if c = '\\' then ['\\', '\\']
  else if c = '\x08' then ['\\', 'b']
  else if c = '\t' then ['\\', 't']
  else if c = '\n' then ['\\', 'n']
  else if c = '\x0C' then ['\\', 'f']
  else if c = '\r' then ['\\', 'r']
  else if c.toNat < 0x20 || c.toNat = 0x7F then
    ['\\', 'u', '0', '0'] ++
      (Nat.toDigits 16 (c.toNat / 16) ++ Nat.toDigits 16 (c.toNat % 16)).map Char.toUpper
  else [c]

/-- The name of a key as it is written in a document: bare when it can be, then between double
quotes without an escape, then between single quotes, and with escapes when nothing else does. -/
def Key.written (key : Key) : String :=
  let cs := key.name.toList
  let control := cs.any fun c => c ≠ '\t' && (c.toNat < 0x20 || c.toNat = 0x7F)
  let plain := !control && !cs.contains '\"' && !cs.contains '\\'
  if !cs.isEmpty && cs.all isBareChar then key.name
  else if !plain && !control && !cs.contains '\'' then
    String.ofList ('\'' :: cs ++ ['\''])
  else String.ofList ('\"' :: cs.flatMap quotedKeyChar ++ ['\"'])

/-- A value that holds no other values. -/
inductive Scalar where
  | string (value : String)
  | integer (value : Int)
  | float (value : Binary64)
  | boolean (value : Bool)
  /-- A date, a time, or both. -/
  | moment
  deriving DecidableEq, Repr

/-- How a table came about. -/
structure Style where
  /-- The bytes of its header, or of the braces it stands between. -/
  span : Option Extent := none
  /-- Made on the way to a table with a longer name. -/
  implicit : Bool := false
  /-- Made by a dotted key. -/
  dotted : Bool := false
  /-- Made inside braces. -/
  inline : Bool := false
  deriving DecidableEq, Repr

/-- A value of the tree.  Entries stand in the order in which their keys were first used. -/
inductive Node where
  | scalar (value : Scalar) (span : Extent)
  | array (items : List Node) (span : Extent)
  | table (style : Style) (entries : List (Key × Node))
  /-- The tables of an array of tables, each with its own header. -/
  | tables (items : List (Style × List (Key × Node)))

/-- A table that is being filled. -/
structure Table where
  style : Style := {}
  entries : List (Key × Node) := []

/-- What a value is called in a message. -/
def Node.kind : Node → String
  | scalar (.string _) _ => "string"
  | scalar (.integer _) _ => "integer"
  | scalar (.float _) _ => "float"
  | scalar (.boolean _) _ => "boolean"
  | scalar .moment _ => "datetime"
  | array _ _ => "array"
  | table style _ => if style.inline then "inline table" else "table"
  | tables _ => "array of tables"

/-- The bytes that a value was written with, where they are known. -/
def Node.span? : Node → Option Extent
  | scalar _ span => some span
  | array _ span => some span
  | table style _ => style.span
  | tables items =>
    match items.head?, items.getLast? with
    | some first, some last =>
      match first.1.span, last.1.span with
      | some a, some b => some ⟨a.start, b.stop⟩
      | _, _ => none
    | _, _ => none

end ScopeCheck.Toml
