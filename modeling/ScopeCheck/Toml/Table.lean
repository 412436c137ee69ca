import ScopeCheck.Toml.Basic

/-!
# Filling TOML tables

Headers and dotted keys name tables by paths.  A path may not pass through a value that is no
table, and a table that has been defined may not be defined again.

* `Clash`: an addition that the document does not allow.
* `Table.reach`: changes the table at the end of a path.
* `Table.put`: adds an entry.
* `Outline`: a document up to some line, with `Outline.header`, `Outline.arrayHeader` and
  `Outline.entry` for the three kinds of lines.
-/

namespace ScopeCheck.Toml

/-- An addition that the document does not allow. -/
inductive Clash where
  /-- A key that is there already; the path of its table is told where it has a header. -/
  | duplicate (key : String) (table : Option (List String))
  /-- A path through a value that is no table. -/
  | notTable (path : List String) (kind : String)
  deriving DecidableEq, Repr

/-- The wording of a clash. -/
def Clash.message : Clash → String
  | duplicate key none => "duplicate key `" ++ key ++ "`"
  | duplicate key (some []) => "duplicate key `" ++ key ++ "` in document root"
  | duplicate key (some path) =>
    "duplicate key `" ++ key ++ "` in table `" ++ String.intercalate "." path ++ "`"
  | notTable path kind =>
    "dotted key `" ++ String.intercalate "." path ++ "` attempted to extend non-table type (" ++
      kind ++ ")"

namespace Table

/-- The value of a key. -/
def find? (table : Table) (name : String) : Option Node :=
  (table.entries.find? fun e => e.1.name = name).map Prod.snd

/-- Adds an entry at the end. -/
def append (table : Table) (key : Key) (node : Node) : Table :=
  { table with entries := table.entries ++ [(key, node)] }

/-- Sets the value of a key that is there, in its place. -/
def replace (table : Table) (name : String) (node : Node) : Table :=
  { table with entries := table.entries.map fun e => if e.1.name = name then (e.1, node) else e }

/-- Takes a key away. -/
def remove (table : Table) (name : String) : Table :=
  { table with entries := table.entries.filter fun e => e.1.name ≠ name }

def toNode (table : Table) : Node :=
  .table table.style table.entries

/-- Changes the table at the end of a path and makes the tables on the way that are not there.
`dotted` tells a dotted key from a header: a dotted key may not enter a table that has its own
definition.  Of an array of tables, the last one is entered. -/
def reach {α : Type} (dotted : Bool) (change : Table → Except Clash (Table × α)) :
    List String → List Key → Table → Except Clash (Table × α)
  | _, [], table => change table
  | walked, key :: path, table =>
    let walked := walked ++ [key.name]
    match table.find? key.name with
    | none => do
      let style : Style := ⟨none, true, dotted, table.style.inline⟩
      let (child, x) ← reach dotted change walked path ⟨style, []⟩
      return (table.append key child.toNode, x)
    | some (.table style entries) =>
      if style.inline && !table.style.inline then .error (.notTable walked "inline table")
      else if dotted && !style.implicit then .error (.duplicate key.name none)
      else do
        let (child, x) ← reach dotted change walked path ⟨style, entries⟩
        return (table.replace key.name child.toNode, x)
    | some (.tables items) =>
      match items.getLast? with
      | none => .error (.duplicate key.name none)
      | some (style, entries) => do
        let (child, x) ← reach dotted change walked path ⟨style, entries⟩
        return (table.replace key.name
          (.tables (items.dropLast ++ [(child.style, child.entries)])), x)
    | some node => .error (.notTable walked node.kind)

/-- Adds an entry under a dotted key.  `owner` is the path of the table, where it has one. -/
def put (table : Table) (owner : Option (List String)) (path : List Key) (key : Key)
    (node : Node) : Except Clash Table := do
  let change (target : Table) : Except Clash (Table × Unit) :=
    if target.style.dotted = path.isEmpty then .error (.duplicate key.name none)
    else if (target.find? key.name).isSome then .error (.duplicate key.name owner)
    else .ok (target.append key node, ())
  let (table, ()) ← reach true change [] path table
  return table

end Table

/-! ## The lines of a document -/

/-- A document up to some line: the finished part, and the table of the last header. -/
structure Outline where
  root : Table := {}
  current : Table := {}
  /-- The path of the last header; empty before the first. -/
  path : List Key := []
  /-- The last header was that of an array of tables. -/
  inArray : Bool := false

namespace Outline

def names (path : List Key) : List String :=
  path.map Key.name

/-- Adds an entry to the table of the last header. -/
def entry (outline : Outline) (path : List Key) (key : Key) (node : Node) :
    Except Clash Outline := do
  let table ← outline.current.put (some (names outline.path)) path key node
  let span := match table.style.span, node.span? with
    | some header, some value => some ⟨header.start, value.stop⟩
    | span, _ => span
  return { outline with current := { table with style := { table.style with span } } }

/-- Files the table of the last header under its path. -/
def finish (outline : Outline) : Except Clash Table :=
  match outline.path.getLast? with
  | none => .ok outline.current
  | some key => do
    let file (parent : Table) : Except Clash (Table × Unit) :=
      match parent.find? key.name with
      | some (.tables items) =>
        if outline.inArray then
          .ok (parent.replace key.name
            (.tables (items ++ [(outline.current.style, outline.current.entries)])), ())
        else .error (.duplicate key.written (some (names outline.path.dropLast)))
      | some _ => .error (.duplicate key.written (some (names outline.path.dropLast)))
      | none => .ok (parent.append key outline.current.toNode, ())
    let (root, ()) ← outline.root.reach false file [] outline.path.dropLast
    return root

/-- Starts the table of a header.  The table may be there already when longer headers made it. -/
def header (outline : Outline) (path : List Key) (key : Key) (span : Extent) :
    Except Clash Outline := do
  let root ← outline.finish
  let take (parent : Table) : Except Clash (Table × List (Key × Node)) :=
    match parent.find? key.name with
    | none => .ok (parent, [])
    | some (.table style entries) =>
      if style.implicit && !style.dotted && !style.inline then
        .ok (parent.remove key.name, entries)
      else .error (.duplicate key.written (some (names path)))
    | some _ => .error (.duplicate key.written (some (names path)))
  let (root, entries) ← root.reach false take [] path
  return ⟨root, ⟨{ span := some span }, entries⟩, path ++ [key], false⟩

/-- Starts another table of an array of tables. -/
def arrayHeader (outline : Outline) (path : List Key) (key : Key) (span : Extent) :
    Except Clash Outline := do
  let root ← outline.finish
  let take (parent : Table) : Except Clash (Table × Unit) :=
    match parent.find? key.name with
    | none => .ok (parent.append key (.tables []), ())
    | some (.tables _) => .ok (parent, ())
    | some _ => .error (.duplicate key.written (some (names path)))
  let (root, ()) ← root.reach false take [] path
  return ⟨root, ⟨{ span := some span }, []⟩, path ++ [key], true⟩

end Outline

end ScopeCheck.Toml
