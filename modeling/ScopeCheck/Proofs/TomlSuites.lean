import ScopeCheck.Proofs.Decoding
import ScopeCheck.Proofs.TomlText
import ScopeCheck.Suite

/-!
# TOML suites

A suite is written with a header for each case and a line for each of its parts.  This module says
that every list of cases can be written so, and is read back from there.

* `Toml.writeTables`: tables under one header, an entry on each line.
* `Toml.parse_writeTables`: they are read as an array of tables that hold them.
* `Schema.ReadsToml`: a schema reads the values of the tree that hold what was written under it.
* `Suite.read_writeToml`: a suite comes back from its TOML text.
-/

namespace ScopeCheck

namespace Toml

variable {name : String}

/-! ## Lines -/

/-- A table under its header. -/
def writeTable (header : String) (members : List (String × Json)) : List Char :=
  '[' :: '[' :: (header.toList ++ ']' :: ']' :: '\n' ::
    members.flatMap fun m => writeEntry m ++ ['\n'])

/-- Tables one after the other, each under the same header. -/
def writeTables (header : String) (tables : List (List (String × Json))) : List Char :=
  tables.flatMap (writeTable header)

/-- An outline inside the last of the tables under one header: those that are done, and what the
last one holds so far. -/
inductive InTable (name : String) (done : List (List (String × Json)))
    (members : List (String × Json)) : Outline → Prop
  | intro {first last : Key} {items : List (Style × List (Key × Node))} {style : Style}
      {entries : List (Key × Node)} (first_name : first.name = name) (last_name : last.name = name)
      (plain : style.dotted = false)
      (items_hold : List.Forall₂ (fun members item => List.Forall₂ HoldsEntry members item.2)
        done items)
      (entries_hold : List.Forall₂ HoldsEntry members entries) :
      InTable name done members
        ⟨⟨{}, [(first, .tables items)]⟩, ⟨style, entries⟩, [last], true⟩

/-- An outline in which all there is are tables under one header. -/
inductive Filed (name : String) : List (List (String × Json)) → Outline → Prop
  | start : Filed name [] {}
  | table {done : List (List (String × Json))} {members : List (String × Json)} {outline : Outline}
      (inside : InTable name done members outline) : Filed name (done ++ [members]) outline

/-- The last table is filed with the others. -/
theorem InTable.finish {done : List (List (String × Json))} {members : List (String × Json)}
    {outline : Outline} (h : InTable name done members outline) :
    ∃ first items, outline.finish = .ok ⟨{}, [(first, .tables items)]⟩ ∧ first.name = name ∧
      List.Forall₂ (fun members item => List.Forall₂ HoldsEntry members item.2)
        (done ++ [members]) items := by
  cases h with
  | @intro first last items style entries hfirst hlast _ hitems hentries =>
    refine ⟨first, items ++ [(style, entries)], ?_, hfirst, ?_⟩
    · simp [Outline.finish, Table.reach, Table.find?, Table.replace, hfirst, hlast, bind,
        Except.bind, pure, Except.pure]
    · exact List.rel_append hitems (.cons hentries .nil)

/-- A header starts another table. -/
theorem Filed.arrayHeader {done : List (List (String × Json))} {outline : Outline}
    (h : Filed name done outline) {key : Key} (hkey : key.name = name) (span : Extent) :
    ∃ next, outline.arrayHeader [] key span = .ok next ∧ InTable name done [] next := by
  cases h with
  | start => exact ⟨_, rfl, .intro hkey hkey rfl .nil .nil⟩
  | table inside =>
    obtain ⟨first, items, hfinish, hfirst, hitems⟩ := inside.finish
    refine ⟨⟨_, ⟨{ span := some span }, []⟩, [key], true⟩, ?_,
      .intro hfirst hkey rfl hitems .nil⟩
    simp [Outline.arrayHeader, hfinish, Table.reach, Table.find?, hfirst, hkey, bind, Except.bind,
      pure, Except.pure]

/-- An entry changes the table of the last header, and how far that reaches. -/
theorem Outline.entry_of_put (outline : Outline) {path : List Key} {key : Key} {node : Node}
    {table : Table}
    (h : outline.current.put (some (names outline.path)) path key node = .ok table) :
    ∃ span, outline.entry path key node =
      .ok { outline with current := ⟨{ table.style with span }, table.entries⟩ } := by
  unfold entry
  rw [h]
  exact ⟨_, rfl⟩

/-- An entry with a new name goes to the end of the last table. -/
theorem InTable.entry {done : List (List (String × Json))} {members : List (String × Json)}
    {outline : Outline} (h : InTable name done members outline) {m : String × Json}
    (hnew : m.1 ∉ members.map Prod.fst) {key : Key} {node : Node} (hm : HoldsEntry m (key, node)) :
    ∃ next, outline.entry [] key node = .ok next ∧ InTable name done (members ++ [m]) next := by
  cases h with
  | @intro first last items style entries hfirst hlast hplain hitems hentries =>
    have habsent : key.name ∉ entries.map fun e => e.1.name := by
      rw [names_eq_of_holdsEntry hentries, hm.1]
      exact hnew
    let outline : Outline := ⟨⟨{}, [(first, .tables items)]⟩, ⟨style, entries⟩, [last], true⟩
    obtain ⟨span, hentry⟩ := outline.entry_of_put (Table.put_new hplain habsent _ node)
    exact ⟨_, hentry, .intro hfirst hlast hplain hitems (List.rel_append hentries (.cons hm .nil))⟩

/-- A line ends at a line break. -/
theorem readLineRest_newline (reason : String) (rest : List Char) (offset : Nat) :
    readLineRest reason ⟨'\n' :: rest, offset⟩ = .ok ⟨rest, offset + 1⟩ := by
  have hline : isBlank '\n' = false := rfl
  rw [readLineRest, skipBlank_cons hline]
  rfl

/-- A header line starts another table. -/
theorem readHeaderLine_writeTable {done : List (List (String × Json))} {outline : Outline}
    (h : Filed name done outline) (hname : Bare name) (fuel : Nat) (rest : List Char)
    (offset : Nat) :
    Leaves rest (InTable name done [])
      (readHeaderLine fuel outline
        ⟨'[' :: '[' :: (name.toList ++ ']' :: ']' :: '\n' :: rest), offset⟩) := by
  have hbracket : isBlank ']' = false := rfl
  have hend : isBareChar ']' = false := rfl
  obtain ⟨key, stop, hkey, hnamed⟩ := readKey_bare hname hend
    (']' :: '\n' :: rest) (fun offset => by
      rw [skipBlank_cons hbracket]
      simp [Cursor.peek?]) fuel (offset + '['.utf8Size + '['.utf8Size)
  rw [skipBlank_cons hbracket] at hkey
  obtain ⟨next, hheader, hnext⟩ :=
    h.arrayHeader hnamed ⟨offset, stop + ']'.utf8Size + ']'.utf8Size⟩
  refine ⟨next, stop + ']'.utf8Size + ']'.utf8Size + 1, ?_, hnext⟩
  have hopen : (Cursor.mk ('[' :: '[' :: (name.toList ++ ']' :: ']' :: '\n' :: rest)) offset).word?
      ['[', '['] = some ⟨name.toList ++ ']' :: ']' :: '\n' :: rest,
        offset + '['.utf8Size + '['.utf8Size⟩ := rfl
  have hclose : (Cursor.mk (']' :: ']' :: '\n' :: rest) stop).word? [']', ']'] =
      some ⟨'\n' :: rest, stop + ']'.utf8Size + ']'.utf8Size⟩ := rfl
  unfold readHeaderLine
  simp [hopen, hkey, hclose, readLineRest_newline, hheader, settle, Cursor.next, bind, Except.bind,
    pure, Except.pure]

/-- An entry line goes to the end of the last table. -/
theorem readEntryLine_writeEntry {done : List (List (String × Json))}
    {members : List (String × Json)} {outline : Outline} (h : InTable name done members outline)
    {m : String × Json} (hbare : Bare m.1) (hnew : m.1 ∉ members.map Prod.fst) {depth : Nat}
    (hplain : Plain depth m.2) (hdepth : depth < depthLimit) {fuel : Nat}
    (hfuel : (write m.2).length < fuel) (rest : List Char) (offset : Nat) :
    Leaves rest (InTable name done (members ++ [m]))
      (readEntryLine fuel outline ⟨writeEntry m ++ '\n' :: rest, offset⟩) := by
  obtain ⟨key, sign, hkey, hnamed⟩ := readKey_writeEntry hbare ('\n' :: rest) fuel offset
  have hlevel : 0 + depth < depthLimit := by omega
  have hline : ('\n' :: rest).head? ≠ some '\"' := by simp
  obtain ⟨node, stop, hread, hnode⟩ :=
    readValue_write hplain hfuel hlevel hline (sign + '='.utf8Size + 1)
  have hholds : HoldsEntry m (key, node) := ⟨hnamed, hnode⟩
  obtain ⟨next, hentry, hnext⟩ := h.entry hnew hholds
  refine ⟨next, stop + 1, ?_, hnext⟩
  unfold readEntryLine
  simp [hkey, Cursor.peek?, Cursor.next, skipBlank_write hplain.headed, hread, readLineRest_newline,
    hentry, settle, bind, Except.bind, pure, Except.pure]

/-! ## Documents -/

/-- What may be written as the entries of a table. -/
structure Entries (members : List (String × Json)) : Prop where
  names : (members.map Prod.fst).Nodup
  bare : ∀ m ∈ members, Bare m.1
  plain : ∀ m ∈ members, ∃ depth < depthLimit, Plain depth m.2

theorem Plain.entries {depth : Nat} {members : List (String × Json)}
    (h : Plain depth (.obj members)) (hdepth : depth ≤ depthLimit) : Entries members := by
  cases h with
  | map names bare values => exact ⟨names, bare, fun m hm => ⟨_, hdepth, values m hm⟩⟩

/-- A line that starts like a bare key is an entry. -/
theorem readLines_bare {c : Char} (hc : isBareChar c) (fuel : Nat) (outline : Outline)
    (cs : List Char) (offset : Nat) :
    readLines (fuel + 1) outline ⟨c :: cs, offset⟩ =
      (readEntryLine fuel outline ⟨c :: cs, offset⟩ >>= fun line =>
        readLines fuel line.1 line.2) := by
  have hne {d : Char} (hd : isBareChar d = false) : ¬ c = d := by
    rintro rfl
    rw [hd] at hc
    cases hc
  have hhash : ¬ c = '#' := hne (by decide)
  have hopen : ¬ c = '[' := hne (by decide)
  have hline : ¬ c = '\n' := hne (by decide)
  have hreturn : ¬ c = '\r' := hne (by decide)
  rw [readLines, skipBlank_cons (isBlank_of_isBareChar hc)]
  simp [Cursor.peek?, hhash, hopen, hline, hreturn]

/-- The lines of a table are read one after the other, and there is fuel for what is behind them. -/
theorem readLines_entries {done : List (List (String × Json))}
    {members more : List (String × Json)} {outline : Outline}
    (h : InTable name done members outline) (hentries : Entries (members ++ more))
    {rest : List Char} {fuel : Nat}
    (hfuel : ((more.flatMap fun m => writeEntry m ++ ['\n']) ++ rest).length < fuel)
    (offset : Nat) :
    ∃ left next stop, rest.length < left ∧ InTable name done (members ++ more) next ∧
      readLines fuel outline ⟨(more.flatMap fun m => writeEntry m ++ ['\n']) ++ rest, offset⟩ =
        readLines left next ⟨rest, stop⟩ := by
  induction more generalizing members outline fuel offset with
  | nil => exact ⟨fuel, outline, offset, hfuel, (List.append_nil members).symm ▸ h, rfl⟩
  | cons m more ih =>
    have hm : m ∈ members ++ m :: more := List.mem_append_right _ List.mem_cons_self
    have hbare := hentries.bare m hm
    obtain ⟨depth, hdepth, hplain⟩ := hentries.plain m hm
    have hnew : m.1 ∉ members.map Prod.fst := by
      have hnames := hentries.names
      rw [List.map_append, List.map_cons] at hnames
      exact fun hmem => (List.nodup_append.mp hnames).2.2 _ hmem _ List.mem_cons_self rfl
    have hvalue : (write m.2).length < (writeEntry m).length := by
      simp only [writeEntry, List.length_append, List.length_cons]
      omega
    simp only [List.flatMap_cons, List.append_assoc, List.length_append, List.singleton_append,
      List.length_cons] at hfuel ih ⊢
    cases fuel with
    | zero => omega
    | succ fuel =>
      have hroom : (write m.2).length < fuel := by omega
      obtain ⟨line, stop, hline, hnext⟩ := readEntryLine_writeEntry h hbare hnew hplain hdepth
        hroom ((more.flatMap fun m => writeEntry m ++ ['\n']) ++ rest) offset
      rw [List.append_cons] at hentries
      have hfuel' : (more.flatMap fun m => writeEntry m ++ ['\n']).length + rest.length < fuel := by
        omega
      obtain ⟨left, next, last, hleft, hinside, hlines⟩ := ih hnext hentries hfuel' stop
      rw [← List.append_cons] at hinside
      refine ⟨left, next, last, hleft, hinside, ?_⟩
      obtain ⟨c, cs, hc, hfirst⟩ := hbare.head
      rw [← hlines]
      simp only [writeEntry, hc, List.cons_append, List.append_assoc] at hline ⊢
      rw [readLines_bare hfirst, hline]
      rfl

/-- The tables of a document are read one after the other. -/
theorem readLines_tables (hname : Bare name) {done tables : List (List (String × Json))}
    {outline : Outline} (h : Filed name done outline) (htables : ∀ t ∈ tables, Entries t)
    {fuel : Nat} (hfuel : (writeTables name tables).length < fuel) (offset : Nat) :
    ∃ last, readLines fuel outline ⟨writeTables name tables, offset⟩ = .ok last ∧
      Filed name (done ++ tables) last := by
  induction tables generalizing done outline fuel offset with
  | nil =>
    obtain ⟨fuel, rfl⟩ := Nat.exists_eq_add_of_lt hfuel
    exact ⟨outline, rfl, (List.append_nil done).symm ▸ h⟩
  | cons members tables ih =>
    obtain ⟨hmembers, htables⟩ := List.forall_mem_cons.mp htables
    have htext : writeTables name (members :: tables) =
        '[' :: '[' :: (name.toList ++ ']' :: ']' :: '\n' ::
          ((members.flatMap fun m => writeEntry m ++ ['\n']) ++ writeTables name tables)) := by
      simp [writeTables, writeTable]
    rw [htext] at hfuel ⊢
    simp only [List.length_cons, List.length_append] at hfuel
    cases fuel with
    | zero => omega
    | succ fuel =>
      obtain ⟨inside, start, hheader, hinside⟩ := readHeaderLine_writeTable h hname fuel
        ((members.flatMap fun m => writeEntry m ++ ['\n']) ++ writeTables name tables) offset
      have hroom : ((members.flatMap fun m => writeEntry m ++ ['\n']) ++
          writeTables name tables).length < fuel := by
        rw [List.length_append]
        omega
      obtain ⟨left, next, stop, hleft, hnext, hlines⟩ :=
        readLines_entries hinside hmembers hroom start
      obtain ⟨last, hlast, hfiles⟩ := ih (.table hnext) htables hleft stop
      refine ⟨last, ?_, by simpa using hfiles⟩
      have hopen : isBlank '[' = false := rfl
      rw [readLines, skipBlank_cons hopen]
      simp [Cursor.peek?, hheader, hlines, hlast, bind, Except.bind]

/-- The tables under one header are filed as an array of tables. -/
theorem Filed.finish {tables : List (List (String × Json))} {outline : Outline}
    (h : Filed name tables outline) (hne : tables ≠ []) :
    ∃ table, outline.finish = .ok table ∧
      Holds (.obj [(name, .arr (tables.map .obj))]) table.toNode := by
  cases h with
  | start => exact absurd rfl hne
  | table inside =>
    obtain ⟨first, items, hfinish, hfirst, hitems⟩ := inside.finish
    refine ⟨_, hfinish, holds_table_iff.mpr (.cons ⟨hfirst, .tables ?_⟩ .nil)⟩
    rw [List.forall₂_map_left_iff, List.forall₂_map_right_iff]
    exact hitems.imp fun _ _ hitem => holds_table_iff.mpr hitem

/-- A document of tables under one header is read as the list of these tables. -/
theorem parse_writeTables (hname : Bare name) {tables : List (List (String × Json))}
    (htables : ∀ t ∈ tables, Entries t) (hne : tables ≠ []) :
    ∃ table, parse (writeTables name tables) = .ok table ∧
      Holds (.obj [(name, .arr (tables.map .obj))]) table.toNode := by
  have hfuel : (writeTables name tables).length < 2 * (writeTables name tables).length + 2 := by
    omega
  obtain ⟨last, hlines, hfiles⟩ := readLines_tables hname .start htables hfuel 0
  obtain ⟨table, hfinish, htable⟩ := hfiles.finish hne
  have hmark : (Cursor.mk (writeTables name tables) 0).word? ['\uFEFF'] = none := by
    obtain ⟨members, tables, rfl⟩ := List.exists_cons_of_ne_nil hne
    rfl
  refine ⟨table, ?_, htable⟩
  unfold parse
  simp [hmark, hlines, hfinish, settle, bind, Except.bind]

end Toml

/-! ## What is read from a tree -/

open Toml (Key Node Holds HoldsEntry Plain Bare)

variable {α β : Type} {ts : List Type} {depth : Nat}

/-- What is written under a schema can be written in TOML, and is read from every value of the tree
that holds it. -/
structure Schema.ReadsToml (schema : Schema α) (depth : Nat) : Prop where
  plain : ∀ x, Plain depth (schema.encode x)
  ofTree : ∀ {x node}, Holds (schema.encode x) node → schema.ofTree node = .ok x

/-- What a field makes of the value of its entry. -/
def Field.ofTree : {β : Type} → Field β → Node → Except Misfit β
  | _, .required _ item => item.ofTree
  | _, .defaulted _ _ item => item.ofTree
  | _, .optional _ item => present item.ofTree

/-- A field is read from what it is written as, or from its absence. -/
structure Field.ReadsToml (field : Field β) (depth : Nat) : Prop where
  plain : ∀ {x j}, field.encode x = some j → Plain depth j
  ofTree : ∀ {x j node}, field.encode x = some j → Holds j node → field.ofTree node = .ok x
  absent : ∀ {x}, field.encode x = none → field.absent = some x

/-- The fields of a record are read from the entries they are written as. -/
structure Fields.ReadsToml (fields : Fields ts) (depth : Nat) : Prop where
  names : fields.names.Nodup
  bare : ∀ name ∈ fields.names, Bare name
  plain : ∀ {row}, ∀ m ∈ fields.encode row, Plain depth m.2
  ofTree : ∀ {row entries}, List.Forall₂ HoldsEntry (fields.encode row) entries →
    ∃ slots, fillSlots fields.putTree entries fields.noSlots = .ok slots ∧
      fields.complete slots = .ok row

/-! ## Fields -/

namespace Field.ReadsToml

theorem required (name : String) {item : Schema α} (hitem : item.ReadsToml depth) :
    (Field.required name item).ReadsToml depth where
  plain h := by
    cases h
    exact hitem.plain _
  ofTree h hnode := by
    cases h
    exact hitem.ofTree hnode
  absent h := nomatch h

theorem defaulted (name : String) (value : α) {item : Schema α} (hitem : item.ReadsToml depth) :
    (Field.defaulted name value item).ReadsToml depth where
  plain h := by
    cases h
    exact hitem.plain _
  ofTree h hnode := by
    cases h
    exact hitem.ofTree hnode
  absent h := nomatch h

theorem optional (name : String) {item : Schema α} (hitem : item.ReadsToml depth) :
    (Field.optional name item).ReadsToml depth where
  plain h := by
    obtain ⟨a, -, rfl⟩ := Option.map_eq_some_iff.mp h
    exact hitem.plain a
  ofTree {x j node} h hnode := by
    obtain ⟨a, rfl, rfl⟩ := Option.map_eq_some_iff.mp h
    show present item.ofTree node = .ok (some a)
    rw [present, hitem.ofTree hnode]
  absent {x} h := by
    cases x with
    | none => rfl
    | some a => cases h

end Field.ReadsToml

namespace Fields

variable {field : Field β} {rest : Fields ts}

theorem names_cons (field : Field β) (rest : Fields ts) :
    (field.cons rest).names = field.name :: rest.names := by
  cases field <;> rfl

theorem putTree_of_eq {key : Key} (hkey : key.name = field.name) {node : Node} {x : β}
    (hx : field.ofTree node = .ok x) (slots : Slots ts) :
    (field.cons rest).putTree key node (none, slots) = .ok (some x, slots) := by
  cases field <;> simp only [Field.ofTree, Field.name] at hx hkey <;>
    simp [Field.cons, putTree, hkey, fillOnce, hx]

theorem putTree_of_ne {key : Key} (hkey : key.name ≠ field.name) {node : Node}
    {slots slots' : Slots ts} (hput : rest.putTree key node slots = .ok slots') (slot : Option β) :
    (field.cons rest).putTree key node (slot, slots) = .ok (slot, slots') := by
  cases field <;> simp only [Field.name] at hkey <;> simp [Field.cons, putTree, hkey, hput]

/-- Entries of other fields leave the slot of a field as it is. -/
theorem fillSlots_of_ne {entries : List (Key × Node)}
    (hkeys : ∀ e ∈ entries, e.1.name ≠ field.name) {slots last : Slots ts}
    (hfill : fillSlots rest.putTree entries slots = .ok last) (slot : Option β) :
    fillSlots (field.cons rest).putTree entries (slot, slots) = .ok (slot, last) := by
  induction entries generalizing slots with
  | nil =>
    cases hfill
    rfl
  | cons e entries ih =>
    obtain ⟨hkey, hkeys⟩ := List.forall_mem_cons.mp hkeys
    rw [fillSlots] at hfill
    cases hput : rest.putTree e.1 e.2 slots with
    | error misfit => simp [hput] at hfill
    | ok next =>
      simp only [hput] at hfill
      simp only [fillSlots, putTree_of_ne hkey hput slot, ih hkeys hfill]

/-- The entries that hold a record have the names of its fields. -/
theorem mem_names_of_holds {row : Row ts} {entries : List (Key × Node)}
    (h : List.Forall₂ HoldsEntry (rest.encode row) entries) {e : Key × Node} (he : e ∈ entries) :
    e.1.name ∈ rest.names := by
  have hmem : e.1.name ∈ entries.map fun e => e.1.name := List.mem_map.mpr ⟨e, he, rfl⟩
  rw [Toml.names_eq_of_holdsEntry h] at hmem
  exact (rest.names_encode row).subset hmem

namespace ReadsToml

theorem nil : Fields.nil.ReadsToml depth where
  names := List.nodup_nil
  bare _ h := nomatch h
  plain _ h := nomatch h
  ofTree h := by
    cases h
    exact ⟨(), rfl, rfl⟩

/-- A field with a name of its own goes in front of others. -/
theorem cons (hfield : field.ReadsToml depth) (hrest : rest.ReadsToml depth)
    (hbare : Bare field.name) (hname : field.name ∉ rest.names) :
    (field.cons rest).ReadsToml depth where
  names := by
    rw [names_cons]
    exact List.nodup_cons.mpr ⟨hname, hrest.names⟩
  bare := by
    rw [names_cons]
    exact List.forall_mem_cons.mpr ⟨hbare, hrest.bare⟩
  plain := by
    rintro ⟨x, row⟩ m hm
    rw [encode_cons] at hm
    cases hx : field.encode x with
    | none =>
      simp only [hx] at hm
      exact hrest.plain m hm
    | some j =>
      simp only [hx] at hm
      obtain rfl | hm := List.mem_cons.mp hm
      · exact hfield.plain hx
      · exact hrest.plain m hm
  ofTree := by
    rintro ⟨x, row⟩ entries h
    have hother {entries : List (Key × Node)}
        (h : List.Forall₂ HoldsEntry (rest.encode row) entries) :
        ∀ e ∈ entries, e.1.name ≠ field.name :=
      fun e he heq => hname (heq ▸ mem_names_of_holds h he)
    rw [encode_cons] at h
    rw [noSlots_cons]
    cases hx : field.encode x with
    | none =>
      simp only [hx] at h
      obtain ⟨slots, hfill, hcomplete⟩ := hrest.ofTree h
      refine ⟨(none, slots), fillSlots_of_ne (hother h) hfill none, ?_⟩
      rw [complete_cons, Option.none_or, hfield.absent hx]
      simp only [hcomplete]
    | some j =>
      simp only [hx] at h
      cases h with
      | @cons _ e _ entries hentry hentries =>
        obtain ⟨slots, hfill, hcomplete⟩ := hrest.ofTree hentries
        refine ⟨(some x, slots), ?_, ?_⟩
        · simp only [fillSlots, putTree_of_eq hentry.1 (hfield.ofTree hx hentry.2),
            fillSlots_of_ne (hother hentries) hfill]
        · rw [complete_cons, Option.some_or]
          simp only [hcomplete]

end ReadsToml

end Fields

/-! ## Schemas, one constructor after the other -/

namespace Schema.ReadsToml

theorem text : Schema.text.ReadsToml depth where
  plain := .text
  ofTree h := by
    cases h
    rfl

theorem flag : Schema.flag.ReadsToml depth where
  plain := .flag
  ofTree h := by
    cases h
    rfl

theorem list {item : Schema α} (hitem : item.ReadsToml depth) :
    (Schema.list item).ReadsToml (depth + 1) where
  plain xs := by
    refine .list fun j hj => ?_
    obtain ⟨x, -, rfl⟩ := List.mem_map.mp hj
    exact hitem.plain x
  ofTree {xs node} h := by
    have hread {nodes : List Node} (hnodes : List.Forall₂ Holds (xs.map item.encode) nodes) :
        readAll item.ofTree nodes = .ok xs := by
      rw [List.forall₂_map_left_iff] at hnodes
      exact readAll_eq_ok_iff.mpr (hnodes.imp fun _ _ hnode => hitem.ofTree hnode).flip
    cases h with
    | list span values => simp [Schema.ofTree, itemsOf, hread values, placed]
    | tables values => simp [Schema.ofTree, itemsOf, hread values, placed]

/-- Of two forms the first is asked first, so it has to refuse what the second one writes. -/
theorem either {name : String} {left : Schema α} {right : Schema β} (hleft : left.ReadsToml depth)
    (hright : right.ReadsToml depth)
    (hrefused : ∀ b node, Holds (right.encode b) node →
      ∃ misfit, left.ofTree node = .error misfit) :
    (Schema.either name left right).ReadsToml depth where
  plain x := by
    cases x with
    | inl a => exact hleft.plain a
    | inr b => exact hright.plain b
  ofTree {x node} h := by
    cases x with
    | inl a => simp only [Schema.ofTree, hleft.ofTree h]
    | inr b =>
      obtain ⟨misfit, hmisfit⟩ := hrefused b node h
      simp only [Schema.ofTree, hmisfit, hright.ofTree h]

theorem record (name : String) {fields : Fields ts} (hfields : fields.ReadsToml depth) :
    (Schema.record name fields).ReadsToml (depth + 1) where
  plain row := by
    have hnames := fields.names_encode row
    refine .map (hnames.nodup hfields.names) (fun m hm => hfields.bare _ ?_) hfields.plain
    exact hnames.subset (List.mem_map_of_mem hm)
  ofTree h := by
    cases h with
    | map style names values =>
      obtain ⟨slots, hfill, hcomplete⟩ :=
        hfields.ofTree (Toml.holds_table_iff.mp (.map style names values))
      simp only [Schema.ofTree, entriesOf, hfill, hcomplete]

theorem via {item : Schema α} {pack : α → β} {unpack : β → α} (hitem : item.ReadsToml depth)
    (hpack : ∀ x, pack (unpack x) = x) : (Schema.via item pack unpack).ReadsToml depth where
  plain x := hitem.plain (unpack x)
  ofTree h := by simp only [Schema.ofTree, hitem.ofTree h, hpack]

end Schema.ReadsToml

/-! ## Cases -/

/-- A string is no list. -/
theorem Schema.list_refuses_textNode (item : Schema α) (s : String) (node : Node)
    (h : Holds (Schema.text.encode s) node) :
    ∃ misfit, (Schema.list item).ofTree node = .error misfit := by
  cases h
  exact ⟨_, rfl⟩

theorem CaseText.readsToml : CaseText.schema.ReadsToml (depth + 1) := by
  refine .via (.either (.list .text) .text (Schema.list_refuses_textNode _)) fun x => ?_
  cases x <;> rfl

theorem CaseExpect.readsToml : CaseExpect.schema.ReadsToml (depth + 3) := by
  refine .via (.either (.list (.list (.list .text))) .text (Schema.list_refuses_textNode _))
    fun x => ?_
  cases x <;> rfl

theorem Override.readsToml : Override.schema.ReadsToml (depth + 1) := by
  refine .via (.record _ ?_) fun _ => rfl
  refine .cons (.optional "log_all_passed_tokens" .flag)
    (.cons (.optional "terminate_host_on_failure" .flag)
      (.cons (.optional "grammar_is_inline_document" .flag) .nil ?_ ?_) ?_ ?_) ?_ ?_ <;> decide

theorem Case.readsToml : Case.schema.ReadsToml 4 := by
  refine .via (.record _ ?_) fun _ => rfl
  refine .cons (.required "name" .text) (.cons (.required "text" CaseText.readsToml)
    (.cons (.required "expect" CaseExpect.readsToml)
      (.cons (.optional "options" Override.readsToml) .nil ?_ ?_) ?_ ?_) ?_ ?_) ?_ ?_ <;> decide

theorem Suite.readsToml : Suite.schema.ReadsToml 6 := by
  refine .via (.record _ ?_) fun _ => rfl
  exact .cons (.defaulted "cases" [] (.list Case.readsToml)) .nil (by decide) (by decide)

/-! ## Suites -/

namespace Suite

/-- The entries of a case. -/
def entries (case : Case) : List (String × Json) :=
  match Case.schema.encode case with
  | .obj members => members
  | _ => []

theorem encode_eq_obj_entries (case : Case) : Case.schema.encode case = .obj (entries case) :=
  rfl

/-- The TOML text of a suite: a header and the parts of the case, for each case. -/
def writeToml (cases : List Case) : List Char :=
  Toml.writeTables "cases" (cases.map entries)

/-- A suite comes back from its TOML text. -/
theorem ofToml_writeToml (cases : List Case) : ofToml (writeToml cases) = .ok cases := by
  by_cases hne : cases = []
  · subst hne
    rfl
  · have hentries : ∀ t ∈ cases.map entries, Toml.Entries t := by
      intro t ht
      obtain ⟨case, -, rfl⟩ := List.mem_map.mp ht
      have hplain := Case.readsToml.plain case
      rw [encode_eq_obj_entries] at hplain
      exact hplain.entries (by decide)
    have hname : Bare "cases" := by decide
    obtain ⟨table, hparse, htable⟩ :=
      Toml.parse_writeTables hname hentries (by simpa using hne)
    have hread : Suite.schema.ofTree table.toNode = .ok cases := by
      refine Suite.readsToml.ofTree ?_
      rw [List.map_map] at htable
      exact htable
    simp only [ofToml, writeToml, hparse, hread]

/-- Every list of cases is read from some TOML text, whatever its cases hold. -/
theorem read_writeToml (cases : List Case) :
    read (String.ofList (writeToml cases)) = .ok cases := by
  simp only [read, String.toList_ofList, ofToml_writeToml]

example :
    String.ofList (writeToml [⟨"keyword", .compact "let x", .rows [[["keyword"], []]], none⟩]) =
      "[[cases]]\nname = \"keyword\"\ntext = \"let x\"\nexpect = [[[\"keyword\"],[]]]\n" := by
  rfl

end Suite

end ScopeCheck
