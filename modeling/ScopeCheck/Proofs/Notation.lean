import ScopeCheck.Case

/-!
# What the compact notation can say

Every string is the notation of some rows, and of only one list of rows.  Not all rows have a
notation, because an empty row and an empty group are written alike, and so are an empty group and a
single empty scope.

* `writeChain_chain`, `writeRow_row`, `write_rows`: what was read is written as it was.
* `chain_writeChain`, `row_writeRow`: what was written is read as it was, where it can be told apart
  from something emptier.
* `Plain`: scopes without a separator.  `Expressible`: the rows that have a notation.
* `rows_eq_iff`: the rows of a notation are given ones when these are expressible and written so.
  `exists_rows_eq_iff` and `rows_injective` say which rows come of strings, and each of only one.
-/

namespace ScopeCheck.Compact

open Text

/-! ## Reading and writing again -/

theorem writeChain_chain (group : List Char) : writeChain (chain group) = group := by
  cases group with
  | nil => rfl
  | cons c cs =>
    have hpieces : (chain (c :: cs)).map String.toList = splitOn ' ' (c :: cs) := by
      rw [chain, List.isEmpty_cons, if_neg Bool.false_ne_true, List.map_map]
      exact List.map_id'' (fun _ => String.toList_ofList) _
    rw [writeChain, hpieces, joinWith_splitOn]

theorem writeRow_row (cs : List Char) : writeRow (row cs) = cs := by
  cases cs with
  | nil => rfl
  | cons c cs =>
    have hgroups : (row (c :: cs)).map writeChain = splitOn '|' (c :: cs) := by
      rw [row, List.isEmpty_cons, if_neg Bool.false_ne_true, List.map_map]
      exact List.map_id'' writeChain_chain _
    rw [writeRow, hgroups, joinWith_splitOn]

/-- A notation is the notation of its rows. -/
theorem write_rows (text : String) : write (rows text) = text := by
  have hrows : (rows text).map writeRow = splitOn '\n' text.toList := by
    rw [rows, List.map_map]
    exact List.map_id'' writeRow_row _
  rw [write, hrows, joinWith_splitOn, String.ofList_toList]

/-! ## Writing and reading again -/

/-- Only a chain without scopes and one with a single empty scope are written as nothing. -/
theorem writeChain_eq_nil_iff {scopes : ScopeChain} :
    writeChain scopes = [] ↔ scopes = [] ∨ scopes = [""] := by
  rw [writeChain, joinWith_eq_nil_iff]
  cases scopes with
  | nil => simp
  | cons scope more => simp

/-- A scope that holds no separator. -/
structure Plain (scope : String) : Prop where
  no_space : ' ' ∉ scope.toList
  no_bar : '|' ∉ scope.toList
  no_break : '\n' ∉ scope.toList

theorem chain_writeChain {scopes : ScopeChain} (hplain : ∀ scope ∈ scopes, Plain scope)
    (hne : scopes ≠ [""]) : chain (writeChain scopes) = scopes := by
  by_cases hnil : scopes = []
  · rw [hnil]
    rfl
  · have hwritten : writeChain scopes ≠ [] := by
      rw [Ne, writeChain_eq_nil_iff]
      exact not_or.mpr ⟨hnil, hne⟩
    have hpieces : splitOn ' ' (writeChain scopes) = scopes.map String.toList := by
      refine splitOn_joinWith (by simpa using hnil) fun piece hpiece => ?_
      obtain ⟨scope, hscope, rfl⟩ := List.mem_map.mp hpiece
      exact (hplain scope hscope).no_space
    rw [chain, List.isEmpty_eq_false_iff.mpr hwritten, if_neg Bool.false_ne_true, hpieces,
      List.map_map]
    exact List.map_id'' (fun _ => String.ofList_toList) _

/-- Apart from spaces, a group holds what its scopes hold. -/
theorem exists_of_mem_writeChain {c : Char} {scopes : ScopeChain} (h : c ∈ writeChain scopes)
    (hne : c ≠ ' ') : ∃ scope ∈ scopes, c ∈ scope.toList := by
  obtain ⟨piece, hmem, hc⟩ := exists_of_mem_joinWith h hne
  obtain ⟨scope, hscope, rfl⟩ := List.mem_map.mp hmem
  exact ⟨scope, hscope, hc⟩

/-- Apart from bars and spaces, a row holds what its scopes hold. -/
theorem exists_of_mem_writeRow {c : Char} {chains : List ScopeChain} (h : c ∈ writeRow chains)
    (hbar : c ≠ '|') (hspace : c ≠ ' ') :
    ∃ scopes ∈ chains, ∃ scope ∈ scopes, c ∈ scope.toList := by
  obtain ⟨group, hmem, hc⟩ := exists_of_mem_joinWith h hbar
  obtain ⟨scopes, hscopes, rfl⟩ := List.mem_map.mp hmem
  exact ⟨scopes, hscopes, exists_of_mem_writeChain hc hspace⟩

/-- Rows that have a notation.  A row of one empty chain would be written like an empty row, and a
chain of one empty scope like an empty chain. -/
structure Expressible (rows : List (List ScopeChain)) : Prop where
  ne_nil : rows ≠ []
  plain : ∀ chains ∈ rows, ∀ scopes ∈ chains, ∀ scope ∈ scopes, Plain scope
  row_ne : ∀ chains ∈ rows, chains ≠ [[]]
  chain_ne : ∀ chains ∈ rows, ∀ scopes ∈ chains, scopes ≠ [""]

namespace Expressible

variable {rows : List (List ScopeChain)} (h : Expressible rows)
include h

theorem row_writeRow {chains : List ScopeChain} (hmem : chains ∈ rows) :
    row (writeRow chains) = chains := by
  by_cases hnil : chains = []
  · rw [hnil]
    rfl
  · have hgroups : splitOn '|' (writeRow chains) = chains.map writeChain := by
      refine splitOn_joinWith (by simpa using hnil) fun group hgroup hbar => ?_
      obtain ⟨scopes, hscopes, rfl⟩ := List.mem_map.mp hgroup
      obtain ⟨scope, hscope, hc⟩ := exists_of_mem_writeChain hbar (by decide)
      exact (h.plain chains hmem scopes hscopes scope hscope).no_bar hc
    have hread : ∀ scopes ∈ chains, chain (writeChain scopes) = scopes := fun scopes hscopes =>
      chain_writeChain (h.plain chains hmem scopes hscopes) (h.chain_ne chains hmem scopes hscopes)
    have hwritten : writeRow chains ≠ [] := by
      rw [Ne, writeRow, joinWith_eq_nil_iff, List.map_eq_nil_iff]
      rintro (hempty | hsingle)
      · exact hnil hempty
      · -- a single group that is empty comes of one of the two chains left out
        obtain ⟨scopes, rfl, hscopes⟩ := List.map_eq_singleton_iff.mp hsingle
        rcases writeChain_eq_nil_iff.mp hscopes with rfl | rfl
        · exact h.row_ne _ hmem rfl
        · exact h.chain_ne _ hmem _ List.mem_cons_self rfl
    rw [row, List.isEmpty_eq_false_iff.mpr hwritten, if_neg Bool.false_ne_true, hgroups,
      List.map_map]
    exact (List.map_congr_left hread).trans (List.map_id _)

/-- Rows that have a notation are the rows of their notation. -/
theorem rows_write : Compact.rows (write rows) = rows := by
  have hlines : splitOn '\n' (joinWith '\n' (rows.map writeRow)) = rows.map writeRow := by
    refine splitOn_joinWith (by simpa using h.ne_nil) fun line hline hbreak => ?_
    obtain ⟨chains, hchains, rfl⟩ := List.mem_map.mp hline
    obtain ⟨scopes, hscopes, scope, hscope, hc⟩ :=
      exists_of_mem_writeRow hbreak (by decide) (by decide)
    exact (h.plain chains hchains scopes hscopes scope hscope).no_break hc
  have hread : ∀ chains ∈ rows, row (writeRow chains) = chains := fun _ => h.row_writeRow
  rw [Compact.rows, write, String.toList_ofList, hlines, List.map_map]
  exact (List.map_congr_left hread).trans (List.map_id _)

end Expressible

/-! ## The rows that have a notation -/

theorem exists_of_mem_rows {text : String} {chains : List ScopeChain} (h : chains ∈ rows text) :
    ∃ cs ∈ splitOn '\n' text.toList, row cs = chains :=
  List.mem_map.mp h

theorem exists_of_mem_row {cs : List Char} {scopes : ScopeChain} (h : scopes ∈ row cs) :
    ∃ group ∈ splitOn '|' cs, chain group = scopes := by
  cases cs with
  | nil => exact absurd h List.not_mem_nil
  | cons c cs => exact List.mem_map.mp h

theorem exists_of_mem_chain {group : List Char} {scope : String} (h : scope ∈ chain group) :
    ∃ piece ∈ splitOn ' ' group, String.ofList piece = scope := by
  cases group with
  | nil => exact absurd h List.not_mem_nil
  | cons c cs => exact List.mem_map.mp h

/-- The rows of every string can be expressed. -/
theorem expressible_rows (text : String) : Expressible (rows text) where
  ne_nil := by
    rw [rows, Ne, List.map_eq_nil_iff]
    exact splitOn_ne_nil '\n' text.toList
  plain chains hchains scopes hscopes scope hscope := by
    obtain ⟨cs, hcs, rfl⟩ := exists_of_mem_rows hchains
    obtain ⟨group, hgroup, rfl⟩ := exists_of_mem_row hscopes
    obtain ⟨piece, hpiece, rfl⟩ := exists_of_mem_chain hscope
    refine ⟨?_, ?_, ?_⟩ <;> rw [String.toList_ofList]
    · exact not_mem_of_mem_splitOn hpiece
    · exact fun hbar => not_mem_of_mem_splitOn hgroup (mem_of_mem_splitOn hpiece hbar)
    · exact fun hbreak => not_mem_of_mem_splitOn hcs
        (mem_of_mem_splitOn hgroup (mem_of_mem_splitOn hpiece hbreak))
  row_ne chains hchains hempty := by
    obtain ⟨cs, -, rfl⟩ := exists_of_mem_rows hchains
    -- such a row would come of nothing, and nothing is the empty row
    have hcs : cs = [] := by rw [← writeRow_row cs, hempty]; rfl
    rw [hcs] at hempty
    cases hempty
  chain_ne chains hchains scopes hscopes hempty := by
    obtain ⟨cs, -, rfl⟩ := exists_of_mem_rows hchains
    obtain ⟨group, -, rfl⟩ := exists_of_mem_row hscopes
    have hgroup : group = [] := by rw [← writeChain_chain group, hempty]; rfl
    rw [hgroup] at hempty
    cases hempty

/-- A string has given rows when these can be expressed and it is their notation. -/
theorem rows_eq_iff {text : String} {rs : List (List ScopeChain)} :
    rows text = rs ↔ Expressible rs ∧ text = write rs := by
  constructor
  · rintro rfl
    exact ⟨expressible_rows text, (write_rows text).symm⟩
  · rintro ⟨h, rfl⟩
    exact h.rows_write

/-- The rows that have a notation are just the rows of strings. -/
theorem exists_rows_eq_iff {rs : List (List ScopeChain)} :
    (∃ text, rows text = rs) ↔ Expressible rs := by
  constructor
  · rintro ⟨text, rfl⟩
    exact expressible_rows text
  · intro h
    exact ⟨write rs, h.rows_write⟩

/-- Two strings never have the same rows. -/
theorem rows_injective : Function.Injective rows := by
  intro first second h
  rw [← write_rows first, h, write_rows]

theorem length_rows (text : String) : (rows text).length = text.toList.count '\n' + 1 := by
  rw [rows, List.length_map, length_splitOn]

end ScopeCheck.Compact
