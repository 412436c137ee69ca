import ScopeCheck.Proofs.Documents
import ScopeCheck.Suite

/-!
# The two formats of a suite

A JSON suite starts with a brace, or with a bracket behind which there is another bracket.  In TOML
a brace starts no line, and a bracket starts a header, which needs a key behind it.  So no text is a
suite in both formats, and it does not matter which reader is asked first.

* `Suite.Opens`: how the JSON text of a suite starts.
* `Suite.opens_of_parse`: every text that is read as a JSON suite starts so.
* `Toml.parse_of_opens`: no text that starts so is a TOML document.
* `Suite.formats_never_shadow`: what follows for the reader of suites.
-/

namespace ScopeCheck

open ScopeCheck.Json (Reordered)

variable {α β : Type} {ts : List Type}

/-! ## How a JSON suite starts -/

/-- Behind its blanks and line breaks, a text starts with a bracket or a brace. -/
def Bracketed (text : List Char) : Prop :=
  ∃ c rest, Json.skipBlank text = c :: rest ∧ c ∈ ['[', ']', '{']

/-- Behind its blanks and line breaks, a text starts with a brace, or with a bracket in front of
other brackets. -/
def Suite.Opens (text : List Char) : Prop :=
  (∃ rest, Json.skipBlank text = '{' :: rest) ∨
    ∃ rest, Json.skipBlank text = '[' :: rest ∧ Bracketed rest ∧
      ∀ inner, rest = '[' :: inner → Bracketed inner

theorem Suite.Opens.bracketed {text : List Char} (h : Suite.Opens text) : Bracketed text := by
  obtain ⟨rest, hopen⟩ | ⟨rest, hopen, -⟩ := h
  · exact ⟨'{', rest, hopen, by decide⟩
  · exact ⟨'[', rest, hopen, by decide⟩

/-- Passing over blanks of some kind first changes nothing. -/
theorem Json.skipBlank_dropWhile {p : Char → Bool} (hp : ∀ c, p c → Json.isBlank c)
    (cs : List Char) : Json.skipBlank (cs.dropWhile p) = Json.skipBlank cs := by
  induction cs with
  | nil => rfl
  | cons c cs ih =>
    cases hc : p c with
    | false => rw [List.dropWhile_cons, if_neg (by simp [hc])]
    | true =>
      have hblank := hp c hc
      rw [List.dropWhile_cons, if_pos hc, ih]
      unfold Json.skipBlank
      rw [List.dropWhile_cons, if_pos hblank]

theorem Json.skipBlank_skipBlank (cs : List Char) :
    Json.skipBlank (Json.skipBlank cs) = Json.skipBlank cs :=
  Json.skipBlank_dropWhile (fun _ hc => hc) cs

theorem Bracketed.of_skipBlank {cs : List Char} (h : Bracketed (Json.skipBlank cs)) :
    Bracketed cs := by
  unfold Bracketed at h
  rw [Json.skipBlank_skipBlank] at h
  exact h

/-- The first item of a list stands where the list goes on. -/
theorem Json.nextItem_true {cs : List Char} {next : Option (List Char)}
    (h : Json.nextItem true cs = .ok next) :
    (∃ rest, cs = ']' :: rest) ∧ next = none ∨ next = some cs := by
  unfold Json.nextItem at h
  split at h
  · cases h
  · rename_i c rest
    split at h
    · rename_i hc
      cases h
      exact .inl ⟨⟨rest, by rw [hc]⟩, rfl⟩
    · simp only [if_true] at h
      cases h
      exact .inr rfl

/-- What is left of a text that starts with a bracket. -/
theorem Json.skipBlank_bracket (rest : List Char) : Json.skipBlank ('[' :: rest) = '[' :: rest :=
  Json.skipBlank_cons (by decide) rest

theorem bracketed_of_read_record {name : String} {fields : Fields ts} {fuel depth : Nat}
    {cs : List Char} {row : Row ts × List Char}
    (h : (Schema.record name fields).read fuel depth cs = .ok row) : Bracketed cs := by
  unfold Schema.read at h
  split at h
  · rename_i rest heq
    exact ⟨'[', rest, heq, by decide⟩
  · rename_i rest heq
    exact ⟨'{', rest, heq, by decide⟩
  · cases h

theorem bracketed_of_read_via {item : Schema α} {pack : α → β} {unpack : β → α} {fuel depth : Nat}
    {cs : List Char} {x : β × List Char}
    (hitem : ∀ y, item.read fuel depth cs = .ok y → Bracketed cs)
    (h : (Schema.via item pack unpack).read fuel depth cs = .ok x) : Bracketed cs := by
  unfold Schema.read at h
  split at h
  · rename_i hread
    exact hitem _ hread
  · cases h

/-- Behind the bracket that opens a list there is its end or its first item. -/
theorem bracketed_of_readElements {item : List Char → Except Refusal (α × List Char)}
    (hitem : ∀ {cs x}, item cs = .ok x → Bracketed cs) {fuel : Nat} {cs : List Char}
    {xs : List α × List Char} (h : readElements item fuel true cs = .ok xs) : Bracketed cs := by
  cases fuel with
  | zero => cases h
  | succ fuel =>
    unfold readElements at h
    cases hnext : Json.nextItem true (Json.skipBlank cs) with
    | error stop => simp [hnext] at h
    | ok next =>
      rcases Json.nextItem_true hnext with ⟨⟨rest, hclosing⟩, -⟩ | rfl
      · exact ⟨']', rest, hclosing, by decide⟩
      · simp only [hnext] at h
        split at h
        · cases h
        · rename_i hread
          exact (hitem hread).of_skipBlank

/-- A list of bracketed items is a bracket in front of something bracketed. -/
theorem exists_of_read_list {item : Schema α}
    (hitem : ∀ {fuel depth cs x}, item.read fuel depth cs = .ok x → Bracketed cs)
    {fuel depth : Nat} {cs : List Char} {xs : List α × List Char}
    (h : (Schema.list item).read fuel depth cs = .ok xs) :
    ∃ rest, Json.skipBlank cs = '[' :: rest ∧ Bracketed rest := by
  unfold Schema.read at h
  split at h
  · rename_i rest heq
    split at h
    · cases h
    · split at h
      · cases h
      · rename_i hread
        exact ⟨rest, heq, bracketed_of_readElements hitem hread⟩
  · cases h

theorem bracketed_of_read_case {fuel depth : Nat} {cs : List Char} {x : Case × List Char}
    (h : Case.schema.read fuel depth cs = .ok x) : Bracketed cs :=
  bracketed_of_read_via (fun _ h => bracketed_of_read_record h) h

/-- Where the cases stand in a list, behind its bracket there is its end or the list of cases. -/
theorem brackets_of_readByPosition {name record : String} {fuel size depth : Nat}
    {cs : List Char} {row : Row [List Case] × List Char}
    (h : (Fields.defaulted name [] (.list Case.schema) .nil).readByPosition fuel record size 0 true
      depth cs = .ok row) :
    Bracketed cs ∧ ∀ inner, cs = '[' :: inner → Bracketed inner := by
  unfold Fields.readByPosition at h
  cases hnext : Json.nextItem true (Json.skipBlank cs) with
  | error stop => simp [hnext] at h
  | ok next =>
    rcases Json.nextItem_true hnext with ⟨⟨after, hclosing⟩, -⟩ | rfl
    · refine ⟨⟨']', after, hclosing, by decide⟩, ?_⟩
      rintro inner rfl
      rw [Json.skipBlank_bracket] at hclosing
      exact absurd (List.cons.inj hclosing).1 (by decide)
    · simp only [hnext] at h
      split at h
      · cases h
      · rename_i hlist
        obtain ⟨inner, hinner, hbracketed⟩ := exists_of_read_list bracketed_of_read_case hlist
        rw [Json.skipBlank_skipBlank] at hinner
        refine ⟨⟨'[', inner, hinner, by decide⟩, ?_⟩
        rintro inner' rfl
        rw [Json.skipBlank_bracket] at hinner
        cases hinner
        exact hbracketed

/-- Every JSON text that is read as a suite starts like one. -/
theorem Suite.opens_of_parse {text : List Char} {cases : List Case}
    (h : Suite.schema.parse text = .ok cases) : Suite.Opens text := by
  unfold Schema.parse at h
  split at h
  · cases h
  · rename_i hread
    unfold Suite.schema Schema.read at hread
    split at hread
    · rename_i hrecord
      unfold Schema.read at hrecord
      split at hrecord
      · rename_i rest hopen
        split at hrecord
        · cases hrecord
        · split at hrecord
          · cases hrecord
          · rename_i hfields
            exact .inr ⟨rest, hopen, brackets_of_readByPosition hfields⟩
      · rename_i rest hopen
        exact .inl ⟨rest, hopen⟩
      · cases hrecord
    · cases hread

/-! ## What TOML makes of it -/

namespace Toml

theorem isBlank_imp {c : Char} (h : isBlank c) : Json.isBlank c := by
  have hcases : c = ' ' ∨ c = '\t' := by simpa [isBlank] using h
  rcases hcases with rfl | rfl <;> rfl

/-- Behind the blanks of a line, a bracketed text goes on with a line break, a bracket or a
brace. -/
theorem exists_of_bracketed {cs : List Char} (h : Bracketed cs) :
    ∃ d ds, cs.dropWhile isBlank = d :: ds ∧ d ∈ ['\n', '\r', '[', ']', '{'] := by
  obtain ⟨c, rest, hskip, hc⟩ := h
  rw [← Json.skipBlank_dropWhile (fun _ => isBlank_imp) cs] at hskip
  cases hcs : cs.dropWhile isBlank with
  | nil =>
    rw [hcs] at hskip
    cases hskip
  | cons d ds =>
    refine ⟨d, ds, rfl, ?_⟩
    have hd : isBlank d = false := by
      have hhead := List.head?_dropWhile_not isBlank cs
      rw [hcs] at hhead
      exact hhead
    rw [hcs] at hskip
    cases hblank : Json.isBlank d with
    | false =>
      rw [Json.skipBlank_cons hblank] at hskip
      cases hskip
      exact List.mem_cons_of_mem _ (List.mem_cons_of_mem _ hc)
    | true =>
      have hcases : d = '\n' ∨ d = '\r' := by
        simp only [isBlank, Bool.or_eq_false_iff, decide_eq_false_iff_not] at hd
        simpa [Json.isBlank, hd.1, hd.2] using hblank
      rcases hcases with rfl | rfl <;> decide

/-- No key starts where a bracketed text goes on. -/
theorem readKey_of_bracketed {cur : Cursor} (h : Bracketed cur.rest) (fuel : Nat) :
    ∃ complaint, readKey fuel cur = .error complaint := by
  obtain ⟨d, ds, hrest, hd⟩ := exists_of_bracketed h
  have hpart : readPart? fuel (skipBlank cur) = .ok none := by
    have hstart : (skipBlank cur).rest = d :: ds := hrest
    have hquote : d ≠ '\"' ∧ d ≠ '\'' ∧ isBareChar d = false := by
      revert hd
      simp only [List.mem_cons, List.not_mem_nil, or_false]
      rintro (rfl | rfl | rfl | rfl | rfl) <;> decide
    unfold readPart?
    simp [Cursor.peek?, hstart, hquote.1, hquote.2.1, Cursor.takeWhile, hquote.2.2]
    rfl
  refine ⟨⟨(skipBlank cur).offset, "invalid key", false⟩, ?_⟩
  unfold readKey
  simp only [hpart]
  rfl

/-- A line that starts with a brace has no key. -/
theorem readEntryLine_of_bracketed {cur : Cursor} (h : Bracketed cur.rest) (fuel : Nat)
    (outline : Outline) : ∃ complaint, readEntryLine fuel outline cur = .error complaint := by
  obtain ⟨complaint, hkey⟩ := readKey_of_bracketed h fuel
  refine ⟨complaint, ?_⟩
  unfold readEntryLine
  rw [hkey]
  rfl

/-- Two brackets are one behind the other. -/
theorem exists_of_word?_brackets {rest : List Char} {offset : Nat} {start : Cursor}
    (h : (Cursor.mk ('[' :: rest) offset).word? ['[', '['] = some start) :
    rest = '[' :: start.rest := by
  simp only [Cursor.word?, if_true] at h
  cases rest with
  | nil => cases h
  | cons d ds =>
    by_cases hd : d = '['
    · simp only [hd, if_true] at h
      cases h
      rw [hd]
    · simp only [hd, if_false] at h
      cases h

/-- A header with other brackets in the place of its key is refused. -/
theorem readHeaderLine_of_bracketed {rest : List Char} (hrest : Bracketed rest)
    (hinner : ∀ inner, rest = '[' :: inner → Bracketed inner) (offset fuel : Nat)
    (outline : Outline) :
    ∃ complaint, readHeaderLine fuel outline ⟨'[' :: rest, offset⟩ = .error complaint := by
  have hbegun : (Cursor.mk ('[' :: rest) offset).next = ⟨rest, offset + '['.utf8Size⟩ := rfl
  have hfound : rest.isEmpty = false := by
    obtain ⟨c, after, hskip, -⟩ := hrest
    cases rest with
    | nil => cases hskip
    | cons d ds => rfl
  unfold readHeaderLine
  simp only [hbegun, hfound]
  cases hword : (Cursor.mk ('[' :: rest) offset).word? ['[', '['] with
  | none =>
    have hkey : Bracketed (Cursor.mk rest (offset + '['.utf8Size)).rest := hrest
    obtain ⟨complaint, hkey⟩ := readKey_of_bracketed hkey fuel
    refine ⟨complaint, ?_⟩
    simp only [hkey]
    rfl
  | some start =>
    obtain ⟨complaint, hkey⟩ := readKey_of_bracketed
      (hinner start.rest (exists_of_word?_brackets hword)) fuel
    refine ⟨complaint, ?_⟩
    simp only [hkey]
    rfl

/-- A line break or a blank in front of a suite is passed over. -/
theorem opens_of_cons {c : Char} {cs : List Char} (hc : Json.isBlank c) :
    Suite.Opens (c :: cs) ↔ Suite.Opens cs := by
  have hskip : Json.skipBlank (c :: cs) = Json.skipBlank cs := by
    unfold Json.skipBlank
    rw [List.dropWhile_cons, if_pos hc]
  unfold Suite.Opens
  rw [hskip]

/-- A line break in front of a suite is passed over; a carriage return alone is none. -/
theorem readLineEnd_of_opens {d : Char} {ds : List Char} (hline : d = '\n' ∨ d = '\r')
    (h : Suite.Opens (d :: ds)) (offset : Nat) :
    (∃ complaint, readLineEnd "" ⟨d :: ds, offset⟩ = .error complaint) ∨
      ∃ after, readLineEnd "" ⟨d :: ds, offset⟩ = .ok after ∧ Suite.Opens after.rest := by
  rcases hline with rfl | rfl
  · exact .inr ⟨⟨ds, offset + 1⟩, rfl, (opens_of_cons (by decide)).mp h⟩
  · have hds := (opens_of_cons (by decide)).mp h
    cases ds with
    | nil => exact .inl ⟨_, rfl⟩
    | cons e es =>
      by_cases he : e = '\n'
      · subst he
        exact .inr ⟨⟨es, offset + 2⟩, rfl, (opens_of_cons (by decide)).mp hds⟩
      · refine .inl ⟨⟨offset, "", true⟩, ?_⟩
        simp [readLineEnd, Cursor.newline?, he, Cursor.complain]

/-- Behind the blanks of a line, a suite goes on with a line break, its brace or its brackets. -/
theorem exists_of_opens {cs : List Char} (h : Suite.Opens cs) :
    ∃ d ds, cs.dropWhile isBlank = d :: ds ∧ Suite.Opens (d :: ds) ∧
      ((d = '\n' ∨ d = '\r') ∨ d = '{' ∨
        d = '[' ∧ Bracketed ds ∧ ∀ inner, ds = '[' :: inner → Bracketed inner) := by
  obtain ⟨d, ds, hrest, hd⟩ := exists_of_bracketed h.bracketed
  have hopens : Suite.Opens (d :: ds) := by
    unfold Suite.Opens
    rw [← hrest, Json.skipBlank_dropWhile (fun _ => isBlank_imp) cs]
    exact h
  refine ⟨d, ds, hrest, hopens, ?_⟩
  simp only [List.mem_cons, List.not_mem_nil, or_false] at hd
  rcases hd with rfl | rfl | rfl | rfl | rfl
  · exact .inl (.inl rfl)
  · exact .inl (.inr rfl)
  · obtain ⟨inner, hinner⟩ | ⟨inner, hinner, hkey, hkeys⟩ := hopens
    · rw [Json.skipBlank_bracket] at hinner
      exact absurd (List.cons.inj hinner).1 (by decide)
    · rw [Json.skipBlank_bracket] at hinner
      cases hinner
      exact .inr (.inr ⟨rfl, hkey, hkeys⟩)
  · obtain ⟨inner, hinner⟩ | ⟨inner, hinner, -⟩ := hopens
    · rw [Json.skipBlank_cons (by decide)] at hinner
      exact absurd (List.cons.inj hinner).1 (by decide)
    · rw [Json.skipBlank_cons (by decide)] at hinner
      exact absurd (List.cons.inj hinner).1 (by decide)
  · exact .inr (.inl rfl)

/-- No lines of a TOML document start like a JSON suite. -/
theorem readLines_of_opens {cur : Cursor} (h : Suite.Opens cur.rest) (fuel : Nat)
    (outline : Outline) : ∃ complaint, readLines fuel outline cur = .error complaint := by
  induction fuel generalizing cur with
  | zero => exact ⟨_, rfl⟩
  | succ fuel ih =>
    obtain ⟨d, ds, hrest, hopens, hd⟩ := exists_of_opens h
    have hpeek : (skipBlank cur).peek? = some d := congrArg List.head? hrest
    obtain ⟨offset, hstart⟩ : ∃ offset, skipBlank cur = ⟨d :: ds, offset⟩ :=
      ⟨(skipBlank cur).offset, by rw [← hrest]; rfl⟩
    unfold readLines
    simp only [hpeek]
    rw [hstart]
    -- A line break leads on to the next line; the others end the reading here.
    rcases hd with hline | rfl | ⟨rfl, hkey, hkeys⟩
    · have hhash : ¬ d = '#' := by rcases hline with rfl | rfl <;> decide
      have hopen : ¬ d = '[' := by rcases hline with rfl | rfl <;> decide
      have hbreak : (d = '\n' || d = '\r') = true := by simpa using hline
      simp only [hhash, hopen, hbreak, if_false, if_true]
      obtain ⟨complaint, hend⟩ | ⟨after, hend, hafter⟩ := readLineEnd_of_opens hline hopens offset
      · rw [hend]
        exact ⟨complaint, rfl⟩
      · rw [hend]
        exact ih hafter
    · have hkey : Bracketed (Cursor.mk ('{' :: ds) offset).rest := hopens.bracketed
      obtain ⟨complaint, hentry⟩ := readEntryLine_of_bracketed hkey fuel outline
      refine ⟨complaint, ?_⟩
      simp +decide only [hentry, if_false]
      rfl
    · obtain ⟨complaint, hheader⟩ := readHeaderLine_of_bracketed hkey hkeys offset fuel outline
      refine ⟨complaint, ?_⟩
      simp +decide only [hheader, if_false, if_true]
      rfl

/-- No text that starts like a JSON suite is a TOML document. -/
theorem parse_of_opens {text : List Char} (h : Suite.Opens text) :
    ∃ complaint, parse text = .error complaint := by
  have hmark : (Cursor.mk text 0).word? ['\uFEFF'] = none := by
    obtain ⟨c, rest, hskip, hc⟩ := h.bracketed
    cases text with
    | nil => rfl
    | cons d ds =>
      have hd : d ≠ '\uFEFF' := by
        rintro rfl
        rw [Json.skipBlank_cons (by decide)] at hskip
        cases hskip
        exact absurd hc (by decide)
      simp only [Cursor.word?, hd, if_false]
  have hstart : Suite.Opens (Cursor.mk text 0).rest := h
  obtain ⟨complaint, hlines⟩ := readLines_of_opens hstart (2 * text.length + 2) {}
  refine ⟨complaint, ?_⟩
  unfold parse
  simp only [hmark, Option.getD_none, hlines]
  rfl

end Toml

/-! ## The reader of suites -/

namespace Suite

theorem lawful_schema : schema.Lawful := by
  refine ⟨⟨by decide, ?_⟩, fun _ => rfl, fun _ => rfl⟩
  exact ⟨Case.lawful_schema, fun _ h => (nomatch h), trivial⟩

theorem fits_schema (cases : List Case) : schema.Fits cases :=
  ⟨fun case _ => case.fits_schema, trivial⟩

theorem ofJson_eq_ok_iff {text : List Char} {cases : List Case} :
    ofJson text = .ok cases ↔ schema.parse text = .ok cases := by
  unfold ofJson
  cases schema.parse text <;> simp

/-- The list of cases may stand alone, in a list in the place of the record. -/
theorem parse_positional (cases : List Case) :
    schema.parse (Json.write (.arr [.arr (cases.map Case.schema.encode)])) = .ok cases := by
  have hlawful : (Schema.list Case.schema).Lawful := Case.lawful_schema
  have hfits : (Schema.list Case.schema).Fits cases := fun case _ => case.fits_schema
  have hreadable := ((Schema.list Case.schema).decodes hlawful).readable hfits
  have hopen : Json.isBlank '[' = false := by decide
  have htext : Json.write (.arr [.arr (cases.map Case.schema.encode)]) =
      '[' :: (Json.write ((Schema.list Case.schema).encode cases) ++ [']']) := rfl
  generalize hfuel : Json.fuelFor (Json.write (.arr [.arr (cases.map Case.schema.encode)])) = fuel
  have hlength : (Json.write ((Schema.list Case.schema).encode cases)).length < fuel := by
    rw [← hfuel, htext, Json.fuelFor, List.length_cons, List.length_append]
    omega
  have hnesting : (Schema.list Case.schema).nesting ≤ 126 := by decide
  have hlist := ((Schema.list Case.schema).reads hlawful).read hfits (.refl _) hnesting hlength
    [']'] (Json.endsNumber_closing (.inl rfl) [])
  have hnext := (Json.nextItem_write hreadable [']']).1
  have hskip := hreadable.skipBlank_write [']']
  have hdepth : Json.depthLimit = 126 + 1 := rfl
  unfold Schema.parse
  rw [hfuel, htext, hdepth]
  unfold schema
  generalize Schema.list Case.schema = item at hlist hnext hskip ⊢
  simp only [Schema.read, Json.skipBlank_cons hopen, Fields.readByPosition, hskip, hnext, hlist]
  rfl

/-- Reads a suite with the JSON reader asked first. -/
def readJsonFirst (text : String) : Except SuiteError (List Case) :=
  match ofJson text.toList with
  | .ok cases => .ok cases
  | .error json =>
    match ofToml text.toList with
    | .ok cases => .ok cases
    | .error toml => .error ⟨toml, json⟩

theorem ofToml_of_ofJson {text : List Char} {cases : List Case} (h : ofJson text = .ok cases) :
    (∃ complaint, Toml.parse text = .error complaint) ∧
      ∃ message, ofToml text = .error message := by
  obtain ⟨complaint, hparse⟩ := Toml.parse_of_opens (opens_of_parse (ofJson_eq_ok_iff.mp h))
  refine ⟨⟨complaint, hparse⟩, complaint.message text, ?_⟩
  simp only [ofToml, hparse]

theorem read_of_ofJson {text : String} {cases : List Case} (h : ofJson text.toList = .ok cases) :
    read text = .ok cases := by
  obtain ⟨-, message, htoml⟩ := ofToml_of_ofJson h
  simp only [read, htoml, h]

/-- No text is a suite in both formats, and a text that is read as a JSON suite is no TOML document
at all.  So the order of the two readers does not matter, nothing is refused that either of them
accepts, and cases written as JSON come back as they were, whatever the order of members, and also
in a list in the place of the record. -/
theorem formats_never_shadow :
    (∀ text cases, ofJson text = .ok cases →
      (∃ complaint, Toml.parse text = .error complaint) ∧
        ∃ message, ofToml text = .error message) ∧
    (∀ text, read text = readJsonFirst text) ∧
    (∀ text, (∃ error, read text = .error error) ↔
      (∃ message, ofToml text.toList = .error message) ∧
        ∃ message, ofJson text.toList = .error message) ∧
    (∀ (cases : List Case) (j : Json),
      Reordered (.obj [("cases", .arr (cases.map Case.schema.encode))]) j →
        read (Json.render j) = .ok cases) ∧
    ∀ cases : List Case,
      read (Json.render (.arr [.arr (cases.map Case.schema.encode)])) = .ok cases := by
  refine ⟨fun text cases h => ofToml_of_ofJson h, fun text => ?_, fun text => ?_,
    fun cases j hj => ?_, fun cases => ?_⟩
  · unfold readJsonFirst
    cases hjson : ofJson text.toList with
    | ok cases => exact read_of_ofJson hjson
    | error json =>
      unfold read
      cases htoml : ofToml text.toList with
      | ok cases => rfl
      | error toml => simp only [hjson]
  · unfold read
    cases htoml : ofToml text.toList with
    | ok cases => simp
    | error toml =>
      cases hjson : ofJson text.toList with
      | ok cases => simp
      | error json => simp
  · refine read_of_ofJson (ofJson_eq_ok_iff.mpr ?_)
    rw [Json.render, String.toList_ofList]
    exact Schema.parse_write lawful_schema (by decide) (fits_schema cases) hj
  · refine read_of_ofJson (ofJson_eq_ok_iff.mpr ?_)
    rw [Json.render, String.toList_ofList]
    exact parse_positional cases

end Suite

end ScopeCheck
