import ScopeCheck.Proofs.Reading
import ScopeCheck.Case
import ScopeCheck.Report
import ScopeCheck.Tokenizer

/-!
# Documents

Every type that is kept in documents is written without loss: fields that are unset stay unset, a
default that is written out is read as itself, and the two forms of the parts of a case are told
apart.

* `Schema.RoundTrips`: what writing and reading make of the values of a type.
* `Schema.roundTrips`: every lawful schema that is not nested too deep.
* `documents_round_trip`: tokens, options, overrides, statistics, reports and cases.
-/

namespace ScopeCheck

open ScopeCheck.Json (Reordered)

variable {α : Type}

/-- Values in range are given back by reading what they are written as: the JSON value and its text,
as they are and with the members of objects in any other order.  What is read is in range, so that
reading, writing and reading again changes nothing. -/
structure Schema.RoundTrips (schema : Schema α) (InRange : α → Prop) : Prop where
  value : ∀ x, InRange x → schema.decode (schema.encode x) = .ok x
  text : ∀ x, InRange x → schema.parse (Json.render (schema.encode x)).toList = .ok x
  reordered : ∀ x, InRange x → ∀ j, Reordered (schema.encode x) j →
    schema.decode j = .ok x ∧ schema.parse (Json.render j).toList = .ok x ∧
      ∃ k, Json.parse (Json.render j).toList = .ok k ∧ schema.decode k = .ok x
  valueInRange : ∀ j x, schema.decode j = .ok x → InRange x
  textInRange : ∀ (text : String) x, schema.parse text.toList = .ok x → InRange x
  valueAgain : ∀ j x, schema.decode j = .ok x → schema.decode (schema.encode x) = .ok x
  textAgain : ∀ (text : String) x, schema.parse text.toList = .ok x →
    schema.parse (Json.render (schema.encode x)).toList = .ok x

theorem Schema.roundTrips {schema : Schema α} (hlawful : schema.Lawful)
    (hdepth : schema.nesting ≤ Json.depthLimit) {InRange : α → Prop}
    (hrange : ∀ x, InRange x ↔ schema.Fits x) : schema.RoundTrips InRange := by
  have hdecodes := schema.decodes hlawful
  have htext (x : α) (hx : schema.Fits x) (j : Json) (hj : Reordered (schema.encode x) j) :
      schema.parse (Json.render j).toList = .ok x := by
    rw [Json.render, String.toList_ofList]
    exact Schema.parse_write hlawful hdepth hx hj
  constructor
  case value => exact fun x hx => hdecodes.decode ((hrange x).mp hx) (.refl _)
  case text => exact fun x hx => htext x ((hrange x).mp hx) _ (.refl _)
  case reordered =>
    intro x hx j hj
    have hx : schema.Fits x := (hrange x).mp hx
    have hreadable := (hdecodes.readable hx).mono hdepth
    obtain ⟨k, hk, hparse⟩ := (hreadable.reordered hj).parse
    refine ⟨hdecodes.decode hx hj, htext x hx j hj, k, ?_, ?_⟩
    · rw [Json.render, String.toList_ofList]
      exact hparse
    · exact hdecodes.decode hx (hreadable.reordered_trans hj hk)
  case valueInRange => exact fun j x h => (hrange x).mpr (hdecodes.fits h)
  case textInRange => exact fun text x h => (hrange x).mpr (Schema.fits_of_parse hlawful h)
  case valueAgain => exact fun j x h => hdecodes.decode (hdecodes.fits h) (.refl _)
  case textAgain => exact fun text x h => htext x (Schema.fits_of_parse hlawful h) _ (.refl _)

/-! ## The types -/

theorem Token.lawful_schema : Token.schema.Lawful := by
  refine ⟨⟨by decide, ?_⟩, fun _ => rfl, fun _ => rfl⟩
  exact ⟨Nat.le_refl _, Nat.le_refl _, trivial, trivial⟩

theorem Options.lawful_schema : Options.schema.Lawful := by
  refine ⟨⟨by decide, ?_⟩, fun _ => rfl, fun _ => rfl⟩
  exact ⟨trivial, trivial, trivial, trivial, trivial, trivial, trivial⟩

theorem Override.lawful_schema : Override.schema.Lawful := by
  refine ⟨⟨by decide, ?_⟩, fun _ => rfl, fun _ => rfl⟩
  exact ⟨trivial, trivial, trivial, trivial⟩

theorem Stats.lawful_schema : Stats.schema.Lawful := by
  have hword : Range.word.limit ≤ 2 ^ 64 := Nat.le_refl _
  refine ⟨⟨by decide, ?_⟩, fun _ => rfl, fun _ => rfl⟩
  exact ⟨hword, hword, hword, hword, hword, hword, hword, hword, hword, hword, trivial⟩

theorem Report.lawful_schema : Report.schema.Lawful := by
  have hword : Range.halfWord.limit ≤ 2 ^ 64 := by decide
  refine ⟨⟨by decide, ?_⟩, fun _ => rfl, fun _ => rfl⟩
  exact ⟨hword, Stats.lawful_schema, trivial, trivial⟩

/-- A string is not a list, so the list form does not fit what the compact form is written as. -/
theorem Schema.list_refuses_text (item : Schema α) (s : String) (j : Json)
    (h : Reordered (Schema.text.encode s) j) :
    ∃ fault, (Schema.list item).decode j = .error fault := by
  cases h
  exact ⟨_, rfl⟩

theorem CaseText.lawful_schema : CaseText.schema.Lawful := by
  refine ⟨⟨trivial, trivial, Schema.list_refuses_text _⟩, ?_, ?_⟩
  · intro x
    cases x <;> rfl
  · intro x
    cases x <;> rfl

theorem CaseExpect.lawful_schema : CaseExpect.schema.Lawful := by
  refine ⟨⟨trivial, trivial, Schema.list_refuses_text _⟩, ?_, ?_⟩
  · intro x
    cases x <;> rfl
  · intro x
    cases x <;> rfl

theorem Case.lawful_schema : Case.schema.Lawful := by
  refine ⟨⟨by decide, ?_⟩, fun _ => rfl, fun _ => rfl⟩
  exact ⟨trivial, CaseText.lawful_schema, CaseExpect.lawful_schema, Override.lawful_schema, trivial⟩

theorem Token.fits_schema_iff (token : Token) :
    token.start < 2 ^ 64 ∧ token.stop < 2 ^ 64 ↔ Token.schema.Fits token := by
  simp [Token.schema, Schema.Fits, Fields.Fits, Range.word]

theorem Options.fits_schema (options : Options) : Options.schema.Fits options :=
  ⟨trivial, trivial, trivial, trivial⟩

theorem Override.fits_schema (override : Override) : Override.schema.Fits override :=
  ⟨fun _ _ => trivial, fun _ _ => trivial, fun _ _ => trivial, trivial⟩

theorem Stats.fits_schema_iff (stats : Stats) :
    (∀ counter ∈ stats.named, counter.2 < 2 ^ 64) ↔ Stats.schema.Fits stats := by
  simp [Stats.schema, Stats.named, Schema.Fits, Fields.Fits, Range.word]

theorem Report.fits_schema_iff (report : Report) :
    report.schemaVersion < 2 ^ 32 ∧ (∀ counter ∈ report.stats.named, counter.2 < 2 ^ 64) ↔
      Report.schema.Fits report := by
  rw [Stats.fits_schema_iff]
  simp [Report.schema, Schema.Fits, Fields.Fits, Range.halfWord]

theorem CaseText.fits_schema (text : CaseText) : CaseText.schema.Fits text := by
  cases text with
  | lines ls => exact fun _ _ => trivial
  | compact text => exact trivial

theorem CaseExpect.fits_schema (expect : CaseExpect) : CaseExpect.schema.Fits expect := by
  cases expect with
  | rows rs => exact fun _ _ _ _ _ _ => trivial
  | compact text => exact trivial

theorem Case.fits_schema (case : Case) : Case.schema.Fits case :=
  ⟨trivial, case.text.fits_schema, case.expect.fits_schema,
    fun override _ => override.fits_schema, trivial⟩

/-- Tokens and statistics with counts of 64 bits, reports of a version of 32 bits, and all options,
overrides and cases come back from the documents they are written as. -/
theorem documents_round_trip :
    Token.schema.RoundTrips (fun token => token.start < 2 ^ 64 ∧ token.stop < 2 ^ 64) ∧
      Options.schema.RoundTrips (fun _ => True) ∧
      Override.schema.RoundTrips (fun _ => True) ∧
      Stats.schema.RoundTrips (fun stats => ∀ counter ∈ stats.named, counter.2 < 2 ^ 64) ∧
      Report.schema.RoundTrips (fun report => report.schemaVersion < 2 ^ 32 ∧
        ∀ counter ∈ report.stats.named, counter.2 < 2 ^ 64) ∧
      CaseText.schema.RoundTrips (fun _ => True) ∧
      CaseExpect.schema.RoundTrips (fun _ => True) ∧
      Case.schema.RoundTrips (fun _ => True) := by
  have htoken := Schema.roundTrips Token.lawful_schema (by decide) Token.fits_schema_iff
  have hoptions := Schema.roundTrips Options.lawful_schema (by decide)
    fun options => iff_of_true trivial options.fits_schema
  have hoverride := Schema.roundTrips Override.lawful_schema (by decide)
    fun override => iff_of_true trivial override.fits_schema
  have hstats := Schema.roundTrips Stats.lawful_schema (by decide) Stats.fits_schema_iff
  have hreport := Schema.roundTrips Report.lawful_schema (by decide) Report.fits_schema_iff
  have htext := Schema.roundTrips CaseText.lawful_schema (by decide)
    fun text => iff_of_true trivial text.fits_schema
  have hexpect := Schema.roundTrips CaseExpect.lawful_schema (by decide)
    fun expect => iff_of_true trivial expect.fits_schema
  have hcase := Schema.roundTrips Case.lawful_schema (by decide)
    fun case => iff_of_true trivial case.fits_schema
  exact ⟨htoken, hoptions, hoverride, hstats, hreport, htext, hexpect, hcase⟩

/-- An override that sets nothing is written as an empty object, and no override is not written. -/
example (case : Case) :
    Case.schema.encode { case with options := some {} } =
        .obj [("name", .str case.name), ("text", CaseText.schema.encode case.text),
          ("expect", CaseExpect.schema.encode case.expect), ("options", .obj [])] ∧
      Case.schema.encode { case with options := none } =
        .obj [("name", .str case.name), ("text", CaseText.schema.encode case.text),
          ("expect", CaseExpect.schema.encode case.expect)] :=
  ⟨rfl, rfl⟩

end ScopeCheck
