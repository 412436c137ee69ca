import ScopeCheck.Proofs.Notation
import ScopeCheck.Proofs.Verdict

/-!
# Cases in compact form

Both parts of a case can be given as one string.  Neither form loses anything, and a case in which
both are compact is rejected only because of its line breaks.

* `CaseText.length_toLines_compact`, `CaseExpect.length_toRows_compact`: a compact part has one line
  more than its string has line breaks.
* `caseOutcome_compact_eq_invalid_iff`: when a case of two strings is rejected.
* `Engine.compact_forms_lossless`: what strings can say of an expectation and of a text, and the
  cases that an engine rejects.
-/

namespace ScopeCheck

variable {S σ : Type}

theorem CaseText.length_toLines_compact (text : String) :
    (CaseText.compact text).toLines.length = text.toList.count '\n' + 1 :=
  Text.length_pieces '\n' text

theorem CaseExpect.length_toRows_compact (text : String) :
    (CaseExpect.compact text).toRows.length = text.toList.count '\n' + 1 :=
  Compact.length_rows text

/-- A case of two strings is rejected when they have different numbers of line breaks. -/
theorem caseOutcome_compact_eq_invalid_iff (tokenizer : Tokenizer S) (root name text expect : String)
    (override : Option Override) :
    caseOutcome tokenizer root (Case.normalize ⟨name, .compact text, .compact expect, override⟩) =
        .invalid ↔
      text.toList.count '\n' ≠ expect.toList.count '\n' := by
  rw [caseOutcome_eq_invalid_iff]
  show (CaseText.compact text).toLines.length ≠ (CaseExpect.compact expect).toRows.length ↔ _
  rw [CaseText.length_toLines_compact, CaseExpect.length_toRows_compact]
  omega

namespace Engine

/-- The rows of a string are written as that string again, and there is one more of them than the
string has line breaks.  Rows come of a string just when they are expressible, and then they come of
the string that they are written as.  The lines of a string hold no line break, and joined by line
breaks they are the string.  So an engine that has its grammar rejects a case of two strings when
these have different numbers of line breaks, and for no other reason. -/
theorem compact_forms_lossless (grammar : Grammar) (tokenizer : Tokenizer S) (options : Options)
    (sink : Sink σ) (bench : Bench σ) :
    let engine : Engine S σ := ⟨.ready grammar tokenizer, options, sink, bench⟩
    let rowsOf := fun text => (CaseExpect.compact text).toRows
    let linesOf := fun text => (CaseText.compact text).toLines
    (∀ text, (rowsOf text).length = text.toList.count '\n' + 1 ∧
      Compact.write (rowsOf text) = text) ∧
    Function.Injective rowsOf ∧
    (∀ rows, (∃ text, rowsOf text = rows) ↔ Compact.Expressible rows) ∧
    (∀ rows, Compact.Expressible rows → rowsOf (Compact.write rows) = rows) ∧
    (∀ text, linesOf text ≠ [] ∧ (∀ line ∈ linesOf text, '\n' ∉ line.toList) ∧
      Text.joined '\n' (linesOf text) = text) ∧
    ∀ name text expect override,
      let result := (engine.run ⟨name, .compact text, .compact expect, override⟩).result
      (sink.NeverPanics → ∃ outcome, result = some outcome) ∧
        ∀ outcome, result = some outcome →
          (outcome = .invalid ↔ text.toList.count '\n' ≠ expect.toList.count '\n') := by
  intro engine rowsOf linesOf
  refine ⟨fun text => ⟨Compact.length_rows text, Compact.write_rows text⟩,
    Compact.rows_injective, fun rows => Compact.exists_rows_eq_iff,
    fun rows h => h.rows_write, ?_, ?_⟩
  · intro text
    have hlength : (linesOf text).length = text.toList.count '\n' + 1 :=
      CaseText.length_toLines_compact text
    refine ⟨?_, fun line hline => Text.not_mem_of_mem_pieces hline, Text.joined_pieces '\n' text⟩
    rw [← List.length_pos_iff, hlength]
    omega
  · intro name text expect override result
    constructor
    · intro hsink
      exact Option.ne_none_iff_exists'.mp (run_result_ne_none engine hsink _)
    · intro outcome houtcome
      have hrun := (run_of_result_ne_none (houtcome ▸ Option.some_ne_none outcome)).1
      have hends := Option.some.inj (houtcome.symm.trans hrun)
      rw [hends]
      exact caseOutcome_compact_eq_invalid_iff tokenizer grammar.scopeName name text expect override

/-- A row with an empty chain behind another one, an empty row, and a row of two empty chains.  Their
string has two line breaks, and a text of two lines does not go with it. -/
theorem compact_forms_lossless_empty_chains :
    let rows : List (List ScopeChain) := [[["a", "b"], []], [], [[], []]]
    let engine : Engine Unit (List Event) :=
      ⟨.ready ⟨"source.t", .null⟩ ⟨(), fun _ _ => ⟨[], ()⟩⟩, {}, .recording, { state := [] }⟩
    Compact.Expressible rows ∧ (CaseExpect.compact "a b|\n\n|").toRows = rows ∧
      Sink.recording.NeverPanics ∧
      (engine.run ⟨"short", .compact "x\ny", .compact "a b|\n\n|", none⟩).result =
        some .invalid := by
  intro rows engine
  obtain ⟨-, -, hrange, -, -, hruns⟩ := compact_forms_lossless ⟨"source.t", .null⟩
    ⟨(), fun _ _ => ⟨[], ()⟩⟩ {} .recording { state := [] }
  have hrows : (CaseExpect.compact "a b|\n\n|").toRows = rows := by decide
  have hexpressible : Compact.Expressible rows := (hrange rows).mp ⟨_, hrows⟩
  obtain ⟨hresult, hinvalid⟩ := hruns "short" "x\ny" "a b|\n\n|" none
  obtain ⟨outcome, houtcome⟩ := hresult Sink.neverPanics_recording
  have hrejected := (hinvalid outcome houtcome).mpr (by decide)
  exact ⟨hexpressible, hrows, Sink.neverPanics_recording, hrejected ▸ houtcome⟩

end Engine

end ScopeCheck
