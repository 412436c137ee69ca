import Mathlib.Data.List.GetD
import ScopeCheck.Proofs.Notation
import ScopeCheck.Proofs.Verdict
import ScopeCheck.Tokenizer

/-!
# The one spelling of an expectation

In the compact notation, at most one string describes the tokens of a text.  A case with any other
string does not pass, so no separator is overlooked.  A line whose only token has just the root
scope is described by no string, because the notation would be that of a line without tokens.

* `Tokenizer.Spellable`: tokens whose scopes below the root can stand in a group.
* `Tokenizer.suffixRows`: the rows that describe the tokens of a text.
  `Tokenizer.Spellable.expressible_iff` says when they have a notation.
* `Tokenizer.Spellable.caseOutcome_compact`: how a case with a compact expectation ends.
* `Engine.run_compact_expectation`: the same for a run, with what follows for stray separators.
-/

namespace ScopeCheck

variable {S σ : Type}

namespace Tokenizer

/-- Every token has the root scope and, below it, scopes that are not empty and hold no
separator. -/
def Spellable (tokenizer : Tokenizer S) (root : String) : Prop :=
  ∀ line state, ∀ token ∈ (tokenizer.tokenize line state).tokens,
    ∃ suffixes, token.scopes = root :: suffixes ∧
      ∀ suffix ∈ suffixes, suffix ≠ "" ∧ Compact.Plain suffix

/-- The scopes below the first one, for the tokens on line `i` of a text. -/
def suffixesAt (tokenizer : Tokenizer S) (lines : List String) (i : Nat) : List ScopeChain :=
  (tokenizer.tokensAt lines i).map fun token => token.scopes.tail

/-- The scopes below the first one, for the tokens on all lines of a text. -/
def suffixRows (tokenizer : Tokenizer S) (lines : List String) : List (List ScopeChain) :=
  (List.range lines.length).map (tokenizer.suffixesAt lines)

variable {tokenizer : Tokenizer S} {root : String} {lines : List String}

theorem mem_suffixRows {chains : List ScopeChain} :
    chains ∈ tokenizer.suffixRows lines ↔
      ∃ i < lines.length, tokenizer.suffixesAt lines i = chains := by
  simp only [suffixRows, List.mem_map, List.mem_range]

namespace Spellable

variable (h : tokenizer.Spellable root)
include h

theorem of_mem_tokensAt {i : Nat} {token : Token} (hmem : token ∈ tokenizer.tokensAt lines i) :
    token.scopes = root :: token.scopes.tail ∧
      ∀ suffix ∈ token.scopes.tail, suffix ≠ "" ∧ Compact.Plain suffix := by
  rw [tokensAt] at hmem
  split at hmem
  · obtain ⟨suffixes, hscopes, hsuffixes⟩ := h _ _ token hmem
    rw [hscopes]
    exact ⟨rfl, hsuffixes⟩
  · exact absurd hmem List.not_mem_nil

theorem of_mem_suffixRows {chains : List ScopeChain} (hchains : chains ∈ tokenizer.suffixRows lines)
    {scopes : ScopeChain} (hscopes : scopes ∈ chains) {scope : String} (hscope : scope ∈ scopes) :
    scope ≠ "" ∧ Compact.Plain scope := by
  obtain ⟨i, -, rfl⟩ := mem_suffixRows.mp hchains
  obtain ⟨token, htoken, rfl⟩ := List.mem_map.mp hscopes
  exact (h.of_mem_tokensAt htoken).2 scope hscope

theorem map_scopes (i : Nat) :
    (tokenizer.tokensAt lines i).map Token.scopes =
      (tokenizer.suffixesAt lines i).map (root :: ·) := by
  rw [suffixesAt, List.map_map]
  exact List.map_congr_left fun token hmem => (h.of_mem_tokensAt hmem).1

/-- The tokens of a text have a notation, unless a line has a single token with just the root
scope. -/
theorem expressible_iff (hlines : lines ≠ []) :
    Compact.Expressible (tokenizer.suffixRows lines) ↔
      ∀ i < lines.length, (tokenizer.tokensAt lines i).map Token.scopes ≠ [[root]] := by
  have hsingle : ∀ i, (tokenizer.tokensAt lines i).map Token.scopes = [[root]] ↔
      tokenizer.suffixesAt lines i = [[]] := by
    intro i
    rw [h.map_scopes i, List.map_eq_singleton_iff]
    constructor
    · rintro ⟨scopes, hscopes, htail⟩
      rw [hscopes, (List.cons.inj htail).2]
    · intro hscopes
      exact ⟨[], hscopes, rfl⟩
  constructor
  · intro hexpressible i hi hroot
    exact hexpressible.row_ne _ (mem_suffixRows.mpr ⟨i, hi, rfl⟩) ((hsingle i).mp hroot)
  · intro hroot
    refine ⟨by simpa [suffixRows] using hlines, ?_, ?_, ?_⟩
    · intro chains hchains scopes hscopes scope hscope
      exact (h.of_mem_suffixRows hchains hscopes hscope).2
    · intro chains hchains hempty
      obtain ⟨i, hi, rfl⟩ := mem_suffixRows.mp hchains
      exact hroot i hi ((hsingle i).mpr hempty)
    · rintro chains hchains scopes hscopes rfl
      exact (h.of_mem_suffixRows hchains hscopes (List.mem_singleton_self "")).1 rfl

/-- A case passes when its expectation is that of the tokens, row by row. -/
theorem caseOutcome_eq_passed_iff_rows (case : NormalCase) :
    caseOutcome tokenizer root case = .passed ↔ case.expect = tokenizer.suffixRows case.text := by
  have hline : ∀ i, case.actual tokenizer i = case.wanted root i ↔
      case.expect.getD i [] = tokenizer.suffixesAt case.text i := by
    intro i
    rw [NormalCase.actual, h.map_scopes i, NormalCase.wanted, eq_comm]
    exact (List.map_injective_iff.mpr fun _ _ heq => (List.cons.inj heq).2).eq_iff
  have hrows : (List.range case.expect.length).map (fun i => case.expect.getD i []) =
      case.expect := by
    refine List.ext_getElem (by rw [List.length_map, List.length_range]) fun i _ hi => ?_
    rw [List.getElem_map, List.getElem_range, List.getD_eq_getElem _ _ hi]
  rw [caseOutcome_eq_passed_iff]
  constructor
  · rintro ⟨hlength, hlines⟩
    rw [← hrows, suffixRows, hlength]
    refine List.map_congr_left fun i hi => (hline i).mp (hlines i ?_)
    rw [hlength]
    exact List.mem_range.mp hi
  · intro hexpect
    have hlength : case.text.length = case.expect.length := by
      rw [hexpect, suffixRows, List.length_map, List.length_range]
    rw [← hrows, suffixRows, hlength, List.map_inj_left] at hexpect
    refine ⟨hlength, fun i hi => (hline i).mpr (hexpect i ?_)⟩
    rw [← hlength]
    exact List.mem_range.mpr hi

/-- A case with a compact expectation passes for one string at most. -/
theorem caseOutcome_compact (hlines : lines ≠ []) (name raw : String) :
    caseOutcome tokenizer root ⟨name, lines, Compact.rows raw⟩ = .passed ↔
      (∀ i < lines.length, (tokenizer.tokensAt lines i).map Token.scopes ≠ [[root]]) ∧
        raw = Compact.write (tokenizer.suffixRows lines) := by
  rw [h.caseOutcome_eq_passed_iff_rows, Compact.rows_eq_iff, h.expressible_iff hlines]

end Spellable

end Tokenizer

/-! ## Words and comments -/

/-- Whatever a line holds, there are only two kinds of tokens on it. -/
theorem Comment.scopes_of_mem_scan {root : String} {mode : Mode} {pos : Nat} {cs : List Char}
    {token : Token} (h : token ∈ (scan root mode pos cs).1) :
    token.scopes = [root, "word"] ∨ token.scopes = [root, "comment.block"] := by
  fun_induction scan root mode pos cs with
  | case1 => exact absurd h List.not_mem_nil
  | case2 start pos =>
    rw [List.mem_singleton.mp h]
    exact .inl rfl
  | case3 start _ pos =>
    -- a comment that goes on past an empty line leaves no token there
    split at h
    · rw [List.mem_singleton.mp h]
      exact .inr rfl
    · exact absurd h List.not_mem_nil
  | case7 start pos cs tokens inside hscan ih =>
    rcases List.mem_cons.mp h with rfl | hlater
    · exact .inl rfl
    · exact ih (hscan ▸ hlater)
  | case9 start star pos c cs _ tokens inside hscan ih =>
    rcases List.mem_cons.mp h with rfl | hlater
    · exact .inr rfl
    · exact ih (hscan ▸ hlater)
  | case4 _ _ ih => exact ih h
  | case5 _ _ _ ih => exact ih h
  | case6 _ _ _ _ _ ih => exact ih h
  | case8 _ _ _ _ _ ih => exact ih h
  | case10 _ _ _ _ _ _ ih => exact ih h

/-- Words and comments can be told in the compact notation. -/
theorem Tokenizer.spellable_comment (root : String) : (Tokenizer.comment root).Spellable root := by
  intro line inside token hmem
  rcases Comment.scopes_of_mem_scan hmem with hscopes | hscopes
  · refine ⟨["word"], hscopes, fun suffix hsuffix => ?_⟩
    rw [List.mem_singleton.mp hsuffix]
    exact ⟨by decide, by decide, by decide, by decide⟩
  · refine ⟨["comment.block"], hscopes, fun suffix hsuffix => ?_⟩
    rw [List.mem_singleton.mp hsuffix]
    exact ⟨by decide, by decide, by decide, by decide⟩

/-! ## Runs -/

namespace Engine

/-- On an engine that has its grammar, a compact expectation passes for just one string, and for
none if a line has a single token with just the root scope.  Whatever is put into that string,
separators among others, makes the case fail or be rejected. -/
theorem run_compact_expectation (grammar : Grammar) (tokenizer : Tokenizer S) (options : Options)
    (sink : Sink σ) (bench : Bench σ) (name : String) (text : CaseText)
    (override : Option Override) (hspellable : tokenizer.Spellable grammar.scopeName)
    (hlines : text.toLines ≠ []) :
    let engine : Engine S σ := ⟨.ready grammar tokenizer, options, sink, bench⟩
    let run := fun raw => (engine.run ⟨name, text, .compact raw, override⟩).result
    let rootOnly := ∃ i < text.toLines.length,
      (tokenizer.tokensAt text.toLines i).map Token.scopes = [[grammar.scopeName]]
    let spelling := Compact.write (tokenizer.suffixRows text.toLines)
    (sink.NeverPanics → ∀ raw, ∃ outcome, run raw = some outcome) ∧
      (∀ raw outcome, run raw = some outcome →
        (outcome = .passed ↔ ¬ rootOnly ∧ raw = spelling)) ∧
      (∀ before extra after, before ++ after = spelling → extra ≠ "" →
        ∀ outcome, run (before ++ extra ++ after) = some outcome →
          outcome = .failed ∨ outcome = .invalid) ∧
      (rootOnly → ∀ raw, run raw ≠ some .passed) := by
  intro engine run rootOnly spelling
  have hpassed : ∀ raw outcome, run raw = some outcome →
      (outcome = .passed ↔ ¬ rootOnly ∧ raw = spelling) := by
    intro raw outcome houtcome
    have hrun := (run_of_result_ne_none (houtcome ▸ Option.some_ne_none outcome)).1
    have hends : outcome = caseOutcome tokenizer grammar.scopeName
        ⟨name, text.toLines, Compact.rows raw⟩ :=
      Option.some.inj (houtcome.symm.trans hrun)
    rw [hends, hspellable.caseOutcome_compact hlines]
    simp only [rootOnly, not_exists, not_and, spelling]
  refine ⟨fun hsink raw => ?_, hpassed, ?_, ?_⟩
  · exact Option.ne_none_iff_exists'.mp (run_result_ne_none engine hsink _)
  · intro before extra after hsplit hextra outcome houtcome
    have hlonger : before ++ extra ++ after ≠ spelling := by
      intro heq
      have hlength := congrArg String.length (heq.trans hsplit.symm)
      simp only [String.length_append] at hlength
      have hpos : extra.length ≠ 0 := mt String.length_eq_zero_iff.mp hextra
      omega
    have hnot : outcome ≠ .passed := fun hp => hlonger ((hpassed _ _ houtcome).mp hp).2
    cases outcome with
    | passed => exact absurd rfl hnot
    | failed => exact .inl rfl
    | invalid => exact .inr rfl
  · intro hroot raw hrun
    exact ((hpassed raw .passed hrun).mp rfl).1 hroot

/-- A comment that goes on past an empty line, with a word after its end.  With one bar more, the
case does not pass. -/
theorem run_compact_expectation_long_comment :
    let engine : Engine Bool (List Event) :=
      ⟨.ready ⟨"source.c", .null⟩ (.comment "source.c"), {}, .recording, { state := [] }⟩
    let text : CaseText := .compact "/* a\n\nb */ c"
    let run := fun raw => (engine.run ⟨"comment", text, .compact raw, none⟩).result
    (Tokenizer.comment "source.c").Spellable "source.c" ∧ text.toLines ≠ [] ∧
      run "comment.block\n\ncomment.block|word" = some .passed ∧
      (run "comment.block\n\ncomment.block||word" = some .failed ∨
        run "comment.block\n\ncomment.block||word" = some .invalid) := by
  intro engine text run
  have hspellable := Tokenizer.spellable_comment "source.c"
  have hlines : text.toLines ≠ [] := by decide
  obtain ⟨hruns, hpassed, hstray, -⟩ := run_compact_expectation ⟨"source.c", .null⟩
    (.comment "source.c") {} .recording { state := [] } "comment" text none hspellable hlines
  refine ⟨hspellable, hlines, ?_, ?_⟩
  · obtain ⟨outcome, houtcome⟩ :=
      hruns Sink.neverPanics_recording "comment.block\n\ncomment.block|word"
    have hpass := (hpassed _ _ houtcome).mpr ⟨by decide, by decide⟩
    exact hpass ▸ houtcome
  · obtain ⟨outcome, houtcome⟩ := hruns Sink.neverPanics_recording _
    rcases hstray "comment.block\n\ncomment.block|" "|" "word" (by decide) (by decide) _ houtcome
      with rfl | rfl
    · exact .inl houtcome
    · exact .inr houtcome

end Engine

end ScopeCheck
