import ScopeCheck.Proofs.Procedures

/-!
# The lines of a case

A case is compared line by line, with the state of the tokenizer passed on from line to line.  This
module says what stands on line `i` without that passing on, and when a line passes.

* `Tokenizer.stateFrom`, `Tokenizer.tokensAt`: the state after lines, and the tokens of line `i`.
* `comparedLines_eq`: the compared lines are the lines `0, 1, …` with their tokens.
* `agreements`, `mismatches`: the places at which two lists agree or differ, up to the end of the
  longer one.  `mismatches_eq_zero_iff` says that two lists without a mismatch are equal.
* `Position.passed_eq`: a position passes where the chains of the tokens and the expected chains
  agree.  `ComparedLine.failures_eq` counts the positions of a line that do not.
-/

namespace ScopeCheck

variable {S : Type}

/-! ## Threading the state -/

namespace Tokenizer

/-- The state after lines that are tokenized one after the other. -/
def stateFrom (tokenizer : Tokenizer S) (state : S) (lines : List String) : S :=
  lines.foldl (fun state line => (tokenizer.tokenize line state).next) state

/-- The tokens of line `i` of a text that is tokenized from its start; none past its end. -/
def tokensAt (tokenizer : Tokenizer S) (text : List String) (i : Nat) : List Token :=
  match text[i]? with
  | some line =>
    (tokenizer.tokenize line (tokenizer.stateFrom tokenizer.initial (text.take i))).tokens
  | none => []

end Tokenizer

namespace NormalCase

/-- Line `i` of a case, with the state in which the tokenizer gets to it. -/
def compared (case : NormalCase) (tokenizer : Tokenizer S) (i : Nat) : ComparedLine S where
  index := i
  text := case.text.getD i ""
  state := tokenizer.stateFrom tokenizer.initial (case.text.take i)
  tokens := tokenizer.tokensAt case.text i
  expected := case.expect.getD i []

/-- The scope chains of the tokens on line `i`. -/
def actual (case : NormalCase) (tokenizer : Tokenizer S) (i : Nat) : List (List String) :=
  (tokenizer.tokensAt case.text i).map Token.scopes

/-- The chains expected on line `i`, with the root scope in front of each. -/
def wanted (case : NormalCase) (root : String) (i : Nat) : List (List String) :=
  (case.expect.getD i []).map (root :: ·)

end NormalCase

/-- Line `i` after a line with some number and state has that number plus `i`, and the state that
the lines before it lead to. -/
theorem comparedLinesFrom_getElem? (tokenizer : Tokenizer S) (index : Nat) (state : S)
    (lines : List (String × List ScopeChain)) (i : Nat) :
    (comparedLinesFrom tokenizer index state lines)[i]? =
      lines[i]?.map fun line =>
        let before := tokenizer.stateFrom state ((lines.take i).map Prod.fst)
        ⟨index + i, line.1, before, (tokenizer.tokenize line.1 before).tokens, line.2⟩ := by
  induction lines generalizing index state i with
  | nil => rfl
  | cons line lines ih =>
    cases i with
    | zero => rfl
    | succ i =>
      rw [comparedLinesFrom, List.getElem?_cons_succ, ih, List.getElem?_cons_succ,
        Nat.add_right_comm, Nat.add_assoc]
      rfl

/-- The lines that are compared are the lines of the case in order, when its parts have as many. -/
theorem comparedLines_eq (tokenizer : Tokenizer S) {case : NormalCase}
    (h : case.text.length = case.expect.length) :
    comparedLines tokenizer case =
      (List.range case.text.length).map (case.compared tokenizer) := by
  refine List.ext_getElem? fun i => ?_
  rw [comparedLines, comparedLinesFrom_getElem?, List.map_take, List.map_fst_zip (by omega)]
  by_cases hi : i < case.text.length
  · have hi' : i < case.expect.length := by omega
    have htext : case.text[i]? = some case.text[i] := List.getElem?_eq_getElem hi
    have hexpect : case.expect[i]? = some case.expect[i] := List.getElem?_eq_getElem hi'
    have hzip : (case.text.zip case.expect)[i]? = some (case.text[i], case.expect[i]) :=
      List.getElem?_zip_eq_some.mpr ⟨htext, hexpect⟩
    rw [hzip, List.getElem?_map, List.getElem?_range hi]
    simp [NormalCase.compared, Tokenizer.tokensAt, htext, hexpect]
  · rw [List.getElem?_eq_none (by rw [List.length_zip]; omega),
      List.getElem?_eq_none (by rw [List.length_map, List.length_range]; omega)]
    rfl

/-! ## Comparing two lists place by place -/

section Places

variable {α : Type} [DecidableEq α]

/-- The number of places at which two lists agree.  Below the end of the longer list, both have an
entry there. -/
def agreements (xs ys : List α) : Nat :=
  (List.range (max xs.length ys.length)).countP fun k => xs[k]? = ys[k]?

/-- The number of places, up to the end of the longer list, at which two lists differ.  A place
past the end of the shorter list is one of them. -/
def mismatches (xs ys : List α) : Nat :=
  (List.range (max xs.length ys.length)).countP fun k => xs[k]? ≠ ys[k]?

/-- Every place is an agreement or a mismatch. -/
theorem agreements_add_mismatches (xs ys : List α) :
    agreements xs ys + mismatches xs ys = max xs.length ys.length := by
  have h := List.length_eq_countP_add_countP (fun k => decide (xs[k]? = ys[k]?))
    (l := List.range (max xs.length ys.length))
  rw [List.length_range] at h
  refine Eq.trans ?_ h.symm
  simp only [agreements, mismatches, decide_eq_true_eq]

/-- Two lists without a mismatch are equal: where neither has an entry, they agree too. -/
theorem mismatches_eq_zero_iff (xs ys : List α) : mismatches xs ys = 0 ↔ xs = ys := by
  rw [mismatches, List.countP_eq_zero]
  constructor
  · intro h
    refine List.ext_getElem? fun k => ?_
    by_cases hk : k < max xs.length ys.length
    · simpa using h k (List.mem_range.mpr hk)
    · rw [List.getElem?_eq_none (by omega), List.getElem?_eq_none (by omega)]
  · rintro rfl
    simp

end Places

/-! ## Positions that pass -/

/-- A position passes where the chains of the tokens and the expected chains agree. -/
theorem Position.passed_eq (root : String) (tokens : List Token) (expected : List ScopeChain)
    {k : Nat} (hk : k < max tokens.length expected.length) :
    Position.passed ⟨k, tokens[k]?, expected[k]?.map (root :: ·)⟩ =
      decide ((tokens.map Token.scopes)[k]? = (expected.map (root :: ·))[k]?) := by
  rw [List.getElem?_map, List.getElem?_map, Position.passed]
  cases htoken : tokens[k]? with
  | some token =>
    cases hchain : expected[k]? with
    | some chain => simp
    | none => simp
  | none =>
    cases hchain : expected[k]? with
    | some chain => simp
    | none =>
      -- a position belongs to at least one of the two sides
      rw [List.getElem?_eq_none_iff] at htoken hchain
      omega

namespace ComparedLine

/-- The scope chains of the tokens of a line. -/
def actual (line : ComparedLine S) : List (List String) :=
  line.tokens.map Token.scopes

/-- The chains expected on a line, with the root scope in front of each. -/
def wanted (root : String) (line : ComparedLine S) : List (List String) :=
  line.expected.map (root :: ·)

theorem countP_passed (root : String) (line : ComparedLine S) :
    (line.positions root).countP Position.passed =
      agreements line.actual (line.wanted root) := by
  rw [positions, List.countP_map, agreements, actual, wanted, List.length_map, List.length_map]
  refine List.countP_congr fun k hk => ?_
  rw [Function.comp_apply, Position.passed_eq root _ _ (List.mem_range.mp hk)]

/-- The failures of a line are the places at which the chains of its tokens and the expected chains
differ. -/
theorem failures_eq (root : String) (line : ComparedLine S) :
    line.failures root = mismatches line.actual (line.wanted root) := by
  rw [failures, positions, List.countP_map, mismatches, actual, wanted, List.length_map,
    List.length_map]
  refine List.countP_congr fun k hk => ?_
  rw [Function.comp_apply, Position.passed_eq root _ _ (List.mem_range.mp hk), decide_not]

end ComparedLine

end ScopeCheck
