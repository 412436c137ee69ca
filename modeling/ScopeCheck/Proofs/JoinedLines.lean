import ScopeCheck.Proofs.Spelling

/-!
# Lines joined by a space

A space ends a word, and neither opens nor closes a comment.  So the tokenizer of words and comments
goes over two lines that are joined by a space as it goes over the two lines one after the other,
unless a comment is open between them.  Then the two parts of the comment become one token.

* `Comment.scan_shift`: the same text at another offset.
* `Comment.scan_append_space`: the scanner in front of a space and behind it.
* `Tokenizer.chainRows`: the scope chains on the lines of a text.
  `caseOutcome_eq_passed_iff_chainRows` says that a case passes when it expects just these.
* `Engine.joined_lines_pass`: what joining two lines of a case does to its outcome.
-/

namespace ScopeCheck

open Text

variable {S σ : Type}

/-! ## Other offsets -/

/-- A token at an offset that is higher by `n`. -/
def Token.shift (n : Nat) (token : Token) : Token :=
  { token with start := token.start + n, stop := token.stop + n }

namespace Comment

def Mode.shift (n : Nat) : Mode → Mode
  | gap => gap
  | word start => word (start + n)
  | comment start star => comment (start + n) star

/-- A text at a higher offset has the same tokens there. -/
theorem scan_shift (root : String) (n : Nat) (mode : Mode) (pos : Nat) (cs : List Char) :
    scan root (mode.shift n) (pos + n) cs =
      ((scan root mode pos cs).1.map (Token.shift n), (scan root mode pos cs).2) := by
  fun_induction scan root mode pos cs with
  | case1 => rfl
  | case2 => rfl
  | case3 start star pos =>
    simp only [Mode.shift, scan, Nat.add_lt_add_iff_right]
    split <;> rfl
  | case4 pos cs ih =>
    rw [Mode.shift, scan, Nat.add_right_comm, ← ih]
    rfl
  | case5 pos cs hopen ih =>
    rw [Mode.shift, scan, if_pos rfl, Nat.add_right_comm, ← ih]
    · rfl
    · exact hopen
  | case6 pos c cs hopen hspace ih =>
    rw [Mode.shift, scan, if_neg hspace, Nat.add_right_comm, ← ih]
    · rfl
    · exact hopen
  | case7 start pos cs tokens inside hscan ih =>
    rw [Mode.shift, hscan] at ih
    rw [Mode.shift, scan, if_pos rfl, Nat.add_right_comm, ih]
    rfl
  | case8 start pos c cs hspace ih =>
    rw [Mode.shift, scan, if_neg hspace, Nat.add_right_comm, ← ih]
    rfl
  | case9 start star pos c cs hclose tokens inside hscan ih =>
    rw [Mode.shift, hscan] at ih
    rw [Mode.shift, scan, if_pos hclose, Nat.add_right_comm, ih]
    rfl
  | case10 start star pos c cs hclose ih =>
    rw [Mode.shift, scan, if_neg hclose, Nat.add_right_comm, ← ih]
    rfl

/-- Where a comment starts does not matter for what is open behind it. -/
theorem scan_comment_snd (root : String) (start start' : Nat) (star : Bool) (pos : Nat)
    (cs : List Char) :
    (scan root (.comment start star) pos cs).2 = (scan root (.comment start' star) pos cs).2 := by
  induction cs generalizing star pos with
  | nil => rfl
  | cons c cs ih =>
    rw [scan, scan]
    by_cases hclose : (star && decide (c = '/')) = true
    · rw [if_pos hclose, if_pos hclose]
    · rw [if_neg hclose, if_neg hclose, ih]

/-- A line behind an open comment, at any offset. -/
theorem scan_comment_start (root : String) (start pos : Nat) (cs : List Char) :
    (scan root (.comment start false) pos cs).2 = (scan root (startMode true) 0 cs).2 := by
  have hshift : scan root (.comment (0 + pos) false) (0 + pos) cs = _ :=
    scan_shift root pos (startMode true) 0 cs
  rw [Nat.zero_add] at hshift
  rw [scan_comment_snd root start pos, hshift]

/-- A line between tokens, at any offset. -/
theorem scan_gap_start (root : String) (pos : Nat) (cs : List Char) :
    scan root .gap pos cs =
      ((scan root (startMode false) 0 cs).1.map (Token.shift pos),
        (scan root (startMode false) 0 cs).2) := by
  rw [← scan_shift, Nat.zero_add]
  rfl

/-! ## A space in a line -/

theorem scan_gap_space (root : String) (pos : Nat) (cs : List Char) :
    scan root .gap pos (' ' :: cs) = scan root .gap (pos + 1) cs := by
  rw [scan, if_pos rfl]
  simp

theorem scan_word_space (root : String) (start pos : Nat) (cs : List Char) :
    scan root (.word start) pos (' ' :: cs) =
      (wordToken root start pos :: (scan root .gap (pos + 1) cs).1,
        (scan root .gap (pos + 1) cs).2) := by
  rw [scan, if_pos rfl]

theorem scan_comment_space (root : String) (start : Nat) (star : Bool) (pos : Nat)
    (cs : List Char) :
    scan root (.comment start star) pos (' ' :: cs) =
      scan root (.comment start false) (pos + 1) cs := by
  rw [scan, if_neg (by simp)]
  rfl

/-- Behind a space the scanner goes on as at the start of a line.  If no comment is open in front of
the space, the tokens in front of it are not changed by what is behind it. -/
theorem scan_append_space (root : String) (mode : Mode) (pos : Nat) (cs ds : List Char) :
    (scan root mode pos (cs ++ ' ' :: ds)).2 =
        (scan root (startMode (scan root mode pos cs).2) 0 ds).2 ∧
      ((scan root mode pos cs).2 = false →
        (scan root mode pos (cs ++ ' ' :: ds)).1 =
          (scan root mode pos cs).1 ++ (scan root .gap (pos + byteLength cs + 1) ds).1) := by
  fun_induction scan root mode pos cs with
  | case1 pos =>
    rw [List.nil_append, scan_gap_space]
    exact ⟨by rw [scan_gap_start], fun _ => rfl⟩
  | case2 start pos =>
    rw [List.nil_append, scan_word_space]
    exact ⟨by rw [scan_gap_start], fun _ => rfl⟩
  | case3 start star pos =>
    rw [List.nil_append, scan_comment_space]
    exact ⟨scan_comment_start root start (pos + 1) ds, fun h => Bool.noConfusion h⟩
  | case4 pos cs ih =>
    have hsize : pos + byteLength ('/' :: '*' :: cs) = pos + 2 + byteLength cs := by
      show pos + (1 + (1 + byteLength cs)) = _
      omega
    rw [hsize]
    exact ih
  | case5 pos cs hopen ih =>
    rw [List.cons_append, scan_gap_space, byteLength_cons, ← Nat.add_assoc]
    exact ih
  | case6 pos c cs hopen hspace ih =>
    rw [List.cons_append, scan, if_neg hspace, byteLength_cons, ← Nat.add_assoc]
    · exact ih
    · -- a slash at the end of the first part is followed by the space, not by a star
      intro inner hslash hstar
      cases cs with
      | nil => simp at hstar
      | cons d cs => exact hopen cs hslash (by rw [(List.cons.inj hstar).1])
  | case7 start pos cs tokens inside hscan ih =>
    rw [hscan] at ih
    rw [List.cons_append, scan_word_space, byteLength_cons, ← Nat.add_assoc]
    exact ⟨ih.1, fun hclosed => congrArg (wordToken root start pos :: ·) (ih.2 hclosed)⟩
  | case8 start pos c cs hspace ih =>
    rw [List.cons_append, scan, if_neg hspace, byteLength_cons, ← Nat.add_assoc]
    exact ih
  | case9 start star pos c cs hclose tokens inside hscan ih =>
    have hc : c = '/' := by
      rw [Bool.and_eq_true, decide_eq_true_eq] at hclose
      exact hclose.2
    rw [hscan] at ih
    rw [List.cons_append, scan, if_pos hclose, hc, byteLength_cons, ← Nat.add_assoc]
    exact ⟨ih.1, fun hclosed => congrArg (commentToken root start (pos + 1) :: ·) (ih.2 hclosed)⟩
  | case10 start star pos c cs hclose ih =>
    rw [List.cons_append, scan, if_neg hclose, byteLength_cons, ← Nat.add_assoc]
    exact ih

end Comment

namespace Tokenizer

/-- The state behind a joined line is that behind the two lines. -/
theorem next_comment_joined (root a b : String) (inside : Bool) :
    ((comment root).tokenize (a ++ " " ++ b) inside).next =
      ((comment root).tokenize b ((comment root).tokenize a inside).next).next := by
  have hjoined : (a ++ " " ++ b).toList = a.toList ++ ' ' :: b.toList := by simp
  show (Comment.scan root (Comment.startMode inside) 0 (a ++ " " ++ b).toList).2 = _
  rw [hjoined]
  exact (Comment.scan_append_space root (Comment.startMode inside) 0 a.toList b.toList).1

/-- Where no comment is open behind the first line, the tokens of the second line stand behind that
line and the space. -/
theorem tokens_comment_joined {root a : String} {inside : Bool}
    (hclosed : ((comment root).tokenize a inside).next = false) (b : String) :
    ((comment root).tokenize (a ++ " " ++ b) inside).tokens =
      ((comment root).tokenize a inside).tokens ++
        ((comment root).tokenize b false).tokens.map (Token.shift (byteLength a.toList + 1)) := by
  have hjoined : (a ++ " " ++ b).toList = a.toList ++ ' ' :: b.toList := by simp
  have htokens := (Comment.scan_append_space root (Comment.startMode inside) 0 a.toList b.toList).2
    hclosed
  rw [Comment.scan_gap_start, Nat.zero_add] at htokens
  show (Comment.scan root (Comment.startMode inside) 0 (a ++ " " ++ b).toList).1 = _
  rw [hjoined]
  exact htokens

/-! ## The chains of a text -/

/-- The scope chains of the tokens on lines, one row for each line. -/
def chainRows (tokenizer : Tokenizer S) : S → List String → List (List (List String))
  | _, [] => []
  | state, line :: lines =>
    let produced := tokenizer.tokenize line state
    produced.tokens.map Token.scopes :: tokenizer.chainRows produced.next lines

variable (tokenizer : Tokenizer S) (state : S)

theorem chainRows_append (first second : List String) :
    tokenizer.chainRows state (first ++ second) =
      tokenizer.chainRows state first ++
        tokenizer.chainRows (tokenizer.stateFrom state first) second := by
  induction first generalizing state with
  | nil => rfl
  | cons line lines ih =>
    rw [List.cons_append, chainRows, ih]
    rfl

theorem chainRows_getElem? (lines : List String) (i : Nat) :
    (tokenizer.chainRows state lines)[i]? =
      lines[i]?.map fun line =>
        (tokenizer.tokenize line (tokenizer.stateFrom state (lines.take i))).tokens.map
          Token.scopes := by
  induction lines generalizing state i with
  | nil => rfl
  | cons line lines ih =>
    cases i with
    | zero => rfl
    | succ i =>
      rw [chainRows, List.getElem?_cons_succ, ih, List.getElem?_cons_succ]
      rfl

theorem length_chainRows (lines : List String) :
    (tokenizer.chainRows state lines).length = lines.length := by
  induction lines generalizing state with
  | nil => rfl
  | cons line lines ih => exact congrArg (· + 1) (ih _)

end Tokenizer

/-- A case passes when its expected chains are those of its text. -/
theorem caseOutcome_eq_passed_iff_chainRows (tokenizer : Tokenizer S) (root : String)
    (case : NormalCase) :
    caseOutcome tokenizer root case = .passed ↔
      tokenizer.chainRows tokenizer.initial case.text =
        case.expect.map (List.map (root :: ·)) := by
  have hactual : ∀ i < case.text.length,
      (tokenizer.chainRows tokenizer.initial case.text)[i]? = some (case.actual tokenizer i) := by
    intro i hi
    rw [Tokenizer.chainRows_getElem?, NormalCase.actual, Tokenizer.tokensAt,
      List.getElem?_eq_getElem hi]
    rfl
  have hwanted : ∀ i < case.expect.length,
      (case.expect.map (List.map (root :: ·)))[i]? = some (case.wanted root i) := by
    intro i hi
    rw [List.getElem?_map, NormalCase.wanted, List.getD_eq_getElem?_getD,
      List.getElem?_eq_getElem hi]
    rfl
  rw [caseOutcome_eq_passed_iff]
  constructor
  · rintro ⟨hlength, hlines⟩
    apply List.ext_getElem?
    intro i
    by_cases hi : i < case.text.length
    · rw [hactual i hi, hlines i hi, hwanted i (hlength ▸ hi)]
    · rw [List.getElem?_eq_none (by rw [Tokenizer.length_chainRows]; omega),
        List.getElem?_eq_none (by rw [List.length_map]; omega)]
  · intro h
    have hlength : case.text.length = case.expect.length := by
      rw [← tokenizer.length_chainRows tokenizer.initial case.text, h, List.length_map]
    refine ⟨hlength, fun i hi => ?_⟩
    have hrow := congrArg (·[i]?) h
    simp only [hactual i hi, hwanted i (hlength ▸ hi)] at hrow
    exact Option.some.inj hrow

/-! ## Cases with two lines joined -/

/-- The second case is the first one with the lines `a` and `b` joined by a space, which stand
behind the lines `before`, and with the two rows for them put together. -/
inductive NormalCase.JoinsLines (before : List String) (a b : String) :
    NormalCase → NormalCase → Prop where
  | intro {name name' : String} {after : List String} {rows rowsAfter : List (List ScopeChain)}
      {row row' : List ScopeChain} (hrows : before.length = rows.length) :
      JoinsLines before a b
        ⟨name, before ++ a :: b :: after, rows ++ row :: row' :: rowsAfter⟩
        ⟨name', before ++ (a ++ " " ++ b) :: after, rows ++ (row ++ row') :: rowsAfter⟩

theorem Token.map_scopes_shift (n : Nat) (tokens : List Token) :
    (tokens.map (Token.shift n)).map Token.scopes = tokens.map Token.scopes := by
  rw [List.map_map]
  rfl

/-- Where no comment is open behind the line `a`, the chains of the joined line are those of `a`
and those of `b`, and the lines behind it keep theirs. -/
theorem Tokenizer.chainRows_comment_joined {root a : String} {inside : Bool}
    (hclosed : ((comment root).tokenize a inside).next = false) (b : String)
    (after : List String) :
    ∃ chains chains' rows,
      (comment root).chainRows inside (a :: b :: after) = chains :: chains' :: rows ∧
        (comment root).chainRows inside ((a ++ " " ++ b) :: after) =
          (chains ++ chains') :: rows := by
  refine ⟨_, _, _, rfl, ?_⟩
  rw [chainRows, tokens_comment_joined hclosed, next_comment_joined, hclosed, List.map_append,
    Token.map_scopes_shift]

/-- Joining two lines keeps a case passing, unless a comment is open between them. -/
theorem NormalCase.JoinsLines.passed {before : List String} {a b : String}
    {case joined : NormalCase} (h : JoinsLines before a b case joined) {tokenRoot : String}
    (hclosed : (Tokenizer.comment tokenRoot).stateFrom false (before ++ [a]) = false)
    {root : String} (hpassed : caseOutcome (.comment tokenRoot) root case = .passed) :
    caseOutcome (.comment tokenRoot) root joined = .passed := by
  cases h with
  | @intro name name' after rows rowsAfter row row' hlength =>
    rw [Tokenizer.stateFrom, List.foldl_append] at hclosed
    obtain ⟨chains, chains', others, hsplit, hjoined⟩ :=
      Tokenizer.chainRows_comment_joined hclosed b after
    rw [caseOutcome_eq_passed_iff_chainRows] at hpassed ⊢
    simp only [Tokenizer.chainRows_append, List.map_append, List.map_cons] at hpassed ⊢
    have hfront : ((Tokenizer.comment tokenRoot).chainRows false before).length =
        (rows.map (List.map (root :: ·))).length := by
      rw [Tokenizer.length_chainRows, List.length_map, hlength]
    obtain ⟨hbefore, hrest⟩ := List.append_inj hpassed hfront
    have hrest : chains :: chains' :: others = _ := hsplit.symm.trans hrest
    obtain ⟨hrow, hrest⟩ := List.cons.inj hrest
    obtain ⟨hrow', hothers⟩ := List.cons.inj hrest
    have hline : (Tokenizer.comment tokenRoot).chainRows
        ((Tokenizer.comment tokenRoot).stateFrom false before) ((a ++ " " ++ b) :: after) = _ :=
      hjoined
    rw [hrow, hrow', hothers] at hline
    exact congrArg₂ (· ++ ·) hbefore hline

namespace Engine

/-- The tokenizer of words and comments goes over two lines joined by a space as over the two lines,
and unless a comment is open between them, it finds the same tokens, those of the second line behind
the first line and the space.  So a case that passes still does with two lines joined, where no
comment is open between them. -/
theorem joined_lines_pass :
    (∀ (root a b : String) (inside : Bool),
      let first := (Tokenizer.comment root).tokenize a inside
      let second := (Tokenizer.comment root).tokenize b first.next
      let joined := (Tokenizer.comment root).tokenize (a ++ " " ++ b) inside
      joined.next = second.next ∧
        (first.next = false →
          joined.tokens =
            first.tokens ++ second.tokens.map (Token.shift (byteLength a.toList + 1)))) ∧
    ∀ (root : String) (grammar : Grammar) (options : Options) (sink : Sink σ) (bench : Bench σ)
      (before : List String) (a b : String) (case joined : Case),
      case.normalize.JoinsLines before a b joined.normalize →
      (Tokenizer.comment root).stateFrom (Tokenizer.comment root).initial (before ++ [a]) = false →
      let engine : Engine Bool σ := ⟨.ready grammar (.comment root), options, sink, bench⟩
      (engine.run case).result = some .passed →
        (∀ outcome, (engine.run joined).result = some outcome → outcome = .passed) ∧
          (sink.NeverPanics → (engine.run joined).result = some .passed) := by
  constructor
  · intro root a b inside first second joined
    refine ⟨Tokenizer.next_comment_joined root a b inside, fun hclosed => ?_⟩
    show _ = _ ++ ((Tokenizer.comment root).tokenize b first.next).tokens.map _
    rw [hclosed]
    exact Tokenizer.tokens_comment_joined hclosed b
  · intro root grammar options sink bench before a b case joined hjoins hclosed engine hrun
    have hcase : outcome engine.backing case.normalize = .passed := by
      have hends := (run_of_result_ne_none (hrun ▸ Option.some_ne_none _)).1
      exact Option.some.inj (hends.symm.trans hrun)
    have hjoined : outcome engine.backing joined.normalize = .passed := hjoins.passed hclosed hcase
    have hends : (engine.run joined).result ≠ none →
        (engine.run joined).result = some .passed := by
      intro hne
      rw [(run_of_result_ne_none hne).1, hjoined]
    constructor
    · intro outcome houtcome
      have hpassed := hends (houtcome ▸ Option.some_ne_none outcome)
      exact Option.some.inj (houtcome.symm.trans hpassed)
    · intro hsink
      exact hends (run_result_ne_none engine hsink joined)

/-- A comment is open in front of the two lines, one of which ends with a slash where the other one
starts with a star. -/
theorem joined_lines_pass_half_marker :
    let engine : Engine Bool (List Event) :=
      ⟨.ready ⟨"source.c", .null⟩ (.comment "source.c"), {}, .recording, { state := [] }⟩
    let case : Case :=
      ⟨"split", .lines ["x /* a", "b */ c/", "*d e"],
        .compact "word|comment.block\ncomment.block|word\nword|word", none⟩
    let joined : Case :=
      ⟨"joined", .lines ["x /* a", "b */ c/ *d e"],
        .compact "word|comment.block\ncomment.block|word|word|word", none⟩
    case.normalize.JoinsLines ["x /* a"] "b */ c/" "*d e" joined.normalize ∧
      (Tokenizer.comment "source.c").stateFrom (Tokenizer.comment "source.c").initial
          (["x /* a"] ++ ["b */ c/"]) = false ∧
      (engine.run case).result = some .passed ∧ (engine.run joined).result = some .passed := by
  intro engine case joined
  have hjoins : case.normalize.JoinsLines ["x /* a"] "b */ c/" "*d e" joined.normalize := by
    have hcase : case.normalize = ⟨"split", ["x /* a"] ++ "b */ c/" :: "*d e" :: [],
      [[["word"], ["comment.block"]]] ++ [["comment.block"], ["word"]] ::
        [["word"], ["word"]] :: []⟩ := by decide
    have hjoined : joined.normalize = ⟨"joined", ["x /* a"] ++ ("b */ c/" ++ " " ++ "*d e") :: [],
      [[["word"], ["comment.block"]]] ++
        ([["comment.block"], ["word"]] ++ [["word"], ["word"]]) :: []⟩ := by decide
    rw [hcase, hjoined]
    exact .intro rfl
  have hclosed : (Tokenizer.comment "source.c").stateFrom (Tokenizer.comment "source.c").initial
      (["x /* a"] ++ ["b */ c/"]) = false := by decide
  have hpassed : (engine.run case).result = some .passed := by decide
  obtain ⟨-, hruns⟩ := @joined_lines_pass (List Event)
  obtain ⟨-, hresult⟩ := hruns "source.c" ⟨"source.c", .null⟩ {} .recording { state := [] }
    ["x /* a"] "b */ c/" "*d e" case joined hjoins hclosed hpassed
  exact ⟨hjoins, hclosed, hpassed, hresult Sink.neverPanics_recording⟩

end Engine

end ScopeCheck
