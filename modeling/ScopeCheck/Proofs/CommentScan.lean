import ScopeCheck.Proofs.Marking
import ScopeCheck.Tokenizer

/-!
# The comment scanner in turns

The scanner reads a line character by character.  By byte offsets it takes turns: a turn searches
the rest of the line from an offset on, finds one token there or one space, and goes on at the
offset behind it.

* `Text.splitOnce`: the first occurrence of a pattern.
* `Comment.turn`, `Comment.Turns`: one turn, and all turns from an offset to the end of the line.
  Every turn has to start between two characters of the line.
* `Comment.scan_turn`: one turn goes over a part of the line that is not empty, and the scanner does
  the same there.  `Comment.turns_iff` is the same for whole lines.
* `Comment.Layout`: how tokens lie on a line.  `Comment.Turns.layout` says that turns lay them so.
-/

namespace ScopeCheck

/-! ## Searching -/

namespace Text

/-- What stands in front of the first occurrence of a pattern, and what behind it. -/
def splitOnce (pattern : List Char) : List Char → Option (List Char × List Char)
  | [] => none
  | c :: cs =>
    if pattern <+: c :: cs then some ([], (c :: cs).drop pattern.length)
    else (splitOnce pattern cs).map fun sides => (c :: sides.1, sides.2)

/-- The byte offset of the first occurrence of a pattern. -/
def offsetOf (pattern cs : List Char) : Option Nat :=
  (splitOnce pattern cs).map fun sides => byteLength sides.1

/-- A pattern right at the front is its first occurrence. -/
theorem splitOnce_of_front {pattern : List Char} {c : Char} {cs : List Char}
    (h : pattern <+: c :: cs) :
    splitOnce pattern (c :: cs) = some ([], (c :: cs).drop pattern.length) := by
  rw [splitOnce, if_pos h]

/-- Behind a character at which the pattern does not stand, the search goes on. -/
theorem splitOnce_cons {pattern : List Char} {c : Char} {cs : List Char}
    (h : ¬ pattern <+: c :: cs) :
    splitOnce pattern (c :: cs) =
      (splitOnce pattern cs).map fun sides => (c :: sides.1, sides.2) := by
  rw [splitOnce, if_neg h]

theorem eq_of_splitOnce {pattern cs before after : List Char}
    (h : splitOnce pattern cs = some (before, after)) : cs = before ++ (pattern ++ after) := by
  induction cs generalizing before with
  | nil => cases h
  | cons c cs ih =>
    rw [splitOnce] at h
    split at h
    · rename_i hpattern
      cases h
      exact (List.prefix_iff_eq_append.mp hpattern).symm
    · obtain ⟨⟨before', after'⟩, hcs, hsides⟩ := Option.map_eq_some_iff.mp h
      cases hsides
      exact congrArg (c :: ·) (ih hcs)

theorem length_bytes (cs : List Char) : (bytes cs).length = byteLength cs := by
  induction cs with
  | nil => rfl
  | cons c cs ih =>
    rw [bytes, List.flatMap_cons, List.length_append, String.length_utf8EncodeChar, byteLength_cons]
    exact congrArg (c.utf8Size + ·) ih

/-- The byte of a space between two parts of a text. -/
theorem getElem?_bytes_space (before after : List Char) :
    (bytes (before ++ ' ' :: after))[byteLength before]? = some 32 := by
  have hspace : bytes (before ++ ' ' :: after) = bytes before ++ 32 :: bytes after := by
    rw [bytes, List.flatMap_append, List.flatMap_cons]
    rfl
  rw [hspace, ← length_bytes, List.getElem?_append_right (Nat.le_refl _), Nat.sub_self]
  rfl

end Text

open Text

namespace Comment

/-! ## Turns -/

/-- What a turn finds: a token or none, where the next turn starts, and whether a comment is open
there. -/
structure Turn where
  token : Option Token
  stop : Nat
  inside : Bool

/-- A turn over a comment that starts at `start` and whose end is searched in the rest of the line
from `pos` on. -/
def commentTurn (root : String) (size start pos : Nat) (rest : List Char) : Turn :=
  match offsetOf ['*', '/'] rest with
  | some i => ⟨some (commentToken root start (pos + i + 2)), pos + i + 2, false⟩
  | none => ⟨some (commentToken root start size), size, true⟩

/-- A turn in a line of `size` bytes, over the rest of it from the byte offset `pos` on. -/
def turn (root : String) (size pos : Nat) (inside : Bool) (rest : List Char) : Turn :=
  if inside then commentTurn root size pos pos rest
  else
    match rest with
    | ' ' :: _ => ⟨none, pos + 1, false⟩
    | '/' :: '*' :: inner => commentTurn root size pos (pos + 2) inner
    | rest =>
      let stop := pos + (offsetOf [' '] rest).getD (byteLength rest)
      ⟨some (wordToken root pos stop), stop, false⟩

/-- The turns from a byte offset to the end of a line, with the tokens that they find and whether a
comment is open at the end.  A turn from an offset inside a character does not exist. -/
inductive Turns (root : String) (line : List Char) : Nat → Bool → List Token → Bool → Prop where
  | done {pos : Nat} {inside : Bool} (h : byteLength line ≤ pos) :
      Turns root line pos inside [] inside
  | turn {pos : Nat} {inside last : Bool} {before rest : List Char} {tokens : List Token}
      (h : pos < byteLength line) (hcut : cutAt pos line = some (before, rest))
      (hnext : Turns root line (turn root (byteLength line) pos inside rest).stop
        (turn root (byteLength line) pos inside rest).inside tokens last) :
      Turns root line pos inside
        ((turn root (byteLength line) pos inside rest).token.toList ++ tokens) last

/-! ## One turn -/

/-- The mode of the scanner where a turn starts. -/
def modeAt (pos : Nat) (inside : Bool) : Mode :=
  if inside then .comment pos false else .gap

theorem scan_modeAt_nil (root : String) (pos : Nat) (inside : Bool) :
    scan root (modeAt pos inside) pos [] = ([], inside) := by
  cases inside with
  | false => rfl
  | true =>
    show (if pos < pos then _ else [], true) = _
    rw [if_neg (Nat.lt_irrefl pos)]

/-- In a comment the scanner looks for the first star with a slash behind it.  A slash right at the
front must not belong to a star in front of it. -/
theorem scan_comment (root : String) (start pos : Nat) {star : Bool} {cs : List Char}
    (hstar : star = true → ¬ ['/'] <+: cs) :
    scan root (.comment start star) pos cs =
      match splitOnce ['*', '/'] cs with
      | some (text, rest) =>
        let stop := pos + byteLength text + 2
        (commentToken root start stop :: (scan root .gap stop rest).1, (scan root .gap stop rest).2)
      | none =>
        let stop := pos + byteLength cs
        (if start < stop then [commentToken root start stop] else [], true) := by
  induction cs generalizing pos star with
  | nil => rfl
  | cons c cs ih =>
    have hopen : ¬ (star && decide (c = '/')) = true := by
      intro h
      rw [Bool.and_eq_true, decide_eq_true_eq] at h
      exact hstar h.1 ⟨cs, by rw [h.2]; rfl⟩
    rw [scan, if_neg hopen]
    by_cases hclose : ['*', '/'] <+: c :: cs
    · obtain ⟨rest, hrest⟩ := hclose
      obtain ⟨rfl, rfl⟩ : '*' = c ∧ '/' :: rest = cs := List.cons.inj hrest
      have hfront : ['*', '/'] <+: '*' :: '/' :: rest := ⟨rest, rfl⟩
      rw [splitOnce_of_front hfront]
      rfl
    · have hnext : decide (c = '*') = true → ¬ ['/'] <+: cs := by
        rw [decide_eq_true_eq]
        rintro rfl ⟨rest, rfl⟩
        exact hclose (List.prefix_append ['*', '/'] rest)
      rw [splitOnce_cons hclose, ih _ hnext, byteLength_cons, ← Nat.add_assoc]
      cases splitOnce ['*', '/'] cs with
      | none => rfl
      | some sides => simp only [Option.map_some, byteLength_cons, Nat.add_assoc]

/-- In a word the scanner looks for the first space. -/
theorem scan_word (root : String) (start pos : Nat) (cs : List Char) :
    scan root (.word start) pos cs =
      match splitOnce [' '] cs with
      | some (text, rest) =>
        let stop := pos + byteLength text
        (wordToken root start stop :: (scan root .gap stop (' ' :: rest)).1,
          (scan root .gap stop (' ' :: rest)).2)
      | none => ([wordToken root start (pos + byteLength cs)], false) := by
  induction cs generalizing pos with
  | nil => rfl
  | cons c cs ih =>
    rw [scan]
    by_cases hspace : c = ' '
    · subst hspace
      have hfront : [' '] <+: ' ' :: cs := ⟨cs, rfl⟩
      rw [if_pos rfl, splitOnce_of_front hfront]
      rfl
    · have hne : ¬ [' '] <+: c :: cs := by
        rintro ⟨rest, hrest⟩
        exact hspace (List.cons.inj hrest).1.symm
      rw [if_neg hspace, splitOnce_cons hne, ih, byteLength_cons, ← Nat.add_assoc]
      cases splitOnce [' '] cs with
      | none => rfl
      | some sides => simp only [Option.map_some, byteLength_cons, Nat.add_assoc]

/-- A turn takes a text off the front of the rest of the line.  The text is one token or one space,
and the scanner does with it as the turn does. -/
structure Turn.Takes (turn : Turn) (root : String) (mode : Mode) (pos : Nat) (rest text others :
    List Char) : Prop where
  split : rest = text ++ others
  nonempty : text ≠ []
  stop : turn.stop = pos + byteLength text
  found : turn.token = none ∧ text = [' '] ∨
    ∃ scopes, turn.token = some ⟨pos, turn.stop, scopes⟩
  scan : scan root mode pos rest =
    (turn.token.toList ++ (Comment.scan root (modeAt turn.stop turn.inside) turn.stop others).1,
      (Comment.scan root (modeAt turn.stop turn.inside) turn.stop others).2)

/-- A turn in a comment that opened with `front`, which is empty where the comment began on an earlier
line. -/
theorem commentTurn_takes (root : String) {mode : Mode} {pos : Nat} {front inner : List Char}
    (hne : front ++ inner ≠ [])
    (hscan : scan root mode pos (front ++ inner) =
      scan root (.comment pos false) (pos + byteLength front) inner) :
    ∃ text others,
      (commentTurn root (pos + byteLength (front ++ inner)) pos (pos + byteLength front)
        inner).Takes root mode pos (front ++ inner) text others := by
  rw [scan_comment root pos _ (by simp)] at hscan
  cases hsplit : splitOnce ['*', '/'] inner with
  | none =>
    have hturn : commentTurn root (pos + byteLength (front ++ inner)) pos (pos + byteLength front)
        inner = ⟨some (commentToken root pos (pos + byteLength (front ++ inner))),
          pos + byteLength (front ++ inner), true⟩ := by
      rw [commentTurn, offsetOf, hsplit]
      rfl
    have hpos : pos < pos + byteLength (front ++ inner) := by
      have := List.length_pos_iff.mpr hne
      have := length_le_byteLength (front ++ inner)
      omega
    rw [hturn]
    refine ⟨front ++ inner, [], (List.append_nil _).symm, hne, rfl, .inr ⟨_, rfl⟩, ?_⟩
    rw [hscan, hsplit, scan_modeAt_nil]
    simp only [Nat.add_assoc, ← byteLength_append, if_pos hpos]
    rfl
  | some sides =>
    obtain ⟨text, others⟩ := sides
    have hturn : commentTurn root (pos + byteLength (front ++ inner)) pos (pos + byteLength front)
        inner = ⟨some (commentToken root pos (pos + byteLength front + byteLength text + 2)),
          pos + byteLength front + byteLength text + 2, false⟩ := by
      rw [commentTurn, offsetOf, hsplit]
      rfl
    have hinner := eq_of_splitOnce hsplit
    have hclose : byteLength ['*', '/'] = 2 := rfl
    rw [hturn]
    refine ⟨front ++ (text ++ ['*', '/']), others, ?_, by simp, ?_, .inr ⟨_, rfl⟩, ?_⟩
    · rw [hinner, List.append_assoc, List.append_assoc]
    · rw [byteLength_append, byteLength_append, hclose, ← Nat.add_assoc, ← Nat.add_assoc]
    · rw [hscan, hsplit]
      rfl

/-- A turn over a word. -/
theorem wordTurn_takes (root : String) (pos : Nat) {rest : List Char} (hne : rest ≠ [])
    (hspace : ∀ cs, rest ≠ ' ' :: cs) (hopen : ∀ inner, rest ≠ '/' :: '*' :: inner) :
    ∃ text others, (turn root (pos + byteLength rest) pos false rest).Takes root .gap pos rest text
      others := by
  have hword : scan root .gap pos rest = scan root (.word pos) pos rest := by
    obtain ⟨c, cs, rfl⟩ := List.exists_cons_of_ne_nil hne
    have hc : c ≠ ' ' := fun hc => hspace cs (by rw [hc])
    rw [scan, scan, if_neg hc, if_neg hc]
    rintro inner rfl rfl
    exact hopen inner rfl
  rw [scan_word] at hword
  have hturn : turn root (pos + byteLength rest) pos false rest =
      let stop := pos + (offsetOf [' '] rest).getD (byteLength rest)
      ⟨some (wordToken root pos stop), stop, false⟩ := by
    rw [turn, if_neg Bool.false_ne_true]
    · exact hspace
    · exact hopen
  rw [hturn, offsetOf]
  cases hsplit : splitOnce [' '] rest with
  | none =>
    rw [hsplit] at hword
    exact ⟨rest, [], (List.append_nil _).symm, hne, rfl, .inr ⟨_, rfl⟩, hword⟩
  | some sides =>
    obtain ⟨text, others⟩ := sides
    have hrest := eq_of_splitOnce hsplit
    rw [hsplit] at hword
    refine ⟨text, ' ' :: others, hrest, ?_, rfl, .inr ⟨_, rfl⟩, hword⟩
    rintro rfl
    exact hspace others hrest

/-- A turn where something is left of the line takes some of it. -/
theorem turn_takes (root : String) (pos : Nat) (inside : Bool) {rest : List Char}
    (hne : rest ≠ []) :
    ∃ text others, (turn root (pos + byteLength rest) pos inside rest).Takes root
      (modeAt pos inside) pos rest text others := by
  cases inside with
  | true => exact @commentTurn_takes root (.comment pos false) pos [] rest hne rfl
  | false =>
    by_cases hspace : ∃ cs, rest = ' ' :: cs
    · obtain ⟨cs, rfl⟩ := hspace
      exact ⟨[' '], cs, rfl, List.cons_ne_nil _ _, rfl, .inl ⟨rfl, rfl⟩, rfl⟩
    by_cases hopen : ∃ inner, rest = '/' :: '*' :: inner
    · obtain ⟨inner, rfl⟩ := hopen
      exact @commentTurn_takes root .gap pos ['/', '*'] inner hne rfl
    exact wordTurn_takes root pos hne (not_exists.mp hspace) (not_exists.mp hopen)

/-! ## All turns -/

/-- From every offset between two characters, the turns go on to the end of the line and find what
the scanner finds. -/
theorem turns_scan (root : String) (before rest : List Char) (inside : Bool) :
    let pos := byteLength before
    let scanned := scan root (modeAt pos inside) pos rest
    Turns root (before ++ rest) pos inside scanned.1 scanned.2 := by
  -- every turn leaves less of the line
  induction hlength : rest.length using Nat.strongRecOn generalizing before rest inside with
  | ind n ih =>
    intro pos scanned
    by_cases hne : rest = []
    · subst hne
      have hscanned : scanned = ([], inside) := scan_modeAt_nil root pos inside
      rw [hscanned, List.append_nil]
      exact .done (Nat.le_refl _)
    · obtain ⟨text, others, h⟩ := turn_takes root pos inside hne
      have hsize : byteLength (before ++ rest) = pos + byteLength rest := byteLength_append _ _
      rw [← hsize] at h
      have hshort : others.length < n := by
        have := List.length_pos_iff.mpr h.nonempty
        rw [← hlength, h.split, List.length_append]
        omega
      have hnext := ih others.length hshort (before ++ text) others
        (turn root (byteLength (before ++ rest)) pos inside rest).inside rfl
      have hstop : byteLength (before ++ text) =
          (turn root (byteLength (before ++ rest)) pos inside rest).stop := by
        rw [byteLength_append, h.stop]
      simp only [hstop, List.append_assoc, ← h.split] at hnext
      have hpos : pos < byteLength (before ++ rest) := by
        have := length_le_byteLength rest
        have := List.length_pos_iff.mpr hne
        omega
      have hscanned : scanned = _ := h.scan
      rw [hscanned]
      exact .turn hpos (cutAt_eq_some_iff.mpr ⟨rfl, rfl⟩) hnext

/-- There is only one way to take turns. -/
theorem Turns.unique {root : String} {line : List Char} {pos : Nat} {inside last last' : Bool}
    {tokens tokens' : List Token} (h : Turns root line pos inside tokens last)
    (h' : Turns root line pos inside tokens' last') : tokens' = tokens ∧ last' = last := by
  induction h generalizing tokens' last' with
  | done hend =>
    cases h' with
    | done => exact ⟨rfl, rfl⟩
    | turn hpos => omega
  | turn hpos hcut _ ih =>
    cases h' with
    | done hend => omega
    | turn _ hcut' hnext' =>
      cases hcut.symm.trans hcut'
      obtain ⟨rfl, rfl⟩ := ih hnext'
      exact ⟨rfl, rfl⟩

/-- On every line and in either state there are turns to the end of the line, and what they find is
what the tokenizer finds. -/
theorem turns_iff (root line : String) (inside : Bool) (tokens : List Token) (last : Bool) :
    Turns root line.toList 0 inside tokens last ↔
      (Tokenizer.comment root).tokenize line inside = ⟨tokens, last⟩ := by
  have hturns : Turns root line.toList 0 inside
      ((Tokenizer.comment root).tokenize line inside).tokens
      ((Tokenizer.comment root).tokenize line inside).next :=
    turns_scan root [] line.toList inside
  constructor
  · intro h
    obtain ⟨rfl, rfl⟩ := hturns.unique h
    rfl
  · intro h
    rw [h] at hturns
    exact hturns

/-! ## How tokens lie on a line -/

/-- Tokens on a line from a byte offset on.  They are in order and apart from each other, and there
are only spaces between them and around them. -/
structure Layout (line : List Char) (pos : Nat) (tokens : List Token) : Prop where
  behind : ∀ token ∈ tokens, pos ≤ token.start
  nonempty : ∀ token ∈ tokens, token.start < token.stop
  fits : ∀ token ∈ tokens, Span.Fits ⟨token.start, token.stop⟩ line
  ordered : tokens.Pairwise fun first second => first.stop ≤ second.start
  spaces : ∀ i, pos ≤ i → i < byteLength line →
    (∀ token ∈ tokens, i < token.start ∨ token.stop ≤ i) → (bytes line)[i]? = some 32

namespace Layout

variable {line : List Char} {pos : Nat} {tokens : List Token}

/-- Behind the end of the line there are no tokens. -/
theorem nil (h : byteLength line ≤ pos) : Layout line pos [] where
  behind _ hmem := nomatch hmem
  nonempty _ hmem := nomatch hmem
  fits _ hmem := nomatch hmem
  ordered := .nil
  spaces i hpos hline := by omega

/-- A space in front. -/
theorem space (h : Layout line (pos + 1) tokens) (hspace : (bytes line)[pos]? = some 32) :
    Layout line pos tokens where
  behind token hmem := by
    have := h.behind token hmem
    omega
  nonempty := h.nonempty
  fits := h.fits
  ordered := h.ordered
  spaces i hpos hline hapart := by
    by_cases hi : i = pos
    · rw [hi]
      exact hspace
    · exact h.spaces i (by omega) hline hapart

/-- A token in front, which ends where the others may start. -/
theorem cons {token : Token} (h : Layout line token.stop tokens) (hne : token.start < token.stop)
    (hfits : Span.Fits ⟨token.start, token.stop⟩ line) :
    Layout line token.start (token :: tokens) where
  behind := by
    refine List.forall_mem_cons.mpr ⟨Nat.le_refl _, fun later hmem => ?_⟩
    have := h.behind later hmem
    omega
  nonempty := List.forall_mem_cons.mpr ⟨hne, h.nonempty⟩
  fits := List.forall_mem_cons.mpr ⟨hfits, h.fits⟩
  ordered := List.pairwise_cons.mpr ⟨h.behind, h.ordered⟩
  spaces i hpos hline hapart := by
    obtain ⟨hown, hothers⟩ := List.forall_mem_cons.mp hapart
    exact h.spaces i (by omega) hline hothers

end Layout

/-- Turns lay their tokens on the line in order, with only spaces between them. -/
theorem Turns.layout {root : String} {line : List Char} {pos : Nat} {inside last : Bool}
    {tokens : List Token} (h : Turns root line pos inside tokens last) :
    Layout line pos tokens := by
  induction h with
  | done hend => exact .nil hend
  | @turn pos inside last before rest tokens hpos hcut _ ih =>
    obtain ⟨rfl, rfl⟩ := cutAt_eq_some_iff.mp hcut
    have hne : rest ≠ [] := by
      rintro rfl
      rw [List.append_nil] at hpos
      omega
    obtain ⟨text, others, htakes⟩ := turn_takes root (byteLength before) inside hne
    rw [← byteLength_append] at htakes
    obtain ⟨hsplit, hnonempty, hstop, hfound, -⟩ := htakes
    generalize Comment.turn root (byteLength (before ++ rest)) (byteLength before) inside rest =
      taken at hstop hfound ih ⊢
    rcases hfound with ⟨hnone, rfl⟩ | ⟨scopes, htoken⟩
    · have hspace : (bytes (before ++ rest))[byteLength before]? = some 32 := by
        rw [hsplit]
        exact getElem?_bytes_space before others
      rw [hnone]
      rw [hstop] at ih
      exact ih.space hspace
    · have hlength : 0 < byteLength text :=
        Nat.lt_of_lt_of_le (List.length_pos_iff.mpr hnonempty) (length_le_byteLength text)
      have hfits : Span.Fits ⟨byteLength before, taken.stop⟩ (before ++ rest) := by
        apply Span.exists_parts_iff.mp
        exact ⟨before, text, others, Span.parts?_eq_some_iff.mpr ⟨by rw [hsplit], rfl, hstop.symm⟩⟩
      rw [htoken]
      exact @Layout.cons _ tokens ⟨byteLength before, taken.stop, scopes⟩ ih
        (by show byteLength before < taken.stop; omega) hfits

end Comment

end ScopeCheck
