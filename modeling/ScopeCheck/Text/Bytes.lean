/-!
# Byte offsets into a text

Offsets count UTF-8 bytes, while a text is a list of characters.

* `byteLength`, `bytes`: the size of a text and its bytes.
* `cutAt`: the two sides of a byte offset, where the offset falls between two characters.
  `IsBoundary` says that it does.
* `lineColumn`: the line and the column of a byte offset.
-/

namespace ScopeCheck.Text

/-- How many UTF-8 bytes a text takes. -/
def byteLength : List Char → Nat
  | [] => 0
  | c :: cs => c.utf8Size + byteLength cs

/-- The UTF-8 bytes of a text. -/
def bytes (cs : List Char) : List UInt8 :=
  cs.flatMap String.utf8EncodeChar

/-- The text before and after the byte offset `n`; nothing when `n` is past the end or inside a
character. -/
def cutAt : Nat → List Char → Option (List Char × List Char)
  | 0, cs => some ([], cs)
  | _ + 1, [] => none
  | n + 1, c :: cs =>
    if c.utf8Size ≤ n + 1 then
      (cutAt (n + 1 - c.utf8Size) cs).map fun sides => (c :: sides.1, sides.2)
    else none

/-- The line, from 1, and the number of bytes before the offset `n` on its line, from the line
and column where `cs` starts. -/
def lineColumnFrom (line column : Nat) : Nat → List Char → Nat × Nat
  | _, [] => (line, column)
  | n, c :: cs =>
    if n < c.utf8Size then (line, column + n)
    else if c = '\n' then lineColumnFrom (line + 1) 0 (n - 1) cs
    else lineColumnFrom line (column + c.utf8Size) (n - c.utf8Size) cs

/-- The line, from 1, of the byte offset `n` and the number of bytes before it on that line. -/
def lineColumn (cs : List Char) (n : Nat) : Nat × Nat :=
  lineColumnFrom 1 0 n cs

/-! ## Cutting loses nothing -/

@[simp] theorem byteLength_nil : byteLength [] = 0 := rfl

@[simp] theorem byteLength_cons (c : Char) (cs : List Char) :
    byteLength (c :: cs) = c.utf8Size + byteLength cs := rfl

@[simp] theorem byteLength_append (cs ds : List Char) :
    byteLength (cs ++ ds) = byteLength cs + byteLength ds := by
  induction cs with
  | nil => simp
  | cons c cs ih => simp [ih, Nat.add_assoc]

theorem length_le_byteLength (cs : List Char) : cs.length ≤ byteLength cs := by
  induction cs with
  | nil => simp
  | cons c cs ih => have := c.utf8Size_pos; simp; omega

/-- The two sides of an offset make up the text, and the first side is as long as the offset
says. -/
theorem cutAt_eq_some_iff {n : Nat} {cs before after : List Char} :
    cutAt n cs = some (before, after) ↔ cs = before ++ after ∧ byteLength before = n := by
  induction cs generalizing n before after with
  | nil =>
    cases n with
    | zero => cases before <;> simp [cutAt, eq_comm]
    | succ n => cases before <;> simp [cutAt]
  | cons c cs ih =>
    have hpos := c.utf8Size_pos
    cases n with
    | zero =>
      cases before with
      | nil => simp [cutAt, eq_comm]
      | cons d before =>
        simp only [cutAt, Option.some.injEq, Prod.mk.injEq, List.nil_eq, reduceCtorEq, false_and,
          List.cons_append, List.cons.injEq, byteLength_cons, false_iff, not_and]
        rintro ⟨rfl, _⟩
        omega
    | succ n =>
      rw [cutAt]
      split
      · cases before with
        | nil => simp [Option.map_eq_some_iff]
        | cons d before =>
          simp only [Option.map_eq_some_iff, Prod.mk.injEq, List.cons.injEq, Prod.exists,
            List.cons_append, byteLength_cons]
          constructor
          · rintro ⟨a, b, h, ⟨rfl, rfl⟩, rfl⟩
            obtain ⟨rfl, hl⟩ := ih.1 h
            exact ⟨⟨rfl, rfl⟩, by omega⟩
          · rintro ⟨⟨rfl, rfl⟩, hl⟩
            exact ⟨before, after, ih.2 ⟨rfl, by omega⟩, ⟨rfl, rfl⟩, rfl⟩
      · cases before with
        | nil => simp
        | cons d before =>
          simp only [reduceCtorEq, List.cons_append, List.cons.injEq, byteLength_cons, false_iff,
            not_and]
          rintro ⟨rfl, _⟩
          omega

/-! ## Boundaries -/

/-- The byte offset `n` falls between two characters of a text, or at one of its ends. -/
def IsBoundary (cs : List Char) (n : Nat) : Prop :=
  ∃ before, before <+: cs ∧ byteLength before = n

theorem isBoundary_iff_cutAt {cs : List Char} {n : Nat} :
    IsBoundary cs n ↔ ∃ before after, cutAt n cs = some (before, after) := by
  constructor
  · rintro ⟨before, ⟨after, rfl⟩, hlength⟩
    exact ⟨before, after, cutAt_eq_some_iff.mpr ⟨rfl, hlength⟩⟩
  · rintro ⟨before, after, hcut⟩
    obtain ⟨rfl, hlength⟩ := cutAt_eq_some_iff.mp hcut
    exact ⟨before, List.prefix_append before after, hlength⟩

instance (cs : List Char) (n : Nat) : Decidable (IsBoundary cs n) :=
  decidable_of_iff ((cutAt n cs).isSome = true) (by
    rw [isBoundary_iff_cutAt, Option.isSome_iff_exists, Prod.exists])

end ScopeCheck.Text
