import Mathlib.Data.List.Forall2
import ScopeCheck.Json.Basic
import ScopeCheck.Proofs.Members

/-!
# JSON texts

What is written is read back, in front of any text that cannot be mistaken for more digits.

* `Json.EndsNumber`: the texts in front of which a number ends.
* `Json.Holds64`: the whole numbers that are read as they are written.
* `Json.readNumber_writeInteger`, `Json.readString_writeString`: numbers and strings.
* `Json.Readable`: the values that survive being written; `Json.ReadAs` says as what one is read.
* `Json.Readable.readAs`, `Json.Readable.parse`: such a value comes back up to the order of members.
-/

namespace ScopeCheck.Json

open ScopeCheck.Text (byteLength)

/-! ## Numbers -/

/-- A number ends in front of a text that does not go on like one. -/
def EndsNumber (rest : List Char) : Prop :=
  ∀ c ∈ rest.head?, digit? c = none ∧ c ≠ '.' ∧ c ≠ 'e' ∧ c ≠ 'E'

theorem endsNumber_nil : EndsNumber [] := by
  intro c hc
  cases hc

theorem endsNumber_comma (rest : List Char) : EndsNumber (',' :: rest) := by
  intro c hc
  cases hc
  decide

theorem endsNumber_closing {c : Char} (hc : c = ']' ∨ c = '}') (rest : List Char) :
    EndsNumber (c :: rest) := by
  intro d hd
  cases hd
  rcases hc with rfl | rfl <;> decide

theorem EndsNumber.startsDigit {rest : List Char} (h : EndsNumber rest) :
    startsDigit rest = false := by
  cases rest with
  | nil => rfl
  | cons c rest => simp [Json.startsDigit, (h c rfl).1]

theorem digit?_of_isDigit {c : Char} (h : c.isDigit) : digit? c = some (c.toNat - '0'.toNat) := by
  have hrange : '0' ≤ c ∧ c ≤ '9' := by simpa [Char.isDigit, Char.le_def] using h
  exact if_pos hrange

theorem le_ofDigitChars (ds : List Char) (n : Nat) : n ≤ Nat.ofDigitChars 10 ds n := by
  induction ds generalizing n with
  | nil => exact Nat.le_refl n
  | cons d ds ih =>
    rw [Nat.ofDigitChars_cons]
    have hd := ih (10 * n + (d.toNat - '0'.toNat))
    omega

/-- Digits are taken as long as there is room for them. -/
theorem takeDigits_append {ds rest : List Char} {significand : Nat}
    (hds : ∀ c ∈ ds, c.isDigit) (hroom : Nat.ofDigitChars 10 ds significand < Nat.pow 2 64)
    (hrest : EndsNumber rest) (count : Nat) :
    takeDigits significand count (ds ++ rest) =
      (Nat.ofDigitChars 10 ds significand, count + ds.length, rest) := by
  induction ds generalizing significand count with
  | nil =>
    cases rest with
    | nil => rfl
    | cons c rest => simp [takeDigits, (hrest c rfl).1]
  | cons d ds ih =>
    obtain ⟨hd, hds⟩ := List.forall_mem_cons.mp hds
    rw [Nat.ofDigitChars_cons] at hroom ⊢
    have hfits : significand * 10 + (d.toNat - '0'.toNat) < Nat.pow 2 64 := by
      have hle := le_ofDigitChars ds (10 * significand + (d.toNat - '0'.toNat))
      omega
    rw [List.cons_append, takeDigits, digit?_of_isDigit hd]
    simp only [hfits, if_true]
    rw [Nat.mul_comm significand 10, ih hds hroom, List.length_cons]
    congr 2
    omega

/-- Only zero is written with a zero in front. -/
theorem head_toDigits {n : Nat} (hn : 0 < n) {c : Char} {cs : List Char}
    (h : Nat.toDigits 10 n = c :: cs) : 0 < c.toNat - '0'.toNat := by
  induction n using Nat.strongRecOn generalizing cs with
  | ind n ih =>
    by_cases hlt : n < 10
    · have hsmall : ∀ n < 10, 0 < n → 0 < n.digitChar.toNat - '0'.toNat := by decide
      rw [Nat.toDigits_of_lt_base hlt] at h
      cases h
      exact hsmall n hlt hn
    · rw [Nat.toDigits_of_base_le (by decide) (by omega)] at h
      cases hfront : Nat.toDigits 10 (n / 10) with
      | nil => exact absurd hfront Nat.toDigits_ne_nil
      | cons d ds =>
        rw [hfront] at h
        cases h
        exact ih (n / 10) (by omega) (by omega) hfront

/-- The digits of a number that 64 bits hold are read as that number. -/
theorem readUnsigned_toDigits {n : Nat} (hn : n < Nat.pow 2 64) (negative : Bool)
    {rest : List Char} (hrest : EndsNumber rest) :
    readUnsigned negative (Nat.toDigits 10 n ++ rest) = .ok (wholeNumber negative n, rest) := by
  have hafter (value : Nat) :
      readAfterWhole negative value rest = .ok (wholeNumber negative value, rest) := by
    unfold readAfterWhole
    split
    · exact absurd rfl (hrest _ rfl).2.1
    · exact absurd rfl (hrest _ rfl).2.2.1
    · exact absurd rfl (hrest _ rfl).2.2.2
    · rfl
  have hdigits : ∀ c ∈ Nat.toDigits 10 n, c.isDigit := fun c hc =>
    Nat.isDigit_of_mem_toDigits (by decide) (by decide) hc
  have hvalue : Nat.ofDigitChars 10 (Nat.toDigits 10 n) 0 = n :=
    Nat.ofDigitChars_toDigits (by decide) (by decide)
  -- Zero is apart: its digit is the only first digit behind which no other may stand.
  by_cases hzero : n = 0
  · subst hzero
    have hone : digit? '0' = some 0 := by decide
    simp only [Nat.toDigits_zero, List.singleton_append, readUnsigned, hone, hrest.startsDigit,
      Bool.false_eq_true, if_false, hafter]
  · cases hwritten : Nat.toDigits 10 n with
    | nil => exact absurd hwritten Nat.toDigits_ne_nil
    | cons c cs =>
      have hpos := head_toDigits (Nat.pos_of_ne_zero hzero) hwritten
      rw [hwritten] at hdigits hvalue
      obtain ⟨hc, hcs⟩ := List.forall_mem_cons.mp hdigits
      rw [Nat.ofDigitChars_cons, Nat.mul_zero, Nat.zero_add] at hvalue
      obtain ⟨d, hd⟩ := Nat.exists_eq_add_of_lt hpos
      rw [Nat.zero_add] at hd
      rw [List.cons_append, readUnsigned, digit?_of_isDigit hc, hd]
      rw [hd] at hvalue
      simp only [takeDigits_append hcs (hvalue.symm ▸ hn) hrest, hrest.startsDigit,
        Bool.false_eq_true, if_false, hafter, hvalue]

/-- How a written number may start. -/
def StartsNumber (c : Char) : Prop :=
  c = '-' ∨ (digit? c).isSome

instance (c : Char) : Decidable (StartsNumber c) :=
  inferInstanceAs (Decidable (_ ∨ _))

theorem StartsNumber.ne {c d : Char} (hc : StartsNumber c) (hd : ¬ StartsNumber d) : c ≠ d := by
  rintro rfl
  exact hd hc

theorem StartsNumber.not_blank {c : Char} (hc : StartsNumber c) : isBlank c = false := by
  have hspace : c ≠ ' ' := hc.ne (by decide)
  have hline : c ≠ '\n' := hc.ne (by decide)
  have htab : c ≠ '\t' := hc.ne (by decide)
  have hreturn : c ≠ '\r' := hc.ne (by decide)
  simp [isBlank, hspace, hline, htab, hreturn]

/-- What a written number starts with. -/
theorem head_writeInteger (n : Int) :
    ∃ c cs, writeInteger n = c :: cs ∧ StartsNumber c := by
  cases n with
  | ofNat n =>
    cases hwritten : Nat.toDigits 10 n with
    | nil => exact absurd hwritten Nat.toDigits_ne_nil
    | cons c cs =>
      have hc : c ∈ Nat.toDigits 10 n := hwritten ▸ List.mem_cons_self
      have hdigit := Nat.isDigit_of_mem_toDigits (by decide) (by decide) hc
      exact ⟨c, cs, hwritten, .inr (by rw [digit?_of_isDigit hdigit]; rfl)⟩
  | negSucc n => exact ⟨'-', _, rfl, .inl rfl⟩

/-- The whole numbers that 64 bits hold, the negative ones with a sign. -/
def Holds64 (n : Int) : Prop :=
  -(Nat.pow 2 63 : Nat) ≤ n ∧ n < (Nat.pow 2 64 : Nat)

theorem holds64_natCast {n : Nat} (h : n < 2 ^ 64) : Holds64 n := by
  have hpow : Nat.pow 2 64 = 2 ^ 64 := rfl
  unfold Holds64
  omega

/-- A whole number that 64 bits hold is read as it was written. -/
theorem readNumber_writeInteger {n : Int} (hn : Holds64 n) {rest : List Char}
    (hrest : EndsNumber rest) : readNumber (writeInteger n ++ rest) = .ok (.integer n, rest) := by
  obtain ⟨hlow, hhigh⟩ := hn
  have hpow : Nat.pow 2 64 = 18446744073709551616 := rfl
  have hhalf : Nat.pow 2 63 = 9223372036854775808 := rfl
  cases n with
  | ofNat n =>
    have hn : n < Nat.pow 2 64 := by simp only [Int.ofNat_eq_natCast] at hhigh; omega
    have hread := readUnsigned_toDigits hn false hrest
    obtain ⟨c, cs, hwritten, hc⟩ := head_writeInteger (.ofNat n)
    have hdigits : Nat.toDigits 10 n = c :: cs := hwritten
    have hdigit := Nat.isDigit_of_mem_toDigits (by decide) (by decide)
      (hdigits ▸ List.mem_cons_self : c ∈ Nat.toDigits 10 n)
    have hsign : c ≠ '-' := by
      rintro rfl
      cases hdigit
    rw [hwritten, List.cons_append]
    rw [hdigits, List.cons_append] at hread
    unfold readNumber
    split
    · rename_i heq
      exact absurd (List.cons.inj heq).1 hsign
    · exact hread
  | negSucc n =>
    have hn : n + 1 ≤ Nat.pow 2 63 := by omega
    have hread := readUnsigned_toDigits (n := n + 1) (by omega) true hrest
    have hvalue : wholeNumber true (n + 1) = .integer (.negSucc n) := by
      have hroom : ¬ (n + 1 = 0 ∨ Nat.pow 2 63 < n + 1) := by omega
      simp only [wholeNumber, if_true, hroom, if_false]
      rfl
    rw [hvalue] at hread
    exact hread

/-! ## Strings -/

/-- A character is written as a letter behind a backslash, by its number, or as itself. -/
theorem escape_cases (c : Char) :
    (∃ letter, escape c = ['\\', letter] ∧ escaped? letter = some c) ∨
      (c.toNat < 32 ∧ escape c =
        ['\\', 'u', '0', '0', hexDigit (c.toNat / 16), hexDigit (c.toNat % 16)]) ∨
      (c ≠ '\"' ∧ c ≠ '\\' ∧ ¬ c.toNat < 32 ∧ escape c = [c]) := by
  unfold escape
  split_ifs with hquote hslash hback hfeed hline hreturn htab hcontrol
  case pos => exact .inl ⟨'\"', rfl, congrArg some hquote.symm⟩
  case pos => exact .inl ⟨'\\', rfl, congrArg some hslash.symm⟩
  case pos => exact .inl ⟨'b', rfl, congrArg some hback.symm⟩
  case pos => exact .inl ⟨'f', rfl, congrArg some hfeed.symm⟩
  case pos => exact .inl ⟨'n', rfl, congrArg some hline.symm⟩
  case pos => exact .inl ⟨'r', rfl, congrArg some hreturn.symm⟩
  case pos => exact .inl ⟨'t', rfl, congrArg some htab.symm⟩
  case pos => exact .inr (.inl ⟨hcontrol, rfl⟩)
  case neg => exact .inr (.inr ⟨hquote, hslash, hcontrol, rfl⟩)

/-- The number of a control character is read as that character. -/
theorem readUnicode_hexDigit {n : Nat} (hn : n < 32) (cs : List Char) :
    readUnicode ('0' :: '0' :: hexDigit (n / 16) :: hexDigit (n % 16) :: cs) =
      .ok (Char.ofNat n, cs) := by
  have hzero : hexDigit? '0' = some 0 ∧ '0'.utf8Size = 1 := by decide
  have hdigit : ∀ d < 16, hexDigit? (hexDigit d) = some d ∧ (hexDigit d).utf8Size = 1 := by
    decide
  obtain ⟨hhigh, hhighSize⟩ := hdigit (n / 16) (by omega)
  obtain ⟨hlow, hlowSize⟩ := hdigit (n % 16) (by omega)
  have hread : readHex ('0' :: '0' :: hexDigit (n / 16) :: hexDigit (n % 16) :: cs) =
      .ok (n, cs) := by
    have hfour : byteLength ['0', '0', hexDigit (n / 16), hexDigit (n % 16)] = 4 := by
      simp only [Text.byteLength_cons, Text.byteLength_nil, hhighSize, hlowSize, hzero.2]
    have hvalue : ((0 * 16 + 0) * 16 + n / 16) * 16 + n % 16 = n := by omega
    simp only [readHex, List.take_succ_cons, List.take_zero, hfour, Nat.lt_irrefl, if_false,
      hexFour?, hzero.1, hhigh, hlow, Option.bind_eq_bind, Option.bind_some, Option.pure_def,
      hvalue]
  have htrail : ¬ (0xDC00 ≤ n ∧ n ≤ 0xDFFF) := by omega
  have hlead : ¬ (0xD800 ≤ n ∧ n ≤ 0xDBFF) := by omega
  simp only [readUnicode, hread, htrail, hlead, if_false]

/-- A character is read as it was written, in front of what can be read. -/
theorem readChars_escape {fuel : Nat} {cs ds rest : List Char}
    (h : readChars fuel cs = .ok (ds, rest)) (c : Char) :
    readChars (fuel + 1) (escape c ++ cs) = .ok (c :: ds, rest) := by
  have hescaped {d : Char} {cs' : List Char} (hd : readEscape (d :: cs') = .ok (c, cs)) :
      readChars (fuel + 1) ('\\' :: d :: cs') = .ok (c :: ds, rest) := by
    have hquote : ¬ '\\' = '\"' := by decide
    simp only [readChars, hquote, if_false, if_true, hd, h, bind, Except.bind, pure, Except.pure]
  rcases escape_cases c with ⟨letter, hwritten, hletter⟩ | ⟨hcontrol, hwritten⟩ |
      ⟨hquote, hslash, hplain, hwritten⟩
  · rw [hwritten]
    refine hescaped ?_
    simp only [readEscape, hletter]
    rfl
  · rw [hwritten]
    refine hescaped ?_
    have hu : escaped? 'u' = none := by decide
    have hnumber := readUnicode_hexDigit hcontrol cs
    rw [Char.ofNat_toNat] at hnumber
    simp only [readEscape, hu, if_true]
    exact hnumber
  · rw [hwritten]
    simp only [List.singleton_append, readChars, hquote, hslash, hplain, if_false, h, bind,
      Except.bind, pure, Except.pure]

/-- The characters of a string are read as they were written, up to the closing quote. -/
theorem readChars_flatMap_escape (cs rest : List Char) (fuel : Nat) (hfuel : cs.length < fuel) :
    readChars fuel (cs.flatMap escape ++ '\"' :: rest) = .ok (cs, rest) := by
  induction cs generalizing fuel with
  | nil =>
    obtain ⟨fuel, rfl⟩ := Nat.exists_eq_add_of_lt hfuel
    simp [readChars]
  | cons c cs ih =>
    cases fuel with
    | zero => omega
    | succ fuel =>
      have hcs := ih fuel (by simpa using hfuel)
      rw [List.flatMap_cons, List.append_assoc]
      exact readChars_escape hcs c

theorem length_le_flatMap_escape (cs : List Char) : cs.length ≤ (cs.flatMap escape).length := by
  induction cs with
  | nil => exact Nat.le_refl 0
  | cons c cs ih =>
    have hc : 0 < (escape c).length := by
      rcases escape_cases c with ⟨_, h, -⟩ | ⟨-, h⟩ | ⟨-, -, -, h⟩ <;> rw [h] <;>
        exact Nat.succ_pos _
    rw [List.flatMap_cons, List.length_append, List.length_cons]
    omega

/-- A string is read as it was written. -/
theorem readString_writeString (s : String) (rest : List Char) (fuel : Nat)
    (hfuel : (writeString s).length < fuel) :
    ∃ cs, writeString s ++ rest = '\"' :: cs ∧ readString fuel cs = .ok (s, rest) := by
  have hlength := length_le_flatMap_escape s.toList
  have hread := readChars_flatMap_escape s.toList rest fuel (by
    simp only [writeString, List.length_cons, List.length_append] at hfuel
    omega)
  refine ⟨s.toList.flatMap escape ++ '\"' :: rest, by simp [writeString], ?_⟩
  simp only [readString, hread, bind, Except.bind, pure, Except.pure, String.ofList_toList]

/-! ## Values -/

/-- The values that a reader which may open `depth` lists and objects gets back: no doubles, whole
numbers of 64 bits, and no name twice in one object. -/
inductive Readable : Nat → Json → Prop
  | null {depth : Nat} : Readable depth .null
  | bool {depth : Nat} (b : Bool) : Readable depth (.bool b)
  | integer {depth : Nat} {n : Int} (bits : Holds64 n) : Readable depth (.integer n)
  | str {depth : Nat} (s : String) : Readable depth (.str s)
  | arr {depth : Nat} {items : List Json} (values : ∀ x ∈ items, Readable depth x) :
      Readable (depth + 1) (.arr items)
  | obj {depth : Nat} {members : List (String × Json)} (names : (members.map Prod.fst).Nodup)
      (values : ∀ m ∈ members, Readable depth m.2) : Readable (depth + 1) (.obj members)

theorem Readable.mono {depth more : Nat} {value : Json} (h : Readable depth value)
    (hmore : depth ≤ more) : Readable more value := by
  induction h generalizing more with
  | null => exact .null
  | bool b => exact .bool b
  | integer bits => exact .integer bits
  | str s => exact .str s
  | arr _ ih =>
    cases more with
    | zero => omega
    | succ more => exact .arr fun x hx => ih x hx (by omega)
  | obj names _ ih =>
    cases more with
    | zero => omega
    | succ more => exact .obj names fun m hm => ih m hm (by omega)

theorem Readable.reordered {depth : Nat} {value kept : Json} (h : Readable depth value)
    (hkept : Reordered value kept) : Readable depth kept := by
  induction h generalizing kept with
  | null =>
    cases hkept
    exact .null
  | bool b =>
    cases hkept
    exact .bool b
  | integer bits =>
    cases hkept
    exact .integer bits
  | str s =>
    cases hkept
    exact .str s
  | arr _ ih =>
    obtain ⟨keptItems, rfl, hitems⟩ := hkept.of_arr
    refine .arr fun y hy => ?_
    obtain ⟨x, hx, hvalue⟩ := exists_of_mem_forall₂ hitems hy
    exact ih x hx hvalue
  | obj names _ ih =>
    obtain ⟨keptMembers, rfl, hmembers⟩ := hkept.of_obj
    refine .obj (hmembers.names.nodup_iff.mp names) fun k hk => ?_
    obtain ⟨m, hm, -, hvalue⟩ := hmembers.exists_of_mem hk
    exact ih m hm hvalue

/-- Members reordered twice are reordered. -/
theorem Readable.reordered_trans {depth : Nat} {value kept last : Json}
    (h : Readable depth value) (hkept : Reordered value kept) (hlast : Reordered kept last) :
    Reordered value last := by
  induction h generalizing kept last with
  | null =>
    cases hkept
    exact hlast
  | bool b =>
    cases hkept
    exact hlast
  | integer bits =>
    cases hkept
    exact hlast
  | str s =>
    cases hkept
    exact hlast
  | arr _ ih =>
    obtain ⟨keptItems, rfl, hitems⟩ := hkept.of_arr
    obtain ⟨lastItems, rfl, hlastItems⟩ := hlast.of_arr
    exact .arr (forall₂_comp hitems hlastItems fun x hx _ _ hxy hyz => ih x hx hxy hyz)
  | @obj _ members _ _ ih =>
    obtain ⟨keptMembers, rfl, named, hperm, hvalues⟩ := hkept.of_obj
    obtain ⟨lastMembers, rfl, moved, hmoved, hlastValues⟩ := hlast.of_obj
    -- The second order is brought in front of the first change of values.
    have hcomp : Relation.Comp (List.Forall₂ fun m k => m.1 = k.1 ∧ Reordered m.2 k.2) List.Perm
        named moved := ⟨keptMembers, hvalues, hmoved⟩
    rw [List.forall₂_comp_perm_eq_perm_comp_forall₂] at hcomp
    obtain ⟨between, hbetween, hfirst⟩ := hcomp
    have hall : members.Perm between := hperm.trans hbetween
    refine ReorderedMembers.obj ⟨between, hall, forall₂_comp hfirst hlastValues ?_⟩
    intro m hm k l hmk hkl
    exact ⟨hmk.1.trans hkl.1, ih m (hall.mem_iff.mpr hm) hmk.2 hkl.2⟩

theorem skipBlank_cons {c : Char} (hc : isBlank c = false) (cs : List Char) :
    skipBlank (c :: cs) = c :: cs := by
  simp [skipBlank, hc]

theorem readValue_scalar {c : Char} (hblank : isBlank c = false) (hlist : c ≠ '[')
    (hobject : c ≠ '{') (fuel depth : Nat) (cs : List Char) :
    readValue (fuel + 1) depth (c :: cs) = readScalar fuel (c :: cs) := by
  rw [readValue, skipBlank_cons hblank]
  split
  · rename_i heq
    exact absurd (List.cons.inj heq).1 hlist
  · rename_i heq
    exact absurd (List.cons.inj heq).1 hobject
  · rfl

/-- A written value starts with no blank, not like the end of a list, and only null like null. -/
theorem Readable.head {depth : Nat} {value : Json} (h : Readable depth value) :
    ∃ c cs, write value = c :: cs ∧ isBlank c = false ∧ c ≠ ']' ∧ (c = 'n' → value = .null) := by
  cases h with
  | null => exact ⟨'n', _, rfl, by decide, by decide, fun _ => rfl⟩
  | bool b =>
    cases b with
    | false => exact ⟨'f', _, rfl, by decide, by decide, fun h => absurd h (by decide)⟩
    | true => exact ⟨'t', _, rfl, by decide, by decide, fun h => absurd h (by decide)⟩
  | @integer _ n _ =>
    obtain ⟨c, cs, hwritten, hstart⟩ := head_writeInteger n
    have hn : c ≠ 'n' := hstart.ne (by decide)
    exact ⟨c, cs, by rw [write, hwritten], hstart.not_blank, hstart.ne (by decide),
      fun heq => absurd heq hn⟩
  | str s => exact ⟨'\"', _, rfl, by decide, by decide, fun h => absurd h (by decide)⟩
  | @arr _ items _ =>
    cases items with
    | nil => exact ⟨'[', _, rfl, by decide, by decide, fun h => absurd h (by decide)⟩
    | cons x items => exact ⟨'[', _, rfl, by decide, by decide, fun h => absurd h (by decide)⟩
  | @obj _ members _ _ =>
    cases members with
    | nil => exact ⟨'{', _, rfl, by decide, by decide, fun h => absurd h (by decide)⟩
    | cons m members => exact ⟨'{', _, rfl, by decide, by decide, fun h => absurd h (by decide)⟩

theorem Readable.skipBlank_write {depth : Nat} {value : Json} (h : Readable depth value)
    (rest : List Char) : skipBlank (write value ++ rest) = write value ++ rest := by
  obtain ⟨c, cs, hwritten, hblank, -⟩ := h.head
  rw [hwritten, List.cons_append, skipBlank_cons hblank]

/-- Written with anything behind it that does not go on like a number, one value is read as
another. -/
def ReadAs (depth : Nat) (value kept : Json) : Prop :=
  ∀ (fuel : Nat) (rest : List Char), (write value).length < fuel → EndsNumber rest →
    readValue fuel depth (write value ++ rest) = .ok (kept, rest)

theorem readAs_scalar {value : Json} {c : Char} {cs : List Char} (hwritten : write value = c :: cs)
    (hblank : isBlank c = false) (hlist : c ≠ '[') (hobject : c ≠ '{')
    (hread : ∀ (fuel : Nat) (rest : List Char), cs.length < fuel → EndsNumber rest →
      readScalar fuel (c :: cs ++ rest) = .ok (value, rest)) (depth : Nat) :
    ReadAs depth value value := by
  intro fuel rest hfuel hrest
  rw [hwritten, List.length_cons] at hfuel
  cases fuel with
  | zero => omega
  | succ fuel =>
    rw [hwritten, List.cons_append, readValue_scalar hblank hlist hobject]
    exact hread fuel rest (by omega) hrest

theorem readAs_integer {n : Int} (hn : Holds64 n) (depth : Nat) :
    ReadAs depth (.integer n) (.integer n) := by
  obtain ⟨c, cs, hwritten, hstart⟩ := head_writeInteger n
  have hvalue : write (.integer n) = c :: cs := by rw [write, hwritten]
  refine readAs_scalar hvalue hstart.not_blank (hstart.ne (by decide)) (hstart.ne (by decide)) ?_
    depth
  intro fuel rest _ hrest
  have hread := readNumber_writeInteger hn hrest
  rw [hwritten] at hread
  have hquote : c ≠ '\"' := hstart.ne (by decide)
  have hnull : c ≠ 'n' := hstart.ne (by decide)
  have ht : c ≠ 't' := hstart.ne (by decide)
  have hf : c ≠ 'f' := hstart.ne (by decide)
  have hc : c = '-' ∨ (digit? c).isSome := hstart
  rw [List.cons_append] at hread ⊢
  unfold readScalar
  simp only [hquote, hnull, ht, hf, if_false, hc, if_true, hread]
  rfl

theorem readAs_str (s : String) (depth : Nat) : ReadAs depth (.str s) (.str s) := by
  have hvalue : write (.str s) = '\"' :: (s.toList.flatMap escape ++ ['\"']) := by
    rw [write, writeString]
  refine readAs_scalar hvalue (by decide) (by decide) (by decide) ?_ depth
  intro fuel rest hfuel _
  have hlength := length_le_flatMap_escape s.toList
  have hread := readChars_flatMap_escape s.toList rest fuel (by
    rw [List.length_append] at hfuel
    omega)
  simp only [readScalar, readString, List.cons_append, List.append_assoc, List.nil_append, if_true,
    hread, bind, Except.bind, pure, Except.pure, String.ofList_toList]

/-! ## Lists and objects -/

theorem endsNumber_writeItems (items : List Json) (rest : List Char) :
    EndsNumber (writeItems items ++ rest) := by
  cases items with
  | nil => exact endsNumber_closing (.inl rfl) rest
  | cons x items => exact endsNumber_comma _

theorem endsNumber_writeMembers (members : List (String × Json)) (rest : List Char) :
    EndsNumber (writeMembers members ++ rest) := by
  cases members with
  | nil => exact endsNumber_closing (.inr rfl) rest
  | cons m members => exact endsNumber_comma _

theorem writeItems_length_pos (items : List Json) : 0 < (writeItems items).length := by
  cases items <;> exact Nat.succ_pos _

theorem writeMembers_length_pos (members : List (String × Json)) :
    0 < (writeMembers members).length := by
  cases members <;> exact Nat.succ_pos _

/-- A list takes at least as many characters as it has items. -/
theorem length_le_write_arr (items : List Json) : items.length ≤ (write (.arr items)).length := by
  have hothers (items : List Json) : items.length < (writeItems items).length := by
    induction items with
    | nil => exact Nat.one_pos
    | cons x items ih =>
      rw [writeItems, List.length_cons, List.length_cons, List.length_append]
      omega
  cases items with
  | nil => exact Nat.zero_le _
  | cons x items =>
    have hlength := hothers items
    rw [write, List.length_cons, List.length_cons, List.length_append]
    omega

/-- A list is longer than each of its items. -/
theorem length_write_lt_arr {items : List Json} {x : Json} (hx : x ∈ items) :
    (write x).length < (write (.arr items)).length := by
  have hothers (items : List Json) (hx : x ∈ items) :
      (write x).length < (writeItems items).length := by
    induction items with
    | nil => exact absurd hx List.not_mem_nil
    | cons y items ih =>
      rw [writeItems, List.length_cons, List.length_append]
      rcases List.mem_cons.mp hx with rfl | hx
      · omega
      · have hlength := ih hx
        omega
  cases items with
  | nil => exact absurd hx List.not_mem_nil
  | cons y items =>
    rw [write, List.length_cons, List.length_append]
    rcases List.mem_cons.mp hx with rfl | hx
    · omega
    · have hlength := hothers items hx
      omega

/-- An object is longer than the value of each of its members. -/
theorem length_write_lt_obj {members : List (String × Json)} {m : String × Json}
    (hm : m ∈ members) : (write m.2).length < (write (.obj members)).length := by
  have hothers (members : List (String × Json)) (hm : m ∈ members) :
      (write m.2).length < (writeMembers members).length := by
    induction members with
    | nil => exact absurd hm List.not_mem_nil
    | cons k members ih =>
      rw [writeMembers, List.length_cons, List.length_append, List.length_cons, List.length_append]
      rcases List.mem_cons.mp hm with rfl | hm
      · omega
      · have hlength := ih hm
        omega
  cases members with
  | nil => exact absurd hm List.not_mem_nil
  | cons k members =>
    rw [write, List.length_cons, List.length_append, List.length_cons, List.length_append]
    rcases List.mem_cons.mp hm with rfl | hm
    · omega
    · have hlength := hothers members hm
      omega

theorem skipBlank_writeItems (items : List Json) (rest : List Char) :
    skipBlank (writeItems items ++ rest) = writeItems items ++ rest := by
  cases items <;> exact skipBlank_cons (by decide) _

theorem skipBlank_writeMembers (members : List (String × Json)) (rest : List Char) :
    skipBlank (writeMembers members ++ rest) = writeMembers members ++ rest := by
  cases members <;> exact skipBlank_cons (by decide) _

/-- An item at the start of a list, or behind the comma after the item before it. -/
theorem nextItem_write {depth : Nat} {value : Json} (h : Readable depth value) (rest : List Char) :
    nextItem true (write value ++ rest) = .ok (some (write value ++ rest)) ∧
      nextItem false (',' :: (write value ++ rest)) = .ok (some (write value ++ rest)) := by
  obtain ⟨c, cs, hwritten, hblank, hclosing, -⟩ := h.head
  have hcomma : ¬ ',' = ']' := by decide
  rw [hwritten, List.cons_append]
  constructor
  · simp only [nextItem, hclosing, if_false, if_true]
  · simp only [nextItem, hcomma, skipBlank_cons hblank, hclosing, if_false, if_true,
      Bool.false_eq_true]

/-- The items of a list, the first of them with nothing in front of it. -/
theorem readItems_writeItems {depth : Nat} {items kept : List Json}
    (hitems : ∀ x ∈ items, Readable depth x) (hkept : List.Forall₂ (ReadAs depth) items kept)
    (fuel : Nat) (rest : List Char) (hfuel : (writeItems items).length < fuel) :
    readItems fuel depth false (writeItems items ++ rest) = .ok (kept, rest) := by
  induction hkept generalizing fuel with
  | nil =>
    cases fuel with
    | zero => omega
    | succ fuel => rfl
  | @cons x y items kept hx _ ih =>
    obtain ⟨hreadable, hitems⟩ := List.forall_mem_cons.mp hitems
    cases fuel with
    | zero => omega
    | succ fuel =>
      rw [writeItems, List.length_cons, List.length_append] at hfuel
      have hlength := writeItems_length_pos items
      have hvalue := hx fuel (writeItems items ++ rest) (by omega)
        (endsNumber_writeItems items rest)
      have hnext := (nextItem_write hreadable (writeItems items ++ rest)).2
      have hitems := ih hitems fuel (by omega)
      rw [writeItems, List.cons_append, List.append_assoc]
      simp only [readItems, hnext, hvalue, skipBlank_writeItems, hitems, bind, Except.bind, pure,
        Except.pure]

theorem readAs_arr {depth : Nat} {items kept : List Json}
    (hitems : ∀ x ∈ items, Readable depth x) (hkept : List.Forall₂ (ReadAs depth) items kept) :
    ReadAs (depth + 1) (.arr items) (.arr kept) := by
  intro fuel rest hfuel hrest
  cases fuel with
  | zero => omega
  | succ fuel =>
    cases hkept with
    | nil =>
      cases fuel with
      | zero => simp [write] at hfuel
      | succ fuel => rfl
    | @cons x y items kept hx hkept =>
      obtain ⟨hreadable, hitems⟩ := List.forall_mem_cons.mp hitems
      rw [write, List.length_cons, List.length_append] at hfuel
      have hlength := writeItems_length_pos items
      cases fuel with
      | zero => omega
      | succ fuel =>
        have hvalue := hx fuel (writeItems items ++ rest) (by omega)
          (endsNumber_writeItems items rest)
        have hnext := (nextItem_write hreadable (writeItems items ++ rest)).1
        have hskip := hreadable.skipBlank_write (writeItems items ++ rest)
        obtain ⟨c, cs, hwritten, -⟩ := hreadable.head
        have hx : 0 < (write x).length := by
          rw [hwritten]
          exact Nat.succ_pos _
        have hothers := readItems_writeItems hitems hkept fuel rest (by omega)
        have hopen : isBlank '[' = false := by decide
        rw [write, List.cons_append, List.append_assoc]
        simp only [readValue, skipBlank_cons hopen, hskip, readItems, hnext, hvalue,
          skipBlank_writeItems, hothers, bind, Except.bind, pure, Except.pure]

theorem readColon_colon (rest : List Char) : readColon (':' :: rest) = .ok rest := by
  have hcolon : isBlank ':' = false := by decide
  simp only [readColon, skipBlank_cons hcolon, if_true]

/-- A member behind the opening quote of its name. -/
theorem readMember_write {depth : Nat} {value kept : Json} (hvalue : ReadAs depth value kept)
    (name : String) {rest : List Char} (hrest : EndsNumber rest) (fuel : Nat)
    (hfuel : (writeString name).length + (write value).length < fuel) :
    ∃ cs, writeString name ++ ':' :: (write value ++ rest) = '\"' :: cs ∧
      readString fuel cs = .ok (name, ':' :: (write value ++ rest)) ∧
      readColon (':' :: (write value ++ rest)) = .ok (write value ++ rest) ∧
      readValue fuel depth (write value ++ rest) = .ok (kept, rest) := by
  obtain ⟨cs, hwritten, hname⟩ := readString_writeString name (':' :: (write value ++ rest))
    fuel (by omega)
  exact ⟨cs, hwritten, hname, readColon_colon _, hvalue fuel rest (by omega) hrest⟩

/-- A member at the start of an object, or behind the comma after the member before it. -/
theorem nextMember_quote (cs : List Char) :
    nextMember true ('\"' :: cs) = .ok (some cs) ∧
      nextMember false (',' :: '\"' :: cs) = .ok (some cs) := by
  have hcomma : ¬ ',' = '}' := by decide
  have hclosing : ¬ '\"' = '}' := by decide
  have hquote : isBlank '\"' = false := by decide
  constructor
  · simp only [nextMember, hclosing, if_false, if_true]
  · simp only [nextMember, hcomma, skipBlank_cons hquote, if_false, if_true, Bool.false_eq_true]

/-- The members of an object, the first of them behind a comma. -/
theorem readMembers_writeMembers {depth : Nat} {members kept : List (String × Json)}
    (hkept : List.Forall₂ (fun m k => m.1 = k.1 ∧ ReadAs depth m.2 k.2) members kept) (fuel : Nat)
    (rest : List Char) (hfuel : (writeMembers members).length < fuel) :
    readMembers fuel depth false (writeMembers members ++ rest) = .ok (kept, rest) := by
  induction hkept generalizing fuel with
  | nil =>
    cases fuel with
    | zero => omega
    | succ fuel => rfl
  | @cons m k members kept hmember _ ih =>
    obtain ⟨name, value⟩ := m
    obtain ⟨_, keptValue⟩ := k
    obtain ⟨rfl, hvalue⟩ := hmember
    have hvalue : ReadAs depth value keptValue := hvalue
    cases fuel with
    | zero => omega
    | succ fuel =>
      simp only [writeMembers, List.length_cons, List.length_append] at hfuel
      have hlength := writeMembers_length_pos members
      obtain ⟨cs, hwritten, hname, hcolon, hread⟩ := readMember_write hvalue name
        (endsNumber_writeMembers members rest) fuel (by omega)
      have hothers := ih fuel (by omega)
      have hnext := (nextMember_quote cs).2
      rw [writeMembers, List.cons_append, List.append_assoc, List.cons_append, List.append_assoc,
        hwritten]
      simp only [readMembers, hnext, hname, hcolon, hread, skipBlank_writeMembers, hothers, bind,
        Except.bind, pure, Except.pure]

theorem readAs_obj {depth : Nat} {members kept : List (String × Json)}
    (hkept : List.Forall₂ (fun m k => m.1 = k.1 ∧ ReadAs depth m.2 k.2) members kept) :
    ReadAs (depth + 1) (.obj members) (.ofMembers kept) := by
  intro fuel rest hfuel hrest
  cases fuel with
  | zero => omega
  | succ fuel =>
    cases hkept with
    | nil =>
      cases fuel with
      | zero => simp [write] at hfuel
      | succ fuel => rfl
    | @cons m k members kept hmember hkept =>
      obtain ⟨name, value⟩ := m
      obtain ⟨_, keptValue⟩ := k
      obtain ⟨rfl, hvalue⟩ := hmember
      have hvalue : ReadAs depth value keptValue := hvalue
      simp only [write, List.length_cons, List.length_append] at hfuel
      have hlength := writeMembers_length_pos members
      cases fuel with
      | zero => omega
      | succ fuel =>
        obtain ⟨cs, hwritten, hname, hcolon, hread⟩ := readMember_write hvalue name
          (endsNumber_writeMembers members rest) fuel (by omega)
        have hothers := readMembers_writeMembers hkept fuel rest (by omega)
        have hopen : isBlank '{' = false := by decide
        have hquote : isBlank '\"' = false := by decide
        have hnext := (nextMember_quote cs).1
        rw [write, List.cons_append, List.append_assoc, List.cons_append, List.append_assoc,
          hwritten]
        simp only [readValue, skipBlank_cons hopen, skipBlank_cons hquote, readMembers, hnext,
          hname, hcolon, hread, skipBlank_writeMembers, hothers, bind, Except.bind, pure,
          Except.pure]

/-- What is written is read back, up to the order of members. -/
theorem Readable.readAs {depth : Nat} {value : Json} (h : Readable depth value) :
    ∃ kept, Reordered value kept ∧ ReadAs depth value kept := by
  induction h with
  | null =>
    exact ⟨.null, .refl _, readAs_scalar rfl (by decide) (by decide) (by decide)
      (fun _ _ _ _ => rfl) _⟩
  | bool b =>
    cases b with
    | false =>
      exact ⟨.bool false, .refl _, readAs_scalar rfl (by decide) (by decide) (by decide)
        (fun _ _ _ _ => rfl) _⟩
    | true =>
      exact ⟨.bool true, .refl _, readAs_scalar rfl (by decide) (by decide) (by decide)
        (fun _ _ _ _ => rfl) _⟩
  | integer bits => exact ⟨.integer _, .refl _, readAs_integer bits _⟩
  | str s => exact ⟨.str s, .refl _, readAs_str s _⟩
  | arr values ih =>
    obtain ⟨kept, hkept⟩ := exists_forall₂ ih
    exact ⟨.arr kept, .arr (hkept.imp fun _ _ h => h.1),
      readAs_arr values (hkept.imp fun _ _ h => h.2)⟩
  | @obj depth members names _ ih =>
    have hmembers : ∀ m ∈ members, ∃ k : String × Json,
        m.1 = k.1 ∧ Reordered m.2 k.2 ∧ ReadAs depth m.2 k.2 := by
      intro m hm
      obtain ⟨kept, hkept⟩ := ih m hm
      exact ⟨(m.1, kept), rfl, hkept⟩
    obtain ⟨named, hnamed⟩ := exists_forall₂ hmembers
    have hreordered : ReorderedMembers members named :=
      ⟨members, .refl _, hnamed.imp fun _ _ h => ⟨h.1, h.2.1⟩⟩
    -- The members are set one after the other, and with names that differ none replaces another.
    have hnodup : ((named ++ []).map Prod.fst).Nodup := by
      rw [List.append_nil]
      exact hreordered.names.nodup_iff.mp names
    have hperm := foldl_insert_perm hnodup
    rw [List.append_nil] at hperm
    refine ⟨.ofMembers named, .obj (reorderedValues_iff.mpr ?_) hperm.symm, readAs_obj ?_⟩
    · exact hnamed.imp fun _ _ h => ⟨h.1, h.2.1⟩
    · exact hnamed.imp fun _ _ h => ⟨h.1, h.2.2⟩

theorem length_lt_fuelFor (text : List Char) : text.length < fuelFor text := by
  unfold fuelFor
  omega

/-- A text that a value was written as is read as that value, up to the order of members. -/
theorem Readable.parse {value : Json} (h : Readable depthLimit value) :
    ∃ kept, Reordered value kept ∧ Json.parse (write value) = .ok kept := by
  obtain ⟨kept, hkept, hread⟩ := h.readAs
  refine ⟨kept, hkept, ?_⟩
  have hvalue := hread _ [] (length_lt_fuelFor (write value)) endsNumber_nil
  rw [List.append_nil] at hvalue
  unfold Json.parse parseWithin
  rw [hvalue]
  rfl

end ScopeCheck.Json
