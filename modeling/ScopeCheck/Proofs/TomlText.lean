import Mathlib.Data.List.Forall2
import ScopeCheck.Json.Basic
import ScopeCheck.Toml.Reader

/-!
# TOML texts

A value of texts, flags, lists and maps can be written on one line, its strings between double
quotes and its maps between braces.  This module says that the line is read as that value.

* `Toml.write`, `Toml.writeEntry`: a value, and an entry with it, as they are written.
* `Toml.Holds`: the values of the tree, with their places, that a value may be read as.
* `Toml.Plain`: the values that are written so, with few enough lists and maps inside each other.
* `Toml.readValue_write`: they are read as they were written.
-/

namespace ScopeCheck.Toml

variable {α β : Type}

/-- A reader gets something of a kind, and a text is left. -/
def Leaves (rest : List Char) (P : α → Prop) (result : Except Complaint (α × Cursor)) : Prop :=
  ∃ x stop, result = .ok (x, ⟨rest, stop⟩) ∧ P x

/-! ## Writing -/

/-- A string between double quotes. -/
def writeString (s : String) : List Char :=
  '\"' :: (s.toList.flatMap quotedKeyChar ++ ['\"'])

mutual

/-- A value on one line.  Numbers and null are not written. -/
def write : Json → List Char
  | .bool true => ['t', 'r', 'u', 'e']
  | .bool false => ['f', 'a', 'l', 's', 'e']
  | .str s => writeString s
  | .arr [] => ['[', ']']
  | .arr (x :: xs) => '[' :: (write x ++ writeItems xs)
  | .obj [] => ['{', '}']
  | .obj ((name, x) :: ms) =>
    '{' :: (name.toList ++ ' ' :: '=' :: ' ' :: (write x ++ writeMembers ms))
  | .null => []
  | .integer _ => []
  | .float _ => []

/-- The items after the first, and the closing bracket. -/
def writeItems : List Json → List Char
  | [] => [']']
  | x :: xs => ',' :: (write x ++ writeItems xs)

/-- The entries after the first, and the closing brace. -/
def writeMembers : List (String × Json) → List Char
  | [] => ['}']
  | (name, x) :: ms =>
    ',' :: (name.toList ++ ' ' :: '=' :: ' ' :: (write x ++ writeMembers ms))

end

/-- An entry. -/
def writeEntry (m : String × Json) : List Char :=
  m.1.toList ++ ' ' :: '=' :: ' ' :: write m.2

theorem write_arr_cons (x : Json) (xs : List Json) :
    write (.arr (x :: xs)) =
      '[' :: (write x ++ (xs.flatMap (fun x => ',' :: write x) ++ [']'])) := by
  have hitems : writeItems xs = xs.flatMap (fun x => ',' :: write x) ++ [']'] := by
    induction xs with
    | nil => rfl
    | cons x xs ih => simp [writeItems, ih]
  rw [write, hitems]

theorem write_obj_cons (m : String × Json) (ms : List (String × Json)) :
    write (.obj (m :: ms)) =
      '{' :: (writeEntry m ++ (ms.flatMap (fun m => ',' :: writeEntry m) ++ ['}'])) := by
  have hmembers : writeMembers ms = ms.flatMap (fun m => ',' :: writeEntry m) ++ ['}'] := by
    induction ms with
    | nil => rfl
    | cons m ms ih => simp [writeMembers, writeEntry, ih]
  simp [write, hmembers, writeEntry]

/-! ## What is read -/

/-- The values of the tree that a value may be read as.  A list may also have been given as an array
of tables. -/
inductive Holds : Json → Node → Prop
  | flag (b : Bool) (span : Extent) : Holds (.bool b) (.scalar (.boolean b) span)
  | text (s : String) (span : Extent) : Holds (.str s) (.scalar (.string s) span)
  | list {items : List Json} {nodes : List Node} (span : Extent)
      (values : List.Forall₂ Holds items nodes) : Holds (.arr items) (.array nodes span)
  | tables {items : List Json} {tables : List (Style × List (Key × Node))}
      (values : List.Forall₂ Holds items (tables.map fun t => .table t.1 t.2)) :
      Holds (.arr items) (.tables tables)
  | map {members : List (String × Json)} {entries : List (Key × Node)} (style : Style)
      (names : entries.map (fun e => e.1.name) = members.map Prod.fst)
      (values : List.Forall₂ Holds (members.map Prod.snd) (entries.map Prod.snd)) :
      Holds (.obj members) (.table style entries)

/-- A member and the entry that it is read as. -/
def HoldsEntry (m : String × Json) (e : Key × Node) : Prop :=
  e.1.name = m.1 ∧ Holds m.2 e.2

theorem names_eq_of_holdsEntry {members : List (String × Json)} {entries : List (Key × Node)}
    (h : List.Forall₂ HoldsEntry members entries) :
    entries.map (fun e => e.1.name) = members.map Prod.fst := by
  rw [← List.forall₂_eq_eq_eq, List.forall₂_map_left_iff, List.forall₂_map_right_iff]
  exact h.flip.imp fun _ _ hentry => hentry.1

/-- A table holds a map when its entries are those of the map, in order. -/
theorem holds_table_iff {members : List (String × Json)} {style : Style}
    {entries : List (Key × Node)} :
    Holds (.obj members) (.table style entries) ↔ List.Forall₂ HoldsEntry members entries := by
  constructor
  · intro h
    cases h with
    | map _ names values =>
      have hnames : List.Forall₂ (fun m e => e.1.name = m.1) members entries := by
        rw [← List.forall₂_eq_eq_eq, List.forall₂_map_left_iff, List.forall₂_map_right_iff] at names
        exact names.flip
      rw [List.forall₂_map_left_iff, List.forall₂_map_right_iff] at values
      exact List.Forall₂.mp (fun _ _ hname hvalue => ⟨hname, hvalue⟩) hnames values
  · intro h
    refine .map style (names_eq_of_holdsEntry h) ?_
    rw [List.forall₂_map_left_iff, List.forall₂_map_right_iff]
    exact h.imp fun _ _ hentry => hentry.2

/-- A name that is a key without quotes. -/
def Bare (name : String) : Prop :=
  name.toList ≠ [] ∧ name.toList.all isBareChar

instance (name : String) : Decidable (Bare name) :=
  inferInstanceAs (Decidable (_ ∧ _))

theorem Bare.head {name : String} (h : Bare name) :
    ∃ c cs, name.toList = c :: cs ∧ isBareChar c := by
  obtain ⟨c, cs, hname⟩ := List.exists_cons_of_ne_nil h.1
  exact ⟨c, cs, hname, List.all_eq_true.mp h.2 c (hname ▸ List.mem_cons_self)⟩

/-- Values of texts, flags, lists and maps in which at most `depth` lists and maps are inside each
other. -/
inductive Plain : Nat → Json → Prop
  | flag {depth : Nat} (b : Bool) : Plain depth (.bool b)
  | text {depth : Nat} (s : String) : Plain depth (.str s)
  | list {depth : Nat} {items : List Json} (values : ∀ x ∈ items, Plain depth x) :
      Plain (depth + 1) (.arr items)
  | map {depth : Nat} {members : List (String × Json)} (names : (members.map Prod.fst).Nodup)
      (bare : ∀ m ∈ members, Bare m.1) (values : ∀ m ∈ members, Plain depth m.2) :
      Plain (depth + 1) (.obj members)

/-! ## Characters and blanks -/

/-- A character that ends the space in front of it. -/
def Solid (c : Char) : Prop :=
  isBlank c = false ∧ c ≠ '#' ∧ c ≠ '\n' ∧ c ≠ '\r'

instance (c : Char) : Decidable (Solid c) :=
  inferInstanceAs (Decidable (_ ∧ _))

theorem skipBlank_cons {c : Char} (hc : isBlank c = false) (cs : List Char) (offset : Nat) :
    skipBlank ⟨c :: cs, offset⟩ = ⟨c :: cs, offset⟩ := by
  simp [skipBlank, Cursor.skipWhile, Cursor.takeWhile, hc]

theorem skipBlank_space (cs : List Char) (offset : Nat) :
    skipBlank ⟨' ' :: cs, offset⟩ = skipBlank ⟨cs, offset + 1⟩ := by
  have hspace : isBlank ' ' = true := rfl
  have hsize : ' '.utf8Size = 1 := rfl
  simp [skipBlank, Cursor.skipWhile, Cursor.takeWhile, hspace, hsize, Nat.add_assoc]

theorem skipSpace_cons {c : Char} (hc : Solid c) (fuel : Nat) (cs : List Char) (offset : Nat) :
    skipSpace fuel ⟨c :: cs, offset⟩ = .ok ⟨c :: cs, offset⟩ := by
  obtain ⟨hblank, hhash, hline, hreturn⟩ := hc
  cases fuel with
  | zero => rfl
  | succ fuel =>
    rw [skipSpace, skipBlank_cons hblank]
    simp [Cursor.peek?, hhash, hline, hreturn]
    rfl

/-- A value whose text starts with a character that ends the space in front of it. -/
def Headed (value : Json) : Prop :=
  ∃ c cs, write value = c :: cs ∧ Solid c

/-- A written value starts with a quote, a letter, a bracket or a brace. -/
theorem Plain.headed {depth : Nat} {value : Json} (h : Plain depth value) : Headed value := by
  cases h with
  | flag b => cases b <;> exact ⟨_, _, rfl, by decide⟩
  | text s => exact ⟨_, _, rfl, by decide⟩
  | @list _ items _ => cases items <;> exact ⟨_, _, rfl, by decide⟩
  | @map _ members _ _ _ => cases members <;> exact ⟨_, _, rfl, by decide⟩

/-! ## Strings -/

/-- The number of a control character is read as that character. -/
theorem readCodePoint_control {c : Char} (hc : c.toNat < 256) (rest : List Char) (offset : Nat) :
    readCodePoint 4
        ⟨['0', '0'] ++ (Nat.toDigits 16 (c.toNat / 16) ++ Nat.toDigits 16 (c.toNat % 16)).map
          Char.toUpper ++ rest, offset⟩ = .ok (c, ⟨rest, offset + 4⟩) := by
  have hdigit : ∀ d < 16, (Nat.toDigits 16 d).map Char.toUpper = [d.digitChar.toUpper] ∧
      hexDigit? d.digitChar.toUpper = some d := by decide
  have hzero : hexDigit? '0' = some 0 := by decide
  obtain ⟨hhigh, hhighDigit⟩ := hdigit (c.toNat / 16) (by omega)
  obtain ⟨hlow, hlowDigit⟩ := hdigit (c.toNat % 16) (by omega)
  have hvalid : c.toNat.isValidChar := c.valid
  have hchar : Char.ofNatAux c.toNat hvalid = c := by
    have hofNat := c.ofNat_toNat
    rw [Char.ofNat, dif_pos hvalid] at hofNat
    exact hofNat
  rw [List.map_append, hhigh, hlow]
  generalize (c.toNat / 16).digitChar.toUpper = high at hhighDigit ⊢
  generalize (c.toNat % 16).digitChar.toUpper = low at hlowDigit ⊢
  have hdigits : ((['0', '0'] ++ ([high] ++ [low]) ++ rest).take 4).takeWhile
      (fun c => (hexDigit? c).isSome) = ['0', '0', high, low] := by
    simp [hzero, hhighDigit, hlowDigit]
  have hvalue : hexValue ['0', '0', high, low] = c.toNat := by
    simp only [hexValue, List.foldl_cons, List.foldl_nil, hzero, hhighDigit, hlowDigit,
      Option.getD_some]
    omega
  have hlength : ¬ ['0', '0', high, low].length < 4 := Nat.lt_irrefl 4
  unfold readCodePoint
  dsimp only
  rw [hdigits, if_neg hlength, hvalue, dif_pos hvalid, hchar]
  rfl

/-- A character is written behind a backslash, or as itself. -/
theorem quotedKeyChar_cases (c : Char) :
    (∃ d letters, quotedKeyChar c = '\\' :: d :: letters ∧ ∀ rest offset, ∃ stop,
      readEscape ⟨d :: letters ++ rest, offset⟩ = .ok (c, ⟨rest, stop⟩)) ∨
    (c ≠ '\"' ∧ c ≠ '\\' ∧ isBasicChar c ∧ quotedKeyChar c = [c]) := by
  unfold quotedKeyChar
  split_ifs with hquote hslash hback htab hline hfeed hreturn hcontrol
  case pos =>
    subst hquote
    exact .inl ⟨'\"', [], rfl, fun _ _ => ⟨_, rfl⟩⟩
  case pos =>
    subst hslash
    exact .inl ⟨'\\', [], rfl, fun _ _ => ⟨_, rfl⟩⟩
  case pos =>
    subst hback
    exact .inl ⟨'b', [], rfl, fun _ _ => ⟨_, rfl⟩⟩
  case pos =>
    subst htab
    exact .inl ⟨'t', [], rfl, fun _ _ => ⟨_, rfl⟩⟩
  case pos =>
    subst hline
    exact .inl ⟨'n', [], rfl, fun _ _ => ⟨_, rfl⟩⟩
  case pos =>
    subst hfeed
    exact .inl ⟨'f', [], rfl, fun _ _ => ⟨_, rfl⟩⟩
  case pos =>
    subst hreturn
    exact .inl ⟨'r', [], rfl, fun _ _ => ⟨_, rfl⟩⟩
  case pos =>
    have hsmall : c.toNat < 256 := by
      simp only [Bool.or_eq_true, decide_eq_true_eq] at hcontrol
      omega
    exact .inl ⟨'u', _, rfl, fun rest offset => ⟨_, readCodePoint_control hsmall rest _⟩⟩
  case neg =>
    refine .inr ⟨hquote, hslash, ?_, rfl⟩
    simp only [isBasicChar, isBlank, isForeign, Bool.or_eq_true, Bool.and_eq_true,
      decide_eq_true_eq, ← Char.toNat_inj, Char.reduceToNat] at hquote hslash hcontrol ⊢
    omega

/-- A character is read as it was written, in front of what can be read. -/
theorem readBasic_quotedKeyChar {fuel : Nat} {cs ds rest : List Char}
    (h : ∀ offset, Leaves rest (· = ds) (readBasic fuel ⟨cs, offset⟩)) (c : Char) (offset : Nat) :
    Leaves rest (· = c :: ds) (readBasic (fuel + 1) ⟨quotedKeyChar c ++ cs, offset⟩) := by
  rcases quotedKeyChar_cases c with
    ⟨d, letters, hwritten, hread⟩ | ⟨hquote, hslash, hbasic, hwritten⟩
  · obtain ⟨behind, hescape⟩ := hread cs (offset + '\\'.utf8Size)
    obtain ⟨_, stop, hrest, rfl⟩ := h behind
    refine ⟨_, stop, ?_, rfl⟩
    rw [hwritten, readBasic]
    simp only [List.cons_append] at hescape ⊢
    simp [Cursor.peek?, Cursor.next, hescape, hrest, bind, Except.bind, pure, Except.pure]
  · obtain ⟨_, stop, hrest, rfl⟩ := h (offset + c.utf8Size)
    refine ⟨_, stop, ?_, rfl⟩
    rw [hwritten, readBasic]
    simp [Cursor.peek?, Cursor.next, hquote, hslash, hbasic, hrest]

/-- The characters of a string are read as they were written, up to the closing quote. -/
theorem readBasic_flatMap (cs rest : List Char) (fuel : Nat) (hfuel : cs.length < fuel)
    (offset : Nat) :
    Leaves rest (· = cs) (readBasic fuel ⟨cs.flatMap quotedKeyChar ++ '\"' :: rest, offset⟩) := by
  induction cs generalizing fuel offset with
  | nil =>
    obtain ⟨fuel, rfl⟩ := Nat.exists_eq_add_of_lt hfuel
    refine ⟨_, offset + '\"'.utf8Size, ?_, rfl⟩
    simp [readBasic, Cursor.peek?, Cursor.next]
  | cons c cs ih =>
    cases fuel with
    | zero => omega
    | succ fuel =>
      have hcs := ih fuel (by simpa using hfuel)
      rw [List.flatMap_cons, List.append_assoc]
      exact readBasic_quotedKeyChar hcs c offset

theorem length_le_flatMap_quotedKeyChar (cs : List Char) :
    cs.length ≤ (cs.flatMap quotedKeyChar).length := by
  induction cs with
  | nil => exact Nat.le_refl 0
  | cons c cs ih =>
    have hc : 0 < (quotedKeyChar c).length := by
      rcases quotedKeyChar_cases c with ⟨_, _, h, -⟩ | ⟨-, -, -, h⟩ <;> rw [h] <;>
        exact Nat.succ_pos _
    rw [List.flatMap_cons, List.length_append, List.length_cons]
    omega

/-- A written string is not taken for a long one, unless another quote stands behind it. -/
theorem word?_writeString {s : String} {rest : List Char} (hrest : rest.head? ≠ some '\"')
    (offset : Nat) :
    (Cursor.mk (writeString s ++ rest) offset).word? ['\"', '\"', '\"'] = none := by
  unfold writeString
  cases s.toList with
  | nil =>
    cases rest with
    | nil => rfl
    | cons c rest =>
      have hc : ¬ c = '\"' := by simpa using hrest
      simp [Cursor.word?, hc]
  | cons c cs =>
    rcases quotedKeyChar_cases c with ⟨d, letters, hwritten, -⟩ | ⟨hquote, -, -, hwritten⟩
    · simp [hwritten, Cursor.word?]
    · simp [hwritten, Cursor.word?, hquote]

/-- A string is read as it was written. -/
theorem readString_writeString (s : String) {rest : List Char} (hrest : rest.head? ≠ some '\"')
    {fuel : Nat} (hfuel : (writeString s).length ≤ fuel) (offset : Nat) :
    Leaves rest (· = s) (readString fuel ⟨writeString s ++ rest, offset⟩) := by
  have hlength := length_le_flatMap_quotedKeyChar s.toList
  have hcs : s.toList.length < fuel := by
    simp only [writeString, List.length_cons, List.length_append] at hfuel
    omega
  obtain ⟨_, stop, hread, rfl⟩ := readBasic_flatMap s.toList rest fuel hcs (offset + '\"'.utf8Size)
  have hlong := word?_writeString (s := s) hrest offset
  refine ⟨s, stop, ?_, rfl⟩
  unfold readString
  rw [hlong]
  simp [writeString, Cursor.word?, Cursor.peek?, Cursor.next, hread, bind, Except.bind, pure,
    Except.pure]

/-! ## Keys -/

/-- The characters of a bare key are taken up to the first one that is none. -/
theorem takeWhile_bare {ds : List Char} (hds : ∀ c ∈ ds, isBareChar c) {c : Char}
    (hc : isBareChar c = false) (cs : List Char) (offset : Nat) :
    (Cursor.mk (ds ++ c :: cs) offset).takeWhile isBareChar =
      (ds, ⟨c :: cs, offset + Text.byteLength ds⟩) := by
  simp [Cursor.takeWhile, List.takeWhile_append_of_pos hds, List.dropWhile_append_of_pos hds, hc]

theorem isBlank_of_isBareChar {c : Char} (hc : isBareChar c) : isBlank c = false := by
  rw [← Bool.not_eq_true]
  intro hblank
  have hcases : c = ' ' ∨ c = '\t' := by simpa [isBlank] using hblank
  rcases hcases with rfl | rfl <;> exact absurd hc (by decide)

theorem readPart?_bare {name : String} (hname : Bare name) {c : Char} (hc : isBareChar c = false)
    (cs : List Char) (fuel offset : Nat) :
    ∃ stop, readPart? fuel ⟨name.toList ++ c :: cs, offset⟩ =
      .ok (some (⟨name, ⟨offset, stop⟩⟩, ⟨c :: cs, stop⟩)) := by
  refine ⟨offset + Text.byteLength name.toList, ?_⟩
  have htaken := takeWhile_bare (List.all_eq_true.mp hname.2) hc cs offset
  have hfilled : name.toList.isEmpty = false := List.isEmpty_eq_false_iff.mpr hname.1
  obtain ⟨d, ds, hd, hbared⟩ := hname.head
  have hpeek : (Cursor.mk (name.toList ++ c :: cs) offset).peek? = some d := by
    rw [hd]
    rfl
  have hquote : d ≠ '\"' := by
    rintro rfl
    exact absurd hbared (by decide)
  have hsingle : d ≠ '\'' := by
    rintro rfl
    exact absurd hbared (by decide)
  unfold readPart?
  simp [hpeek, hquote, hsingle, htaken, hfilled]
  rfl

/-- A bare key is read as its name. -/
theorem readKey_bare {name : String} (hname : Bare name) {c : Char} (hc : isBareChar c = false)
    (cs : List Char) (hdot : ∀ offset, (skipBlank ⟨c :: cs, offset⟩).peek? ≠ some '.')
    (fuel offset : Nat) :
    ∃ key stop, readKey fuel ⟨name.toList ++ c :: cs, offset⟩ =
      .ok ([], key, skipBlank ⟨c :: cs, stop⟩) ∧ key.name = name := by
  obtain ⟨stop, hpart⟩ := readPart?_bare hname hc cs fuel offset
  have hstart : skipBlank ⟨name.toList ++ c :: cs, offset⟩ = ⟨name.toList ++ c :: cs, offset⟩ := by
    obtain ⟨d, ds, hds, hd⟩ := hname.head
    rw [hds, List.cons_append]
    exact skipBlank_cons (isBlank_of_isBareChar hd) _ _
  have hparts : readParts fuel (skipBlank ⟨c :: cs, stop⟩) =
      .ok ([], skipBlank ⟨c :: cs, stop⟩) := by
    cases fuel with
    | zero => rfl
    | succ fuel =>
      rw [readParts, if_neg (hdot stop)]
      rfl
  refine ⟨⟨name, ⟨offset, stop⟩⟩, stop, ?_, rfl⟩
  unfold readKey
  simp [hstart, hpart, hparts, depthLimit, bind, Except.bind, pure, Except.pure]

/-! ## Items with commas between them -/

section Separated

variable {item : Cursor → Except Complaint (α × Cursor)} {text : β → List Char} {R : β → α → Prop}
  {closing : Char}

/-- Items are read one after the other, up to the character that closes them. -/
theorem readSeparated_cons (hclosing : closing ≠ ',') (y : β) (ys : List β)
    (hitem : ∀ y' ∈ y :: ys, ∀ c cs offset, c = ',' ∨ c = closing →
      Leaves (c :: cs) (R y') (item ⟨text y' ++ c :: cs, offset⟩))
    {fuel : Nat} (hfuel : ys.length < fuel) (rest : List Char) (offset : Nat) :
    Leaves (closing :: rest) (List.Forall₂ R (y :: ys))
      (readSeparated item fuel
        ⟨text y ++ (ys.flatMap (fun y => ',' :: text y) ++ closing :: rest), offset⟩) := by
  induction ys generalizing y fuel offset with
  | nil =>
    obtain ⟨fuel, rfl⟩ := Nat.exists_eq_add_of_lt hfuel
    obtain ⟨x, stop, hread, hx⟩ :=
      hitem y List.mem_cons_self closing rest offset (.inr rfl)
    refine ⟨[x], stop, ?_, .cons hx .nil⟩
    simp [readSeparated, hread, Cursor.peek?, hclosing]
  | cons z zs ih =>
    cases fuel with
    | zero => omega
    | succ fuel =>
      obtain ⟨hy, hzs⟩ := List.forall_mem_cons.mp hitem
      obtain ⟨x, stop, hread, hx⟩ := hy ','
        (text z ++ (zs.flatMap (fun y => ',' :: text y) ++ closing :: rest)) offset (.inl rfl)
      obtain ⟨xs, last, hothers, hxs⟩ :=
        ih z hzs (by simpa using hfuel) (stop + ','.utf8Size)
      refine ⟨x :: xs, last, ?_, .cons hx hxs⟩
      cases hxs with
      | cons hz hrest =>
        simp only [List.flatMap_cons, List.cons_append, List.append_assoc]
        simp [readSeparated, hread, hothers, Cursor.peek?, Cursor.next]

/-- There are fewer items than characters, and every item is shorter than the whole. -/
theorem length_separated (text : β → List Char) (closing : Char) (y : β) (ys : List β) :
    let inner := text y ++ (ys.flatMap (fun y => ',' :: text y) ++ [closing])
    (y :: ys).length ≤ inner.length ∧ ∀ y' ∈ y :: ys, (text y').length < inner.length := by
  induction ys generalizing y with
  | nil => simp
  | cons z zs ih =>
    obtain ⟨hcount, hshorter⟩ := ih z
    simp only [List.length_append, List.length_cons, List.flatMap_cons, List.length_nil] at *
    refine ⟨by omega, List.forall_mem_cons.mpr ⟨by omega, fun y' hy' => ?_⟩⟩
    have hy := hshorter y' hy'
    omega

end Separated

/-! ## Lists -/

/-- A value is read as it was written, in front of anything but another quote. -/
def ReadBack (fuel level : Nat) (value : Json) : Prop :=
  ∀ rest offset, rest.head? ≠ some '\"' →
    Leaves rest (Holds value) (readValue fuel level ⟨write value ++ rest, offset⟩)

/-- No value starts with a bracket or a brace that closes. -/
theorem readValue_closing {c : Char} (hc : c = ']' ∨ c = '}') (fuel level : Nat) (cs : List Char)
    (offset : Nat) :
    readValue (fuel + 1) level ⟨c :: cs, offset⟩ = .error ⟨offset, notAValue, false⟩ := by
  rcases hc with rfl | rfl <;> rfl

/-- An item is read as its value is, when no space is around it. -/
theorem readItem_write {value : Json} {fuel level : Nat} (hhead : Headed value)
    (hvalue : ReadBack fuel level value) {c : Char} (hc : c = ',' ∨ c = ']') (cs : List Char)
    (offset : Nat) :
    Leaves (c :: cs) (Holds value)
      (readItem (readValue fuel level) fuel ⟨write value ++ c :: cs, offset⟩) := by
  have hbehind : Solid c ∧ c ≠ '\"' := by rcases hc with rfl | rfl <;> decide
  obtain ⟨node, stop, hread, hnode⟩ :=
    hvalue (c :: cs) offset (by simpa using hbehind.2)
  refine ⟨node, stop, ?_, hnode⟩
  obtain ⟨d, ds, hwritten, hd⟩ := hhead
  rw [hwritten, List.cons_append] at hread ⊢
  simp [readItem, skipSpace_cons hd, skipSpace_cons hbehind.1, hread, bind, Except.bind, pure,
    Except.pure]

/-- The items of a list are read up to the closing bracket. -/
theorem readItems_write {items : List Json} (fuel level : Nat)
    (hhead : ∀ x ∈ items, Headed x) (hvalue : ∀ x ∈ items, ReadBack fuel level x)
    (hfuel : items.length < fuel) (rest : List Char) (offset : Nat) :
    ∃ inner, write (.arr items) = '[' :: inner ∧
      Leaves rest (List.Forall₂ Holds items)
        (readItems (readValue fuel level) fuel ⟨inner ++ rest, offset⟩) := by
  have hclosing : Solid ']' := by decide
  cases items with
  | nil =>
    refine ⟨[']'], rfl, [], offset + ']'.utf8Size, ?_, .nil⟩
    obtain ⟨fuel, rfl⟩ := Nat.exists_eq_add_of_lt hfuel
    simp [readItems, readItem, readSeparated, skipSpace_cons hclosing, readValue_closing, final,
      Cursor.peek?, Cursor.next, bind, Except.bind, pure, Except.pure]
  | cons y ys =>
    refine ⟨write y ++ (ys.flatMap (fun x => ',' :: write x) ++ [']']), write_arr_cons y ys, ?_⟩
    have hitem : ∀ x ∈ y :: ys, ∀ c cs offset, c = ',' ∨ c = ']' →
        Leaves (c :: cs) (Holds x)
          (readItem (readValue fuel level) fuel ⟨write x ++ c :: cs, offset⟩) :=
      fun x hx _ cs offset hc => readItem_write (hhead x hx) (hvalue x hx) hc cs offset
    have hlength : ys.length < fuel := by
      rw [List.length_cons] at hfuel
      omega
    obtain ⟨nodes, stop, hread, hnodes⟩ :=
      readSeparated_cons (by decide) y ys hitem hlength rest offset
    refine ⟨nodes, stop + ']'.utf8Size, ?_, hnodes⟩
    simp only [List.append_assoc, List.singleton_append]
    simp [readItems, hread, skipSpace_cons hclosing, final, Cursor.peek?, Cursor.next, bind,
      Except.bind, pure, Except.pure]

/-! ## Maps -/

/-- A new key goes to the end of a table that no dotted key made. -/
theorem Table.put_new {table : Table} (hstyle : table.style.dotted = false) {key : Key}
    (hnew : key.name ∉ table.entries.map fun e => e.1.name) (owner : Option (List String))
    (node : Node) : table.put owner [] key node = .ok (table.append key node) := by
  have habsent : table.find? key.name = none := by
    rw [find?, Option.map_eq_none_iff, List.find?_eq_none]
    intro e he
    simpa using fun hname => hnew (List.mem_map.mpr ⟨e, he, hname⟩)
  unfold put
  simp [reach, hstyle, habsent, bind, Except.bind, pure, Except.pure]

/-- A member and the entry that it is read as, behind its path. -/
def HoldsPathEntry (m : String × Json) (e : List Key × Key × Node) : Prop :=
  e.1 = [] ∧ HoldsEntry m e.2

/-- Entries with new names go to the end of a table, in order. -/
theorem foldlM_put {members : List (String × Json)} {entries : List (List Key × Key × Node)}
    (hentries : List.Forall₂ HoldsPathEntry members entries) {table : Table}
    (hstyle : table.style.dotted = false)
    (hnames : (table.entries.map (fun e => e.1.name) ++ members.map Prod.fst).Nodup) :
    entries.foldlM (fun table e => table.put none e.1 e.2.1 e.2.2) table =
      .ok { table with entries := table.entries ++ entries.map Prod.snd } := by
  induction hentries generalizing table with
  | nil => simp [pure, Except.pure]
  | @cons m e members entries hentry _ ih =>
    obtain ⟨hpath, hname, -⟩ := hentry
    have hnew : e.2.1.name ∉ table.entries.map fun e => e.1.name := by
      rw [hname]
      exact fun hmem => (List.nodup_append.mp hnames).2.2 _ hmem _ List.mem_cons_self rfl
    have hothers := @ih (table.append e.2.1 e.2.2) hstyle (by
      simpa [Table.append, hname] using hnames)
    rw [List.foldlM_cons, hpath, Table.put_new hstyle hnew]
    refine hothers.trans ?_
    simp [Table.append]

/-- Entries with different names make a table that holds them. -/
theorem inlineTable_holds {members : List (String × Json)}
    {entries : List (List Key × Key × Node)}
    (hentries : List.Forall₂ HoldsPathEntry members entries)
    (hnames : (members.map Prod.fst).Nodup) (span : Extent) :
    ∃ node, inlineTable span entries = .ok node ∧ Holds (.obj members) node := by
  let start : Table := ⟨{ span := some span, inline := true }, []⟩
  have hstyle : start.style.dotted = false := rfl
  have hfold := foldlM_put hentries hstyle hnames
  refine ⟨_, (congrArg (· >>= fun table : Table => Except.ok table.toNode) hfold), ?_⟩
  refine holds_table_iff.mpr ?_
  rw [List.nil_append, List.forall₂_map_right_iff]
  exact hentries.imp fun _ _ hentry => hentry.2

/-- The key of an entry is read as its name, up to the sign behind it. -/
theorem readKey_writeEntry {m : String × Json} (hname : Bare m.1) (rest : List Char)
    (fuel offset : Nat) :
    ∃ key stop, readKey fuel ⟨writeEntry m ++ rest, offset⟩ =
      .ok ([], key, ⟨'=' :: ' ' :: (write m.2 ++ rest), stop⟩) ∧ key.name = m.1 := by
  have hequals : isBlank '=' = false := rfl
  have hspace : isBareChar ' ' = false := rfl
  obtain ⟨key, stop, hkey, hnamed⟩ := readKey_bare hname hspace
    ('=' :: ' ' :: (write m.2 ++ rest)) (fun offset => by
      rw [skipBlank_space, skipBlank_cons hequals]
      simp [Cursor.peek?]) fuel offset
  rw [skipBlank_space, skipBlank_cons hequals] at hkey
  refine ⟨key, stop + 1, ?_, hnamed⟩
  simpa only [writeEntry, List.append_assoc, List.cons_append] using hkey

/-- The blank in front of the value of an entry is passed over. -/
theorem skipBlank_write {value : Json} (hhead : Headed value) (rest : List Char) (offset : Nat) :
    skipBlank ⟨' ' :: (write value ++ rest), offset⟩ = ⟨write value ++ rest, offset + 1⟩ := by
  obtain ⟨c, cs, hwritten, hc⟩ := hhead
  rw [skipBlank_space, hwritten, List.cons_append, skipBlank_cons hc.1]

/-- An entry is read as it was written. -/
theorem readEntry_write {m : String × Json} (hname : Bare m.1) {fuel level : Nat}
    (hhead : Headed m.2) (hvalue : ReadBack fuel level m.2) {c : Char} (hc : c = ',' ∨ c = '}')
    (cs : List Char) (offset : Nat) :
    Leaves (c :: cs) (HoldsPathEntry m)
      (readEntry (readValue fuel level) fuel ⟨writeEntry m ++ c :: cs, offset⟩) := by
  have hbehind : isBlank c = false ∧ c ≠ '\"' := by rcases hc with rfl | rfl <;> decide
  obtain ⟨key, sign, hkey, hnamed⟩ := readKey_writeEntry hname (c :: cs) fuel offset
  obtain ⟨node, stop, hread, hnode⟩ :=
    hvalue (c :: cs) (sign + '='.utf8Size + 1) (by simpa using hbehind.2)
  refine ⟨([], key, node), stop, ?_, rfl, hnamed, hnode⟩
  simp [readEntry, hkey, Cursor.peek?, Cursor.next, skipBlank_write hhead, hread,
    skipBlank_cons hbehind.1, final, bind, Except.bind, pure, Except.pure]

/-- The entries of a map are read up to the closing brace. -/
theorem readEntries_write {members : List (String × Json)} (fuel level : Nat)
    (hnames : (members.map Prod.fst).Nodup) (hbare : ∀ m ∈ members, Bare m.1)
    (hhead : ∀ m ∈ members, Headed m.2) (hvalue : ∀ m ∈ members, ReadBack fuel level m.2)
    (hfuel : members.length < fuel) (start : Cursor) (rest : List Char) (offset : Nat) :
    ∃ inner, write (.obj members) = '{' :: inner ∧
      Leaves rest (Holds (.obj members))
        (readEntries (readValue fuel level) fuel start ⟨inner ++ rest, offset⟩) := by
  have hclosing : isBlank '}' = false := rfl
  cases members with
  | nil =>
    obtain ⟨node, htable, hnode⟩ := inlineTable_holds .nil List.nodup_nil
      ⟨start.offset, (Cursor.mk ('}' :: rest) offset).next.offset⟩
    refine ⟨['}'], rfl, node, offset + '}'.utf8Size, ?_, hnode⟩
    obtain ⟨fuel, rfl⟩ := Nat.exists_eq_add_of_lt hfuel
    have hkey (fuel : Nat) : readKey fuel ⟨'}' :: rest, offset⟩ =
        .error ⟨offset, "invalid key", false⟩ := rfl
    simp only [Cursor.next] at htable
    simp [readEntries, readSeparated, readEntry, hkey, skipBlank_cons hclosing, htable, settle,
      Cursor.peek?, Cursor.next, bind, Except.bind, pure, Except.pure]
  | cons m ms =>
    refine ⟨writeEntry m ++ (ms.flatMap (fun m => ',' :: writeEntry m) ++ ['}']),
      write_obj_cons m ms, ?_⟩
    have hitem : ∀ m' ∈ m :: ms, ∀ c cs offset, c = ',' ∨ c = '}' →
        Leaves (c :: cs) (HoldsPathEntry m')
          (readEntry (readValue fuel level) fuel ⟨writeEntry m' ++ c :: cs, offset⟩) :=
      fun m hm _ cs offset hc =>
        readEntry_write (hbare m hm) (hhead m hm) (hvalue m hm) hc cs offset
    have hlength : ms.length < fuel := by
      rw [List.length_cons] at hfuel
      omega
    obtain ⟨entries, stop, hread, hentries⟩ :=
      readSeparated_cons (by decide) m ms hitem hlength rest offset
    obtain ⟨node, htable, hnode⟩ := inlineTable_holds hentries hnames
      ⟨start.offset, (Cursor.mk ('}' :: rest) stop).next.offset⟩
    refine ⟨node, stop + '}'.utf8Size, ?_, hnode⟩
    simp only [Cursor.next] at htable
    simp only [List.append_assoc, List.singleton_append]
    simp [readEntries, hread, skipBlank_cons hclosing, htable, settle, Cursor.peek?, Cursor.next,
      bind, Except.bind, pure, Except.pure]

/-! ## Values -/

/-- A list has fewer items than characters, and its items are shorter than it. -/
theorem length_lt_of_arr {items : List Json} {fuel : Nat}
    (hfuel : (write (.arr items)).length ≤ fuel) :
    items.length < fuel ∧ ∀ x ∈ items, (write x).length < fuel := by
  cases items with
  | nil => exact ⟨Nat.lt_of_lt_of_le (by decide) hfuel, fun _ hx => (nomatch hx)⟩
  | cons y ys =>
    obtain ⟨hcount, hshorter⟩ := length_separated write ']' y ys
    rw [write_arr_cons, List.length_cons] at hfuel
    refine ⟨by omega, fun x hx => ?_⟩
    have hx := hshorter x hx
    omega

theorem length_lt_of_obj {members : List (String × Json)} {fuel : Nat}
    (hfuel : (write (.obj members)).length ≤ fuel) :
    members.length < fuel ∧ ∀ m ∈ members, (write m.2).length < fuel := by
  cases members with
  | nil => exact ⟨Nat.lt_of_lt_of_le (by decide) hfuel, fun _ hm => (nomatch hm)⟩
  | cons y ys =>
    obtain ⟨hcount, hshorter⟩ := length_separated writeEntry '}' y ys
    rw [write_obj_cons, List.length_cons] at hfuel
    refine ⟨by omega, fun m hm => ?_⟩
    have hm := hshorter m hm
    have hvalue : (write m.2).length ≤ (writeEntry m).length := by
      simp only [writeEntry, List.length_append, List.length_cons]
      omega
    omega

/-- A value is read as it was written, wherever there is room for its lists and maps. -/
theorem readValue_write {depth : Nat} {value : Json} (h : Plain depth value) {fuel level : Nat}
    (hfuel : (write value).length < fuel) (hlevel : level + depth < depthLimit)
    {rest : List Char} (hrest : rest.head? ≠ some '\"') (offset : Nat) :
    Leaves rest (Holds value) (readValue fuel level ⟨write value ++ rest, offset⟩) := by
  induction h generalizing fuel level rest offset with
  | flag b =>
    obtain ⟨fuel, rfl⟩ := Nat.exists_eq_add_of_lt hfuel
    cases b with
    | true => exact ⟨_, _, rfl, .flag true _⟩
    | false => exact ⟨_, _, rfl, .flag false _⟩
  | text s =>
    cases fuel with
    | zero => omega
    | succ fuel =>
      obtain ⟨s, stop, hread, rfl⟩ :=
        readString_writeString s hrest (Nat.le_of_lt_succ hfuel) offset
      refine ⟨_, stop, ?_, .text s ⟨offset, stop⟩⟩
      have hquote : (Cursor.mk (writeString s ++ rest) offset).peek? = some '\"' := rfl
      rw [write]
      simp [readValue, readScalar, hquote, hread, bind, Except.bind, pure, Except.pure]
  | @list depth items values ih =>
    cases fuel with
    | zero => omega
    | succ fuel =>
      have hroom : ¬ depthLimit ≤ level + 1 := by omega
      obtain ⟨hcount, hshorter⟩ := length_lt_of_arr (Nat.le_of_lt_succ hfuel)
      obtain ⟨inner, hwritten, nodes, stop, hread, hnodes⟩ :=
        readItems_write fuel (level + 1) (fun x hx => (values x hx).headed)
          (fun x hx rest offset hrest => ih x hx (hshorter x hx) (by omega) hrest offset) hcount
          rest (offset + '['.utf8Size)
      refine ⟨_, stop, ?_, .list ⟨offset, stop⟩ hnodes⟩
      rw [hwritten]
      simp [readValue, Cursor.peek?, Cursor.next, hroom, hread, bind, Except.bind, pure,
        Except.pure]
  | @map depth members names bare values ih =>
    cases fuel with
    | zero => omega
    | succ fuel =>
      have hroom : ¬ depthLimit ≤ level + 1 := by omega
      obtain ⟨hcount, hshorter⟩ := length_lt_of_obj (Nat.le_of_lt_succ hfuel)
      obtain ⟨inner, hwritten, node, stop, hread, hnode⟩ :=
        readEntries_write fuel (level + 1) names bare (fun m hm => (values m hm).headed)
          (fun m hm rest offset hrest => ih m hm (hshorter m hm) (by omega) hrest offset) hcount
          ⟨write (.obj members) ++ rest, offset⟩ rest (offset + '{'.utf8Size)
      refine ⟨node, stop, ?_, hnode⟩
      rw [hwritten] at hread ⊢
      simp only [List.cons_append] at hread ⊢
      simp [readValue, Cursor.peek?, Cursor.next, hroom, hread]

end ScopeCheck.Toml
