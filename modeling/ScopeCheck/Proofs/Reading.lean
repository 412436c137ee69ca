import ScopeCheck.Proofs.Decoding

/-!
# Reading what was written

The text that a value is written as is read back as that value, whatever follows it, as long as the
text behind it cannot be taken for more digits; and nothing is read that could not be written.

* `ReadsBack`: a reader gives a value for the text that a JSON value is written as.
* `PutsBack`: a reader of a member puts its value into the slots of a record.
* `Schema.Reads`, `Field.Reads`, `Fields.Reads`: the law for a schema, a field and the fields of a
  record.
* `Schema.reads`: every lawful schema keeps it.
* `Schema.parse_write`: so a whole text comes back.
-/

namespace ScopeCheck

open ScopeCheck.Json (Reordered ReorderedMembers Readable EndsNumber write writeItems writeMembers
  writeString readValue isBlank)

variable {α β σ : Type} {ts : List Type}

/-- A reader gives `x` for the text that `value` is written as. -/
def ReadsBack (read : List Char → Except Refusal (α × List Char)) (value : Json) (x : α) : Prop :=
  ∀ rest, EndsNumber rest → read (write value ++ rest) = .ok (x, rest)

/-! ## The items of a list -/

theorem readElements_writeItems {depth : Nat} {item : List Char → Except Refusal (α × List Char)}
    {kept : List Json} {xs : List α} (hreadable : ∀ j ∈ kept, Readable depth j)
    (hitems : List.Forall₂ (ReadsBack item) kept xs) (fuel : Nat) (rest : List Char)
    (hfuel : kept.length < fuel) :
    readElements item fuel false (writeItems kept ++ rest) = .ok (xs, ']' :: rest) := by
  induction hitems generalizing fuel with
  | nil =>
    cases fuel with
    | zero => omega
    | succ fuel => rfl
  | @cons j x kept xs hj _ ih =>
    obtain ⟨hreadablej, hreadable⟩ := List.forall_mem_cons.mp hreadable
    cases fuel with
    | zero => omega
    | succ fuel =>
      rw [List.length_cons] at hfuel
      have hothers := ih hreadable fuel (by omega)
      have hvalue := hj _ (Json.endsNumber_writeItems kept rest)
      have hnext := (Json.nextItem_write hreadablej (writeItems kept ++ rest)).2
      have hcomma : isBlank ',' = false := by decide
      rw [writeItems, List.cons_append, List.append_assoc]
      simp only [readElements, Json.skipBlank_cons hcomma, hnext, hvalue, hothers]

/-- All of a list behind its opening bracket. -/
theorem readElements_first {depth : Nat} {item : List Char → Except Refusal (α × List Char)}
    {kept : List Json} {xs : List α} (hreadable : ∀ j ∈ kept, Readable depth j)
    (hitems : List.Forall₂ (ReadsBack item) kept xs) (fuel : Nat) (rest : List Char)
    (hfuel : kept.length < fuel) :
    ∃ cs, write (.arr kept) ++ rest = '[' :: cs ∧
      readElements item fuel true cs = .ok (xs, ']' :: rest) := by
  cases fuel with
  | zero => omega
  | succ fuel =>
    cases hitems with
    | nil => exact ⟨']' :: rest, rfl, rfl⟩
    | @cons j x kept xs hj hitems =>
      obtain ⟨hreadablej, hreadable⟩ := List.forall_mem_cons.mp hreadable
      rw [List.length_cons] at hfuel
      have hothers := readElements_writeItems hreadable hitems fuel rest (by omega)
      have hvalue := hj _ (Json.endsNumber_writeItems kept rest)
      have hnext := (Json.nextItem_write hreadablej (writeItems kept ++ rest)).1
      refine ⟨write j ++ (writeItems kept ++ rest), ?_, ?_⟩
      · rw [write, List.cons_append, List.append_assoc]
      · simp only [readElements, hreadablej.skipBlank_write, hnext, hvalue, hothers]

/-- What holds of whatever is read for an item holds of all items. -/
theorem forall_of_readElements {P : α → Prop} {item : List Char → Except Refusal (α × List Char)}
    (hitem : ∀ {cs x rest}, item cs = .ok (x, rest) → P x) {fuel : Nat} {first : Bool}
    {cs rest : List Char} {xs : List α} (h : readElements item fuel first cs = .ok (xs, rest)) :
    ∀ x ∈ xs, P x := by
  induction fuel generalizing first cs xs with
  | zero => cases h
  | succ fuel ih =>
    unfold readElements at h
    split at h
    · cases h
    · cases h
      exact fun x hx => nomatch hx
    · split at h
      · cases h
      · rename_i hx
        split at h
        · cases h
        · rename_i hxs
          cases h
          exact List.forall_mem_cons.mpr ⟨hitem hx, ih hxs⟩

/-! ## The members of an object -/

/-- Reading the value of a member behind its name takes slots from one state to another. -/
def PutsBack (put : String → σ → List Char → Except Refusal (σ × List Char)) (m : String × Json)
    (slots next : σ) : Prop :=
  ∀ rest, EndsNumber rest → put m.1 slots (':' :: (write m.2 ++ rest)) = .ok (next, rest)

theorem readSlots_writeMembers {put : String → σ → List Char → Except Refusal (σ × List Char)}
    {members : List (String × Json)} {slots last : σ} (h : Fills (PutsBack put) members slots last)
    (fuel : Nat) (rest : List Char) (hfuel : (writeMembers members).length < fuel) :
    readSlots put fuel false slots (writeMembers members ++ rest) = .ok (last, '}' :: rest) := by
  induction h generalizing fuel with
  | nil =>
    cases fuel with
    | zero => omega
    | succ fuel => rfl
  | @cons m members slots next last first _ ih =>
    obtain ⟨name, value⟩ := m
    cases fuel with
    | zero => omega
    | succ fuel =>
      simp only [writeMembers, List.length_cons, List.length_append] at hfuel
      have hothers := ih fuel (by omega)
      have hvalue := first _ (Json.endsNumber_writeMembers members rest)
      obtain ⟨cs, hwritten, hname⟩ := Json.readString_writeString name
        (':' :: (write value ++ (writeMembers members ++ rest))) fuel (by omega)
      have hcomma : isBlank ',' = false := by decide
      have hnext := (Json.nextMember_quote cs).2
      rw [writeMembers, List.cons_append, List.append_assoc, List.cons_append, List.append_assoc,
        hwritten]
      simp only [readSlots, Json.skipBlank_cons hcomma, hnext, hname, hvalue, hothers]

/-- All of an object behind its opening brace. -/
theorem readSlots_first {put : String → σ → List Char → Except Refusal (σ × List Char)}
    {members : List (String × Json)} {slots last : σ} (h : Fills (PutsBack put) members slots last)
    (fuel : Nat) (rest : List Char) (hfuel : (write (.obj members)).length < fuel) :
    ∃ cs, write (.obj members) ++ rest = '{' :: cs ∧
      readSlots put fuel true slots cs = .ok (last, '}' :: rest) := by
  cases fuel with
  | zero => omega
  | succ fuel =>
    cases h with
    | nil => exact ⟨'}' :: rest, rfl, rfl⟩
    | @cons m members _ next _ first others =>
      obtain ⟨name, value⟩ := m
      simp only [write, List.length_cons, List.length_append] at hfuel
      have hothers := readSlots_writeMembers others fuel rest (by omega)
      have hvalue := first _ (Json.endsNumber_writeMembers members rest)
      obtain ⟨cs, hwritten, hname⟩ := Json.readString_writeString name
        (':' :: (write value ++ (writeMembers members ++ rest))) fuel (by omega)
      have hquote : isBlank '\"' = false := by decide
      have hnext := (Json.nextMember_quote cs).1
      refine ⟨'\"' :: cs, ?_, ?_⟩
      · rw [write, List.cons_append, List.append_assoc, List.cons_append, List.append_assoc,
          hwritten]
      · simp only [readSlots, Json.skipBlank_cons hquote, hnext, hname, hvalue, hothers]

/-! ## The law of reading -/

/-- The values of a schema come back from the texts they are written as, with the members of objects
in any order. -/
structure Schema.Reads (schema : Schema α) : Prop where
  read : ∀ {x}, schema.Fits x → ∀ {j}, Reordered (schema.encode x) j → ∀ {fuel depth},
    schema.nesting ≤ depth → (write j).length < fuel → ReadsBack (schema.read fuel depth) j x
  fits : ∀ {fuel depth cs x rest}, schema.read fuel depth cs = .ok (x, rest) → schema.Fits x

/-- The values of a field come back from the texts they are written as. -/
structure Field.Reads (field : Field β) : Prop where
  read : ∀ {x j}, field.Fits x → field.encode x = some j → ∀ {k}, Reordered j k →
    ∀ {fuel depth}, field.nesting ≤ depth → (write k).length < fuel →
    ReadsBack (field.read fuel depth) k x
  fits : ∀ {fuel depth cs x rest}, field.read fuel depth cs = .ok (x, rest) → field.Fits x

/-- The values of fields come back from the members they are written as. -/
structure Fields.Reads (fields : Fields ts) : Prop where
  fills : ∀ {row}, fields.Fits row → ∀ {kept}, ReorderedMembers (fields.encode row) kept →
    ∀ {fuel depth}, fields.nesting ≤ depth → (∀ m ∈ kept, (write m.2).length < fuel) →
    ∃ slots, Fills (PutsBack fun name slots cs => fields.readInto fuel name depth slots cs) kept
        fields.noSlots slots ∧
      fields.complete slots = .ok row
  readInto_fits : ∀ {fuel name depth slots cs slots' rest}, fields.SlotsFit slots →
    fields.readInto fuel name depth slots cs = .ok (slots', rest) → fields.SlotsFit slots'
  readByPosition_fits : ∀ {fuel record size index first depth cs row rest},
    fields.readByPosition fuel record size index first depth cs = .ok (row, rest) →
      fields.Fits row

/-- Which of two forms a text has is decided by the value that it is read as. -/
theorem Schema.read_either (name : String) (left : Schema α) (right : Schema β) (fuel depth : Nat)
    (cs : List Char) :
    (Schema.either name left right).read fuel depth cs =
      match readValue fuel depth cs with
      | .error stop => .error (.ofStop stop)
      | .ok (kept, rest) =>
        match (Schema.either name left right).decode kept with
        | .ok x => .ok (x, rest)
        | .error fault => .error (.unplaced fault rest) := by
  unfold Schema.read
  cases readValue fuel depth cs with
  | error stop => rfl
  | ok found =>
    obtain ⟨kept, rest⟩ := found
    cases hleft : left.decode kept with
    | ok a => simp only [Schema.decode, hleft]
    | error fault =>
      cases hright : right.decode kept <;> simp only [Schema.decode, hleft, hright]

namespace Schema.Reads

theorem text : Schema.text.Reads where
  read {s} _ j hj fuel depth _ hfuel rest _ := by
    cases hj
    obtain ⟨cs, hwritten, hread⟩ := Json.readString_writeString s rest fuel hfuel
    have hquote : isBlank '\"' = false := by decide
    show readText fuel (writeString s ++ rest) = .ok (s, rest)
    rw [hwritten]
    simp only [readText, Json.skipBlank_cons hquote, hread, lift]
  fits _ := trivial

theorem flag : Schema.flag.Reads where
  read {b} _ j hj fuel depth _ _ rest _ := by
    cases hj
    cases b with
    | false => rfl
    | true => rfl
  fits _ := trivial

theorem count {range : Range} (hlimit : range.limit ≤ 2 ^ 64) : (Schema.count range).Reads where
  read {n} hn j hj fuel depth _ _ rest hrest := by
    cases hj
    have hn : n < range.limit := hn
    have hread := Json.readNumber_writeInteger (Json.holds64_natCast (n := n) (by omega)) hrest
    obtain ⟨c, cs, hwritten, hstart⟩ := Json.head_writeInteger n
    have hc : c = '-' ∨ (Json.digit? c).isSome := hstart
    show readCount range fuel (Json.writeInteger n ++ rest) = .ok (n, rest)
    rw [hwritten, List.cons_append] at hread ⊢
    simp only [readCount, Json.skipBlank_cons hstart.not_blank, hc, if_true, hread,
      Range.ofInt_natCast hn]
  fits {fuel depth cs n rest} h := by
    have h : readCount range fuel cs = .ok (n, rest) := h
    unfold readCount at h
    split at h
    · cases h
    · split at h
      · split at h
        · cases h
        · split at h
          · rename_i hread
            cases h
            exact Range.lt_of_ofInt hread
          · cases h
        · cases h
      · cases h

theorem list {item : Schema α} (hdecodes : item.Decodes) (hitem : item.Reads) :
    (Schema.list item).Reads where
  read {xs} hxs j hj fuel depth hdepth hfuel rest hrest := by
    have hreadable : ∀ x ∈ xs, Readable item.nesting (item.encode x) :=
      fun x hx => hdecodes.readable (hxs x hx)
    have hdepth : item.nesting + 1 ≤ depth := hdepth
    obtain ⟨kept, rfl, hkept⟩ := Reordered.of_arr hj
    have hkept := List.forall₂_map_left_iff.mp hkept
    have hlength := Json.length_le_write_arr kept
    cases depth with
    | zero => omega
    | succ depth =>
      have hshorter : ∀ k ∈ kept, (write k).length < fuel := fun k hk =>
        Nat.lt_trans (Json.length_write_lt_arr hk) hfuel
      have hfits : List.Forall₂ (fun x k => item.Fits x ∧ Reordered (item.encode x) k) xs kept :=
        (List.forall₂_and_left xs kept).mpr ⟨hxs, hkept⟩
      have hitems : List.Forall₂ (ReadsBack (item.read fuel depth)) kept xs := by
        refine ((List.forall₂_and_left kept xs).mpr ⟨hshorter, hfits.flip⟩).imp ?_
        rintro k x ⟨hlength, hx, hxk⟩
        exact hitem.read hx hxk (by omega) hlength
      have hkeptReadable : ∀ k ∈ kept, Readable item.nesting k := by
        intro k hk
        obtain ⟨x, hx, hxk⟩ := exists_of_mem_forall₂ hkept hk
        exact (hreadable x hx).reordered hxk
      obtain ⟨cs, hwritten, hread⟩ := readElements_first hkeptReadable hitems fuel rest (by omega)
      have hopen : isBlank '[' = false := by decide
      have hclose : closeList (']' :: rest) = .ok rest := rfl
      rw [hwritten]
      simp only [Schema.read, Json.skipBlank_cons hopen, hread, hclose]
  fits {fuel depth cs xs rest} h := by
    unfold Schema.read at h
    split at h
    · split at h
      · cases h
      · split at h
        · cases h
        · rename_i hread
          split at h
          · cases h
            exact forall_of_readElements hitem.fits hread
          · cases h
    · cases h

theorem either {name : String} {left : Schema α} {right : Schema β}
    (hdecodes : (Schema.either name left right).Decodes) :
    (Schema.either name left right).Reads where
  read {x} hx j hj fuel depth hdepth hfuel rest hrest := by
    -- The form is found in the value of the text, which may have its members in a third order.
    have hreadable := hdecodes.readable hx
    obtain ⟨kept, hkept, hread⟩ := ((hreadable.reordered hj).mono hdepth).readAs
    have hvalue := hread fuel rest hfuel hrest
    have hdecode := hdecodes.decode hx (hreadable.reordered_trans hj hkept)
    rw [Schema.read_either]
    simp only [hvalue, hdecode]
  fits {fuel depth cs x rest} h := by
    rw [Schema.read_either] at h
    split at h
    · cases h
    · split at h
      · rename_i hdecode
        cases h
        exact hdecodes.fits hdecode
      · cases h

theorem via {item : Schema α} {pack : α → β} {unpack : β → α} (hitem : item.Reads)
    (hpack : ∀ x, pack (unpack x) = x) (hunpack : ∀ a, unpack (pack a) = a) :
    (Schema.via item pack unpack).Reads where
  read {x} hx j hj fuel depth hdepth hfuel rest hrest := by
    have hread := hitem.read hx hj hdepth hfuel rest hrest
    simp only [Schema.read, hread, hpack]
  fits {fuel depth cs x rest} h := by
    unfold Schema.read at h
    split at h
    · rename_i a left hread
      cases h
      have hfits := hitem.fits hread
      rw [← hunpack a] at hfits
      exact hfits
    · cases h

end Schema.Reads

/-! ## Fields -/

namespace Field.Reads

theorem required (name : String) {item : Schema α} (hitem : item.Reads) :
    (Field.required name item).Reads where
  read hx h := by
    cases h
    exact hitem.read hx
  fits := hitem.fits

theorem defaulted (name : String) (value : α) {item : Schema α} (hitem : item.Reads) :
    (Field.defaulted name value item).Reads where
  read hx h := by
    cases h
    exact hitem.read hx
  fits := hitem.fits

theorem optional (name : String) {item : Schema α} (hdecodes : item.Decodes)
    (hitem : item.Reads) : (Field.optional name item).Reads where
  read {x j} hx h k hk fuel depth hdepth hfuel rest hrest := by
    obtain ⟨a, rfl, rfl⟩ := Option.map_eq_some_iff.mp h
    have ha : item.Fits a := hx a rfl
    have hread := hitem.read ha hk hdepth hfuel rest hrest
    obtain ⟨c, cs, hwritten, hblank, -, hnull⟩ := ((hdecodes.readable ha).reordered hk).head
    have hc : c ≠ 'n' := fun heq => hdecodes.ne_null a (hnull heq ▸ hk).eq_null
    show readOrNull (item.read fuel depth) (write k ++ rest) = .ok (some a, rest)
    rw [hwritten, List.cons_append] at hread ⊢
    unfold readOrNull
    rw [Json.skipBlank_cons hblank]
    split
    · rename_i heq
      exact absurd (List.cons.inj heq).1 hc
    · simp only [hread]
  fits {fuel depth cs x rest} h := by
    have h : readOrNull (item.read fuel depth) cs = .ok (x, rest) := h
    unfold readOrNull at h
    split at h
    · split at h
      · cases h
        exact fun a ha => nomatch ha
      · cases h
    · split at h
      · rename_i hread
        cases h
        intro a ha
        cases ha
        exact hitem.fits hread
      · cases h

end Field.Reads

namespace Fields.Reads

theorem nil : Fields.nil.Reads where
  fills {row} _ kept hkept _ _ _ _ := by
    rw [ReorderedMembers.of_nil hkept]
    exact ⟨(), .nil, rfl⟩
  readInto_fits _ _ := trivial
  readByPosition_fits _ := trivial

/-- A record with one more field in front. -/
theorem cons {field : Field β} {rest : Fields ts} (hdecodes : field.Decodes)
    (hfield : field.Reads) (hname : field.name ∉ rest.names) (hrest : rest.Reads) :
    (field.cons rest).Reads where
  fills {row} hrow kept hkept fuel depth hdepth hfuel := by
    obtain ⟨x, row⟩ := row
    obtain ⟨hx, hrow⟩ := (Fields.fits_cons field rest x row).mp hrow
    obtain ⟨hothers, hwritten, habsent⟩ := Fields.of_reordered_encode_cons hname hkept
    rw [Fields.nesting_cons] at hdepth
    obtain ⟨hfirstDepth, hothersDepth⟩ := Nat.max_le.mp hdepth
    obtain ⟨slots, hfills, hcomplete⟩ := hrest.fills hrow hothers hothersDepth
      fun m hm => hfuel m (List.mem_of_mem_filter hm)
    have hsplit {slot : Option β} (hslot : Fills
        (PutsBack fun _ => readOnce field.name (field.read fuel depth))
        (kept.filter fun m => decide (m.1 = field.name)) none slot) :
        Fills (PutsBack fun name slots cs => (field.cons rest).readInto fuel name depth slots cs)
          kept (none, rest.noSlots) (slot, slots) := by
      refine Fills.split field.name ?_ ?_ hslot hfills
      · intro m slot slot' slots hm hput text htext
        simp only [Fields.readInto_cons, hm, if_true, hput text htext]
      · intro m slot slots slots' hm hput text htext
        simp only [Fields.readInto_cons, hm, if_false, hput text htext]
    rw [Fields.noSlots_cons]
    cases hj : field.encode x with
    | some j =>
      obtain ⟨k, hk, honly⟩ := hwritten j hj
      have hmem : (field.name, k) ∈ kept :=
        List.mem_of_mem_filter (honly ▸ List.mem_singleton_self _)
      have hread := hfield.read hx hj hk hfirstDepth (hfuel _ hmem)
      refine ⟨(some x, slots), hsplit ?_, ?_⟩
      · rw [honly]
        refine .cons (fun text htext => ?_) .nil
        simp only [readOnce, readMember, Json.readColon_colon, hread text htext]
      · simp only [Fields.complete_cons, Option.some_or, hcomplete]
    | none =>
      refine ⟨(none, slots), hsplit ?_, ?_⟩
      · rw [habsent hj]
        exact .nil
      · simp only [Fields.complete_cons, Option.none_or, hdecodes.absent hj, hcomplete]
  readInto_fits {fuel name depth slots cs slots' text} hslots h := by
    obtain ⟨slot, slots⟩ := slots
    obtain ⟨hslot, hothers⟩ := (Fields.slotsFit_cons field rest slot slots).mp hslots
    rw [Fields.readInto_cons] at h
    split at h
    · split at h
      · rename_i filled left hread
        cases h
        refine (Fields.slotsFit_cons field rest _ _).mpr ⟨?_, hothers⟩
        unfold readOnce at hread
        split at hread
        · cases hread
        · unfold readMember at hread
          split at hread
          · cases hread
          · rename_i hvalue
            split at hvalue
            · cases hvalue
            · cases hread
              intro y hy
              cases hy
              exact hfield.fits hvalue
      · cases h
    · split at h
      · rename_i hread
        cases h
        exact (Fields.slotsFit_cons field rest _ _).mpr ⟨hslot, hrest.readInto_fits hothers hread⟩
      · cases h
  readByPosition_fits {fuel record size index first depth cs row text} h := by
    obtain ⟨x, row⟩ := row
    rw [Fields.readByPosition_cons] at h
    split at h
    · cases h
    · split at h
      · cases h
      · rename_i hvalue
        split at h
        · rename_i hothers
          cases h
          exact (Fields.fits_cons field rest _ _).mpr
            ⟨hdecodes.absent_fits hvalue, hrest.readByPosition_fits hothers⟩
        · cases h
    · split at h
      · cases h
      · rename_i hvalue
        split at h
        · rename_i hothers
          cases h
          exact (Fields.fits_cons field rest _ _).mpr
            ⟨hfield.fits hvalue, hrest.readByPosition_fits hothers⟩
        · cases h

theorem readSlots_fits {fields : Fields ts} (hfields : fields.Reads) {depth outer fuel : Nat}
    {first : Bool} {cs rest : List Char} {slots slots' : Slots ts}
    (hslots : fields.SlotsFit slots)
    (h : readSlots (fun name slots cs => fields.readInto outer name depth slots cs) fuel first
      slots cs = .ok (slots', rest)) : fields.SlotsFit slots' := by
  induction fuel generalizing first slots cs with
  | zero => cases h
  | succ fuel ih =>
    unfold readSlots at h
    split at h
    · cases h
    · cases h
      exact hslots
    · split at h
      · cases h
      · split at h
        · cases h
        · rename_i hput
          exact ih (hfields.readInto_fits hslots hput) h

end Fields.Reads

/-! ## Every schema -/

theorem Schema.Reads.record {name : String} {fields : Fields ts} (hdecodes : fields.Decodes)
    (hfields : fields.Reads) : (Schema.record name fields).Reads where
  read {row} hrow j hj fuel depth hdepth hfuel rest hrest := by
    have hdepth : fields.nesting + 1 ≤ depth := hdepth
    obtain ⟨kept, rfl, hkept⟩ := Reordered.of_obj hj
    cases depth with
    | zero => omega
    | succ depth =>
      have hshorter : ∀ m ∈ kept, (write m.2).length < fuel := fun m hm =>
        Nat.lt_trans (Json.length_write_lt_obj hm) hfuel
      have hinner : fields.nesting ≤ depth := by omega
      obtain ⟨slots, hfills, hcomplete⟩ := hfields.fills hrow hkept hinner hshorter
      obtain ⟨cs, hwritten, hread⟩ := readSlots_first hfills fuel rest hfuel
      have hopen : isBlank '{' = false := by decide
      have hleave : leaveObject ('}' :: rest) = rest := rfl
      rw [hwritten]
      simp only [Schema.read, Json.skipBlank_cons hopen, hread, hcomplete, hleave]
  fits {fuel depth cs row rest} h := by
    unfold Schema.read at h
    split at h
    · split at h
      · cases h
      · split at h
        · cases h
        · rename_i hread
          split at h
          · cases h
            exact hfields.readByPosition_fits hread
          · cases h
    · split at h
      · cases h
      · split at h
        · cases h
        · rename_i hread
          split at h
          · rename_i hcomplete
            cases h
            exact hdecodes.complete_fits (hfields.readSlots_fits fields.noSlots_fit hread) hcomplete
          · cases h
    · cases h

mutual

/-- A lawful schema reads back what it writes, and reads nothing that it cannot write. -/
theorem Schema.reads : {α : Type} → (schema : Schema α) → schema.Lawful → schema.Reads
  | _, .text, _ => .text
  | _, .flag, _ => .flag
  | _, .count _, hlimit => .count hlimit
  | _, .list item, hitem => .list (item.decodes hitem) (item.reads hitem)
  | _, .either name left right, h => .either ((Schema.either name left right).decodes h)
  | _, .record _ fields, h => by
    obtain ⟨hnames, hfields⟩ := h
    exact .record (fields.decodes hfields hnames) (fields.reads hfields hnames)
  | _, .via item _ _, h => by
    obtain ⟨hitem, hpack, hunpack⟩ := h
    exact .via (item.reads hitem) hpack hunpack

theorem Fields.reads : {ts : List Type} → (fields : Fields ts) → fields.Lawful →
    fields.names.Nodup → fields.Reads
  | _, .nil, _, _ => .nil
  | _, .required name item rest, h, hnames => by
    obtain ⟨hitem, hrest⟩ := h
    obtain ⟨hname, hnames⟩ := List.nodup_cons.mp hnames
    exact .cons (.required name (item.decodes hitem)) (.required name (item.reads hitem)) hname
      (rest.reads hrest hnames)
  | _, .defaulted name value item rest, h, hnames => by
    obtain ⟨hitem, hvalue, hrest⟩ := h
    obtain ⟨hname, hnames⟩ := List.nodup_cons.mp hnames
    exact .cons (.defaulted name hvalue (item.decodes hitem))
      (.defaulted name value (item.reads hitem)) hname (rest.reads hrest hnames)
  | _, .optional name item rest, h, hnames => by
    obtain ⟨hitem, hrest⟩ := h
    obtain ⟨hname, hnames⟩ := List.nodup_cons.mp hnames
    exact .cons (.optional name (item.decodes hitem))
      (.optional name (item.decodes hitem) (item.reads hitem)) hname (rest.reads hrest hnames)

end

/-- A value comes back from the text it is written as, with the members of objects in any order. -/
theorem Schema.parse_write {schema : Schema α} (hlawful : schema.Lawful)
    (hdepth : schema.nesting ≤ Json.depthLimit) {x : α} (hx : schema.Fits x) {j : Json}
    (hj : Reordered (schema.encode x) j) : schema.parse (write j) = .ok x := by
  have hfuel := Json.length_lt_fuelFor (write j)
  have hread := (schema.reads hlawful).read hx hj hdepth hfuel [] Json.endsNumber_nil
  rw [List.append_nil] at hread
  unfold Schema.parse
  rw [hread]
  rfl

/-- What a text is read as is a value that can be written. -/
theorem Schema.fits_of_parse {schema : Schema α} (hlawful : schema.Lawful) {text : List Char}
    {x : α} (h : schema.parse text = .ok x) : schema.Fits x := by
  unfold Schema.parse at h
  split at h
  · cases h
  · rename_i hread
    split at h
    · cases h
      exact (schema.reads hlawful).fits hread
    · cases h

end ScopeCheck
