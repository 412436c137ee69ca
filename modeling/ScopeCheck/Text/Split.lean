/-!
# Cutting a text at a separator

* `splitOn` cuts at every occurrence of one character, and `joinWith` puts the pieces together
  again.  `joinWith_splitOn` and `splitOn_joinWith` say that the two undo each other.
* `pieces` and `joined` are the same two functions on strings.
-/

namespace ScopeCheck.Text

/-- The pieces between the separators, in order.  There is always at least one piece, and it may
be empty. -/
def splitOn (sep : Char) : List Char → List (List Char)
  | [] => [[]]
  | c :: cs =>
    if c = sep then [] :: splitOn sep cs
    else
      match splitOn sep cs with
      | [] => [[c]]
      | piece :: more => (c :: piece) :: more

/-- The pieces with one separator between each two. -/
def joinWith (sep : Char) : List (List Char) → List Char
  | [] => []
  | [piece] => piece
  | piece :: more => piece ++ sep :: joinWith sep more

/-- `splitOn` on strings. -/
def pieces (sep : Char) (s : String) : List String :=
  (splitOn sep s.toList).map String.ofList

/-- `joinWith` on strings. -/
def joined (sep : Char) (parts : List String) : String :=
  String.ofList (joinWith sep (parts.map String.toList))

/-! ## The two undo each other -/

theorem splitOn_ne_nil (sep : Char) (cs : List Char) : splitOn sep cs ≠ [] := by
  cases cs with
  | nil => simp [splitOn]
  | cons c cs =>
    rw [splitOn]
    split
    · simp
    · split <;> simp

theorem joinWith_splitOn (sep : Char) (cs : List Char) : joinWith sep (splitOn sep cs) = cs := by
  induction cs with
  | nil => rfl
  | cons c cs ih =>
    rw [splitOn]
    split
    · rename_i hc
      subst hc
      cases hs : splitOn c cs with
      | nil => exact absurd hs (splitOn_ne_nil c cs)
      | cons piece more => rw [hs] at ih; simp [joinWith, ih]
    · split
      · rename_i hs; exact absurd hs (splitOn_ne_nil sep cs)
      · rename_i piece more hs
        rw [hs] at ih
        cases more with
        | nil => simpa [joinWith] using ih
        | cons next more => simpa [joinWith] using ih

theorem splitOn_append {sep : Char} {piece : List Char} (h : sep ∉ piece) (cs : List Char) :
    splitOn sep (piece ++ sep :: cs) = piece :: splitOn sep cs := by
  induction piece with
  | nil => simp [splitOn]
  | cons c piece ih =>
    have hc : ¬ c = sep := fun e => h (e ▸ List.mem_cons_self)
    have hp : sep ∉ piece := fun e => h (List.mem_cons_of_mem _ e)
    simp [splitOn, hc, ih hp]

theorem splitOn_eq_singleton {sep : Char} {piece : List Char} (h : sep ∉ piece) :
    splitOn sep piece = [piece] := by
  induction piece with
  | nil => rfl
  | cons c piece ih =>
    have hc : ¬ c = sep := fun e => h (e ▸ List.mem_cons_self)
    have hp : sep ∉ piece := fun e => h (List.mem_cons_of_mem _ e)
    simp [splitOn, hc, ih hp]

theorem splitOn_joinWith {sep : Char} {parts : List (List Char)} (hne : parts ≠ [])
    (h : ∀ piece ∈ parts, sep ∉ piece) : splitOn sep (joinWith sep parts) = parts := by
  induction parts with
  | nil => exact absurd rfl hne
  | cons piece more ih =>
    have hp := h piece List.mem_cons_self
    cases more with
    | nil => exact splitOn_eq_singleton hp
    | cons next more =>
      rw [joinWith, splitOn_append hp, ih (by simp) fun x hx => h x (List.mem_cons_of_mem _ hx)]
      simp

/-- No piece holds the separator. -/
theorem not_mem_of_mem_splitOn {sep : Char} {cs piece : List Char}
    (h : piece ∈ splitOn sep cs) : sep ∉ piece := by
  induction cs generalizing piece with
  | nil => simp_all [splitOn]
  | cons c cs ih =>
    rw [splitOn] at h
    split at h
    · rcases List.mem_cons.1 h with rfl | h
      · simp
      · exact ih h
    · rename_i hc
      split at h
      · rename_i hs; exact absurd hs (splitOn_ne_nil sep cs)
      · rename_i first more hs
        rw [hs] at ih
        rcases List.mem_cons.1 h with rfl | h
        · have := @ih first List.mem_cons_self
          simp [this, Ne.symm hc]
        · exact ih (List.mem_cons_of_mem _ h)

/-- What a piece holds, the pieces hold together. -/
theorem mem_joinWith {sep c : Char} {parts : List (List Char)} {piece : List Char}
    (h : piece ∈ parts) (hc : c ∈ piece) : c ∈ joinWith sep parts := by
  induction parts with
  | nil => exact absurd h List.not_mem_nil
  | cons first more ih =>
    cases more with
    | nil => rwa [joinWith, ← List.mem_singleton.1 h]
    | cons next more =>
      rw [joinWith, List.mem_append]
      · rcases List.mem_cons.1 h with rfl | h
        · exact .inl hc
        · exact .inr (List.mem_cons_of_mem _ (ih h))
      · simp

/-- Apart from the separators, the pieces hold nothing together that none of them holds. -/
theorem exists_of_mem_joinWith {sep c : Char} {parts : List (List Char)}
    (h : c ∈ joinWith sep parts) (hne : c ≠ sep) : ∃ piece ∈ parts, c ∈ piece := by
  induction parts with
  | nil => exact absurd h List.not_mem_nil
  | cons first more ih =>
    cases more with
    | nil => exact ⟨first, List.mem_cons_self, h⟩
    | cons next more =>
      rw [joinWith, List.mem_append, List.mem_cons] at h
      · rcases h with h | rfl | h
        · exact ⟨first, List.mem_cons_self, h⟩
        · exact absurd rfl hne
        · obtain ⟨piece, hmem, hc⟩ := ih h
          exact ⟨piece, List.mem_cons_of_mem _ hmem, hc⟩
      · simp

/-- Nothing comes of no pieces and of one empty piece, and of nothing else. -/
theorem joinWith_eq_nil_iff {sep : Char} {parts : List (List Char)} :
    joinWith sep parts = [] ↔ parts = [] ∨ parts = [[]] := by
  cases parts with
  | nil => simp [joinWith]
  | cons piece more =>
    cases more with
    | nil => simp [joinWith]
    | cons next more => simp [joinWith]

/-- What a piece holds, the whole text holds. -/
theorem mem_of_mem_splitOn {sep c : Char} {cs piece : List Char} (h : piece ∈ splitOn sep cs)
    (hc : c ∈ piece) : c ∈ cs := by
  rw [← joinWith_splitOn sep cs]
  exact mem_joinWith h hc

/-- There is one piece more than there are separators. -/
theorem length_splitOn (sep : Char) (cs : List Char) :
    (splitOn sep cs).length = cs.count sep + 1 := by
  induction cs with
  | nil => rfl
  | cons c cs ih =>
    rw [splitOn]
    split
    · rename_i hc; subst hc; simp [ih]
    · rename_i hc
      split
      · rename_i hs; exact absurd hs (splitOn_ne_nil sep cs)
      · rename_i hs
        rw [hs] at ih
        simpa [List.count_cons, hc] using ih

/-! ## On strings -/

theorem length_pieces (sep : Char) (s : String) :
    (pieces sep s).length = s.toList.count sep + 1 := by
  rw [pieces, List.length_map, length_splitOn]

theorem joined_pieces (sep : Char) (s : String) : joined sep (pieces sep s) = s := by
  have hpieces : (pieces sep s).map String.toList = splitOn sep s.toList := by
    rw [pieces, List.map_map]
    exact List.map_id'' (fun _ => String.toList_ofList) _
  rw [joined, hpieces, joinWith_splitOn, String.ofList_toList]

theorem not_mem_of_mem_pieces {sep : Char} {s piece : String} (h : piece ∈ pieces sep s) :
    sep ∉ piece.toList := by
  obtain ⟨cs, hcs, rfl⟩ := List.mem_map.mp h
  rw [String.toList_ofList]
  exact not_mem_of_mem_splitOn hcs

end ScopeCheck.Text
