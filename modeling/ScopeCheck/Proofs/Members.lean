import Mathlib.Data.List.Forall2
import Mathlib.Data.List.Nodup
import Mathlib.Data.List.Perm.Basic
import Mathlib.Data.String.Basic
import ScopeCheck.Json.Reader

/-!
# The members of an object

An object keeps its members sorted by name, each name once.  What is kept is therefore an order of
the members of the text, as long as no name is repeated there.

* `Json.insert_sorted`, `Json.foldl_insert_sorted`: setting members keeps them sorted.
* `Json.insert_perm`, `Json.foldl_insert_perm`: setting members with new names adds them.
* `Json.member?_eq_some_iff`: the value of a name is that of its only member.
* `Json.parse_obj_sorted`: the members of a document are sorted.
-/

namespace ScopeCheck

/-- A computation in two parts succeeds when both succeed. -/
theorem bind_eq_ok_iff {ε α β : Type} {first : Except ε α} {second : α → Except ε β} {b : β} :
    first >>= second = .ok b ↔ ∃ a, first = .ok a ∧ second a = .ok b := by
  constructor
  · intro h
    cases first with
    | error e => cases h
    | ok a => exact ⟨a, rfl, h⟩
  · rintro ⟨a, rfl, h⟩
    exact h

/-! ## Lists related entry by entry -/

section Related

variable {α β γ : Type} {R : α → β → Prop}

/-- Where every entry of a list is related to something, there is a list of what they are related
to. -/
theorem exists_forall₂ {xs : List α} (h : ∀ x ∈ xs, ∃ y, R x y) : ∃ ys, List.Forall₂ R xs ys := by
  induction xs with
  | nil => exact ⟨[], .nil⟩
  | cons x xs ih =>
    obtain ⟨hx, hxs⟩ := List.forall_mem_cons.mp h
    obtain ⟨y, hy⟩ := hx
    obtain ⟨ys, hys⟩ := ih hxs
    exact ⟨y :: ys, .cons hy hys⟩

theorem exists_of_mem_forall₂ {xs : List α} {ys : List β} (h : List.Forall₂ R xs ys) {y : β}
    (hy : y ∈ ys) : ∃ x ∈ xs, R x y := by
  induction h with
  | nil => exact absurd hy List.not_mem_nil
  | @cons x _ xs _ hx _ ih =>
    rcases List.mem_cons.mp hy with rfl | hy
    · exact ⟨x, List.mem_cons_self, hx⟩
    · obtain ⟨x', hx', hR⟩ := ih hy
      exact ⟨x', List.mem_cons_of_mem x hx', hR⟩

/-- Two relations between lists, one after the other. -/
theorem forall₂_comp {S : β → γ → Prop} {T : α → γ → Prop} {xs : List α} {ys : List β}
    {zs : List γ} (hxs : List.Forall₂ R xs ys) (hys : List.Forall₂ S ys zs)
    (h : ∀ x ∈ xs, ∀ y z, R x y → S y z → T x z) : List.Forall₂ T xs zs := by
  induction hxs generalizing zs with
  | nil =>
    cases hys
    exact .nil
  | @cons x y xs ys hR _ ih =>
    cases hys with
    | cons hS hys =>
      obtain ⟨hx, h⟩ := List.forall_mem_cons.mp h
      exact .cons (hx y _ hR hS) (ih hys h)

end Related

namespace Json

/-- Members sorted by name, each name once. -/
def Sorted (members : List (String × Json)) : Prop :=
  members.Pairwise fun a b => a.1 < b.1

/-! ## Setting a member -/

theorem mem_insert {name : String} {value : Json} {members : List (String × Json)}
    {m : String × Json} (h : m ∈ insert name value members) :
    m = (name, value) ∨ m ∈ members := by
  induction members with
  | nil => exact .inl (List.mem_singleton.mp h)
  | cons first members ih =>
    unfold insert at h
    split at h
    · exact (List.mem_cons.mp h).imp_right (List.mem_cons_of_mem _)
    · split at h
      · exact List.mem_cons.mp h
      · rcases List.mem_cons.mp h with rfl | h
        · exact .inr List.mem_cons_self
        · exact (ih h).imp_right (List.mem_cons_of_mem _)

theorem insert_sorted {members : List (String × Json)} (h : Sorted members) (name : String)
    (value : Json) : Sorted (insert name value members) := by
  induction members with
  | nil => exact List.pairwise_singleton _ _
  | cons first members ih =>
    obtain ⟨hfirst, hrest⟩ := List.pairwise_cons.mp h
    unfold insert
    split
    · rename_i hname
      rw [← hname] at hfirst
      exact List.pairwise_cons.mpr ⟨hfirst, hrest⟩
    · rename_i hname
      split
      · rename_i hlt
        refine List.pairwise_cons.mpr ⟨fun m hm => ?_, h⟩
        rcases List.mem_cons.mp hm with rfl | hm
        · exact hlt
        · exact hlt.trans (hfirst m hm)
      · rename_i hlt
        have hgt : first.1 < name := lt_of_le_of_ne (not_lt.mp hlt) (Ne.symm hname)
        refine List.pairwise_cons.mpr ⟨fun m hm => ?_, ih hrest⟩
        rcases mem_insert hm with rfl | hm
        · exact hgt
        · exact hfirst m hm

/-- A member with a new name is added and takes nothing away. -/
theorem insert_perm {name : String} {members : List (String × Json)}
    (h : name ∉ members.map Prod.fst) (value : Json) :
    (insert name value members).Perm ((name, value) :: members) := by
  induction members with
  | nil => exact List.Perm.refl _
  | cons first members ih =>
    rw [List.map_cons, List.mem_cons, not_or] at h
    unfold insert
    rw [if_neg h.1]
    split
    · exact List.Perm.refl _
    · exact ((ih h.2).cons first).trans (List.Perm.swap _ _ _)

/-! ## Objects -/

theorem foldl_insert_sorted (members : List (String × Json)) {sorted : List (String × Json)}
    (h : Sorted sorted) :
    Sorted (members.foldl (fun sorted m => insert m.1 m.2 sorted) sorted) := by
  induction members generalizing sorted with
  | nil => exact h
  | cons m members ih => exact ih (insert_sorted h m.1 m.2)

/-- Members with different names are kept in some order. -/
theorem foldl_insert_perm {members sorted : List (String × Json)}
    (h : ((members ++ sorted).map Prod.fst).Nodup) :
    (members.foldl (fun sorted m => insert m.1 m.2 sorted) sorted).Perm (members ++ sorted) := by
  induction members generalizing sorted with
  | nil => exact List.Perm.refl _
  | cons m members ih =>
    rw [List.cons_append, List.map_cons, List.nodup_cons] at h
    have hnew : m.1 ∉ sorted.map Prod.fst := fun hmem =>
      h.1 (by rw [List.map_append]; exact List.mem_append_right _ hmem)
    have hinsert : (insert m.1 m.2 sorted).Perm (m :: sorted) := insert_perm hnew m.2
    have hmiddle : (members ++ insert m.1 m.2 sorted).Perm (m :: (members ++ sorted)) :=
      (hinsert.append_left members).trans List.perm_middle
    have hnodup : ((members ++ insert m.1 m.2 sorted).map Prod.fst).Nodup := by
      rw [(hmiddle.map Prod.fst).nodup_iff, List.map_cons, List.nodup_cons]
      exact h
    exact (ih hnodup).trans hmiddle

theorem Sorted.nodup {members : List (String × Json)} (h : Sorted members) :
    (members.map Prod.fst).Nodup :=
  List.pairwise_map.mpr (h.imp fun hlt => hlt.ne)

/-- Among members with different names a name has one value. -/
theorem member?_eq_some_iff {members : List (String × Json)} (h : (members.map Prod.fst).Nodup)
    {name : String} {value : Json} :
    (obj members).member? name = some value ↔ (name, value) ∈ members := by
  unfold member?
  rw [Option.map_eq_some_iff]
  constructor
  · rintro ⟨m, hfind, rfl⟩
    have hname : m.1 = name := by simpa using List.find?_some hfind
    rw [← hname]
    exact List.mem_of_find?_eq_some hfind
  · intro hmem
    -- the first member of the name is the only one
    obtain ⟨m, hfind⟩ : ∃ m, members.find? (fun m => m.1 = name) = some m := by
      rw [← Option.isSome_iff_exists, List.find?_isSome]
      exact ⟨(name, value), hmem, by simp⟩
    have hname : m.1 = name := by simpa using List.find?_some hfind
    have hsame : m = (name, value) :=
      List.inj_on_of_nodup_map h (List.mem_of_find?_eq_some hfind) hmem hname
    exact ⟨m, hfind, congrArg Prod.snd hsame⟩

/-! ## Members in another order -/

mutual

/-- A value and what is left of it when the members of its objects may stand in any order. -/
inductive Reordered : Json → Json → Prop
  | refl (value : Json) : Reordered value value
  | arr {items kept : List Json} (items_kept : List.Forall₂ Reordered items kept) :
      Reordered (.arr items) (.arr kept)
  | obj {members named kept : List (String × Json)} (values : ReorderedValues members named)
      (order : named.Perm kept) : Reordered (.obj members) (.obj kept)

/-- Members of the same names in the same order, with their values reordered. -/
inductive ReorderedValues : List (String × Json) → List (String × Json) → Prop
  | nil : ReorderedValues [] []
  | cons {name : String} {value kept : Json} {members named : List (String × Json)}
      (value_kept : Reordered value kept) (rest : ReorderedValues members named) :
      ReorderedValues ((name, value) :: members) ((name, kept) :: named)

end

theorem reorderedValues_iff {members named : List (String × Json)} :
    ReorderedValues members named ↔
      List.Forall₂ (fun m k => m.1 = k.1 ∧ Reordered m.2 k.2) members named := by
  constructor
  · intro h
    induction members generalizing named with
    | nil =>
      cases h
      exact .nil
    | cons m members ih =>
      cases h with
      | cons value_kept rest => exact .cons ⟨rfl, value_kept⟩ (ih rest)
  · intro h
    induction h with
    | nil => exact .nil
    | @cons m k _ _ hmember _ ih =>
      obtain ⟨name, value⟩ := m
      obtain ⟨_, kept⟩ := k
      obtain ⟨rfl, hvalue⟩ := hmember
      exact .cons hvalue ih

theorem Reordered.eq_null {value : Json} (h : Reordered value .null) : value = .null := by
  cases h
  rfl

theorem Reordered.of_arr {items : List Json} {kept : Json} (h : Reordered (.arr items) kept) :
    ∃ keptItems, kept = .arr keptItems ∧ List.Forall₂ Reordered items keptItems := by
  cases h with
  | refl => exact ⟨items, rfl, List.forall₂_same.mpr fun x _ => .refl x⟩
  | arr h => exact ⟨_, rfl, h⟩

/-- Members in any order, with their values reordered. -/
def ReorderedMembers (members kept : List (String × Json)) : Prop :=
  ∃ named, members.Perm named ∧
    List.Forall₂ (fun m k => m.1 = k.1 ∧ Reordered m.2 k.2) named kept

theorem Reordered.of_obj {members : List (String × Json)} {kept : Json}
    (h : Reordered (.obj members) kept) :
    ∃ keptMembers, kept = .obj keptMembers ∧ ReorderedMembers members keptMembers := by
  cases h with
  | refl => exact ⟨members, rfl, members, .refl _, List.forall₂_same.mpr fun m _ => ⟨rfl, .refl _⟩⟩
  | @obj _ named keptMembers values order =>
    have hcomp : Relation.Comp (List.Forall₂ fun m k => m.1 = k.1 ∧ Reordered m.2 k.2) List.Perm
        members keptMembers := ⟨named, reorderedValues_iff.mp values, order⟩
    rw [List.forall₂_comp_perm_eq_perm_comp_forall₂] at hcomp
    exact ⟨keptMembers, rfl, hcomp⟩

theorem ReorderedMembers.obj {members kept : List (String × Json)}
    (h : ReorderedMembers members kept) : Reordered (.obj members) (.obj kept) := by
  have hcomp : Relation.Comp List.Perm (List.Forall₂ fun m k => m.1 = k.1 ∧ Reordered m.2 k.2)
      members kept := h
  rw [← List.forall₂_comp_perm_eq_perm_comp_forall₂] at hcomp
  obtain ⟨named, hvalues, hperm⟩ := hcomp
  exact .obj (reorderedValues_iff.mpr hvalues) hperm

/-- Every member that is left comes from a member of its name. -/
theorem ReorderedMembers.exists_of_mem {members kept : List (String × Json)}
    (h : ReorderedMembers members kept) {k : String × Json} (hk : k ∈ kept) :
    ∃ m ∈ members, m.1 = k.1 ∧ Reordered m.2 k.2 := by
  obtain ⟨named, hperm, hvalues⟩ := h
  obtain ⟨m, hm, hvalue⟩ := exists_of_mem_forall₂ hvalues hk
  exact ⟨m, hperm.mem_iff.mpr hm, hvalue⟩

theorem ReorderedMembers.names {members kept : List (String × Json)}
    (h : ReorderedMembers members kept) :
    (members.map Prod.fst).Perm (kept.map Prod.fst) := by
  obtain ⟨named, hperm, hvalues⟩ := h
  have hnames : named.map Prod.fst = kept.map Prod.fst := by
    rw [← List.forall₂_eq_eq_eq, List.forall₂_map_left_iff, List.forall₂_map_right_iff]
    exact hvalues.imp fun _ _ h => h.1
  exact hnames ▸ hperm.map Prod.fst

/-- The members of some names are reordered among themselves. -/
theorem ReorderedMembers.filter {members kept : List (String × Json)}
    (h : ReorderedMembers members kept) (p : String → Bool) :
    ReorderedMembers (members.filter fun m => p m.1) (kept.filter fun m => p m.1) := by
  obtain ⟨named, hperm, hvalues⟩ := h
  refine ⟨named.filter fun m => p m.1, hperm.filter _, ?_⟩
  refine List.rel_filter ?_ hvalues
  intro m k hmember
  have hname : m.1 = k.1 := hmember.1
  simp only [hname]

theorem ReorderedMembers.of_nil {kept : List (String × Json)} (h : ReorderedMembers [] kept) :
    kept = [] := by
  obtain ⟨named, hperm, hvalues⟩ := h
  rw [hperm.symm.eq_nil] at hvalues
  exact List.forall₂_nil_left_iff.mp hvalues

theorem ReorderedMembers.of_singleton {name : String} {value : Json}
    {kept : List (String × Json)} (h : ReorderedMembers [(name, value)] kept) :
    ∃ keptValue, kept = [(name, keptValue)] ∧ Reordered value keptValue := by
  obtain ⟨named, hperm, hvalues⟩ := h
  rw [List.perm_singleton.mp hperm.symm] at hvalues
  obtain ⟨⟨_, keptValue⟩, others, ⟨rfl, hvalue⟩, hothers, rfl⟩ :=
    List.forall₂_cons_left_iff.mp hvalues
  rw [List.forall₂_nil_left_iff.mp hothers]
  exact ⟨keptValue, rfl, hvalue⟩

/-! ## Documents -/

theorem readScalar_ne_obj {fuel : Nat} {cs rest : List Char} {members : List (String × Json)} :
    readScalar fuel cs ≠ .ok (.obj members, rest) := by
  intro h
  unfold readScalar at h
  split at h
  · cases h
  split at h
  · obtain ⟨_, -, hvalue⟩ := bind_eq_ok_iff.mp h
    cases hvalue
  split at h
  · obtain ⟨_, -, hvalue⟩ := bind_eq_ok_iff.mp h
    cases hvalue
  split at h
  · obtain ⟨_, -, hvalue⟩ := bind_eq_ok_iff.mp h
    cases hvalue
  split at h
  · obtain ⟨_, -, hvalue⟩ := bind_eq_ok_iff.mp h
    cases hvalue
  split at h
  · obtain ⟨⟨literal, left⟩, -, hvalue⟩ := bind_eq_ok_iff.mp h
    cases literal <;> cases hvalue
  · cases h

theorem readValue_obj_sorted {fuel depth : Nat} {cs rest : List Char}
    {members : List (String × Json)}
    (h : readValue fuel depth cs = .ok (.obj members, rest)) : Sorted members := by
  cases fuel with
  | zero => simp [readValue] at h
  | succ fuel =>
    unfold readValue at h
    split at h
    · cases depth with
      | zero => cases h
      | succ depth =>
        obtain ⟨⟨items, left⟩, -, hvalue⟩ := bind_eq_ok_iff.mp h
        cases hvalue
    · cases depth with
      | zero => cases h
      | succ depth =>
        obtain ⟨⟨found, left⟩, -, hvalue⟩ := bind_eq_ok_iff.mp h
        cases hvalue
        exact foldl_insert_sorted found List.Pairwise.nil
    · exact absurd h readScalar_ne_obj

/-- The members of a document are sorted. -/
theorem parse_obj_sorted {text : List Char} {members : List (String × Json)}
    (h : parse text = .ok (.obj members)) : Sorted members := by
  obtain ⟨⟨value, rest⟩, hread, hend⟩ := bind_eq_ok_iff.mp h
  obtain ⟨_, -, hvalue⟩ := bind_eq_ok_iff.mp hend
  cases hvalue
  exact readValue_obj_sorted hread

end Json

end ScopeCheck
