import ScopeCheck.Event
import ScopeCheck.Proofs.Members

/-!
# Events as objects

Six kinds of events share one shape of object: a name beside members of their own, some of which are
left out when they are unset.  No two events share an object.

* `Json.kept`: what a document keeps of a value.  `Json.member?_kept` says that it keeps the value
  of every member as long as no name is used twice.
* `Event.names_nodup`: no member of an event has the name of another one, nor that of its tag.
* `TokenReport.eq_of_members`, `Stats.eq_of_members`: reports and counters from the values under
  their names.
* `Event.objects_tell_events`: an event, and a whole log, from what a document keeps of it.
-/

namespace ScopeCheck

/-! ## What a document keeps -/

namespace Json

mutual

/-- A value as a document keeps it: the members of every object are sorted by name, and of two
members with one name the later one stays. -/
def kept : Json → Json
  | arr items => arr (keptItems items)
  | obj members => ofMembers (keptMembers members)
  | value => value

def keptItems : List Json → List Json
  | [] => []
  | x :: xs => x.kept :: keptItems xs

def keptMembers : List (String × Json) → List (String × Json)
  | [] => []
  | (name, x) :: ms => (name, x.kept) :: keptMembers ms

end

theorem keptItems_eq_map (items : List Json) : keptItems items = items.map kept := by
  induction items with
  | nil => rfl
  | cons x xs ih => rw [keptItems, ih, List.map_cons]

theorem keptMembers_eq_map (members : List (String × Json)) :
    keptMembers members = members.map fun m => (m.1, m.2.kept) := by
  induction members with
  | nil => rfl
  | cons m ms ih => rw [keptMembers, ih, List.map_cons]

/-- Keeping an object keeps the value of every name, unless a name is used twice. -/
theorem member?_kept {members : List (String × Json)} (h : (members.map Prod.fst).Nodup)
    (name : String) :
    (obj members).kept.member? name = ((obj members).member? name).map kept := by
  have hnames : (keptMembers members).map Prod.fst = members.map Prod.fst := by
    rw [keptMembers_eq_map, List.map_map]
    rfl
  have hnodup : ((keptMembers members ++ []).map Prod.fst).Nodup := by
    rw [List.append_nil, hnames]
    exact h
  have hperm := foldl_insert_perm hnodup
  rw [List.append_nil] at hperm
  have hsorted := foldl_insert_sorted (keptMembers members) List.Pairwise.nil
  have hmem (value : Json) :
      (name, value) ∈ keptMembers members ↔ ∃ x, (name, x) ∈ members ∧ x.kept = value := by
    rw [keptMembers_eq_map]
    simp
  apply Option.ext
  intro value
  rw [kept, ofMembers, member?_eq_some_iff hsorted.nodup, hperm.mem_iff, hmem,
    Option.map_eq_some_iff]
  simp only [member?_eq_some_iff h]

/-- Two objects of which a document keeps the same have the same values under every name. -/
theorem member?_congr_of_kept {members others : List (String × Json)}
    (hmembers : (members.map Prod.fst).Nodup) (hothers : (others.map Prod.fst).Nodup)
    (h : (obj members).kept = (obj others).kept) (name : String) :
    ((obj members).member? name).map kept = ((obj others).member? name).map kept := by
  rw [← member?_kept hmembers, ← member?_kept hothers, h]

theorem member?_cons (member : String × Json) (members : List (String × Json)) (name : String) :
    (obj (member :: members)).member? name =
      if member.1 = name then some member.2 else (obj members).member? name := by
  rw [member?, List.find?_cons]
  by_cases h : member.1 = name
  · simp [h]
  · simp [h, member?]

theorem member?_append (members others : List (String × Json)) (name : String) :
    (obj (members ++ others)).member? name =
      ((obj members).member? name).or ((obj others).member? name) := by
  simp only [member?, List.find?_append]
  cases members.find? fun m => m.1 = name <;> rfl

theorem member?_optionalMember {α : Type} (field : String) (encode : α → Json) (value : Option α)
    (name : String) :
    (obj (optionalMember field encode value)).member? name =
      if field = name then value.map encode else none := by
  cases value with
  | none => simp [optionalMember, member?]
  | some x => simp [optionalMember, member?]

end Json

/-! ## The parts of an event -/

/-- The object of a span tells its ends. -/
theorem Span.kept_toJson_injective : Function.Injective fun span : Span => span.toJson.kept := by
  intro first second h
  have hnames : ["start", "end"].Nodup := by decide
  have hvalue := @Json.member?_congr_of_kept
    [("start", .integer first.start), ("end", .integer first.stop)]
    [("start", .integer second.start), ("end", .integer second.stop)] hnames hnames h
  have hstart : first.start = second.start := by
    simpa [Json.member?_cons, Json.kept, Int.natCast_inj] using hvalue "start"
  have hstop : first.stop = second.stop := by
    simpa [Json.member?_cons, Json.kept, Int.natCast_inj] using hvalue "end"
  cases first
  cases second
  simp_all

/-- The list of a chain tells its scopes. -/
theorem kept_chainToJson_injective :
    Function.Injective fun scopes : List String => (chainToJson scopes).kept := by
  intro first second h
  have hkept (scopes : List String) : (chainToJson scopes).kept = .arr (scopes.map .str) := by
    rw [chainToJson, Json.kept, Json.keptItems_eq_map, List.map_map]
    rfl
  have hitems : first.map Json.str = second.map Json.str := by
    apply Json.arr.inj
    rw [← hkept, ← hkept]
    exact h
  exact List.map_injective_iff.mpr (fun _ _ h => Json.str.inj h) hitems

namespace TokenReport

/-- The names that the members of a report are taken from, with the tag in front. -/
theorem names_sublist (report : TokenReport) :
    ("event" :: report.members.map Prod.fst).Sublist
      ["event", "case", "line_index", "token_index", "line", "span", "expected", "actual"] := by
  have hoptional {α : Type} (name : String) (encode : α → Json) (value : Option α) :
      ((optionalMember name encode value).map Prod.fst).Sublist [name] := by
    cases value with
    | none => exact List.nil_sublist _
    | some x => exact List.Sublist.refl _
  rw [members, List.map_append, List.map_append, List.map_append]
  refine List.Sublist.cons_cons "event" ?_
  exact ((((List.Sublist.refl _).append (hoptional "span" _ _)).append
    (hoptional "expected" _ _)).append (hoptional "actual" _ _))

/-- The values under the names of a report tell it. -/
theorem eq_of_members {tag tag' : Json} {first second : TokenReport}
    (h : ∀ name,
      ((Json.obj (("event", tag) :: first.members)).member? name).map Json.kept =
        ((Json.obj (("event", tag') :: second.members)).member? name).map Json.kept) :
    first = second := by
  simp only [members, Json.member?_cons, Json.member?_append, Json.member?_optionalMember] at h
  have hcase : first.case = second.case := by
    simpa [Json.kept] using h "case"
  have hline : first.lineIndex = second.lineIndex := by
    simpa [Json.kept, Int.natCast_inj] using h "line_index"
  have htoken : first.tokenIndex = second.tokenIndex := by
    simpa [Json.kept, Int.natCast_inj] using h "token_index"
  have htext : first.line = second.line := by
    simpa [Json.kept] using h "line"
  have hspan : first.span = second.span := by
    apply Option.map_injective Span.kept_toJson_injective
    simpa [Json.member?, Function.comp_def] using h "span"
  have hexpected : first.expected = second.expected := by
    apply Option.map_injective kept_chainToJson_injective
    simpa [Json.member?, Function.comp_def] using h "expected"
  have hactual : first.actual = second.actual := by
    apply Option.map_injective kept_chainToJson_injective
    simpa [Json.member?, Function.comp_def] using h "actual"
  cases first
  cases second
  simp_all

end TokenReport

/-- The values under the names of the counters tell the statistics. -/
theorem Stats.eq_of_members {tag tag' : Json} {first second : Stats}
    (h : ∀ name ∈ first.named.map Prod.fst,
      ((Json.obj (("event", tag) :: (Event.stats first).members)).member? name).map Json.kept =
        ((Json.obj (("event", tag') :: (Event.stats second).members)).member? name).map
          Json.kept) :
    first = second := by
  cases first
  cases second
  simpa [Event.members, Stats.named, Json.member?_cons, Json.kept, Int.natCast_inj] using h

/-! ## Events -/

namespace Event

/-- No two members of an event have one name, and none has the name of the tag. -/
theorem names_nodup (event : Event) :
    ((("event", Json.str event.name) :: event.members).map Prod.fst).Nodup := by
  have hreport : ["event", "case", "line_index", "token_index", "line", "span", "expected",
      "actual"].Nodup := by decide
  cases event with
  | tokenFailed report => exact report.names_sublist.nodup hreport
  | tokenPassed report => exact report.names_sublist.nodup hreport
  | invalid subject reason =>
    show ["event", "subject", "reason"].Nodup
    decide
  | caseFailed case failedTokens =>
    show ["event", "case", "failed_tokens"].Nodup
    decide
  | casePassed case =>
    show ["event", "case"].Nodup
    decide
  | stats s =>
    show ["event", "cases", "passed_cases", "failed_cases", "errors", "lines", "passed_lines",
      "failed_lines", "tokens", "passed_tokens", "failed_tokens"].Nodup
    decide

/-- An event is told by what a document keeps of its object. -/
theorem eq_of_kept {first second : Event} (h : first.toJson.kept = second.toJson.kept) :
    first = second := by
  have hvalue := Json.member?_congr_of_kept first.names_nodup second.names_nodup h
  have hname : first.name = second.name := by
    simpa [Json.member?_cons, Json.kept] using hvalue "event"
  cases first with
  | invalid subject reason =>
    cases second with
    | invalid subject' reason' =>
      have hsubject : subject = subject' := by
        simpa [members, Json.member?_cons, Json.kept] using hvalue "subject"
      have hreason : reason = reason' := by
        simpa [members, Json.member?_cons, Json.kept] using hvalue "reason"
      rw [hsubject, hreason]
    | _ => simp [name] at hname
  | tokenFailed report =>
    cases second with
    | tokenFailed report' => rw [TokenReport.eq_of_members hvalue]
    | _ => simp [name] at hname
  | tokenPassed report =>
    cases second with
    | tokenPassed report' => rw [TokenReport.eq_of_members hvalue]
    | _ => simp [name] at hname
  | caseFailed case failedTokens =>
    cases second with
    | caseFailed case' failedTokens' =>
      have hcase : case = case' := by
        simpa [members, Json.member?_cons, Json.kept] using hvalue "case"
      have hfailed : failedTokens = failedTokens' := by
        simpa [members, Json.member?_cons, Json.kept, Int.natCast_inj] using hvalue "failed_tokens"
      rw [hcase, hfailed]
    | _ => simp [name] at hname
  | casePassed case =>
    cases second with
    | casePassed case' =>
      have hcase : case = case' := by
        simpa [members, Json.member?_cons, Json.kept] using hvalue "case"
      rw [hcase]
    | _ => simp [name] at hname
  | stats s =>
    cases second with
    | stats s' => rw [Stats.eq_of_members fun name _ => hvalue name]
    | _ => simp [name] at hname

/-- Two events of which a document keeps the same object are the same, and so are two logs of which
it keeps the same list of objects. -/
theorem objects_tell_events :
    (∀ first second : Event, first.toJson.kept = second.toJson.kept ↔ first = second) ∧
      ∀ log log' : List Event,
        (Json.arr (log.map toJson)).kept = (Json.arr (log'.map toJson)).kept ↔ log = log' := by
  constructor
  · intro first second
    exact ⟨eq_of_kept, fun h => congrArg (fun event : Event => event.toJson.kept) h⟩
  · intro log log'
    constructor
    · intro h
      rw [Json.kept, Json.kept, Json.keptItems_eq_map, Json.keptItems_eq_map, List.map_map,
        List.map_map] at h
      have hinjective : Function.Injective (Json.kept ∘ toJson) := fun _ _ => eq_of_kept
      exact List.map_injective_iff.mpr hinjective (Json.arr.inj h)
    · intro h
      rw [h]

end Event

end ScopeCheck
