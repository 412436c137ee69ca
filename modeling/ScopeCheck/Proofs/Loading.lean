import ScopeCheck.Proofs.Members
import ScopeCheck.Proofs.Verdict

/-!
# Loading

Reading the source, parsing it, finding the root scope in it and building the tokenizer may each
fail.  Whichever does, the engine is left in one and the same state, in which every case is invalid.

* `GrammarSource.Reads`: the text that a source stands for.
* `Backing.load_eq_ready_iff`: when a source and a backend make a grammar with its tokenizer.
* `Engine.runs_of_failed`: what cases come to, in order, on an engine without its grammar.
* `Engine.load_degrades`: what loading leaves, and all that runs on it afterwards.
-/

namespace ScopeCheck

variable {S σ : Type}

/-! ## What a source makes -/

/-- Bytes are read as the text that they are the UTF-8 form of. -/
theorem textOfBytes?_eq_some_iff {bytes : List UInt8} {text : String} :
    textOfBytes? bytes = some text ↔ bytes = Text.bytes text.toList := by
  have htext : text.toByteArray.data.toList = Text.bytes text.toList := by
    rw [← String.utf8Encode_toList, List.utf8Encode, Text.bytes]
    simp
  rw [← htext]
  unfold textOfBytes? String.fromUTF8?
  constructor
  · intro h
    split at h
    · cases h
      rfl
    · cases h
  · rintro rfl
    have hbytes : (⟨text.toByteArray.data.toList.toArray⟩ : ByteArray) = text.toByteArray := rfl
    rw [hbytes, dif_pos text.isValidUTF8]
    rfl

/-- A file is read as a text when it holds the UTF-8 form of it. -/
theorem Files.readText_eq_ok_iff {files : Files} {path content : String} :
    files.readText path = .ok content ↔ files path = .ok (Text.bytes content.toList) := by
  unfold Files.readText
  cases files path with
  | error message => simp
  | ok bytes =>
    have hcontent : textOfBytes? bytes = some content ↔ bytes = Text.bytes content.toList :=
      textOfBytes?_eq_some_iff
    cases htext : textOfBytes? bytes with
    | none => simpa [htext] using hcontent
    | some text => simpa [htext] using hcontent

/-- The text that a source stands for: itself, or what its file holds in UTF-8. -/
inductive GrammarSource.Reads (files : Files) : GrammarSource → String → Prop where
  | inline (content : String) : Reads files (.inline content) content
  | named {path content : String} (h : files path = .ok (Text.bytes content.toList)) :
      Reads files (.named path) content

theorem Grammar.ofText_eq_ok_iff {text : String} {grammar : Grammar} :
    Grammar.ofText text = .ok grammar ↔
      ∃ members, Json.parse text.toList = .ok (.obj members) ∧
        ("scopeName", .str grammar.scopeName) ∈ members ∧ grammar.document = .obj members := by
  unfold Grammar.ofText Grammar.ofDocument
  cases hparse : Json.parse text.toList with
  | error stop => simp
  | ok document =>
    constructor
    · intro h
      cases hscope : (document.member? "scopeName").bind Json.str? with
      | none => simp [hscope] at h
      | some scopeName =>
        simp only [hscope, Except.ok.injEq] at h
        subst h
        obtain ⟨value, hmember, hvalue⟩ := Option.bind_eq_some_iff.mp hscope
        cases value with
        | str s =>
          cases hvalue
          cases document with
          | obj members =>
            have hsorted := Json.parse_obj_sorted hparse
            exact ⟨members, rfl, (Json.member?_eq_some_iff hsorted.nodup).mp hmember, rfl⟩
          | _ => cases hmember
        | _ => cases hvalue
    · rintro ⟨members, hdocument, hmem, hkept⟩
      obtain ⟨scopeName, kept⟩ := grammar
      cases hdocument
      cases hkept
      have hsorted := Json.parse_obj_sorted hparse
      have hmember := (Json.member?_eq_some_iff hsorted.nodup).mpr hmem
      simp [hmember, Json.str?]

theorem GrammarSource.load_eq_ok_iff {source : GrammarSource} {files : Files}
    {grammar : Grammar} :
    source.load files = .ok grammar ↔
      ∃ content, source.Reads files content ∧ Grammar.ofText content = .ok grammar := by
  cases source with
  | inline text =>
    constructor
    · intro h
      exact ⟨text, .inline text, h⟩
    · rintro ⟨content, hreads, h⟩
      cases hreads
      exact h
  | named path =>
    constructor
    · intro h
      cases hread : files.readText path with
      | error message => simp [GrammarSource.load, hread] at h
      | ok content =>
        simp only [GrammarSource.load, hread] at h
        exact ⟨content, .named (Files.readText_eq_ok_iff.mp hread), h⟩
    · rintro ⟨content, hreads, h⟩
      cases hreads with
      | named hfile => simpa only [GrammarSource.load, Files.readText_eq_ok_iff.mpr hfile] using h

/-- A source and a backend make a grammar with its tokenizer when nothing on the way fails. -/
theorem Backing.load_eq_ready_iff {source : GrammarSource} {files : Files}
    {backend : Grammar → Except String (Tokenizer S)} {grammar : Grammar}
    {tokenizer : Tokenizer S} :
    Backing.load source files backend = .ready grammar tokenizer ↔
      (∃ content, source.Reads files content ∧ Grammar.ofText content = .ok grammar) ∧
        backend grammar = .ok tokenizer := by
  rw [← GrammarSource.load_eq_ok_iff]
  constructor
  · intro h
    unfold Backing.load at h
    cases hsource : source.load files with
    | error error => simp [hsource] at h
    | ok loaded =>
      cases hbackend : backend loaded with
      | error message => simp [hsource, hbackend] at h
      | ok built =>
        simp only [hsource, hbackend] at h
        cases h
        exact ⟨rfl, hbackend⟩
  · rintro ⟨hsource, hbackend⟩
    simp only [Backing.load, hsource, hbackend]

/-- What fails to load is named after its source. -/
theorem Backing.load_cases (source : GrammarSource) (files : Files)
    (backend : Grammar → Except String (Tokenizer S)) :
    (∃ grammar tokenizer, Backing.load source files backend = .ready grammar tokenizer) ∨
      ∃ error, Backing.load source files backend = .failed source.describe error := by
  unfold Backing.load
  cases source.load files with
  | error error => exact .inr ⟨error, rfl⟩
  | ok grammar =>
    dsimp only
    cases backend grammar with
    | error message => exact .inr ⟨_, rfl⟩
    | ok tokenizer => exact .inl ⟨grammar, tokenizer, rfl⟩

namespace Engine

/-! ## Cases without a grammar -/

/-- On an engine without its grammar, whatever a case holds, it is rejected and counts as an
error. -/
theorem casesTally_failed (source : String) (error : LoadError) (options : Options)
    (cases : List Case) :
    casesTally (S := S) (.failed source error) options cases = { errors := cases.length } := by
  induction cases with
  | nil => rfl
  | cons case cases ih =>
    have hcons : casesTally (S := S) (.failed source error) options (case :: cases) =
        { errors := 1 } + casesTally (.failed source error) options cases :=
      List.sum_cons
    rw [hcons, ih, Stats.add_def]
    simp [Nat.add_comm]

theorem runs_of_failed (engine : Engine S σ) (hsink : engine.sink.NeverPanics) {source : String}
    {error : LoadError} (hfailed : engine.backing = .failed source error) (cases : List Case) :
    (engine.runs cases).map (fun ended => (ended.result, ended.handed.map Handed.event)) =
        cases.map (fun case =>
          (some .invalid, [.invalid case.name ("grammar " ++ source ++ " did not load")])) ∧
      ((engine.runs cases).foldl (fun _ ended => ended.after) engine).stats =
        engine.stats + { errors := cases.length } := by
  obtain ⟨hruns, hlast⟩ := runs_of_neverPanics engine hsink cases
  rw [hfailed] at hruns hlast
  rw [casesTally_failed] at hlast
  exact ⟨hruns, hlast⟩

/-! ## Loading -/

section Load

variable (text : String) (files : Files) (backend : Grammar → Except String (Tokenizer S))
  (options : Options) {sink : Sink σ} (hsink : sink.NeverPanics) (state : σ)

include hsink

/-- What a load counts and hands over are the tally and the events of its steps. -/
theorem load_of_neverPanics :
    let backing := Backing.load (.ofText text options.grammarIsInlineDocument) files backend
    let loaded := load text files backend options sink state
    loaded.result = some () ∧ loaded.after.stats = Step.tally (loadSteps backing) ∧
      loaded.handed.map Handed.event = Step.events (loadSteps backing) :=
  Setup.start_of_result_ne_none (.load text files backend) options sink state
    (Setup.start_result_ne_none _ _ _ _ hsink)

/-- A load that succeeds reports and counts nothing. -/
theorem load_of_ready {grammar : Grammar} {tokenizer : Tokenizer S}
    (hready : Backing.load (.ofText text options.grammarIsInlineDocument) files backend =
      .ready grammar tokenizer) :
    let loaded := load text files backend options sink state
    loaded.handed = [] ∧ loaded.after.stats = {} := by
  intro loaded
  obtain ⟨-, hstats, hevents⟩ := load_of_neverPanics text files backend options hsink state
  rw [hready] at hstats hevents
  exact ⟨List.map_eq_nil_iff.mp hevents, hstats⟩

/-- A load that fails is reported and counted once, and so is every case after it. -/
theorem load_of_failed {source : String} {error : LoadError}
    (hfailed : Backing.load (.ofText text options.grammarIsInlineDocument) files backend =
      .failed source error) :
    let loaded := load text files backend options sink state
    loaded.after.loadError? = some error ∧
      loaded.handed.map Handed.event =
        [.invalid source ("cannot run tests with invalid grammar: " ++ error.message)] ∧
      loaded.after.stats = { errors := 1 } ∧
      ∀ cases : List Case,
        (loaded.after.runs cases).map
            (fun ended => (ended.result, ended.handed.map Handed.event)) =
          cases.map (fun case => (some .invalid,
            [.invalid case.name ("grammar " ++ source ++ " did not load")])) ∧
        ((loaded.after.runs cases).foldl (fun _ ended => ended.after) loaded.after).stats =
          { errors := cases.length + 1 } ∧
        (loaded.after.executeAll cases).result =
          some (.ofStats { errors := cases.length + 1 } options) := by
  intro loaded
  obtain ⟨-, hstats, hevents⟩ := load_of_neverPanics text files backend options hsink state
  rw [hfailed] at hstats hevents
  have hbacking : loaded.after.backing = .failed source error := hfailed
  have herror : loaded.after.loadError? = some error := by
    rw [loadError?, hbacking]
  refine ⟨herror, hevents, hstats, fun cases => ?_⟩
  have hadd : ({ errors := 1 } : Stats) + { errors := cases.length } =
      { errors := cases.length + 1 } := by
    simp [Stats.add_def, Nat.add_comm]
  obtain ⟨hruns, hlast⟩ := runs_of_failed loaded.after hsink hbacking cases
  obtain ⟨hreport, -⟩ := executeAll_of_neverPanics loaded.after hsink cases
  have hloaded : loaded.after.stats = { errors := 1 } := hstats
  rw [hloaded, hadd] at hlast
  rw [hloaded, hbacking, casesTally_failed, hadd] at hreport
  exact ⟨hruns, hlast, hreport⟩

end Load

/-- Engines that both have the same grammar, or both have none for the same reason. -/
inductive Alike : Backing S → Backing S → Prop where
  | ready (grammar : Grammar) (tokenizer : Tokenizer S) :
      Alike (.ready grammar tokenizer) (.ready grammar tokenizer)
  | failed (source source' : String) (error : LoadError) :
      Alike (.failed source error) (.failed source' error)

namespace Alike

variable {backing backing' : Backing S}

theorem eq_ready_iff (h : Alike backing backing') {grammar : Grammar} {tokenizer : Tokenizer S} :
    backing = .ready grammar tokenizer ↔ backing' = .ready grammar tokenizer := by
  cases h with
  | ready grammar tokenizer => exact Iff.rfl
  | failed source source' error => simp

theorem tally_loadSteps (h : Alike backing backing') :
    Step.tally (loadSteps backing) = Step.tally (loadSteps backing') := by
  cases h with
  | ready grammar tokenizer => rfl
  | failed source source' error => rfl

/-- Cases end alike, and count alike, on engines that are alike. -/
theorem runs {first second : Engine S σ} (h : Alike first.backing second.backing)
    (hfirst : first.sink.NeverPanics) (hsecond : second.sink.NeverPanics)
    (hstats : first.stats = second.stats) (cases : List Case) :
    (first.runs cases).map Ended.result = (second.runs cases).map Ended.result ∧
      ((first.runs cases).foldl (fun _ ended => ended.after) first).stats =
        ((second.runs cases).foldl (fun _ ended => ended.after) second).stats := by
  have hresults : ∀ engine : Engine S σ, engine.sink.NeverPanics →
      (engine.runs cases).map Ended.result =
        cases.map fun case => some (outcome engine.backing case.normalize) := by
    intro engine hsink
    have hruns := congrArg (List.map Prod.fst) (runs_of_neverPanics engine hsink cases).1
    rw [List.map_map, List.map_map] at hruns
    exact hruns
  rw [hresults first hfirst, hresults second hsecond, (runs_of_neverPanics first hfirst cases).2,
    (runs_of_neverPanics second hsecond cases).2, hstats]
  generalize first.backing = backing at h
  generalize second.backing = backing' at h
  cases h with
  | ready grammar tokenizer =>
    rw [casesTally_ready, casesTally_ready]
    exact ⟨rfl, rfl⟩
  | failed source source' error =>
    rw [casesTally_failed, casesTally_failed]
    exact ⟨rfl, rfl⟩

end Alike

/-- The text of a file makes the same when it is given inline. -/
theorem alike_of_file {files : Files} {path content : String}
    (h : files path = .ok (Text.bytes content.toList))
    (backend : Grammar → Except String (Tokenizer S)) :
    Alike (Backing.load (.named path) files backend)
      (Backing.load (.inline content) files backend) := by
  simp only [Backing.load, GrammarSource.load, Files.readText_eq_ok_iff.mpr h]
  cases Grammar.ofText content with
  | error error => exact .failed _ _ _
  | ok grammar =>
    dsimp only
    cases backend grammar with
    | error message => exact .failed _ _ _
    | ok tokenizer => exact .ready _ _

/-- A load leaves an engine with its grammar exactly when the source has a text, the text is a
document, the document is an object with a text as `scopeName`, and the backend accepts it; nothing
is reported or counted then.  Any other load is reported and counted once, and so is every case that
is run afterwards, whatever it holds.  The same text gives the same engine from a file and
inline. -/
theorem load_degrades (text : String) (files : Files)
    (backend : Grammar → Except String (Tokenizer S)) (options : Options) {sink : Sink σ}
    (hsink : sink.NeverPanics) (state : σ) :
    let source := GrammarSource.ofText text options.grammarIsInlineDocument
    let loaded := load text files backend options sink state
    loaded.result = some () ∧
    (∀ grammar tokenizer, loaded.after.backing = .ready grammar tokenizer ↔
      ∃ content members, source.Reads files content ∧
        Json.parse content.toList = .ok (.obj members) ∧
        ("scopeName", .str grammar.scopeName) ∈ members ∧ grammar.document = .obj members ∧
        backend grammar = .ok tokenizer) ∧
    ((∃ grammar tokenizer, loaded.after.backing = .ready grammar tokenizer) →
      loaded.handed = [] ∧ loaded.after.stats = {}) ∧
    ((¬ ∃ grammar tokenizer, loaded.after.backing = .ready grammar tokenizer) →
      ∃ error, loaded.after.loadError? = some error ∧
        loaded.handed.map Handed.event =
          [.invalid source.describe
            ("cannot run tests with invalid grammar: " ++ error.message)] ∧
        loaded.after.stats = { errors := 1 } ∧
        ∀ cases : List Case,
          (loaded.after.runs cases).map
              (fun ended => (ended.result, ended.handed.map Handed.event)) =
            cases.map (fun case => (some .invalid,
              [.invalid case.name ("grammar " ++ source.describe ++ " did not load")])) ∧
          ((loaded.after.runs cases).foldl (fun _ ended => ended.after) loaded.after).stats =
            { errors := cases.length + 1 } ∧
          (loaded.after.executeAll cases).result =
            some (.ofStats { errors := cases.length + 1 } options)) ∧
    ∀ path content, files path = .ok (Text.bytes content.toList) →
      let named := load path files backend { options with grammarIsInlineDocument := false } sink
        state
      let inline := load content files backend { options with grammarIsInlineDocument := true } sink
        state
      (∀ grammar tokenizer, named.after.backing = .ready grammar tokenizer ↔
        inline.after.backing = .ready grammar tokenizer) ∧
      named.after.loadError? = inline.after.loadError? ∧
      named.after.stats = inline.after.stats ∧
      ∀ cases : List Case,
        (named.after.runs cases).map Ended.result = (inline.after.runs cases).map Ended.result ∧
        ((named.after.runs cases).foldl (fun _ ended => ended.after) named.after).stats =
          ((inline.after.runs cases).foldl (fun _ ended => ended.after) inline.after).stats := by
  intro source loaded
  have hbacking : loaded.after.backing = Backing.load source files backend := rfl
  refine ⟨(load_of_neverPanics text files backend options hsink state).1, ?_, ?_, ?_, ?_⟩
  · intro grammar tokenizer
    rw [hbacking, Backing.load_eq_ready_iff]
    simp only [Grammar.ofText_eq_ok_iff]
    constructor
    · rintro ⟨⟨content, hreads, members, hparse, hscope, hkept⟩, hbackend⟩
      exact ⟨content, members, hreads, hparse, hscope, hkept, hbackend⟩
    · rintro ⟨content, members, hreads, hparse, hscope, hkept, hbackend⟩
      exact ⟨⟨content, hreads, members, hparse, hscope, hkept⟩, hbackend⟩
  · rintro ⟨grammar, tokenizer, hready⟩
    exact load_of_ready text files backend options hsink state hready
  · intro hnot
    obtain hready | ⟨error, hfailed⟩ := Backing.load_cases source files backend
    · exact absurd hready hnot
    · exact ⟨error, load_of_failed text files backend options hsink state hfailed⟩
  · intro path content hfile named inline
    -- The engines differ at most in how their source is called, which no result and no count shows.
    have halike : Alike named.after.backing inline.after.backing := alike_of_file hfile backend
    have hstats : named.after.stats = inline.after.stats := by
      obtain ⟨-, hnamed, -⟩ := load_of_neverPanics path files backend
        { options with grammarIsInlineDocument := false } hsink state
      obtain ⟨-, hinline, -⟩ := load_of_neverPanics content files backend
        { options with grammarIsInlineDocument := true } hsink state
      exact hnamed.trans (halike.tally_loadSteps.trans hinline.symm)
    refine ⟨fun grammar tokenizer => halike.eq_ready_iff, ?_, hstats,
      halike.runs hsink hsink hstats⟩
    unfold loadError?
    generalize named.after.backing = backing at halike
    generalize inline.after.backing = backing' at halike
    cases halike with
    | ready grammar tokenizer => rfl
    | failed source source' error => rfl

/-- One file holds a grammar, one a document that is none, and the others are missing.  The grammar
leaves an engine that has it, from its file and inline.  After a load of a missing file, a case with
too few rows and a case that would pass are both rejected. -/
theorem load_degrades_three_files :
    let document := "\x7b\"scopeName\":\"source.c\"\x7d"
    let files : Files := fun path =>
      if path = "c.json" then .ok (Text.bytes document.toList)
      else if path = "list.json" then .ok (Text.bytes "[]".toList)
      else .error "No such file or directory (os error 2)"
    let backend : Grammar → Except String (Tokenizer Bool) :=
      fun grammar => .ok (.comment grammar.scopeName)
    let inline : Options := { grammarIsInlineDocument := true }
    let grammar : Grammar := ⟨"source.c", .obj [("scopeName", .str "source.c")]⟩
    let named := load "c.json" files backend {} Sink.recording []
    let given := load document files backend inline Sink.recording []
    let missing := load "missing.json" files backend {} Sink.recording []
    let uneven : Case := ⟨"uneven", .lines ["a", "b"], .rows [[["word"]]], none⟩
    let even : Case := ⟨"even", .compact "a", .compact "word", some {}⟩
    Sink.recording.NeverPanics ∧
      (named.after.backing = .ready grammar (.comment "source.c") ∧
        named.handed = [] ∧ named.after.stats = {}) ∧
      (given.after.backing = .ready grammar (.comment "source.c") ∧
        given.handed = [] ∧ given.after.stats = {}) ∧
      (load "list.json" files backend {} Sink.recording []).after.loadError? =
        (load "[]" files backend inline Sink.recording []).after.loadError? ∧
      (¬ ∃ grammar tokenizer, missing.after.backing = .ready grammar tokenizer) ∧
      (missing.after.runs [uneven, even]).map Ended.result = [some .invalid, some .invalid] ∧
      ((missing.after.runs [uneven, even]).foldl (fun _ ended => ended.after) missing.after).stats =
        { errors := 3 } := by
  intro document files backend inline grammar named given missing uneven even
  have hparse : Json.parse document.toList = .ok grammar.document := by
    subst document grammar
    simp only [String.reduceToList]
    rfl
  obtain ⟨-, hready, hquiet, -, -⟩ := load_degrades "c.json" files backend {}
    Sink.neverPanics_recording []
  have hnamed : named.after.backing = .ready grammar (.comment "source.c") :=
    (hready _ _).mpr ⟨document, _, .named rfl, hparse, List.mem_singleton.mpr rfl, rfl, rfl⟩
  obtain ⟨-, hready', hquiet', -, hsame⟩ := load_degrades document files backend inline
    Sink.neverPanics_recording []
  have hgiven : given.after.backing = .ready grammar (.comment "source.c") :=
    (hready' _ _).mpr ⟨document, _, .inline _, hparse, List.mem_singleton.mpr rfl, rfl, rfl⟩
  obtain ⟨-, hready'', -, hfailed, -⟩ := load_degrades "missing.json" files backend {}
    Sink.neverPanics_recording []
  have hnot : ¬ ∃ grammar tokenizer, missing.after.backing = .ready grammar tokenizer := by
    rintro ⟨grammar, tokenizer, hmissing⟩
    obtain ⟨content, members, hreads, -⟩ := (hready'' _ _).mp hmissing
    cases hreads with
    | named hfile => cases hfile
  obtain ⟨error, -, -, -, hcases⟩ := hfailed hnot
  obtain ⟨hruns, hlast, -⟩ := hcases [uneven, even]
  have hresults := congrArg (List.map Prod.fst) hruns
  rw [List.map_map] at hresults
  exact ⟨Sink.neverPanics_recording, ⟨hnamed, hquiet ⟨_, _, hnamed⟩⟩,
    ⟨hgiven, hquiet' ⟨_, _, hgiven⟩⟩, (hsame "list.json" "[]" rfl).2.1, hnot, hresults, hlast⟩

end Engine

end ScopeCheck
