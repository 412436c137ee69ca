import ScopeCheck.Options

/-!
# Nested overrides

A program can set an override and go back to the options from before by itself, or it can open a
scope, which goes back to them however it is left.  Both can be nested in each other to any depth.

* `Options.Program`: such programs.  `Options.Program.run` says what they do to the options, step by
  step, also when a part of them breaks down.
* `Options.under`: the options inside several overrides, of which the innermost goes first.
* `Options.Program.places`: the overrides around each look that a program gets to.
* `Options.Program.broken_run`, `Options.Program.left_run`, `Options.Program.seen_run`: whether a
  program breaks down, what it leaves, and what it sees.
* `Options.Program.nested_overrides_end`: all three together.
-/

namespace ScopeCheck.Options

/-! ## Programs -/

/-- A program that overrides options.  It can look at them at any point. -/
inductive Program where
  /-- Does nothing. -/
  | skip
  /-- Looks at the options. -/
  | look
  /-- Breaks down. -/
  | panic
  /-- One program after the other. -/
  | seq (first second : Program)
  /-- Sets an override, runs the body and restores the options that setting it gave back. -/
  | bracket (override : Override) (body : Program)
  /-- Runs the body in a scope.  A breakdown of the body ends with the scope when it is caught. -/
  | scope (override : Option Override) (caught : Bool) (body : Program)
  deriving DecidableEq, Repr

/-- What a program did: the options at each of its looks, in order, the options that it left, and
whether it broke down. -/
structure Effect where
  seen : List Options
  left : Options
  broken : Bool
  deriving DecidableEq, Repr

namespace Program

/-- Runs a program.  What follows a breakdown is given up, a restore too, but a scope is closed also
when its body broke down. -/
def run : Program → Options → Effect
  | skip, options => ⟨[], options, false⟩
  | look, options => ⟨[options], options, false⟩
  | panic, options => ⟨[], options, true⟩
  | seq first second, options =>
    let before := first.run options
    if before.broken then before
    else
      let after := second.run before.left
      ⟨before.seen ++ after.seen, after.left, after.broken⟩
  | bracket override body, options =>
    let (active, prior) := options.apply override
    let inside := body.run active
    if inside.broken then inside else ⟨inside.seen, inside.left.restore prior, false⟩
  | scope override caught body, options =>
    let (inside, after) := options.within override fun active => body.run active
    ⟨inside.seen, after, inside.broken && !caught⟩

/-- Whether some breakdown is not inside a scope that catches it. -/
def breaks : Program → Bool
  | skip => false
  | look => false
  | panic => true
  | seq first second => first.breaks || second.breaks
  | bracket _ body => body.breaks
  | scope _ caught body => body.breaks && !caught

/-- The overrides around each look that a program gets to, the innermost first. -/
def places : Program → List (List Override)
  | skip => []
  | look => [[]]
  | panic => []
  | seq first second => first.places ++ if first.breaks then [] else second.places
  | bracket override body => body.places.map fun overrides => overrides ++ [override]
  | scope override _ body => body.places.map fun overrides => overrides ++ override.toList

end Program

/-! ## Options inside overrides -/

/-- The options inside overrides, the innermost first.  A switch has the value of the first override
that sets it, and its value outside if none does. -/
def under (options : Options) (overrides : List Override) : Options where
  logAllPassedTokens :=
    (overrides.findSome? Override.logAllPassedTokens).getD options.logAllPassedTokens
  terminateHostOnFailure :=
    (overrides.findSome? Override.terminateHostOnFailure).getD options.terminateHostOnFailure
  grammarIsInlineDocument :=
    (overrides.findSome? Override.grammarIsInlineDocument).getD options.grammarIsInlineDocument

/-- Overrides inside another one are the same as that one outside of them all. -/
theorem under_append_singleton (options : Options) (overrides : List Override)
    (override : Override) :
    options.under (overrides ++ [override]) = (options.merged override).under overrides := by
  have hfield : ∀ (field : Override → Option Bool) (value : Bool),
      ((overrides ++ [override]).findSome? field).getD value =
        (overrides.findSome? field).getD ((field override).getD value) := by
    intro field value
    rw [List.findSome?_append, List.findSome?_singleton]
    cases overrides.findSome? field with
    | none => rfl
    | some inner => rfl
  simp only [under, merged, hfield]

theorem under_append_toList (options : Options) (overrides : List Override)
    (override : Option Override) :
    options.under (overrides ++ override.toList) =
      (options.enter override).1.under overrides := by
  cases override with
  | none => rw [Option.toList_none, List.append_nil]; rfl
  | some override => exact under_append_singleton options overrides override

/-! ## What a program does -/

namespace Program

theorem run_bracket (override : Override) (body : Program) (options : Options) :
    (bracket override body).run options =
      let inside := body.run (options.merged override)
      if inside.broken then inside else ⟨inside.seen, options, false⟩ :=
  rfl

/-- The options of before come back at the end of a scope, whatever happened in it. -/
theorem run_scope (override : Option Override) (caught : Bool) (body : Program)
    (options : Options) :
    (scope override caught body).run options =
      let inside := body.run (options.enter override).1
      ⟨inside.seen, options, inside.broken && !caught⟩ := by
  cases override with
  | none => rfl
  | some override => rfl

theorem broken_run (program : Program) (options : Options) :
    (program.run options).broken = program.breaks := by
  induction program generalizing options with
  | skip => rfl
  | look => rfl
  | panic => rfl
  | seq first second ihfirst ihsecond =>
    simp only [run, breaks, ihfirst]
    split
    · rename_i hbreaks
      rw [ihfirst, hbreaks, Bool.true_or]
    · rename_i hbreaks
      rw [ihsecond, eq_false_of_ne_true hbreaks, Bool.false_or]
  | bracket override body ih =>
    rw [run_bracket, breaks, ← ih (options.merged override)]
    dsimp only
    split
    · rfl
    · rename_i hbreaks
      exact (eq_false_of_ne_true hbreaks).symm
  | scope override caught body ih =>
    rw [run_scope, breaks, ← ih (options.enter override).1]

/-- A program that does not break down leaves the options that it started with. -/
theorem left_run {program : Program} (h : program.breaks = false) (options : Options) :
    (program.run options).left = options := by
  induction program generalizing options with
  | skip => rfl
  | look => rfl
  | panic => cases h
  | seq first second ihfirst ihsecond =>
    rw [breaks, Bool.or_eq_false_iff] at h
    simp only [run, broken_run, h.1, ihfirst h.1, ihsecond h.2, Bool.false_eq_true, if_false]
  | bracket override body ih =>
    have hbody : (body.run (options.merged override)).broken = false := by
      rw [broken_run]
      exact h
    rw [run_bracket]
    simp only [hbody, Bool.false_eq_true, if_false]
  | scope override caught body ih => rw [run_scope]

/-- At each look, a program sees the options inside the overrides around it. -/
theorem seen_run (program : Program) (options : Options) :
    (program.run options).seen = program.places.map options.under := by
  induction program generalizing options with
  | skip => rfl
  | look => rfl
  | panic => rfl
  | seq first second ihfirst ihsecond =>
    simp only [run, places, broken_run]
    split
    · rw [ihfirst, List.append_nil]
    · rename_i hbreaks
      -- the second program starts where the first one did
      rw [left_run (eq_false_of_ne_true hbreaks), ihfirst, ihsecond, List.map_append]
  | bracket override body ih =>
    have hseen : ((bracket override body).run options).seen =
        (body.run (options.merged override)).seen := by
      rw [run_bracket]
      dsimp only
      split <;> rfl
    rw [hseen, ih, places, List.map_map]
    apply List.map_congr_left
    intro overrides _
    exact (under_append_singleton options overrides override).symm
  | scope override caught body ih =>
    rw [run_scope, ih, places, List.map_map]
    apply List.map_congr_left
    intro overrides _
    exact (under_append_toList options overrides override).symm

/-- However overrides are nested, in brackets and in scopes whose bodies may break down, the options
come back when the program is over, unless a breakdown leaves the program.  At each look in between,
a switch has the value of the innermost override around the look that sets it, or else the value that
the program started with. -/
theorem nested_overrides_end (program : Program) (options : Options) :
    let effect := program.run options
    (effect.broken = true ↔ program.breaks = true) ∧
      (program.breaks = false → effect.left = options) ∧
      effect.seen = program.places.map options.under := by
  intro effect
  refine ⟨?_, fun h => left_run h options, seen_run program options⟩
  rw [broken_run]

/-- A bracket holds a scope, which is left by a breakdown inside another bracket.  The scope asks for
passed tokens, and what the outer bracket sets stays in force inside of it and after it. -/
theorem nested_overrides_end_caught_breakdown :
    let verbose : Override := { logAllPassedTokens := some true }
    let lenient : Override := { terminateHostOnFailure := some false }
    let strict : Override := { terminateHostOnFailure := some true }
    let program := bracket lenient
      (seq (scope (some verbose) true (seq (bracket strict (seq look panic)) look)) look)
    let options : Options := { grammarIsInlineDocument := true }
    program.breaks = false ∧ (program.run options).broken = false ∧
      (program.run options).left = options ∧
      (program.run options).seen = [⟨true, true, true⟩, ⟨false, false, true⟩] := by
  intro verbose lenient strict program options
  obtain ⟨hbroken, hleft, hseen⟩ := nested_overrides_end program options
  have hbreaks : program.breaks = false := by decide
  refine ⟨hbreaks, ?_, hleft hbreaks, hseen.trans (by decide)⟩
  rw [← Bool.not_eq_true, hbroken, hbreaks]
  exact Bool.false_ne_true

end Program

end ScopeCheck.Options
