import ScopeCheck.Schema.Value

/-!
# Options

Options are the switches of a whole run; an override sets some of them for a single case.

* `Options`, `Override`: the switches, and a choice of new values for some of them.
* `Options.merged`: the options under an override.
* `Options.apply`, `Options.restore`: sets an override for good, and takes it back.
* `Options.within`: runs a body under an override that ends with the body.
-/

namespace ScopeCheck

/-- The switches of a whole run. -/
structure Options where
  /-- Report every passed token, not only failures. -/
  logAllPassedTokens : Bool := false
  /-- Signal failure to the host when a case failed or was invalid. -/
  terminateHostOnFailure : Bool := true
  /-- The grammar is given as a document, not as a path. -/
  grammarIsInlineDocument : Bool := false
  deriving DecidableEq, Repr, Inhabited

/-- New values for some of the switches; the others keep the value that is active. -/
structure Override where
  logAllPassedTokens : Option Bool := none
  terminateHostOnFailure : Option Bool := none
  grammarIsInlineDocument : Option Bool := none
  deriving DecidableEq, Repr, Inhabited

namespace Options

/-- The options under an override. -/
def merged (options : Options) (override : Override) : Options where
  logAllPassedTokens := override.logAllPassedTokens.getD options.logAllPassedTokens
  terminateHostOnFailure := override.terminateHostOnFailure.getD options.terminateHostOnFailure
  grammarIsInlineDocument := override.grammarIsInlineDocument.getD options.grammarIsInlineDocument

/-- Sets an override: the options that are active from then on, and those that were. -/
def apply (options : Options) (override : Override) : Options × Options :=
  (options.merged override, options)

/-- Goes back to options that were active before. -/
def restore (_current prior : Options) : Options :=
  prior

/-- Enters a scope, with or without an override: the active options and those to come back to. -/
def enter (options : Options) : Option Override → Options × Options
  | some override => options.apply override
  | none => (options, options)

/-- Runs a body under an override and restores the options after it, whatever its result is. -/
def within {α : Type} (options : Options) (override : Option Override) (body : Options → α) :
    α × Options :=
  let (active, prior) := options.enter override
  (body active, active.restore prior)

end Options

/-! ## Documents -/

/-- Options in a document: a field that is left out takes its default. -/
def Options.schema : Schema Options :=
  .via
    (.record "Options"
      (.defaulted "log_all_passed_tokens" false .flag
        (.defaulted "terminate_host_on_failure" true .flag
          (.defaulted "grammar_is_inline_document" false .flag .nil))))
    (fun (verbose, terminate, inline, ()) => ⟨verbose, terminate, inline⟩)
    (fun o => (o.logAllPassedTokens, o.terminateHostOnFailure, o.grammarIsInlineDocument, ()))

/-- An override in a document: a field that is left out or null stays unset. -/
def Override.schema : Schema Override :=
  .via
    (.record "OptionsOverride"
      (.optional "log_all_passed_tokens" .flag
        (.optional "terminate_host_on_failure" .flag
          (.optional "grammar_is_inline_document" .flag .nil))))
    (fun (verbose, terminate, inline, ()) => ⟨verbose, terminate, inline⟩)
    (fun o => (o.logAllPassedTokens, o.terminateHostOnFailure, o.grammarIsInlineDocument, ()))

end ScopeCheck
