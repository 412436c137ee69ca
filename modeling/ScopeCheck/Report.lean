import ScopeCheck.Options
import ScopeCheck.Stats

/-!
# Reports

A report is the final word on a run: its statistics and whether the host should exit with success.

* `Report`: the record.
* `Report.ofStats`: the report on statistics under options.
* `Exit`: how the host should exit.
-/

namespace ScopeCheck

/-- How the host should exit. -/
inductive Exit where
  | success
  | failure
  deriving DecidableEq, Repr

/-- The final word on a run. -/
structure Report where
  schemaVersion : Nat
  stats : Stats
  success : Bool
  deriving DecidableEq, Repr

namespace Report

/-- The version of the layout of a report. -/
def currentVersion : Nat := 1

/-- The report on statistics.  Failures count only when the options ask for it. -/
def ofStats (stats : Stats) (options : Options) : Report :=
  ⟨currentVersion, stats, !(options.terminateHostOnFailure && stats.hasFailures)⟩

/-- How the host should exit. -/
def exit (report : Report) : Exit :=
  if report.success then .success else .failure

end Report

/-- Versions are words of 32 bits. -/
def Range.halfWord : Range := ⟨"u32", Nat.pow 2 32⟩

/-- A report in a document. -/
def Report.schema : Schema Report :=
  .via
    (.record "RunReport"
      (.required "schema_version" (.count .halfWord)
        (.required "stats" Stats.schema (.required "success" .flag .nil))))
    (fun (version, stats, success, ()) => ⟨version, stats, success⟩)
    (fun r => (r.schemaVersion, r.stats, r.success, ()))

end ScopeCheck
