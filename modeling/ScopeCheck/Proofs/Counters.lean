import Mathlib.Algebra.BigOperators.Group.List.Basic
import Mathlib.Algebra.Ring.Nat
import ScopeCheck.Stats

/-!
# The algebra of counters

Statistics add up counter by counter.  A run of any length therefore adds one amount to the
statistics it starts from, and that amount is the sum over the things that it counts.

* `Stats.single`: the statistics of one counted thing.  `Stats.add_eq_add_single` says that
  counting a thing adds them.
* `Stats.hasFailures_sum_iff`: a sum has failures exactly when one of its terms has.
* The order of statistics compares every counter.  `Stats.le_add` is the reason why no counter
  ever decreases.
-/

namespace ScopeCheck.Stats

/-! ## Sums -/

instance : Zero Stats where
  zero := {}

/-- The sum of statistics, counter by counter. -/
instance : Add Stats where
  add s t :=
    { cases := s.cases + t.cases
      passedCases := s.passedCases + t.passedCases
      failedCases := s.failedCases + t.failedCases
      errors := s.errors + t.errors
      lines := s.lines + t.lines
      passedLines := s.passedLines + t.passedLines
      failedLines := s.failedLines + t.failedLines
      tokens := s.tokens + t.tokens
      passedTokens := s.passedTokens + t.passedTokens
      failedTokens := s.failedTokens + t.failedTokens }

theorem zero_def : (0 : Stats) = ⟨0, 0, 0, 0, 0, 0, 0, 0, 0, 0⟩ :=
  rfl

theorem add_def (s t : Stats) :
    s + t = ⟨s.cases + t.cases, s.passedCases + t.passedCases, s.failedCases + t.failedCases,
      s.errors + t.errors, s.lines + t.lines, s.passedLines + t.passedLines,
      s.failedLines + t.failedLines, s.tokens + t.tokens, s.passedTokens + t.passedTokens,
      s.failedTokens + t.failedTokens⟩ :=
  rfl

instance : AddCommMonoid Stats where
  add_assoc s t u := by simp only [add_def, Nat.add_assoc]
  zero_add s := by simp only [add_def, zero_def, Nat.zero_add]
  add_zero s := by simp only [add_def, zero_def, Nat.add_zero]
  add_comm s t := by simp only [add_def, Nat.add_comm]
  nsmul := nsmulRec

/-- The statistics of one counted thing. -/
def single (count : Count) : Stats :=
  ({} : Stats).add count

/-- Counting a thing adds its statistics. -/
theorem add_eq_add_single (s : Stats) (count : Count) : s.add count = s + single count := by
  cases count with
  | error => rfl
  | token passed => cases passed <;> rfl
  | line passed => cases passed <;> rfl
  | case passed => cases passed <;> rfl

theorem single_token (passed : Bool) :
    single (.token passed) =
      { tokens := 1
        passedTokens := if passed then 1 else 0
        failedTokens := if passed then 0 else 1 } := by
  cases passed <;> rfl

theorem single_line (passed : Bool) :
    single (.line passed) =
      { lines := 1
        passedLines := if passed then 1 else 0
        failedLines := if passed then 0 else 1 } := by
  cases passed <;> rfl

theorem single_case (passed : Bool) :
    single (.case passed) =
      { cases := 1
        passedCases := if passed then 1 else 0
        failedCases := if passed then 0 else 1 } := by
  cases passed <;> rfl

theorem cases_sum (stats : List Stats) : stats.sum.cases = (stats.map cases).sum := by
  induction stats with
  | nil => rfl
  | cons s stats ih =>
    rw [List.sum_cons, List.map_cons, List.sum_cons, ← ih]
    rfl

/-! ## Failures -/

theorem hasFailures_iff (s : Stats) : s.hasFailures = true ↔ 0 < s.failedCases ∨ 0 < s.errors := by
  simp [hasFailures]

theorem hasFailures_add_iff (s t : Stats) :
    (s + t).hasFailures = true ↔ s.hasFailures = true ∨ t.hasFailures = true := by
  rw [hasFailures_iff, hasFailures_iff, hasFailures_iff, add_def]
  show 0 < s.failedCases + t.failedCases ∨ 0 < s.errors + t.errors ↔ _
  omega

/-- A sum has failures exactly when one of its terms has. -/
theorem hasFailures_sum_iff (stats : List Stats) :
    stats.sum.hasFailures = true ↔ ∃ s ∈ stats, s.hasFailures = true := by
  induction stats with
  | nil => simp [hasFailures_iff, zero_def]
  | cons s stats ih => rw [List.sum_cons, hasFailures_add_iff, ih, List.exists_mem_cons_iff]

/-! ## The order -/

/-- No counter of the left side is above the same counter of the right side. -/
instance : LE Stats where
  le s t :=
    s.cases ≤ t.cases ∧ s.passedCases ≤ t.passedCases ∧ s.failedCases ≤ t.failedCases ∧
      s.errors ≤ t.errors ∧ s.lines ≤ t.lines ∧ s.passedLines ≤ t.passedLines ∧
      s.failedLines ≤ t.failedLines ∧ s.tokens ≤ t.tokens ∧ s.passedTokens ≤ t.passedTokens ∧
      s.failedTokens ≤ t.failedTokens

theorem le_def (s t : Stats) :
    s ≤ t ↔ s.cases ≤ t.cases ∧ s.passedCases ≤ t.passedCases ∧
      s.failedCases ≤ t.failedCases ∧ s.errors ≤ t.errors ∧ s.lines ≤ t.lines ∧
      s.passedLines ≤ t.passedLines ∧ s.failedLines ≤ t.failedLines ∧ s.tokens ≤ t.tokens ∧
      s.passedTokens ≤ t.passedTokens ∧ s.failedTokens ≤ t.failedTokens :=
  Iff.rfl

instance : Preorder Stats where
  le_refl s := by
    rw [le_def]
    omega
  le_trans s t u hst htu := by
    rw [le_def] at hst htu ⊢
    omega

/-- Counting a thing lowers no counter. -/
theorem le_add (s : Stats) (count : Count) : s ≤ s.add count := by
  rw [le_def]
  cases count with
  | error => simp only [add]; omega
  | token passed => cases passed <;> simp only [add] <;> omega
  | line passed => cases passed <;> simp only [add] <;> omega
  | case passed => cases passed <;> simp only [add] <;> omega

end ScopeCheck.Stats
