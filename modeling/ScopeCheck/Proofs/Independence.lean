import Mathlib.Data.List.FinRange
import ScopeCheck.Proofs.Running

/-!
# Cases are independent of each other

What an engine keeps from one case to the next are its counters and the state of its sink, and
neither is read by a run.  So cases compose: the statistics of two lists of cases add up, their
logs follow each other, and another order of the cases rearranges the log and changes nothing else.

* `Engine.casesTally_append`, `Engine.casesTally_perm`, `Engine.caseBlocks_append`: the laws of what
  lists of cases come to.
* `Engine.run_after_cases`: a case after other cases.
* `Engine.runAll_of_recording`, `Engine.executeAll_of_recording`: lists of cases on an engine that
  records, without and with the finish.
* `Engine.runAll_append_recording`: two lists of cases, one after the other.
* `Engine.cases_independent`: both, and every order of the cases of a whole run.
-/

namespace ScopeCheck

variable {S σ : Type}

namespace Engine

/-! ## Lists of cases -/

theorem casesTally_append (backing : Backing S) (options : Options) (first second : List Case) :
    casesTally backing options (first ++ second) =
      casesTally backing options first + casesTally backing options second := by
  unfold casesTally
  rw [List.map_append, List.sum_append]

theorem caseBlocks_append (backing : Backing S) (options : Options) (first second : List Case) :
    caseBlocks backing options (first ++ second) =
      caseBlocks backing options first ++ caseBlocks backing options second :=
  List.map_append

/-- The statistics of cases do not depend on their order. -/
theorem casesTally_perm (backing : Backing S) (options : Options) {cases permuted : List Case}
    (h : permuted.Perm cases) :
    casesTally backing options permuted = casesTally backing options cases :=
  (h.map _).sum_eq

/-! ## What ran before -/

/-- After other cases, a case ends as on any engine with the same grammar and options, and hands
over the same events. -/
theorem run_after_cases (engine : Engine S σ) (hsink : engine.sink.NeverPanics)
    (before : List Case) (case : Case) :
    let ended := (engine.runAll before).after.run case
    ended.result = some (outcome engine.backing case.normalize) ∧
      ended.handed.map Handed.event =
        Step.events (caseSteps engine.backing engine.options case) := by
  intro ended
  obtain ⟨hbacking, hoptions, hsame⟩ := runAll_after engine before
  have hne : ended.result ≠ none := run_result_ne_none _ (hsame.symm ▸ hsink) case
  obtain ⟨hresult, -, hevents⟩ := run_of_result_ne_none hne
  rw [hbacking] at hresult
  rw [hbacking, hoptions] at hevents
  exact ⟨hresult, hevents⟩

/-- The counters and the recording after cases: what was there before them, and what is said of the
cases alone. -/
theorem runAll_of_recording (backing : Backing S) (options : Options) (bench : Bench (List Event))
    (cases : List Case) :
    let engine : Engine S (List Event) := ⟨backing, options, .recording, bench⟩
    (engine.runAll cases).after.stats = bench.stats + casesTally backing options cases ∧
      (engine.runAll cases).after.bench.state =
        bench.state ++ (caseBlocks backing options cases).flatten := by
  intro engine
  obtain ⟨-, hstats, hevents⟩ :=
    runAll_of_neverPanics engine Sink.neverPanics_recording cases
  have hsink : engine.sink = .recording := rfl
  have hrecorded := runAll_recording hsink cases
  rw [hevents] at hrecorded
  exact ⟨hstats, hrecorded⟩

/-- The report and the recording of running cases and finishing. -/
theorem executeAll_of_recording (backing : Backing S) (options : Options)
    (bench : Bench (List Event)) (cases : List Case) :
    let engine : Engine S (List Event) := ⟨backing, options, .recording, bench⟩
    let stats := bench.stats + casesTally backing options cases
    (engine.executeAll cases).result = some (.ofStats stats options) ∧
      (engine.executeAll cases).after =
        bench.state ++ (caseBlocks backing options cases).flatten ++ [.stats stats] := by
  intro engine stats
  obtain ⟨hresult, hevents⟩ := executeAll_of_neverPanics engine Sink.neverPanics_recording cases
  refine ⟨hresult, ?_⟩
  rw [executeAll_recording rfl, hevents, ← List.append_assoc]
  rfl

/-- Two lists of cases, one after the other, add what each adds to an engine that ran nothing. -/
theorem runAll_append_recording (grammar : Grammar) (tokenizer : Tokenizer S) (options : Options)
    (bench : Bench (List Event)) (first second : List Case) :
    let engine : Engine S (List Event) := ⟨.ready grammar tokenizer, options, .recording, bench⟩
    let fresh : Engine S (List Event) := .ready grammar tokenizer options .recording []
    (engine.runAll (first ++ second)).after.stats =
        bench.stats + (fresh.runAll first).after.stats + (fresh.runAll second).after.stats ∧
      (engine.runAll (first ++ second)).after.bench.state =
        bench.state ++ (fresh.runAll first).after.bench.state ++
          (fresh.runAll second).after.bench.state := by
  intro engine fresh
  obtain ⟨hstats, hlog⟩ :=
    runAll_of_recording (.ready grammar tokenizer) options bench (first ++ second)
  have halone : ∀ cases, (fresh.runAll cases).after.stats =
        casesTally (.ready grammar tokenizer) options cases ∧
      (fresh.runAll cases).after.bench.state =
        (caseBlocks (.ready grammar tokenizer) options cases).flatten := by
    intro cases
    obtain ⟨hfresh, hrecorded⟩ :=
      runAll_of_recording (.ready grammar tokenizer) options ⟨{}, [], 0⟩ cases
    exact ⟨hfresh.trans (zero_add _), hrecorded⟩
  rw [(halone first).1, (halone first).2, (halone second).1, (halone second).2]
  constructor
  · rw [hstats, casesTally_append, add_assoc]
  · rw [hlog, caseBlocks_append, List.flatten_append, List.append_assoc]

/-! ## Every order -/

/-- A case ends, and is reported, as on an engine that ran nothing before it.  Lists of cases add
up, in the statistics and in the recording, to which a whole run adds the statistics.  A whole run
of the cases in another order has the same report, and its recording holds the same blocks in that
order. -/
theorem cases_independent (grammar : Grammar) (tokenizer : Tokenizer S) (options : Options)
    (bench : Bench (List Event)) :
    let engine : Engine S (List Event) := ⟨.ready grammar tokenizer, options, .recording, bench⟩
    let fresh : Engine S (List Event) := .ready grammar tokenizer options .recording []
    (∀ (before : List Case) (case : Case),
      let ended := (engine.runAll before).after.run case
      ended.result = (fresh.run case).result ∧
        ended.handed.map Handed.event = (fresh.run case).handed.map Handed.event) ∧
    (∀ first second : List Case,
      (engine.runAll (first ++ second)).after.stats =
          bench.stats + (fresh.runAll first).after.stats + (fresh.runAll second).after.stats ∧
        (engine.runAll (first ++ second)).after.bench.state =
          bench.state ++ (fresh.runAll first).after.bench.state ++
            (fresh.runAll second).after.bench.state) ∧
    (∀ cases : List Case,
      (engine.executeAll cases).after = (engine.runAll cases).after.bench.state ++
        [.stats (engine.runAll cases).after.stats]) ∧
    ∀ (cases : List Case) (order : Equiv.Perm (Fin cases.length)),
      let permuted := List.ofFn fun i => cases.get (order i)
      let block : Fin cases.length → List Event := fun i =>
        ((engine.runAll (cases.take i)).after.run (cases.get i)).handed.map Handed.event
      ∃ report,
        (engine.executeAll cases).result = some report ∧
        (engine.executeAll permuted).result = some report ∧
        (engine.executeAll cases).after =
          bench.state ++ (List.ofFn block).flatten ++ [.stats report.stats] ∧
        (engine.executeAll permuted).after =
          bench.state ++ (List.ofFn fun i => block (order i)).flatten ++
            [.stats report.stats] := by
  intro engine fresh
  have hsink : engine.sink.NeverPanics := Sink.neverPanics_recording
  refine ⟨?_, ?_, ?_, ?_⟩
  · intro before case ended
    obtain ⟨hresult, hevents⟩ := run_after_cases engine hsink before case
    obtain ⟨hresult', hevents'⟩ := run_after_cases fresh Sink.neverPanics_recording [] case
    exact ⟨hresult.trans hresult'.symm, hevents.trans hevents'.symm⟩
  · exact runAll_append_recording grammar tokenizer options bench
  · intro cases
    obtain ⟨hstats, hrecorded⟩ :=
      runAll_of_recording (.ready grammar tokenizer) options bench cases
    obtain ⟨-, hlog⟩ := executeAll_of_recording (.ready grammar tokenizer) options bench cases
    rw [hlog, ← hrecorded, ← hstats]
  · intro cases order permuted block
    have hperm : permuted.Perm cases := by
      have hofFn := Equiv.Perm.ofFn_comp_perm order cases.get
      rwa [List.ofFn_get] at hofFn
    -- A block is what its case comes to alone, so it is the same wherever the case stands.
    have hblock : ∀ i, block i =
        Step.events (caseSteps (.ready grammar tokenizer) options (cases.get i)) := fun i =>
      (run_after_cases engine hsink (cases.take i) (cases.get i)).2
    have hblocks : caseBlocks (.ready grammar tokenizer) options cases = List.ofFn block := by
      conv_lhs => rw [← List.ofFn_get cases]
      rw [caseBlocks, List.map_ofFn]
      exact congrArg List.ofFn (funext fun i => (hblock i).symm)
    have hpermuted : caseBlocks (.ready grammar tokenizer) options permuted =
        List.ofFn fun i => block (order i) := by
      rw [caseBlocks, List.map_ofFn]
      exact congrArg List.ofFn (funext fun i => (hblock (order i)).symm)
    obtain ⟨hresult, hlog⟩ :=
      executeAll_of_recording (.ready grammar tokenizer) options bench cases
    obtain ⟨hresult', hlog'⟩ :=
      executeAll_of_recording (.ready grammar tokenizer) options bench permuted
    rw [casesTally_perm _ _ hperm] at hresult' hlog'
    rw [hblocks] at hlog
    rw [hpermuted] at hlog'
    exact ⟨_, hresult, hresult', hlog, hlog'⟩

end Engine

end ScopeCheck
