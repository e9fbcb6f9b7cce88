import OrmBenchmark.Proofs.SystemInv

/-!
# When the activity is idle

Only `onBenchmarkFinished` of a complete results map makes the activity idle,
and the map it counts is that of the latest executor. Since the tasks run one
at a time, a complete latest map means that every earlier task is over too.
In the other direction nothing can be forgotten: the last message of the
latest task is handled after its last store, whatever the messages of the
older ones did to the activity in between.
-/

namespace OrmBenchmark.Ref

open OrmBenchmark.Lib

/-- This handler enabled the button, showed Idle or generated a CSV. -/
def GoesIdle (a a' : Activity) : Prop :=
  (a.startEnabled = false ∧ a'.startEnabled = true) ∨
    (a.status ≠ .idle ∧ a'.status = .idle) ∨ a'.generated ≠ a.generated

instance (a a' : Activity) : Decidable (GoesIdle a a') := by
  unfold GoesIdle
  infer_instance

/-- Every run has stored the results of every benchmark, and the CSV just
generated is that of the latest run. -/
def IdleAfterAll (registry : Registry) (s s' : System) : Prop :=
  (∀ e ∈ s.executors, ∀ name ∈ registry.names, name ∈ e.results) ∧
    ∃ older latest text, s.executors = older ++ [latest] ∧
      Shows registry s'.activity older.length latest ∧
      s'.activity.generated = s.activity.generated ++ [⟨older.length, text⟩]

section

variable {registry : Registry} {s s' : System}

theorem GoesIdle.irrefl (a : Activity) : ¬ GoesIdle a a := by
  intro h
  rcases h with ⟨hdis, hen⟩ | ⟨hbusy, hidle⟩ | hgen
  · rw [hdis] at hen
    cases hen
  · exact hbusy hidle
  · exact hgen rfl

theorem onBenchmarkStarted_not_goesIdle (a : Activity) (name : String) :
    ¬ GoesIdle a (a.onBenchmarkStarted name) := by
  intro h
  rcases h with ⟨_, hen⟩ | ⟨_, hidle⟩ | hgen
  · cases hen
  · cases hidle
  · exact hgen rfl

/-- A finish handler that goes idle found the latest map complete. -/
theorem SystemInv.finish_idle {keySet : List String} {write : FileWrite}
    (hinv : SystemInv registry s)
    (hstep : s.finish registry keySet write = some s')
    (hidle : GoesIdle s.activity s'.activity) : IdleAfterAll registry s s' := by
  obtain ⟨_, k, results, hresults, hperm, rfl⟩ := System.finish_cases hstep
  obtain ⟨older, e, hex, rfl, rfl⟩ := hinv.results_eq hresults
  obtain ⟨ph, hin⟩ := hinv.phases e (by simp [hex])
  by_cases hsize : e.results.size = registry.names.length
  · obtain ⟨hen, hst, _, hgen, hfile⟩ :=
      onBenchmarkFinished_complete s.activity older.length keySet write hsize
    have hcsv := hin.csvOf hsize hperm
    refine ⟨hinv.all_stored hex hsize, older, e, _, hex, ?_, hgen⟩
    refine ⟨hen, hst, _, hcsv, ?_, hfile⟩
    rw [hgen, List.getLast?_append, List.getLast?_singleton]
    rfl
  · rw [onBenchmarkFinished_incomplete s.activity _ _ _ hsize] at hidle
    exact absurd hidle (GoesIdle.irrefl s.activity)

/-- No step but the end of a finish handler makes the activity idle. -/
theorem SystemInv.goes_idle {label : SystemLabel} (hinv : SystemInv registry s)
    (hstep : s.next registry label = some s')
    (hidle : GoesIdle s.activity s'.activity) : IdleAfterAll registry s s' := by
  have hirrefl := GoesIdle.irrefl s.activity
  cases label with
  | click =>
      obtain ⟨_, _, rfl⟩ := System.click_cases hstep
      exact absurd hidle hirrefl
  | background save load =>
      obtain ⟨_, _, _, _, _, _, _, _, rfl⟩ := System.background_step_cases hstep
      exact absurd hidle hirrefl
  | deliver =>
      obtain ⟨m, _, _, _, _, _, ⟨_, rfl⟩ | ⟨_, rfl⟩⟩ := System.deliver_cases hstep
      · exact absurd hidle (onBenchmarkStarted_not_goesIdle s.activity m.name)
      · exact absurd hidle hirrefl
  | list keySet =>
      obtain ⟨_, _, _, _, rfl⟩ := System.list_cases hstep
      exact absurd hidle hirrefl
  | finish keySet write => exact hinv.finish_idle hstep hidle

/-- With no task left and no message undelivered, the latest run's last
message has been handled. -/
theorem SystemInv.quiet_shows (hinv : SystemInv registry s)
    (hstarted : s.executors ≠ []) (hdone : ∀ e ∈ s.executors, e.finished)
    (hqueue : s.queue = []) (hhandling : s.handling = none) :
    ∃ older latest, s.executors = older ++ [latest] ∧
      Shows registry s.activity older.length latest := by
  rcases List.eq_nil_or_concat s.executors with hnil | ⟨older, latest, hex⟩
  · exact absurd hnil hstarted
  · rw [List.concat_eq_append] at hex
    refine ⟨older, latest, hex, ?_⟩
    have hfin : latest.finished := hdone latest (by simp [hex])
    rcases hinv.last older latest hex hfin with
      ⟨q, name, hq, _⟩ | ⟨_, hbusy⟩ | ⟨_, _, hshows⟩
    · rw [hqueue] at hq
      simp at hq
    · exact absurd hhandling hbusy
    · exact hshows

end

/-- The activity goes idle only when every run is done, and it is idle, with
the CSV of the latest run, whenever every run is done and heard of. -/
theorem idle_iff_done {registry : Registry} {file : Option String} {s : System}
    (hr : (System.lts registry file).Reachable s) :
    (∀ label s', (System.lts registry file).step s label s' →
      GoesIdle s.activity s'.activity → IdleAfterAll registry s s') ∧
    (s.executors ≠ [] → (∀ e ∈ s.executors, e.finished) →
      s.queue = [] → s.handling = none →
      ∃ older latest, s.executors = older ++ [latest] ∧
        Shows registry s.activity older.length latest) := by
  have hinv := SystemInv.of_reachable hr
  constructor
  · intro label s' hstep hidle
    exact hinv.goes_idle hstep hidle
  · intro hstarted hdone hqueue hhandling
    exact hinv.quiet_shows hstarted hdone hqueue hhandling

/-- Two clicks before the first message: the runs overlap, and the finish of
the first is counted against the second. -/
def overlappingRuns : List SystemLabel :=
  let tm : TimeMeasure := ⟨0, 0, 0, 0⟩
  [.click, .click, .background tm tm, .deliver, .background tm tm,
    .background tm tm, .deliver, .list [], .finish [] .written,
    .background tm tm, .background tm tm, .background tm tm,
    .deliver, .list ["ORMLite"], .finish ["ORMLite"] .written,
    .deliver, .list ["ORMLite"]]

theorem idle_iff_done_overlappingRuns :
    ∃ registry s s', (System.lts registry none).Reachable s ∧
      s.executors.length = 2 ∧ IdleAfterAll registry s s' ∧
      ∃ older latest, s'.executors = older ++ [latest] ∧
        Shows registry s'.activity older.length latest := by
  let registry : Registry := ⟨["ORMLite"], by decide, by decide⟩
  let last : SystemLabel := .finish ["ORMLite"] .written
  obtain ⟨h, s, hrun, htest⟩ := Lts.exists_run_of_replay (System.start none)
    (System.next registry) overlappingRuns
    (fun _ s => decide (s.executors.length = 2) &&
      (s.next registry last).any fun (s' : System) =>
        decide (GoesIdle s.activity s'.activity ∧ s'.executors ≠ [] ∧
          (∀ e ∈ s'.executors, e.finished) ∧ s'.queue = [] ∧
          s'.handling = none)) (by decide)
  have hr : (System.lts registry none).Reachable s := ⟨h, hrun⟩
  rw [Bool.and_eq_true, decide_eq_true_iff, Option.any_eq_true] at htest
  obtain ⟨hlen, s', hstep, hdec⟩ := htest
  obtain ⟨hidle, hstarted, hdone, hqueue, hhandling⟩ := of_decide_eq_true hdec
  exact ⟨registry, s, s', hr, hlen, (idle_iff_done hr).1 last s' hstep hidle,
    (idle_iff_done (hr.of_step hstep)).2 hstarted hdone hqueue hhandling⟩

end OrmBenchmark.Ref
