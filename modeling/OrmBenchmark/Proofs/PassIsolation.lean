import OrmBenchmark.Lib.Lts
import OrmBenchmark.Proofs.OnePass

/-!
# Passes that are interrupted

Passes of any of the adapters, one after the other. Any library call may find
the process dead, and what was committed by then is there for the next process.
Six adapters delete what they find before they store anything, so their passes
are isolated from each other whatever happened before. ActiveAndroid deletes its
database only at the end, in a `dispose` that an interrupted pass never reaches.
-/

namespace OrmBenchmark.Ref

open OrmBenchmark.Lib OrmBenchmark.Lib.Prog

/-- One pass of the adapter with this number. An exception leaves the background
thread, and the process with it. -/
def nextPass (env : Android) (x : ExecEnv) (s : Exec World) (i : Nat) : Option (Exec World) :=
  (benchmarks env)[i]?.map fun b =>
    match runPass x b [] { s with trace := [] } with
    | (.ok _, s') => s'
    | (_, s') => { s' with world := s'.world.restart }

def passes (env : Android) (x : ExecEnv) : Lts (Exec World) Nat :=
  Lts.ofNext (Exec.start World.empty) (nextPass env x)

/-- What the pass that led here saved and loaded, if it got to the end of the
load and no library call it made up to there threw. -/
def savedAndLoaded (s : Exec World) : Option (List Entity × Option (List Entity)) :=
  match s.trace with
  | [.saveMeasured _ entities before _, .loadMeasured _ loaded _ after] =>
      if after.failures = before.failures then some (entities, loaded) else none
  | _ => none

/-- It loaded exactly what it saved. -/
def Isolated (s : Exec World) : Prop := ∀ p ∈ savedAndLoaded s, p.2 = some p.1

instance (s : Exec World) : Decidable (Isolated s) :=
  inferInstanceAs (Decidable (∀ p ∈ savedAndLoaded s, p.2 = some p.1))

/-- A pass of ActiveAndroid that is going to load begins with an empty database. -/
def CleanStart (env : Android) (x : ExecEnv) (s : Exec World) (i : Nat) : Prop :=
  (benchmarks env)[i]?.map Benchmark.getName = some "ActiveAndroid" →
    ((nextPass env x s i).bind savedAndLoaded).isSome →
      s.world.stored env "activeandroid" = []

section

variable {env : Android} {x : ExecEnv} {s s' : Exec World} {i : Nat}

/-- What one pass comes to. -/
theorem nextPass_cases (hbetween : Between s.world) (hstep : nextPass env x s i = some s') :
    ∃ b, (benchmarks env)[i]? = some b ∧ Between s'.world ∧
      PassEvents b.getName (stale env b.getName s.world) s'.trace := by
  obtain ⟨b, hb, hnext⟩ := Option.map_eq_some_iff.1 hstep
  obtain ⟨swallows, Ready, hpasses, _⟩ := exists_passes (List.mem_of_getElem? hb)
  have hwp : (runPass x b []).wp _ { s with trace := [] } :=
    wp_runPass_events (s := { s with trace := [] }) hpasses hbetween
  refine ⟨b, hb, ?_⟩
  cases hrun : runPass x b [] { s with trace := [] } with
  | mk exit s₁ =>
      rw [hrun] at hnext
      obtain ⟨events, htrace, hevents⟩ := exit_of_wp
        (R := fun _ (s' : Exec World) =>
          TracedPass b.getName (stale env b.getName s.world) [] s'.trace)
        (wp_mono hwp (fun _ _ h => h.1) (fun _ _ h => h) (fun _ h => h)) hrun
      rw [List.nil_append] at htrace
      rw [← htrace] at hevents
      cases exit with
      | ok results =>
          subst hnext
          obtain ⟨_, w, rows, hready, hdispose⟩ := ok_of_wp hwp hrun
          exact ⟨ok_of_wp (hpasses.dispose hready) hdispose, hevents⟩
      | throws e =>
          subst hnext
          exact ⟨Between.restart, hevents⟩
      | dead =>
          subst hnext
          exact ⟨Between.restart, hevents⟩

theorem stale_eq_nil {w : World} {name : String} :
    stale env name w = [] ↔ (name = "ActiveAndroid" → w.stored env "activeandroid" = []) := by
  unfold stale
  split
  · next hname => exact ⟨fun h _ => h, fun h => h hname⟩
  · next hname => exact ⟨fun _ h => absurd h hname, fun _ => rfl⟩

/-- A pass loads what it saved after what was left over, so it is isolated
exactly if nothing was. -/
theorem PassEvents.isolated_iff {name : String} {rows : List Entity}
    (h : PassEvents name rows s.trace) :
    Isolated s ↔ ((savedAndLoaded s).isSome → rows = []) := by
  unfold Isolated savedAndLoaded
  generalize s.trace = trace at h
  cases h with
  | nothing => exact ⟨nofun, nofun⟩
  | saved entities before after => exact ⟨nofun, nofun⟩
  | loaded entities before after loaded before' after' hloaded =>
      dsimp only
      split
      · next hquiet =>
          rw [hloaded hquiet]
          simp
      · next hloud => simp

/-- The passes of a run are isolated exactly if each pass of ActiveAndroid that
reaches its load found nothing stored. -/
theorem isolated_iff_cleanStart {history : History (Exec World) Nat}
    (hrun : (passes env x).Run history s) :
    Lts.Always Isolated history s ↔ history.Obeys (CleanStart env x) := by
  refine hrun.always_iff (I := fun s => Between s.world) ?_ ?_
  · intro s hstart
    subst hstart
    exact ⟨Between.empty, nofun⟩
  · intro s i s' hbetween _ hstep
    obtain ⟨b, hb, hbetween', hevents⟩ := nextPass_cases hbetween hstep
    refine ⟨?_, fun _ => hbetween'⟩
    have hstep' : nextPass env x s i = some s' := hstep
    rw [hevents.isolated_iff, stale_eq_nil, CleanStart, hb, hstep', Option.map_some,
      Option.some_inj, Option.bind_some]
    exact ⟨fun h hname hsome => h hsome hname, fun h hsome hname => h hname hsome⟩

/-- A pass of ActiveAndroid killed before it commits, and one after it. -/
theorem isolated_iff_cleanStart_killedBeforeCommit :
    ∃ env x history s, (passes env x).Run history s ∧ history.length = 2 ∧
      (savedAndLoaded s).isSome = true ∧ Lts.Always Isolated history s := by
  obtain ⟨history, s, hrun, htest⟩ := Lts.exists_run_of_replay (Exec.start World.empty)
    (nextPass (Android.answering fun n => if n = 7 then .kill else .ok) onePassEnv) [3, 3]
    (fun history s => decide (history.length = 2) && (savedAndLoaded s).isSome &&
      history.all fun p => decide (p.1.world.stored
        (Android.answering fun n => if n = 7 then .kill else .ok) "activeandroid" = []))
    (by decide +kernel)
  rw [Bool.and_eq_true, Bool.and_eq_true, decide_eq_true_iff, List.all_eq_true] at htest
  refine ⟨_, _, history, s, hrun, htest.1.1, htest.1.2, (isolated_iff_cleanStart hrun).2 ?_⟩
  exact fun p hp _ _ => of_decide_eq_true (htest.2 p hp)

/-- Killed after the commit, the entities are still there for the next pass. -/
theorem isolated_broken_by_kill :
    ¬ ∀ env x history s, (passes env x).Run history s → Lts.Always Isolated history s := by
  intro hclaim
  obtain ⟨history, s, hrun, htest⟩ := Lts.exists_run_of_replay (Exec.start World.empty)
    (nextPass (Android.answering fun n => if n = 9 then .kill else .ok) onePassEnv) [3, 3]
    (fun _ s => !decide (Isolated s)) (by decide +kernel)
  have hisolated := (hclaim _ _ history s hrun).2
  rw [Bool.not_eq_true', decide_eq_false_iff_not] at htest
  exact htest hisolated

end

end OrmBenchmark.Ref
