import Mathlib.Data.List.Induction
import OrmBenchmark.Lib.Lts
import OrmBenchmark.Proofs.Background

/-!
# The task as another thread sees it

What interleaves with the UI thread elsewhere is not the task itself but its
publications and stores. Here the task, over adapters that may do anything, is
related to that view of it: cut its trace wherever one likes, there is a state
of the view that holds the map as it was then and has published what was
published then. The task returns exactly if the view has come to its end.
-/

namespace OrmBenchmark.Ref

open OrmBenchmark.Lib OrmBenchmark.Lib.Prog

/-- The steps of one executor, each with the averages it stores if it stores. -/
def Executor.lts (names : List String) : Lts Executor (TimeMeasure × TimeMeasure) where
  init e := e = Executor.execute names
  step e averages e' := ∃ published,
    e.background averages.1 averages.2 = some (e', published)

variable {ω : Type}

/-- The map after these events. -/
def storedBy (trace : List (ExecEvent ω)) : ResultMap :=
  trace.foldl
    (fun results event =>
      match event with
      | .put name medianResults => results.insert name medianResults
      | _ => results) ∅

/-- The view `e` of a task that has left this trace. -/
structure SeenAs (names : List String) (trace : List (ExecEvent ω)) (e : Executor) : Prop where
  results : e.results = storedBy trace
  todo : visible trace ++ e.todo = visibleSteps names

/-- What is stored are two averages. -/
def ExecEvent.StoresTwo : ExecEvent ω → Prop
  | .put _ medianResults => ∃ save load, medianResults = [save, load]
  | .publishProgress _ | .averaged _ _ | .saveMeasured _ _ _ _ | .loadMeasured _ _ _ _ => True

section

variable {names : List String} {trace before after : List (ExecEvent ω)} {e : Executor}

theorem storedBy_concat (event : ExecEvent ω) :
    storedBy (trace ++ [event]) =
      match event with
      | .put name medianResults => (storedBy trace).insert name medianResults
      | _ => storedBy trace := by
  rw [storedBy, List.foldl_append]
  rfl

/-- An event that nobody else can see. -/
theorem SeenAs.hidden (h : SeenAs names trace e) {event : ExecEvent ω}
    (hstored : storedBy (trace ++ [event]) = storedBy trace)
    (hvisible : visible (trace ++ [event]) = visible trace) :
    SeenAs names (trace ++ [event]) e :=
  ⟨h.results.trans hstored.symm, by rw [hvisible, h.todo]⟩

/-- The view has taken the step that this event is. -/
theorem exists_seenAs (hstores : ∀ event ∈ trace, event.StoresTwo)
    (hbegun : visible trace <+: visibleSteps names) :
    ∃ e, (Executor.lts names).Reachable e ∧ SeenAs names trace e := by
  induction trace using List.reverseRecOn with
  | nil => exact ⟨Executor.execute names, ⟨[], .start rfl⟩, rfl, rfl⟩
  | append_singleton trace event ih =>
      have hshorter : visible trace <+: visibleSteps names := by
        rw [visible_append] at hbegun
        exact (List.prefix_append _ _).trans hbegun
      obtain ⟨e, hr, hseen⟩ :=
        ih (fun x hx => hstores x (List.mem_append_left _ hx)) hshorter
      obtain ⟨rest, hrest⟩ := hbegun
      rw [visible_append] at hrest
      -- The instruction of a visible event is the next one of the view.
      have hnext : visible [event] ++ rest = e.todo := by
        have hboth := hrest.trans hseen.todo.symm
        rw [List.append_assoc] at hboth
        exact List.append_cancel_left hboth
      cases event with
      | publishProgress name =>
          have htodo : e.todo = .publishProgress name :: rest := hnext.symm
          let unused : TimeMeasure := ⟨0, 0, 0, 0⟩
          refine ⟨{ e with todo := rest },
            hr.of_step (a := (unused, unused)) ⟨some name, ?_⟩, ?_, ?_⟩
          · rw [Executor.background, htodo]
          · rw [storedBy_concat]
            exact hseen.results
          · rw [visible_append]
            exact hrest
      | put name medianResults =>
          obtain ⟨save, load, hpair⟩ :=
            hstores (.put name medianResults) (List.mem_append_right _ List.mem_cons_self)
          subst hpair
          have htodo : e.todo = .put name :: rest := hnext.symm
          refine ⟨⟨e.results.insert name [save, load], rest⟩,
            hr.of_step (a := (save, load)) ⟨none, ?_⟩, ?_, ?_⟩
          · rw [Executor.background, htodo]
          · rw [storedBy_concat, hseen.results]
          · rw [visible_append]
            exact hrest
      | averaged name results =>
          exact ⟨e, hr, hseen.hidden (storedBy_concat _) (by simp [visible])⟩
      | saveMeasured name entities w w' =>
          exact ⟨e, hr, hseen.hidden (storedBy_concat _) (by simp [visible])⟩
      | loadMeasured name loaded w w' =>
          exact ⟨e, hr, hseen.hidden (storedBy_concat _) (by simp [visible])⟩

end

/-! ## The books of the task -/

/-- The map is what the trace says was stored. -/
structure Booked (s : Exec ω) : Prop where
  results : s.results = storedBy s.trace
  stores : ∀ event ∈ s.trace, event.StoresTwo

section

variable {env : ExecEnv} {b : Benchmark ω} {s s' : Exec ω}

theorem Booked.of_same (h : Booked s) (hresults : s'.results = s.results)
    (htrace : s'.trace = s.trace) : Booked s' :=
  ⟨by rw [hresults, htrace, h.results], by rw [htrace]; exact h.stores⟩

theorem Booked.concat (h : Booked s) {event : ExecEvent ω} (hevent : event.StoresTwo)
    (hresults : s'.results = storedBy (s.trace ++ [event]))
    (htrace : s'.trace = s.trace ++ [event]) : Booked s' := by
  refine ⟨by rw [hresults, htrace], ?_⟩
  rw [htrace]
  intro x hx
  rcases List.mem_append.1 hx with hx | hx
  · exact h.stores x hx
  · rw [List.mem_singleton.1 hx]
    exact hevent

theorem preserves_adapter {α : Type} {m : Prog ω Throwable α} :
    Preserves Booked (adapter m) := by
  intro s hbooked
  exact wp_adapter (fun _ _ _ => hbooked.of_same rfl rfl) (fun _ _ _ => hbooked.of_same rfl rfl)
    (fun _ => hbooked.of_same rfl rfl)

theorem preserves_nanoTime : Preserves (Booked (ω := ω)) (nanoTime env) :=
  fun _ hbooked => hbooked.of_same rfl rfl

theorem preserves_generateEntities {n : Nat} :
    Preserves (Booked (ω := ω)) (generateEntities env n) :=
  fun _ hbooked => hbooked.of_same rfl rfl

/-- Any record but that of a store. -/
theorem preserves_record {event : ExecEvent ω}
    (hput : ∀ name medianResults, event ≠ .put name medianResults) :
    Preserves Booked (record event) := by
  intro s hbooked
  rw [wp_record]
  refine hbooked.concat ?_ ?_ rfl
  · cases event with
    | put name medianResults => exact absurd rfl (hput name medianResults)
    | publishProgress name => exact True.intro
    | averaged name results => exact True.intro
    | saveMeasured name entities w w' => exact True.intro
    | loadMeasured name loaded w w' => exact True.intro
  · rw [storedBy_concat]
    cases event with
    | put name medianResults => exact absurd rfl (hput name medianResults)
    | publishProgress name => exact hbooked.results
    | averaged name results => exact hbooked.results
    | saveMeasured name entities w w' => exact hbooked.results
    | loadMeasured name loaded w w' => exact hbooked.results

theorem preserves_putResults {name : String} {save load : TimeMeasure} :
    Preserves (Booked (ω := ω)) (putResults name [save, load]) := by
  intro s hbooked
  simp only [putResults, wp_bind, wp_modifyState, wp_record]
  have hstores : (ExecEvent.put (ω := ω) name [save, load]).StoresTwo := ⟨save, load, rfl⟩
  refine hbooked.concat hstores ?_ rfl
  rw [storedBy_concat, hbooked.results]

theorem preserves_averageOf {actionRes : Int32} {results : List TimeMeasure} :
    Preserves (Booked (ω := ω)) (averageOf actionRes results) := by
  unfold averageOf
  split
  · exact preserves_raise
  · exact preserves_pure

theorem preserves_savePhase {results : List TimeMeasure} {entities : List Entity} :
    Preserves Booked (savePhase env b results entities) :=
  preserves_bind preserves_getState fun _ => preserves_bind preserves_nanoTime fun _ =>
    preserves_bind preserves_adapter fun _ => preserves_bind preserves_nanoTime fun _ =>
      preserves_bind preserves_getState fun _ =>
        preserves_bind (preserves_record (by simp)) fun _ => preserves_pure

theorem preserves_loadPhase {results : List TimeMeasure} :
    Preserves Booked (loadPhase env b results) :=
  preserves_bind preserves_getState fun _ => preserves_bind preserves_nanoTime fun _ =>
    preserves_bind preserves_adapter fun _ => preserves_bind preserves_nanoTime fun _ =>
      preserves_bind preserves_getState fun _ =>
        preserves_bind (preserves_record (by simp)) fun _ => preserves_pure

theorem preserves_runPass {results : List TimeMeasure} :
    Preserves Booked (runPass env b results) :=
  preserves_bind preserves_adapter fun _ => preserves_bind preserves_generateEntities fun _ =>
    preserves_bind preserves_savePhase fun _ => preserves_bind preserves_adapter fun _ =>
      preserves_bind preserves_loadPhase fun _ => preserves_bind preserves_adapter fun _ =>
        preserves_pure

theorem preserves_runPasses (n : Nat) {results : List TimeMeasure} :
    Preserves Booked (runPasses env b n results) := by
  induction n generalizing results with
  | zero => exact preserves_pure
  | succ n ih => exact preserves_bind preserves_runPass fun _ => ih

theorem preserves_runBenchmark : Preserves Booked (runBenchmark env b) :=
  preserves_bind (preserves_record (by simp)) fun _ =>
    preserves_bind (preserves_runPasses env.PASSES) fun _ =>
      preserves_bind (preserves_record (by simp)) fun _ =>
        preserves_bind preserves_averageOf fun _ => preserves_bind preserves_averageOf fun _ =>
          preserves_bind preserves_putResults fun _ => preserves_record (by simp)

theorem preserves_doInBackground (benchmarks : List (Benchmark ω)) :
    Preserves Booked (doInBackground env benchmarks) :=
  preserves_forEach (fun _ => preserves_runBenchmark) benchmarks

/-! ## How far the task came -/

/-- A round that ended the task leaves something to be seen. -/
theorem Interrupted.missing {E : ExecEvent ω → Prop} {done : List (Benchmark ω)}
    (h : Interrupted env E done b s) (rest : List (Benchmark ω)) :
    ∃ missing ≠ [],
      Ref.visible s.trace ++ missing = visibleSteps (getNames (done ++ b :: rest)) := by
  refine ⟨[.put b.getName, .publishProgress b.getName] ++ visibleSteps (getNames rest),
    List.cons_ne_nil _ _, ?_⟩
  rw [h.visible]
  simp [visibleSteps, getNames]

/-- What the task left undone, whichever way it ended. -/
theorem doInBackground_visible {benchmarks : List (Benchmark ω)} {world : ω}
    {exit : Exit Throwable Unit} (hnodup : (getNames benchmarks).Nodup) (hpasses : 1 ≤ env.PASSES)
    (hrun : doInBackground env benchmarks (Exec.start world) = (exit, s)) :
    ∃ missing, visible s.trace ++ missing = visibleSteps (getNames benchmarks) ∧
      (exit = .ok () ↔ missing = []) := by
  have hwp : (doInBackground env benchmarks).wp _ (Exec.start world) :=
    wp_doInBackground (E := fun _ => True) (W := fun _ => True) hnodup hpasses
      (fun b _ => ⟨_, Contract.trivial b⟩) True.intro
  cases exit with
  | ok u =>
      have hafter := ok_of_wp hwp hrun
      exact ⟨[], by rw [List.append_nil, hafter.visible], by simp⟩
  | throws e =>
      obtain ⟨done, b, rest, hsplit, _, hinterrupted⟩ := throws_of_wp hwp hrun
      obtain ⟨missing, hne, hvisible⟩ := hinterrupted.missing rest
      exact ⟨missing, by rw [hvisible, hsplit], by simp [hne]⟩
  | dead =>
      obtain ⟨done, b, rest, hsplit, hinterrupted⟩ := dead_of_wp hwp hrun
      obtain ⟨missing, hne, hvisible⟩ := hinterrupted.missing rest
      exact ⟨missing, by rw [hvisible, hsplit], by simp [hne]⟩

/-- At every moment of the task another thread sees a state that the executor
can reach step by step, whatever the adapters do; and the last of them is
finished exactly if the task returned. -/
theorem doInBackground_refines {benchmarks : List (Benchmark ω)} {world : ω}
    {exit : Exit Throwable Unit} (hnodup : (getNames benchmarks).Nodup) (hpasses : 1 ≤ env.PASSES)
    (hrun : doInBackground env benchmarks (Exec.start world) = (exit, s)) :
    (∀ before after, s.trace = before ++ after →
      ∃ e, (Executor.lts (getNames benchmarks)).Reachable e ∧
        SeenAs (getNames benchmarks) before e) ∧
    ∃ e, (Executor.lts (getNames benchmarks)).Reachable e ∧
      SeenAs (getNames benchmarks) s.trace e ∧ e.results = s.results ∧
      (exit = .ok () ↔ e.finished) := by
  obtain ⟨missing, hvisible, hexit⟩ := doInBackground_visible hnodup hpasses hrun
  have hbooked : Booked s := (preserves_doInBackground benchmarks).of_run
    ⟨rfl, fun event hevent => absurd hevent List.not_mem_nil⟩ hrun
  have hcut : ∀ before after, s.trace = before ++ after →
      ∃ e, (Executor.lts (getNames benchmarks)).Reachable e ∧
        SeenAs (getNames benchmarks) before e := by
    intro before after htrace
    refine exists_seenAs (fun event hevent => hbooked.stores event ?_) ?_
    · rw [htrace]
      exact List.mem_append_left _ hevent
    · rw [← hvisible, htrace, visible_append, List.append_assoc]
      exact List.prefix_append _ _
  refine ⟨hcut, ?_⟩
  obtain ⟨e, hr, hseen⟩ := hcut s.trace [] (List.append_nil _).symm
  refine ⟨e, hr, hseen, by rw [hseen.results, hbooked.results], ?_⟩
  have htodo : e.todo = missing := by
    have hboth := hseen.todo.trans hvisible.symm
    exact List.append_cancel_left hboth
  rw [hexit, Executor.finished, htodo]

end

/-- Two benchmarks, the load of the second throws. -/
theorem doInBackground_refines_secondLoadThrows :
    ∃ (env : ExecEnv) (benchmarks : List (Benchmark Unit)) (s : Exec Unit) (e : Executor),
      doInBackground env benchmarks (Exec.start ()) = (.throws .nullPointer, s) ∧
      (Executor.lts ["ORMLite", "GenericDao"]).Reachable e ∧ e.results = s.results ∧
      "ORMLite" ∈ e.results ∧ ¬ e.finished := by
  let env : ExecEnv := ⟨fun _ => 0, fun _ => ⟨none, none, none, 0, 0⟩, ⟨1, 2, by decide⟩, 1, 2,
    by decide⟩
  let benchmark (name : String) (load : Prog Unit Throwable (Option (List Entity))) :
      Benchmark Unit := ⟨name, pure (), fun _ => pure (), load, pure (), pure ()⟩
  let benchmarks := [benchmark "ORMLite" (pure none),
    benchmark "GenericDao" (Prog.raise .nullPointer)]
  have hexit : (doInBackground env benchmarks (Exec.start ())).1 = .throws .nullPointer := by
    decide +kernel
  have hstored : "ORMLite" ∈ (doInBackground env benchmarks (Exec.start ())).2.results := by
    decide +kernel
  generalize hrun : doInBackground env benchmarks (Exec.start ()) = r at hexit hstored
  obtain ⟨exit, s⟩ := r
  have hexit : exit = .throws .nullPointer := hexit
  subst hexit
  obtain ⟨_, e, hr, _, hresults, hfinished⟩ :=
    doInBackground_refines (by decide) (by decide) hrun
  refine ⟨env, benchmarks, s, e, hrun, hr, hresults, ?_, fun h => ?_⟩
  · rw [hresults]
    exact hstored
  · exact absurd (hfinished.2 h) (by simp)

end OrmBenchmark.Ref
