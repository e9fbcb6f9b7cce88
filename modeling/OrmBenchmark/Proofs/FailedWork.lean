import OrmBenchmark.Lib.Lts
import OrmBenchmark.Proofs.OnePass

/-!
# What is measured

A measure is added when a call of the adapter returns, whatever it returned. For
six adapters that is enough: their calls return only what they were to return,
and an exception of theirs leaves the background thread before the measure. The
seventh catches what goes wrong in its save and answers a failed load with
`null`, and the executor, which reads neither the store nor the list, times it.
-/

namespace OrmBenchmark.Ref

open OrmBenchmark.Lib OrmBenchmark.Lib.Prog

/-! ## The property -/

/-- A measured save committed what it was given, and a measured load returned
the rows that were stored. -/
def Worked (env : Android) : ExecEvent World → Prop
  | .saveMeasured name entities before after =>
      after.stored env (database env name) = before.stored env (database env name) ++ entities
  | .loadMeasured name loaded before _ =>
      loaded = some (before.stored env (database env name))
  | .publishProgress _ | .averaged _ _ | .put _ _ => True

/-- No library call threw in a measured load of `ormlite`, or in a measured save
that had anything to save. -/
def Undisturbed : ExecEvent World → Prop
  | .saveMeasured name entities before after =>
      name = "ORMLite" → entities ≠ [] → after.failures = before.failures
  | .loadMeasured name _ before after => name = "ORMLite" → after.failures = before.failures
  | .publishProgress _ | .averaged _ _ | .put _ _ => True

instance (env : Android) (event : ExecEvent World) : Decidable (Worked env event) :=
  match event with
  | .saveMeasured name entities before after => inferInstanceAs (Decidable
      (after.stored env (database env name) = before.stored env (database env name) ++ entities))
  | .loadMeasured name loaded before _ => inferInstanceAs (Decidable
      (loaded = some (before.stored env (database env name))))
  | .publishProgress _ | .averaged _ _ | .put _ _ => isTrue True.intro

instance (event : ExecEvent World) : Decidable (Undisturbed event) :=
  match event with
  | .saveMeasured name entities before after => inferInstanceAs (Decidable
      (name = "ORMLite" → entities ≠ [] → after.failures = before.failures))
  | .loadMeasured name _ before after => inferInstanceAs (Decidable
      (name = "ORMLite" → after.failures = before.failures))
  | .publishProgress _ | .averaged _ _ | .put _ _ => isTrue True.intro

def ExecEvent.isSaveOf {ω : Type} (name : String) : ExecEvent ω → Bool
  | .saveMeasured name' _ _ _ => name' = name
  | .loadMeasured _ _ _ _ | .publishProgress _ | .averaged _ _ | .put _ _ => false

def ExecEvent.isLoadOf {ω : Type} (name : String) : ExecEvent ω → Bool
  | .loadMeasured name' _ _ _ => name' = name
  | .saveMeasured _ _ _ _ | .publishProgress _ | .averaged _ _ | .put _ _ => false

/-- Only work that was done is measured. A task that returned measured both
steps of every pass; one that left with an exception was thrown out of a call of
the adapter, of which nothing is published but its start. -/
structure NoFailedWork (env : Android) (x : ExecEnv) (exit : Exit Throwable Unit)
    (s : Exec World) : Prop where
  worked : ∀ event ∈ s.trace, Worked env event
  returned : exit = .ok () → ∀ b ∈ benchmarks env,
    s.trace.countP (ExecEvent.isSaveOf b.getName) = x.PASSES ∧
      s.trace.countP (ExecEvent.isLoadOf b.getName) = x.PASSES
  left : ∀ e, exit = .throws e → ∃ done b rest, benchmarks env = done ++ b :: rest ∧
    b.Throws e ∧
      visible s.trace = visibleSteps (getNames done) ++ [.publishProgress b.getName]

/-! ## How many steps are measured -/

/-- The measures of each name between two states. -/
def Measured {ω : Type} (n : String → Nat) (s s' : Exec ω) : Prop :=
  ∀ name, s'.trace.countP (ExecEvent.isSaveOf name) =
      s.trace.countP (ExecEvent.isSaveOf name) + n name ∧
    s'.trace.countP (ExecEvent.isLoadOf name) =
      s.trace.countP (ExecEvent.isLoadOf name) + n name

section

variable {ω : Type} {x : ExecEnv} {b : Benchmark ω} {s s' : Exec ω}

theorem wp_runPass_measured {results : List TimeMeasure} :
    (runPass x b results).wp (.returning fun _ s' =>
      Measured (fun name => if b.getName = name then 1 else 0) s s') s := by
  simp only [runPass, savePhase, loadPhase, wp_bind]
  refine wp_adapter (fun _ w₁ _ => ?_) (fun _ _ _ => True.intro) (fun _ => True.intro)
  simp only [wp_bind, wp_generateEntities, wp_getState, wp_nanoTime]
  refine wp_adapter (fun _ w₂ _ => ?_) (fun _ _ _ => True.intro) (fun _ => True.intro)
  simp only [wp_bind, wp_nanoTime, wp_getState, wp_record, wp_pure]
  refine wp_adapter (fun _ w₃ _ => ?_) (fun _ _ _ => True.intro) (fun _ => True.intro)
  simp only [wp_bind, wp_nanoTime, wp_getState]
  refine wp_adapter (fun loaded w₄ _ => ?_) (fun _ _ _ => True.intro) (fun _ => True.intro)
  simp only [wp_bind, wp_nanoTime, wp_getState, wp_record, wp_pure]
  refine wp_adapter (fun _ w₅ _ => ?_) (fun _ _ _ => True.intro) (fun _ => True.intro)
  intro name
  simp [List.countP_append, List.countP_cons, ExecEvent.isSaveOf, ExecEvent.isLoadOf]

theorem wp_runPasses_measured (n : Nat) {results : List TimeMeasure} :
    (runPasses x b n results).wp (.returning fun _ s' =>
      Measured (fun name => if b.getName = name then n else 0) s s') s := by
  induction n generalizing s results with
  | zero => exact fun name => by simp
  | succ n ih =>
      simp only [runPasses, wp_bind]
      refine wp_mono wp_runPass_measured ?_ (fun _ _ _ => True.intro) (fun _ _ => True.intro)
      intro results' s₁ h₁
      refine wp_returning_mono ih ?_
      intro _ s₂ h₂ name
      have h₁' := h₁ name
      have h₂' := h₂ name
      dsimp only at h₁' h₂' ⊢
      split at h₁' <;> rename_i hname <;> simp only [hname, if_true, if_false] at h₂' ⊢ <;> omega

theorem wp_runBenchmark_measured :
    (runBenchmark x b).wp (.returning fun _ s' =>
      Measured (fun name => if b.getName = name then x.PASSES else 0) s s') s := by
  simp only [runBenchmark, publishProgress, wp_bind, wp_record]
  refine wp_mono (wp_runPasses_measured x.PASSES) ?_ (fun _ _ _ => True.intro)
    (fun _ _ => True.intro)
  intro results s₁ h₁
  simp only [wp_bind, wp_record, averageOf]
  cases TimeMeasure.ofMeasures x.ids.saveEntitiesInTransaction results with
  | none => exact True.intro
  | some save =>
      simp only [wp_pure, wp_bind]
      cases TimeMeasure.ofMeasures x.ids.loadEntities results with
      | none => exact True.intro
      | some load =>
          simp only [wp_pure, wp_bind, putResults, wp_modifyState, wp_record]
          intro name
          have h₁' := h₁ name
          simpa [List.countP_append, List.countP_cons, ExecEvent.isSaveOf, ExecEvent.isLoadOf]
            using h₁'

/-- A task that returns measures every step of every pass. -/
theorem wp_doInBackground_measured {benchmarks : List (Benchmark ω)} :
    (doInBackground x benchmarks).wp (.returning fun _ s' =>
      Measured (fun name => x.PASSES * (getNames benchmarks).count name) s s') s := by
  -- What is still to be measured are the benchmarks still to come.
  let I := fun rest (s' : Exec ω) => ∃ done, benchmarks = done ++ rest ∧
    Measured (fun name => x.PASSES * (getNames done).count name) s s'
  refine wp_forEach (I := I) ?_ ?_ ⟨[], rfl, fun name => ?_⟩
  · intro b rest s₁ hI
    obtain ⟨done, hsplit, h₁⟩ := hI
    refine wp_returning_mono wp_runBenchmark_measured ?_
    intro _ s₂ h₂
    refine ⟨done ++ [b], by rw [hsplit, List.append_assoc]; rfl, fun name => ?_⟩
    have h₁' := h₁ name
    have h₂' := h₂ name
    dsimp only at h₁' h₂' ⊢
    rw [getNames, List.map_append, List.count_append, Nat.mul_add, ← getNames, List.map_singleton,
      List.count_singleton]
    by_cases hname : b.getName = name
    · simp only [hname, if_true, beq_self_eq_true] at h₂' ⊢
      omega
    · simp only [hname, if_false, beq_eq_false_iff_ne.2 hname] at h₂' ⊢
      simp only [Bool.false_eq_true, if_false]
      omega
  · intro s₁ hI
    obtain ⟨done, hsplit, h₁⟩ := hI
    rw [List.append_nil] at hsplit
    subst hsplit
    exact h₁
  · simp [getNames]

end

/-! ## The adapters -/

section

variable {env : Android} {x : ExecEnv} {b : Benchmark World} {initial : World → List Entity}
  {swallows : Prop} {Ready : World → World → List Entity → Prop} {w : World}

/-- A measured call did its work exactly if nothing disturbed it. -/
theorem Passes.contract (h : Passes env b initial swallows Ready)
    (hswallows : swallows → b.getName = "ORMLite") :
    Contract b Between (fun w => ∃ w₀ rows, Ready w₀ w rows)
      (fun event => Worked env event ↔ Undisturbed event) where
  init := by
    intro w w' hbetween hrun
    exact ⟨w, _, ok_of_wp (h.init hbetween) hrun⟩
  save := by
    intro entities w w' hready hrun
    obtain ⟨w₀, rows, hready⟩ := hready
    rw [Worked, Undisturbed, h.stored hready]
    rcases ok_of_wp (h.save hready) hrun with ⟨hf, hready'⟩ | ⟨hswallow, hf, hready'⟩
    · exact ⟨⟨w₀, _, hready'⟩, iff_of_true (h.stored hready') fun _ _ => hf⟩
    · refine ⟨⟨w₀, rows, hready'⟩, ?_⟩
      rw [h.stored hready', List.self_eq_append_right]
      constructor
      · exact fun hnil _ hne => absurd hnil hne
      · intro hundisturbed
        by_contra hne
        have := hundisturbed (hswallows hswallow) hne
        omega
  clearCache := by
    intro w w' hready hrun
    obtain ⟨w₀, rows, hready⟩ := hready
    exact ⟨w₀, rows, (ok_of_wp (h.clearCache hready) hrun).2⟩
  load := by
    intro loaded w w' hready hrun
    obtain ⟨w₀, rows, hready⟩ := hready
    rw [Worked, Undisturbed, h.stored hready]
    obtain ⟨hready', hwent⟩ := ok_of_wp (h.load hready) hrun
    refine ⟨⟨w₀, rows, hready'⟩, ?_⟩
    rcases hwent with ⟨hf, hloaded⟩ | ⟨hswallow, hf, hloaded⟩
    · exact iff_of_true hloaded fun _ => hf
    · refine iff_of_false (hloaded ▸ nofun) fun hundisturbed => ?_
      have := hundisturbed (hswallows hswallow)
      omega
  dispose := by
    intro w w' hready hrun
    obtain ⟨w₀, rows, hready⟩ := hready
    exact ok_of_wp (h.dispose hready) hrun

theorem exists_contract (hb : b ∈ benchmarks env) :
    ∃ Ready, Contract b Between Ready (fun event => Worked env event ↔ Undisturbed event) := by
  obtain ⟨swallows, Ready, hpasses, hswallows⟩ := exists_passes hb
  exact ⟨_, hpasses.contract hswallows⟩

theorem getNames_nodup : (getNames (benchmarks env)).Nodup := by
  show ["SQLiteOpenHelper", "Green Dao", "ORMLite", "ActiveAndroid", "ActiveAndroid.Sebbia",
    "Sugar ORM", "GenericDao"].Nodup
  decide

/-! ## Every run of the executor -/

/-- Tasks one after the other: in one process while they return, and in a new
one after one that left with an exception or was killed. -/
def executions (env : Android) : Lts World ExecEnv :=
  Lts.ofNext World.empty fun w x =>
    if x.PASSES = 0 then none
    else match doInBackground x (benchmarks env) (Exec.start w) with
      | (.ok _, s) => some s.world
      | (_, s) => some s.world.restart

theorem Between.of_reachable (h : (executions env).Reachable w) : Between w := by
  refine h.invariant ?_ ?_
  · intro w hstart
    subst hstart
    exact Between.empty
  · intro w x w' hbetween hstep
    have hnext : (if x.PASSES = 0 then none
        else match doInBackground x (benchmarks env) (Exec.start w) with
          | (.ok _, s) => some s.world
          | (_, s) => some s.world.restart) = some w' := hstep
    split at hnext
    · cases hnext
    · next hpasses =>
        split at hnext
        · next a s hrun =>
            cases hnext
            exact (ok_of_wp (wp_doInBackground_keeps getNames_nodup
              (Nat.one_le_iff_ne_zero.2 hpasses) (fun b hb => exists_contract hb) hbetween)
              hrun).2
        · cases hnext
          exact Between.restart

/-- The disk is full at one library call, and only then. -/
def fullAt (k : Nat) : Android :=
  Android.answering fun n =>
    if n = k then
      .throws ⟨.runtimeException, "android/database/sqlite/SQLiteFullException", none⟩
    else .ok

end

end OrmBenchmark.Ref
