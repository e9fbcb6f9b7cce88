import OrmBenchmark.Proofs.Durability
import OrmBenchmark.Proofs.FailedWork

/-!
# After any history the task completes

However earlier passes failed or were killed, a task whose library calls all
return runs to its end. It measures every pass of every adapter and stores every
result, and each load gives what its own pass has saved. Only the first pass of
ActiveAndroid may find more, which is what a killed pass of it had stored.

One pass is followed with the contract that its calls return; that nothing else
throws is the executor's own part.
-/

namespace OrmBenchmark.Ref

open OrmBenchmark.Lib OrmBenchmark.Lib.Prog

/-! ## What is measured -/

/-- What a measure was taken of. -/
inductive Sample
  | saved (name : String) (entities : List Entity)
  | loaded (name : String) (entities : Option (List Entity))

def samples (trace : List (ExecEvent World)) : List Sample :=
  trace.filterMap fun
    | .saveMeasured name entities _ _ => some (.saved name entities)
    | .loadMeasured name loaded _ _ => some (.loaded name loaded)
    | .publishProgress _ | .averaged _ _ | .put _ _ => none

/-- The entities of one pass. -/
def passEntities (x : ExecEnv) (generated : Nat) : List Entity :=
  List.replicate x.ENTITIES_COUNT (x.random generated)

/-- The passes of a benchmark, the first of which finds `left`. -/
def passSamples (x : ExecEnv) (name : String) : List Entity → Nat → Nat → List Sample
  | _, _, 0 => []
  | left, generated, n + 1 =>
      [.saved name (passEntities x generated),
        .loaded name (some (left ++ passEntities x generated))] ++
        passSamples x name [] (generated + 1) n

/-- The rounds of a task that finds the world `w`. -/
def roundSamples (x : ExecEnv) (env : Android) (w : World) :
    Nat → List (Benchmark World) → List Sample
  | _, [] => []
  | generated, b :: rest =>
      passSamples x b.getName (stale env b.getName w) generated x.PASSES ++
        roundSamples x env w (generated + x.PASSES) rest

section

variable {env : Android} {x : ExecEnv} {b : Benchmark World} {s s' : Exec World} {w : World}
  {Ready : World → World → List Entity → Prop} {α : Type}

theorem samples_append (l l' : List (ExecEvent World)) :
    samples (l ++ l') = samples l ++ samples l' := List.filterMap_append

/-- Nothing is random in that no text is null. -/
def ExecEnv.HasTexts (x : ExecEnv) : Prop := ∀ n, (x.random n).HasTexts

theorem ExecEnv.HasTexts.passEntities (h : x.HasTexts) (n : Nat) :
    ∀ entity ∈ passEntities x n, entity.HasTexts := by
  intro entity hentity
  rw [List.eq_of_mem_replicate hentity]
  exact h n

/-! ## One pass -/

theorem wp_adapter_only {m : AndroidProg α} {P : α → World → Prop}
    {Q : Post (Exec World) Throwable α}
    (h : m.wp (.only P) s.world) (hok : ∀ a w, P a w → Q.ok a { s with world := w }) :
    (adapter m).wp Q s := by
  unfold adapter
  rw [wp_zoom]
  exact wp_of_only h hok

theorem Serves.runPass (h : Serves env b Ready) (htexts : x.HasTexts) (hbetween : Between s.world)
    (hdurable : Durable env s.world) {results : List TimeMeasure} :
    (runPass x b results).wp (.only fun _ s' => Between s'.world ∧
      stale env b.getName s'.world = [] ∧ s'.generated = s.generated + 1 ∧
      samples s'.trace = samples s.trace ++
        passSamples x b.getName (stale env b.getName s.world) s.generated 1) s := by
  simp only [Ref.runPass, wp_bind]
  refine wp_adapter_only (h.init hbetween hdurable.activeAndroid hdurable.genericDao)
    fun _ w₁ hready => ?_
  simp only [savePhase, wp_bind, wp_generateEntities, wp_getState, wp_nanoTime]
  refine wp_adapter_only (h.save hready (htexts.passEntities s.generated)) fun _ w₂ hready₂ => ?_
  simp only [wp_bind, wp_nanoTime, wp_getState, wp_record, wp_pure]
  refine wp_adapter_only (h.clearCache hready₂) fun _ w₃ hready₃ => ?_
  simp only [loadPhase, wp_bind, wp_nanoTime, wp_getState]
  refine wp_adapter_only (h.load hready₃) fun loaded w₄ hpost => ?_
  obtain ⟨rfl, hready₄⟩ := hpost
  simp only [wp_bind, wp_nanoTime, wp_getState, wp_record, wp_pure]
  refine wp_adapter_only (h.dispose hready₄) fun _ w₅ hpost => ?_
  refine ⟨hpost.1, hpost.2, rfl, ?_⟩
  show samples (s.trace ++ _ ++ _) = _
  rw [List.append_assoc, samples_append]
  rfl

/-! ## One benchmark -/

theorem Serves.runPasses (h : Serves env b Ready) (hapart : env.GenericDaoApart)
    (hb : b ∈ benchmarks env) (htexts : x.HasTexts) (n : Nat) (hbetween : Between s.world)
    (hdurable : Durable env s.world) {results : List TimeMeasure} :
    (runPasses x b n results).wp (.only fun _ s' => Between s'.world ∧ Durable env s'.world ∧
      s'.generated = s.generated + n ∧ samples s'.trace = samples s.trace ++
        passSamples x b.getName (stale env b.getName s.world) s.generated n) s := by
  induction n generalizing s results with
  | zero => exact ⟨hbetween, hdurable, rfl, (List.append_nil _).symm⟩
  | succ n ih =>
      simp only [Ref.runPasses, wp_bind]
      refine wp_of_only (wp_and_only (durable_runPass hapart hb s hdurable)
        (h.runPass htexts hbetween hdurable)) fun results' s₁ hpost => ?_
      obtain ⟨hdurable₁, hbetween₁, hstale, hgenerated, hsamples⟩ := hpost
      refine wp_of_only (ih hbetween₁ hdurable₁) fun _ s₂ hpost => ?_
      obtain ⟨hbetween₂, hdurable₂, hgenerated₂, hsamples₂⟩ := hpost
      refine ⟨hbetween₂, hdurable₂, by omega, ?_⟩
      rw [hsamples₂, hsamples, hstale, hgenerated, List.append_assoc]
      rfl

theorem Serves.runBenchmark (h : Serves env b Ready) (hapart : env.GenericDaoApart)
    (hb : b ∈ benchmarks env) (htexts : x.HasTexts) (hpasses : 1 ≤ x.PASSES)
    (hbetween : Between s.world) (hdurable : Durable env s.world) :
    (runBenchmark x b).wp (.only fun _ s' => Between s'.world ∧ Durable env s'.world ∧
      s'.generated = s.generated + x.PASSES ∧ samples s'.trace = samples s.trace ++
        passSamples x b.getName (stale env b.getName s.world) s.generated x.PASSES) s := by
  simp only [Ref.runBenchmark, publishProgress, wp_bind, wp_record]
  let s₀ : Exec World := { s with trace := s.trace ++ [.publishProgress b.getName] }
  obtain ⟨save, load, haverages⟩ := exists_averages hpasses s₀.readings
  have hmeasures : (Ref.runPasses x b x.PASSES []).wp _ s₀ :=
    wp_runPasses (Contract.trivial b) x.PASSES True.intro
  have hserved : (Ref.runPasses x b x.PASSES []).wp _ s₀ :=
    h.runPasses (s := s₀) hapart hb htexts x.PASSES hbetween hdurable
  refine wp_of_only (wp_and_only hmeasures hserved) fun results s₁ hpost => ?_
  obtain ⟨⟨rfl, _⟩, hbetween₁, hdurable₁, hgenerated, hsamples⟩ := hpost
  simp only [List.nil_append, wp_bind, wp_record, averageOf, haverages.1, haverages.2, wp_pure,
    putResults, wp_modifyState]
  refine ⟨hbetween₁, hdurable₁, hgenerated, ?_⟩
  rw [samples_append, samples_append, samples_append, hsamples, samples_append]
  simp [samples, s₀]

/-- A round keeps of the world what a pass keeps. -/
theorem preserves_world_runBenchmark {I : World → Prop}
    (hpass : ∀ results, Preserves (fun s : Exec World => I s.world) (runPass x b results)) :
    Preserves (fun s : Exec World => I s.world) (runBenchmark x b) := by
  have hpasses : ∀ n results,
      Preserves (fun s : Exec World => I s.world) (runPasses x b n results) := by
    intro n
    induction n with
    | zero => exact fun _ => preserves_pure
    | succ n ih => exact fun results => preserves_bind (hpass results) ih
  have hrecord : ∀ event, Preserves (fun s : Exec World => I s.world) (record event) :=
    fun _ _ hs => hs
  have haverage : ∀ actionRes results,
      Preserves (fun s : Exec World => I s.world) (averageOf actionRes results) := by
    intro actionRes results
    unfold averageOf
    split
    · exact preserves_raise
    · exact preserves_pure
  refine preserves_bind (hrecord _) fun _ => preserves_bind (hpasses _ _) fun results => ?_
  refine preserves_bind (hrecord _) fun _ => preserves_bind (haverage _ _) fun save => ?_
  refine preserves_bind (haverage _ _) fun load => preserves_bind ?_ fun _ => hrecord _
  exact preserves_bind (preserves_modifyState fun _ hs => hs) fun _ => hrecord _

/-! ## All of them -/

theorem exists_serves (hcalm : env.Calm) (hb : b ∈ benchmarks env) :
    ∃ Ready, Serves env b Ready := by
  simp only [benchmarks, List.mem_cons, List.not_mem_nil, or_false] at hb
  rcases hb with rfl | rfl | rfl | rfl | rfl | rfl | rfl
  · exact ⟨_, noOrm_serves hcalm⟩
  · exact ⟨_, greenDao_serves hcalm⟩
  · exact ⟨_, ormLite_serves hcalm⟩
  · exact ⟨_, activeAndroid_serves hcalm⟩
  · exact ⟨_, activeAndroidSebbia_serves hcalm⟩
  · exact ⟨_, sugar_serves hcalm⟩
  · exact ⟨_, genericDao_serves hcalm⟩

/-- ActiveAndroid finds what it found before another's round. -/
theorem Keeps.stale {w₀ : World} {met : List (String × Nat)} {name : String}
    (h : Keeps env name w₀ met w) (hname : name ≠ "activeandroid") (benchmark : String) :
    stale env benchmark w = stale env benchmark w₀ := by
  unfold Ref.stale
  split
  · rw [World.stored_eq, World.stored_eq, h.content_eq hname.symm]
  · rfl

theorem database_eq_activeandroid (hapart : env.GenericDaoApart) (hb : b ∈ benchmarks env)
    (hname : database env b.getName = "activeandroid") : b.getName = "ActiveAndroid" := by
  simp only [benchmarks, List.mem_cons, List.not_mem_nil, or_false] at hb
  rcases hb with rfl | rfl | rfl | rfl | rfl | rfl | rfl
  · simp [database, noOrmBenchmark] at hname
  · simp [database, greenDaoBenchmark] at hname
  · simp [database, ormLiteBenchmark] at hname
  · rfl
  · simp [database, activeAndroidSebbiaBenchmark] at hname
  · simp [database, sugarOrmBenchmark] at hname
  · have hgeneric : env.genericDaoDatabase = "activeandroid" := by
      simpa [database, genericDaoBenchmark] using hname
    exact absurd hgeneric fun heq => hapart (by simp [heq])

theorem calm_rounds (hcalm : env.Calm) (hapart : env.GenericDaoApart) (htexts : x.HasTexts)
    (hpasses : 1 ≤ x.PASSES) {rest : List (Benchmark World)}
    (hsub : ∀ b ∈ rest, b ∈ benchmarks env) (hnodup : (getNames rest).Nodup)
    (hbetween : Between s.world) (hdurable : Durable env s.world)
    (hstale : ∀ b ∈ rest, stale env b.getName s.world = stale env b.getName w) :
    (forEach (Ref.runBenchmark x) rest).wp (.only fun _ s' =>
      samples s'.trace = samples s.trace ++ roundSamples x env w s.generated rest) s := by
  induction rest generalizing s with
  | nil => exact (List.append_nil _).symm
  | cons b rest ih =>
      have hb : b ∈ benchmarks env := hsub b List.mem_cons_self
      obtain ⟨Ready, hserves⟩ := exists_serves hcalm hb
      have hkeeps := preserves_world_runBenchmark (x := x) (b := b)
        (I := Keeps env (database env b.getName) s.world [])
        (fun _ => (exists_keepsTo hb).runPass) s (Keeps.start hdurable.separate)
      rw [forEach, wp_bind]
      refine wp_of_only (wp_and_only hkeeps (hserves.runBenchmark hapart hb htexts hpasses
        hbetween hdurable)) fun _ s₁ hpost => ?_
      obtain ⟨hkept, hbetween₁, hdurable₁, hgenerated, hsamples⟩ := hpost
      obtain ⟨hnew, hnodup'⟩ := List.nodup_cons.1 hnodup
      refine wp_of_only (ih (fun b' hb' => hsub b' (List.mem_cons_of_mem b hb')) hnodup' hbetween₁
        hdurable₁ fun b' hb' => ?_) fun _ s₂ hrest => ?_
      · rw [← hstale b' (List.mem_cons_of_mem b hb')]
        by_cases hactive : b'.getName = "ActiveAndroid"
        · refine hkept.stale (fun hname => hnew ?_) _
          rw [database_eq_activeandroid hapart hb hname, ← hactive]
          exact List.mem_map_of_mem hb'
        · rw [stale_eq_nil.2 fun h => absurd h hactive, stale_eq_nil.2 fun h => absurd h hactive]
      · show samples s₂.trace = _
        rw [hrest, hsamples, hgenerated, hstale b List.mem_cons_self, List.append_assoc]
        rfl

/-! ## The task -/

theorem Separate.calm (h : Separate env w) : Separate env.calm w :=
  ⟨h.named, h.opened, h.injective, h.held, h.helpers⟩

theorem Durable.calm (h : Durable env w) : Durable env.calm w :=
  ⟨h.separate.calm, h.activeAndroid, h.genericDao⟩

theorem between_of_reachable (hr : (passes env x).Reachable s) : Between s.world := by
  refine hr.invariant (I := fun s => Between s.world) ?_ ?_
  · intro s hs
    cases hs
    exact Between.empty
  · intro s i s' h hstep
    obtain ⟨b, _, hbetween, _⟩ := nextPass_cases h hstep
    exact hbetween

theorem Durable.of_reachable (hapart : env.GenericDaoApart) (hr : (passes env x).Reachable s) :
    Durable env s.world := by
  refine hr.invariant (I := fun s => Durable env s.world) ?_ ?_
  · intro s hs
    cases hs
    exact Durable.empty
  · exact fun s i s' h hstep => h.nextPass hapart hstep

end

end OrmBenchmark.Ref
