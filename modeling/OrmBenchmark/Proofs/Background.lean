import OrmBenchmark.Proofs.Averages
import OrmBenchmark.Ref.Executor

/-!
# What a background task does

The task is followed once, over adapters that keep a contract, and everything
else is read off: which readings of the clock end up in which measure, which
events the trace holds and under which guarantee, and what another thread sees.

A contract speaks of the calls of one pass. `W` is what holds of the world
between passes and `Ready` what holds from `init` to `dispose`; a call only has
to keep them when it returns, because an exception ends the task. `E` is what
the adapter guarantees of its measured calls.
-/

namespace OrmBenchmark.Ref

open OrmBenchmark.Lib OrmBenchmark.Lib.Prog

variable {ω : Type}

/-- One of the adapter's calls can throw this. -/
inductive Benchmark.Throws (b : Benchmark ω) (e : Throwable) : Prop
  | init {w w' : ω} : b.init w = (.throws e, w') → Throws b e
  | save {entities : List Entity} {w w' : ω} :
      b.saveEntitiesInTransaction entities w = (.throws e, w') → Throws b e
  | clearCache {w w' : ω} : b.clearCache w = (.throws e, w') → Throws b e
  | load {w w' : ω} : b.loadEntities w = (.throws e, w') → Throws b e
  | dispose {w w' : ω} : b.dispose w = (.throws e, w') → Throws b e

structure Contract (b : Benchmark ω) (W Ready : ω → Prop)
    (E : ExecEvent ω → Prop) : Prop where
  init : ∀ {w w' : ω}, W w → b.init w = (.ok (), w') → Ready w'
  save : ∀ {entities : List Entity} {w w' : ω}, Ready w →
    b.saveEntitiesInTransaction entities w = (.ok (), w') →
    Ready w' ∧ E (.saveMeasured b.getName entities w w')
  clearCache : ∀ {w w' : ω}, Ready w → b.clearCache w = (.ok (), w') → Ready w'
  load : ∀ {loaded : Option (List Entity)} {w w' : ω}, Ready w →
    b.loadEntities w = (.ok loaded, w') →
    Ready w' ∧ E (.loadMeasured b.getName loaded w w')
  dispose : ∀ {w w' : ω}, Ready w → b.dispose w = (.ok (), w') → W w'

/-- Nothing is asked, nothing is promised. -/
theorem Contract.trivial (b : Benchmark ω) :
    Contract b (fun _ => True) (fun _ => True) (fun _ => True) where
  init _ _ := True.intro
  save _ _ := ⟨True.intro, True.intro⟩
  clearCache _ _ := True.intro
  load _ _ := ⟨True.intro, True.intro⟩
  dispose _ _ := True.intro

/-! ## One pass -/

def ExecEvent.IsMeasure : ExecEvent ω → Prop
  | .saveMeasured _ _ _ _ | .loadMeasured _ _ _ _ => True
  | .publishProgress _ | .averaged _ _ | .put _ _ => False

/-- What a pass leaves alone, and what it adds to the trace. -/
structure Frame (E : ExecEvent ω → Prop) (s s' : Exec ω) : Prop where
  results : s'.results = s.results
  events : ∃ events, s'.trace = s.trace ++ events ∧
    ∀ event ∈ events, event.IsMeasure ∧ E event

section

variable {env : ExecEnv} {E : ExecEvent ω → Prop} {s s' s'' : Exec ω}

theorem Frame.refl (hresults : s'.results = s.results) (htrace : s'.trace = s.trace) :
    Frame E s s' :=
  ⟨hresults, [], by rw [htrace, List.append_nil], by simp⟩

theorem Frame.trans (h : Frame E s s') (h' : Frame E s' s'') : Frame E s s'' := by
  obtain ⟨hresults, events, htrace, hevents⟩ := h
  obtain ⟨hresults', events', htrace', hevents'⟩ := h'
  refine ⟨hresults'.trans hresults, events ++ events', ?_, ?_⟩
  · rw [htrace', htrace, List.append_assoc]
  · intro event hmem
    rcases List.mem_append.1 hmem with hmem | hmem
    · exact hevents event hmem
    · exact hevents' event hmem

/-- What a frame does not speak of may differ at its start. -/
theorem Frame.of_start (h : Frame E s' s'') (hresults : s'.results = s.results)
    (htrace : s'.trace = s.trace) : Frame E s s'' :=
  (Frame.refl hresults htrace).trans h

/-- … and at its end. -/
theorem Frame.of_end (h : Frame E s s') (hresults : s''.results = s'.results)
    (htrace : s''.trace = s'.trace) : Frame E s s'' :=
  h.trans (Frame.refl hresults htrace)

theorem Frame.event {event : ExecEvent ω} (hresults : s'.results = s.results)
    (htrace : s'.trace = s.trace ++ [event]) (hmeasure : event.IsMeasure)
    (hE : E event) : Frame E s s' := by
  refine ⟨hresults, [event], htrace, ?_⟩
  intro x hx
  rw [List.mem_singleton.1 hx]
  exact ⟨hmeasure, hE⟩

/-- A call into the adapter changes the world only. -/
theorem wp_adapter {α : Type} {m : Prog ω Throwable α}
    {Q : Post (Exec ω) Throwable α}
    (hok : ∀ a w, m s.world = (.ok a, w) → Q.ok a { s with world := w })
    (hthrows : ∀ e w, m s.world = (.throws e, w) → Q.throws e { s with world := w })
    (hdead : ∀ w, Q.dead { s with world := w }) : (adapter m).wp Q s := by
  unfold adapter
  rw [wp_zoom]
  unfold wp
  split
  · next a w h => exact hok a w h
  · next e w h => exact hthrows e w h
  · next w h => exact hdead w

@[simp]
theorem wp_record {event : ExecEvent ω} {Q : Post (Exec ω) Throwable Unit} :
    (record event).wp Q s ↔ Q.ok () { s with trace := s.trace ++ [event] } := Iff.rfl

@[simp]
theorem wp_nanoTime {Q : Post (Exec ω) Throwable Int64} :
    (nanoTime env).wp Q s ↔
      Q.ok (env.nanoTime s.readings) { s with readings := s.readings + 1 } := Iff.rfl

@[simp]
theorem wp_generateEntities {n : Nat} {Q : Post (Exec ω) Throwable (List Entity)} :
    (generateEntities env n).wp Q s ↔
      Q.ok (List.replicate n (env.random s.generated))
        { s with generated := s.generated + 1 } := Iff.rfl

def saveMeasure (env : ExecEnv) (r : Nat) : TimeMeasure :=
  (TimeMeasure.ofAction env.ids.saveEntitiesInTransaction (env.nanoTime r)).end'
    (env.nanoTime (r + 1))

def loadMeasure (env : ExecEnv) (r : Nat) : TimeMeasure :=
  (TimeMeasure.ofAction env.ids.loadEntities (env.nanoTime r)).end'
    (env.nanoTime (r + 1))

/-- What a pass that takes its first reading at `r` adds to `results`. -/
def passMeasures (env : ExecEnv) (r : Nat) : List TimeMeasure :=
  [saveMeasure env r, loadMeasure env (r + 2)]

variable {b : Benchmark ω} {W Ready : ω → Prop}

theorem wp_savePhase (h : Contract b W Ready E) (hready : Ready s.world)
    {results : List TimeMeasure} {entities : List Entity} :
    (savePhase env b results entities).wp
      { ok := fun results' s' =>
          results' = results ++ [saveMeasure env s.readings] ∧
            s'.readings = s.readings + 2 ∧ Ready s'.world ∧ Frame E s s'
        throws := fun e s' => b.Throws e ∧ Frame E s s'
        dead := fun s' => Frame E s s' } s := by
  simp only [savePhase, wp_bind, wp_getState, wp_nanoTime]
  refine wp_adapter ?_ ?_ ?_
  · intro _ w hrun
    obtain ⟨hready', hE⟩ := h.save hready hrun
    exact ⟨rfl, rfl, hready', Frame.event rfl rfl True.intro hE⟩
  · intro e w hrun
    exact ⟨.save hrun, Frame.refl rfl rfl⟩
  · intro w
    exact Frame.refl rfl rfl

theorem wp_loadPhase (h : Contract b W Ready E) (hready : Ready s.world)
    {results : List TimeMeasure} :
    (loadPhase env b results).wp
      { ok := fun results' s' =>
          results' = results ++ [loadMeasure env s.readings] ∧
            s'.readings = s.readings + 2 ∧ Ready s'.world ∧ Frame E s s'
        throws := fun e s' => b.Throws e ∧ Frame E s s'
        dead := fun s' => Frame E s s' } s := by
  simp only [loadPhase, wp_bind, wp_getState, wp_nanoTime]
  refine wp_adapter ?_ ?_ ?_
  · intro loaded w hrun
    obtain ⟨hready', hE⟩ := h.load hready hrun
    exact ⟨rfl, rfl, hready', Frame.event rfl rfl True.intro hE⟩
  · intro e w hrun
    exact ⟨.load hrun, Frame.refl rfl rfl⟩
  · intro w
    exact Frame.refl rfl rfl

theorem wp_runPass (h : Contract b W Ready E) (hW : W s.world)
    {results : List TimeMeasure} :
    (runPass env b results).wp
      { ok := fun results' s' =>
          results' = results ++ passMeasures env s.readings ∧
            s'.readings = s.readings + 4 ∧ W s'.world ∧ Frame E s s'
        throws := fun e s' => b.Throws e ∧ Frame E s s'
        dead := fun s' => Frame E s s' } s := by
  simp only [runPass, wp_bind]
  refine wp_adapter ?_ (fun e w hrun => ⟨.init hrun, Frame.refl rfl rfl⟩)
    (fun w => Frame.refl rfl rfl)
  intro _ w hinit
  simp only [wp_bind, wp_generateEntities]
  refine wp_mono (wp_savePhase h (h.init hW hinit)) ?_
    (fun e s' hsave => ⟨hsave.1, hsave.2.of_start rfl rfl⟩)
    (fun s' hframe => hframe.of_start rfl rfl)
  intro results' s₁ hpost
  obtain ⟨rfl, hreadings, hready, hframe⟩ := hpost
  have hframe : Frame E s s₁ := hframe.of_start rfl rfl
  simp only [wp_bind]
  refine wp_adapter ?_ (fun e w hrun => ⟨.clearCache hrun, hframe.of_end rfl rfl⟩)
    (fun w => hframe.of_end rfl rfl)
  intro _ w₁ hclear
  simp only [wp_bind]
  refine wp_mono (wp_loadPhase h (h.clearCache hready hclear)) ?_
    (fun e s' hload => ⟨hload.1, hframe.trans (hload.2.of_start rfl rfl)⟩)
    (fun s' hload => hframe.trans (hload.of_start rfl rfl))
  intro results'' s₂ hpost
  obtain ⟨rfl, hreadings', hready', hload⟩ := hpost
  have hframe' : Frame E s s₂ := hframe.trans (hload.of_start rfl rfl)
  simp only [wp_bind]
  refine wp_adapter ?_ (fun e w hrun => ⟨.dispose hrun, hframe'.of_end rfl rfl⟩)
    (fun w => hframe'.of_end rfl rfl)
  intro _ w₂ hdispose
  simp only at hreadings hreadings'
  refine ⟨?_, ?_, h.dispose hready' hdispose, hframe'.of_end rfl rfl⟩
  · rw [passMeasures, hreadings, List.append_assoc]
    rfl
  · show s₂.readings = s.readings + 4
    omega

/-! ## The passes of one benchmark -/

/-- What `n` passes that take their first reading at `r` add to `results`. -/
def runMeasures (env : ExecEnv) (r n : Nat) : List TimeMeasure :=
  (List.range n).flatMap fun i => passMeasures env (r + 4 * i)

theorem runMeasures_succ (r n : Nat) :
    runMeasures env r (n + 1) = passMeasures env r ++ runMeasures env (r + 4) n := by
  rw [runMeasures, List.range_succ_eq_map, List.flatMap_cons, List.flatMap_map,
    runMeasures]
  congr 1
  refine List.flatMap_congr fun i _ => ?_
  rw [show r + 4 * (i + 1) = r + 4 + 4 * i by omega]

theorem tagged_save (r n : Nat) :
    TimeMeasure.tagged env.ids.saveEntitiesInTransaction (runMeasures env r n) =
      (List.range n).map fun i => saveMeasure env (r + 4 * i) := by
  have hdistinct := env.ids.distinct.symm
  rw [TimeMeasure.tagged, runMeasures, List.filter_flatMap, List.map_eq_flatMap]
  refine List.flatMap_congr fun i _ => ?_
  simp [passMeasures, saveMeasure, loadMeasure, TimeMeasure.end',
    TimeMeasure.ofAction, hdistinct]

theorem tagged_load (r n : Nat) :
    TimeMeasure.tagged env.ids.loadEntities (runMeasures env r n) =
      (List.range n).map fun i => loadMeasure env (r + 4 * i + 2) := by
  have hdistinct := env.ids.distinct
  rw [TimeMeasure.tagged, runMeasures, List.filter_flatMap, List.map_eq_flatMap]
  refine List.flatMap_congr fun i _ => ?_
  simp [passMeasures, saveMeasure, loadMeasure, TimeMeasure.end',
    TimeMeasure.ofAction, hdistinct]

theorem wp_runPasses (h : Contract b W Ready E) (n : Nat) (hW : W s.world)
    {results : List TimeMeasure} :
    (runPasses env b n results).wp
      { ok := fun results' s' =>
          results' = results ++ runMeasures env s.readings n ∧
            s'.readings = s.readings + 4 * n ∧ W s'.world ∧ Frame E s s'
        throws := fun e s' => b.Throws e ∧ Frame E s s'
        dead := fun s' => Frame E s s' } s := by
  induction n generalizing s results with
  | zero =>
      refine ⟨?_, rfl, hW, Frame.refl rfl rfl⟩
      rw [runMeasures, List.range_zero, List.flatMap_nil, List.append_nil]
  | succ n ih =>
      simp only [runPasses, wp_bind]
      refine wp_mono (wp_runPass h hW) ?_ (fun e s' h => h) (fun s' h => h)
      intro results' s₁ hpost
      obtain ⟨rfl, hreadings, hW', hframe⟩ := hpost
      refine wp_mono (ih hW') ?_ (fun e s' h => ⟨h.1, hframe.trans h.2⟩)
        (fun s' h => hframe.trans h)
      intro results'' s₂ hpost
      obtain ⟨rfl, hreadings', hW'', hframe'⟩ := hpost
      refine ⟨?_, by omega, hW'', hframe.trans hframe'⟩
      rw [hreadings, List.append_assoc, ← runMeasures_succ]

/-! ## One benchmark -/

/-- The publications and stores of a trace. -/
def visible (trace : List (ExecEvent ω)) : List Instr :=
  trace.filterMap fun
    | .publishProgress name => some (.publishProgress name)
    | .put name _ => some (.put name)
    | .averaged _ _ | .saveMeasured _ _ _ _ | .loadMeasured _ _ _ _ => none

theorem visible_append (l l' : List (ExecEvent ω)) :
    visible (l ++ l') = visible l ++ visible l' := List.filterMap_append

theorem visible_measures {events : List (ExecEvent ω)}
    (h : ∀ event ∈ events, event.IsMeasure) : visible events = [] := by
  rw [visible, List.filterMap_eq_nil_iff]
  intro event hmem
  have hmeasure := h event hmem
  cases event with
  | saveMeasured name entities before after => rfl
  | loadMeasured name loaded before after => rfl
  | publishProgress name => exact hmeasure.elim
  | averaged name results => exact hmeasure.elim
  | put name medianResults => exact hmeasure.elim

/-- The events of one round of the benchmark loop, or of its beginning. -/
structure Round (env : ExecEnv) (E : ExecEvent ω → Prop) (r : Nat)
    (seen : List Instr) (events : List (ExecEvent ω)) : Prop where
  measured : ∀ event ∈ events, event.IsMeasure → E event
  averaged : ∀ name ms, .averaged name ms ∈ events → ms = runMeasures env r env.PASSES
  visible : visible events = seen

/-- The trace of a round that did not get past its passes. -/
theorem Frame.round {name : String} (r : Nat)
    (h : Frame E { s with trace := s.trace ++ [.publishProgress name] } s') :
    ∃ events, s'.trace = s.trace ++ events ∧
      Round env E r [.publishProgress name] events := by
  obtain ⟨events, htrace, hevents⟩ := h.events
  refine ⟨.publishProgress name :: events, ?_, ?_, ?_, ?_⟩
  · rw [htrace, List.append_assoc]
    rfl
  · intro event hmem hmeasure
    rcases List.mem_cons.1 hmem with rfl | hmem
    · exact hmeasure.elim
    · exact (hevents event hmem).2
  · intro name ms hmem
    rcases List.mem_cons.1 hmem with hmem | hmem
    · cases hmem
    · exact ((hevents _ hmem).1).elim
  · rw [← List.singleton_append, visible_append,
      visible_measures fun event hmem => (hevents event hmem).1]
    rfl

/-- … and of one that did. -/
theorem Round.stored {name : String} {r : Nat} {events : List (ExecEvent ω)}
    (h : Round env E r [.publishProgress name] events) (medianResults : List TimeMeasure) :
    Round env E r (visibleSteps [name]) (events ++
      [.averaged name (runMeasures env r env.PASSES), .put name medianResults,
        .publishProgress name]) := by
  refine ⟨?_, ?_, ?_⟩
  · intro event hmem hmeasure
    rcases List.mem_append.1 hmem with hmem | hmem
    · exact h.measured event hmem hmeasure
    · simp only [List.mem_cons, List.not_mem_nil, or_false] at hmem
      rcases hmem with rfl | rfl | rfl <;> exact hmeasure.elim
  · intro name' ms hmem
    rcases List.mem_append.1 hmem with hmem | hmem
    · exact h.averaged name' ms hmem
    · simp at hmem
      exact hmem.2
  · rw [visible_append, h.visible]
    rfl

/-- The two averages a benchmark's passes from reading `r` on give. -/
def Averages (env : ExecEnv) (r : Nat) (save load : TimeMeasure) : Prop :=
  TimeMeasure.ofMeasures env.ids.saveEntitiesInTransaction
      (runMeasures env r env.PASSES) = some save ∧
    TimeMeasure.ofMeasures env.ids.loadEntities
      (runMeasures env r env.PASSES) = some load

/-- With at least one pass no average divides by zero. -/
theorem exists_averages (hpasses : 1 ≤ env.PASSES) (r : Nat) :
    ∃ save load, Averages env r save load := by
  have hlt := env.passes_lt
  have hne : List.range env.PASSES ≠ [] := by
    rw [Ne, List.range_eq_nil]
    omega
  have hsave : ∃ tm, TimeMeasure.ofMeasures env.ids.saveEntitiesInTransaction
      (runMeasures env r env.PASSES) = some tm := by
    refine TimeMeasure.ofMeasures_isSome ?_ ?_
    · rw [tagged_save]
      simpa using hne
    · rw [tagged_save, List.length_map, List.length_range]
      omega
  have hload : ∃ tm, TimeMeasure.ofMeasures env.ids.loadEntities
      (runMeasures env r env.PASSES) = some tm := by
    refine TimeMeasure.ofMeasures_isSome ?_ ?_
    · rw [tagged_load]
      simpa using hne
    · rw [tagged_load, List.length_map, List.length_range]
      omega
  obtain ⟨save, hsave⟩ := hsave
  obtain ⟨load, hload⟩ := hload
  exact ⟨save, load, hsave, hload⟩

theorem wp_runBenchmark (h : Contract b W Ready E) (hpasses : 1 ≤ env.PASSES)
    (hW : W s.world) :
    (runBenchmark env b).wp
      { ok := fun _ s' => (∃ save load, Averages env s.readings save load ∧
            s'.results = s.results.insert b.getName [save, load]) ∧
          s'.readings = s.readings + 4 * env.PASSES ∧ W s'.world ∧
          ∃ events, s'.trace = s.trace ++ events ∧
            Round env E s.readings (visibleSteps [b.getName]) events
        throws := fun e s' => b.Throws e ∧ ∃ events, s'.trace = s.trace ++ events ∧
            Round env E s.readings [.publishProgress b.getName] events
        dead := fun s' => ∃ events, s'.trace = s.trace ++ events ∧
            Round env E s.readings [.publishProgress b.getName] events } s := by
  obtain ⟨save, load, haverages⟩ := exists_averages hpasses s.readings
  simp only [runBenchmark, publishProgress, wp_bind, wp_record]
  have hrun : (runPasses env b env.PASSES []).wp _ _ := wp_runPasses h env.PASSES
    (s := { s with trace := s.trace ++ [.publishProgress b.getName] }) hW
  refine wp_mono hrun ?_ (fun e s' hpass => ⟨hpass.1, hpass.2.round s.readings⟩)
    (fun s' hpass => hpass.round s.readings)
  intro results s₁ hpost
  obtain ⟨rfl, hreadings, hW', hframe⟩ := hpost
  obtain ⟨events, htrace, hround⟩ := hframe.round s.readings
  have hresults := hframe.results
  simp only [List.nil_append] at hreadings hresults ⊢
  simp only [wp_bind, wp_record, averageOf, haverages.1, haverages.2, wp_pure,
    putResults, wp_modifyState]
  refine ⟨⟨save, load, haverages, ?_⟩, hreadings, hW', _, ?_, hround.stored [save, load]⟩
  · rw [hresults]
  · simp only [htrace, List.append_assoc, List.cons_append, List.nil_append]

/-! ## The whole task -/

/-- Every measure was guaranteed, every average read the passes of one of the
first `n` benchmarks. -/
structure Traced (env : ExecEnv) (E : ExecEvent ω → Prop) (n : Nat)
    (trace : List (ExecEvent ω)) : Prop where
  measured : ∀ event ∈ trace, event.IsMeasure → E event
  averaged : ∀ name ms, .averaged name ms ∈ trace →
    ∃ k < n, ms = runMeasures env (4 * env.PASSES * k) env.PASSES

theorem Traced.round {n : Nat} {trace events : List (ExecEvent ω)} {seen : List Instr}
    (h : Traced env E n trace)
    (hround : Round env E (4 * env.PASSES * n) seen events) :
    Traced env E (n + 1) (trace ++ events) := by
  refine ⟨?_, ?_⟩
  · intro event hmem
    rcases List.mem_append.1 hmem with hmem | hmem
    · exact h.measured event hmem
    · exact hround.measured event hmem
  · intro name ms hmem
    rcases List.mem_append.1 hmem with hmem | hmem
    · obtain ⟨k, hk, hms⟩ := h.averaged name ms hmem
      exact ⟨k, by omega, hms⟩
    · exact ⟨n, by omega, hround.averaged name ms hmem⟩

def getNames (benchmarks : List (Benchmark ω)) : List String :=
  benchmarks.map Benchmark.getName

/-- The state after the rounds of these benchmarks. -/
structure AfterRounds (env : ExecEnv) (E : ExecEvent ω → Prop)
    (done : List (Benchmark ω)) (s : Exec ω) : Prop where
  readings : s.readings = 4 * env.PASSES * done.length
  traced : Traced env E done.length s.trace
  visible : visible s.trace = visibleSteps (getNames done)
  keys : ∀ name, name ∈ s.results ↔ name ∈ getNames done
  stored : ∀ k b, done[k]? = some b → ∃ save load,
    Averages env (4 * env.PASSES * k) save load ∧
      s.results.lookup b.getName = some [save, load]

/-- The state in which the round of `b` ended the task. -/
structure Interrupted (env : ExecEnv) (E : ExecEvent ω → Prop)
    (done : List (Benchmark ω)) (b : Benchmark ω) (s : Exec ω) : Prop where
  traced : Traced env E (done.length + 1) s.trace
  visible : visible s.trace =
    visibleSteps (getNames done) ++ [.publishProgress b.getName]

theorem AfterRounds.start (world : ω) : AfterRounds env E [] (Exec.start world) where
  readings := rfl
  traced := ⟨by simp [Exec.start], by simp [Exec.start]⟩
  visible := rfl
  keys name := by simp [Exec.start, getNames]
  stored k b hk := by simp at hk

theorem AfterRounds.snoc {done : List (Benchmark ω)} (h : AfterRounds env E done s)
    (hnew : b.getName ∉ getNames done)
    (hreadings : s'.readings = s.readings + 4 * env.PASSES)
    {events : List (ExecEvent ω)} (htrace : s'.trace = s.trace ++ events)
    (hround : Round env E s.readings (visibleSteps [b.getName]) events)
    {save load : TimeMeasure} (haverages : Averages env s.readings save load)
    (hresults : s'.results = s.results.insert b.getName [save, load]) :
    AfterRounds env E (done ++ [b]) s' := by
  have hlen : (done ++ [b]).length = done.length + 1 := by simp
  have hr := h.readings
  refine ⟨?_, ?_, ?_, ?_, ?_⟩
  · rw [hreadings, hr, hlen, Nat.mul_add, Nat.mul_one]
  · rw [htrace, hlen]
    rw [hr] at hround
    exact h.traced.round hround
  · rw [htrace, visible_append, h.visible, hround.visible]
    simp [visibleSteps, getNames]
  · intro name
    rw [hresults, AList.mem_insert, h.keys name, getNames, getNames, List.map_append,
      List.mem_append, or_comm]
    simp
  · intro k x hk
    rcases Nat.lt_or_ge k done.length with hlt | hge
    · rw [List.getElem?_append_left hlt] at hk
      obtain ⟨save', load', haverages', hlookup⟩ := h.stored k x hk
      have hne : x.getName ≠ b.getName := by
        intro heq
        exact hnew (heq ▸ List.mem_map_of_mem (List.mem_of_getElem? hk))
      exact ⟨save', load', haverages', by rw [hresults, AList.lookup_insert_ne hne, hlookup]⟩
    · rw [List.getElem?_append_right hge] at hk
      have hzero : k = done.length := by
        have := (List.getElem?_eq_some_iff.1 hk).1
        simp at this
        omega
      subst hzero
      rw [Nat.sub_self, List.getElem?_cons_zero] at hk
      cases hk
      rw [hr] at haverages
      exact ⟨save, load, haverages, by rw [hresults, AList.lookup_insert]⟩

/-- The task runs its benchmarks to the end, or one of its adapters ended it:
no exception comes from the executor itself. -/
theorem wp_doInBackground_keeps {benchmarks : List (Benchmark ω)} {world : ω}
    (hnodup : (getNames benchmarks).Nodup) (hpasses : 1 ≤ env.PASSES)
    (hcontract : ∀ b ∈ benchmarks, ∃ Ready, Contract b W Ready E) (hW : W world) :
    (doInBackground env benchmarks).wp
      { ok := fun _ s' => AfterRounds env E benchmarks s' ∧ W s'.world
        throws := fun e s' => ∃ done b rest, benchmarks = done ++ b :: rest ∧
          b.Throws e ∧ Interrupted env E done b s'
        dead := fun s' => ∃ done b rest, benchmarks = done ++ b :: rest ∧
          Interrupted env E done b s' } (Exec.start world) := by
  -- The benchmarks that are over are those before `rest`.
  let I := fun rest (s : Exec ω) => ∃ done, benchmarks = done ++ rest ∧ W s.world ∧
    AfterRounds env E done s
  refine wp_forEach (I := I) ?_ ?_ ⟨[], rfl, hW, AfterRounds.start world⟩
  · intro b rest s hI
    obtain ⟨done, hsplit, hworld, hafter⟩ := hI
    obtain ⟨Ready, hb⟩ := hcontract b (by simp [hsplit])
    have hnew : b.getName ∉ getNames done := by
      rw [hsplit, getNames, List.map_append, List.map_cons] at hnodup
      exact fun hmem => (List.nodup_append.1 hnodup).2.2 _ hmem _ List.mem_cons_self rfl
    have hinterrupted : ∀ {s' : Exec ω}, (∃ events, s'.trace = s.trace ++ events ∧
        Round env E s.readings [.publishProgress b.getName] events) →
        Interrupted env E done b s' := by
      intro s' hevents
      obtain ⟨events, htrace, hround⟩ := hevents
      refine ⟨?_, ?_⟩
      · rw [htrace]
        exact hafter.traced.round (hafter.readings ▸ hround)
      · rw [htrace, visible_append, hafter.visible, hround.visible]
    refine wp_mono (wp_runBenchmark hb hpasses hworld) ?_
      (fun e s' h => ⟨done, b, rest, hsplit, h.1, hinterrupted h.2⟩)
      (fun s' h => ⟨done, b, rest, hsplit, hinterrupted h⟩)
    intro _ s' hpost
    obtain ⟨⟨save, load, haverages, hresults⟩, hreadings, hworld', events, htrace, hround⟩ := hpost
    exact ⟨done ++ [b], by rw [hsplit, List.append_assoc]; rfl, hworld',
      hafter.snoc hnew hreadings htrace hround haverages hresults⟩
  · intro s hI
    obtain ⟨done, hsplit, hworld, hafter⟩ := hI
    rw [List.append_nil] at hsplit
    subst hsplit
    exact ⟨hafter, hworld⟩

theorem wp_doInBackground {benchmarks : List (Benchmark ω)} {world : ω}
    (hnodup : (getNames benchmarks).Nodup) (hpasses : 1 ≤ env.PASSES)
    (hcontract : ∀ b ∈ benchmarks, ∃ Ready, Contract b W Ready E) (hW : W world) :
    (doInBackground env benchmarks).wp
      { ok := fun _ s' => AfterRounds env E benchmarks s'
        throws := fun e s' => ∃ done b rest, benchmarks = done ++ b :: rest ∧
          b.Throws e ∧ Interrupted env E done b s'
        dead := fun s' => ∃ done b rest, benchmarks = done ++ b :: rest ∧
          Interrupted env E done b s' } (Exec.start world) :=
  wp_mono (wp_doInBackground_keeps hnodup hpasses hcontract hW) (fun _ _ h => h.1)
    (fun _ _ h => h) (fun _ h => h)

end

end OrmBenchmark.Ref
