import OrmBenchmark.Proofs.Background
import OrmBenchmark.Proofs.OrmLiteContract

/-!
# One pass of an adapter

The executor's pass over an adapter of the list, however it ends: what it put
into the trace, and in which state it disposed of the adapter if it got there.
A pass whose library calls all returned loads the entities it saved, after
those its `init` had left.
-/

namespace OrmBenchmark.Ref

open OrmBenchmark.Lib OrmBenchmark.Lib.Prog

/-- What `init` leaves of the entities an earlier pass stored. -/
def stale (env : Android) (benchmark : String) (w : World) : List Entity :=
  if benchmark = "ActiveAndroid" then w.stored env "activeandroid" else []

/-- The events of a pass that found these entities, as far as it got. -/
inductive PassEvents (name : String) (rows : List Entity) : List (ExecEvent World) → Prop
  | nothing : PassEvents name rows []
  | saved (entities : List Entity) (before after : World) :
      PassEvents name rows [.saveMeasured name entities before after]
  | loaded (entities : List Entity) (before after : World) (loaded : Option (List Entity))
      (before' after' : World)
      (h : after'.failures = before.failures → loaded = some (rows ++ entities)) :
      PassEvents name rows
        [.saveMeasured name entities before after, .loadMeasured name loaded before' after']

/-- … and the trace it makes of this one. -/
def TracedPass (name : String) (rows : List Entity) (trace trace' : List (ExecEvent World)) :
    Prop :=
  ∃ events, trace' = trace ++ events ∧ PassEvents name rows events

/-- One entity a pass, every clock reading alike. -/
def onePassEnv : ExecEnv where
  nanoTime _ := 0
  random _ := ⟨some "a", some "b", some "c", 1, 2⟩
  ids := ⟨10, 11, by decide⟩
  ENTITIES_COUNT := 1
  PASSES := 1
  passes_lt := by decide

section

variable {env : Android} {x : ExecEnv} {b : Benchmark World} {initial : World → List Entity}
  {swallows : Prop} {Ready : World → World → List Entity → Prop} {s s' : Exec World}
  {w w' : World} {well ill : Prop}

/-- Every adapter of the list keeps the contract. -/
theorem exists_passes (hb : b ∈ benchmarks env) :
    ∃ swallows Ready, Passes env b (stale env b.getName) swallows Ready ∧
      (swallows → b.getName = "ORMLite") := by
  simp only [benchmarks, List.mem_cons, List.not_mem_nil, or_false] at hb
  rcases hb with rfl | rfl | rfl | rfl | rfl | rfl | rfl
  · exact ⟨_, _, noOrm_passes, nofun⟩
  · exact ⟨_, _, greenDao_passes, nofun⟩
  · exact ⟨_, _, ormLite_passes, fun _ => rfl⟩
  · exact ⟨_, _, activeAndroid_passes, nofun⟩
  · exact ⟨_, _, activeAndroidSebbia_passes, nofun⟩
  · exact ⟨_, _, sugar_passes, nofun⟩
  · exact ⟨_, _, genericDao_passes, nofun⟩

theorem Went.failures_le (h : Went swallows w w' well ill) : w.failures ≤ w'.failures := by
  rcases h with ⟨hf, _⟩ | ⟨_, hf, _⟩ <;> omega

theorem Went.well_of_le (h : Went swallows w w' well ill) (hf : w'.failures ≤ w.failures) :
    well := by
  rcases h with ⟨_, hwell⟩ | ⟨_, hlt, _⟩
  · exact hwell
  · omega

/-- What is stored after a save, whichever way it went. -/
theorem Went.exists_rows {R : List Entity → Prop} {rows rows' : List Entity}
    (h : Went swallows w w' (R rows') (R rows)) :
    ∃ stored, R stored ∧ w.failures ≤ w'.failures ∧
      (w'.failures ≤ w.failures → stored = rows') := by
  rcases h with ⟨hf, hR⟩ | ⟨_, hf, hR⟩
  · exact ⟨rows', hR, by omega, fun _ => rfl⟩
  · exact ⟨rows, hR, by omega, fun hle => by omega⟩

theorem wp_runPass_events (h : Passes env b initial swallows Ready) (hbetween : Between s.world)
    {results : List TimeMeasure} :
    (runPass x b results).wp
      { ok := fun _ s' => TracedPass b.getName (initial s.world) s.trace s'.trace ∧
          ∃ w rows, Ready s.world w rows ∧ b.dispose w = (.ok (), s'.world)
        throws := fun _ s' => TracedPass b.getName (initial s.world) s.trace s'.trace
        dead := fun s' => TracedPass b.getName (initial s.world) s.trace s'.trace } s := by
  have hnothing : TracedPass b.getName (initial s.world) s.trace s.trace :=
    ⟨[], (List.append_nil _).symm, .nothing⟩
  simp only [runPass, wp_bind]
  refine wp_adapter (fun _ w₁ hinit => ?_) (fun _ _ _ => hnothing) (fun _ => hnothing)
  have hready := ok_of_wp (h.init hbetween) hinit
  simp only [savePhase, wp_bind, wp_generateEntities, wp_getState, wp_nanoTime]
  generalize List.replicate x.ENTITIES_COUNT (x.random s.generated) = entities
  refine wp_adapter (fun _ w₂ hsave => ?_) (fun _ _ _ => hnothing) (fun _ => hnothing)
  obtain ⟨stored, hready₂, hf₂, hstored⟩ := (ok_of_wp (h.save hready) hsave).exists_rows
  simp only [wp_bind, wp_nanoTime, wp_getState, wp_record, wp_pure]
  have hsaved : TracedPass b.getName (initial s.world) s.trace
      (s.trace ++ [.saveMeasured b.getName entities w₁ w₂]) := ⟨_, rfl, .saved entities w₁ w₂⟩
  refine wp_adapter (fun _ w₃ hclear => ?_) (fun _ _ _ => hsaved) (fun _ => hsaved)
  obtain ⟨hf₃, hready₃⟩ := ok_of_wp (h.clearCache hready₂) hclear
  simp only [loadPhase, wp_bind, wp_nanoTime, wp_getState]
  refine wp_adapter (fun loaded w₄ hload => ?_) (fun _ _ _ => hsaved) (fun _ => hsaved)
  obtain ⟨hready₄, hloaded⟩ := ok_of_wp (h.load hready₃) hload
  simp only [wp_bind, wp_nanoTime, wp_getState, wp_record, wp_pure]
  have hboth : TracedPass b.getName (initial s.world) s.trace
      (s.trace ++ [.saveMeasured b.getName entities w₁ w₂] ++
        [.loadMeasured b.getName loaded w₃ w₄]) := by
    refine ⟨_, List.append_assoc _ _ _, .loaded entities w₁ w₂ loaded w₃ w₄ fun hf => ?_⟩
    have hf₄ := hloaded.failures_le
    rw [hloaded.well_of_le (by omega), hstored (by omega)]
  refine wp_adapter (fun _ w₅ hdispose => ?_) (fun _ _ _ => hboth) (fun _ => hboth)
  exact ⟨hboth, w₄, stored, hready₄, hdispose⟩

end

end OrmBenchmark.Ref
