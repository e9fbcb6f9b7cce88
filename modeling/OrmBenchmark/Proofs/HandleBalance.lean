import OrmBenchmark.Lib.Lts
import OrmBenchmark.Proofs.OnePass

/-!
# Handles over complete passes

The three adapters whose helper is opened here, in one process, pass after pass.
`noorm` and `ormlite` close the handle they opened. `greendao` keeps no helper
to close: its `dispose` clears the session's identity scope, and the handle
stays open on a file that the next `init` deletes.
-/

namespace OrmBenchmark.Ref

open OrmBenchmark.Lib OrmBenchmark.Lib.Prog

def helperBenchmarks (env : Android) : List (Benchmark World) :=
  [noOrmBenchmark env, greenDaoBenchmark env, ormLiteBenchmark env]

/-- A pass of the adapter with this number that returned. -/
def completePass (env : Android) (x : ExecEnv) (s : Exec World) (i : Nat) :
    Option (Exec World) :=
  match (helperBenchmarks env)[i]? with
  | none => none
  | some b =>
      match runPass x b [] s with
      | (.ok _, s') => some s'
      | _ => none

/-- A process that starts on a device that has been used before. -/
def oneProcess (env : Android) (x : ExecEnv) (w : World) : Lts (Exec World) Nat :=
  Lts.ofNext (Exec.start w.restart) (completePass env x)

/-- Nothing is open, and nothing was deleted while it was. -/
def HandlesBalanced (w : World) (s : Exec World) : Prop :=
  s.world.handles = ∅ ∧ ∃ deletions, s.world.deletions = w.deletions ++ deletions ∧
    ∀ d ∈ deletions, d.2 = false

/-- The pass is not one of `greendao`. -/
def NotGreenDao (env : Android) (_ : Exec World) (i : Nat) : Prop :=
  (helperBenchmarks env)[i]?.map Benchmark.getName ≠ some "Green Dao"

section

variable {env : Android} {x : ExecEnv} {w : World} {s s' : Exec World} {i : Nat}
  {b : Benchmark World}

theorem isOpen_of_handles {name : String} (h : w.handles = ∅) : w.isOpen name = false := by
  unfold World.isOpen
  split
  · rfl
  · rw [h]
    rfl

theorem insert_ne_empty {db file : Nat} {handles : AList fun _ : Nat => Nat} :
    handles.insert db file ≠ ∅ := by
  intro h
  have hmem : db ∈ handles.insert db file := (AList.mem_insert _).2 (Or.inl rfl)
  rw [h] at hmem
  exact AList.notMem_empty db hmem

theorem completePass_cases (hstep : completePass env x s i = some s') :
    ∃ b results, (helperBenchmarks env)[i]? = some b ∧
      runPass x b [] s = (.ok results, s') := by
  unfold completePass at hstep
  split at hstep
  · cases hstep
  · next b hb =>
      split at hstep
      · next results s₁ hrun =>
          cases hstep
          exact ⟨b, results, hb, hrun⟩
      · cases hstep

/-- The pass of a balanced adapter closes what it opened. -/
theorem HandlesBalanced.pass {name : String} (h : HandlesBalanced w s)
    (hhandles : s.world.handles = ∅ → s'.world.handles = ∅)
    (hdeletions : s'.world.deletions = s.world.deletions ++ [(name, s.world.isOpen name)]) :
    HandlesBalanced w s' := by
  obtain ⟨hempty, deletions, hbefore, hclosed⟩ := h
  refine ⟨hhandles hempty, deletions ++ [(name, false)], ?_, ?_⟩
  · rw [hdeletions, hbefore, isOpen_of_handles hempty, List.append_assoc]
  · intro d hd
    rcases List.mem_append.1 hd with hd | hd
    · exact hclosed d hd
    · rw [List.mem_singleton.1 hd]

theorem noOrm_balanced {results : List TimeMeasure} (hbetween : Between s.world)
    (h : HandlesBalanced w s) (hrun : runPass x (noOrmBenchmark env) [] s = (.ok results, s')) :
    HandlesBalanced w s' := by
  obtain ⟨_, w₁, rows, ⟨db, file, c, hpass, _⟩, hdispose⟩ :=
    ok_of_wp (wp_runPass_events noOrm_passes hbetween) hrun
  obtain ⟨_, hhandles, hdeletions⟩ := ok_of_wp hpass.wp_dispose hdispose
  refine h.pass (fun hempty => ?_) (hdeletions.trans hpass.deletions)
  rw [hhandles, hpass.handles, hempty, erase_insert_empty]

theorem ormLite_balanced {results : List TimeMeasure} (hbetween : Between s.world)
    (h : HandlesBalanced w s) (hrun : runPass x (ormLiteBenchmark env) [] s = (.ok results, s')) :
    HandlesBalanced w s' := by
  obtain ⟨_, w₁, rows, hpass, hdispose⟩ :=
    ok_of_wp (wp_runPass_events ormLite_passes hbetween) hrun
  obtain ⟨_, hhandles, hdeletions⟩ := ok_of_wp (wp_ormLite_dispose hpass) hdispose
  exact h.pass hhandles hdeletions

/-- Its handle is still open after the pass. -/
theorem greenDao_not_balanced {results : List TimeMeasure} (hbetween : Between s.world)
    (hrun : runPass x (greenDaoBenchmark env) [] s = (.ok results, s')) :
    ¬ HandlesBalanced w s' := by
  obtain ⟨_, w₁, rows, ⟨_, db, file, c, hready, _, _⟩, hdispose⟩ :=
    ok_of_wp (wp_runPass_events greenDao_passes hbetween) hrun
  have hclear := ok_of_wp hready.wp_greenDao_clear hdispose
  intro hbalanced
  obtain ⟨hempty, _⟩ := hbalanced
  rw [hclear.handles, hready.handles] at hempty
  exact insert_ne_empty hempty

theorem completePass_between (hbetween : Between s.world)
    (hb : b ∈ helperBenchmarks env) {results : List TimeMeasure}
    (hrun : runPass x b [] s = (.ok results, s')) : Between s'.world := by
  have hmem : b ∈ benchmarks env := List.mem_append_left
    [activeAndroidBenchmark env, activeAndroidSebbiaBenchmark env, sugarOrmBenchmark env,
      genericDaoBenchmark env] hb
  obtain ⟨swallows, Ready, hpasses, _⟩ := exists_passes hmem
  obtain ⟨_, w₁, rows, hready, hdispose⟩ := ok_of_wp (wp_runPass_events hpasses hbetween) hrun
  exact ok_of_wp (hpasses.dispose hready) hdispose

/-- In one process every pass closes what it opened, and none deletes what is
open, exactly if none of them is one of `greendao`. -/
theorem handlesBalanced_iff_notGreenDao {history : History (Exec World) Nat}
    (hrun : (oneProcess env x w).Run history s) :
    Lts.Always (HandlesBalanced w) history s ↔ history.Obeys (NotGreenDao env) := by
  refine hrun.always_iff (I := fun s => Between s.world) ?_ ?_
  · intro s hstart
    subst hstart
    exact ⟨Between.restart, rfl, [], (List.append_nil _).symm, nofun⟩
  · intro s i s' hbetween hbalanced hstep
    obtain ⟨b, results, hb, hpass⟩ := completePass_cases hstep
    have hmem : b ∈ helperBenchmarks env := List.mem_of_getElem? hb
    refine ⟨?_, fun _ => completePass_between hbetween hmem hpass⟩
    rw [NotGreenDao, hb, Option.map_some, Ne, Option.some_inj]
    simp only [helperBenchmarks, List.mem_cons, List.not_mem_nil, or_false] at hmem
    rcases hmem with rfl | rfl | rfl
    · exact iff_of_true (noOrm_balanced hbetween hbalanced hpass)
        (show "SQLiteOpenHelper" ≠ "Green Dao" by decide)
    · exact iff_of_false (greenDao_not_balanced hbetween hpass) (fun h => h rfl)
    · exact iff_of_true (ormLite_balanced hbetween hbalanced hpass)
        (show "ORMLite" ≠ "Green Dao" by decide)

/-- Two passes of `noorm` with one of `ormlite` between them. -/
theorem handlesBalanced_iff_notGreenDao_threePasses :
    ∃ env x w history s, (oneProcess env x w).Run history s ∧ history.length = 3 ∧
      Lts.Always (HandlesBalanced w) history s := by
  obtain ⟨history, s, hrun, htest⟩ := Lts.exists_run_of_replay
    (Exec.start World.empty.restart)
    (completePass (Android.answering fun _ => .ok) onePassEnv) [0, 2, 0]
    (fun history _ => decide (history.map Prod.snd = [0, 2, 0])) (by decide +kernel)
  rw [decide_eq_true_iff] at htest
  have hlength : history.length = 3 := by
    have := congrArg List.length htest
    rwa [List.length_map] at this
  refine ⟨_, _, World.empty, history, s, hrun, hlength,
    (handlesBalanced_iff_notGreenDao hrun).2 fun p hp => ?_⟩
  have hlabel : p.2 ∈ [0, 2, 0] := htest ▸ List.mem_map_of_mem hp
  simp only [List.mem_cons, List.not_mem_nil, or_false] at hlabel
  rcases hlabel with hlabel | hlabel | hlabel <;> rw [hlabel] <;> exact nofun

/-- One pass of `greendao` leaves a handle open, and the next deletes its file. -/
theorem handlesBalanced_broken_by_greenDao :
    ¬ ∀ env x w history s, (oneProcess env x w).Run history s →
      Lts.Always (HandlesBalanced w) history s := by
  intro hclaim
  obtain ⟨history, s, hrun, htest⟩ := Lts.exists_run_of_replay
    (Exec.start World.empty.restart)
    (completePass (Android.answering fun _ => .ok) onePassEnv) [1, 1]
    (fun _ s => decide (s.world.deletions = [("greendao", false), ("greendao", true)]))
    (by decide +kernel)
  rw [decide_eq_true_iff] at htest
  obtain ⟨_, deletions, hdeletions, hclosed⟩ :=
    (hclaim _ _ World.empty history s hrun).2
  rw [htest] at hdeletions
  have hopen : (("greendao", true) : String × Bool) ∈ deletions := by
    rw [← List.nil_append deletions, show ([] : List (String × Bool)) = World.empty.deletions
      from rfl, ← hdeletions]
    exact List.mem_cons_of_mem _ List.mem_cons_self
  cases hclosed _ hopen

end

end OrmBenchmark.Ref
