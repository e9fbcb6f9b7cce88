import OrmBenchmark.Proofs.SystemInv

/-!
# One run at a time

The click itself does not disable the button; the first progress message of
its run does, once it is heard as a start. From then on the button stays
disabled until a finish handler counts a complete map, so what can go wrong is
confined to two windows: a run of which no start has been heard yet, and the
moment between the last store of a run and its last message. A click inside
one of them is accepted next to an unfinished run, a click outside never is.
-/

namespace OrmBenchmark.Ref

open OrmBenchmark.Lib

/-- The latest run has results missing and no start of it has been heard. -/
def Unheard (registry : Registry) (s : System) : Prop :=
  ∃ older latest, s.executors = older ++ [latest] ∧
    (∃ name ∈ registry.names, name ∉ latest.results) ∧
    ∀ name, (older.length, .onBenchmarkStarted name) ∉ s.calls

/-- The latest run has one last message to publish. -/
def Unpublished (s : System) : Prop :=
  ∃ older latest name, s.executors = older ++ [latest] ∧
    latest.todo = [.publishProgress name]

/-- A click is made outside the two windows. -/
def ClicksOutside (registry : Registry) (s : System) (label : SystemLabel) : Prop :=
  label = .click → ¬ Unheard registry s ∧ ¬ Unpublished s

/-- A click is made when every run started so far is over. -/
def ClicksAlone (s : System) (label : SystemLabel) : Prop :=
  label = .click → ∀ e ∈ s.executors, e.finished

/-- What a heard start does to the button. -/
structure ButtonInv (registry : Registry) (s : System) : Prop where
  known : ∀ c ∈ s.calls, c.1 < s.executors.length
  heard : ∀ older latest name, s.executors = older ++ [latest] →
    (older.length, .onBenchmarkStarted name) ∈ s.calls →
    s.activity.startEnabled = true →
    ∀ name ∈ registry.names, name ∈ latest.results

section Steps

variable {registry : Registry} {s s' : System}

theorem ButtonInv.click (hinv : ButtonInv registry s)
    (hstep : s.click registry = some s') : ButtonInv registry s' := by
  obtain ⟨_, _, rfl⟩ := System.click_cases hstep
  refine ⟨?_, ?_⟩
  · intro c hc
    have hlt := hinv.known c hc
    rw [List.length_append, List.length_singleton]
    omega
  · intro older latest name hex hmem _
    -- No message of the new run has been delivered.
    obtain ⟨rfl, _⟩ := List.append_inj' hex rfl
    have hlt := hinv.known _ hmem
    omega

theorem ButtonInv.background {save load : TimeMeasure}
    (hinv : ButtonInv registry s) (hstep : s.background save load = some s') :
    ButtonInv registry s' := by
  obtain ⟨before, e, after, e', published, hes, hback, _, rfl⟩ :=
    System.background_step_cases hstep
  have hlen : (before ++ e' :: after).length = s.executors.length := by
    rw [hes]
    simp
  refine ⟨?_, ?_⟩
  · intro c hc
    have hlt := hinv.known c hc
    show c.1 < (before ++ e' :: after).length
    omega
  · intro older latest name hex hmem hen n hn
    have hex : before ++ e' :: after = older ++ [latest] := hex
    rcases List.eq_nil_or_concat after with hnil | ⟨after', y, hconcat⟩
    · -- The latest run took the step.
      subst hnil
      obtain ⟨rfl, hsame⟩ := List.append_inj' hex rfl
      rw [List.cons.injEq] at hsame
      obtain ⟨rfl, _⟩ := hsame
      exact background_results_mono hback
        (hinv.heard before e name hes hmem hen n hn)
    · rw [List.concat_eq_append] at hconcat
      subst hconcat
      have hex' : (before ++ e' :: after') ++ [y] = older ++ [latest] := by
        rw [← hex, List.append_assoc, List.cons_append]
      obtain ⟨rfl, hsame⟩ := List.append_inj' hex' rfl
      rw [List.cons.injEq] at hsame
      obtain ⟨rfl, _⟩ := hsame
      refine hinv.heard (before ++ e :: after') y name ?_ ?_ hen n hn
      · rw [hes, List.append_assoc, List.cons_append]
      · simpa using hmem

theorem ButtonInv.deliver (hinv : ButtonInv registry s)
    (hstep : s.deliver = some s') : ButtonInv registry s' := by
  obtain ⟨m, rest, e, _, _, he, hcases⟩ := System.deliver_cases hstep
  have hlt : m.executor < s.executors.length :=
    (List.getElem?_eq_some_iff.1 he).1
  have hknown : ∀ call, ∀ c ∈ s.calls ++ [(m.executor, call)],
      c.1 < s.executors.length := by
    intro call c hc
    rcases List.mem_append.1 hc with hc | hc
    · exact hinv.known c hc
    · rw [List.mem_singleton.1 hc]
      exact hlt
  rcases hcases with ⟨_, rfl⟩ | ⟨_, rfl⟩
  · refine ⟨hknown _, ?_⟩
    intro _ _ _ _ _ hen
    cases hen
  · refine ⟨hknown _, ?_⟩
    intro older latest name hex hmem hen
    rcases List.mem_append.1 hmem with hmem | hmem
    · exact hinv.heard older latest name hex hmem hen
    · rw [List.mem_singleton, Prod.mk.injEq] at hmem
      cases hmem.2

/-- The button comes back only with a complete map. -/
theorem ButtonInv.finish {keySet : List String} {write : FileWrite}
    (hsys : SystemInv registry s) (hinv : ButtonInv registry s)
    (hstep : s.finish registry keySet write = some s') :
    ButtonInv registry s' := by
  obtain ⟨_, k, results, hresults, _, rfl⟩ := System.finish_cases hstep
  obtain ⟨older, e, hex, rfl, rfl⟩ := hsys.results_eq hresults
  refine ⟨hinv.known, ?_⟩
  by_cases hsize : e.results.size = registry.names.length
  · intro older' latest _ hex' _ _
    have hmem : latest ∈ s.executors := by
      rw [show s.executors = older' ++ [latest] from hex']
      simp
    exact hsys.all_stored hex hsize latest hmem
  · rw [onBenchmarkFinished_incomplete s.activity _ _ _ hsize]
    exact hinv.heard

theorem ButtonInv.of_reachable {file : Option String}
    (hr : (System.lts registry file).Reachable s) : ButtonInv registry s := by
  have hboth : SystemInv registry s ∧ ButtonInv registry s := by
    refine hr.invariant (I := fun s => SystemInv registry s ∧ ButtonInv registry s)
      ?_ ?_
    · intro s hs
      cases hs
      exact ⟨SystemInv.start registry file, fun c hc => absurd hc List.not_mem_nil,
        fun _ _ _ _ hmem => absurd hmem List.not_mem_nil⟩
    · intro s label s' hboth hstep
      obtain ⟨hsys, hinv⟩ := hboth
      refine ⟨hsys.next hstep, ?_⟩
      cases label with
      | click => exact hinv.click hstep
      | background save load => exact hinv.background hstep
      | deliver => exact hinv.deliver hstep
      | list keySet =>
          obtain ⟨_, _, _, _, rfl⟩ := System.list_cases hstep
          exact ⟨hinv.known, hinv.heard⟩
      | finish keySet write => exact hinv.finish hsys hstep
  exact hboth.2

/-- Outside the two windows an enabled button means that every run is over. -/
theorem finished_iff_outside (hsys : SystemInv registry s)
    (hinv : ButtonInv registry s) (hen : s.activity.startEnabled = true) :
    (∀ e ∈ s.executors, e.finished) ↔ ¬ Unheard registry s ∧ ¬ Unpublished s := by
  constructor
  · intro hfin
    constructor
    · intro h
      obtain ⟨older, latest, hex, ⟨name, hname, hmissing⟩, _⟩ := h
      have hmem : latest ∈ s.executors := by simp [hex]
      obtain ⟨ph, hin⟩ := hsys.phases latest hmem
      exact hmissing (hin.stored_of_finished (hfin latest hmem) name hname)
    · intro h
      obtain ⟨older, latest, name, hex, htodo⟩ := h
      have hdone : latest.todo = [] := hfin latest (by simp [hex])
      rw [htodo] at hdone
      cases hdone
  · intro h e he
    obtain ⟨hheard, hpublished⟩ := h
    rcases List.eq_nil_or_concat s.executors with hnil | ⟨older, latest, hex⟩
    · rw [hnil] at he
      cases he
    · rw [List.concat_eq_append] at hex
      obtain ⟨ph, hin⟩ := hsys.phases latest (by simp [hex])
      have hall : ∀ name ∈ registry.names, name ∈ latest.results := by
        by_contra hmissing
        push Not at hmissing
        by_cases hstart : ∃ name, (older.length, .onBenchmarkStarted name) ∈ s.calls
        · obtain ⟨start, hcall⟩ := hstart
          obtain ⟨name, hname, hnot⟩ := hmissing
          exact hnot (hinv.heard older latest start hex hcall hen name hname)
        · exact hheard ⟨older, latest, hex, hmissing,
            fun name hcall => hstart ⟨name, hcall⟩⟩
      have hlatest : latest.finished := by
        rcases hin.of_complete registry.nodup hall with h | ⟨name, htodo⟩
        · exact h
        · exact absurd ⟨older, latest, name, hex, htodo⟩ hpublished
      have hstarted : latest ≠ Executor.execute registry.names := fun h =>
        execute_not_finished registry (h ▸ hlatest)
      rw [hex, List.mem_append, List.mem_singleton] at he
      rcases he with he | rfl
      · exact hsys.older_finished hex hstarted e he
      · exact hlatest

end Steps

/-- A run starts its tasks one at a time exactly when none of its clicks fell
into one of the two windows. -/
theorem clicksAlone_iff_outside {registry : Registry} {file : Option String}
    {h : History System SystemLabel} {s : System}
    (hrun : (System.lts registry file).Run h s) :
    h.Obeys ClicksAlone ↔ h.Obeys (ClicksOutside registry) := by
  refine forall₂_congr fun p hp => ?_
  obtain ⟨h', s', hbefore, hstep, _⟩ := hrun.before hp
  refine imp_congr_right fun hclick => ?_
  rw [hclick] at hstep
  obtain ⟨_, hen, _⟩ := System.click_cases hstep
  have hr : (System.lts registry file).Reachable p.1 := ⟨h', hbefore⟩
  exact finished_iff_outside (SystemInv.of_reachable hr) (ButtonInv.of_reachable hr) hen

instance (s : System) (label : SystemLabel) : Decidable (ClicksAlone s label) :=
  match label with
  | .click => decidable_of_iff (∀ e ∈ s.executors, e.finished) (by simp [ClicksAlone])
  | .background _ _ | .deliver | .list _ | .finish _ _ =>
      isTrue (fun h => by cases h)

/-- A whole run, heard of in time, and a second click after it. -/
theorem clicksAlone_iff_outside_secondRun :
    ∃ registry h s, (System.lts registry none).Run h s ∧
      s.executors.length = 2 ∧ h.Obeys (ClicksOutside registry) := by
  let registry : Registry := ⟨["ORMLite"], by decide, by decide⟩
  let tm : TimeMeasure := ⟨0, 0, 0, 0⟩
  obtain ⟨h, s, hrun, htest⟩ := Lts.exists_run_of_replay (System.start none)
    (System.next registry)
    [.click, .background tm tm, .deliver, .background tm tm, .background tm tm,
      .deliver, .list ["ORMLite"], .finish ["ORMLite"] .written, .click]
    (fun h s => decide (s.executors.length = 2) &&
      h.all fun p => decide (ClicksAlone p.1 p.2)) (by decide)
  rw [Bool.and_eq_true, decide_eq_true_iff, List.all_eq_true] at htest
  have halone : h.Obeys ClicksAlone := fun p hp =>
    of_decide_eq_true (htest.2 p hp)
  exact ⟨registry, h, s, hrun, htest.1, (clicksAlone_iff_outside hrun).1 halone⟩

/-- Two clicks in a row are both accepted. -/
theorem clicksAlone_broken_by_doubleClick :
    ¬ ∀ registry file h s, (System.lts registry file).Run h s →
      h.Obeys ClicksAlone := by
  intro hclaim
  obtain ⟨h, s, hrun, htest⟩ := Lts.exists_run_of_replay (System.start none)
    (System.next BENCHMARKS) [.click, .click]
    (fun h _ => h.any fun p => !decide (ClicksAlone p.1 p.2)) (by decide)
  obtain ⟨p, hp, hnot⟩ := List.any_eq_true.1 htest
  exact absurd (hclaim BENCHMARKS none h s hrun p hp) (by simpa using hnot)

end OrmBenchmark.Ref
