import Mathlib.Algebra.GroupWithZero.Nat
import OrmBenchmark.Lib.Progress
import OrmBenchmark.Proofs.Idle

/-!
# The system comes to rest

A click is the only step the user takes. Everything else is the system's own
and is paid for by the clicks: a benchmark publishes twice and stores once, a
message is delivered once, and a finish is listed and counted once. Publishing
is priced with the handling of the message it sends, so every step of the
system's own lowers the price of what is left.

The other half is that the system never gets stuck: as long as a task is not
over, a message is undelivered or a handler is not done, a step is possible. So
a system that is left alone takes at most that many steps to the state in
which, by what is known of idleness, the activity shows the latest run.
-/

namespace OrmBenchmark.Ref

open OrmBenchmark.Lib

def SystemLabel.isClick : SystemLabel → Bool
  | .click => true
  | .background _ _ | .deliver | .list _ | .finish _ _ => false

/-- No task left, nothing undelivered, the UI thread in the looper. -/
structure Quiet (s : System) : Prop where
  finished : ∀ e ∈ s.executors, e.finished
  queue : s.queue = []
  handling : s.handling = none

instance (s : System) : Decidable (Quiet s) :=
  decidable_of_iff ((∀ e ∈ s.executors, e.finished) ∧ s.queue = [] ∧ s.handling = none)
    ⟨fun h => ⟨h.1, h.2.1, h.2.2⟩, fun h => ⟨h.finished, h.queue, h.handling⟩⟩

/-! ## The price of what is left -/

/-- A message costs its delivery and, if it is a finish, the two steps of the
handler. -/
def messageWork : Nat := 3

def Instr.work : Instr → Nat
  | .publishProgress _ => messageWork + 1
  | .put _ => 1

def Executor.work (e : Executor) : Nat := (e.todo.map Instr.work).sum

def Handling.work : Handling → Nat
  | .entered => 2
  | .listed => 1

def System.work (s : System) : Nat :=
  (s.executors.map Executor.work).sum + messageWork * s.queue.length +
    (s.handling.map Handling.work).getD 0

/-- What a click adds. -/
def runWork (registry : Registry) : Nat := 9 * registry.names.length

theorem execute_work (names : List String) :
    (Executor.execute names).work = 9 * names.length := by
  induction names with
  | nil => rfl
  | cons name rest ih =>
      unfold Executor.work Executor.execute at ih ⊢
      rw [visibleSteps_cons]
      simp only [List.map_cons, List.sum_cons, List.length_cons, Instr.work, messageWork] at ih ⊢
      omega

/-- A step of a task is worth one, and the message it sends its handling. -/
theorem background_work {e e' : Executor} {save load : TimeMeasure} {published : Option String}
    (hback : e.background save load = some (e', published)) :
    e.work = e'.work + 1 + messageWork * published.toList.length := by
  unfold Executor.background at hback
  split at hback
  · cases hback
  · next name rest htodo =>
      cases hback
      unfold Executor.work
      rw [htodo, List.map_cons, List.sum_cons]
      simp only [Instr.work, Option.toList_some, List.length_singleton]
      omega
  · next name rest htodo =>
      cases hback
      unfold Executor.work
      rw [htodo, List.map_cons, List.sum_cons]
      simp only [Instr.work, Option.toList_none, List.length_nil]
      omega

section

variable {registry : Registry} {file : Option String} {s s' : System}

/-- Every step but a click lowers the price. -/
theorem System.work_lt {label : SystemLabel} (hstep : s.next registry label = some s')
    (hlabel : label.isClick = false) : s'.work < s.work := by
  cases label with
  | click => cases hlabel
  | background save load =>
      obtain ⟨before, e, after, e', published, hes, hback, _, rfl⟩ :=
        System.background_step_cases hstep
      have hwork := background_work hback
      have hlength : (published.map (Message.mk before.length)).toList.length =
          published.toList.length := by
        cases published <;> rfl
      unfold System.work
      simp only [hes, List.map_append, List.map_cons, List.sum_append, List.sum_cons,
        List.length_append, hlength, Nat.mul_add]
      omega
  | deliver =>
      obtain ⟨m, rest, e, hhandling, hqueue, _, ⟨_, rfl⟩ | ⟨_, rfl⟩⟩ :=
        System.deliver_cases hstep
      · simp only [System.work, hqueue, hhandling, List.length_cons, messageWork]
        omega
      · simp only [System.work, hqueue, hhandling, List.length_cons, messageWork,
          Option.map_none, Option.getD_none, Option.map_some, Option.getD_some, Handling.work]
        omega
  | list keySet =>
      obtain ⟨hhandling, k, results, _, rfl⟩ := System.list_cases hstep
      simp [System.work, hhandling, Handling.work]
  | finish keySet write =>
      obtain ⟨hhandling, k, results, _, _, rfl⟩ := System.finish_cases hstep
      simp [System.work, hhandling, Handling.work]

theorem System.work_click {label : SystemLabel} (hstep : s.next registry label = some s')
    (hlabel : label.isClick = true) : s'.work = s.work + runWork registry := by
  cases label with
  | click =>
      obtain ⟨_, _, rfl⟩ := System.click_cases hstep
      simp only [System.work, List.map_append, List.sum_append, List.map_singleton,
        List.sum_singleton, execute_work, runWork]
      omega
  | background save load => cases hlabel
  | deliver => cases hlabel
  | list keySet => cases hlabel
  | finish keySet write => cases hlabel

/-! ## The system never gets stuck -/

/-- What the looper holds belongs to executors that were started. -/
structure LooperInv (s : System) : Prop where
  sent : ∀ m ∈ s.queue, m.executor < s.executors.length
  held : s.handling ≠ none → s.executors ≠ []

theorem LooperInv.next {label : SystemLabel} (hinv : LooperInv s)
    (hstep : s.next registry label = some s') : LooperInv s' := by
  cases label with
  | click =>
      obtain ⟨_, _, rfl⟩ := System.click_cases hstep
      refine ⟨fun m hm => ?_, fun _ => by simp⟩
      show m.executor < (s.executors ++ [_]).length
      rw [List.length_append]
      exact Nat.lt_add_right _ (hinv.sent m hm)
  | background save load =>
      obtain ⟨before, e, after, e', published, hes, _, _, rfl⟩ :=
        System.background_step_cases hstep
      refine ⟨fun m hm => ?_, fun _ => by simp⟩
      have hlength : (before ++ e' :: after).length = s.executors.length := by
        rw [hes]
        simp
      show m.executor < (before ++ e' :: after).length
      rw [hlength]
      rcases List.mem_append.1 hm with hm | hm
      · exact hinv.sent m hm
      · cases published with
        | none => cases hm
        | some name =>
            rw [Option.map_some, Option.toList_some, List.mem_singleton] at hm
            rw [hm, hes]
            simp
  | deliver =>
      obtain ⟨m, rest, e, _, hqueue, he, hcases⟩ := System.deliver_cases hstep
      have hrest : ∀ x ∈ rest, x.executor < s.executors.length := fun x hx =>
        hinv.sent x (by rw [hqueue]; exact List.mem_cons_of_mem _ hx)
      have hne : s.executors ≠ [] := by
        intro hnil
        rw [hnil] at he
        cases he
      rcases hcases with ⟨_, rfl⟩ | ⟨_, rfl⟩
      · exact ⟨hrest, fun _ => hne⟩
      · exact ⟨hrest, fun _ => hne⟩
  | list keySet =>
      obtain ⟨hhandling, k, results, _, rfl⟩ := System.list_cases hstep
      exact ⟨hinv.sent, fun _ => hinv.held (by rw [hhandling]; exact Option.some_ne_none _)⟩
  | finish keySet write =>
      obtain ⟨hhandling, k, results, _, _, rfl⟩ := System.finish_cases hstep
      exact ⟨hinv.sent, fun h => absurd rfl h⟩

theorem LooperInv.of_reachable (hr : (System.lts registry file).Reachable s) :
    LooperInv s := by
  refine hr.invariant ?_ ?_
  · intro s hs
    cases hs
    exact ⟨fun m hm => absurd hm List.not_mem_nil, fun h => absurd rfl h⟩
  · intro s label s' hinv hstep
    exact hinv.next hstep

/-- A map for the activity to look at, once a run was started. -/
theorem SystemInv.exists_results (hinv : SystemInv registry s) (hne : s.executors ≠ []) :
    ∃ k results, s.results = some (k, results) := by
  have hcurrent := hinv.current
  rcases List.eq_nil_or_concat s.executors with hnil | ⟨older, e, hex⟩
  · exact absurd hnil hne
  · rw [List.concat_eq_append] at hex
    refine ⟨older.length, e.results, ?_⟩
    simp [System.results, hcurrent, hex]

theorem exists_backgroundStep (save load : TimeMeasure) :
    ∀ {es : List Executor}, (∃ e ∈ es, ¬ e.finished) →
      ∃ r, backgroundStep save load es = some r := by
  intro es
  induction es with
  | nil =>
      intro h
      obtain ⟨e, he, _⟩ := h
      cases he
  | cons e rest ih =>
      intro h
      obtain ⟨x, hx, hnot⟩ := h
      rw [backgroundStep]
      cases hback : e.background save load with
      | some r => exact ⟨_, rfl⟩
      | none =>
          rcases List.mem_cons.1 hx with rfl | hx
          · exact absurd (background_eq_none.1 hback) hnot
          · obtain ⟨r, hr⟩ := ih ⟨x, hx, hnot⟩
            exact ⟨_, by rw [hr]⟩

/-- At rest is quiet: each part of the system that has something to do can do
it. -/
theorem quiet_of_rests (hr : (System.lts registry file).Reachable s)
    (hrests : (System.lts registry file).Rests SystemLabel.isClick s) : Quiet s := by
  have hinv := SystemInv.of_reachable hr
  have hlooper := LooperInv.of_reachable hr
  have hstuck : ∀ label, label.isClick = false → s.next registry label = none := by
    intro label hlabel
    cases hstep : s.next registry label with
    | none => rfl
    | some s' =>
        rw [hrests label s' hstep] at hlabel
        cases hlabel
  have hhandling : s.handling = none := by
    cases hhandling : s.handling with
    | none => rfl
    | some where' =>
        obtain ⟨k, results, hresults⟩ :=
          hinv.exists_results (hlooper.held (by rw [hhandling]; exact Option.some_ne_none _))
        cases where' with
        | entered =>
            have hlist := hstuck (.list results.keys) rfl
            simp [System.next, System.list, hhandling, hresults] at hlist
        | listed =>
            have hfinish := hstuck (.finish results.keys .written) rfl
            simp [System.next, System.finish, hhandling, hresults] at hfinish
  have hqueue : s.queue = [] := by
    cases hqueue : s.queue with
    | nil => rfl
    | cons m rest =>
        have hlt := hlooper.sent m (by rw [hqueue]; exact List.mem_cons_self)
        have he := List.getElem?_eq_getElem hlt
        have hdeliver := hstuck .deliver rfl
        simp only [System.next, System.deliver, hhandling, hqueue, he] at hdeliver
        cases hcall : onProgressUpdate (s.executors[m.executor]).results m.name with
        | onBenchmarkStarted name => simp [hcall] at hdeliver
        | onBenchmarkFinished name results => simp [hcall] at hdeliver
  refine ⟨?_, hqueue, hhandling⟩
  intro e he
  by_contra hnot
  obtain ⟨r, hback⟩ := exists_backgroundStep ⟨0, 0, 0, 0⟩ ⟨0, 0, 0, 0⟩ ⟨e, he, hnot⟩
  have hbackground := hstuck (.background ⟨0, 0, 0, 0⟩ ⟨0, 0, 0, 0⟩) rfl
  simp [System.next, System.background, hback] at hbackground

/-- Every click started one run, and nothing else starts any. -/
theorem executors_length {history : History System SystemLabel}
    (hrun : (System.lts registry file).Run history s) :
    s.executors.length = Lts.externalSteps SystemLabel.isClick history := by
  refine Lts.Run.history_invariant
    (I := fun history s => s.executors.length = Lts.externalSteps SystemLabel.isClick history)
    ?_ ?_ hrun
  · intro s hs
    cases hs
    rfl
  · intro history s label s' _ hbefore hstep
    unfold Lts.externalSteps at hbefore ⊢
    rw [List.countP_append, List.countP_singleton, ← hbefore]
    cases label with
    | click =>
        obtain ⟨_, _, rfl⟩ := System.click_cases hstep
        exact List.length_append
    | background save load =>
        obtain ⟨before, e, after, e', published, hes, _, _, rfl⟩ :=
          System.background_step_cases hstep
        rw [hes]
        simp [SystemLabel.isClick]
    | deliver =>
        obtain ⟨_, _, _, _, _, _, ⟨_, rfl⟩ | ⟨_, rfl⟩⟩ := System.deliver_cases hstep
        · rfl
        · rfl
    | list keySet =>
        obtain ⟨_, _, _, _, rfl⟩ := System.list_cases hstep
        rfl
    | finish keySet write =>
        obtain ⟨_, _, _, _, _, rfl⟩ := System.finish_cases hstep
        rfl

/-- However its steps interleave, the system takes at most nine steps for each
benchmark of each click; it can always go on by itself to a state at rest; and
there, if it was ever clicked, the activity is idle and shows the CSV of the run
of the last click. -/
theorem comes_to_rest {history : History System SystemLabel}
    (hrun : (System.lts registry file).Run history s) :
    Lts.ownSteps SystemLabel.isClick history ≤
        9 * registry.names.length * Lts.externalSteps SystemLabel.isClick history ∧
      (∃ history' s', (System.lts registry file).Run (history ++ history') s' ∧
        (∀ p ∈ history', p.2.isClick = false) ∧
        (System.lts registry file).Rests SystemLabel.isClick s') ∧
      ((System.lts registry file).Rests SystemLabel.isClick s →
        Quiet s ∧ (0 < Lts.externalSteps SystemLabel.isClick history →
          ∃ older latest, s.executors = older ++ [latest] ∧
            older.length + 1 = Lts.externalSteps SystemLabel.isClick history ∧
            Shows registry s.activity older.length latest)) := by
  have hlower : ∀ s label s', (System.lts registry file).step s label s' →
      label.isClick = false → s'.work < s.work := fun _ _ _ hstep hlabel =>
    System.work_lt hstep hlabel
  refine ⟨?_, hrun.exists_rest hlower, fun hrests => ?_⟩
  · have hinit : ∀ s, (System.lts registry file).init s → s.work = 0 := by
      intro s hs
      cases hs
      rfl
    have hclick : ∀ s label s', (System.lts registry file).step s label s' →
        label.isClick = true → s'.work ≤ s.work + runWork registry := fun _ _ _ hstep hlabel =>
      Nat.le_of_eq (System.work_click hstep hlabel)
    have hbound := hrun.ownSteps_le hinit hlower hclick
    unfold runWork at hbound
    omega
  · have hquiet := quiet_of_rests ⟨history, hrun⟩ hrests
    refine ⟨hquiet, fun hclicked => ?_⟩
    have hlength := executors_length hrun
    have hstarted : s.executors ≠ [] := List.length_pos_iff.1 (by omega)
    obtain ⟨older, latest, hex, hshows⟩ :=
      (SystemInv.of_reachable ⟨history, hrun⟩).quiet_shows hstarted hquiet.finished hquiet.queue
        hquiet.handling
    refine ⟨older, latest, hex, ?_, hshows⟩
    rw [← hlength, hex, List.length_append, List.length_singleton]

/-- Two clicks on one benchmark: fifteen steps of eighteen. -/
theorem comes_to_rest_overlappingRuns :
    ∃ registry history s, (System.lts registry none).Run history s ∧
      Lts.externalSteps SystemLabel.isClick history = 2 ∧
      Lts.ownSteps SystemLabel.isClick history = 15 ∧
      Lts.ownSteps SystemLabel.isClick history ≤ 9 * registry.names.length * 2 ∧
      ∃ history' s', (System.lts registry none).Run (history ++ history') s' ∧
        (System.lts registry none).Rests SystemLabel.isClick s' := by
  let registry : Registry := ⟨["ORMLite"], by decide, by decide⟩
  obtain ⟨history, s, hrun, htest⟩ := Lts.exists_run_of_replay (System.start none)
    (System.next registry) overlappingRuns
    (fun history _ => decide (Lts.externalSteps SystemLabel.isClick history = 2 ∧
      Lts.ownSteps SystemLabel.isClick history = 15)) (by decide)
  obtain ⟨hclicks, hown⟩ := of_decide_eq_true htest
  obtain ⟨hbound, ⟨history', s', hrun', _, hrests⟩, _⟩ := comes_to_rest hrun
  rw [hclicks] at hbound
  exact ⟨registry, history, s, hrun, hclicks, hown, hbound, history', s', hrun', hrests⟩

end

end OrmBenchmark.Ref
