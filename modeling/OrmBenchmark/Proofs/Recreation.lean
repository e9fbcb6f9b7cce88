import OrmBenchmark.Ref.Recreation
import OrmBenchmark.Proofs.ResultsList

/-!
# Each activity lives as if it were alone

The executors an activity started, the messages they published and the calls it
was made are a system of one activity, and a step of the process is a step of
that system or does not concern it: the serial executor takes its oldest task
before its younger ones, and the looper keeps its messages in their order. So
what holds of one activity on its own holds of every activity of the process,
up to the moment it is collected, after which it does not change any more.
-/

namespace OrmBenchmark.Ref

open OrmBenchmark.Lib

/-- The part of the process that an activity and its executors are. -/
def Process.view (j : Nat) (a : Activity) (s : Process) : System where
  executors := executorsOf j s.tasks
  queue := s.queue.filterMap fun p => if p.listener = j then some p.message else none
  handling := s.handling.bind fun h => if h.1 = j then some h.2 else none
  calls := s.calls.filterMap fun c => if c.1 = j then some c.2 else none
  activity := a

/-- Everything belongs to an activity that was created, and what is collected is
not in use. -/
structure ProcessInv (s : Process) : Prop where
  created : s.activities ≠ []
  tasks : ∀ t ∈ s.tasks, t.listener < s.activities.length
  queue : ∀ p ∈ s.queue, p.listener < s.activities.length
  calls : ∀ c ∈ s.calls, c.1 < s.activities.length
  handling : ∀ h ∈ s.handling, h.1 < s.activities.length ∧ h.1 ∉ s.collected
  collected : ∀ j ∈ s.collected, j < s.current

/-! ## The tasks of one activity -/

section Tasks

variable {j k : Nat} {tasks tasks' : List Task} {save load : TimeMeasure}
  {published : Option String}

theorem executorsOf_cons (t : Task) (rest : List Task) :
    executorsOf j (t :: rest) =
      if t.listener = j then t.executor :: executorsOf j rest else executorsOf j rest := by
  unfold executorsOf
  by_cases h : t.listener = j
  · simp [h]
  · simp [h]

theorem executorsOf_append (before after : List Task) :
    executorsOf j (before ++ after) = executorsOf j before ++ executorsOf j after := by
  rw [executorsOf, List.filter_append, List.map_append]
  rfl

theorem executorsOf_eq_nil (h : ∀ t ∈ tasks, t.listener ≠ j) : executorsOf j tasks = [] := by
  rw [executorsOf, List.map_eq_nil_iff, List.filter_eq_nil_iff]
  intro t ht
  simpa using h t ht

/-- The step of the serial executor is one of the activity whose task takes it. -/
theorem stepTasks_cases (hstep : stepTasks save load tasks = some (tasks', j, k, published)) :
    backgroundStep save load (executorsOf j tasks) = some (executorsOf j tasks', k, published) ∧
      (∀ i, i ≠ j → executorsOf i tasks' = executorsOf i tasks) ∧
      j ∈ tasks.map Task.listener ∧ tasks'.map Task.listener = tasks.map Task.listener := by
  induction tasks generalizing tasks' j k published with
  | nil => cases hstep
  | cons t rest ih =>
      rw [stepTasks] at hstep
      cases hback : t.executor.background save load with
      | some r =>
          obtain ⟨e', p⟩ := r
          rw [hback] at hstep
          cases hstep
          refine ⟨?_, ?_, List.mem_cons_self, rfl⟩
          · rw [executorsOf_cons, executorsOf_cons, if_pos rfl, if_pos rfl, backgroundStep, hback]
          · intro i hi
            rw [executorsOf_cons, executorsOf_cons, if_neg (Ne.symm hi), if_neg (Ne.symm hi)]
      | none =>
          rw [hback] at hstep
          cases hrest : stepTasks save load rest with
          | none =>
              rw [hrest] at hstep
              cases hstep
          | some r =>
              obtain ⟨rest', j', k', p⟩ := r
              rw [hrest] at hstep
              cases hstep
              obtain ⟨hown, hothers, hmem, hlisteners⟩ := ih hrest
              refine ⟨?_, ?_, List.mem_cons_of_mem _ hmem, ?_⟩
              · rw [executorsOf_cons, executorsOf_cons]
                by_cases hj : t.listener = j
                · -- Its task is over and stands before the one that takes the step.
                  rw [if_pos hj, if_pos hj, if_pos hj, backgroundStep, hback]
                  simp only [hown]
                · rw [if_neg hj, if_neg hj, if_neg hj, hown]
              · intro i hi
                rw [executorsOf_cons, executorsOf_cons, hothers i hi]
              · rw [List.map_cons, List.map_cons, hlisteners]

end Tasks

/-! ## A message in a system of one activity -/

section Deliver

variable {s : System} {m : Message} {rest : List Message} {e : Executor}

theorem System.deliver_of_started (hhandling : s.handling = none) (hqueue : s.queue = m :: rest)
    (he : s.executors[m.executor]? = some e) (hnew : m.name ∉ e.results) :
    s.deliver = some { s with
      queue := rest
      calls := s.calls ++ [(m.executor, .onBenchmarkStarted m.name)]
      activity := s.activity.onBenchmarkStarted m.name } := by
  simp only [System.deliver, hhandling, hqueue, he, onProgressUpdate, if_neg hnew]

theorem System.deliver_of_finished (hhandling : s.handling = none) (hqueue : s.queue = m :: rest)
    (he : s.executors[m.executor]? = some e) (hmem : m.name ∈ e.results) :
    s.deliver = some { s with
      queue := rest
      calls := s.calls ++ [(m.executor,
        .onBenchmarkFinished m.name (e.results.lookup m.name))]
      handling := some .entered } := by
  simp only [System.deliver, hhandling, hqueue, he, onProgressUpdate, if_pos hmem]

end Deliver

/-! ## What one step does -/

section Steps

variable {registry : Registry} {file : Option String} {s s' : Process} {j : Nat} {a : Activity}

theorem Process.click_cases (hstep : s.click registry = some s') :
    ∃ a, s.handling = none ∧ s.activities[s.current]? = some a ∧ a.startEnabled = true ∧
      s' = { s with
        tasks := s.tasks ++ [⟨s.current, Executor.execute registry.names⟩]
        activities := s.activities.set s.current
          { a with executor := some (executorsOf s.current s.tasks).length } } := by
  unfold Process.click at hstep
  split at hstep
  · next a hhandling ha =>
      split at hstep
      · next henabled =>
          cases hstep
          exact ⟨a, hhandling, ha, henabled, rfl⟩
      · cases hstep
  · cases hstep

theorem Process.recreate_cases (hstep : s.recreate = some s') :
    s.handling = none ∧
      s' = { s with activities := s.activities ++ [Activity.onCreate s.file] } := by
  unfold Process.recreate at hstep
  split at hstep
  · next hhandling =>
      cases hstep
      exact ⟨hhandling, rfl⟩
  · cases hstep

theorem Process.collect_cases (hstep : s.collect j = some s') :
    s.Collectable j ∧ s' = { s with collected := j :: s.collected } := by
  unfold Process.collect at hstep
  split at hstep
  · next h =>
      cases hstep
      exact ⟨h, rfl⟩
  · cases hstep

theorem Process.background_cases {save load : TimeMeasure}
    (hstep : s.background save load = some s') :
    ∃ tasks j k published, stepTasks save load s.tasks = some (tasks, j, k, published) ∧
      s' = { s with
        tasks := tasks
        queue := s.queue ++ (published.map fun name => Posted.mk j ⟨k, name⟩).toList } := by
  unfold Process.background at hstep
  split at hstep
  · cases hstep
  · next tasks j k published hone =>
      cases hstep
      exact ⟨tasks, j, k, published, hone, rfl⟩

/-- A message is dropped, or taken as one activity alone would take it. -/
theorem Process.deliver_cases (hstep : s.deliver = some s') :
    ∃ p rest, s.handling = none ∧ s.queue = p :: rest ∧
      ((p.listener ∈ s.collected ∧ s' = { s with queue := rest }) ∨
        (p.listener ∉ s.collected ∧ ∃ a e, s.activities[p.listener]? = some a ∧
          (executorsOf p.listener s.tasks)[p.message.executor]? = some e ∧
          ((p.message.name ∉ e.results ∧
              s' = { s with
                queue := rest
                calls := s.calls ++ [(p.listener, p.message.executor,
                  .onBenchmarkStarted p.message.name)]
                activities :=
                  s.activities.set p.listener (a.onBenchmarkStarted p.message.name) }) ∨
            (p.message.name ∈ e.results ∧
              s' = { s with
                queue := rest
                calls := s.calls ++ [(p.listener, p.message.executor,
                  .onBenchmarkFinished p.message.name (e.results.lookup p.message.name))]
                handling := some (p.listener, .entered) })))) := by
  unfold Process.deliver at hstep
  split at hstep
  · next p rest hhandling hqueue =>
      refine ⟨p, rest, hhandling, hqueue, ?_⟩
      split at hstep
      · next hcollected =>
          cases hstep
          exact Or.inl ⟨hcollected, rfl⟩
      · next hcollected =>
          refine Or.inr ⟨hcollected, ?_⟩
          split at hstep
          · next a e ha he =>
              refine ⟨a, e, ha, he, ?_⟩
              by_cases hmem : p.message.name ∈ e.results
              · rw [onProgressUpdate, if_pos hmem] at hstep
                cases hstep
                exact Or.inr ⟨hmem, rfl⟩
              · rw [onProgressUpdate, if_neg hmem] at hstep
                cases hstep
                exact Or.inl ⟨hmem, rfl⟩
          · cases hstep
  · cases hstep

theorem Process.deliverCollected_cases (hstep : s.deliverCollected = some s') :
    ∃ p rest, s.queue = p :: rest ∧ s.Collectable p.listener ∧
      s' = { s with
        queue := rest
        collected := p.listener :: s.collected
        crashed := true } := by
  unfold Process.deliverCollected at hstep
  split at hstep
  · next p rest hhandling hqueue =>
      split at hstep
      · next h =>
          cases hstep
          exact ⟨p, rest, hqueue, h, rfl⟩
      · cases hstep
  · cases hstep

theorem Process.list_cases {keySet : List String} (hstep : s.list keySet = some s') :
    ∃ j a k results, s.handling = some (j, .entered) ∧ s.activities[j]? = some a ∧
      s.resultsOf j a = some (k, results) ∧ keySet.Perm results.keys ∧
      s' = { s with
        handling := some (j, .listed)
        activities := s.activities.set j (a.updateResultsList results keySet) } := by
  unfold Process.list at hstep
  split at hstep
  · next j hhandling =>
      split at hstep
      · cases hstep
      · next a ha =>
          split at hstep
          · cases hstep
          · next k results hresults =>
              split at hstep
              · next hperm =>
                  cases hstep
                  exact ⟨j, a, k, results, hhandling, ha, hresults, hperm, rfl⟩
              · cases hstep
  · cases hstep

theorem Process.finish_cases {keySet : List String} {write : FileWrite}
    (hstep : s.finish registry keySet write = some s') :
    ∃ j a k results, s.handling = some (j, .listed) ∧ s.activities[j]? = some a ∧
      s.resultsOf j a = some (k, results) ∧ keySet.Perm results.keys ∧
      s' = { s with
        handling := none
        activities := s.activities.set j
          (a.onBenchmarkFinished registry.names.length k results keySet write)
        file := if results.size = registry.names.length then
          (a.onBenchmarkFinished registry.names.length k results keySet write).file
          else s.file } := by
  unfold Process.finish at hstep
  split at hstep
  · next j hhandling =>
      split at hstep
      · cases hstep
      · next a ha =>
          split at hstep
          · cases hstep
          · next k results hresults =>
              split at hstep
              · next hperm =>
                  cases hstep
                  exact ⟨j, a, k, results, hhandling, ha, hresults, hperm, rfl⟩
              · cases hstep
  · cases hstep

theorem Process.next_alive {label : ProcessLabel} (hstep : s.next registry label = some s') :
    s.crashed = false := by
  unfold Process.next at hstep
  split at hstep
  · cases hstep
  · next h => simpa using h

/-! ## What belongs to whom -/

theorem ProcessInv.start (file : Option String) : ProcessInv (Process.start file) where
  created := List.cons_ne_nil _ _
  tasks _ ht := absurd ht List.not_mem_nil
  queue _ hp := absurd hp List.not_mem_nil
  calls _ hc := absurd hc List.not_mem_nil
  handling h hh := absurd hh (Option.not_mem_none h)
  collected _ hj := absurd hj List.not_mem_nil

theorem ProcessInv.current_lt (hinv : ProcessInv s) : s.current < s.activities.length := by
  have hpos := List.length_pos_iff.2 hinv.created
  unfold Process.current
  omega

/-- Nothing but what a step says about a changed activity moves. -/
theorem ProcessInv.set (hinv : ProcessInv s) (i : Nat) (a' : Activity) :
    ProcessInv { s with activities := s.activities.set i a' } := by
  have hlength : (s.activities.set i a').length = s.activities.length := List.length_set
  refine ⟨?_, ?_, ?_, ?_, ?_, ?_⟩
  · intro hnil
    exact hinv.created ((List.set_eq_nil_iff _ _).1 hnil)
  · simp only [hlength]
    exact hinv.tasks
  · simp only [hlength]
    exact hinv.queue
  · simp only [hlength]
    exact hinv.calls
  · simp only [hlength]
    exact hinv.handling
  · simp only [Process.current, hlength]
    exact hinv.collected

/-- What is collected is nobody's listener any more. -/
theorem ProcessInv.collects {j : Nat} (hinv : ProcessInv s) (hj : s.Collectable j) :
    ProcessInv { s with collected := j :: s.collected } := by
  obtain ⟨hlt, _, hfree⟩ := hj
  refine ⟨hinv.created, hinv.tasks, hinv.queue, hinv.calls, ?_, ?_⟩
  · intro h hh
    obtain ⟨hbound, hnot⟩ := hinv.handling h hh
    refine ⟨hbound, ?_⟩
    rw [List.mem_cons, not_or]
    refine ⟨fun heq => hfree ?_, hnot⟩
    rw [Option.mem_def.1 hh, Option.map_some, heq]
  · intro i hi
    rcases List.mem_cons.1 hi with rfl | hi
    · exact hlt
    · exact hinv.collected i hi

theorem ProcessInv.next {label : ProcessLabel} (hinv : ProcessInv s)
    (hstep : s.next registry label = some s') : ProcessInv s' := by
  have halive := Process.next_alive hstep
  simp only [Process.next, halive, Bool.false_eq_true, if_false] at hstep
  cases label with
  | click =>
      obtain ⟨a, _, _, _, rfl⟩ := Process.click_cases hstep
      have hset := hinv.set s.current
        { a with executor := some (executorsOf s.current s.tasks).length }
      refine ⟨hset.created, ?_, hset.queue, hset.calls, hset.handling, hset.collected⟩
      intro t ht
      rcases List.mem_append.1 ht with ht | ht
      · exact hset.tasks t ht
      · rw [List.mem_singleton.1 ht]
        simp only [List.length_set]
        exact hinv.current_lt
  | recreate =>
      obtain ⟨hhandling, rfl⟩ := Process.recreate_cases hstep
      have hmore : ∀ n, n < s.activities.length →
          n < (s.activities ++ [Activity.onCreate s.file]).length := by
        intro n hn
        rw [List.length_append]
        exact Nat.lt_add_right _ hn
      refine ⟨by simp, fun t ht => hmore _ (hinv.tasks t ht), fun p hp => hmore _ (hinv.queue p hp),
        fun c hc => hmore _ (hinv.calls c hc), ?_, ?_⟩
      · intro h hh
        rw [hhandling] at hh
        cases hh
      · intro j hj
        have hlt := hinv.collected j hj
        simp only [Process.current, List.length_append, List.length_singleton] at hlt ⊢
        omega
  | collect j =>
      obtain ⟨hcollectable, rfl⟩ := Process.collect_cases hstep
      exact hinv.collects hcollectable
  | background save load =>
      obtain ⟨tasks, j, k, published, hone, rfl⟩ := Process.background_cases hstep
      obtain ⟨_, _, hmem, hlisteners⟩ := stepTasks_cases hone
      have hbound : ∀ n ∈ s.tasks.map Task.listener, n < s.activities.length := by
        intro n hn
        obtain ⟨t, ht, rfl⟩ := List.mem_map.1 hn
        exact hinv.tasks t ht
      refine ⟨hinv.created, ?_, ?_, hinv.calls, hinv.handling, hinv.collected⟩
      · intro t ht
        refine hbound _ ?_
        rw [← hlisteners]
        exact List.mem_map_of_mem ht
      · intro p hp
        rcases List.mem_append.1 hp with hp | hp
        · exact hinv.queue p hp
        · cases published with
          | none => cases hp
          | some name =>
              rw [Option.map_some, Option.toList_some, List.mem_singleton] at hp
              rw [hp]
              exact hbound j hmem
  | deliver =>
      obtain ⟨p, rest, _, hqueue, hcases⟩ := Process.deliver_cases hstep
      have hp : p.listener < s.activities.length :=
        hinv.queue p (by rw [hqueue]; exact List.mem_cons_self)
      have hrest : ∀ x ∈ rest, x.listener < s.activities.length := fun x hx =>
        hinv.queue x (by rw [hqueue]; exact List.mem_cons_of_mem _ hx)
      rcases hcases with ⟨_, rfl⟩ | ⟨hnot, a, e, _, _, ⟨_, rfl⟩ | ⟨_, rfl⟩⟩
      · exact ⟨hinv.created, hinv.tasks, hrest, hinv.calls, hinv.handling, hinv.collected⟩
      · have hset := hinv.set p.listener (a.onBenchmarkStarted p.message.name)
        refine ⟨hset.created, hset.tasks, ?_, ?_, hset.handling, hset.collected⟩
        · simp only [List.length_set]
          exact hrest
        · intro c hc
          rcases List.mem_append.1 hc with hc | hc
          · exact hset.calls c hc
          · rw [List.mem_singleton.1 hc]
            simp only [List.length_set]
            exact hp
      · refine ⟨hinv.created, hinv.tasks, hrest, ?_, ?_, hinv.collected⟩
        · intro c hc
          rcases List.mem_append.1 hc with hc | hc
          · exact hinv.calls c hc
          · rw [List.mem_singleton.1 hc]
            exact hp
        · intro h hh
          cases hh
          exact ⟨hp, hnot⟩
  | deliverCollected =>
      obtain ⟨p, rest, hqueue, hcollectable, rfl⟩ := Process.deliverCollected_cases hstep
      have hset := hinv.collects hcollectable
      refine ⟨hset.created, hset.tasks, fun x hx => ?_, hset.calls, hset.handling,
        hset.collected⟩
      exact hinv.queue x (by rw [hqueue]; exact List.mem_cons_of_mem _ hx)
  | list keySet =>
      obtain ⟨j, a, k, results, hhandling, _, _, _, rfl⟩ := Process.list_cases hstep
      have hset := hinv.set j (a.updateResultsList results keySet)
      refine ⟨hset.created, hset.tasks, hset.queue, hset.calls, ?_, hset.collected⟩
      intro h hh
      cases hh
      simp only [List.length_set]
      exact hinv.handling (j, .entered) hhandling
  | finish keySet write =>
      obtain ⟨j, a, k, results, _, _, _, _, rfl⟩ := Process.finish_cases hstep
      have hset := hinv.set j
        (a.onBenchmarkFinished registry.names.length k results keySet write)
      refine ⟨hset.created, hset.tasks, hset.queue, hset.calls, ?_, hset.collected⟩
      intro h hh
      cases hh

theorem ProcessInv.of_reachable (hr : (Process.lts registry file).Reachable s) :
    ProcessInv s := by
  refine hr.invariant ?_ ?_
  · intro s hs
    cases hs
    exact ProcessInv.start file
  · intro s label s' hinv hstep
    exact hinv.next hstep

/-! ## A step of the process is a step of the activity, or none -/

/-- What a step is to an activity: it was collected and is left as it is, or
nothing of its own moves, or its own system takes a step. -/
inductive StepOf (registry : Registry) (s s' : Process) (j : Nat) (a : Activity) : Prop
  | gone (hcollected : j ∈ s'.collected) (ha : s'.activities[j]? = some a)
  | other (hkept : j ∉ s.collected) (ha : s'.activities[j]? = some a)
      (hview : s'.view j a = s.view j a)
  | own (label : SystemLabel) {a' : Activity} (hkept : j ∉ s.collected)
      (ha : s'.activities[j]? = some a')
      (hview : (s.view j a).next registry label = some (s'.view j a'))

theorem set_of_ne {i : Nat} {a' : Activity} (ha : s.activities[j]? = some a) (hne : j ≠ i) :
    (s.activities.set i a')[j]? = some a := by
  rw [List.getElem?_set_ne (Ne.symm hne), ha]

theorem set_self {a' : Activity} (ha : s.activities[j]? = some a) :
    (s.activities.set j a')[j]? = some a' := by
  obtain ⟨hlt, _⟩ := List.getElem?_eq_some_iff.1 ha
  rw [List.getElem?_set_self hlt]

theorem stepOf_click (ha : s.activities[j]? = some a) (hkept : j ∉ s.collected)
    (hstep : s.click registry = some s') : StepOf registry s s' j a := by
  obtain ⟨a₀, hhandling, ha₀, henabled, rfl⟩ := Process.click_cases hstep
  by_cases hj : j = s.current
  · subst hj
    rw [ha] at ha₀
    cases ha₀
    refine .own .click hkept (set_self ha) ?_
    have hview : s.view s.current a = { s.view s.current a with handling := none } := by
      simp [Process.view, hhandling]
    rw [System.next, System.click, if_pos ⟨by rw [hview], henabled⟩]
    simp [Process.view, executorsOf]
  · refine .other hkept (set_of_ne ha hj) ?_
    have hnil : executorsOf j [⟨s.current, Executor.execute registry.names⟩] = [] :=
      executorsOf_eq_nil fun t ht => by
        rw [List.mem_singleton.1 ht]
        exact Ne.symm hj
    simp [Process.view, executorsOf_append, hnil]

theorem stepOf_recreate (ha : s.activities[j]? = some a) (hkept : j ∉ s.collected)
    (hstep : s.recreate = some s') : StepOf registry s s' j a := by
  obtain ⟨_, rfl⟩ := Process.recreate_cases hstep
  obtain ⟨hlt, _⟩ := List.getElem?_eq_some_iff.1 ha
  refine .other hkept ?_ rfl
  rw [List.getElem?_append_left hlt, ha]

theorem stepOf_collect {i : Nat} (ha : s.activities[j]? = some a) (hkept : j ∉ s.collected)
    (hstep : s.collect i = some s') : StepOf registry s s' j a := by
  obtain ⟨_, rfl⟩ := Process.collect_cases hstep
  exact .other hkept ha rfl

theorem stepOf_background {save load : TimeMeasure} (ha : s.activities[j]? = some a)
    (hkept : j ∉ s.collected) (hstep : s.background save load = some s') :
    StepOf registry s s' j a := by
  obtain ⟨tasks, i, k, published, hone, rfl⟩ := Process.background_cases hstep
  obtain ⟨hown, hothers, _, _⟩ := stepTasks_cases hone
  by_cases hj : j = i
  · subst hj
    refine .own (.background save load) hkept ha ?_
    simp only [System.next, System.background, Process.view, hown]
    cases published with
    | none => simp
    | some name => simp
  · refine .other hkept ha ?_
    simp only [Process.view, hothers j hj]
    cases published with
    | none => simp
    | some name => simp [Ne.symm hj]

theorem stepOf_deliver (ha : s.activities[j]? = some a) (hkept : j ∉ s.collected)
    (hstep : s.deliver = some s') : StepOf registry s s' j a := by
  obtain ⟨p, rest, hhandling, hqueue, hcases⟩ := Process.deliver_cases hstep
  by_cases hj : p.listener = j
  · rcases hcases with ⟨hcollected, _⟩ | ⟨_, a₀, e, ha₀, he, hcases⟩
    · exact absurd (hj ▸ hcollected) hkept
    · subst hj
      rw [ha] at ha₀
      cases ha₀
      have hempty : (s.view p.listener a).handling = none := by
        simp [Process.view, hhandling]
      have hnext : (s.view p.listener a).queue =
          p.message :: ({ s with queue := rest }.view p.listener a).queue := by
        simp [Process.view, hqueue]
      rcases hcases with ⟨hnew, rfl⟩ | ⟨hmem, rfl⟩
      · refine .own .deliver hkept (set_self ha) ?_
        rw [System.next, System.deliver_of_started hempty hnext he hnew]
        simp [Process.view]
      · refine .own .deliver hkept ha ?_
        rw [System.next, System.deliver_of_finished hempty hnext he hmem]
        simp [Process.view]
  · rcases hcases with ⟨_, rfl⟩ | ⟨_, a₀, e, _, _, ⟨_, rfl⟩ | ⟨_, rfl⟩⟩
    · refine .other hkept ha ?_
      simp [Process.view, hqueue, hj]
    · refine .other hkept (set_of_ne ha (Ne.symm hj)) ?_
      simp [Process.view, hqueue, hj]
    · refine .other hkept ha ?_
      simp [Process.view, hqueue, hhandling, hj]

/-- The crash takes the listener with it, and to the others it is a message that
is not theirs. -/
theorem stepOf_deliverCollected (ha : s.activities[j]? = some a) (hkept : j ∉ s.collected)
    (hstep : s.deliverCollected = some s') : StepOf registry s s' j a := by
  obtain ⟨p, rest, hqueue, _, rfl⟩ := Process.deliverCollected_cases hstep
  by_cases hj : p.listener = j
  · exact .gone (by simp [hj]) ha
  · refine .other hkept ha ?_
    simp [Process.view, hqueue, hj]

/-- The map an activity looks at is the one it would look at alone. -/
theorem view_results : (s.view j a).results = s.resultsOf j a := rfl

theorem stepOf_list {keySet : List String} (ha : s.activities[j]? = some a)
    (hkept : j ∉ s.collected) (hstep : s.list keySet = some s') : StepOf registry s s' j a := by
  obtain ⟨i, a₀, k, results, hhandling, ha₀, hresults, hperm, rfl⟩ := Process.list_cases hstep
  by_cases hj : j = i
  · subst hj
    rw [ha] at ha₀
    cases ha₀
    refine .own (.list keySet) hkept (set_self ha) ?_
    have hentered : (s.view j a).handling = some .entered := by
      simp [Process.view, hhandling]
    rw [System.next, System.list, hentered, view_results, hresults]
    simp only [if_pos hperm]
    simp [Process.view]
  · refine .other hkept (set_of_ne ha hj) ?_
    simp [Process.view, hhandling, Ne.symm hj]

theorem stepOf_finish {keySet : List String} {write : FileWrite}
    (ha : s.activities[j]? = some a) (hkept : j ∉ s.collected)
    (hstep : s.finish registry keySet write = some s') : StepOf registry s s' j a := by
  obtain ⟨i, a₀, k, results, hhandling, ha₀, hresults, hperm, rfl⟩ := Process.finish_cases hstep
  by_cases hj : j = i
  · subst hj
    rw [ha] at ha₀
    cases ha₀
    refine .own (.finish keySet write) hkept (set_self ha) ?_
    have hlisted : (s.view j a).handling = some .listed := by
      simp [Process.view, hhandling]
    rw [System.next, System.finish, hlisted, view_results, hresults]
    simp only [if_pos hperm]
    simp [Process.view]
  · refine .other hkept (set_of_ne ha hj) ?_
    simp [Process.view, hhandling, Ne.symm hj]

/-- A collected activity is not called any more. -/
theorem ProcessInv.gone {label : ProcessLabel} (hinv : ProcessInv s)
    (hstep : s.next registry label = some s') (ha : s.activities[j]? = some a)
    (hcollected : j ∈ s.collected) : j ∈ s'.collected ∧ s'.activities[j]? = some a := by
  have halive := Process.next_alive hstep
  simp only [Process.next, halive, Bool.false_eq_true, if_false] at hstep
  cases label with
  | click =>
      obtain ⟨_, _, _, _, rfl⟩ := Process.click_cases hstep
      have hlt := hinv.collected j hcollected
      exact ⟨hcollected, set_of_ne ha (by omega)⟩
  | recreate =>
      obtain ⟨_, rfl⟩ := Process.recreate_cases hstep
      obtain ⟨hlt, _⟩ := List.getElem?_eq_some_iff.1 ha
      exact ⟨hcollected, by rw [List.getElem?_append_left hlt, ha]⟩
  | collect i =>
      obtain ⟨_, rfl⟩ := Process.collect_cases hstep
      exact ⟨List.mem_cons_of_mem _ hcollected, ha⟩
  | background save load =>
      obtain ⟨_, _, _, _, _, rfl⟩ := Process.background_cases hstep
      exact ⟨hcollected, ha⟩
  | deliver =>
      obtain ⟨p, rest, _, _, ⟨_, rfl⟩ | ⟨hnot, a₀, e, _, _, ⟨_, rfl⟩ | ⟨_, rfl⟩⟩⟩ :=
        Process.deliver_cases hstep
      · exact ⟨hcollected, ha⟩
      · exact ⟨hcollected, set_of_ne ha fun h => hnot (h ▸ hcollected)⟩
      · exact ⟨hcollected, ha⟩
  | deliverCollected =>
      obtain ⟨p, rest, _, _, rfl⟩ := Process.deliverCollected_cases hstep
      exact ⟨List.mem_cons_of_mem _ hcollected, ha⟩
  | list keySet =>
      obtain ⟨i, _, _, _, hhandling, _, _, _, rfl⟩ := Process.list_cases hstep
      have hnot := (hinv.handling (i, .entered) hhandling).2
      exact ⟨hcollected, set_of_ne ha fun h => hnot (h ▸ hcollected)⟩
  | finish keySet write =>
      obtain ⟨i, _, _, _, hhandling, _, _, _, rfl⟩ := Process.finish_cases hstep
      have hnot := (hinv.handling (i, .listed) hhandling).2
      exact ⟨hcollected, set_of_ne ha fun h => hnot (h ▸ hcollected)⟩

theorem ProcessInv.stepOf {label : ProcessLabel} (hinv : ProcessInv s)
    (hstep : s.next registry label = some s') (ha : s.activities[j]? = some a) :
    StepOf registry s s' j a := by
  by_cases hcollected : j ∈ s.collected
  · obtain ⟨hcollected', ha'⟩ := hinv.gone hstep ha hcollected
    exact .gone hcollected' ha'
  · have halive := Process.next_alive hstep
    simp only [Process.next, halive, Bool.false_eq_true, if_false] at hstep
    cases label with
    | click => exact stepOf_click ha hcollected hstep
    | recreate => exact stepOf_recreate ha hcollected hstep
    | collect i => exact stepOf_collect ha hcollected hstep
    | background save load => exact stepOf_background ha hcollected hstep
    | deliver => exact stepOf_deliver ha hcollected hstep
    | deliverCollected => exact stepOf_deliverCollected ha hcollected hstep
    | list keySet => exact stepOf_list ha hcollected hstep
    | finish keySet write => exact stepOf_finish ha hcollected hstep

end Steps

end OrmBenchmark.Ref
