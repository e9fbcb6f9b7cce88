import OrmBenchmark.Proofs.Recreation

/-!
# What the activities of one process share

The tasks of all activities stand in one line, so a run that has a result means
that every run submitted before it is over, whoever started it: when an activity
goes idle, nothing that was submitted earlier is still running, not even what an
activity before it left behind. And the activities share the file. Whoever
writes it writes the whole table of one run, and no later step changes what that
run has stored.
-/

namespace OrmBenchmark.Ref

open OrmBenchmark.Lib

/-- One task after the other. -/
structure TasksInv (registry : Registry) (tasks : List Task) : Prop where
  phases : ∀ t ∈ tasks, ∃ ph, InPhase registry.names t.executor ph
  serial : tasks.Pairwise fun t later =>
    t.executor.finished ∨ later.executor = Executor.execute registry.names

section

variable {registry : Registry} {file : Option String} {s s' : Process} {j : Nat}
  {a a' : Activity}

/-! ## The line of tasks -/

theorem stepTasks_split {save load : TimeMeasure} {tasks tasks' : List Task} {k : Nat}
    {published : Option String}
    (hstep : stepTasks save load tasks = some (tasks', j, k, published)) :
    ∃ before t after e', tasks = before ++ t :: after ∧
      tasks' = before ++ { t with executor := e' } :: after ∧
      t.executor.background save load = some (e', published) ∧
      ∀ x ∈ before, x.executor.finished := by
  induction tasks generalizing tasks' j k published with
  | nil => cases hstep
  | cons t rest ih =>
      rw [stepTasks] at hstep
      cases hback : t.executor.background save load with
      | some r =>
          obtain ⟨e', p⟩ := r
          rw [hback] at hstep
          cases hstep
          exact ⟨[], t, rest, e', rfl, rfl, hback, fun x hx => absurd hx List.not_mem_nil⟩
      | none =>
          rw [hback] at hstep
          cases hrest : stepTasks save load rest with
          | none =>
              rw [hrest] at hstep
              cases hstep
          | some r =>
              obtain ⟨rest', j', k', p⟩ := r
              rw [hrest] at hstep
              cases hstep
              obtain ⟨before, x, after, e', rfl, rfl, hx, hfin⟩ := ih hrest
              refine ⟨t :: before, x, after, e', rfl, rfl, hx, ?_⟩
              exact List.forall_mem_cons.2 ⟨background_eq_none.1 hback, hfin⟩

theorem TasksInv.submit {tasks : List Task} (hinv : TasksInv registry tasks) (j : Nat) :
    TasksInv registry (tasks ++ [⟨j, Executor.execute registry.names⟩]) := by
  refine ⟨?_, ?_⟩
  · intro t ht
    rcases List.mem_append.1 ht with ht | ht
    · exact hinv.phases t ht
    · rw [List.mem_singleton.1 ht]
      exact ⟨_, InPhase.execute registry.names⟩
  · refine List.pairwise_append.2 ⟨hinv.serial, List.pairwise_singleton _ _, ?_⟩
    intro t _ later hlater
    rw [List.mem_singleton.1 hlater]
    exact Or.inr rfl

theorem background_phase {names : List String} {e e' : Executor} {ph : Phase}
    {save load : TimeMeasure} {published : Option String} (hin : InPhase names e ph)
    (hback : e.background save load = some (e', published)) :
    ∃ ph', InPhase names e' ph' := by
  rcases background_cases hin hback with
    ⟨_, _, _, _, _, _, hin'⟩ | ⟨_, _, _, _, _, _, hin'⟩ | ⟨_, _, _, _, _, _, hin'⟩
  · exact ⟨_, hin'⟩
  · exact ⟨_, hin'⟩
  · exact ⟨_, hin'⟩

/-- A task that takes a step has only tasks that are over before it and
untouched ones behind it. -/
theorem TasksInv.stepTasks {save load : TimeMeasure} {tasks tasks' : List Task} {k : Nat}
    {published : Option String} (hinv : TasksInv registry tasks)
    (hstep : stepTasks save load tasks = some (tasks', j, k, published)) :
    TasksInv registry tasks' := by
  obtain ⟨before, t, after, e', rfl, rfl, hback, hfin⟩ := stepTasks_split hstep
  obtain ⟨hbefore, hrest, hcross⟩ := List.pairwise_append.1 hinv.serial
  obtain ⟨hhead, htail⟩ := List.pairwise_cons.1 hrest
  refine ⟨?_, List.pairwise_append.2 ⟨hbefore, List.pairwise_cons.2 ⟨?_, htail⟩, ?_⟩⟩
  · intro x hx
    rcases List.mem_append.1 hx with hx | hx
    · exact hinv.phases x (List.mem_append_left _ hx)
    · rcases List.mem_cons.1 hx with rfl | hx
      · obtain ⟨ph, hin⟩ := hinv.phases t (List.mem_append_right _ List.mem_cons_self)
        exact background_phase hin hback
      · exact hinv.phases x (List.mem_append_right _ (List.mem_cons_of_mem _ hx))
  · intro later hlater
    rcases hhead later hlater with hover | huntouched
    · rw [background_eq_none.2 hover] at hback
      cases hback
    · exact Or.inr huntouched
  · intro x hx later _
    exact Or.inl (hfin x hx)

theorem TasksInv.next {label : ProcessLabel} (hinv : TasksInv registry s.tasks)
    (hstep : s.next registry label = some s') : TasksInv registry s'.tasks := by
  have halive := Process.next_alive hstep
  simp only [Process.next, halive, Bool.false_eq_true, if_false] at hstep
  cases label with
  | click =>
      obtain ⟨_, _, _, _, rfl⟩ := Process.click_cases hstep
      exact hinv.submit _
  | recreate =>
      obtain ⟨_, rfl⟩ := Process.recreate_cases hstep
      exact hinv
  | collect i =>
      obtain ⟨_, rfl⟩ := Process.collect_cases hstep
      exact hinv
  | background save load =>
      obtain ⟨_, _, _, _, hone, rfl⟩ := Process.background_cases hstep
      exact hinv.stepTasks hone
  | deliver =>
      obtain ⟨_, _, _, _, ⟨_, rfl⟩ | ⟨_, _, _, _, _, ⟨_, rfl⟩ | ⟨_, rfl⟩⟩⟩ :=
        Process.deliver_cases hstep
      · exact hinv
      · exact hinv
      · exact hinv
  | deliverCollected =>
      obtain ⟨_, _, _, _, rfl⟩ := Process.deliverCollected_cases hstep
      exact hinv
  | list keySet =>
      obtain ⟨_, _, _, _, _, _, _, _, rfl⟩ := Process.list_cases hstep
      exact hinv
  | finish keySet write =>
      obtain ⟨_, _, _, _, _, _, _, _, rfl⟩ := Process.finish_cases hstep
      exact hinv

theorem TasksInv.of_reachable (hr : (Process.lts registry file).Reachable s) :
    TasksInv registry s.tasks := by
  refine hr.invariant (I := fun s => TasksInv registry s.tasks) ?_ ?_
  · intro s hs
    cases hs
    exact ⟨fun t ht => absurd ht List.not_mem_nil, List.Pairwise.nil⟩
  · intro s label s' hinv hstep
    exact hinv.next hstep

/-! ## Each activity as if it were alone -/

/-- Only `recreate` makes an activity. -/
theorem Process.next_created {label : ProcessLabel}
    (hstep : s.next registry label = some s') (ha : s'.activities[j]? = some a)
    (hnew : s.activities.length ≤ j) :
    j = s.activities.length ∧ a = Activity.onCreate s.file ∧ s.handling = none ∧
      s' = { s with activities := s.activities ++ [Activity.onCreate s.file] } := by
  obtain ⟨hlt, _⟩ := List.getElem?_eq_some_iff.1 ha
  have halive := Process.next_alive hstep
  simp only [Process.next, halive, Bool.false_eq_true, if_false] at hstep
  cases label with
  | click =>
      obtain ⟨_, _, _, _, rfl⟩ := Process.click_cases hstep
      simp only [List.length_set] at hlt
      omega
  | recreate =>
      obtain ⟨hhandling, rfl⟩ := Process.recreate_cases hstep
      rw [List.length_append, List.length_singleton] at hlt
      have hj : j = s.activities.length := by omega
      subst hj
      rw [List.getElem?_concat_length] at ha
      cases ha
      exact ⟨rfl, rfl, hhandling, rfl⟩
  | collect i =>
      obtain ⟨_, rfl⟩ := Process.collect_cases hstep
      have hlt : j < s.activities.length := hlt
      omega
  | background save load =>
      obtain ⟨_, _, _, _, _, rfl⟩ := Process.background_cases hstep
      have hlt : j < s.activities.length := hlt
      omega
  | deliver =>
      obtain ⟨_, _, _, _, ⟨_, rfl⟩ | ⟨_, _, _, _, _, ⟨_, rfl⟩ | ⟨_, rfl⟩⟩⟩ :=
        Process.deliver_cases hstep
      · have hlt : j < s.activities.length := hlt
        omega
      · simp only [List.length_set] at hlt
        omega
      · have hlt : j < s.activities.length := hlt
        omega
  | deliverCollected =>
      obtain ⟨_, _, _, _, rfl⟩ := Process.deliverCollected_cases hstep
      have hlt : j < s.activities.length := hlt
      omega
  | list keySet =>
      obtain ⟨_, _, _, _, _, _, _, _, rfl⟩ := Process.list_cases hstep
      simp only [List.length_set] at hlt
      omega
  | finish keySet write =>
      obtain ⟨_, _, _, _, _, _, _, _, rfl⟩ := Process.finish_cases hstep
      simp only [List.length_set] at hlt
      omega

/-- Nothing has been done for an activity that was not there. -/
theorem ProcessInv.view_created (hinv : ProcessInv s) (hhandling : s.handling = none)
    (activities : List Activity) :
    { s with activities := activities }.view s.activities.length (Activity.onCreate s.file) =
      System.start s.file := by
  have hexecutors : executorsOf s.activities.length s.tasks = [] :=
    executorsOf_eq_nil fun t ht => Nat.ne_of_lt (hinv.tasks t ht)
  have hqueue : (s.queue.filterMap fun p =>
      if p.listener = s.activities.length then some p.message else none) = [] := by
    rw [List.filterMap_eq_nil_iff]
    intro p hp
    rw [if_neg (Nat.ne_of_lt (hinv.queue p hp))]
  have hcalls : (s.calls.filterMap fun c =>
      if c.1 = s.activities.length then some c.2 else none) = [] := by
    rw [List.filterMap_eq_nil_iff]
    intro c hc
    rw [if_neg (Nat.ne_of_lt (hinv.calls c hc))]
  simp only [Process.view, System.start, hexecutors, hqueue, hcalls, hhandling,
    Option.bind_none]

/-- A system of one activity that has come to be just as this activity is, and
that goes on as it does for as long as it is there. -/
def Alone (registry : Registry) (s : Process) (j : Nat) (a : Activity) : Prop :=
  ∃ file t, (System.lts registry file).Reachable t ∧ t.activity = a ∧
    (j ∉ s.collected → t = s.view j a)

theorem Alone.step (h : Alone registry s j a) (hof : StepOf registry s s' j a)
    (ha : s'.activities[j]? = some a') :
    Alone registry s' j a' := by
  obtain ⟨file, t, hr, hactivity, hview⟩ := h
  cases hof with
  | gone hmem hsame =>
      rw [hsame] at ha
      cases ha
      exact ⟨file, t, hr, hactivity, fun hkept => absurd hmem hkept⟩
  | other hkept hsame hsameView =>
      rw [hsame] at ha
      cases ha
      exact ⟨file, t, hr, hactivity, fun _ => (hview hkept).trans hsameView.symm⟩
  | own label hkept hsame hnext =>
      rw [hsame] at ha
      cases ha
      refine ⟨file, s'.view j a', ?_, rfl, fun _ => rfl⟩
      rw [← hview hkept] at hnext
      exact hr.of_step hnext

theorem Alone.of_reachable (hr : (Process.lts registry file).Reachable s) :
    ∀ j a, s.activities[j]? = some a → Alone registry s j a := by
  obtain ⟨history, hrun⟩ := hr
  refine Lts.Run.history_invariant
    (I := fun _ s => ∀ j a, s.activities[j]? = some a → Alone registry s j a) ?_ ?_ hrun
  · intro s hs
    cases hs
    intro j a ha
    obtain ⟨hlt, ha⟩ := List.getElem?_eq_some_iff.1 ha
    have hj : j = 0 := Nat.lt_one_iff.1 hlt
    subst hj
    cases ha
    exact ⟨file, System.start file, ⟨[], .start rfl⟩, rfl, fun _ => rfl⟩
  · intro history s label s' hbefore ih hstep j a ha
    have hinv := ProcessInv.of_reachable ⟨history, hbefore⟩
    by_cases hnew : s.activities.length ≤ j
    · obtain ⟨rfl, rfl, hhandling, rfl⟩ := Process.next_created hstep ha hnew
      refine ⟨s.file, System.start s.file, ⟨[], .start rfl⟩, rfl, fun _ => ?_⟩
      exact (hinv.view_created hhandling _).symm
    · have hold : s.activities[j]? = some s.activities[j] :=
        List.getElem?_eq_getElem (Nat.lt_of_not_le hnew)
      exact (ih j _ hold).step (hinv.stepOf hstep hold) ha

/-- Whatever activities came, went and were collected meanwhile, each of them is
in a state that it can reach alone, and unless it was collected that is the state
of all that belongs to it. -/
theorem activity_as_if_alone (hr : (Process.lts registry file).Reachable s)
    (ha : s.activities[j]? = some a) :
    ∃ file t, (System.lts registry file).Reachable t ∧ t.activity = a ∧
      (j ∉ s.collected → t = s.view j a) :=
  Alone.of_reachable hr j a ha

theorem SystemInv.of_view (hr : (Process.lts registry file).Reachable s)
    (ha : s.activities[j]? = some a) (hkept : j ∉ s.collected) :
    SystemInv registry (s.view j a) := by
  obtain ⟨_, t, ht, _, hview⟩ := Alone.of_reachable hr j a ha
  rw [← hview hkept]
  exact SystemInv.of_reachable ht

/-! ## Going idle -/

theorem mem_executorsOf {tasks : List Task} {t : Task} (ht : t ∈ tasks) :
    t.executor ∈ executorsOf t.listener tasks := by
  refine List.mem_map_of_mem (List.mem_filter.2 ⟨ht, ?_⟩)
  simp

/-- Behind a task that has results everything is over. -/
theorem TasksInv.before_finished {tasks older newer : List Task} {t : Task} {name : String}
    (hinv : TasksInv registry tasks) (htasks : tasks = older ++ t :: newer)
    (hname : name ∈ t.executor.results) : ∀ x ∈ older, x.executor.finished := by
  intro x hx
  have hserial := hinv.serial
  rw [htasks, List.pairwise_append] at hserial
  rcases hserial.2.2 x hx t List.mem_cons_self with hover | huntouched
  · exact hover
  · rw [huntouched] at hname
    exact absurd hname (AList.notMem_empty name)

/-- An activity of the process goes idle only when all its own runs have stored
everything and every run submitted before one of them, by whatever activity, is
over. It is idle, with the CSV of its latest run, whenever its own runs are done
and heard of, unless it was collected. -/
theorem activity_idle_iff_done (hr : (Process.lts registry file).Reachable s)
    (ha : s.activities[j]? = some a) :
    (∀ label s' a', (Process.lts registry file).step s label s' →
      s'.activities[j]? = some a' → GoesIdle a a' →
      j ∉ s.collected ∧ IdleAfterAll registry (s.view j a) (s'.view j a') ∧
        ∀ older t newer, s.tasks = older ++ t :: newer → t.listener = j →
          ∀ x ∈ older, x.executor.finished) ∧
    (j ∉ s.collected → executorsOf j s.tasks ≠ [] →
      (∀ e ∈ executorsOf j s.tasks, e.finished) → (∀ p ∈ s.queue, p.listener ≠ j) →
      (∀ h ∈ s.handling, h.1 ≠ j) →
      ∃ older latest, executorsOf j s.tasks = older ++ [latest] ∧
        Shows registry a older.length latest) := by
  have hinv := ProcessInv.of_reachable hr
  constructor
  · intro label s' a' hstep ha' hidle
    cases hinv.stepOf hstep ha with
    | gone _ hsame =>
        rw [hsame] at ha'
        cases ha'
        exact absurd hidle (GoesIdle.irrefl a)
    | other _ hsame _ =>
        rw [hsame] at ha'
        cases ha'
        exact absurd hidle (GoesIdle.irrefl a)
    | own label hkept hsame hnext =>
        rw [hsame] at ha'
        cases ha'
        have hafter := (SystemInv.of_view hr ha hkept).goes_idle hnext hidle
        refine ⟨hkept, hafter, ?_⟩
        intro older t newer htasks hlistener
        have hmem : t ∈ s.tasks := by
          rw [htasks]
          exact List.mem_append_right _ List.mem_cons_self
        have hexecutor := mem_executorsOf hmem
        rw [hlistener] at hexecutor
        obtain ⟨name, hname⟩ := List.exists_mem_of_ne_nil _ registry.nonempty
        exact (TasksInv.of_reachable hr).before_finished htasks
          (hafter.1 t.executor hexecutor name hname)
  · intro hkept hstarted hdone hqueue hhandling
    refine (SystemInv.of_view hr ha hkept).quiet_shows hstarted hdone ?_ ?_
    · show s.queue.filterMap _ = []
      rw [List.filterMap_eq_nil_iff]
      intro p hp
      rw [if_neg (hqueue p hp)]
    · show s.handling.bind _ = none
      rw [Option.bind_eq_none_iff]
      intro h hh
      rw [if_neg (hhandling h hh)]

/-! ## The file -/

/-- The file is not written in this step, or written as it should be. -/
def ProcessLabel.writes : ProcessLabel → Bool
  | .finish _ (.failed _ _) => false
  | _ => true

/-- What was generated from results stays right when more is stored. -/
theorem CsvOf.background {e e' : Executor} {ph : Phase} {save load : TimeMeasure}
    {published : Option String} {text : String} (h : CsvOf registry e text)
    (hin : InPhase registry.names e ph)
    (hback : e.background save load = some (e', published)) : CsvOf registry e' text := by
  obtain ⟨rows, hnames, hlookup, htext⟩ := h
  exact ⟨rows, hnames,
    fun r hr => background_lookup registry.nodup hin hback (hlookup r hr), htext⟩

/-- The content is the CSV of one of the tasks. -/
def CsvOfTask (registry : Registry) (s : Process) : Prop :=
  ∃ t ∈ s.tasks, ∃ text, s.file = some text ∧ CsvOf registry t.executor text

theorem CsvOfTask.next {label : ProcessLabel} (h : CsvOfTask registry s)
    (hinv : TasksInv registry s.tasks) (hstep : s.next registry label = some s')
    (hfile : s'.file = s.file) : CsvOfTask registry s' := by
  obtain ⟨t, ht, text, htext, hcsv⟩ := h
  rw [← hfile] at htext
  have halive := Process.next_alive hstep
  simp only [Process.next, halive, Bool.false_eq_true, if_false] at hstep
  cases label with
  | click =>
      obtain ⟨_, _, _, _, rfl⟩ := Process.click_cases hstep
      exact ⟨t, List.mem_append_left _ ht, text, htext, hcsv⟩
  | background save load =>
      obtain ⟨_, _, _, _, hone, rfl⟩ := Process.background_cases hstep
      obtain ⟨before, x, after, e', hbefore, hafter, hback, _⟩ := stepTasks_split hone
      rw [hbefore] at ht
      rcases List.mem_append.1 ht with ht | ht
      · exact ⟨t, by simp [hafter, ht], text, htext, hcsv⟩
      · rcases List.mem_cons.1 ht with rfl | ht
        · obtain ⟨ph, hin⟩ := hinv.phases t (by simp [hbefore])
          exact ⟨{ t with executor := e' }, by simp [hafter], text, htext,
            hcsv.background hin hback⟩
        · exact ⟨t, by simp [hafter, ht], text, htext, hcsv⟩
  | recreate =>
      obtain ⟨_, rfl⟩ := Process.recreate_cases hstep
      exact ⟨t, ht, text, htext, hcsv⟩
  | collect i =>
      obtain ⟨_, rfl⟩ := Process.collect_cases hstep
      exact ⟨t, ht, text, htext, hcsv⟩
  | deliver =>
      obtain ⟨_, _, _, _, ⟨_, rfl⟩ | ⟨_, _, _, _, _, ⟨_, rfl⟩ | ⟨_, rfl⟩⟩⟩ :=
        Process.deliver_cases hstep
      · exact ⟨t, ht, text, htext, hcsv⟩
      · exact ⟨t, ht, text, htext, hcsv⟩
      · exact ⟨t, ht, text, htext, hcsv⟩
  | deliverCollected =>
      obtain ⟨_, _, _, _, rfl⟩ := Process.deliverCollected_cases hstep
      exact ⟨t, ht, text, htext, hcsv⟩
  | list keySet =>
      obtain ⟨_, _, _, _, _, _, _, _, rfl⟩ := Process.list_cases hstep
      exact ⟨t, ht, text, htext, hcsv⟩
  | finish keySet write =>
      obtain ⟨_, _, _, _, _, _, _, _, rfl⟩ := Process.finish_cases hstep
      exact ⟨t, ht, text, htext, hcsv⟩

/-- What `generateCSV` writes is the table of the run the activity looks at. -/
theorem finish_file {keySet : List String} {write : FileWrite}
    (hr : (Process.lts registry file).Reachable s)
    (hstep : s.finish registry keySet write = some s')
    (hwrites : (ProcessLabel.finish keySet write).writes) :
    s'.file = s.file ∨ CsvOfTask registry s' := by
  obtain ⟨j, a, k, results, hhandling, ha, hresults, hperm, rfl⟩ := Process.finish_cases hstep
  by_cases hsize : results.size = registry.names.length
  · have hkept := ((ProcessInv.of_reachable hr).handling (j, .listed) hhandling).2
    have hsys := SystemInv.of_view hr ha hkept
    obtain ⟨older, e, hex, _, rfl⟩ := hsys.results_eq (view_results.trans hresults)
    have hmem : e ∈ executorsOf j s.tasks := by
      show e ∈ (s.view j a).executors
      rw [hex]
      exact List.mem_append_right _ (List.mem_singleton.2 rfl)
    obtain ⟨ph, hin⟩ := hsys.phases e hmem
    obtain ⟨t, ht, rfl⟩ := List.mem_map.1 hmem
    refine Or.inr ⟨t, (List.mem_filter.1 ht).1, generateCSV t.executor.results keySet, ?_,
      hin.csvOf hsize hperm⟩
    cases write with
    | written => simp [Activity.onBenchmarkFinished, Activity.generateResults, hsize]
    | failed message left => cases hwrites
  · exact Or.inl (by simp only [if_neg hsize])

theorem Process.next_file {label : ProcessLabel} (hr : (Process.lts registry file).Reachable s)
    (hstep : s.next registry label = some s') (hwrites : label.writes) :
    s'.file = s.file ∨ CsvOfTask registry s' := by
  have halive := Process.next_alive hstep
  simp only [Process.next, halive, Bool.false_eq_true, if_false] at hstep
  cases label with
  | click =>
      obtain ⟨_, _, _, _, rfl⟩ := Process.click_cases hstep
      exact Or.inl rfl
  | recreate =>
      obtain ⟨_, rfl⟩ := Process.recreate_cases hstep
      exact Or.inl rfl
  | collect i =>
      obtain ⟨_, rfl⟩ := Process.collect_cases hstep
      exact Or.inl rfl
  | background save load =>
      obtain ⟨_, _, _, _, _, rfl⟩ := Process.background_cases hstep
      exact Or.inl rfl
  | deliver =>
      obtain ⟨_, _, _, _, ⟨_, rfl⟩ | ⟨_, _, _, _, _, ⟨_, rfl⟩ | ⟨_, rfl⟩⟩⟩ :=
        Process.deliver_cases hstep
      · exact Or.inl rfl
      · exact Or.inl rfl
      · exact Or.inl rfl
  | deliverCollected =>
      obtain ⟨_, _, _, _, rfl⟩ := Process.deliverCollected_cases hstep
      exact Or.inl rfl
  | list keySet =>
      obtain ⟨_, _, _, _, _, _, _, _, rfl⟩ := Process.list_cases hstep
      exact Or.inl rfl
  | finish keySet write => exact finish_file hr hstep hwrites

/-- As long as no write fails, `orm-benchmark.csv` is what it was or the whole
table of one run: one row for each benchmark, all with what this run stored,
whatever activity wrote it and whatever else has been running. -/
theorem file_of_one_task {history : History Process ProcessLabel}
    (hrun : (Process.lts registry file).Run history s)
    (hwrites : history.Obeys fun _ label => label.writes) :
    s.file = file ∨ ∃ t ∈ s.tasks, ∃ text, s.file = some text ∧
      CsvOf registry t.executor text := by
  refine Lts.Run.history_invariant
    (I := fun history s => history.Obeys (fun _ label => label.writes) →
      s.file = file ∨ CsvOfTask registry s) ?_ ?_ hrun hwrites
  · intro s hs _
    cases hs
    exact Or.inl rfl
  · intro history s label s' hbefore ih hstep hobeys
    obtain ⟨hearlier, hlabel⟩ := History.obeys_snoc.1 hobeys
    have hr : (Process.lts registry file).Reachable s := ⟨history, hbefore⟩
    rcases Process.next_file hr hstep hlabel with hsame | hcsv
    · rcases ih hearlier with hinitial | hcsv
      · exact Or.inl (hsame.trans hinitial)
      · exact Or.inr (hcsv.next (TasksInv.of_reachable hr) hstep hsame)
    · exact Or.inr hcsv

/-! ## A rotation between two clicks -/

/-- The first activity is destroyed before its run begins, writes the file
nevertheless, and is collected while the run of the second is on. -/
def rotation : List ProcessLabel :=
  let tm : TimeMeasure := ⟨0, 0, 0, 0⟩
  let heard : List ProcessLabel := [.deliver, .list ["ORMLite"], .finish ["ORMLite"] .written]
  [.click, .recreate, .click, .background tm tm, .background tm tm, .background tm tm] ++
    heard ++ heard ++ [.collect 0, .background tm tm, .background tm tm, .background tm tm] ++
    heard ++ [.deliver, .list ["ORMLite"]]

end

theorem activity_as_if_alone_rotation :
    ∃ registry file s a, (Process.lts registry none).Reachable s ∧ s.collected = [0] ∧
      s.activities[1]? = some a ∧ (System.lts registry file).Reachable (s.view 1 a) := by
  let registry : Registry := ⟨["ORMLite"], by decide, by decide⟩
  obtain ⟨h, s, hrun, htest⟩ := Lts.exists_run_of_replay (Process.start none)
    (Process.next registry) rotation
    (fun _ s => decide (s.collected = [0] ∧ s.activities[1]?.isSome)) (by decide)
  obtain ⟨hcollected, hsome⟩ := of_decide_eq_true htest
  obtain ⟨a, ha⟩ := Option.isSome_iff_exists.1 hsome
  have hr : (Process.lts registry none).Reachable s := ⟨h, hrun⟩
  obtain ⟨file, t, ht, _, hview⟩ := activity_as_if_alone hr ha
  rw [hview (by simp [hcollected])] at ht
  exact ⟨registry, file, s, a, hr, hcollected, ha, ht⟩

theorem activity_idle_iff_done_rotation :
    ∃ (registry : Registry) (s s' : Process) (a a' : Activity),
      (Process.lts registry none).Reachable s ∧
      s.tasks.length = 2 ∧ s.activities[1]? = some a ∧ s'.activities[1]? = some a' ∧
      IdleAfterAll registry (s.view 1 a) (s'.view 1 a') ∧
      ∃ older latest, executorsOf 1 s'.tasks = older ++ [latest] ∧
        Shows registry a' older.length latest := by
  let registry : Registry := ⟨["ORMLite"], by decide, by decide⟩
  let last : ProcessLabel := .finish ["ORMLite"] .written
  obtain ⟨h, s, hrun, htest⟩ := Lts.exists_run_of_replay (Process.start none)
    (Process.next registry) rotation
    (fun _ s => decide (s.tasks.length = 2) &&
      (s.next registry last).any fun (s' : Process) =>
        s.activities[1]?.any fun (a : Activity) => s'.activities[1]?.any fun (a' : Activity) =>
          decide (GoesIdle a a' ∧ 1 ∉ s'.collected ∧ executorsOf 1 s'.tasks ≠ [] ∧
            (∀ e ∈ executorsOf 1 s'.tasks, e.finished) ∧ (∀ p ∈ s'.queue, p.listener ≠ 1) ∧
            (∀ h ∈ s'.handling, h.1 ≠ 1))) (by decide)
  have hr : (Process.lts registry none).Reachable s := ⟨h, hrun⟩
  simp only [Bool.and_eq_true, decide_eq_true_iff, Option.any_eq_true] at htest
  obtain ⟨hlength, s', hstep, a, ha, a', ha', hidle, hkept, hstarted, hdone, hqueue, hhandling⟩ :=
    htest
  have hafter := ((activity_idle_iff_done hr ha).1 last s' a' hstep ha' hidle).2.1
  exact ⟨registry, s, s', a, a', hr, hlength, ha, ha', hafter,
    (activity_idle_iff_done (hr.of_step hstep) ha').2 hkept hstarted hdone hqueue hhandling⟩

theorem file_of_one_task_rotation :
    ∃ registry s, (Process.lts registry none).Reachable s ∧ s.tasks.length = 2 ∧
      ∃ t ∈ s.tasks, ∃ text, s.file = some text ∧ CsvOf registry t.executor text := by
  let registry : Registry := ⟨["ORMLite"], by decide, by decide⟩
  obtain ⟨h, s, hrun, htest⟩ := Lts.exists_run_of_replay (Process.start none)
    (Process.next registry) rotation
    (fun h s => (h.all fun p => p.2.writes) && decide (s.tasks.length = 2 ∧ s.file ≠ none))
    (by decide)
  rw [Bool.and_eq_true, decide_eq_true_iff, List.all_eq_true] at htest
  obtain ⟨hwrites, hlength, hfile⟩ := htest
  refine ⟨registry, s, ⟨h, hrun⟩, hlength, ?_⟩
  rcases file_of_one_task hrun hwrites with hnone | hcsv
  · exact absurd hnone hfile
  · exact hcsv

end OrmBenchmark.Ref
