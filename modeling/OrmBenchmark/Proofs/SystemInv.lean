import OrmBenchmark.Ref.Activity
import OrmBenchmark.Proofs.Csv
import OrmBenchmark.Proofs.ExecutorPhase

/-!
# The invariant of the activity and its runs

Three facts tie the runs together. The tasks run one at a time, so whenever
one of them has been started every earlier one is over: of two executors the
earlier is finished or the later untouched. The executor the activity holds is
the latest. And once the latest is finished, its last message is on its way:
it is the newest in the queue, or the UI thread is inside its handler, or it
has been handled, and then the button is enabled, the status idle and the CSV
of that run generated. The last of the three is what makes idleness come for
certain; the first is what makes it come only when everything is stored.
-/

namespace OrmBenchmark.Ref

open OrmBenchmark.Lib

theorem background_eq_none {e : Executor} {save load : TimeMeasure} :
    e.background save load = none ↔ e.finished := by
  unfold Executor.background Executor.finished
  split
  · next h => exact ⟨fun _ => h, fun _ => rfl⟩
  · next h => simp [h]
  · next h => simp [h]

/-- The step is taken by the first executor that is not finished. -/
theorem backgroundStep_cases {save load : TimeMeasure} :
    ∀ {es es' : List Executor} {k : Nat} {published : Option String},
    backgroundStep save load es = some (es', k, published) →
    ∃ before e after e', es = before ++ e :: after ∧
      es' = before ++ e' :: after ∧ k = before.length ∧
      e.background save load = some (e', published) ∧
      ∀ x ∈ before, x.finished := by
  intro es
  induction es with
  | nil =>
      intro es' k published h
      cases h
  | cons e rest ih =>
      intro es' k published h
      rw [backgroundStep] at h
      split at h
      · next e' p hback =>
          cases h
          exact ⟨[], e, rest, e', rfl, rfl, rfl, hback,
            fun x hx => absurd hx List.not_mem_nil⟩
      · next hnone =>
          split at h
          · cases h
          · next rest' k' p hrest =>
              cases h
              obtain ⟨before, x, after, x', hes, hes', hk, hback, hfin⟩ := ih hrest
              refine ⟨e :: before, x, after, x', ?_, ?_, ?_, hback, ?_⟩
              · rw [hes, List.cons_append]
              · rw [hes', List.cons_append]
              · rw [hk, List.length_cons]
              · exact List.forall_mem_cons.2 ⟨background_eq_none.1 hnone, hfin⟩

/-! ## What one step does -/

section Cases

variable {registry : Registry} {s s' : System}

theorem System.click_cases (hstep : s.click registry = some s') :
    s.handling = none ∧ s.activity.startEnabled = true ∧
      s' = { s with
        executors := s.executors ++ [Executor.execute registry.names]
        activity := { s.activity with executor := some s.executors.length } } := by
  unfold System.click at hstep
  split at hstep
  · next h =>
      cases hstep
      exact ⟨h.1, h.2, rfl⟩
  · cases hstep

theorem System.background_step_cases {save load : TimeMeasure}
    (hstep : s.background save load = some s') :
    ∃ before e after e' published, s.executors = before ++ e :: after ∧
      e.background save load = some (e', published) ∧
      (∀ x ∈ before, x.finished) ∧
      s' = { s with
        executors := before ++ e' :: after
        queue := s.queue ++ (published.map (Message.mk before.length)).toList } := by
  unfold System.background at hstep
  split at hstep
  · cases hstep
  · next es k published hone =>
      cases hstep
      obtain ⟨before, e, after, e', hes, rfl, rfl, hback, hfin⟩ :=
        backgroundStep_cases hone
      exact ⟨before, e, after, e', published, hes, hback, hfin, rfl⟩

/-- A message is taken by the executor that published it, and its map says
whether it is a start. -/
theorem System.deliver_cases (hstep : s.deliver = some s') :
    ∃ m rest e, s.handling = none ∧ s.queue = m :: rest ∧
      s.executors[m.executor]? = some e ∧
      ((m.name ∉ e.results ∧
          s' = { s with
            queue := rest
            calls := s.calls ++ [(m.executor, .onBenchmarkStarted m.name)]
            activity := s.activity.onBenchmarkStarted m.name }) ∨
        (m.name ∈ e.results ∧
          s' = { s with
            queue := rest
            calls := s.calls ++ [(m.executor,
              .onBenchmarkFinished m.name (e.results.lookup m.name))]
            handling := some .entered })) := by
  unfold System.deliver at hstep
  split at hstep
  · next m rest hhandling hqueue =>
      split at hstep
      · cases hstep
      · next e he =>
          refine ⟨m, rest, e, hhandling, hqueue, he, ?_⟩
          by_cases hmem : m.name ∈ e.results
          · rw [onProgressUpdate, if_pos hmem] at hstep
            cases hstep
            exact Or.inr ⟨hmem, rfl⟩
          · rw [onProgressUpdate, if_neg hmem] at hstep
            cases hstep
            exact Or.inl ⟨hmem, rfl⟩
  · cases hstep

theorem System.list_cases {keySet : List String} (hstep : s.list keySet = some s') :
    s.handling = some .entered ∧ ∃ k results, s.results = some (k, results) ∧
      s' = { s with
        handling := some .listed
        activity := s.activity.updateResultsList results keySet } := by
  unfold System.list at hstep
  split at hstep
  · next k results hhandling hresults =>
      split at hstep
      · cases hstep
        exact ⟨hhandling, k, results, hresults, rfl⟩
      · cases hstep
  · cases hstep

theorem System.finish_cases {keySet : List String} {write : FileWrite}
    (hstep : s.finish registry keySet write = some s') :
    s.handling = some .listed ∧ ∃ k results, s.results = some (k, results) ∧
      keySet.Perm results.keys ∧
      s' = { s with
        handling := none
        activity := s.activity.onBenchmarkFinished registry.names.length k
          results keySet write } := by
  unfold System.finish at hstep
  split at hstep
  · next k results hhandling hresults =>
      split at hstep
      · next hperm =>
          cases hstep
          exact ⟨hhandling, k, results, hresults, hperm, rfl⟩
      · cases hstep
  · cases hstep

/-- A complete count goes idle and generates the CSV. -/
theorem onBenchmarkFinished_complete (a : Activity) {n : Nat} (k : Nat)
    {results : ResultMap} (keySet : List String) (write : FileWrite)
    (hsize : results.size = n) :
    let a' := a.onBenchmarkFinished n k results keySet write
    a'.startEnabled = true ∧ a'.status = .idle ∧ a'.executor = a.executor ∧
      a'.generated = a.generated ++ [⟨k, generateCSV results keySet⟩] ∧
      (a'.file = some (generateCSV results keySet) ∧
          a'.toast = some .csvWasGenerated ∨
        ∃ message, a'.toast = some (.failedToGenerateCsv message)) := by
  simp only [Activity.onBenchmarkFinished, if_pos hsize, Activity.generateResults]
  cases write with
  | written => exact ⟨rfl, rfl, rfl, rfl, Or.inl ⟨rfl, rfl⟩⟩
  | failed message left => exact ⟨rfl, rfl, rfl, rfl, Or.inr ⟨message, rfl⟩⟩

theorem onBenchmarkFinished_incomplete (a : Activity) {n : Nat} (k : Nat)
    {results : ResultMap} (keySet : List String) (write : FileWrite)
    (hsize : results.size ≠ n) :
    a.onBenchmarkFinished n k results keySet write = a := if_neg hsize

end Cases

/-! ## Complete results -/

/-- A map with as many results as there are benchmarks has all of them. -/
theorem InPhase.keys_perm {names : List String} {e : Executor} {ph : Phase}
    (hin : InPhase names e ph)
    (hsize : e.results.size = names.length) : e.results.keys.Perm names := by
  have hsub : e.results.keys ⊆ names := by
    intro name hname
    rw [← hin.names_eq]
    exact Phase.storedNames_subset
      ((hin.mem_results name).1 (AList.mem_keys.2 hname))
  have hsubperm := List.subperm_of_subset e.results.keys_nodup hsub
  exact hsubperm.perm_of_length_le (Nat.le_of_eq hsize.symm)

theorem InPhase.stored_of_finished {names : List String} {e : Executor}
    {ph : Phase} (hin : InPhase names e ph) (hfin : e.finished) :
    ∀ name ∈ names, name ∈ e.results := by
  intro name hname
  have hph := hin.of_finished hfin
  subst hph
  exact (hin.mem_results name).2 hname

theorem InPhase.size_of_finished {names : List String} (hnodup : names.Nodup)
    {e : Executor} {ph : Phase} (hin : InPhase names e ph) (hfin : e.finished) :
    e.results.size = names.length := by
  have hph := hin.of_finished hfin
  subst hph
  have hmem : ∀ name, name ∈ e.results.keys ↔ name ∈ names := fun name =>
    AList.mem_keys.symm.trans (hin.mem_results name)
  exact ((List.perm_ext_iff_of_nodup e.results.keys_nodup hnodup).2 hmem).length_eq

/-- The text is the header and exactly one row for each benchmark, with the
results this executor stored. -/
def CsvOf (registry : Registry) (e : Executor) (text : String) : Prop :=
  ∃ rows : List (String × TimeMeasure × TimeMeasure),
    (rows.map Prod.fst).Perm registry.names ∧
    (∀ r ∈ rows, e.results.lookup r.1 = some [r.2.1, r.2.2]) ∧
    text = separatedText ',' '\n' (csvTable rows)

theorem InPhase.csvOf {registry : Registry} {e : Executor} {ph : Phase}
    (hin : InPhase registry.names e ph)
    (hsize : e.results.size = registry.names.length) {keySet : List String}
    (hperm : keySet.Perm e.results.keys) :
    CsvOf registry e (generateCSV e.results keySet) := by
  obtain ⟨rows, hrows, hlookup⟩ := exists_rows fun key hkey =>
    hin.pairs key (AList.mem_keys.2 (hperm.mem_iff.1 hkey))
  refine ⟨rows, ?_, hlookup, ?_⟩
  · rw [hrows]
    exact hperm.trans (hin.keys_perm hsize)
  · rw [← hrows, generateCSV_eq hlookup]

/-! ## The invariant -/

/-- The activity is idle, and the last CSV it generated is this executor's.
Writing it to the file ended well or was reported. -/
def Shows (registry : Registry) (a : Activity) (k : Nat) (e : Executor) : Prop :=
  a.startEnabled = true ∧ a.status = .idle ∧
    ∃ text, CsvOf registry e text ∧ a.generated.getLast? = some ⟨k, text⟩ ∧
      (a.file = some text ∧ a.toast = some .csvWasGenerated ∨
        ∃ message, a.toast = some (.failedToGenerateCsv message))

/-- Where the last message of a finished latest executor is. -/
def LastMessage (registry : Registry) (s : System) (k : Nat) (e : Executor) : Prop :=
  (∃ older name, s.queue = older ++ [⟨k, name⟩] ∧ name ∈ e.results) ∨
  (s.queue = [] ∧ s.handling ≠ none) ∨
  (s.queue = [] ∧ s.handling = none ∧ Shows registry s.activity k e)

structure SystemInv (registry : Registry) (s : System) : Prop where
  phases : ∀ e ∈ s.executors, ∃ ph, InPhase registry.names e ph
  serial : s.executors.Pairwise fun e later =>
    e.finished ∨ later = Executor.execute registry.names
  current : s.activity.executor =
    if s.executors.length = 0 then none else some (s.executors.length - 1)
  last : ∀ older e, s.executors = older ++ [e] → e.finished →
    LastMessage registry s older.length e

theorem execute_not_finished (registry : Registry) :
    ¬ (Executor.execute registry.names).finished := by
  have hne := registry.nonempty
  unfold Executor.finished Executor.execute
  cases h : registry.names with
  | nil => exact absurd h hne
  | cons name rest =>
      rw [visibleSteps_cons]
      exact List.cons_ne_nil _ _

section Steps

variable {registry : Registry} {s s' : System}

/-- While the latest run has results, every run before it is over. -/
theorem SystemInv.older_finished (hinv : SystemInv registry s)
    {older : List Executor} {e : Executor} (hex : s.executors = older ++ [e])
    (hstarted : e ≠ Executor.execute registry.names) :
    ∀ x ∈ older, x.finished := by
  intro x hx
  have hserial := hinv.serial
  rw [hex, List.pairwise_append] at hserial
  rcases hserial.2.2 x hx e (List.mem_singleton.2 rfl) with h | h
  · exact h
  · exact absurd h hstarted

/-- The runs behind the one that takes a step have not been started. -/
theorem SystemInv.untouched_after (hinv : SystemInv registry s)
    {before after : List Executor} {e e' : Executor} {save load : TimeMeasure}
    {published : Option String} (hes : s.executors = before ++ e :: after)
    (hback : e.background save load = some (e', published)) :
    ∀ x ∈ after, x = Executor.execute registry.names := by
  intro x hx
  have hserial := hinv.serial
  rw [hes, List.pairwise_append, List.pairwise_cons] at hserial
  rcases hserial.2.1.1 x hx with hfin | h
  · rw [background_eq_none.2 hfin] at hback
    cases hback
  · exact h

/-- If the latest run has a result for each benchmark, all runs do. -/
theorem SystemInv.all_stored (hinv : SystemInv registry s)
    {older : List Executor} {e : Executor} (hex : s.executors = older ++ [e])
    (hsize : e.results.size = registry.names.length) :
    ∀ x ∈ s.executors, ∀ name ∈ registry.names, name ∈ x.results := by
  have hmem : e ∈ s.executors := by
    rw [hex]
    exact List.mem_append_right _ (List.mem_singleton.2 rfl)
  have hstarted : e ≠ Executor.execute registry.names := by
    intro h
    have hpos := List.length_pos_iff.2 registry.nonempty
    rw [h] at hsize
    simp only [Executor.execute, ResultMap.size, AList.keys_empty,
      List.length_nil] at hsize
    omega
  intro x hx name hname
  obtain ⟨ph, hin⟩ := hinv.phases x hx
  rw [hex, List.mem_append, List.mem_singleton] at hx
  rcases hx with hx | rfl
  · exact hin.stored_of_finished (hinv.older_finished hex hstarted x hx) name hname
  · exact AList.mem_keys.2 ((hin.keys_perm hsize).mem_iff.2 hname)

theorem SystemInv.start (registry : Registry) (file : Option String) :
    SystemInv registry (System.start file) where
  phases e he := absurd he List.not_mem_nil
  serial := List.Pairwise.nil
  current := rfl
  last older e hex := by
    cases older <;> cases hex

theorem SystemInv.click (hinv : SystemInv registry s)
    (hstep : s.click registry = some s') : SystemInv registry s' := by
  obtain ⟨_, _, rfl⟩ := System.click_cases hstep
  refine ⟨?_, ?_, ?_, ?_⟩
  · intro e he
    rcases List.mem_append.1 he with he | he
    · exact hinv.phases e he
    · rw [List.mem_singleton.1 he]
      exact ⟨_, InPhase.execute registry.names⟩
  · refine List.pairwise_append.2 ⟨hinv.serial, List.pairwise_singleton _ _, ?_⟩
    intro e _ later hlater
    exact Or.inr (List.mem_singleton.1 hlater)
  · simp
  · intro older e hex hfin
    have he := (List.append_inj' hex rfl).2
    rw [List.cons.injEq] at he
    rw [← he.1] at hfin
    exact absurd hfin (execute_not_finished registry)

/-- The message a finishing step publishes is about a stored benchmark. -/
theorem published_of_finished {names : List String} {e e' : Executor} {ph : Phase}
    {save load : TimeMeasure} {published : Option String} (hin : InPhase names e ph)
    (hback : e.background save load = some (e', published)) (hfin : e'.finished) :
    ∃ name, published = some name ∧ name ∈ e'.results := by
  have hfin' : e'.todo = [] := hfin
  rcases background_cases hin hback with
    ⟨done, name, rest, _, _, _, hin'⟩ | ⟨done, name, rest, _, _, _, hin'⟩ |
    ⟨done, name, rest, _, hpub, _, hin'⟩
  · rw [hin'.todo_eq, Phase.todo] at hfin'
    cases hfin'
  · rw [hin'.todo_eq, Phase.todo] at hfin'
    cases hfin'
  · refine ⟨name, hpub, (hin'.mem_results name).2 ?_⟩
    exact List.mem_append_right _ (List.mem_singleton.2 rfl)

theorem SystemInv.background {save load : TimeMeasure}
    (hinv : SystemInv registry s) (hstep : s.background save load = some s') :
    SystemInv registry s' := by
  obtain ⟨before, e, after, e', published, hes, hback, hfin, rfl⟩ :=
    System.background_step_cases hstep
  obtain ⟨ph, hin⟩ := hinv.phases e (by simp [hes])
  have hafter := hinv.untouched_after hes hback
  refine ⟨?_, ?_, ?_, ?_⟩
  · intro x hx
    rcases List.mem_append.1 hx with hx | hx
    · exact hinv.phases x (by rw [hes]; exact List.mem_append_left _ hx)
    · rcases List.mem_cons.1 hx with rfl | hx
      · rcases background_cases hin hback with
          ⟨done, name, rest, _, _, _, hin'⟩ | ⟨done, name, rest, _, _, _, hin'⟩ |
          ⟨done, name, rest, _, _, _, hin'⟩ <;> exact ⟨_, hin'⟩
      · rw [hafter x hx]
        exact ⟨_, InPhase.execute registry.names⟩
  · have hserial := hinv.serial
    rw [hes, List.pairwise_append, List.pairwise_cons] at hserial
    refine List.pairwise_append.2 ⟨hserial.1, List.pairwise_cons.2
      ⟨fun x hx => Or.inr (hafter x hx), hserial.2.1.2⟩, ?_⟩
    intro x hx _ _
    exact Or.inl (hfin x hx)
  · rw [hinv.current, hes]
    simp
  · intro older x hex hx
    -- The finished latest executor is the one that took the step.
    rcases List.eq_nil_or_concat after with hnil | ⟨after', y, hconcat⟩
    · subst hnil
      obtain ⟨hbefore, hsame⟩ := List.append_inj' hex rfl
      rw [List.cons.injEq] at hsame
      obtain ⟨rfl, _⟩ := hsame
      obtain ⟨name, rfl, hname⟩ := published_of_finished hin hback hx
      exact Or.inl ⟨s.queue, name, by rw [hbefore]; rfl, hname⟩
    · rw [List.concat_eq_append] at hconcat
      subst hconcat
      have hex' : (before ++ e' :: after') ++ [y] = older ++ [x] := by
        rw [← hex, List.append_assoc, List.cons_append]
      have hsame := (List.append_inj' hex' rfl).2
      rw [List.cons.injEq] at hsame
      rw [← hsame.1, hafter y (by simp)] at hx
      exact absurd hx (execute_not_finished registry)

/-- Taking a message off the queue leaves the last message where it was, or
the UI thread inside its handler. -/
theorem SystemInv.deliver (hinv : SystemInv registry s)
    (hstep : s.deliver = some s') : SystemInv registry s' := by
  obtain ⟨m, rest, e, hhandling, hqueue, he, hcases⟩ := System.deliver_cases hstep
  have hlast : ∀ older x, s.executors = older ++ [x] → x.finished →
      (∃ q name, rest = q ++ [⟨older.length, name⟩] ∧ name ∈ x.results) ∨
        (rest = [] ∧ x = e ∧ m.name ∈ e.results) := by
    intro older x hex hfin
    rcases hinv.last older x hex hfin with ⟨q, n, hq, hn⟩ | ⟨hq, _⟩ | ⟨hq, _⟩
    · rw [hqueue] at hq
      cases q with
      | nil =>
          rw [List.nil_append, List.cons.injEq] at hq
          obtain ⟨rfl, rfl⟩ := hq
          rw [hex, List.getElem?_concat_length] at he
          cases he
          exact Or.inr ⟨rfl, rfl, hn⟩
      | cons m' q =>
          rw [List.cons_append, List.cons.injEq] at hq
          exact Or.inl ⟨q, n, hq.2, hn⟩
    · rw [hqueue] at hq
      cases hq
    · rw [hqueue] at hq
      cases hq
  rcases hcases with ⟨hnew, rfl⟩ | ⟨_, rfl⟩
  · refine ⟨hinv.phases, hinv.serial, hinv.current, ?_⟩
    intro older x hex hfin
    rcases hlast older x hex hfin with hin | ⟨_, _, hmem⟩
    · exact Or.inl hin
    · exact absurd hmem hnew
  · refine ⟨hinv.phases, hinv.serial, hinv.current, ?_⟩
    intro older x hex hfin
    rcases hlast older x hex hfin with hin | ⟨hnil, _, _⟩
    · exact Or.inl hin
    · exact Or.inr (Or.inl ⟨hnil, Option.some_ne_none _⟩)

/-- The map the activity looks at is that of the latest executor. -/
theorem SystemInv.results_eq (hinv : SystemInv registry s) {k : Nat}
    {results : ResultMap} (h : s.results = some (k, results)) :
    ∃ older e, s.executors = older ++ [e] ∧ k = older.length ∧
      results = e.results := by
  unfold System.results at h
  have hcurrent := hinv.current
  rcases List.eq_nil_or_concat s.executors with hnil | ⟨older, e, hex⟩
  · rw [hnil] at hcurrent
    simp [hcurrent] at h
  · rw [List.concat_eq_append] at hex
    refine ⟨older, e, hex, ?_⟩
    rw [hex] at hcurrent
    simp [hcurrent, hex] at h
    exact ⟨h.1.symm, h.2.symm⟩

theorem SystemInv.list {keySet : List String} (hinv : SystemInv registry s)
    (hstep : s.list keySet = some s') : SystemInv registry s' := by
  obtain ⟨hhandling, k, results, _, rfl⟩ := System.list_cases hstep
  refine ⟨hinv.phases, hinv.serial, hinv.current, ?_⟩
  intro older e hex hfin
  rcases hinv.last older e hex hfin with hin | ⟨hq, _⟩ | ⟨_, hno, _⟩
  · exact Or.inl hin
  · exact Or.inr (Or.inl ⟨hq, Option.some_ne_none _⟩)
  · rw [hhandling] at hno
    cases hno

theorem SystemInv.finish {keySet : List String} {write : FileWrite}
    (hinv : SystemInv registry s)
    (hstep : s.finish registry keySet write = some s') :
    SystemInv registry s' := by
  obtain ⟨hhandling, k, results, hresults, hperm, rfl⟩ := System.finish_cases hstep
  obtain ⟨older, e, hex, rfl, rfl⟩ := hinv.results_eq hresults
  obtain ⟨ph, hin⟩ := hinv.phases e (by simp [hex])
  refine ⟨hinv.phases, hinv.serial, ?_, ?_⟩
  · by_cases hsize : e.results.size = registry.names.length
    · obtain ⟨_, _, hcurrent, _⟩ :=
        onBenchmarkFinished_complete s.activity older.length keySet write hsize
      show (s.activity.onBenchmarkFinished _ _ _ _ _).executor = _
      rw [hcurrent]
      exact hinv.current
    · rw [onBenchmarkFinished_incomplete s.activity _ _ _ hsize]
      exact hinv.current
  · intro older' x hex' hfin
    have hex' : s.executors = older' ++ [x] := hex'
    rw [hex] at hex'
    obtain ⟨rfl, hsame⟩ := List.append_inj' hex' rfl
    rw [List.cons.injEq] at hsame
    obtain ⟨rfl, _⟩ := hsame
    have hsize := hin.size_of_finished registry.nodup hfin
    obtain ⟨hen, hst, _, hgen, hfile⟩ :=
      onBenchmarkFinished_complete s.activity older.length keySet write hsize
    rcases hinv.last older e hex hfin with hlast | ⟨hq, _⟩ | ⟨_, hno, _⟩
    · exact Or.inl hlast
    · refine Or.inr (Or.inr ⟨hq, rfl, hen, hst, _, hin.csvOf hsize hperm, ?_, hfile⟩)
      rw [hgen, List.getLast?_append, List.getLast?_singleton]
      rfl
    · rw [hhandling] at hno
      cases hno

theorem SystemInv.next {label : SystemLabel} (hinv : SystemInv registry s)
    (hstep : s.next registry label = some s') : SystemInv registry s' := by
  cases label with
  | click => exact hinv.click hstep
  | background save load => exact hinv.background hstep
  | deliver => exact hinv.deliver hstep
  | list keySet => exact hinv.list hstep
  | finish keySet write => exact hinv.finish hstep

theorem SystemInv.of_reachable {file : Option String}
    (hr : (System.lts registry file).Reachable s) : SystemInv registry s := by
  refine hr.invariant ?_ ?_
  · intro s hs
    cases hs
    exact SystemInv.start registry file
  · intro s label s' hinv hstep
    exact hinv.next hstep

end Steps

end OrmBenchmark.Ref
