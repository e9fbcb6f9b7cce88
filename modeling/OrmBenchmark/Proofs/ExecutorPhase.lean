import OrmBenchmark.Ref.Executor

/-!
# Where a background task stands

A task is between two benchmarks, or has published the start of one, or has
stored its results and not yet published them. The phase fixes what is left to
do and which names the results map holds, and `background_cases` says once
what a step does: it moves to the next of the three, and only the middle one
writes the map. The interleaving systems all argue from it.
-/

namespace OrmBenchmark.Ref

theorem visibleSteps_nil : visibleSteps [] = [] := rfl

theorem visibleSteps_cons (name : String) (rest : List String) :
    visibleSteps (name :: rest) =
      .publishProgress name :: .put name :: .publishProgress name ::
        visibleSteps rest := rfl

/-- The benchmarks that are over, the one that is not, the ones to come. -/
inductive Phase
  | between (done rest : List String)
  | started (done : List String) (name : String) (rest : List String)
  | stored (done : List String) (name : String) (rest : List String)

namespace Phase

def names : Phase → List String
  | between done rest => done ++ rest
  | started done name rest => done ++ name :: rest
  | stored done name rest => done ++ name :: rest

def todo : Phase → List Instr
  | between _ rest => visibleSteps rest
  | started _ name rest => .put name :: .publishProgress name :: visibleSteps rest
  | stored _ name rest => .publishProgress name :: visibleSteps rest

/-- The names whose results the map holds. -/
def storedNames : Phase → List String
  | between done _ => done
  | started done _ _ => done
  | stored done name _ => done ++ [name]

theorem storedNames_subset {ph : Phase} {name : String}
    (h : name ∈ ph.storedNames) : name ∈ ph.names := by
  cases ph with
  | between done rest => exact List.mem_append_left _ h
  | started done n rest => exact List.mem_append_left _ h
  | stored done n rest =>
      rw [storedNames, List.mem_append, List.mem_singleton] at h
      rw [names, List.mem_append, List.mem_cons]
      rcases h with h | h
      · exact Or.inl h
      · exact Or.inr (Or.inl h)

end Phase

/-- The executor's task is in this phase of these benchmarks. -/
structure InPhase (names : List String) (e : Executor) (ph : Phase) : Prop where
  names_eq : ph.names = names
  todo_eq : e.todo = ph.todo
  mem_results : ∀ name, name ∈ e.results ↔ name ∈ ph.storedNames
  pairs : ∀ name ∈ e.results, ∃ save load : TimeMeasure,
    e.results.lookup name = some [save, load]

theorem InPhase.execute (names : List String) :
    InPhase names (Executor.execute names) (.between [] names) where
  names_eq := rfl
  todo_eq := rfl
  mem_results name := by
    show name ∈ (∅ : ResultMap) ↔ name ∈ ([] : List String)
    simp
  pairs name hmem := absurd hmem (AList.notMem_empty name)

theorem background_cases {names : List String} {e e' : Executor} {ph : Phase}
    {save load : TimeMeasure} {published : Option String}
    (hin : InPhase names e ph)
    (hstep : e.background save load = some (e', published)) :
    (∃ done name rest, ph = .between done (name :: rest) ∧
      published = some name ∧ e'.results = e.results ∧
      InPhase names e' (.started done name rest)) ∨
    (∃ done name rest, ph = .started done name rest ∧ published = none ∧
      e'.results = e.results.insert name [save, load] ∧
      InPhase names e' (.stored done name rest)) ∨
    (∃ done name rest, ph = .stored done name rest ∧
      published = some name ∧ e'.results = e.results ∧
      InPhase names e' (.between (done ++ [name]) rest)) := by
  have htodo := hin.todo_eq
  unfold Executor.background at hstep
  cases ph with
  | between done rest =>
      cases rest with
      | nil =>
          rw [Phase.todo, visibleSteps_nil] at htodo
          rw [htodo] at hstep
          cases hstep
      | cons name rest =>
          rw [Phase.todo, visibleSteps_cons] at htodo
          rw [htodo] at hstep
          cases hstep
          exact Or.inl ⟨done, name, rest, rfl, rfl, rfl,
            hin.names_eq, rfl, hin.mem_results, hin.pairs⟩
  | started done name rest =>
      rw [Phase.todo] at htodo
      rw [htodo] at hstep
      cases hstep
      refine Or.inr (Or.inl ⟨done, name, rest, rfl, rfl, rfl, hin.names_eq, rfl,
        fun n => ?_, fun n hn => ?_⟩)
      · rw [AList.mem_insert, hin.mem_results n, Phase.storedNames,
          Phase.storedNames, List.mem_append, List.mem_singleton, or_comm]
      · by_cases hname : n = name
        · subst hname
          exact ⟨save, load, AList.lookup_insert _⟩
        · have hold : n ∈ e.results := by
            rcases (AList.mem_insert _).1 hn with h | h
            · exact absurd h hname
            · exact h
          obtain ⟨save', load', hlookup⟩ := hin.pairs n hold
          exact ⟨save', load', by rw [AList.lookup_insert_ne hname, hlookup]⟩
  | stored done name rest =>
      rw [Phase.todo] at htodo
      rw [htodo] at hstep
      cases hstep
      refine Or.inr (Or.inr ⟨done, name, rest, rfl, rfl, rfl, ?_, rfl,
        hin.mem_results, hin.pairs⟩)
      rw [← hin.names_eq, Phase.names, Phase.names, List.append_assoc]
      rfl

/-- A finished task has stored every benchmark's results. -/
theorem InPhase.of_finished {names : List String} {e : Executor} {ph : Phase}
    (hin : InPhase names e ph) (hfin : e.finished) : ph = .between names [] := by
  have htodo := hin.todo_eq
  have hnames := hin.names_eq
  rw [hfin] at htodo
  cases ph with
  | between done rest =>
      cases rest with
      | nil =>
          rw [Phase.names, List.append_nil] at hnames
          rw [hnames]
      | cons name rest => cases htodo
  | started done name rest => cases htodo
  | stored done name rest => cases htodo

theorem not_mem_done {done rest : List String} {name : String}
    (hnodup : (done ++ name :: rest).Nodup) : name ∉ done := by
  intro hd
  exact (List.nodup_append.1 hnodup).2.2 name hd name List.mem_cons_self rfl

/-- A step never takes results away. -/
theorem background_results_mono {e e' : Executor} {save load : TimeMeasure}
    {published : Option String}
    (hstep : e.background save load = some (e', published)) {name : String}
    (hmem : name ∈ e.results) : name ∈ e'.results := by
  unfold Executor.background at hstep
  split at hstep
  · cases hstep
  · cases hstep
    exact hmem
  · cases hstep
    exact (AList.mem_insert _).2 (Or.inr hmem)

/-- A task that has stored every benchmark's results is over, or has one last
message to publish. -/
theorem InPhase.of_complete {names : List String} {e : Executor} {ph : Phase}
    (hnodup : names.Nodup) (hin : InPhase names e ph)
    (hall : ∀ name ∈ names, name ∈ e.results) :
    e.finished ∨ ∃ name, e.todo = [.publishProgress name] := by
  have hnames := hin.names_eq
  have htodo := hin.todo_eq
  -- A benchmark that is yet to come is not among those that are over.
  have hrest : ∀ done name rest, names = done ++ name :: rest →
      ph.storedNames = done → False := by
    intro done name rest hsplit hstored
    have hmem := (hin.mem_results name).1 (hall name (by simp [hsplit]))
    rw [hstored] at hmem
    exact not_mem_done (hsplit ▸ hnodup) hmem
  cases ph with
  | between done rest =>
      cases rest with
      | nil => exact Or.inl htodo
      | cons name rest => exact (hrest done name rest hnames.symm rfl).elim
  | started done name rest => exact (hrest done name rest hnames.symm rfl).elim
  | stored done name rest =>
      cases rest with
      | nil => exact Or.inr ⟨name, htodo⟩
      | cons next rest =>
          refine (hrest (done ++ [name]) next rest ?_ rfl).elim
          rw [← hnames, Phase.names, List.append_assoc, List.singleton_append]

end OrmBenchmark.Ref
