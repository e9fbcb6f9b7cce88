import OrmBenchmark.Proofs.Quiescence

/-!
# What the list of results shows

`updateResultsList` copies the map of the executor the activity holds, which is
the latest one, although the message that led there may have come from an older
one; and the map goes on being written while the list stands. What was copied
stays true: a task stores a benchmark once, so no row of the map ever changes.
And the last message of a run is handled after its last store, so when the
system is quiet the list is that run's whole map.
-/

namespace OrmBenchmark.Ref

open OrmBenchmark.Lib

/-- The rows are results this executor has stored, one for a benchmark at most. -/
structure Listed (e : Executor) (rows : List (String × List TimeMeasure)) : Prop where
  nodup : (rows.map Prod.fst).Nodup
  stored : ∀ row ∈ rows, e.results.lookup row.1 = some row.2

/-- … and there is one for each benchmark. -/
structure ListedAll (registry : Registry) (e : Executor)
    (rows : List (String × List TimeMeasure)) : Prop extends Listed e rows where
  names : (rows.map Prod.fst).Perm registry.names

section

variable {registry : Registry} {file : Option String} {s s' : System} {e e' : Executor}
  {rows : List (String × List TimeMeasure)}

/-- A step of a task leaves what it has stored as it is. -/
theorem background_lookup {names : List String} {ph : Phase} {save load : TimeMeasure}
    {published : Option String} (hnodup : names.Nodup) (hin : InPhase names e ph)
    (hback : e.background save load = some (e', published)) {name : String}
    {measures : List TimeMeasure} (hlookup : e.results.lookup name = some measures) :
    e'.results.lookup name = some measures := by
  rcases background_cases hin hback with
    ⟨done, n, rest, _, _, hresults, _⟩ | ⟨done, n, rest, hph, _, hresults, _⟩ |
    ⟨done, n, rest, _, _, hresults, _⟩
  · rw [hresults, hlookup]
  · -- What is stored now was not stored before.
    have hne : name ≠ n := by
      intro hname
      subst hname
      have hmem : name ∈ e.results := by
        rw [← AList.lookup_isSome, hlookup]
        rfl
      have hnames := hin.names_eq
      rw [hin.mem_results, hph, Phase.storedNames] at hmem
      rw [hph, Phase.names] at hnames
      rw [← hnames] at hnodup
      exact not_mem_done hnodup hmem
    rw [hresults, AList.lookup_insert_ne hne, hlookup]
  · rw [hresults, hlookup]

theorem Listed.background {names : List String} {ph : Phase} {save load : TimeMeasure}
    {published : Option String} (h : Listed e rows) (hnodup : names.Nodup)
    (hin : InPhase names e ph) (hback : e.background save load = some (e', published)) :
    Listed e' rows :=
  ⟨h.nodup, fun row hrow => background_lookup hnodup hin hback (h.stored row hrow)⟩

/-! ## Listing -/

theorem rows_keys {results : ResultMap} {keySet : List String}
    (hkeys : ∀ key ∈ keySet, key ∈ results) :
    (keySet.filterMap fun key => (results.lookup key).map fun measures =>
      (key, measures)).map Prod.fst = keySet := by
  induction keySet with
  | nil => rfl
  | cons key rest ih =>
      obtain ⟨measures, hlookup⟩ :=
        Option.isSome_iff_exists.1 (AList.lookup_isSome.2 (hkeys key List.mem_cons_self))
      rw [List.filterMap_cons, hlookup]
      simp only [Option.map_some, List.map_cons]
      rw [ih fun k hk => hkeys k (List.mem_cons_of_mem _ hk)]

theorem listed_updateResultsList (a : Activity) {keySet : List String}
    (hperm : keySet.Perm e.results.keys) :
    Listed e (a.updateResultsList e.results keySet).resultsList := by
  have hkeys : ∀ key ∈ keySet, key ∈ e.results := fun key hkey =>
    AList.mem_keys.2 (hperm.mem_iff.1 hkey)
  refine ⟨?_, ?_⟩
  · rw [Activity.updateResultsList, rows_keys hkeys]
    exact hperm.nodup_iff.2 e.results.keys_nodup
  · intro row hrow
    obtain ⟨key, _, hrow⟩ := List.mem_filterMap.1 hrow
    obtain ⟨measures, hlookup, rfl⟩ := Option.map_eq_some_iff.1 hrow
    exact hlookup

theorem InPhase.listedAll {ph : Phase} (hin : InPhase registry.names e ph) (hfin : e.finished)
    (a : Activity) {keySet : List String} (hperm : keySet.Perm e.results.keys) :
    ListedAll registry e (a.updateResultsList e.results keySet).resultsList where
  toListed := listed_updateResultsList a hperm
  names := by
    rw [Activity.updateResultsList,
      rows_keys fun key hkey => AList.mem_keys.2 (hperm.mem_iff.1 hkey)]
    exact hperm.trans (hin.keys_perm (hin.size_of_finished registry.nodup hfin))

theorem System.list_perm {keySet : List String} (hstep : s.list keySet = some s') :
    ∃ k results, s.results = some (k, results) ∧ keySet.Perm results.keys ∧
      s' = { s with
        handling := some .listed
        activity := s.activity.updateResultsList results keySet } := by
  obtain ⟨hhandling, k, results, hresults, rfl⟩ := System.list_cases hstep
  refine ⟨k, results, hresults, ?_, rfl⟩
  simp only [System.list, hhandling, hresults] at hstep
  by_contra hperm
  rw [if_neg hperm] at hstep
  cases hstep

/-! ## The invariant -/

/-- `last` follows the last message of the latest run: until it is taken it is
in the queue, and once it is listed the list is complete. -/
structure ListInv (registry : Registry) (s : System) : Prop where
  shown : s.activity.resultsList = [] ∨
    ∃ e ∈ s.executors, Listed e s.activity.resultsList
  last : ∀ older e, s.executors = older ++ [e] → e.finished →
    (∃ q name, s.queue = q ++ [⟨older.length, name⟩] ∧ name ∈ e.results) ∨
      (s.queue = [] ∧ s.handling = some .entered) ∨
      ListedAll registry e s.activity.resultsList

theorem resultsList_onBenchmarkFinished (a : Activity) {n k : Nat} {results : ResultMap}
    {keySet : List String} {write : FileWrite} :
    (a.onBenchmarkFinished n k results keySet write).resultsList = a.resultsList := by
  unfold Activity.onBenchmarkFinished
  split
  · cases write with
    | written => rfl
    | failed message left => rfl
  · rfl

theorem ListInv.click (hinv : ListInv registry s) (hstep : s.click registry = some s') :
    ListInv registry s' := by
  obtain ⟨_, _, rfl⟩ := System.click_cases hstep
  refine ⟨?_, ?_⟩
  · rcases hinv.shown with hnil | ⟨e, he, hlisted⟩
    · exact Or.inl hnil
    · exact Or.inr ⟨e, List.mem_append_left _ he, hlisted⟩
  · intro older e hex hfin
    have he := (List.append_inj' hex rfl).2
    rw [List.cons.injEq] at he
    rw [← he.1] at hfin
    exact absurd hfin (execute_not_finished registry)

theorem ListInv.background {save load : TimeMeasure} (hinv : ListInv registry s)
    (hsys : SystemInv registry s) (hstep : s.background save load = some s') :
    ListInv registry s' := by
  obtain ⟨before, e, after, e', published, hes, hback, _, rfl⟩ :=
    System.background_step_cases hstep
  obtain ⟨ph, hin⟩ := hsys.phases e (by simp [hes])
  refine ⟨?_, ?_⟩
  · rcases hinv.shown with hnil | ⟨x, hx, hlisted⟩
    · exact Or.inl hnil
    · right
      rw [hes, List.mem_append, List.mem_cons] at hx
      rcases hx with hx | rfl | hx
      · exact ⟨x, List.mem_append_left _ hx, hlisted⟩
      · exact ⟨e', by simp, hlisted.background registry.nodup hin hback⟩
      · exact ⟨x, by simp [hx], hlisted⟩
  · intro older x hex hfin
    -- The finished latest executor took the step, and published its last message.
    have hafter := hsys.untouched_after hes hback
    have hex : before ++ e' :: after = older ++ [x] := hex
    rcases List.eq_nil_or_concat after with hnil | ⟨after', y, hconcat⟩
    · subst hnil
      obtain ⟨rfl, hsame⟩ := List.append_inj' hex rfl
      rw [List.cons.injEq] at hsame
      obtain ⟨rfl, _⟩ := hsame
      obtain ⟨name, rfl, hname⟩ := published_of_finished hin hback hfin
      exact Or.inl ⟨s.queue, name, rfl, hname⟩
    · rw [List.concat_eq_append] at hconcat
      subst hconcat
      rw [← List.cons_append, ← List.append_assoc] at hex
      have hsame := (List.append_inj' hex rfl).2
      rw [List.cons.injEq] at hsame
      rw [← hsame.1, hafter y (by simp)] at hfin
      exact absurd hfin (execute_not_finished registry)

theorem ListInv.deliver (hinv : ListInv registry s) (hstep : s.deliver = some s') :
    ListInv registry s' := by
  obtain ⟨m, rest, e, hhandling, hqueue, he, hcases⟩ := System.deliver_cases hstep
  have hlast : ∀ older x, s.executors = older ++ [x] → x.finished →
      (∃ q name, rest = q ++ [⟨older.length, name⟩] ∧ name ∈ x.results) ∨
        (rest = [] ∧ m.name ∈ e.results) ∨ ListedAll registry x s.activity.resultsList := by
    intro older x hex hfin
    rcases hinv.last older x hex hfin with ⟨q, n, hq, hn⟩ | ⟨hq, _⟩ | hlisted
    · rw [hqueue] at hq
      cases q with
      | nil =>
          rw [List.nil_append, List.cons.injEq] at hq
          obtain ⟨rfl, rfl⟩ := hq
          rw [hex, List.getElem?_concat_length] at he
          cases he
          exact Or.inr (Or.inl ⟨rfl, hn⟩)
      | cons m' q =>
          rw [List.cons_append, List.cons.injEq] at hq
          exact Or.inl ⟨q, n, hq.2, hn⟩
    · rw [hqueue] at hq
      cases hq
    · exact Or.inr (Or.inr hlisted)
  rcases hcases with ⟨hnew, rfl⟩ | ⟨_, rfl⟩
  · refine ⟨hinv.shown, ?_⟩
    intro older x hex hfin
    rcases hlast older x hex hfin with hin | ⟨_, hmem⟩ | hlisted
    · exact Or.inl hin
    · exact absurd hmem hnew
    · exact Or.inr (Or.inr hlisted)
  · refine ⟨hinv.shown, ?_⟩
    intro older x hex hfin
    rcases hlast older x hex hfin with hin | ⟨hnil, _⟩ | hlisted
    · exact Or.inl hin
    · exact Or.inr (Or.inl ⟨hnil, rfl⟩)
    · exact Or.inr (Or.inr hlisted)

/-- Listing makes the list right, whatever it showed before. -/
theorem SystemInv.listed {keySet : List String} (hsys : SystemInv registry s)
    (hstep : s.list keySet = some s') : ListInv registry s' := by
  obtain ⟨k, results, hresults, hperm, rfl⟩ := System.list_perm hstep
  obtain ⟨older, e, hex, _, rfl⟩ := hsys.results_eq hresults
  have hmem : e ∈ s.executors := by simp [hex]
  obtain ⟨ph, hin⟩ := hsys.phases e hmem
  refine ⟨Or.inr ⟨e, hmem, listed_updateResultsList _ hperm⟩, ?_⟩
  intro older' x hex' hfin
  have hex' : s.executors = older' ++ [x] := hex'
  rw [hex] at hex'
  have hsame := (List.append_inj' hex' rfl).2
  rw [List.cons.injEq] at hsame
  rw [← hsame.1] at hfin ⊢
  exact Or.inr (Or.inr (hin.listedAll hfin _ hperm))

theorem ListInv.finish {keySet : List String} {write : FileWrite} (hinv : ListInv registry s)
    (hstep : s.finish registry keySet write = some s') : ListInv registry s' := by
  obtain ⟨hhandling, k, results, _, _, rfl⟩ := System.finish_cases hstep
  refine ⟨?_, ?_⟩
  · simp only [resultsList_onBenchmarkFinished]
    exact hinv.shown
  · intro older x hex hfin
    simp only [resultsList_onBenchmarkFinished]
    rcases hinv.last older x hex hfin with hin | ⟨_, hentered⟩ | hlisted
    · exact Or.inl hin
    · rw [hhandling] at hentered
      cases hentered
    · exact Or.inr (Or.inr hlisted)

theorem ListInv.of_reachable (hr : (System.lts registry file).Reachable s) :
    ListInv registry s := by
  obtain ⟨history, hrun⟩ := hr
  refine Lts.Run.history_invariant (I := fun _ s => ListInv registry s) ?_ ?_ hrun
  · intro s hs
    cases hs
    refine ⟨Or.inl rfl, ?_⟩
    intro older e hex
    cases older <;> cases hex
  · intro history s label s' hbefore hinv hstep
    have hsys := SystemInv.of_reachable ⟨history, hbefore⟩
    cases label with
    | click => exact hinv.click hstep
    | background save load => exact hinv.background hsys hstep
    | deliver => exact hinv.deliver hstep
    | list keySet => exact hsys.listed hstep
    | finish keySet write => exact hinv.finish hstep

/-- At any moment the list shows results that one run has stored and keeps, one
row for a benchmark; and when the system is quiet, those of the latest run for
every benchmark. -/
theorem resultsList_of_one_run (hr : (System.lts registry file).Reachable s) :
    (s.activity.resultsList = [] ∨
        ∃ e ∈ s.executors, Listed e s.activity.resultsList) ∧
      (Quiet s → s.executors ≠ [] → ∃ older latest, s.executors = older ++ [latest] ∧
        ListedAll registry latest s.activity.resultsList) := by
  have hinv := ListInv.of_reachable hr
  refine ⟨hinv.shown, fun hquiet hstarted => ?_⟩
  rcases List.eq_nil_or_concat s.executors with hnil | ⟨older, latest, hex⟩
  · exact absurd hnil hstarted
  · rw [List.concat_eq_append] at hex
    refine ⟨older, latest, hex, ?_⟩
    rcases hinv.last older latest hex (hquiet.finished latest (by simp [hex])) with
      ⟨q, name, hq, _⟩ | ⟨_, hentered⟩ | hlisted
    · rw [hquiet.queue] at hq
      simp at hq
    · rw [hquiet.handling] at hentered
      cases hentered
    · exact hlisted

/-- Two runs of two benchmarks, heard of only after both are over. -/
theorem resultsList_of_one_run_lateDelivery :
    ∃ registry s, (System.lts registry none).Reachable s ∧ s.executors.length = 2 ∧
      Quiet s ∧ ∃ older latest, s.executors = older ++ [latest] ∧
        ListedAll registry latest s.activity.resultsList := by
  let registry : Registry := ⟨["ORMLite", "GenericDao"], by decide, by decide⟩
  let tm : TimeMeasure := ⟨0, 0, 0, 0⟩
  let heard : List SystemLabel :=
    [.deliver, .list ["ORMLite", "GenericDao"], .finish ["ORMLite", "GenericDao"] .written]
  obtain ⟨h, s, hrun, htest⟩ := Lts.exists_run_of_replay (System.start none)
    (System.next registry)
    ([.click, .click] ++ List.replicate 12 (.background tm tm) ++
      (List.replicate 8 heard).flatten)
    (fun _ s => decide (s.executors.length = 2 ∧ Quiet s ∧ s.executors ≠ [])) (by decide)
  obtain ⟨hlength, hquiet, hstarted⟩ := of_decide_eq_true htest
  have hr : (System.lts registry none).Reachable s := ⟨h, hrun⟩
  exact ⟨registry, s, hr, hlength, hquiet, (resultsList_of_one_run hr).2 hquiet hstarted⟩

end

end OrmBenchmark.Ref
