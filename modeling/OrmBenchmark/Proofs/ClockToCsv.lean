import Mathlib
import OrmBenchmark.Proofs.Background
import OrmBenchmark.Proofs.Csv

/-!
# From clock readings to the CSV

Every measure of a run is the time between two readings next to each other,
and the readings of a run are taken in order. So the durations of one phase
are disjoint intervals of the clock, their sum is bounded by the span of the
run, and the averaging loop computes it exactly. What is stored for a benchmark
is then the floor of that sum, what the CSV says of it is its decimal, and the
separators can be read back because neither names nor decimals hold one.
-/

namespace OrmBenchmark.Ref

open OrmBenchmark.Lib

/-- The average save of the `k`-th benchmark, in milliseconds: the readings
around its saves are the first two of the four of each pass. -/
def saveMillis (t : Nat → Int) (passes k : Nat) : Int :=
  ((List.range passes).map fun i =>
    gap t (4 * passes * k + 4 * i) (4 * passes * k + 4 * i + 1)).sum / (passes * 1000000)

/-- The average load: the other two. -/
def loadMillis (t : Nat → Int) (passes k : Nat) : Int :=
  ((List.range passes).map fun i =>
    gap t (4 * passes * k + 4 * i + 2) (4 * passes * k + 4 * i + 3)).sum /
      (passes * 1000000)

/-- Every average of the task was computed without overflow, over at least one
measure. -/
def NoOverflow {ω : Type} (env : ExecEnv) (trace : List (ExecEvent ω)) : Prop :=
  ∀ name ms, .averaged name ms ∈ trace →
    ∀ actionRes ∈ [env.ids.saveEntitiesInTransaction, env.ids.loadEntities],
      TimeMeasure.Exact actionRes ms ∧ TimeMeasure.tagged actionRes ms ≠ []

section

variable {env : ExecEnv} {t : Nat → Int} {n : Nat}

/-- The environment's clock shows the time `t`, which does not go back, and
the first `n` readings span less than half of the range. -/
structure Clock (env : ExecEnv) (t : Nat → Int) (n : Nat) : Prop where
  shows : ∀ k, env.nanoTime k = reading (t k)
  mono : Monotone t
  span : ∀ k < n, gap t 0 k < 2 ^ 63

theorem Clock.toInt_sub (h : Clock env t n) {r : Nat} (hr : r + 1 < n) :
    (env.nanoTime (r + 1) - env.nanoTime r).toInt = gap t r (r + 1) := by
  have hstart : 0 ≤ gap t 0 r := gap_nonneg h.mono (Nat.zero_le r)
  have hsplit := gap_add_gap (t := t) 0 r (r + 1)
  have hspan := h.span (r + 1) hr
  rw [h.shows, h.shows]
  exact toInt_reading_sub (gap_nonneg h.mono (Nat.le_succ r)) (by omega)

theorem Clock.nano_saveMeasure (h : Clock env t n) {r : Nat} (hr : r + 1 < n) :
    (saveMeasure env r).nano.toInt = gap t r (r + 1) := h.toInt_sub hr

theorem Clock.nano_loadMeasure (h : Clock env t n) {r : Nat} (hr : r + 1 < n) :
    (loadMeasure env r).nano.toInt = gap t r (r + 1) := h.toInt_sub hr

variable {r passes : Nat}

theorem Clock.measures_nonneg (h : Clock env t n) (hn : r + 4 * passes ≤ n) :
    ∀ tm ∈ runMeasures env r passes, 0 ≤ tm.nano.toInt := by
  intro tm htm
  obtain ⟨i, hi, htm⟩ := List.mem_flatMap.1 htm
  have hi := List.mem_range.1 hi
  rcases List.mem_cons.1 htm with rfl | htm
  · rw [h.nano_saveMeasure (by omega)]
    exact gap_nonneg h.mono (Nat.le_succ _)
  · rw [List.mem_singleton.1 htm, h.nano_loadMeasure (by omega)]
    exact gap_nonneg h.mono (Nat.le_succ _)

/-- The durations of one phase: the two readings at offset `d` of each pass. -/
theorem Clock.sum_lt (h : Clock env t n) (hn : r + 4 * passes ≤ n) {d : Nat}
    (hd : d + 1 < 4) :
    ((List.range passes).map fun i =>
      gap t (r + 4 * i + d) (r + 4 * i + d + 1)).sum < 2 ^ 63 := by
  cases passes with
  | zero => simp
  | succ p =>
      have hsum := sum_gaps_le h.mono (fun i => r + 4 * i + d)
        (fun i => r + 4 * i + d + 1) (fun i => by omega) p
      have hstart : 0 ≤ gap t 0 (r + 4 * 0 + d) := gap_nonneg h.mono (Nat.zero_le _)
      have hsplit := gap_add_gap (t := t) 0 (r + 4 * 0 + d) (r + 4 * p + d + 1)
      have hspan := h.span (r + 4 * p + d + 1) (by omega)
      omega

theorem Clock.total_save (h : Clock env t n) (hn : r + 4 * passes ≤ n) :
    TimeMeasure.total env.ids.saveEntitiesInTransaction (runMeasures env r passes) =
      ((List.range passes).map fun i => gap t (r + 4 * i) (r + 4 * i + 1)).sum := by
  rw [TimeMeasure.total, tagged_save, List.map_map]
  congr 1
  refine List.map_congr_left fun i hi => ?_
  have hi := List.mem_range.1 hi
  exact h.nano_saveMeasure (by omega)

theorem Clock.total_load (h : Clock env t n) (hn : r + 4 * passes ≤ n) :
    TimeMeasure.total env.ids.loadEntities (runMeasures env r passes) =
      ((List.range passes).map fun i => gap t (r + 4 * i + 2) (r + 4 * i + 3)).sum := by
  rw [TimeMeasure.total, tagged_load, List.map_map]
  congr 1
  refine List.map_congr_left fun i hi => ?_
  have hi := List.mem_range.1 hi
  exact h.nano_loadMeasure (by omega)

theorem Clock.exact_save (h : Clock env t n) (hn : r + 4 * passes ≤ n)
    (hpasses : passes < 2 ^ 31) :
    TimeMeasure.Exact env.ids.saveEntitiesInTransaction (runMeasures env r passes) := by
  refine .of_bounds (h.measures_nonneg hn) ?_ ?_
  · rw [h.total_save hn]
    exact h.sum_lt hn (d := 0) (by omega)
  · rw [tagged_save, List.length_map, List.length_range]
    omega

theorem Clock.exact_load (h : Clock env t n) (hn : r + 4 * passes ≤ n)
    (hpasses : passes < 2 ^ 31) :
    TimeMeasure.Exact env.ids.loadEntities (runMeasures env r passes) := by
  refine .of_bounds (h.measures_nonneg hn) ?_ ?_
  · rw [h.total_load hn]
    exact h.sum_lt hn (d := 2) (by omega)
  · rw [tagged_load, List.length_map, List.length_range]
    omega

theorem Clock.noOverflow {ω : Type} {E : ExecEvent ω → Prop}
    {trace : List (ExecEvent ω)} {m : Nat} (h : Clock env t (4 * env.PASSES * m))
    (hpasses : 1 ≤ env.PASSES) {k : Nat} (hk : k ≤ m)
    (htraced : Traced env E k trace) : NoOverflow env trace := by
  intro name ms hmem actionRes hid
  obtain ⟨j, hj, rfl⟩ := htraced.averaged name ms hmem
  have hn : 4 * env.PASSES * j + 4 * env.PASSES ≤ 4 * env.PASSES * m := by
    rw [← Nat.mul_succ]
    exact Nat.mul_le_mul_left _ (by omega)
  have hne : List.range env.PASSES ≠ [] := by
    rw [Ne, List.range_eq_nil]
    omega
  rcases List.mem_cons.1 hid with rfl | hid
  · refine ⟨h.exact_save hn env.passes_lt, ?_⟩
    rw [tagged_save]
    simpa using hne
  · rw [List.mem_singleton.1 hid]
    refine ⟨h.exact_load hn env.passes_lt, ?_⟩
    rw [tagged_load]
    simpa using hne

/-- The stored averages are the floors. -/
theorem Clock.averages {m : Nat} (h : Clock env t (4 * env.PASSES * m)) {k : Nat}
    (hk : k < m) {save load : TimeMeasure}
    (haverages : Averages env (4 * env.PASSES * k) save load) :
    save.msec.toInt = saveMillis t env.PASSES k ∧
      load.msec.toInt = loadMillis t env.PASSES k := by
  have hn : 4 * env.PASSES * k + 4 * env.PASSES ≤ 4 * env.PASSES * m := by
    rw [← Nat.mul_succ]
    exact Nat.mul_le_mul_left _ (by omega)
  have hnonneg := h.measures_nonneg hn
  constructor
  · rw [TimeMeasure.ofMeasures_of_exact (h.exact_save hn env.passes_lt) hnonneg
      haverages.1, h.total_save hn, tagged_save, List.length_map, List.length_range,
      saveMillis]
  · rw [TimeMeasure.ofMeasures_of_exact (h.exact_load hn env.passes_lt) hnonneg
      haverages.2, h.total_load hn, tagged_load, List.length_map, List.length_range,
      loadMillis]

theorem saveMillis_nonneg (hmono : Monotone t) (k : Nat) : 0 ≤ saveMillis t passes k := by
  refine Int.ediv_nonneg (List.sum_nonneg fun x hx => ?_) (by omega)
  obtain ⟨i, _, rfl⟩ := List.mem_map.1 hx
  exact gap_nonneg hmono (Nat.le_succ _)

theorem loadMillis_nonneg (hmono : Monotone t) (k : Nat) : 0 ≤ loadMillis t passes k := by
  refine Int.ediv_nonneg (List.sum_nonneg fun x hx => ?_) (by omega)
  obtain ⟨i, _, rfl⟩ := List.mem_map.1 hx
  exact gap_nonneg hmono (Nat.le_succ _)

end

/-! ## The text -/

/-- The decimal of a number that is not negative is made of digits. -/
theorem isDigit_of_mem_toString {n : Int} (hn : 0 ≤ n) {c : Char}
    (hc : c ∈ (toString n).toList) : c.isDigit = true := by
  obtain ⟨m, rfl⟩ := Int.eq_ofNat_of_zero_le hn
  have hrepr : (toString (m : Int)).toList = Nat.toDigits 10 m := Nat.toList_repr
  rw [hrepr] at hc
  exact Nat.isDigit_of_mem_toDigits (by omega) (by omega) hc

section

variable {ω : Type} {env : ExecEnv} {t : Nat → Int} {benchmarks : List (Benchmark ω)}

/-- The row of one benchmark. -/
def csvCells (env : ExecEnv) (t : Nat → Int) (benchmarks : List (Benchmark ω))
    (k : Fin benchmarks.length) : List String :=
  [(benchmarks.get k).getName, toString (saveMillis t env.PASSES k),
    toString (loadMillis t env.PASSES k)]

theorem getNames_eq_finRange (benchmarks : List (Benchmark ω)) :
    getNames benchmarks =
      (List.finRange benchmarks.length).map fun k => (benchmarks.get k).getName := by
  rw [getNames, ← List.ofFn_eq_map]
  refine List.ext_getElem (by simp) fun k hk hk' => ?_
  simp

/-- A separator is in no cell of the table. -/
theorem not_mem_csvCells {c : Char} (hdigit : c.isDigit = false)
    (hmono : Monotone t) (hnames : ∀ b ∈ benchmarks, c ∉ b.getName.toList)
    (k : Fin benchmarks.length) : ∀ cell ∈ csvCells env t benchmarks k,
    c ∉ cell.toList := by
  have hdecimal : ∀ n : Int, 0 ≤ n → c ∉ (toString n).toList := by
    intro n hn hc
    rw [isDigit_of_mem_toString hn hc] at hdigit
    cases hdigit
  refine List.forall_mem_cons.2 ⟨hnames _ (List.get_mem _ _), ?_⟩
  refine List.forall_mem_cons.2 ⟨hdecimal _ (saveMillis_nonneg hmono _), ?_⟩
  exact List.forall_mem_singleton.2 (hdecimal _ (loadMillis_nonneg hmono _))

/-- The rows of a complete run, in any order of its keys. -/
theorem AfterRounds.rows {E : ExecEvent ω → Prop} {s : Exec ω}
    (h : AfterRounds env E benchmarks s)
    (hclock : Clock env t (4 * env.PASSES * benchmarks.length))
    (hnodup : (getNames benchmarks).Nodup) {keySet : List String}
    (hperm : keySet.Perm s.results.keys) :
    ∃ order : List (Fin benchmarks.length), order.Perm (List.finRange benchmarks.length) ∧
      generateCSV s.results keySet = separatedText ',' '\n'
        (CSV_HEADER :: order.map (csvCells env t benchmarks)) := by
  have hkeys : s.results.keys.Perm (getNames benchmarks) := by
    refine (List.perm_ext_iff_of_nodup s.results.keys_nodup hnodup).2 fun name => ?_
    exact AList.mem_keys.symm.trans (h.keys name)
  have hnames : keySet.Perm
      ((List.finRange benchmarks.length).map fun k => (benchmarks.get k).getName) := by
    rw [← getNames_eq_finRange]
    exact hperm.trans hkeys
  have hsplit := congrFun (congrFun
    (List.eq_map_comp_perm fun k => (benchmarks.get k).getName) keySet)
    (List.finRange benchmarks.length)
  obtain ⟨order, rfl, horder⟩ := hsplit.symm ▸ hnames
  refine ⟨order, horder, ?_⟩
  -- The averages behind each row.
  have hstored : ∀ k : Fin benchmarks.length, ∃ save load : TimeMeasure,
      s.results.lookup (benchmarks.get k).getName = some [save, load] ∧
        csvRow ((benchmarks.get k).getName, save, load) = csvCells env t benchmarks k := by
    intro k
    obtain ⟨save, load, haverages, hlookup⟩ :=
      h.stored k (benchmarks.get k) (List.getElem?_eq_getElem k.isLt)
    obtain ⟨hsave, hload⟩ := hclock.averages k.isLt haverages
    refine ⟨save, load, hlookup, ?_⟩
    rw [csvCells, ← hsave, ← hload]
    rfl
  choose save load hlookup hrow using hstored
  have hrows : ∀ r ∈ order.map fun k => ((benchmarks.get k).getName, save k, load k),
      s.results.lookup r.1 = some [r.2.1, r.2.2] := by
    intro r hr
    obtain ⟨k, _, rfl⟩ := List.mem_map.1 hr
    exact hlookup k
  have htext := generateCSV_eq hrows
  rw [List.map_map] at htext
  rw [show (fun k => (benchmarks.get k).getName) =
    Prod.fst ∘ fun k => ((benchmarks.get k).getName, save k, load k) from rfl, htext,
    csvTable, List.map_map]
  congr 2
  exact List.map_congr_left fun k _ => hrow k

/-- The text read back. -/
theorem AfterRounds.cells {E : ExecEvent ω → Prop} {s : Exec ω}
    (h : AfterRounds env E benchmarks s)
    (hclock : Clock env t (4 * env.PASSES * benchmarks.length))
    (hnodup : (getNames benchmarks).Nodup)
    (hcells : ∀ b ∈ benchmarks, ',' ∉ b.getName.toList ∧ '\n' ∉ b.getName.toList)
    {keySet : List String} (hperm : keySet.Perm s.results.keys) :
    ∃ order : List (Fin benchmarks.length), order.Perm (List.finRange benchmarks.length) ∧
      separatedCells ',' '\n' (generateCSV s.results keySet) =
        CSV_HEADER :: order.map (csvCells env t benchmarks) := by
  obtain ⟨order, horder, htext⟩ := h.rows hclock hnodup hperm
  refine ⟨order, horder, ?_⟩
  rw [htext]
  refine separatedCells_separatedText (by decide) ?_ ?_ ?_
  · refine List.forall_mem_cons.2 ⟨by decide, fun row hrow => ?_⟩
    obtain ⟨k, _, rfl⟩ := List.mem_map.1 hrow
    exact List.cons_ne_nil _ _
  · refine List.forall_mem_cons.2 ⟨by decide, fun row hrow => ?_⟩
    obtain ⟨k, _, rfl⟩ := List.mem_map.1 hrow
    exact not_mem_csvCells rfl hclock.mono (fun b hb => (hcells b hb).1) k
  · refine List.forall_mem_cons.2 ⟨by decide, fun row hrow => ?_⟩
    obtain ⟨k, _, rfl⟩ := List.mem_map.1 hrow
    exact not_mem_csvCells rfl hclock.mono (fun b hb => (hcells b hb).2) k

/-- However a run ends, nothing overflowed and only an adapter can have thrown;
and if it returns, its CSV read back is the header and one row for each
benchmark with the floors of its average durations. -/
theorem clock_to_csv {world : ω} {exit : Exit Throwable Unit} {s : Exec ω}
    (hpasses : 1 ≤ env.PASSES) (hnodup : (getNames benchmarks).Nodup)
    (hcells : ∀ b ∈ benchmarks, ',' ∉ b.getName.toList ∧ '\n' ∉ b.getName.toList)
    (hclock : Clock env t (4 * env.PASSES * benchmarks.length))
    (hrun : doInBackground env benchmarks (Exec.start world) = (exit, s)) :
    NoOverflow env s.trace ∧
      (∀ e, exit = .throws e → ∃ b ∈ benchmarks, b.Throws e) ∧
      (exit = .ok () → ∀ keySet : List String, keySet.Perm s.results.keys →
        ∃ order : List (Fin benchmarks.length),
          order.Perm (List.finRange benchmarks.length) ∧
          separatedCells ',' '\n' (generateCSV s.results keySet) =
            CSV_HEADER :: order.map (csvCells env t benchmarks)) := by
  have hwp : (doInBackground env benchmarks).wp _ (Exec.start world) :=
    wp_doInBackground hnodup hpasses (fun b _ => ⟨_, Contract.trivial b⟩) True.intro
  unfold Prog.wp at hwp
  rw [hrun] at hwp
  cases exit with
  | ok _ =>
      have hafter := hwp
      refine ⟨hclock.noOverflow hpasses (Nat.le_refl _) hafter.traced, ?_, ?_⟩
      · intro e hexit
        cases hexit
      · intro _ keySet hperm
        exact hafter.cells hclock hnodup hcells hperm
  | throws e =>
      obtain ⟨done, b, rest, hsplit, hthrows, hinterrupted⟩ := hwp
      have hlen : done.length + 1 ≤ benchmarks.length := by
        rw [hsplit, List.length_append, List.length_cons]
        omega
      refine ⟨hclock.noOverflow hpasses hlen hinterrupted.traced, ?_, ?_⟩
      · intro e' hexit
        cases hexit
        exact ⟨b, by simp [hsplit], hthrows⟩
      · intro hexit
        cases hexit
  | dead =>
      obtain ⟨done, b, rest, hsplit, hinterrupted⟩ := hwp
      have hlen : done.length + 1 ≤ benchmarks.length := by
        rw [hsplit, List.length_append, List.length_cons]
        omega
      refine ⟨hclock.noOverflow hpasses hlen hinterrupted.traced, ?_, ?_⟩
      · intro e hexit
        cases hexit
      · intro hexit
        cases hexit

end

/-- A benchmark whose calls do nothing. -/
def instant (name : String) : Benchmark Unit where
  getName := name
  init := pure ()
  saveEntitiesInTransaction _ := pure ()
  loadEntities := pure (some [])
  clearCache := pure ()
  dispose := pure ()

/-- Two passes on a clock whose second reading has already wrapped. -/
def wrappingEnv : ExecEnv where
  nanoTime k := reading (9223372036854775807 + 3000000 * (k * k))
  random _ := ⟨none, none, none, 0, 0⟩
  ids := ⟨1, 2, by decide⟩
  ENTITIES_COUNT := 1
  PASSES := 2
  passes_lt := by decide

theorem clock_to_csv_wrapping :
    let s := (doInBackground wrappingEnv [instant "ORMLite"] (Exec.start ())).2
    separatedCells ',' '\n' (generateCSV s.results ["ORMLite"]) =
      [CSV_HEADER, ["ORMLite", "15", "27"]] := by
  have hmono : Monotone fun k : Nat => (9223372036854775807 + 3000000 * (k * k) : Int) := by
    intro a b hab
    have hsq : (a * a : Int) ≤ b * b := by
      exact_mod_cast Nat.mul_le_mul hab hab
    show (9223372036854775807 + 3000000 * (a * a) : Int) ≤
      9223372036854775807 + 3000000 * (b * b)
    omega
  have hclock : Clock wrappingEnv (fun k => 9223372036854775807 + 3000000 * (k * k))
      (4 * wrappingEnv.PASSES * [instant "ORMLite"].length) := by
    refine ⟨fun k => rfl, hmono, fun k hk => ?_⟩
    have hsq : (k * k : Int) ≤ 8 * 8 := by
      exact_mod_cast Nat.mul_le_mul (Nat.le_of_lt hk) (Nat.le_of_lt hk)
    rw [gap]
    omega
  have hexit : (doInBackground wrappingEnv [instant "ORMLite"] (Exec.start ())).1 =
      .ok () := by decide +kernel
  have hkeys : (doInBackground wrappingEnv [instant "ORMLite"]
      (Exec.start ())).2.results.keys = ["ORMLite"] := by decide +kernel
  generalize hrun : doInBackground wrappingEnv [instant "ORMLite"] (Exec.start ()) = r
    at hexit hkeys ⊢
  obtain ⟨_, _, hok⟩ := clock_to_csv (by decide) (by decide) (by decide) hclock hrun
  obtain ⟨order, horder, htext⟩ := hok hexit ["ORMLite"] (by rw [hkeys])
  show separatedCells ',' '\n' (generateCSV r.2.results ["ORMLite"]) = _
  rw [htext, List.perm_singleton.1 horder]
  decide

end OrmBenchmark.Ref
