import OrmBenchmark.Ref.Delivery
import OrmBenchmark.Proofs.ExecutorPhase

/-!
# What the listener hears

Both messages of a benchmark carry its name, and the handler decides from the
map which of the two it is looking at. So a start message that is still
undelivered when its benchmark's results are stored is heard as a finish: the
listener gets two finishes and no start. Nothing else can go wrong, and
`calls_of_complete` says so exactly: a complete run's calls are the protocol's,
with the start of every late benchmark replaced by a second finish.

The invariant that carries it looks ahead. The calls already made, followed by
the calls the undelivered messages would make if they were all delivered now,
are what the phase of the task promises. Delivering changes neither side, a
publication adds one call to both, and a store changes how one message will be
read: the last one in the queue, if the queue is not empty.
-/

namespace OrmBenchmark.Ref

open OrmBenchmark.Lib

/-! ## Late stores -/

/-- The benchmark whose results this step stores while a message is still
undelivered, if the step does that. -/
def lateOf (s : Delivery) : DeliveryLabel → List String
  | .deliver => []
  | .background _ _ =>
      match s.executor.todo with
      | .put name :: _ => if s.queue = [] then [] else [name]
      | _ => []

/-- The benchmarks stored late in a run. -/
def latePuts (h : History Delivery DeliveryLabel) : List String :=
  h.flatMap fun p => lateOf p.1 p.2

/-- The condition on a step: results are stored only once every published
message has been delivered. -/
def StoresWhenDelivered (s : Delivery) : DeliveryLabel → Prop
  | .deliver => True
  | .background _ _ =>
      ∀ name rest, s.executor.todo = .put name :: rest → s.queue = []

theorem lateOf_eq_nil {s : Delivery} {a : DeliveryLabel} :
    lateOf s a = [] ↔ StoresWhenDelivered s a := by
  cases a with
  | deliver => exact ⟨fun _ => trivial, fun _ => rfl⟩
  | background save load =>
      simp only [lateOf, StoresWhenDelivered]
      split
      · next name rest htodo =>
          constructor
          · intro h _ _ _
            by_contra hq
            rw [if_neg hq] at h
            cases h
          · intro h
            rw [if_pos (h name rest htodo)]
      · next hno =>
          exact ⟨fun _ name rest htodo => absurd htodo (hno name rest), fun _ => rfl⟩

theorem latePuts_eq_nil {h : History Delivery DeliveryLabel} :
    latePuts h = [] ↔ h.Obeys StoresWhenDelivered := by
  unfold latePuts
  rw [List.flatMap_eq_nil_iff]
  constructor
  · intro hnil p hp
    exact lateOf_eq_nil.1 (hnil p hp)
  · intro hobeys p hp
    exact lateOf_eq_nil.2 (hobeys p hp)

theorem latePuts_snoc {h : History Delivery DeliveryLabel} {s : Delivery}
    {a : DeliveryLabel} : latePuts (h ++ [(s, a)]) = latePuts h ++ lateOf s a := by
  simp [latePuts]

/-! ## What is heard -/

/-- How the start message of a benchmark is heard. -/
def startHeard (late : List String) (results : ResultMap) (name : String) :
    ListenerCall :=
  if name ∈ late then .onBenchmarkFinished name (results.lookup name)
  else .onBenchmarkStarted name

/-- The protocol, with the start of every late benchmark heard as a finish. -/
def heard (late : List String) (results : ResultMap) (names : List String) :
    List ListenerCall :=
  names.flatMap fun name =>
    [startHeard late results name, .onBenchmarkFinished name (results.lookup name)]

theorem heard_append {late : List String} {results : ResultMap}
    {names : List String} {name : String} :
    heard late results (names ++ [name]) = heard late results names ++
      [startHeard late results name,
        .onBenchmarkFinished name (results.lookup name)] := by
  simp [heard]

theorem heard_congr {late late' : List String} {results results' : ResultMap}
    {names : List String}
    (hlate : ∀ name ∈ names, name ∈ late ↔ name ∈ late')
    (hlookup : ∀ name ∈ names, results.lookup name = results'.lookup name) :
    heard late results names = heard late' results' names := by
  unfold heard
  refine List.flatMap_congr fun name hname => ?_
  rw [startHeard, startHeard, hlookup name hname]
  by_cases h : name ∈ late
  · rw [if_pos h, if_pos ((hlate name hname).1 h)]
  · rw [if_neg h, if_neg (fun h' => h ((hlate name hname).2 h'))]

/-- The protocol is heard exactly when none of the benchmarks is late. -/
theorem heard_eq_protocol {late : List String} {results : ResultMap}
    {names : List String} :
    heard late results names = protocol results names ↔
      ∀ name ∈ names, name ∉ late := by
  induction names with
  | nil => simp [heard, protocol]
  | cons name rest ih =>
      have hcons : heard late results (name :: rest) =
          protocol results (name :: rest) ↔
          startHeard late results name = .onBenchmarkStarted name ∧
            heard late results rest = protocol results rest := by
        simp [heard, protocol]
      rw [hcons, ih, List.forall_mem_cons]
      refine and_congr_left fun _ => ?_
      unfold startHeard
      by_cases h : name ∈ late <;> simp [h]

theorem onProgressUpdate_of_mem {results : ResultMap} {name : String}
    (h : name ∈ results) :
    onProgressUpdate results name =
      .onBenchmarkFinished name (results.lookup name) := if_pos h

theorem onProgressUpdate_of_not_mem {results : ResultMap} {name : String}
    (h : name ∉ results) :
    onProgressUpdate results name = .onBenchmarkStarted name := if_neg h

/-- A store changes the reading of its own benchmark's messages only. -/
theorem onProgressUpdate_insert_ne {results : ResultMap} {name other : String}
    {measures : List TimeMeasure} (h : other ≠ name) :
    onProgressUpdate (results.insert name measures) other =
      onProgressUpdate results other := by
  unfold onProgressUpdate
  rw [AList.lookup_insert_ne h]
  by_cases hmem : other ∈ results
  · rw [if_pos hmem, if_pos ((AList.mem_insert _).2 (Or.inr hmem))]
  · have hnot : other ∉ results.insert name measures := by
      intro hin
      rcases (AList.mem_insert _).1 hin with hin | hin
      · exact h hin
      · exact hmem hin
    rw [if_neg hmem, if_neg hnot]

/-! ## The invariant -/

/-- The calls the published messages come to, read as the map stands. -/
def promised (late : List String) (results : ResultMap) : Phase → List ListenerCall
  | .between done _ => heard late results done
  | .started done name _ => heard late results done ++ [.onBenchmarkStarted name]
  | .stored done name _ => heard late results done ++ [startHeard late results name]

/-- Undelivered messages are about stored benchmarks, except that the newest
may be the start of the benchmark now running. -/
def QueueOf (queue : List String) : Phase → Prop
  | .started done name _ =>
      queue = [] ∨ ∃ older, queue = older ++ [name] ∧ ∀ x ∈ older, x ∈ done
  | ph => ∀ x ∈ queue, x ∈ ph.storedNames

structure DeliveryInv (names : List String)
    (h : History Delivery DeliveryLabel) (s : Delivery) (ph : Phase) : Prop where
  phase : InPhase names s.executor ph
  late_stored : ∀ name ∈ latePuts h, name ∈ ph.storedNames
  queue : QueueOf s.queue ph
  calls : s.calls ++ s.queue.map (onProgressUpdate s.executor.results) =
    promised (latePuts h) s.executor.results ph

theorem QueueOf.tail {ph : Phase} {name : String} {rest : List String}
    (h : QueueOf (name :: rest) ph) : QueueOf rest ph := by
  cases ph with
  | between done names => exact fun x hx => h x (List.mem_cons_of_mem _ hx)
  | stored done n names => exact fun x hx => h x (List.mem_cons_of_mem _ hx)
  | started done n names =>
      rcases h with h | ⟨older, heq, hold⟩
      · cases h
      · cases older with
        | nil =>
            rw [List.nil_append, List.cons.injEq] at heq
            exact Or.inl heq.2
        | cons x older =>
            rw [List.cons_append, List.cons.injEq] at heq
            exact Or.inr ⟨older, heq.2, fun y hy => hold y (List.mem_cons_of_mem _ hy)⟩

section Steps

variable {names : List String} {h : History Delivery DeliveryLabel}
  {s s' : Delivery} {save load : TimeMeasure}

theorem DeliveryInv.deliver {ph : Phase} (hinv : DeliveryInv names h s ph)
    (hstep : s.next .deliver = some s') :
    DeliveryInv names (h ++ [(s, .deliver)]) s' ph := by
  have hlate : latePuts (h ++ [(s, .deliver)]) = latePuts h := by
    rw [latePuts_snoc, lateOf, List.append_nil]
  have hqueue := hinv.queue
  have hcalls := hinv.calls
  simp only [Delivery.next] at hstep
  split at hstep
  · cases hstep
  · next name rest hq =>
      cases hstep
      rw [hq] at hqueue hcalls
      refine ⟨hinv.phase, by rw [hlate]; exact hinv.late_stored, hqueue.tail, ?_⟩
      rw [hlate, ← hcalls]
      simp

/-- The start of a benchmark that is not stored: a start, if delivered now. -/
theorem DeliveryInv.publish_start {done rest : List String} {name : String}
    {e : Executor} (hnodup : names.Nodup)
    (hinv : DeliveryInv names h s (.between done (name :: rest)))
    (hres : e.results = s.executor.results)
    (hin : InPhase names e (.started done name rest)) :
    DeliveryInv names (h ++ [(s, .background save load)])
      { s with executor := e, queue := s.queue ++ [name] }
      (.started done name rest) := by
  have hlate : latePuts (h ++ [(s, .background save load)]) = latePuts h := by
    rw [latePuts_snoc, lateOf, hinv.phase.todo_eq]
    exact List.append_nil _
  have hnew : name ∉ s.executor.results := by
    rw [hinv.phase.mem_results]
    rw [← hinv.phase.names_eq] at hnodup
    exact not_mem_done hnodup
  refine ⟨hin, by rw [hlate]; exact hinv.late_stored,
    Or.inr ⟨s.queue, rfl, hinv.queue⟩, ?_⟩
  have hcalls := hinv.calls
  simp only [hlate, hres, promised] at hcalls ⊢
  rw [List.map_append, List.map_singleton, onProgressUpdate_of_not_mem hnew,
    ← List.append_assoc, hcalls]

/-- The end of a stored benchmark: a finish, whenever it is delivered. -/
theorem DeliveryInv.publish_end {done rest : List String} {name : String}
    {e : Executor} (hinv : DeliveryInv names h s (.stored done name rest))
    (hres : e.results = s.executor.results)
    (hin : InPhase names e (.between (done ++ [name]) rest)) :
    DeliveryInv names (h ++ [(s, .background save load)])
      { s with executor := e, queue := s.queue ++ [name] }
      (.between (done ++ [name]) rest) := by
  have hlate : latePuts (h ++ [(s, .background save load)]) = latePuts h := by
    rw [latePuts_snoc, lateOf, hinv.phase.todo_eq]
    exact List.append_nil _
  have hlast : name ∈ done ++ [name] :=
    List.mem_append_right _ (List.mem_singleton.2 rfl)
  have hmem : name ∈ s.executor.results := (hinv.phase.mem_results name).2 hlast
  refine ⟨hin, by rw [hlate]; exact hinv.late_stored, ?_, ?_⟩
  · intro x hx
    rcases List.mem_append.1 hx with hx | hx
    · exact hinv.queue x hx
    · rw [List.mem_singleton.1 hx]
      exact hlast
  · have hcalls := hinv.calls
    simp only [hlate, hres, promised, heard_append] at hcalls ⊢
    rw [List.map_append, List.map_singleton, onProgressUpdate_of_mem hmem,
      ← List.append_assoc, hcalls, List.append_assoc, List.singleton_append]

/-- A store. The benchmarks that are over are read as before; the start of
this one was heard already, or is the newest message and turns into a finish. -/
theorem DeliveryInv.store {done rest : List String} {name : String}
    {e : Executor} (hnodup : names.Nodup)
    (hinv : DeliveryInv names h s (.started done name rest))
    (hres : e.results = s.executor.results.insert name [save, load])
    (hin : InPhase names e (.stored done name rest)) :
    DeliveryInv names (h ++ [(s, .background save load)])
      { s with executor := e } (.stored done name rest) := by
  have hnew : name ∉ done := by
    rw [← hinv.phase.names_eq] at hnodup
    exact not_mem_done hnodup
  have hne : ∀ x ∈ done, x ≠ name := fun x hx hxn => hnew (hxn ▸ hx)
  have hlate : latePuts (h ++ [(s, .background save load)]) =
      latePuts h ++ if s.queue = [] then [] else [name] := by
    rw [latePuts_snoc, lateOf, hinv.phase.todo_eq]
    rfl
  have hheard : heard (latePuts h ++ if s.queue = [] then [] else [name])
        (s.executor.results.insert name [save, load]) done =
      heard (latePuts h) s.executor.results done := by
    refine heard_congr (fun x hx => ?_)
      (fun x hx => AList.lookup_insert_ne (hne x hx))
    have hxn := hne x hx
    by_cases hq : s.queue = [] <;> simp [hq, hxn]
  have hcalls := hinv.calls
  simp only [promised] at hcalls
  refine ⟨hin, ?_, ?_, ?_⟩
  · intro x hx
    rw [hlate, List.mem_append] at hx
    rw [Phase.storedNames, List.mem_append, List.mem_singleton]
    refine hx.imp (hinv.late_stored x) fun hx => ?_
    by_cases hq : s.queue = []
    · rw [if_pos hq] at hx
      cases hx
    · rw [if_neg hq] at hx
      exact List.mem_singleton.1 hx
  · intro x hx
    rw [Phase.storedNames]
    rcases hinv.queue with hq | ⟨older, hq, hold⟩
    · rw [hq] at hx
      cases hx
    · rw [hq, List.mem_append] at hx
      exact List.mem_append.2 (hx.imp_left (hold x))
  · simp only [hlate, hres, promised]
    rw [hheard]
    rcases hinv.queue with hq | ⟨older, hq, hold⟩
    · have hnot : name ∉ latePuts h := fun hl => hnew (hinv.late_stored name hl)
      rw [hq, List.map_nil, List.append_nil] at hcalls
      rw [hq, if_pos rfl, List.append_nil, List.map_nil, List.append_nil, hcalls,
        startHeard, if_neg hnot]
    · have hmap : older.map (onProgressUpdate
            (s.executor.results.insert name [save, load])) =
          older.map (onProgressUpdate s.executor.results) :=
        List.map_congr_left fun x hx =>
          onProgressUpdate_insert_ne (hne x (hold x hx))
      have hstart : onProgressUpdate s.executor.results name =
          .onBenchmarkStarted name :=
        onProgressUpdate_of_not_mem
          (fun hmem => hnew ((hinv.phase.mem_results name).1 hmem))
      rw [hq, List.map_append, List.map_singleton, hstart, ← List.append_assoc]
        at hcalls
      rw [hq, List.map_append, List.map_singleton, hmap, ← List.append_assoc,
        List.append_cancel_right hcalls, startHeard, if_pos (by simp),
        onProgressUpdate_of_mem ((AList.mem_insert _).2 (Or.inl rfl))]

theorem DeliveryInv.background {ph : Phase} (hnodup : names.Nodup)
    (hinv : DeliveryInv names h s ph)
    (hstep : s.next (.background save load) = some s') :
    ∃ ph', DeliveryInv names (h ++ [(s, .background save load)]) s' ph' := by
  simp only [Delivery.next] at hstep
  split at hstep
  · cases hstep
  · next e published hback =>
      cases hstep
      rcases background_cases hinv.phase hback with
        ⟨done, name, rest, rfl, rfl, hres, hin⟩ |
        ⟨done, name, rest, rfl, rfl, hres, hin⟩ |
        ⟨done, name, rest, rfl, rfl, hres, hin⟩
      · exact ⟨_, hinv.publish_start hnodup hres hin⟩
      · rw [Option.toList_none, List.append_nil]
        exact ⟨_, hinv.store hnodup hres hin⟩
      · exact ⟨_, hinv.publish_end hres hin⟩

theorem DeliveryInv.of_run (hnodup : names.Nodup)
    (hrun : (Delivery.lts names).Run h s) : ∃ ph, DeliveryInv names h s ph := by
  refine hrun.history_invariant
    (I := fun h s => ∃ ph, DeliveryInv names h s ph) ?_ ?_
  · intro s hs
    cases hs
    exact ⟨.between [] names, InPhase.execute names,
      fun x hx => absurd hx List.not_mem_nil, fun x hx => absurd hx List.not_mem_nil,
      rfl⟩
  · intro h s a s' _ hinv hstep
    obtain ⟨ph, hinv⟩ := hinv
    cases a with
    | background save load => exact hinv.background hnodup hstep
    | deliver => exact ⟨ph, hinv.deliver hstep⟩

end Steps

/-- A complete run's calls, exactly: the protocol, with the start of every
benchmark that was stored late heard as a second finish. -/
theorem calls_of_complete {names : List String} (hnodup : names.Nodup)
    {h : History Delivery DeliveryLabel} {s : Delivery}
    (hrun : (Delivery.lts names).Run h s) (hdone : s.Complete) :
    s.calls = heard (latePuts h) s.executor.results names ∧
      ∀ name ∈ latePuts h, name ∈ names := by
  obtain ⟨ph, hinv⟩ := DeliveryInv.of_run hnodup hrun
  obtain ⟨hfin, hqueue⟩ := hdone
  have hph := hinv.phase.of_finished hfin
  subst hph
  refine ⟨?_, hinv.late_stored⟩
  have hcalls := hinv.calls
  rw [hqueue] at hcalls
  simpa [promised] using hcalls

/-- The protocol is kept by exactly the interleavings that deliver every start
message before its benchmark's results are stored, and the finish then carries
the stored averages. -/
theorem protocol_heard_iff {names : List String} (hnodup : names.Nodup)
    {h : History Delivery DeliveryLabel} {s : Delivery}
    (hrun : (Delivery.lts names).Run h s) (hdone : s.Complete) :
    (s.calls = protocol s.executor.results names ↔ h.Obeys StoresWhenDelivered) ∧
      ∀ name ∈ names, ∃ save load : TimeMeasure,
        s.executor.results.lookup name = some [save, load] := by
  constructor
  · obtain ⟨hcalls, hsub⟩ := calls_of_complete hnodup hrun hdone
    rw [hcalls, heard_eq_protocol, ← latePuts_eq_nil, List.eq_nil_iff_forall_not_mem]
    constructor
    · intro hnone name hlate
      exact hnone name (hsub name hlate) hlate
    · intro hnil name _
      exact hnil name
  · obtain ⟨ph, hinv⟩ := DeliveryInv.of_run hnodup hrun
    have hph := hinv.phase.of_finished hdone.1
    subst hph
    intro name hname
    exact hinv.phase.pairs name ((hinv.phase.mem_results name).2 hname)

/-- The task runs to its end before the UI thread delivers anything. -/
def slowUi : List DeliveryLabel :=
  let tm : TimeMeasure := ⟨0, 0, 0, 0⟩
  [.background tm tm, .background tm tm, .background tm tm, .deliver, .deliver]

/-- The UI thread delivers every message as soon as it is published. -/
def promptUi : List DeliveryLabel :=
  let tm : TimeMeasure := ⟨0, 0, 0, 0⟩
  [.background tm tm, .deliver, .background tm tm, .background tm tm, .deliver]

theorem protocol_heard_iff_promptUi :
    ∃ h s, (Delivery.lts ["ORMLite"]).Run h s ∧
      s.calls = protocol s.executor.results ["ORMLite"] ∧
      h.Obeys StoresWhenDelivered := by
  obtain ⟨h, s, hrun, htest⟩ := Lts.exists_run_of_replay
    (Delivery.start ["ORMLite"]) Delivery.next promptUi
    (fun _ s => decide (s.executor.todo = [] ∧ s.queue = [] ∧
      s.calls = protocol s.executor.results ["ORMLite"])) (by decide)
  obtain ⟨htodo, hqueue, hcalls⟩ := of_decide_eq_true htest
  have hnodup : (["ORMLite"] : List String).Nodup := by decide
  exact ⟨h, s, hrun, hcalls,
    (protocol_heard_iff hnodup hrun ⟨htodo, hqueue⟩).1.1 hcalls⟩

/-- A start delivered after the store is heard as a finish. -/
theorem protocol_broken_by_slowUi :
    ¬ ∀ names : List String, names ≠ [] → names.Nodup →
      ∀ h s, (Delivery.lts names).Run h s → s.Complete →
        s.calls = protocol s.executor.results names := by
  intro hclaim
  obtain ⟨h, s, hrun, htest⟩ := Lts.exists_run_of_replay
    (Delivery.start ["ORMLite"]) Delivery.next slowUi
    (fun _ s => decide (s.executor.todo = [] ∧ s.queue = [] ∧
      s.calls ≠ protocol s.executor.results ["ORMLite"])) (by decide)
  obtain ⟨htodo, hqueue, hcalls⟩ := of_decide_eq_true htest
  exact hcalls (hclaim ["ORMLite"] (by decide) (by decide) h s hrun ⟨htodo, hqueue⟩)

end OrmBenchmark.Ref
