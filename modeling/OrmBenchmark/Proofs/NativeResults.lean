import OrmBenchmark.Proofs.NativeLifecycle

/-!
# What the results are about

`nativeExecuteForChangedRowCount` and `nativeExecuteForLastInsertedRowId` read
counters of the connection after the step. What those hold is what the last
statement that touched them left, so after any history of statements the result
is about the statement just run exactly if that statement touched the counter
itself or found in it what it would have left.
-/

namespace OrmBenchmark.Ref

open OrmBenchmark.Lib OrmBenchmark.Lib.Prog

/-- What `sqlite3_step` answers; a null statement is a misuse. -/
def stepAnswer (env : NativeEnv) (statementPtr : Nat) (s : NativeState) : StepAnswer :=
  if statementPtr = 0 then ⟨SQLITE_MISUSE, ⟨none, none⟩⟩ else env.lib.step s.calls

/-- The rows the statement changed: what the row count is to be. -/
def changedRowCount (answer : StepAnswer) : Int32 :=
  if answer.err = SQLITE_DONE then answer.effect.changes.getD 0 else -1

/-- The last row the statement inserted: what the row id is to be. -/
def lastInsertedRowId (answer : StepAnswer) : Int64 :=
  if answer.err = SQLITE_DONE then answer.effect.inserted.getD (-1) else -1

/-- The statement a call runs. -/
def StatementCall.executed : StatementCall → Option Nat
  | .nativeExecute st | .nativeExecuteForChangedRowCount st
  | .nativeExecuteForLastInsertedRowId st => some st
  | .nativePrepareStatement _ | .nativeBindNull _ _ | .nativeBindLong _ _ _
  | .nativeBindDouble _ _ _ | .nativeBindString _ _ _ | .nativeBindBlob _ _ _
  | .nativeResetStatementAndClearBindings _ | .nativeFinalizeStatement _ => none

/-- What the statements of a history did, oldest first. -/
def effects (env : NativeEnv) (history : History NativeState StatementCall) : List StmtEffect :=
  history.filterMap fun p => p.2.executed.map fun st => (stepAnswer env st p.1).effect

/-- The counters these leave on a new connection. -/
def countersAfter (effects : List StmtEffect) : Counters :=
  effects.foldl Counters.apply ⟨0, 0⟩

/-- The connection, and nothing but its statements. -/
structure OnConnection (ptr db : Nat) (counters : Counters) (s : NativeState) : Prop where
  wrapper : s.wrappers.lookup ptr = some db
  handle : s.handles.lookup db = some counters
  owner : ∀ st stmt, s.stmts.lookup st = some stmt → st ≠ 0 ∧ stmt.db = db
  next : 0 < s.next

section

variable {env : NativeEnv} {ptr db st : Nat} {counters : Counters} {s s' : NativeState}
  {α : Type} {lib : Sqlite}

/-! ## What leaves the counters alone -/

theorem OnConnection.silent (h : OnConnection ptr db counters s)
    (hwrappers : s'.wrappers = s.wrappers) (hhandles : s'.handles = s.handles)
    (hstmts : s'.stmts = s.stmts) (hnext : s'.next = s.next) :
    OnConnection ptr db counters s' := by
  refine ⟨?_, ?_, ?_, ?_⟩
  · rw [hwrappers]
    exact h.wrapper
  · rw [hhandles]
    exact h.handle
  · rw [hstmts]
    exact h.owner
  · rw [hnext]
    exact h.next

theorem OnConnection.insertStmt (h : OnConnection ptr db counters s) {stmt : Stmt}
    (hst : st ≠ 0) (hdb : stmt.db = db) :
    OnConnection ptr db counters { s with stmts := s.stmts.insert st stmt } := by
  refine ⟨h.wrapper, h.handle, ?_, h.next⟩
  intro x y hxy
  by_cases hx : x = st
  · subst hx
    rw [AList.lookup_insert] at hxy
    cases hxy
    exact ⟨hst, hdb⟩
  · rw [AList.lookup_insert_ne hx] at hxy
    exact h.owner x y hxy

theorem counters_modifyState {f : NativeState → NativeState}
    (hwrappers : ∀ s, (f s).wrappers = s.wrappers) (hhandles : ∀ s, (f s).handles = s.handles)
    (hstmts : ∀ s, (f s).stmts = s.stmts) (hnext : ∀ s, (f s).next = s.next) :
    Preserves (OnConnection ptr db counters) (modifyState f : NativeProg Unit) :=
  preserves_modifyState fun s h => h.silent (hwrappers s) (hhandles s) (hstmts s) (hnext s)

theorem counters_record' {event : NativeEvent} :
    Preserves (OnConnection ptr db counters) (record' event) :=
  counters_modifyState (fun _ => rfl) (fun _ => rfl) (fun _ => rfl) (fun _ => rfl)

theorem counters_nextCall : Preserves (OnConnection ptr db counters) nextCall := fun _ h =>
  h.silent rfl rfl rfl rfl

theorem counters_withHandle {db' : Nat} {f : Counters → NativeProg α}
    (hf : ∀ c, Preserves (OnConnection ptr db counters) (f c)) :
    Preserves (OnConnection ptr db counters) (withHandle db' f) := fun s h =>
  wp_withHandle (fun c _ => hf c s h) (fun _ => h)

/-- `f` is given a statement of this connection. -/
theorem counters_withStmt {onNull : α} {f : Stmt → NativeProg α}
    (hf : ∀ stmt, st ≠ 0 → stmt.db = db → Preserves (OnConnection ptr db counters) (f stmt)) :
    Preserves (OnConnection ptr db counters) (withStmt st onNull f) := fun s h =>
  wp_withStmt (fun _ => h) (fun stmt hst hstmt => hf stmt hst (h.owner st stmt hstmt).2 s h)
    (fun _ _ => h)

theorem counters_connectionDb {ptr' : Nat} :
    Preserves (OnConnection ptr db counters) (connectionDb ptr') := by
  refine preserves_bind preserves_getState fun s => ?_
  cases s.wrappers.lookup ptr' with
  | none => exact preserves_bind counters_record' fun _ => preserves_die
  | some db' => exact preserves_bind counters_record' fun _ => preserves_pure

theorem counters_jniThrowException {e : Throwable} :
    Preserves (OnConnection ptr db counters) (jniThrowException e) :=
  preserves_bind (counters_modifyState (fun _ => rfl) (fun _ => rfl) (fun _ => rfl)
    (fun _ => rfl)) fun _ => counters_record'

theorem counters_throw {db' : Nat} {message : Option String} :
    Preserves (OnConnection ptr db counters) (throw_sqlite3_exception lib db' message) :=
  counters_withHandle fun _ => preserves_bind counters_nextCall fun _ =>
    counters_jniThrowException

theorem counters_jni {m : NativeProg α} (hm : Preserves (OnConnection ptr db counters) m) :
    Preserves (OnConnection ptr db counters) (jni m) := by
  refine preserves_bind hm fun a => preserves_bind preserves_getState fun s => ?_
  cases s.pending with
  | none => exact preserves_pure
  | some e =>
      exact preserves_bind (counters_modifyState (fun _ => rfl) (fun _ => rfl) (fun _ => rfl)
        (fun _ => rfl)) fun _ => preserves_raise

theorem counters_throwUnlessOk {ptr' err : Nat} :
    Preserves (OnConnection ptr db counters) (throwUnlessOk env ptr' err) :=
  preserves_ite (preserves_bind counters_connectionDb fun _ => counters_throw) preserves_pure

theorem counters_sqlite3_bind {index : Nat} {image : BindImage} :
    Preserves (OnConnection ptr db counters) (sqlite3_bind lib st index image) := by
  refine counters_withStmt fun stmt hst hdb => preserves_bind counters_nextCall fun call =>
    preserves_bind counters_record' fun _ => preserves_ite ?_ preserves_pure
  exact preserves_bind (preserves_modifyState fun s h => h.insertStmt hst hdb) fun _ =>
    preserves_pure

theorem counters_prepare {sql : String} :
    Preserves (OnConnection ptr db counters) (sqlite3_prepare16_v2 lib db sql) := by
  refine counters_withHandle fun _ => preserves_bind counters_nextCall fun call => ?_
  split
  · exact preserves_pure
  · exact preserves_pure
  · next parameters readOnly _ =>
      intro s h
      simp only [wp_bind, wp_allocate, wp_modifyState, wp_record', wp_pure]
      have hnext := h.next
      have hnew : OnConnection ptr db counters
          { s with stmts := s.stmts.insert s.next ⟨db, parameters, readOnly, []⟩ } :=
        h.insertStmt (by omega) rfl
      exact ⟨hnew.wrapper, hnew.handle, hnew.owner, Nat.succ_pos _⟩

theorem counters_finalize : Preserves (OnConnection ptr db counters) (sqlite3_finalize st) := by
  refine preserves_bind preserves_getState fun s => preserves_ite preserves_pure ?_
  cases s.stmts.lookup st with
  | none => exact preserves_die
  | some stmt =>
      refine preserves_bind (preserves_modifyState fun s h => ?_) fun _ => counters_record'
      refine ⟨h.wrapper, h.handle, ?_, h.next⟩
      intro x y hxy
      by_cases hx : x = st
      · subst hx
        rw [AList.lookup_erase] at hxy
        cases hxy
      · rw [AList.lookup_erase_ne hx] at hxy
        exact h.owner x y hxy

/-! ## What the step does to them -/

theorem wp_connectionDb_counters {Q : Post NativeState Throwable Nat}
    (h : OnConnection ptr db counters s)
    (hQ : ∀ s', OnConnection ptr db counters s' → Q.ok db s') :
    (connectionDb ptr).wp Q s :=
  wp_liveConnection h.wrapper (hQ _ (h.silent rfl rfl rfl rfl))

theorem wp_onHandle_counters {Q : Post NativeState Throwable α} {f : Counters → NativeProg α}
    (h : OnConnection ptr db counters s) (hf : (f counters).wp Q s) :
    (withHandle db f).wp Q s := by
  refine wp_withHandle (fun c hc => ?_) (fun hnone => ?_)
  · rw [h.handle] at hc
    cases hc
    exact hf
  · rw [h.handle] at hnone
    cases hnone

theorem OnConnection.live (h : OnConnection ptr db counters s) : db ∈ s.handles := by
  rw [← AList.lookup_isSome, h.handle]
  rfl

theorem OnConnection.stepThrows {e : Throwable} (h : OnConnection ptr db counters s)
    (hthrows : StepThrows ptr e s s') : OnConnection ptr db counters s' := by
  cases hthrows with
  | row => exact h.silent rfl rfl rfl rfl
  | error => exact h.silent rfl rfl rfl rfl

/-- The step, of a statement that lives or is null. -/
theorem wp_sqlite3_step_counters {Q : Post NativeState Throwable Nat}
    (h : OnConnection ptr db counters s)
    (hQ : ∀ s', OnConnection ptr db (counters.apply (stepAnswer env st s).effect) s' →
      Q.ok (stepAnswer env st s).err s')
    (hdead : st ≠ 0 → s.stmts.lookup st = none → Q.dead s) :
    (sqlite3_step env.lib st).wp Q s := by
  refine wp_withStmt (fun hzero => ?_) (fun stmt hst hstmt => ?_) hdead
  · have hmisuse : stepAnswer env st s = ⟨SQLITE_MISUSE, ⟨none, none⟩⟩ := if_pos hzero
    rw [hmisuse] at hQ
    exact hQ s h
  · have hanswer : stepAnswer env st s = env.lib.step s.calls := if_neg hst
    rw [hanswer] at hQ
    have hcall : OnConnection ptr db counters { s with calls := s.calls + 1 } :=
      h.silent rfl rfl rfl rfl
    simp only [wp_bind, wp_nextCall, (h.owner st stmt hstmt).2]
    refine wp_onHandle_counters hcall ?_
    simp only [wp_bind, wp_record', wp_modifyState, wp_pure]
    exact hQ _ ⟨h.wrapper, AList.lookup_insert _, h.owner, h.next⟩

theorem wp_executeNonQuery_counters {Q : Post NativeState Throwable Nat}
    (h : OnConnection ptr db counters s)
    (hQ : ∀ s', OnConnection ptr db (counters.apply (stepAnswer env st s).effect) s' →
      Q.ok (stepAnswer env st s).err s')
    (hdead : st ≠ 0 → s.stmts.lookup st = none → Q.dead s) :
    (executeNonQuery env ptr st).wp Q s := by
  have hstep : (sqlite3_step env.lib st).wp
      { ok := fun err s' => err = (stepAnswer env st s).err ∧
          OnConnection ptr db (counters.apply (stepAnswer env st s).effect) s'
        throws := Q.throws
        dead := Q.dead } s :=
    wp_sqlite3_step_counters h (fun s' h' => ⟨rfl, h'⟩) hdead
  refine wp_executeNonQuery_of_step hstep (fun err s₁ h₁ => ⟨h₁.2.wrapper, h₁.2.live⟩) ?_ ?_
  · intro s₁ hpost
    obtain ⟨herr, h₁⟩ := hpost
    rw [herr]
    exact hQ s₁ h₁
  · intro err e s₁ s₂ hpost _ _ hthrows
    obtain ⟨rfl, h₁⟩ := hpost
    exact hQ s₂ (h₁.stepThrows hthrows)

theorem wp_changedRowCount {Q : Post NativeState Throwable Int32}
    (h : OnConnection ptr db counters s)
    (hQ : ∀ s', OnConnection ptr db (counters.apply (stepAnswer env st s).effect) s' →
      Q.ok (if (stepAnswer env st s).err = SQLITE_DONE then
        (counters.apply (stepAnswer env st s).effect).changes else -1) s')
    (hdead : st ≠ 0 → s.stmts.lookup st = none → Q.dead s) :
    (nativeExecuteForChangedRowCount env ptr st).wp Q s := by
  simp only [nativeExecuteForChangedRowCount, wp_bind]
  refine wp_executeNonQuery_counters h (fun s₁ h₁ => ?_) hdead
  dsimp only
  split
  · next hdone =>
      rw [if_pos hdone] at hQ
      rw [wp_bind]
      refine wp_connectionDb_counters h₁ fun s₂ h₂ => ?_
      exact wp_onHandle_counters h₂ (hQ s₂ h₂)
  · next hdone =>
      rw [if_neg hdone] at hQ
      exact hQ s₁ h₁

theorem wp_lastInsertedRowId {Q : Post NativeState Throwable Int64}
    (h : OnConnection ptr db counters s)
    (hQ : ∀ s', OnConnection ptr db (counters.apply (stepAnswer env st s).effect) s' →
      Q.ok (if (stepAnswer env st s).err = SQLITE_DONE ∧
          0 < (counters.apply (stepAnswer env st s).effect).changes then
        (counters.apply (stepAnswer env st s).effect).lastInsertRowid else -1) s')
    (hdead : st ≠ 0 → s.stmts.lookup st = none → Q.dead s) :
    (nativeExecuteForLastInsertedRowId env ptr st).wp Q s := by
  simp only [nativeExecuteForLastInsertedRowId, wp_bind]
  refine wp_executeNonQuery_counters h (fun s₁ h₁ => ?_) hdead
  dsimp only
  split
  · next hdone =>
      rw [wp_bind]
      refine wp_connectionDb_counters h₁ fun s₂ h₂ => ?_
      simp only [wp_bind]
      refine wp_onHandle_counters h₂ ?_
      simp only [wp_pure]
      split
      · next hchanges =>
          rw [if_pos ⟨hdone, hchanges⟩] at hQ
          exact wp_onHandle_counters h₂ (hQ s₂ h₂)
      · next hchanges =>
          rw [if_neg fun hboth => hchanges hboth.2] at hQ
          exact hQ s₂ h₂
  · next hdone =>
      rw [if_neg fun hboth => hdone hboth.1] at hQ
      exact hQ s₁ h₁

/-! ## Histories -/

/-- The counters a call leaves. -/
def StatementCall.leaves (env : NativeEnv) (call : StatementCall) (s : NativeState)
    (before : Counters) : Counters :=
  match call.executed with
  | none => before
  | some st => before.apply (stepAnswer env st s).effect

theorem counters_onConnection {f : Nat → NativeProg α}
    (hf : Preserves (OnConnection ptr db counters) (f db)) :
    Preserves (OnConnection ptr db counters) (connectionDb ptr >>= f) := by
  intro s h
  rw [wp_bind]
  exact wp_connectionDb_counters h fun s' h' => hf s' h'

/-- Throwing what is pending does nothing to the counters. -/
theorem wp_jni_counters {m : NativeProg α} {c : Counters}
    (hm : m.wp
      { ok := fun _ => OnConnection ptr db c
        throws := fun _ => OnConnection ptr db c
        dead := fun _ => True } s) :
    (jni m).wp
      { ok := fun _ => OnConnection ptr db c
        throws := fun _ => OnConnection ptr db c
        dead := fun _ => True } s := by
  rw [wp_jni]
  refine wp_mono hm (fun a s' h' => ?_) (fun _ _ h => h) (fun _ h => h)
  dsimp only
  split
  · exact h'
  · exact h'.silent rfl rfl rfl rfl

theorem wp_discard {m : NativeProg α} {Q : Post NativeState Throwable Unit} :
    (discard m).wp Q s ↔ m.wp { Q with ok := fun _ => Q.ok () } s := by
  rw [discard, wp_bind]
  rfl

theorem wp_statementCall (call : StatementCall) (h : OnConnection ptr db counters s) :
    (call.run env ptr).wp
      { ok := fun _ => OnConnection ptr db (call.leaves env s counters)
        throws := fun _ => OnConnection ptr db (call.leaves env s counters)
        dead := fun _ => True } s := by
  have hkeeps : ∀ {m : NativeProg Unit}, Preserves (OnConnection ptr db counters) m →
      m.wp
        { ok := fun _ => OnConnection ptr db counters
          throws := fun _ => OnConnection ptr db counters
          dead := fun _ => True } s := by
    intro m hm
    exact wp_mono (hm s h) (fun _ _ h => h) (fun _ _ h => h) (fun _ _ => True.intro)
  have hbind : ∀ {index : Nat} {st : Nat} {image : BindImage},
      Preserves (OnConnection ptr db counters)
        (jni (sqlite3_bind env.lib st index image >>= throwUnlessOk env ptr)) :=
    counters_jni (preserves_bind counters_sqlite3_bind fun _ => counters_throwUnlessOk)
  cases call with
  | nativePrepareStatement sql =>
      refine hkeeps (preserves_bind (counters_jni (counters_onConnection ?_))
        fun _ => preserves_pure)
      refine preserves_bind counters_prepare fun r => preserves_ite ?_ preserves_pure
      exact preserves_bind counters_throw fun _ => preserves_pure
  | nativeBindNull st index => exact hkeeps hbind
  | nativeBindLong st index value => exact hkeeps hbind
  | nativeBindDouble st index value => exact hkeeps hbind
  | nativeBindString st index value =>
      cases value with
      | none => exact hkeeps (counters_jni preserves_die)
      | some value => exact hkeeps hbind
  | nativeBindBlob st index value => exact hkeeps hbind
  | nativeExecute st =>
      refine wp_jni_counters ?_
      simp only [nativeExecute, wp_bind]
      exact wp_executeNonQuery_counters h (fun s' h' => h') fun _ _ => True.intro
  | nativeExecuteForChangedRowCount st =>
      refine wp_discard.2 (wp_jni_counters ?_)
      exact wp_changedRowCount h (fun s' h' => h') fun _ _ => True.intro
  | nativeExecuteForLastInsertedRowId st =>
      refine wp_discard.2 (wp_jni_counters ?_)
      exact wp_lastInsertedRowId h (fun s' h' => h') fun _ _ => True.intro
  | nativeResetStatementAndClearBindings st =>
      refine hkeeps (counters_jni (preserves_bind ?_ fun err => preserves_ite
        (preserves_bind ?_ fun _ => counters_throwUnlessOk) counters_throwUnlessOk))
      · exact counters_withStmt fun stmt _ _ => preserves_bind counters_nextCall fun _ =>
          preserves_bind counters_record' fun _ => preserves_pure
      · refine counters_withStmt fun stmt hst hdb => preserves_bind counters_nextCall fun _ => ?_
        exact preserves_bind (preserves_modifyState fun s h => h.insertStmt hst hdb) fun _ =>
          preserves_pure
  | nativeFinalizeStatement st =>
      exact hkeeps (counters_jni (preserves_bind counters_connectionDb fun _ =>
        counters_finalize))

theorem countersAfter_snoc {history : History NativeState StatementCall} {call : StatementCall} :
    countersAfter (effects env (history ++ [(s, call)])) =
      call.leaves env s (countersAfter (effects env history)) := by
  rw [effects, List.filterMap_append, countersAfter, List.foldl_append, StatementCall.leaves]
  cases hcall : call.executed with
  | none => simp [hcall, countersAfter, effects]
  | some st => simp [hcall, countersAfter, effects]

/-- After any history the counters are those of its statements. -/
theorem OnConnection.of_run {s₁ : NativeState} (h₁ : OnConnection ptr db ⟨0, 0⟩ s₁)
    {history : History NativeState StatementCall}
    (hrun : (statementCalls env ptr s₁).Run history s) :
    OnConnection ptr db (countersAfter (effects env history)) s := by
  refine Lts.Run.history_invariant
    (I := fun history s => OnConnection ptr db (countersAfter (effects env history)) s)
    ?_ ?_ hrun
  · intro s hstart
    subst hstart
    exact h₁
  · intro history s call s' _ h hstep
    have hnext : StatementCall.next env ptr s call = some s' := hstep
    rw [countersAfter_snoc]
    unfold StatementCall.next at hnext
    have hwp : (call.run env ptr).wp _ s := wp_statementCall call h
    cases hcall : call.run env ptr s with
    | mk exit s₂ =>
        rw [hcall] at hnext
        cases exit with
        | ok a =>
            cases hnext
            exact ok_of_wp hwp hcall
        | throws e =>
            cases hnext
            exact throws_of_wp hwp hcall
        | dead => cases hnext

/-- What a successful open leaves: a new connection. -/
theorem wp_open_counters {path : String} (hinv : NativeInv s) :
    (NativeSQLiteConnection.open env path).wp (.returning fun _ s' =>
      OnConnection s'.mConnectionPtr s.next ⟨0, 0⟩ s') s := by
  refine wp_mono (wp_open_fresh hinv) ?_ (fun _ _ _ => True.intro) (fun _ _ => True.intro)
  intro _ s' hpost
  obtain ⟨hopens, hhandles⟩ := hpost
  refine ⟨?_, ?_, fun st stmt hstmt => ?_, ?_⟩
  · rw [hopens.wrappers, hopens.ptr, AList.lookup_insert]
  · rw [hhandles, AList.lookup_insert]
  · rw [hopens.stmts, hinv.stmts, AList.lookup_empty] at hstmt
    cases hstmt
  · have hnext := hopens.next
    omega

/-! ## The results -/

/-- The row count is the statement's own: it set the counter, or the last one
that did left what this one would have. -/
def ChangesFresh (before : Counters) (effect : StmtEffect) : Prop :=
  effect.changes ≠ none ∨ before.changes = 0

/-- The row id is the statement's own. -/
def RowIdFresh (before : Counters) (effect : StmtEffect) : Prop :=
  match effect.inserted with
  | some rowid => 0 < (before.apply effect).changes ∨ rowid = -1
  | none => ¬ 0 < (before.apply effect).changes ∨ before.lastInsertRowid = -1

/-- What a statement that lives gives, after any history of its connection, is
what it did itself exactly if it was not left with the counters of others. -/
theorem results_own_iff {path : String} {s₀ s₁ : NativeState} {stmt : Stmt}
    {history : History NativeState StatementCall} (hinv : NativeInv s₀)
    (hopen : NativeSQLiteConnection.open env path s₀ = (.ok (), s₁))
    (hrun : (statementCalls env s₁.mConnectionPtr s₁).Run history s)
    (hst : s.stmts.lookup st = some stmt) :
    ((nativeExecuteForChangedRowCount env s₁.mConnectionPtr st s).1 =
        .ok (changedRowCount (env.lib.step s.calls)) ↔
      ((env.lib.step s.calls).err = SQLITE_DONE →
        ChangesFresh (countersAfter (effects env history)) (env.lib.step s.calls).effect)) ∧
    ((nativeExecuteForLastInsertedRowId env s₁.mConnectionPtr st s).1 =
        .ok (lastInsertedRowId (env.lib.step s.calls)) ↔
      ((env.lib.step s.calls).err = SQLITE_DONE →
        RowIdFresh (countersAfter (effects env history)) (env.lib.step s.calls).effect)) := by
  have h := (ok_of_wp (wp_open_counters hinv) hopen).of_run hrun
  have hanswer : stepAnswer env st s = env.lib.step s.calls := if_neg (h.owner st stmt hst).1
  have hlive : st ≠ 0 → s.stmts.lookup st = none → False := by
    intro _ hnone
    rw [hst] at hnone
    cases hnone
  generalize countersAfter (effects env history) = before at h ⊢
  generalize hstep : env.lib.step s.calls = answer at hanswer ⊢
  refine ⟨?_, ?_⟩
  · obtain ⟨n, s', hcall, hn⟩ := exists_ok_of_wp
      (P := fun n _ => n = if answer.err = SQLITE_DONE then
        (before.apply answer.effect).changes else -1)
      (m := nativeExecuteForChangedRowCount env s₁.mConnectionPtr st) (s := s)
      (wp_changedRowCount h (fun s' _ => by rw [hanswer]) hlive)
    rw [hcall, hn, changedRowCount]
    by_cases hdone : answer.err = SQLITE_DONE
    · simp only [hdone, if_true, true_imp_iff, Exit.ok.injEq, ChangesFresh, Counters.apply]
      cases answer.effect.changes with
      | none => simp
      | some k => simp
    · simp only [hdone, if_false, false_imp_iff]
  · obtain ⟨n, s', hcall, hn⟩ := exists_ok_of_wp
      (P := fun n _ => n = if answer.err = SQLITE_DONE ∧
          0 < (before.apply answer.effect).changes then
        (before.apply answer.effect).lastInsertRowid else -1)
      (m := nativeExecuteForLastInsertedRowId env s₁.mConnectionPtr st) (s := s)
      (wp_lastInsertedRowId h (fun s' _ => by rw [hanswer]) hlive)
    rw [hcall, hn, lastInsertedRowId]
    by_cases hdone : answer.err = SQLITE_DONE
    · simp only [hdone, if_true, true_imp_iff, true_and, Exit.ok.injEq, RowIdFresh]
      have hrowid : (before.apply answer.effect).lastInsertRowid =
          answer.effect.inserted.getD before.lastInsertRowid := rfl
      rw [hrowid]
      cases answer.effect.inserted with
      | none => by_cases hchanges : 0 < (before.apply answer.effect).changes <;> simp [hchanges]
      | some k =>
          by_cases hchanges : 0 < (before.apply answer.effect).changes <;>
            simp [hchanges, eq_comm]
    · simp only [hdone, false_and, if_false, false_imp_iff]

/-- Two inserts: the second one's results are its own. -/
theorem results_own_iff_twoInserts :
    ∃ env ptr s₁ history s st, (statementCalls env ptr s₁).Run history s ∧
      (effects env history).length = 1 ∧
      (nativeExecuteForChangedRowCount env ptr st s).1 = .ok 1 ∧
      (nativeExecuteForLastInsertedRowId env ptr st s).1 = .ok 1 := by
  let env := NativeEnv.answering .ok
  let s₁ := (NativeSQLiteConnection.open env "native.db" NativeState.start).2
  have hopen : NativeSQLiteConnection.open env "native.db" NativeState.start = (.ok (), s₁) :=
    Prod.ext (by decide +kernel) rfl
  obtain ⟨history, s, hrun, htest⟩ := Lts.exists_run_of_replay s₁
    (StatementCall.next env s₁.mConnectionPtr)
    [.nativePrepareStatement "INSERT INTO t VALUES (?)", .nativeBindLong 3 1 7,
      .nativeExecute 3, .nativeFinalizeStatement 3,
      .nativePrepareStatement "INSERT INTO t VALUES (?)", .nativeBindNull 4 1]
    (fun history s => decide ((effects env history).length = 1) &&
      (s.stmts.lookup 4).isSome) (by decide +kernel)
  rw [Bool.and_eq_true, decide_eq_true_iff, Option.isSome_iff_exists] at htest
  obtain ⟨hlength, stmt, hst⟩ := htest
  have hresults := results_own_iff NativeInv.start hopen hrun hst
  refine ⟨env, s₁.mConnectionPtr, s₁, history, s, 4, hrun, hlength, ?_, ?_⟩
  · exact hresults.1.2 fun _ => Or.inl (Option.some_ne_none 1)
  · exact hresults.2.2 fun _ => Or.inl (show (0 : Int32) < 1 by decide)

/-- An insert of row 7, then a statement that inserts nothing and is told 7. -/
theorem results_broken_by_createTable :
    ¬ ∀ env path s₀ s₁ history s st stmt, NativeInv s₀ →
      NativeSQLiteConnection.open env path s₀ = (.ok (), s₁) →
      (statementCalls env s₁.mConnectionPtr s₁).Run history s →
      s.stmts.lookup st = some stmt →
      (nativeExecuteForChangedRowCount env s₁.mConnectionPtr st s).1 =
          .ok (changedRowCount (env.lib.step s.calls)) ∧
        (nativeExecuteForLastInsertedRowId env s₁.mConnectionPtr st s).1 =
          .ok (lastInsertedRowId (env.lib.step s.calls)) := by
  intro hclaim
  let env : NativeEnv :=
    { NativeEnv.answering .ok with
      lib := { Sqlite.answering .ok with
        step := fun call =>
          if call = 4 then ⟨SQLITE_DONE, ⟨some 1, some 7⟩⟩ else ⟨SQLITE_DONE, ⟨none, none⟩⟩ } }
  let s₁ := (NativeSQLiteConnection.open env "native.db" NativeState.start).2
  have hopen : NativeSQLiteConnection.open env "native.db" NativeState.start = (.ok (), s₁) :=
    Prod.ext (by decide +kernel) rfl
  obtain ⟨history, s, hrun, htest⟩ := Lts.exists_run_of_replay s₁
    (StatementCall.next env s₁.mConnectionPtr)
    [.nativePrepareStatement "INSERT INTO t VALUES (7)", .nativeExecute 3,
      .nativeFinalizeStatement 3, .nativePrepareStatement "CREATE TABLE u (x)"]
    (fun _ s => (s.stmts.lookup 4).isSome && decide (s.calls = 6 ∧
      (nativeExecuteForLastInsertedRowId env s₁.mConnectionPtr 4 s).1 = .ok 7))
    (by decide +kernel)
  rw [Bool.and_eq_true, decide_eq_true_iff, Option.isSome_iff_exists] at htest
  obtain ⟨⟨stmt, hst⟩, hcalls, hseven⟩ := htest
  have hresult := (hclaim env "native.db" NativeState.start s₁ history s 4 stmt NativeInv.start
    hopen hrun hst).2
  rw [hcalls, hseven] at hresult
  exact absurd hresult (by decide)

end

end OrmBenchmark.Ref
