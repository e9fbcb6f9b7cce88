import OrmBenchmark.Ref.NativeConnection

/-!
# The life of a statement

What the log says of one statement is a prepare, then uses, then at most one
finalize, and the last of these is there exactly when the statement does not
live any more. Every library call keeps that, because a call on a statement
that does not live ends the process, so every program over the library keeps
it too, whatever the order of its calls.
-/

namespace OrmBenchmark.Ref

open OrmBenchmark.Lib OrmBenchmark.Lib.Prog

section Rules

variable {α : Type} {s : NativeState} {Q : Post NativeState Throwable α}

theorem wp_withHandle {db : Nat} {f : Counters → NativeProg α}
    (hlive : ∀ counters, s.handles.lookup db = some counters → (f counters).wp Q s)
    (hdead : s.handles.lookup db = none → Q.dead s) : (withHandle db f).wp Q s := by
  simp only [withHandle, wp_bind, wp_getState]
  cases h : s.handles.lookup db with
  | none => exact hdead h
  | some counters => exact hlive counters h

theorem wp_withStmt {statement : Nat} {onNull : α} {f : Stmt → NativeProg α}
    (hnull : statement = 0 → Q.ok onNull s)
    (hlive : ∀ stmt, statement ≠ 0 → s.stmts.lookup statement = some stmt →
      (f stmt).wp Q s)
    (hdead : statement ≠ 0 → s.stmts.lookup statement = none → Q.dead s) :
    (withStmt statement onNull f).wp Q s := by
  simp only [withStmt, wp_bind, wp_getState]
  by_cases hzero : statement = 0
  · rw [if_pos hzero]
    exact hnull hzero
  · rw [if_neg hzero]
    cases h : s.stmts.lookup statement with
    | none => exact hdead hzero h
    | some stmt => exact hlive stmt hzero h

@[simp]
theorem wp_record' {event : NativeEvent} {Q : Post NativeState Throwable Unit} :
    (record' event).wp Q s ↔ Q.ok () { s with log := s.log ++ [event] } := Iff.rfl

@[simp]
theorem wp_nextCall {Q : Post NativeState Throwable Nat} :
    nextCall.wp Q s ↔ Q.ok s.calls { s with calls := s.calls + 1 } := Iff.rfl

@[simp]
theorem wp_allocate {Q : Post NativeState Throwable Nat} :
    allocate.wp Q s ↔ Q.ok s.next { s with next := s.next + 1 } := Iff.rfl

/-- A call on a handle that lives. -/
theorem wp_liveHandle {db : Nat} {f : Counters → NativeProg α} (hmem : db ∈ s.handles)
    (hf : ∀ counters, (f counters).wp Q s) : (withHandle db f).wp Q s := by
  refine wp_withHandle (fun counters _ => hf counters) fun hnone => ?_
  rw [← AList.lookup_isSome, hnone] at hmem
  cases hmem

theorem wp_liveConnection {ptr db : Nat} {Q : Post NativeState Throwable Nat}
    (h : s.wrappers.lookup ptr = some db)
    (hQ : Q.ok db { s with log := s.log ++ [.deref ptr true] }) : (connectionDb ptr).wp Q s := by
  simp only [connectionDb, wp_bind, wp_getState, h, wp_record', wp_pure]
  exact hQ

theorem wp_throw_sqlite3_exception {lib : Sqlite} {db : Nat} {message : Option String}
    {Q : Post NativeState Throwable Unit} (hmem : db ∈ s.handles)
    (hQ : ∀ e : Throwable, e.kind = .runtimeException →
      Q.ok () { s with calls := s.calls + 1, pending := some e, log := s.log ++ [.raised e] }) :
    (throw_sqlite3_exception lib db message).wp Q s := by
  refine wp_liveHandle hmem fun _ => ?_
  simp only [wp_bind, wp_nextCall, jniThrowException, wp_modifyState, wp_record']
  exact hQ _ rfl

/-- What `executeNonQuery` does when the step it made was not the last: with a
row it throws a message, with an error that of the connection. -/
inductive StepThrows (ptr : Nat) (e : Throwable) (s : NativeState) : NativeState → Prop
  | row : StepThrows ptr e s { s with pending := some e, log := s.log ++ [.raised e] }
  | error : StepThrows ptr e s
      { s with
        calls := s.calls + 1
        pending := some e
        log := s.log ++ [.deref ptr true] ++ [.raised e] }

/-- The rest of `executeNonQuery`, from what the step came to. -/
theorem wp_executeNonQuery_of_step {env : NativeEnv} {ptr db st : Nat}
    {R : Nat → NativeState → Prop} {Q : Post NativeState Throwable Nat}
    (hstep : (sqlite3_step env.lib st).wp { ok := R, throws := Q.throws, dead := Q.dead } s)
    (hlive : ∀ err s', R err s' → s'.wrappers.lookup ptr = some db ∧ db ∈ s'.handles)
    (hdone : ∀ s', R SQLITE_DONE s' → Q.ok SQLITE_DONE s')
    (hthrows : ∀ err e s' s'', R err s' → err ≠ SQLITE_DONE → e.kind = .runtimeException →
      StepThrows ptr e s' s'' → Q.ok err s'') : (executeNonQuery env ptr st).wp Q s := by
  simp only [executeNonQuery, wp_bind]
  refine wp_mono hstep (fun err s' hR => ?_) (fun _ _ h => h) (fun _ h => h)
  by_cases hrow : err = SQLITE_ROW
  · subst hrow
    simp only [if_true, throw_sqlite3_exception_message, jniThrowException, wp_bind,
      wp_modifyState, wp_record', wp_pure]
    exact hthrows _ _ s' _ hR (by decide) rfl .row
  · by_cases hok : err = SQLITE_DONE
    · subst hok
      simp only [if_neg hrow, ne_eq, not_true_eq_false, if_false, wp_pure]
      exact hdone s' hR
    · simp only [if_neg hrow, ne_eq, if_pos hok, wp_bind]
      obtain ⟨hwrapper, hhandle⟩ := hlive err s' hR
      refine wp_liveConnection hwrapper ?_
      simp only [wp_bind]
      refine wp_throw_sqlite3_exception hhandle fun e hkind => ?_
      exact hthrows err e s' _ hR hok hkind .error

end Rules

/-! ## What the log says of a statement -/

def NativeEvent.about (statement : Nat) : NativeEvent → Bool
  | .prepared st | .used st _ | .finalized st => st = statement
  | .deref _ _ | .opened _ | .closed _ _ | .raised _ => false

def aboutStatement (statement : Nat) (log : List NativeEvent) : List NativeEvent :=
  log.filter fun event => event.about statement

/-- Prepared once, used, finalized once. -/
def Finalized (statement : Nat) (events : List NativeEvent) : Prop :=
  ∃ uses : List StmtUse, events =
    .prepared statement :: uses.map (.used statement) ++ [.finalized statement]

structure StmtInv (s : NativeState) : Prop where
  pos : 0 < s.next
  gone : ∀ st, st ∉ s.stmts →
    aboutStatement st s.log = [] ∨ Finalized st (aboutStatement st s.log)
  held : ∀ st, st ∈ s.stmts → ∃ uses : List StmtUse,
    aboutStatement st s.log = .prepared st :: uses.map (.used st)
  fresh : ∀ st, st = 0 ∨ s.next ≤ st → aboutStatement st s.log = []

theorem StmtInv.start : StmtInv NativeState.start where
  pos := Nat.one_pos
  gone _ _ := Or.inl rfl
  held st h := absurd h (AList.notMem_empty st)
  fresh _ _ := rfl

section Steps

variable {s s' : NativeState} {st : Nat}

theorem aboutStatement_snoc {log : List NativeEvent} {event : NativeEvent} :
    aboutStatement st (log ++ [event]) =
      aboutStatement st log ++ if event.about st then [event] else [] := by
  rw [aboutStatement, List.filter_append, aboutStatement]
  congr 1
  by_cases h : event.about st <;> simp [h]

theorem aboutStatement_snoc_of_not {log : List NativeEvent} {event : NativeEvent}
    (h : event.about st = false) :
    aboutStatement st (log ++ [event]) = aboutStatement st log := by
  rw [aboutStatement_snoc, h]
  simp

/-- Nothing begins or ends, and nothing new is said of any statement. -/
theorem StmtInv.of_silent (hinv : StmtInv s) (hstmts : ∀ x, x ∈ s'.stmts ↔ x ∈ s.stmts)
    (hnext : s.next ≤ s'.next)
    (hlog : ∀ st, aboutStatement st s'.log = aboutStatement st s.log) : StmtInv s' := by
  refine ⟨Nat.lt_of_lt_of_le hinv.pos hnext, ?_, ?_, ?_⟩
  · intro st hst
    rw [hlog]
    exact hinv.gone st ((hstmts st).not.1 hst)
  · intro st hst
    rw [hlog]
    exact hinv.held st ((hstmts st).1 hst)
  · intro st hst
    rw [hlog]
    exact hinv.fresh st (hst.imp_right fun h => Nat.le_trans hnext h)

theorem StmtInv.not_mem_of_fresh (hinv : StmtInv s) (hst : st = 0 ∨ s.next ≤ st) :
    st ∉ s.stmts := by
  intro hmem
  obtain ⟨uses, huses⟩ := hinv.held st hmem
  rw [hinv.fresh st hst] at huses
  cases huses

theorem StmtInv.pos_of_mem (hinv : StmtInv s) (hst : st ∈ s.stmts) :
    st ≠ 0 ∧ st < s.next := by
  refine ⟨fun hzero => hinv.not_mem_of_fresh (Or.inl hzero) hst, ?_⟩
  by_contra hge
  exact hinv.not_mem_of_fresh (Or.inr (Nat.le_of_not_lt hge)) hst

/-- One event of one statement that is below the counter: the others keep what
is said of them, so only `st` itself is left to the three kinds of event. -/
theorem StmtInv.of_event (hinv : StmtInv s) {event : NativeEvent}
    (hpos : st ≠ 0) (hlt : st < s'.next) (hnext : s.next ≤ s'.next)
    (hlog : s'.log = s.log ++ [event]) (hevent : ∀ x, x ≠ st → event.about x = false)
    (hkeys : ∀ x, x ≠ st → (x ∈ s'.stmts ↔ x ∈ s.stmts))
    (hgone : st ∉ s'.stmts → Finalized st (aboutStatement st s'.log))
    (hheld : st ∈ s'.stmts → ∃ uses : List StmtUse,
      aboutStatement st s'.log = .prepared st :: uses.map (.used st)) : StmtInv s' := by
  have hother : ∀ x, x ≠ st → aboutStatement x s'.log = aboutStatement x s.log := by
    intro x hx
    rw [hlog]
    exact aboutStatement_snoc_of_not (hevent x hx)
  refine ⟨Nat.lt_of_lt_of_le hinv.pos hnext, ?_, ?_, ?_⟩
  · intro x hx
    by_cases hxs : x = st
    · subst hxs
      exact Or.inr (hgone hx)
    · rw [hother x hxs]
      exact hinv.gone x ((hkeys x hxs).not.1 hx)
  · intro x hx
    by_cases hxs : x = st
    · subst hxs
      exact hheld hx
    · rw [hother x hxs]
      exact hinv.held x ((hkeys x hxs).1 hx)
  · intro x hx
    have hne : x ≠ st := by
      intro h
      omega
    rw [hother x hne]
    exact hinv.fresh x (by omega)

/-- A live statement is used; `stmts` may change under its key. -/
theorem StmtInv.used (hinv : StmtInv s) (hst : st ∈ s.stmts) (use : StmtUse)
    (hkeys : ∀ x, x ∈ s'.stmts ↔ x ∈ s.stmts) (hnext : s'.next = s.next)
    (hlog : s'.log = s.log ++ [.used st use]) : StmtInv s' := by
  obtain ⟨hne, hlt⟩ := hinv.pos_of_mem hst
  refine hinv.of_event hne (by omega) (by omega) hlog
    (fun x hx => decide_eq_false (Ne.symm hx)) (fun x _ => hkeys x)
    (fun hx => absurd ((hkeys st).2 hst) hx) fun _ => ?_
  obtain ⟨uses, huses⟩ := hinv.held st hst
  refine ⟨uses ++ [use], ?_⟩
  rw [hlog, aboutStatement_snoc, huses]
  simp [NativeEvent.about]

theorem StmtInv.prepared (hinv : StmtInv s) (stmt : Stmt)
    (hstmts : s'.stmts = s.stmts.insert s.next stmt)
    (hnext : s'.next = s.next + 1) (hlog : s'.log = s.log ++ [.prepared s.next]) :
    StmtInv s' := by
  have hpos := hinv.pos
  have hmem : s.next ∈ s'.stmts := by
    rw [hstmts, AList.mem_insert]
    exact Or.inl rfl
  refine hinv.of_event (by omega) (by omega) (by omega) hlog
    (fun x hx => decide_eq_false (Ne.symm hx)) (fun x hx => ?_)
    (fun hx => absurd hmem hx) fun _ => ⟨[], ?_⟩
  · rw [hstmts, AList.mem_insert, or_iff_right hx]
  · rw [hlog, aboutStatement_snoc, hinv.fresh _ (Or.inr (Nat.le_refl _))]
    simp [NativeEvent.about]

theorem StmtInv.finalized (hinv : StmtInv s) (hst : st ∈ s.stmts)
    (hstmts : s'.stmts = s.stmts.erase st) (hnext : s'.next = s.next)
    (hlog : s'.log = s.log ++ [.finalized st]) : StmtInv s' := by
  obtain ⟨hne, hlt⟩ := hinv.pos_of_mem hst
  have hgone : st ∉ s'.stmts := by
    rw [hstmts, AList.mem_erase]
    exact fun h => h.1 rfl
  refine hinv.of_event hne (by omega) (by omega) hlog
    (fun x hx => decide_eq_false (Ne.symm hx)) (fun x hx => ?_) (fun _ => ?_)
    fun hx => absurd hx hgone
  · rw [hstmts, AList.mem_erase, and_iff_right hx]
  · obtain ⟨uses, huses⟩ := hinv.held st hst
    refine ⟨uses, ?_⟩
    rw [hlog, aboutStatement_snoc, huses]
    simp [NativeEvent.about]

end Steps

/-! ## Every program keeps it

A program over the library is built from its calls, so the rules for the
constructs are all that is needed beyond the calls themselves. -/

section Preserves

variable {α : Type} {lib : Sqlite}

theorem stmtInv_modifyState {f : NativeState → NativeState}
    (hstmts : ∀ s, (f s).stmts = s.stmts) (hnext : ∀ s, (f s).next = s.next)
    (hlog : ∀ s, (f s).log = s.log) :
    Preserves StmtInv (Prog.modifyState f : NativeProg Unit) := fun s hinv =>
  hinv.of_silent (fun x => by rw [hstmts]) (Nat.le_of_eq (hnext s).symm) fun st => by rw [hlog]

theorem stmtInv_record' {event : NativeEvent} (h : ∀ st, event.about st = false) :
    Preserves StmtInv (record' event) := fun _ hinv =>
  hinv.of_silent (fun _ => Iff.rfl) (Nat.le_refl _) fun st => aboutStatement_snoc_of_not (h st)

theorem stmtInv_nextCall : Preserves StmtInv nextCall := fun _ hinv =>
  hinv.of_silent (fun _ => Iff.rfl) (Nat.le_refl _) fun _ => rfl

theorem stmtInv_allocate : Preserves StmtInv allocate := fun _ hinv =>
  hinv.of_silent (fun _ => Iff.rfl) (Nat.le_succ _) fun _ => rfl

theorem stmtInv_withHandle {db : Nat} {f : Counters → NativeProg α}
    (hf : ∀ counters, Preserves StmtInv (f counters)) :
    Preserves StmtInv (withHandle db f) := fun s hinv =>
  wp_withHandle (fun counters _ => hf counters s hinv) (fun _ => hinv)

theorem stmtInv_newHandle : Preserves StmtInv newHandle :=
  preserves_bind stmtInv_allocate fun _ =>
    preserves_bind (stmtInv_modifyState (fun _ => rfl) (fun _ => rfl) (fun _ => rfl))
      fun _ => preserves_bind (stmtInv_record' fun _ => rfl) fun _ => preserves_pure

theorem stmtInv_open_v2 {path : String} {flags : Nat} :
    Preserves StmtInv (sqlite3_open_v2 lib path flags) := by
  refine preserves_bind stmtInv_nextCall fun call => ?_
  split
  · exact preserves_bind stmtInv_newHandle fun _ => preserves_pure
  · exact preserves_bind stmtInv_newHandle fun _ => preserves_pure
  · exact preserves_pure

theorem stmtInv_close {db : Nat} : Preserves StmtInv (sqlite3_close lib db) := by
  refine stmtInv_withHandle fun _ => ?_
  refine preserves_bind stmtInv_nextCall fun call => ?_
  refine preserves_bind preserves_getState fun s => ?_
  refine preserves_bind (stmtInv_record' fun _ => rfl) fun _ => ?_
  refine preserves_ite ?_ preserves_pure
  refine preserves_bind (stmtInv_modifyState ?_ ?_ ?_) fun _ => preserves_pure
  all_goals intro s; rfl

theorem stmtInv_throw {db : Nat} {message : Option String} :
    Preserves StmtInv (throw_sqlite3_exception lib db message) := by
  refine stmtInv_withHandle fun _ => preserves_bind stmtInv_nextCall fun call => ?_
  exact preserves_bind (stmtInv_modifyState (fun _ => rfl) (fun _ => rfl) (fun _ => rfl))
    fun _ => stmtInv_record' fun _ => rfl

theorem stmtInv_jniThrowException {e : Throwable} :
    Preserves StmtInv (jniThrowException e) :=
  preserves_bind (stmtInv_modifyState (fun _ => rfl) (fun _ => rfl) (fun _ => rfl))
    fun _ => stmtInv_record' fun _ => rfl

theorem stmtInv_prepare {db : Nat} {sql : String} :
    Preserves StmtInv (sqlite3_prepare16_v2 lib db sql) := by
  refine stmtInv_withHandle fun _ => preserves_bind stmtInv_nextCall fun call => ?_
  split
  · exact preserves_pure
  · exact preserves_pure
  · next parameters readOnly _ =>
      intro s hinv
      exact hinv.prepared ⟨db, parameters, readOnly, []⟩ rfl rfl rfl

theorem stmtInv_finalize {statement : Nat} :
    Preserves StmtInv (sqlite3_finalize statement) := by
  intro s hinv
  simp only [sqlite3_finalize, wp_bind, wp_getState]
  by_cases hzero : statement = 0
  · rw [if_pos hzero]
    exact hinv
  · rw [if_neg hzero]
    cases hlookup : s.stmts.lookup statement with
    | none => exact hinv
    | some stmt =>
        have hmem : statement ∈ s.stmts :=
          AList.lookup_isSome.1 (Option.isSome_iff_exists.2 ⟨stmt, hlookup⟩)
        exact hinv.finalized hmem rfl rfl rfl

/-- A call that uses a live statement once, and may change what is under its
key. -/
theorem stmtInv_withStmt {statement : Nat} {onNull : α} {f : Stmt → NativeProg α}
    (hf : ∀ s stmt, StmtInv s → statement ∈ s.stmts →
      (f stmt).wp { ok := fun _ => StmtInv, throws := fun _ => StmtInv, dead := StmtInv } s) :
    Preserves StmtInv (withStmt statement onNull f) := by
  intro s hinv
  refine wp_withStmt (fun _ => hinv) (fun stmt _ hlookup => ?_) (fun _ _ => hinv)
  refine hf s stmt hinv (AList.lookup_isSome.1 ?_)
  exact Option.isSome_iff_exists.2 ⟨stmt, hlookup⟩

theorem mem_insert_self_iff {stmts : AList fun _ : Nat => Stmt} {st : Nat} {stmt : Stmt}
    (hst : st ∈ stmts) (x : Nat) : x ∈ stmts.insert st stmt ↔ x ∈ stmts := by
  rw [AList.mem_insert]
  exact ⟨fun h => h.elim (fun heq => heq ▸ hst) id, Or.inr⟩

theorem stmtInv_bind_parameter_count {statement : Nat} :
    Preserves StmtInv (sqlite3_bind_parameter_count statement) :=
  stmtInv_withStmt fun _ _ hinv hst => hinv.used hst .parameterCount (fun _ => Iff.rfl) rfl rfl

theorem stmtInv_stmt_readonly {statement : Nat} :
    Preserves StmtInv (sqlite3_stmt_readonly statement) :=
  stmtInv_withStmt fun _ _ hinv hst => hinv.used hst .readOnly (fun _ => Iff.rfl) rfl rfl

theorem stmtInv_bind {statement index : Nat} {image : BindImage} :
    Preserves StmtInv (sqlite3_bind lib statement index image) := by
  refine stmtInv_withStmt fun s stmt hinv hst => ?_
  simp only [wp_bind, wp_nextCall, wp_record']
  by_cases herr : lib.bind s.calls = SQLITE_OK
  · rw [if_pos herr]
    exact hinv.used hst _ (mem_insert_self_iff hst) rfl rfl
  · rw [if_neg herr]
    exact hinv.used hst _ (fun _ => Iff.rfl) rfl rfl

theorem stmtInv_step {statement : Nat} :
    Preserves StmtInv (sqlite3_step lib statement) := by
  refine stmtInv_withStmt fun s stmt hinv hst => ?_
  simp only [wp_bind, wp_nextCall]
  refine wp_withHandle (fun counters _ => ?_) (fun _ => ?_)
  · exact hinv.used hst _ (fun _ => Iff.rfl) rfl rfl
  · exact hinv.of_silent (fun _ => Iff.rfl) (Nat.le_refl _) fun _ => rfl

theorem stmtInv_reset {statement : Nat} :
    Preserves StmtInv (sqlite3_reset lib statement) :=
  stmtInv_withStmt fun _ _ hinv hst => hinv.used hst .reset (fun _ => Iff.rfl) rfl rfl

theorem stmtInv_clear_bindings {statement : Nat} :
    Preserves StmtInv (sqlite3_clear_bindings lib statement) :=
  stmtInv_withStmt fun _ _ hinv hst =>
    hinv.of_silent (mem_insert_self_iff hst) (Nat.le_refl _) fun _ => rfl

/-! The native functions. -/

variable {env : NativeEnv}

theorem stmtInv_jni {m : NativeProg α} (hm : Preserves StmtInv m) :
    Preserves StmtInv (jni m) := by
  refine preserves_bind hm fun a => preserves_bind preserves_getState fun s => ?_
  split
  · exact preserves_pure
  · refine preserves_bind (stmtInv_modifyState ?_ ?_ ?_) fun _ => preserves_raise
    all_goals intro s; rfl

theorem stmtInv_connectionDb {connectionPtr : Nat} :
    Preserves StmtInv (connectionDb connectionPtr) := by
  refine preserves_bind preserves_getState fun s => ?_
  split
  · exact preserves_bind (stmtInv_record' fun _ => rfl) fun _ => preserves_die
  · exact preserves_bind (stmtInv_record' fun _ => rfl) fun _ => preserves_pure

theorem stmtInv_openFailed {db : Nat} {message : String} :
    Preserves StmtInv (openFailed env db message) :=
  preserves_bind stmtInv_throw fun _ =>
    preserves_bind stmtInv_close fun _ => preserves_pure

theorem stmtInv_nativeOpen {path : String} {openFlags : Nat} :
    Preserves StmtInv (nativeOpen env path openFlags) := by
  refine preserves_bind stmtInv_open_v2 fun ⟨err, db⟩ => ?_
  refine preserves_ite (preserves_bind stmtInv_jniThrowException fun _ => preserves_pure) ?_
  refine preserves_bind (preserves_ite ?_ preserves_pure) fun readOnly => ?_
  · exact stmtInv_withHandle fun _ => preserves_bind stmtInv_nextCall fun _ => preserves_pure
  refine preserves_ite stmtInv_openFailed ?_
  refine preserves_bind (stmtInv_withHandle fun _ =>
    preserves_bind stmtInv_nextCall fun _ => preserves_pure) fun err => ?_
  refine preserves_ite stmtInv_openFailed ?_
  refine preserves_bind stmtInv_allocate fun connection => ?_
  exact preserves_bind (stmtInv_modifyState (fun _ => rfl) (fun _ => rfl) (fun _ => rfl))
    fun _ => preserves_pure

theorem stmtInv_nativeClose {connectionPtr : Nat} :
    Preserves StmtInv (nativeClose env connectionPtr) := by
  refine preserves_ite ?_ preserves_pure
  refine preserves_bind stmtInv_connectionDb fun db => preserves_bind stmtInv_close fun err => ?_
  exact preserves_ite stmtInv_throw
    (stmtInv_modifyState (fun _ => rfl) (fun _ => rfl) (fun _ => rfl))

theorem stmtInv_nativePrepareStatement {connectionPtr : Nat} {sql : String} :
    Preserves StmtInv (nativePrepareStatement env connectionPtr sql) := by
  refine preserves_bind stmtInv_connectionDb fun db => ?_
  refine preserves_bind stmtInv_prepare fun ⟨err, statement⟩ => ?_
  exact preserves_ite (preserves_bind stmtInv_throw fun _ => preserves_pure) preserves_pure

theorem stmtInv_nativeFinalizeStatement {connectionPtr statementPtr : Nat} :
    Preserves StmtInv (nativeFinalizeStatement connectionPtr statementPtr) :=
  preserves_bind stmtInv_connectionDb fun _ => stmtInv_finalize

theorem stmtInv_throwUnlessOk {connectionPtr err : Nat} :
    Preserves StmtInv (throwUnlessOk env connectionPtr err) :=
  preserves_ite (preserves_bind stmtInv_connectionDb fun _ => stmtInv_throw) preserves_pure

theorem stmtInv_nativeBindString {connectionPtr statementPtr index : Nat}
    {value : Option (List UInt16)} :
    Preserves StmtInv (nativeBindString env connectionPtr statementPtr index value) := by
  unfold nativeBindString
  split
  · exact preserves_die
  · exact preserves_bind stmtInv_bind fun _ => stmtInv_throwUnlessOk

theorem stmtInv_nativeReset {connectionPtr statementPtr : Nat} :
    Preserves StmtInv
      (nativeResetStatementAndClearBindings env connectionPtr statementPtr) :=
  preserves_bind stmtInv_reset fun _ =>
    preserves_ite (preserves_bind stmtInv_clear_bindings fun _ => stmtInv_throwUnlessOk)
      stmtInv_throwUnlessOk

theorem stmtInv_executeNonQuery {connectionPtr statementPtr : Nat} :
    Preserves StmtInv (executeNonQuery env connectionPtr statementPtr) := by
  refine preserves_bind stmtInv_step fun err => ?_
  refine preserves_ite (preserves_bind stmtInv_jniThrowException fun _ => preserves_pure) ?_
  refine preserves_ite ?_ preserves_pure
  exact preserves_bind stmtInv_connectionDb fun _ =>
    preserves_bind stmtInv_throw fun _ => preserves_pure

theorem stmtInv_nativeExecute {connectionPtr statementPtr : Nat} :
    Preserves StmtInv (nativeExecute env connectionPtr statementPtr) :=
  preserves_bind stmtInv_executeNonQuery fun _ => preserves_pure

theorem stmtInv_nativeExecuteForLastInsertedRowId {connectionPtr statementPtr : Nat} :
    Preserves StmtInv
      (nativeExecuteForLastInsertedRowId env connectionPtr statementPtr) := by
  refine preserves_bind stmtInv_executeNonQuery fun err => preserves_ite ?_ preserves_pure
  refine preserves_bind stmtInv_connectionDb fun db => ?_
  refine preserves_bind (stmtInv_withHandle fun _ => preserves_pure) fun changes => ?_
  exact preserves_ite (stmtInv_withHandle fun _ => preserves_pure) preserves_pure

/-! The Java methods. -/

theorem stmtInv_throwJava {e : Throwable} :
    Preserves StmtInv (throwJava e : NativeProg α) :=
  preserves_bind (stmtInv_record' fun _ => rfl) fun _ => preserves_raise

theorem stmtInv_orFail {failure : Option RuntimeThrowable} {m : NativeProg α}
    (hm : Preserves StmtInv m) : Preserves StmtInv (orFail failure m) := by
  unfold orFail
  split
  · exact hm
  · exact stmtInv_throwJava

theorem stmtInv_connectionPtr : Preserves StmtInv connectionPtr :=
  preserves_bind preserves_getState fun _ => preserves_pure

theorem stmtInv_bindArgument {statementPtr i : Nat} {arg : JavaObject} :
    Preserves StmtInv (bindArgument env statementPtr i arg) := by
  have hbind : ∀ {ptr index : Nat} {image : BindImage}, Preserves StmtInv
      (jni (sqlite3_bind env.lib statementPtr index image >>= throwUnlessOk env ptr)) :=
    fun {_ _ _} => stmtInv_jni (preserves_bind stmtInv_bind fun _ => stmtInv_throwUnlessOk)
  refine preserves_bind stmtInv_connectionPtr fun ptr => ?_
  cases arg with
  | null => exact hbind
  | byte value => exact hbind
  | short value => exact hbind
  | integer value => exact hbind
  | long value => exact hbind
  | float value => exact hbind
  | double value => exact hbind
  | byteArray value => exact hbind
  | boolean value => exact hbind
  | other text =>
      cases text with
      | error e => exact preserves_bind stmtInv_throwJava fun _ =>
          stmtInv_jni stmtInv_nativeBindString
      | ok value => exact stmtInv_jni stmtInv_nativeBindString

theorem stmtInv_bindArguments {statement : PreparedStatement}
    {bindArgs : Option (List JavaObject)} :
    Preserves StmtInv (bindArguments env statement bindArgs) :=
  preserves_ite stmtInv_throwJava
    (preserves_forEach (fun _ => stmtInv_bindArgument) _)

theorem stmtInv_acquirePreparedStatement {sql : String} :
    Preserves StmtInv (acquirePreparedStatement env sql) := by
  refine preserves_bind stmtInv_connectionPtr fun ptr => ?_
  refine preserves_bind (stmtInv_jni stmtInv_nativePrepareStatement) fun statementPtr => ?_
  refine preserves_bind (preserves_tryCatch ?_ fun ex => ?_) fun _ => preserves_pure
  · refine preserves_bind preserves_getState fun s => ?_
    refine preserves_bind (stmtInv_orFail (stmtInv_jni stmtInv_bind_parameter_count))
      fun numParameters => ?_
    split
    · exact stmtInv_throwJava
    · exact preserves_bind (stmtInv_orFail (stmtInv_jni stmtInv_stmt_readonly))
        fun _ => preserves_pure
  · refine preserves_ite ?_ preserves_raise
    refine preserves_bind stmtInv_connectionPtr fun ptr => ?_
    exact preserves_bind (stmtInv_jni stmtInv_nativeFinalizeStatement) fun _ => preserves_raise

theorem stmtInv_releasePreparedStatement {statement : PreparedStatement} :
    Preserves StmtInv (releasePreparedStatement env statement) := by
  refine preserves_ite ?_ ?_
  · refine preserves_bind stmtInv_connectionPtr fun ptr => ?_
    exact preserves_tryCatch (stmtInv_jni stmtInv_nativeReset)
      fun _ => preserves_ite preserves_pure preserves_raise
  · exact preserves_bind stmtInv_connectionPtr fun _ =>
      stmtInv_jni stmtInv_nativeFinalizeStatement

theorem stmtInv_executeWith {native : Nat → Nat → NativeProg α}
    (hnative : ∀ ptr statement, Preserves StmtInv (native ptr statement))
    {sql : Option String} {bindArgs : Option (List JavaObject)} :
    Preserves StmtInv (executeWith env native sql bindArgs) := by
  unfold executeWith
  split
  · exact stmtInv_throwJava
  · refine preserves_bind stmtInv_acquirePreparedStatement fun statement => ?_
    refine preserves_tryFinally ?_ stmtInv_releasePreparedStatement
    refine preserves_bind stmtInv_bindArguments fun _ => ?_
    exact preserves_bind stmtInv_connectionPtr fun ptr => stmtInv_jni (hnative ptr _)

/-- Any public call, in any state. -/
theorem stmtInv_run (call : NativeCall) : Preserves StmtInv (call.run env) := by
  have hset : ∀ ptr, Preserves StmtInv
      (Prog.modifyState fun s => { s with mConnectionPtr := ptr } : NativeProg Unit) :=
    fun ptr => stmtInv_modifyState (fun _ => rfl) (fun _ => rfl) (fun _ => rfl)
  cases call with
  | «open» path =>
      refine preserves_bind ?_ fun _ => preserves_pure
      exact preserves_bind (stmtInv_jni stmtInv_nativeOpen) fun ptr => hset ptr
  | close =>
      refine preserves_bind ?_ fun _ => preserves_pure
      refine preserves_bind preserves_getState fun s => preserves_ite ?_ preserves_pure
      exact preserves_bind (stmtInv_jni stmtInv_nativeClose) fun _ => hset 0
  | execute sql bindArgs =>
      refine preserves_bind (stmtInv_executeWith fun _ _ => ?_) fun _ => preserves_pure
      exact stmtInv_nativeExecute
  | executeForLastInsertedRowId sql bindArgs =>
      refine preserves_bind (stmtInv_executeWith fun _ _ => ?_) fun _ => preserves_pure
      exact stmtInv_nativeExecuteForLastInsertedRowId

end Preserves

end OrmBenchmark.Ref
