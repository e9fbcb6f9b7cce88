import OrmBenchmark.Proofs.NativeExecute

/-!
# What `open` and `close` do with a handle

Between public calls no statement lives, nothing is pending, and a field that
is not 0 holds the address of a wrapper whose handle lives. Every public call
keeps that, `execute` under the condition that the connection is open.

What it does not say is that no other handle lives. `open` allocates one and
may return without a wrapper for it: by the exit that does not close what
`sqlite3_open_v2` left behind, by an exit whose close fails, or by succeeding
over a connection that was open. `OpenKeeps` excludes the three.
-/

namespace OrmBenchmark.Ref

open OrmBenchmark.Lib OrmBenchmark.Lib.Prog

/-- What holds between public calls. -/
structure NativeInv (s : NativeState) : Prop where
  pos : 0 < s.next
  wrapped : ∀ p db, s.wrappers.lookup p = some db → p ≠ 0 ∧ db < s.next
  fresh : ∀ db, db ∈ s.handles → db < s.next
  stmts : s.stmts = ∅
  pending : s.pending = none
  attached : s.mConnectionPtr ≠ 0 → ∃ db, Attached s db

/-- No handle is lost by this `open`. -/
def OpenKeeps (env : NativeEnv) (path : String) (s : NativeState) : Prop :=
  match env.lib.open_v2 s.calls path (sqliteFlags CREATE_IF_NECESSARY) with
  | .failed _ allocated => allocated = false
  | .ok =>
      if env.lib.db_readonly (s.calls + 1) then
        env.lib.close (s.calls + 3) 0 = SQLITE_OK
      else if env.lib.busy_timeout (s.calls + 2) ≠ SQLITE_OK then
        env.lib.close (s.calls + 4) 0 = SQLITE_OK
      else
        s.mConnectionPtr = 0

/-- `open` threw `e`. -/
structure OpenFails (env : NativeEnv) (path : String) (s : NativeState) (e : Throwable)
    (s' : NativeState) : Prop where
  ptr : s'.mConnectionPtr = s.mConnectionPtr
  wrappers : s'.wrappers = s.wrappers
  handles : ∀ x, x ∈ s'.handles ↔ x ∈ s.handles ∨ (x = s.next ∧ ¬ OpenKeeps env path s)
  fresh : ∀ x, x ∈ s'.handles → x < s'.next
  next : s.next ≤ s'.next
  stmts : s'.stmts = s.stmts
  pending : s'.pending = none
  log : LogAdds s.log s'.log [e]

/-- `open` returned. -/
structure Opens (env : NativeEnv) (path : String) (s s' : NativeState) : Prop where
  ptr : s'.mConnectionPtr = s.next + 1
  wrappers : s'.wrappers = s.wrappers.insert (s.next + 1) s.next
  handles : ∀ x, x ∈ s'.handles ↔ x = s.next ∨ x ∈ s.handles
  next : s'.next = s.next + 2
  stmts : s'.stmts = s.stmts
  pending : s'.pending = none
  log : LogAdds s.log s'.log []
  keeps : OpenKeeps env path s ↔ s.mConnectionPtr = 0

section

variable {env : NativeEnv} {s s' : NativeState} {path : String} {db : Nat}

theorem NativeInv.start : NativeInv NativeState.start where
  pos := Nat.one_pos
  wrapped p db h := by simp [NativeState.start] at h
  fresh db h := absurd h (AList.notMem_empty db)
  stmts := rfl
  pending := rfl
  attached h := absurd rfl h

theorem NativeInv.lookup_zero (hinv : NativeInv s) : s.wrappers.lookup 0 = none := by
  cases h : s.wrappers.lookup 0 with
  | none => rfl
  | some db => exact absurd rfl (hinv.wrapped 0 db h).1

theorem unfinalized_eq_zero (hstmts : s.stmts = ∅) : s.unfinalized db = 0 := by
  simp [NativeState.unfinalized, hstmts]

/-! ## `open` -/

theorem sqliteFlags_readwrite :
    sqliteFlags CREATE_IF_NECESSARY &&& SQLITE_OPEN_READWRITE ≠ 0 := by decide

/-- The state `openFailed` leaves: the handle is gone if the close says so. -/
theorem wp_openFailed {message : String} {Q : Post NativeState Throwable Nat}
    (hlive : db ∈ s.handles) (hstmts : s.stmts = ∅)
    (hQ : ∀ e s', s'.pending = some e → s'.mConnectionPtr = s.mConnectionPtr →
      s'.wrappers = s.wrappers → s'.stmts = s.stmts → s'.next = s.next →
      s'.handles = (if env.lib.close (s.calls + 1) 0 = SQLITE_OK then s.handles.erase db
        else s.handles) →
      s'.log = s.log ++ [.raised e, .closed db (env.lib.close (s.calls + 1) 0)] →
      Q.ok 0 s') :
    (openFailed env db message).wp Q s := by
  obtain ⟨counters, hlookup⟩ := Option.isSome_iff_exists.1 (AList.lookup_isSome.2 hlive)
  have hzero : ∀ x, s.unfinalized x = 0 := fun x => unfinalized_eq_zero hstmts
  simp only [NativeState.unfinalized] at hzero
  simp only [openFailed, throw_sqlite3_exception, sqlite3_close, withHandle, wp_bind,
    wp_getState, hlookup, wp_nextCall, jniThrowException, wp_modifyState, wp_record',
    NativeState.unfinalized, hzero]
  split
  · next hok =>
      refine hQ _ _ rfl rfl rfl rfl rfl (if_pos hok).symm ?_
      simp
  · next hok =>
      refine hQ _ _ rfl rfl rfl rfl rfl (if_neg hok).symm ?_
      simp

/-- The handle is closed on an error exit, or it is lost. -/
theorem openFails_of_exit {e : Throwable} {s₁ : NativeState} {rest : List NativeEvent}
    (hinv : NativeInv s) {call : Nat} (hptr : s₁.mConnectionPtr = s.mConnectionPtr)
    (hwrappers : s₁.wrappers = s.wrappers) (hstmts : s₁.stmts = s.stmts)
    (hnext : s₁.next = s.next + 1)
    (hhandles : s₁.handles = (if env.lib.close call 0 = SQLITE_OK then
      (s.handles.insert s.next ⟨0, 0⟩).erase s.next else s.handles.insert s.next ⟨0, 0⟩))
    (hkeeps : OpenKeeps env path s ↔ env.lib.close call 0 = SQLITE_OK)
    (hlog : s₁.log = s.log ++ rest) (hsound : ∀ event ∈ rest, event.Sound)
    (hraised : raisedOf rest = [e]) :
    OpenFails env path s e { s₁ with pending := none } := by
  have hnew : s.next ∉ s.handles := fun h => Nat.lt_irrefl _ (hinv.fresh _ h)
  have hiff : ∀ x, x ∈ s₁.handles ↔
      x ∈ s.handles ∨ (x = s.next ∧ ¬ OpenKeeps env path s) := by
    intro x
    rw [hhandles, hkeeps]
    by_cases hclose : env.lib.close call 0 = SQLITE_OK
    · rw [if_pos hclose, AList.mem_erase, AList.mem_insert]
      constructor
      · intro h
        exact Or.inl (h.2.resolve_left h.1)
      · intro h
        have hmem := h.resolve_right fun h => h.2 hclose
        exact ⟨fun heq => hnew (heq ▸ hmem), Or.inr hmem⟩
    · rw [if_neg hclose, AList.mem_insert, and_iff_left hclose]
      exact or_comm
  refine ⟨hptr, hwrappers, hiff, ?_, ?_, hstmts, rfl, rest, hlog, hsound, hraised⟩
  · intro x hx
    show x < s₁.next
    rw [hnext]
    rcases (hiff x).1 hx with hx | ⟨hx, _⟩
    · exact Nat.lt_succ_of_lt (hinv.fresh x hx)
    · omega
  · show s.next ≤ s₁.next
    omega

/-- The handle of a new connection has counted nothing. -/
theorem wp_open_fresh (hinv : NativeInv s) :
    (NativeSQLiteConnection.open env path).wp
      { ok := fun _ s' =>
          Opens env path s s' ∧ s'.handles = s.handles.insert s.next ⟨0, 0⟩
        throws := OpenFails env path s
        dead := fun _ => False } s := by
  have hflags := sqliteFlags_readwrite
  have hkeeps : OpenKeeps env path s ↔ OpenKeeps env path s := Iff.rfl
  simp only [NativeSQLiteConnection.open, wp_bind, wp_jni, nativeOpen, sqlite3_open_v2,
    wp_nextCall]
  conv at hkeeps => rhs; unfold OpenKeeps
  split
  · -- The library opened it: three ways on.
    next hopen =>
      simp only [hopen] at hkeeps
      simp only [newHandle, wp_bind, wp_allocate, wp_modifyState, wp_record', wp_pure,
        ne_eq, not_true_eq_false, if_false, openedReadOnly, hflags, not_false_eq_true,
        if_true, sqlite3_db_readonly, withHandle, wp_getState, AList.lookup_insert,
        wp_nextCall]
      split
      · next hreadOnly =>
          rw [if_pos hreadOnly] at hkeeps
          refine wp_openFailed ((AList.mem_insert _).2 (Or.inl rfl)) hinv.stmts ?_
          intro e s₁ hpending hptr hwrappers hstmts hnext hhandles hlog
          simp only [hpending]
          refine openFails_of_exit hinv hptr hwrappers hstmts hnext hhandles hkeeps
            (by rw [hlog, List.append_assoc]) ?_ rfl
          simp [NativeEvent.Sound]
      · next hreadWrite =>
          rw [if_neg hreadWrite] at hkeeps
          simp only [sqlite3_busy_timeout, withHandle, wp_bind, wp_getState,
            AList.lookup_insert, wp_nextCall, wp_pure]
          split
          · next hbusy =>
              rw [if_pos hbusy] at hkeeps
              refine wp_openFailed ((AList.mem_insert _).2 (Or.inl rfl)) hinv.stmts ?_
              intro e s₁ hpending hptr hwrappers hstmts hnext hhandles hlog
              simp only [hpending]
              refine openFails_of_exit hinv hptr hwrappers hstmts hnext hhandles hkeeps
                (by rw [hlog, List.append_assoc]) ?_ rfl
              simp [NativeEvent.Sound]
          · next hbusy =>
              rw [if_neg hbusy] at hkeeps
              simp only [wp_bind, wp_allocate, wp_modifyState, wp_pure, hinv.pending]
              refine ⟨⟨rfl, rfl, fun x => AList.mem_insert _, rfl, rfl, rfl,
                ⟨[.opened s.next], rfl, ?_, rfl⟩, hkeeps⟩, True.intro⟩
              simp [NativeEvent.Sound]
  · -- It failed and left a handle behind, which nothing closes.
    next err hopen =>
      simp only [hopen, Bool.true_eq_false] at hkeeps
      simp only [newHandle, wp_bind, wp_allocate, wp_modifyState, wp_record', wp_pure,
        ne_eq, err.2, not_false_eq_true, if_true, throw_sqlite3_exception_errcode,
        jniThrowException]
      refine ⟨rfl, rfl, fun x => ?_, fun x hx => ?_, Nat.le_succ _, rfl, rfl, ?_⟩
      · rw [AList.mem_insert, hkeeps, and_iff_left not_false]
        exact or_comm
      · show x < s.next + 1
        rcases (AList.mem_insert _).1 hx with hx | hx
        · omega
        · exact Nat.lt_succ_of_lt (hinv.fresh x hx)
      · refine ⟨_, List.append_assoc _ _ _, ?_, rfl⟩
        simp [NativeEvent.Sound]
  · next err hopen =>
      simp only [hopen] at hkeeps
      simp only [wp_bind, wp_modifyState, wp_record', wp_pure, ne_eq, err.2,
        not_false_eq_true, if_true, throw_sqlite3_exception_errcode, jniThrowException]
      refine ⟨rfl, rfl, fun x => ?_, hinv.fresh, Nat.le_refl _, rfl, rfl, ?_⟩
      · rw [hkeeps]
        simp
      · refine ⟨_, rfl, ?_, rfl⟩
        simp [NativeEvent.Sound]

theorem wp_open (hinv : NativeInv s) :
    (NativeSQLiteConnection.open env path).wp
      { ok := fun _ => Opens env path s
        throws := OpenFails env path s
        dead := fun _ => False } s :=
  wp_mono (wp_open_fresh hinv) (fun _ _ h => h.1) (fun _ _ h => h) (fun _ h => h)

/-! ## `close` -/

/-- What `close` asks the library for. -/
abbrev closeErr (env : NativeEnv) (s : NativeState) : Nat := env.lib.close s.calls 0

/-- `close` returned, and had a connection to close. -/
structure Closes (env : NativeEnv) (s : NativeState) (db : Nat) (s' : NativeState) : Prop where
  err : closeErr env s = SQLITE_OK
  ptr : s'.mConnectionPtr = 0
  wrappers : s'.wrappers = s.wrappers.erase s.mConnectionPtr
  handles : s'.handles = s.handles.erase db
  next : s'.next = s.next
  stmts : s'.stmts = s.stmts
  pending : s'.pending = none
  log : s'.log = s.log ++ [.deref s.mConnectionPtr true, .closed db SQLITE_OK]

/-- `close` threw `e` and kept everything. -/
structure CloseFails (env : NativeEnv) (s : NativeState) (db : Nat) (e : Throwable)
    (s' : NativeState) : Prop where
  err : closeErr env s ≠ SQLITE_OK
  ptr : s'.mConnectionPtr = s.mConnectionPtr
  wrappers : s'.wrappers = s.wrappers
  handles : s'.handles = s.handles
  next : s'.next = s.next
  stmts : s'.stmts = s.stmts
  pending : s'.pending = none
  log : s'.log =
    s.log ++ [.deref s.mConnectionPtr true, .closed db (closeErr env s), .raised e]

theorem wp_close (hinv : NativeInv s) (hptr : s.mConnectionPtr ≠ 0) (hatt : Attached s db) :
    (NativeSQLiteConnection.close env).wp
      { ok := fun _ => Closes env s db
        throws := CloseFails env s db
        dead := fun _ => False } s := by
  obtain ⟨counters, hlookup⟩ := Option.isSome_iff_exists.1 (AList.lookup_isSome.2 hatt.handle)
  have hzero : ∀ x, s.unfinalized x = 0 := fun x => unfinalized_eq_zero hinv.stmts
  simp only [NativeState.unfinalized] at hzero
  simp only [NativeSQLiteConnection.close, wp_bind, wp_getState, if_pos hptr, wp_jni,
    nativeClose, connectionDb, hatt.wrapper, wp_record', wp_pure, sqlite3_close, withHandle,
    hlookup, wp_nextCall, NativeState.unfinalized, hzero]
  split
  · next hok =>
      simp only [wp_bind, wp_modifyState, wp_pure, hok, ne_eq, not_true_eq_false, if_false,
        hinv.pending]
      refine ⟨hok, rfl, rfl, rfl, rfl, rfl, rfl, ?_⟩
      simp
  · next hbad =>
      simp only [wp_bind, wp_pure, ne_eq, hbad, not_false_eq_true, if_true,
        throw_sqlite3_exception, withHandle, wp_getState, hlookup, wp_nextCall,
        jniThrowException, wp_modifyState, wp_record']
      refine ⟨hbad, rfl, rfl, rfl, rfl, rfl, rfl, ?_⟩
      simp

theorem wp_close_idle (hptr : s.mConnectionPtr = 0) {Q : Post NativeState Throwable Unit}
    (hQ : Q.ok () s) : (NativeSQLiteConnection.close env).wp Q s := by
  simp only [NativeSQLiteConnection.close, wp_bind, wp_getState, hptr, ne_eq,
    not_true_eq_false, if_false]
  exact hQ

/-! ## Every public call -/

/-- The text and the arguments of the two calls that have them. -/
def NativeCall.text : NativeCall → Option (Option String × Option (List JavaObject))
  | .open _ | .close => none
  | .execute sql bindArgs | .executeForLastInsertedRowId sql bindArgs =>
      some (sql, bindArgs)

/-- What a public call may do to a state that satisfies `NativeInv`. -/
inductive CallOutcome (env : NativeEnv) (s : NativeState) :
    NativeCall → Exit Throwable (Option Int64) → NativeState → Prop
  | opens {path : String} {s' : NativeState} : Opens env path s s' →
      CallOutcome env s (.open path) (.ok none) s'
  | openFails {path : String} {e : Throwable} {s' : NativeState} :
      OpenFails env path s e s' → CallOutcome env s (.open path) (.throws e) s'
  | closeIdle : s.mConnectionPtr = 0 → CallOutcome env s .close (.ok none) s
  | closes {db : Nat} {s' : NativeState} : s.mConnectionPtr ≠ 0 → Attached s db →
      Closes env s db s' → CallOutcome env s .close (.ok none) s'
  | closeFails {db : Nat} {e : Throwable} {s' : NativeState} : s.mConnectionPtr ≠ 0 →
      Attached s db → CloseFails env s db e s' → CallOutcome env s .close (.throws e) s'
  | noText {call : NativeCall} {e : Throwable}
      {bindArgs : Option (List JavaObject)} : call.text = some (none, bindArgs) →
      CallOutcome env s call (.throws e) { s with log := s.log ++ [.raised e] }
  /-- on a closed connection: the null pointer is dereferenced -/
  | nullPointer {call : NativeCall} {sql : String} {bindArgs : Option (List JavaObject)} :
      call.text = some (some sql, bindArgs) → s.mConnectionPtr = 0 →
      CallOutcome env s call .dead
        { s with log := s.log ++ [.deref s.mConnectionPtr false] }
  | returned {call : NativeCall} {sql : String} {bindArgs : Option (List JavaObject)}
      {db : Nat} {rowid : Option Int64} {s' : NativeState} :
      call.text = some (some sql, bindArgs) → s.mConnectionPtr ≠ 0 → Attached s db →
      Ready s db [] s' → CallOutcome env s call (.ok rowid) s'
  | threw {call : NativeCall} {sql : String} {bindArgs : Option (List JavaObject)}
      {db : Nat} {e : Throwable} {s' : NativeState} :
      call.text = some (some sql, bindArgs) → s.mConnectionPtr ≠ 0 → Attached s db →
      Failed s db [] e s' → CallOutcome env s call (.throws e) s'
  | died {call : NativeCall} {sql : String} {bindArgs : Option (List JavaObject)}
      {db : Nat} {held : List Nat} {raised : List Throwable} {s' : NativeState} :
      call.text = some (some sql, bindArgs) → s.mConnectionPtr ≠ 0 → Attached s db →
      NullText bindArgs → InCall s db held raised s' → CallOutcome env s call .dead s'

variable {α : Type} {call : NativeCall}

/-- `execute` and `executeForLastInsertedRowId`, with the result of the public
call in `f`. -/
theorem wp_execute_cases (hinv : NativeInv s) {native : Nat → Nat → NativeProg α}
    {sql : Option String} {bindArgs : Option (List JavaObject)} {f : α → Option Int64}
    (htext : call.text = some (sql, bindArgs))
    (hnative : ∀ db st s', Attached s db → Ready s db (holding st) s' →
      (native s.mConnectionPtr st).wp (nativePost s db (holding st) False) s') :
    (executeWith env native sql bindArgs).wp
      { ok := fun a => CallOutcome env s call (.ok (f a))
        throws := fun e => CallOutcome env s call (.throws e)
        dead := CallOutcome env s call .dead } s := by
  cases sql with
  | none => exact .noText htext
  | some sql =>
      by_cases hptr : s.mConnectionPtr = 0
      · have hnone : s.wrappers.lookup s.mConnectionPtr = none := by
          rw [hptr]
          exact hinv.lookup_zero
        simp only [executeWith, acquirePreparedStatement, connectionPtr, wp_bind,
          wp_getState, wp_pure, wp_jni, nativePrepareStatement, connectionDb, hnone,
          wp_record', wp_die]
        exact .nullPointer htext hptr
      · obtain ⟨db, hatt⟩ := hinv.attached hptr
        refine wp_mono (wp_executeWith hatt hinv.pos hinv.stmts hinv.pending
          (fun st s' h => hnative db st s' hatt h)) ?_ ?_ ?_
        · intro a s' h
          exact .returned htext hptr hatt h
        · intro e s' h
          exact .threw htext hptr hatt h
        · intro s' h
          obtain ⟨hnull, held, raised, hcall⟩ := h
          exact .died htext hptr hatt hnull hcall

/-- The inversion lemma of the public calls. -/
theorem NativeInv.call_cases (hinv : NativeInv s) {exit : Exit Throwable (Option Int64)}
    (hrun : call.run env s = (exit, s')) : CallOutcome env s call exit s' := by
  refine exit_of_wp (R := CallOutcome env s call) ?_ hrun
  cases call with
  | «open» path =>
      simp only [NativeCall.run, wp_bind]
      exact wp_mono (wp_open hinv) (fun _ _ h => .opens h) (fun _ _ h => .openFails h)
        (fun _ h => h.elim)
  | close =>
      simp only [NativeCall.run, wp_bind]
      by_cases hptr : s.mConnectionPtr = 0
      · exact wp_close_idle hptr (.closeIdle hptr)
      · obtain ⟨db, hatt⟩ := hinv.attached hptr
        exact wp_mono (wp_close hinv hptr hatt) (fun _ _ h => .closes hptr hatt h)
          (fun _ _ h => .closeFails hptr hatt h) (fun _ h => h.elim)
  | execute sql bindArgs =>
      simp only [NativeCall.run, wp_bind]
      exact wp_execute_cases hinv rfl fun _ _ _ hatt h => wp_nativeExecute hatt h
  | executeForLastInsertedRowId sql bindArgs =>
      simp only [NativeCall.run, wp_bind]
      exact wp_execute_cases hinv rfl
        fun _ _ _ hatt h => wp_nativeExecuteForLastInsertedRowId hatt h

end

end OrmBenchmark.Ref
