import OrmBenchmark.Proofs.NativeOwnership

/-!
# Sequences of public calls

Two results about any sequence of calls on one object. Called in order, it
never holds a statement between calls, each statement it prepared was
finalized once and not used afterwards, the exception of a call is the only
one raised in it, and a close cannot fail. Called in any order and whatever the
library answers, it owns every handle it allocated as long as no `open` loses
one and nothing is executed on the null pointer, and no longer.
-/

namespace OrmBenchmark.Ref

open OrmBenchmark.Lib OrmBenchmark.Lib.Prog

section

variable {env : NativeEnv} {s s' : NativeState} {call : NativeCall}
  {exit : Exit Throwable (Option Int64)} {db : Nat}

/-! ## The invariant over one call -/

theorem NativeInv.inCall (hinv : NativeInv s) {raised : List Throwable}
    (hatt : Attached s db) (h : InCall s db [] raised s') (hpending : s'.pending = none) :
    NativeInv s' := by
  have hnext := h.next
  have hpos := hinv.pos
  refine ⟨by omega, ?_, ?_, ?_, hpending, fun _ => ⟨db, ?_, ?_⟩⟩
  · intro p x hx
    rw [h.wrappers] at hx
    have := hinv.wrapped p x hx
    omega
  · intro x hx
    have := hinv.fresh x ((h.handles x).1 hx)
    omega
  · exact AList.ext (by
      have hkeys := h.stmts
      rw [AList.keys, List.keys, List.map_eq_nil_iff] at hkeys
      exact hkeys)
  · rw [h.wrappers, h.ptr]
    exact hatt.wrapper
  · exact (h.handles db).2 hatt.handle

theorem NativeInv.opens {path : String} (hinv : NativeInv s) (h : Opens env path s s') :
    NativeInv s' := by
  have hpos := hinv.pos
  have hnext := h.next
  refine ⟨by omega, ?_, ?_, h.stmts.trans hinv.stmts, h.pending, fun _ => ⟨s.next, ?_, ?_⟩⟩
  · intro p x hx
    rw [h.wrappers] at hx
    by_cases hp : p = s.next + 1
    · subst hp
      rw [AList.lookup_insert] at hx
      injection hx with hx
      omega
    · rw [AList.lookup_insert_ne hp] at hx
      have := hinv.wrapped p x hx
      omega
  · intro x hx
    rcases (h.handles x).1 hx with rfl | hx
    · omega
    · have := hinv.fresh x hx
      omega
  · rw [h.wrappers, h.ptr, AList.lookup_insert]
  · exact (h.handles _).2 (Or.inl rfl)

theorem NativeInv.openFails {path : String} {e : Throwable} (hinv : NativeInv s)
    (h : OpenFails env path s e s') : NativeInv s' := by
  have hpos := hinv.pos
  have hnext := h.next
  refine ⟨by omega, ?_, h.fresh, h.stmts.trans hinv.stmts, h.pending, fun hptr => ?_⟩
  · intro p x hx
    rw [h.wrappers] at hx
    have := hinv.wrapped p x hx
    omega
  · rw [h.ptr] at hptr
    obtain ⟨db, hatt⟩ := hinv.attached hptr
    refine ⟨db, ?_, (h.handles db).2 (Or.inl hatt.handle)⟩
    rw [h.wrappers, h.ptr]
    exact hatt.wrapper

theorem NativeInv.closes (hinv : NativeInv s) (h : Closes env s db s') : NativeInv s' := by
  have hpos := hinv.pos
  have hnext := h.next
  refine ⟨by omega, ?_, ?_, h.stmts.trans hinv.stmts, h.pending, fun hptr => absurd h.ptr hptr⟩
  · intro p x hx
    rw [h.wrappers] at hx
    by_cases hp : p = s.mConnectionPtr
    · subst hp
      rw [AList.lookup_erase] at hx
      cases hx
    · rw [AList.lookup_erase_ne hp] at hx
      have := hinv.wrapped p x hx
      omega
  · intro x hx
    rw [h.handles, AList.mem_erase] at hx
    have := hinv.fresh x hx.2
    omega

theorem NativeInv.closeFails {e : Throwable} (hinv : NativeInv s)
    (h : CloseFails env s db e s') : NativeInv s' := by
  refine ⟨?_, ?_, ?_, h.stmts.trans hinv.stmts, h.pending, fun hptr => ?_⟩
  · rw [h.next]
    exact hinv.pos
  · rw [h.wrappers, h.next]
    exact hinv.wrapped
  · rw [h.handles, h.next]
    exact hinv.fresh
  · rw [h.ptr] at hptr
    obtain ⟨db, hatt⟩ := hinv.attached hptr
    refine ⟨db, ?_, ?_⟩
    · rw [h.wrappers, h.ptr]
      exact hatt.wrapper
    · rw [h.handles]
      exact hatt.handle

/-- Every call that does not end the process keeps the invariant. -/
theorem NativeInv.of_outcome (hinv : NativeInv s) (h : CallOutcome env s call exit s')
    (halive : exit ≠ .dead) : NativeInv s' := by
  cases h with
  | opens h => exact hinv.opens h
  | openFails h => exact hinv.openFails h
  | closeIdle _ => exact hinv
  | closes _ _ h => exact hinv.closes h
  | closeFails _ _ h => exact hinv.closeFails h
  | noText _ =>
      refine ⟨hinv.pos, hinv.wrapped, hinv.fresh, hinv.stmts, hinv.pending, fun hptr => ?_⟩
      obtain ⟨db, hatt⟩ := hinv.attached hptr
      exact ⟨db, hatt.wrapper, hatt.handle⟩
  | nullPointer _ _ => exact absurd rfl halive
  | returned _ _ hatt h => exact hinv.inCall hatt h.inCall h.pending
  | threw _ _ hatt h => exact hinv.inCall hatt h.inCall h.pending
  | died _ _ _ _ _ => exact absurd rfl halive

/-! ## What a call adds to the log -/

/-- The exceptions a call has to have raised, to end the way it did. -/
def Exit.raised : Exit Throwable (Option Int64) → List Throwable
  | .throws e => [e]
  | .ok _ | .dead => []

theorem CallOutcome.logAdds (h : CallOutcome env s call exit s') (halive : exit ≠ .dead) :
    LogAdds s.log s'.log (Exit.raised exit) := by
  cases h with
  | opens h => exact h.log
  | openFails h => exact h.log
  | closeIdle _ => exact LogAdds.refl s.log
  | closes _ _ h =>
      rw [h.log]
      exact ⟨_, rfl, by simp [NativeEvent.Sound], rfl⟩
  | closeFails _ _ h =>
      rw [h.log]
      exact ⟨_, rfl, by simp [NativeEvent.Sound], rfl⟩
  | noText _ => exact ⟨_, rfl, by simp [NativeEvent.Sound], rfl⟩
  | nullPointer _ _ => exact absurd rfl halive
  | returned _ _ _ h => exact h.inCall.log
  | threw _ _ _ h => exact h.inCall.log
  | died _ _ _ _ _ => exact absurd rfl halive

/-! ## Runs -/

theorem NativeSystem.next_cases {p q : NativeSystem}
    (h : NativeSystem.next env p call = some q) :
    p.alive = true ∧ ∃ exit, call.run env p.state = (exit, q.state) ∧
      (q.alive = true ↔ exit ≠ .dead) := by
  unfold NativeSystem.next at h
  split at h
  · next halive =>
      refine ⟨halive, ?_⟩
      cases hrun : call.run env p.state with
      | mk exit state =>
          rw [hrun] at h
          cases exit with
          | ok a =>
              injection h with h
              subst h
              exact ⟨.ok a, rfl, by simp⟩
          | throws e =>
              injection h with h
              subst h
              exact ⟨.throws e, rfl, by simp⟩
          | dead =>
              injection h with h
              subst h
              exact ⟨.dead, rfl, by simp⟩
  · cases h

/-- Executed only while open, opened only while not. -/
def InOrder (p : NativeSystem) : NativeCall → Prop
  | .open _ => p.state.mConnectionPtr = 0
  | .close => True
  | .execute _ _ | .executeForLastInsertedRowId _ _ => p.state.mConnectionPtr ≠ 0

theorem InOrder.ptr {p : NativeSystem} {sql : Option String}
    {bindArgs : Option (List JavaObject)} (h : InOrder p call)
    (htext : call.text = some (sql, bindArgs)) : p.state.mConnectionPtr ≠ 0 := by
  cases call with
  | «open» path => cases htext
  | close => cases htext
  | execute sql bindArgs => exact h
  | executeForLastInsertedRowId sql bindArgs => exact h

/-- Between public calls: nothing is left unfinalized, what was prepared was
finalized once and for all, and nothing was reset for a second use. -/
structure Released (s : NativeState) : Prop where
  stmts : s.stmts = ∅
  finalized : ∀ st, aboutStatement st s.log = [] ∨ Finalized st (aboutStatement st s.log)
  notReset : ∀ st, .used st .reset ∉ s.log

/-- The invariant of runs in order. -/
structure OrderInv (p : NativeSystem) : Prop where
  native : p.alive = true → NativeInv p.state
  sound : p.alive = true → ∀ event ∈ p.state.log, event.Sound
  stmt : StmtInv p.state

theorem OrderInv.next {p q : NativeSystem} (hinv : OrderInv p)
    (h : NativeSystem.next env p call = some q) : OrderInv q := by
  obtain ⟨halive, exit, hrun, hiff⟩ := NativeSystem.next_cases h
  have hcase := (hinv.native halive).call_cases hrun
  refine ⟨fun hq => ?_, fun hq => ?_, ?_⟩
  · exact (hinv.native halive).of_outcome hcase (hiff.1 hq)
  · obtain ⟨events, hlog, hsound, _⟩ := hcase.logAdds (hiff.1 hq)
    intro event hevent
    rw [hlog] at hevent
    rcases List.mem_append.1 hevent with hevent | hevent
    · exact hinv.sound halive event hevent
    · exact hsound event hevent
  · exact (stmtInv_run call).of_run hinv.stmt hrun

theorem OrderInv.of_run {h : History NativeSystem NativeCall} {p : NativeSystem}
    (hrun : (NativeSystem.lts env).Run h p) : OrderInv p := by
  refine Lts.Reachable.invariant (I := OrderInv) ?_ ?_ ⟨h, hrun⟩
  · intro p hp
    cases hp
    exact ⟨fun _ => NativeInv.start, fun _ event hevent => absurd hevent List.not_mem_nil,
      StmtInv.start⟩
  · intro p call q hinv hstep
    exact hinv.next hstep

theorem OrderInv.released {p : NativeSystem} (hinv : OrderInv p) (halive : p.alive = true) :
    Released p.state := by
  have hstmts := (hinv.native halive).stmts
  refine ⟨hstmts, fun st => hinv.stmt.gone st ?_, fun st hst => hinv.sound halive _ hst⟩
  rw [hstmts]
  exact AList.notMem_empty st

/-- A library that answers the open like this and everything else with
success, to statements of one parameter. -/
def Sqlite.answering (answer : OpenAnswer) : Sqlite where
  open_v2 _ _ _ := answer
  db_readonly _ := false
  busy_timeout _ := SQLITE_OK
  close _ unfinalized := if unfinalized = 0 then SQLITE_OK else SQLITE_BUSY
  close_busy _ _ h := if_neg h
  prepare16_v2 _ _ := .prepared 1 false
  bind _ := SQLITE_OK
  step _ := ⟨SQLITE_DONE, ⟨some 1, some 1⟩⟩
  reset _ := SQLITE_OK
  clear_bindings _ := SQLITE_OK
  extended_errcode _ := SQLITE_OK
  errmsg _ := ""

def NativeEnv.answering (answer : OpenAnswer) : NativeEnv where
  lib := Sqlite.answering answer
  parameterCountFails _ := none
  isReadOnlyFails _ := none
  getSqlStatementType _ _ := .ok 2

/-- Between two calls of a run every statement that was prepared is gone. The
next call, if it is in order, ends the process only in the binding of a null
string; it throws exactly what was raised in it; and a close of an open
connection is answered `SQLITE_OK` and clears the field. That the earlier calls
were in order is not needed: one that was not would have ended the process, or
is an `open` over an open connection. -/
theorem statements_finalized {h : History NativeSystem NativeCall} {p : NativeSystem}
    (hclose : ∀ call, env.lib.close call 0 = SQLITE_OK)
    (hrun : (NativeSystem.lts env).Run h p) (halive : p.alive = true) :
    Released p.state ∧
      ∀ call exit s', InOrder p call → NativeCall.run env call p.state = (exit, s') →
        (exit = .dead → ∃ sql bindArgs,
          call.text = some (some sql, bindArgs) ∧ NullText bindArgs) ∧
        (exit ≠ .dead → LogAdds p.state.log s'.log (Exit.raised exit)) ∧
        (call = .close → p.state.mConnectionPtr ≠ 0 →
          exit = .ok none ∧ s'.mConnectionPtr = 0 ∧
            ∃ db, s'.log = p.state.log ++
              [.deref p.state.mConnectionPtr true, .closed db SQLITE_OK]) := by
  have hinv := OrderInv.of_run hrun
  refine ⟨hinv.released halive, fun call exit s' hcall hs' => ?_⟩
  have hcase := (hinv.native halive).call_cases hs'
  refine ⟨fun hdead => ?_, hcase.logAdds, fun hcall hptr => ?_⟩
  · subst hdead
    cases hcase with
    | nullPointer htext hzero => exact absurd hzero (hcall.ptr htext)
    | died htext _ _ hnull _ => exact ⟨_, _, htext, hnull⟩
  · subst hcall
    cases hcase with
    | closeIdle hzero => exact absurd hzero hptr
    | closes _ _ h => exact ⟨rfl, h.ptr, _, h.log⟩
    | closeFails _ _ h => exact absurd (hclose _) h.err
    | noText htext => cases htext
    | nullPointer htext _ => cases htext
    | returned htext _ _ _ => cases htext
    | threw htext _ _ _ => cases htext
    | died htext _ _ _ _ => cases htext

/-- A row is inserted, and the text of the last call does not match its
arguments. -/
theorem statements_finalized_openInsertMismatch :
    ∃ env h p st, (NativeSystem.lts env).Run h p ∧ p.alive = true ∧
      .finalized st ∈ p.state.log ∧ Released p.state := by
  obtain ⟨h, p, hrun, htest⟩ := Lts.exists_run_of_replay ⟨NativeState.start, true⟩
    (NativeSystem.next (NativeEnv.answering .ok))
    [.open "native.db", .execute (some "INSERT INTO t VALUES (?)") (some [.long 7]),
      .execute (some "INSERT INTO t VALUES (?)") none]
    (fun _ p => p.alive && p.state.log.any fun
      | .finalized _ => true
      | _ => false) (by decide +kernel)
  rw [Bool.and_eq_true, List.any_eq_true] at htest
  obtain ⟨halive, event, hmem, hevent⟩ := htest
  cases event with
  | finalized st =>
      exact ⟨_, h, p, st, hrun, halive, hmem,
        (statements_finalized (fun _ => rfl) hrun halive).1⟩
  | deref _ _ | opened _ | closed _ _ | prepared _ | used _ _ | raised _ => cases hevent

/-! ## Ownership of the handles -/

/-- Every handle that lives is the one the field's wrapper wraps, and every
connection argument that was dereferenced was the address of a wrapper. -/
structure Owned (s : NativeState) : Prop where
  handles : ∀ db, db ∈ s.handles → s.wrappers.lookup s.mConnectionPtr = some db
  derefs : ∀ ptr, .deref ptr false ∉ s.log

/-- The calls that keep the ownership: an `open` that loses no handle, and no
execution on a closed connection. -/
def KeepsOwnership (env : NativeEnv) (s : NativeState) : NativeCall → Prop
  | .open path => OpenKeeps env path s
  | .close => True
  | .execute sql _ | .executeForLastInsertedRowId sql _ =>
      sql ≠ none → s.mConnectionPtr ≠ 0

theorem keepsOwnership_text {sql : Option String} {bindArgs : Option (List JavaObject)}
    (htext : call.text = some (sql, bindArgs)) :
    KeepsOwnership env s call ↔ (sql ≠ none → s.mConnectionPtr ≠ 0) := by
  cases call with
  | «open» path => cases htext
  | close => cases htext
  | execute sql' bindArgs' =>
      injection htext with htext
      injection htext with hsql hargs
      subst hsql
      exact Iff.rfl
  | executeForLastInsertedRowId sql' bindArgs' =>
      injection htext with htext
      injection htext with hsql hargs
      subst hsql
      exact Iff.rfl

/-- At most one handle lives, and none while the field is 0. -/
theorem Owned.unique (h : Owned s) {db' : Nat} (hdb : db ∈ s.handles) (hdb' : db' ∈ s.handles) :
    db = db' := by
  have heq := h.handles db hdb
  rw [h.handles db' hdb'] at heq
  exact (Option.some.inj heq).symm

theorem Owned.no_handle (h : Owned s) (hinv : NativeInv s) (hptr : s.mConnectionPtr = 0) :
    db ∉ s.handles := by
  intro hdb
  have hlookup := h.handles db hdb
  rw [hptr, hinv.lookup_zero] at hlookup
  cases hlookup

theorem derefs_of_logAdds {raised : List Throwable}
    (hbefore : ∀ ptr, .deref ptr false ∉ s.log) (h : LogAdds s.log s'.log raised) :
    ∀ ptr, .deref ptr false ∉ s'.log := by
  obtain ⟨events, hlog, hsound, _⟩ := h
  intro ptr hmem
  rw [hlog] at hmem
  rcases List.mem_append.1 hmem with hmem | hmem
  · exact hbefore ptr hmem
  · exact absurd (hsound _ hmem) Bool.false_ne_true

theorem Owned.inCall {held : List Nat} {raised : List Throwable} (howned : Owned s)
    (h : InCall s db held raised s') : Owned s' := by
  refine ⟨fun x hx => ?_, derefs_of_logAdds howned.derefs h.log⟩
  rw [h.wrappers, h.ptr]
  exact howned.handles x ((h.handles x).1 hx)

/-- After an `open` that returned: nothing was open before. -/
theorem Owned.opens_iff {path : String} (hinv : NativeInv s) (howned : Owned s)
    (h : Opens env path s s') : Owned s' ↔ OpenKeeps env path s := by
  have hlookup : s'.wrappers.lookup s'.mConnectionPtr = some s.next := by
    rw [h.wrappers, h.ptr, AList.lookup_insert]
  rw [h.keeps]
  constructor
  · intro howned'
    by_contra hptr
    obtain ⟨db, hatt⟩ := hinv.attached hptr
    have heq := howned'.handles db ((h.handles db).2 (Or.inr hatt.handle))
    rw [hlookup] at heq
    injection heq with heq
    have := hinv.fresh db hatt.handle
    omega
  · intro hptr
    refine ⟨fun db hdb => ?_, derefs_of_logAdds howned.derefs h.log⟩
    rcases (h.handles db).1 hdb with rfl | hdb
    · exact hlookup
    · exact absurd hdb (howned.no_handle hinv hptr)

/-- After an `open` that threw: its handle is not there. -/
theorem Owned.openFails_iff {path : String} {e : Throwable} (hinv : NativeInv s)
    (howned : Owned s) (h : OpenFails env path s e s') : Owned s' ↔ OpenKeeps env path s := by
  constructor
  · intro howned'
    by_contra hkeeps
    have hlookup := howned'.handles s.next ((h.handles s.next).2 (Or.inr ⟨rfl, hkeeps⟩))
    rw [h.wrappers, h.ptr] at hlookup
    have := (hinv.wrapped _ _ hlookup).2
    omega
  · intro hkeeps
    refine ⟨fun db hdb => ?_, derefs_of_logAdds howned.derefs h.log⟩
    rw [h.wrappers, h.ptr]
    exact howned.handles db (((h.handles db).1 hdb).resolve_right fun hx => hx.2 hkeeps)

theorem Owned.closes (howned : Owned s) (hatt : Attached s db) (h : Closes env s db s')
    (hlog : LogAdds s.log s'.log []) : Owned s' := by
  refine ⟨fun x hx => ?_, derefs_of_logAdds howned.derefs hlog⟩
  rw [h.handles, AList.mem_erase] at hx
  exact absurd (howned.unique hx.2 hatt.handle) hx.1

/-- One call. -/
theorem Owned.call_iff (hinv : NativeInv s) (howned : Owned s)
    (h : CallOutcome env s call exit s') : Owned s' ↔ KeepsOwnership env s call := by
  cases h with
  | opens h => exact howned.opens_iff hinv h
  | openFails h => exact howned.openFails_iff hinv h
  | closeIdle _ => exact iff_of_true howned True.intro
  | closes hptr hatt h =>
      have hlog := (CallOutcome.closes hptr hatt h).logAdds (by simp)
      exact iff_of_true (howned.closes hatt h hlog) True.intro
  | closeFails hptr hatt h =>
      have hlog := (CallOutcome.closeFails hptr hatt h).logAdds (by simp)
      refine iff_of_true ⟨fun x hx => ?_, derefs_of_logAdds howned.derefs hlog⟩ True.intro
      rw [h.handles] at hx
      rw [h.wrappers, h.ptr]
      exact howned.handles x hx
  | noText htext =>
      rw [keepsOwnership_text htext]
      refine iff_of_true ⟨howned.handles, fun ptr hmem => ?_⟩ fun h => absurd rfl h
      rcases List.mem_append.1 hmem with hmem | hmem
      · exact howned.derefs ptr hmem
      · simp at hmem
  | nullPointer htext hzero =>
      rw [keepsOwnership_text htext]
      refine iff_of_false (fun h => h.derefs s.mConnectionPtr ?_) fun h => ?_
      · exact List.mem_append_right _ (List.mem_singleton.2 rfl)
      · exact h (by simp) hzero
  | returned htext hptr _ h =>
      rw [keepsOwnership_text htext]
      exact iff_of_true (howned.inCall h.inCall) fun _ => hptr
  | threw htext hptr _ h =>
      rw [keepsOwnership_text htext]
      exact iff_of_true (howned.inCall h.inCall) fun _ => hptr
  | died htext hptr _ _ h =>
      rw [keepsOwnership_text htext]
      exact iff_of_true (howned.inCall h) fun _ => hptr

theorem Owned.start : Owned NativeState.start where
  handles db h := absurd h (AList.notMem_empty db)
  derefs _ := List.not_mem_nil

/-- A sequence of calls, in any order, keeps the ownership throughout exactly
when each call of it does. -/
theorem owned_iff_keepsOwnership {h : History NativeSystem NativeCall} {p : NativeSystem}
    (hrun : (NativeSystem.lts env).Run h p) :
    Lts.Always (fun q => Owned q.state) h p ↔
      h.Obeys fun q call => KeepsOwnership env q.state call := by
  refine hrun.always_iff (I := fun q => q.alive = true → NativeInv q.state) ?_ ?_
  · intro q hq
    cases hq
    exact ⟨fun _ => NativeInv.start, Owned.start⟩
  · intro q call r hinv howned hstep
    obtain ⟨halive, exit, hcall, hiff⟩ := NativeSystem.next_cases hstep
    have hcase := (hinv halive).call_cases hcall
    exact ⟨Owned.call_iff (hinv halive) howned hcase,
      fun _ hr => (hinv halive).of_outcome hcase (hiff.1 hr)⟩

/-- With the library of the examples: only an `open` over an open connection or
one that leaves a handle loses it. -/
def keepsOwnershipTest (answer : OpenAnswer) (q : NativeSystem × NativeCall) : Bool :=
  match q.2, answer with
  | .open _, .failed _ allocated => !allocated
  | .open _, .ok => q.1.state.mConnectionPtr == 0
  | .close, _ => true
  | .execute sql _, _ | .executeForLastInsertedRowId sql _, _ =>
      sql.isNone || q.1.state.mConnectionPtr != 0

theorem keepsOwnership_of_test {answer : OpenAnswer} {q : NativeSystem × NativeCall}
    (h : keepsOwnershipTest answer q = true) :
    KeepsOwnership (NativeEnv.answering answer) q.1.state q.2 := by
  obtain ⟨q, call⟩ := q
  cases call with
  | «open» path =>
      cases answer with
      | ok => simpa [KeepsOwnership, OpenKeeps, NativeEnv.answering, Sqlite.answering,
          keepsOwnershipTest] using h
      | failed err allocated => simpa [KeepsOwnership, OpenKeeps, NativeEnv.answering,
          Sqlite.answering, keepsOwnershipTest] using h
  | close => exact True.intro
  | execute sql bindArgs =>
      cases sql with
      | none => exact fun h => absurd rfl h
      | some sql => exact fun _ => by simpa [keepsOwnershipTest] using h
  | executeForLastInsertedRowId sql bindArgs =>
      cases sql with
      | none => exact fun h => absurd rfl h
      | some sql => exact fun _ => by simpa [keepsOwnershipTest] using h

/-- Two connections one after the other, with a missing text in between. -/
theorem owned_iff_keepsOwnership_twoConnections :
    ∃ env h p, (NativeSystem.lts env).Run h p ∧ h.length = 5 ∧
      Lts.Always (fun q => Owned q.state) h p := by
  obtain ⟨h, p, hrun, htest⟩ := Lts.exists_run_of_replay ⟨NativeState.start, true⟩
    (NativeSystem.next (NativeEnv.answering .ok))
    [.open "native.db", .close, .execute none none, .open "native.db",
      .executeForLastInsertedRowId (some "INSERT INTO t VALUES (?)") (some [.null])]
    (fun h _ => decide (h.length = 5) && h.all (keepsOwnershipTest .ok)) (by decide +kernel)
  rw [Bool.and_eq_true, decide_eq_true_iff, List.all_eq_true] at htest
  refine ⟨_, h, p, hrun, htest.1, (owned_iff_keepsOwnership hrun).2 fun q hq => ?_⟩
  exact keepsOwnership_of_test (htest.2 q hq)

/-- The open fails and leaves a handle, which nothing refers to any more. -/
theorem owned_broken_by_failedOpen :
    ¬ ∀ env h p, (NativeSystem.lts env).Run h p →
      Lts.Always (fun q => Owned q.state) h p := by
  intro hclaim
  obtain ⟨h, p, hrun, htest⟩ := Lts.exists_run_of_replay ⟨NativeState.start, true⟩
    (NativeSystem.next (NativeEnv.answering (.failed ⟨SQLITE_CANTOPEN, by decide⟩ true)))
    [.open "missing/native.db"]
    (fun _ p => p.alive && decide (1 ∈ p.state.handles.keys ∧ p.state.mConnectionPtr = 0))
    (by decide +kernel)
  rw [Bool.and_eq_true, decide_eq_true_iff] at htest
  obtain ⟨halive, hmem, hptr⟩ := htest
  exact (hclaim _ h p hrun).2.no_handle ((OrderInv.of_run hrun).native halive) hptr
    (AList.mem_keys.2 hmem)

end

end OrmBenchmark.Ref
