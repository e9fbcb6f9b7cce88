import OrmBenchmark.Proofs.NativeStatements

/-!
# One call on an open connection

What a public call that uses an open connection does, told relative to the
state it began in. While it runs it leaves the field, the wrappers and the set
of handles alone, every dereference of the connection finds it, and it holds
the statements in `held`, at most the one it has prepared. What it has raised
so far is in the log; between two native calls nothing is pending.
-/

namespace OrmBenchmark.Ref

open OrmBenchmark.Lib OrmBenchmark.Lib.Prog

/-- A dereference found its wrapper, and no statement was reset. -/
def NativeEvent.Sound : NativeEvent → Prop
  | .deref _ live => live = true
  | .used _ .reset => False
  | _ => True

def raisedOf (events : List NativeEvent) : List Throwable :=
  events.filterMap fun
    | .raised e => some e
    | _ => none

/-- The field holds a wrapper of this handle, which lives. -/
structure Attached (s : NativeState) (db : Nat) : Prop where
  wrapper : s.wrappers.lookup s.mConnectionPtr = some db
  handle : db ∈ s.handles

/-- What a call added to the log. -/
def LogAdds (before after : List NativeEvent) (raised : List Throwable) : Prop :=
  ∃ events, after = before ++ events ∧ (∀ event ∈ events, event.Sound) ∧
    raisedOf events = raised

structure InCall (s₀ : NativeState) (db : Nat) (held : List Nat)
    (raised : List Throwable) (s : NativeState) : Prop where
  ptr : s.mConnectionPtr = s₀.mConnectionPtr
  wrappers : s.wrappers = s₀.wrappers
  handles : ∀ x, x ∈ s.handles ↔ x ∈ s₀.handles
  stmts : s.stmts.keys = held
  owner : ∀ st stmt, s.stmts.lookup st = some stmt → stmt.db = db
  next : s₀.next ≤ s.next
  log : LogAdds s₀.log s.log raised

/-- The statements held when the prepare returned this pointer. -/
def holding (statementPtr : Nat) : List Nat :=
  if statementPtr = 0 then [] else [statementPtr]

section

variable {s₀ s s' : NativeState} {db : Nat} {held : List Nat} {raised : List Throwable}

theorem LogAdds.refl (log : List NativeEvent) : LogAdds log log [] :=
  ⟨[], by rw [List.append_nil], by simp, rfl⟩

theorem LogAdds.snoc {before after : List NativeEvent} (h : LogAdds before after raised)
    {event : NativeEvent} (hsound : event.Sound) :
    LogAdds before (after ++ [event]) (raised ++ raisedOf [event]) := by
  obtain ⟨events, rfl, hall, rfl⟩ := h
  refine ⟨events ++ [event], List.append_assoc _ _ _, ?_, ?_⟩
  · intro x hx
    rcases List.mem_append.1 hx with hx | hx
    · exact hall x hx
    · rw [List.mem_singleton.1 hx]
      exact hsound
  · exact List.filterMap_append

theorem InCall.start (hstmts : s.stmts = ∅) : InCall s db [] [] s where
  ptr := rfl
  wrappers := rfl
  handles _ := Iff.rfl
  stmts := by rw [hstmts]; rfl
  owner st stmt h := by rw [hstmts] at h; simp at h
  next := Nat.le_refl _
  log := LogAdds.refl s.log

/-- A step that changes neither the objects nor the log. -/
theorem InCall.silent (h : InCall s₀ db held raised s)
    (hptr : s'.mConnectionPtr = s.mConnectionPtr) (hwrappers : s'.wrappers = s.wrappers)
    (hhandles : s'.handles = s.handles) (hstmts : s'.stmts = s.stmts)
    (hnext : s'.next = s.next) (hlog : s'.log = s.log) :
    InCall s₀ db held raised s' where
  ptr := hptr.trans h.ptr
  wrappers := hwrappers.trans h.wrappers
  handles x := by rw [hhandles]; exact h.handles x
  stmts := by rw [hstmts]; exact h.stmts
  owner := by rw [hstmts]; exact h.owner
  next := by rw [hnext]; exact h.next
  log := by rw [hlog]; exact h.log

/-- A step that adds one event to the log. -/
theorem InCall.event (h : InCall s₀ db held raised s) (event : NativeEvent)
    (hsound : event.Sound) :
    InCall s₀ db held (raised ++ raisedOf [event]) { s with log := s.log ++ [event] } where
  ptr := h.ptr
  wrappers := h.wrappers
  handles := h.handles
  stmts := h.stmts
  owner := h.owner
  next := h.next
  log := h.log.snoc hsound

/-- The common case of it: nothing is raised. -/
theorem InCall.quietEvent (h : InCall s₀ db held raised s) (event : NativeEvent)
    (hsound : event.Sound) (hquiet : raisedOf [event] = []) :
    InCall s₀ db held raised { s with log := s.log ++ [event] } := by
  have hevent := h.event event hsound
  rw [hquiet, List.append_nil] at hevent
  exact hevent

theorem InCall.nextCall (h : InCall s₀ db held raised s) (n : Nat) :
    InCall s₀ db held raised { s with calls := n } :=
  h.silent rfl rfl rfl rfl rfl rfl

theorem InCall.pending (h : InCall s₀ db held raised s) (pending : Option Throwable) :
    InCall s₀ db held raised { s with pending := pending } :=
  h.silent rfl rfl rfl rfl rfl rfl

/-- An exception is raised and left pending. -/
theorem InCall.raise (h : InCall s₀ db held [] s) (e : Throwable) :
    InCall s₀ db held [e] { s with pending := some e, log := s.log ++ [.raised e] } :=
  (h.pending (some e)).event (.raised e) True.intro

/-- A held statement is changed under its own key. -/
theorem InCall.rebind (h : InCall s₀ db held raised s) {st : Nat} {stmt : Stmt}
    (hheld : held = [st]) (hdb : stmt.db = db) :
    InCall s₀ db held raised { s with stmts := s.stmts.insert st stmt } where
  ptr := h.ptr
  wrappers := h.wrappers
  handles := h.handles
  stmts := by
    rw [AList.keys_insert, h.stmts, hheld]
    simp
  owner x y hxy := by
    by_cases hx : x = st
    · subst hx
      rw [AList.lookup_insert] at hxy
      cases hxy
      exact hdb
    · rw [AList.lookup_insert_ne hx] at hxy
      exact h.owner x y hxy
  next := h.next
  log := h.log

/-! ## The library's calls -/

variable {α : Type} {Q : Post NativeState Throwable α} {lib : Sqlite}

theorem wp_connectionDb {Q : Post NativeState Throwable Nat} (hatt : Attached s₀ db)
    (h : InCall s₀ db held raised s)
    (hQ : ∀ s', InCall s₀ db held raised s' → s'.pending = s.pending → Q.ok db s') :
    (connectionDb s₀.mConnectionPtr).wp Q s := by
  have hlookup : s.wrappers.lookup s₀.mConnectionPtr = some db := by
    rw [h.wrappers, hatt.wrapper]
  exact wp_liveConnection hlookup (hQ _ (h.quietEvent _ rfl rfl) rfl)

theorem wp_onHandle {f : Counters → NativeProg α} (hatt : Attached s₀ db)
    (h : InCall s₀ db held raised s) (hf : ∀ counters, (f counters).wp Q s) :
    (withHandle db f).wp Q s :=
  wp_liveHandle ((h.handles db).2 hatt.handle) hf

theorem wp_throw {Q : Post NativeState Throwable Unit} {message : Option String}
    (hatt : Attached s₀ db) (h : InCall s₀ db held [] s)
    (hQ : ∀ e s', e.kind = .runtimeException → InCall s₀ db held [e] s' →
      s'.pending = some e → Q.ok () s') :
    (throw_sqlite3_exception lib db message).wp Q s :=
  wp_throw_sqlite3_exception ((h.handles db).2 hatt.handle) fun e hkind =>
    hQ e _ hkind ((h.nextCall (s.calls + 1)).raise e) rfl

theorem InCall.stepThrows {e : Throwable} (h : InCall s₀ db held [] s)
    (hthrows : StepThrows s₀.mConnectionPtr e s s') :
    InCall s₀ db held [e] s' ∧ s'.pending = some e := by
  cases hthrows with
  | row => exact ⟨h.raise e, rfl⟩
  | error =>
      have hderef := h.quietEvent (.deref s₀.mConnectionPtr true) rfl rfl
      exact ⟨(hderef.nextCall (s.calls + 1)).raise e, rfl⟩

/-- A call on the held statement, or on a null one. -/
theorem wp_onStmt {st : Nat} {onNull : α} {f : Stmt → NativeProg α}
    (h : InCall s₀ db (holding st) raised s) (hnull : st = 0 → Q.ok onNull s)
    (hlive : ∀ stmt, holding st = [st] → stmt.db = db → (f stmt).wp Q s) :
    (withStmt st onNull f).wp Q s := by
  refine wp_withStmt hnull (fun stmt hne hlookup => ?_) (fun hne hnone => ?_)
  · exact hlive stmt (if_neg hne) (h.owner st stmt hlookup)
  · have hmem : st ∈ s.stmts := by
      rw [AList.mem_keys, h.stmts, holding, if_neg hne]
      exact List.mem_singleton.2 rfl
    rw [← AList.lookup_isSome, hnone] at hmem
    cases hmem

theorem wp_bind_parameter_count {Q : Post NativeState Throwable Nat} {st : Nat}
    (h : InCall s₀ db (holding st) raised s)
    (hQ : ∀ n s', InCall s₀ db (holding st) raised s' → s'.pending = s.pending →
      Q.ok n s') : (sqlite3_bind_parameter_count st).wp Q s := by
  refine wp_onStmt h (fun _ => hQ _ _ h rfl) fun stmt _ _ => ?_
  exact hQ _ _ (h.quietEvent _ True.intro rfl) rfl

theorem wp_stmt_readonly {Q : Post NativeState Throwable Bool} {st : Nat}
    (h : InCall s₀ db (holding st) raised s)
    (hQ : ∀ b s', InCall s₀ db (holding st) raised s' → s'.pending = s.pending →
      Q.ok b s') : (sqlite3_stmt_readonly st).wp Q s := by
  refine wp_onStmt h (fun _ => hQ _ _ h rfl) fun stmt _ _ => ?_
  exact hQ _ _ (h.quietEvent _ True.intro rfl) rfl

theorem wp_sqlite3_bind {Q : Post NativeState Throwable Nat} {st index : Nat}
    {image : BindImage} (h : InCall s₀ db (holding st) raised s)
    (hQ : ∀ err s', InCall s₀ db (holding st) raised s' → s'.pending = s.pending →
      Q.ok err s') : (sqlite3_bind lib st index image).wp Q s := by
  refine wp_onStmt h (fun _ => hQ _ _ h rfl) fun stmt hst hdb => ?_
  simp only [wp_bind, wp_nextCall, wp_record']
  have hused := (h.nextCall (s.calls + 1)).quietEvent
    (.used st (.bind index image (lib.bind s.calls))) True.intro rfl
  by_cases herr : lib.bind s.calls = SQLITE_OK
  · rw [if_pos herr]
    exact hQ _ _ (hused.rebind hst hdb) rfl
  · rw [if_neg herr]
    exact hQ _ _ hused rfl

theorem wp_sqlite3_step {Q : Post NativeState Throwable Nat} {st : Nat}
    (hatt : Attached s₀ db) (h : InCall s₀ db (holding st) raised s)
    (hQ : ∀ err s', InCall s₀ db (holding st) raised s' → s'.pending = s.pending →
      Q.ok err s') : (sqlite3_step lib st).wp Q s := by
  refine wp_onStmt h (fun _ => hQ _ _ h rfl) fun stmt hst hdb => ?_
  simp only [wp_bind, wp_nextCall]
  subst hdb
  refine wp_onHandle hatt (h.nextCall _) fun counters => ?_
  simp only [wp_bind, wp_record', wp_modifyState, wp_pure]
  have hused := (h.nextCall (s.calls + 1)).quietEvent
    (.used st (.step stmt.bound (lib.step s.calls))) True.intro rfl
  refine hQ _ _ ?_ rfl
  refine ⟨hused.ptr, hused.wrappers, fun x => ?_, hused.stmts, hused.owner, hused.next,
    hused.log⟩
  rw [AList.mem_insert, ← h.handles x]
  refine ⟨fun hx => hx.elim (fun heq => ?_) id, Or.inr⟩
  rw [heq]
  exact (h.handles _).2 hatt.handle

theorem wp_prepare {Q : Post NativeState Throwable (Nat × Nat)} {sql : String}
    (hatt : Attached s₀ db) (hpos : 0 < s₀.next) (h : InCall s₀ db [] raised s)
    (hQ : ∀ err st s', (err ≠ SQLITE_OK → st = 0) → s'.pending = s.pending →
      InCall s₀ db (holding st) raised s' → Q.ok (err, st) s') :
    (sqlite3_prepare16_v2 lib db sql).wp Q s := by
  refine wp_onHandle hatt h fun _ => ?_
  simp only [wp_bind, wp_nextCall]
  split
  · exact hQ _ 0 _ (fun _ => rfl) rfl (h.nextCall _)
  · exact hQ _ 0 _ (fun _ => rfl) rfl (h.nextCall _)
  · next parameters readOnly _ =>
      simp only [wp_bind, wp_allocate, wp_modifyState, wp_record', wp_pure]
      have hne : s.next ≠ 0 := by
        have := h.next
        omega
      have hnew : InCall s₀ db (holding s.next) raised
          { s with
            calls := s.calls + 1
            next := s.next + 1
            stmts := s.stmts.insert s.next ⟨db, parameters, readOnly, []⟩ } := by
        refine ⟨h.ptr, h.wrappers, h.handles, ?_, ?_, Nat.le_succ_of_le h.next, h.log⟩
        · rw [AList.keys_insert, h.stmts, holding, if_neg hne]
          rfl
        · intro x y hxy
          by_cases hx : x = s.next
          · subst hx
            rw [AList.lookup_insert] at hxy
            cases hxy
            rfl
          · rw [AList.lookup_insert_ne hx] at hxy
            exact h.owner x y hxy
      exact hQ _ _ _ (fun hok => absurd rfl hok) rfl
        (hnew.quietEvent (.prepared s.next) True.intro rfl)

theorem wp_finalize {Q : Post NativeState Throwable Unit} {st : Nat}
    (h : InCall s₀ db (holding st) raised s)
    (hQ : ∀ s', InCall s₀ db [] raised s' → s'.pending = s.pending → Q.ok () s') :
    (sqlite3_finalize st).wp Q s := by
  simp only [sqlite3_finalize, wp_bind, wp_getState]
  by_cases hzero : st = 0
  · subst hzero
    exact hQ _ h rfl
  · rw [if_neg hzero]
    have hheld : holding st = [st] := if_neg hzero
    rw [hheld] at h
    have hmem : st ∈ s.stmts := by
      rw [AList.mem_keys, h.stmts]
      exact List.mem_singleton.2 rfl
    obtain ⟨stmt, hlookup⟩ := Option.isSome_iff_exists.1 (AList.lookup_isSome.2 hmem)
    simp only [hlookup, wp_bind, wp_modifyState, wp_record']
    have hover : InCall s₀ db [] raised { s with stmts := s.stmts.erase st } := by
      refine ⟨h.ptr, h.wrappers, h.handles, ?_, ?_, h.next, h.log⟩
      · rw [AList.keys_erase, h.stmts]
        simp
      · intro x y hxy
        by_cases hx : x = st
        · subst hx
          rw [AList.lookup_erase] at hxy
          cases hxy
        · rw [AList.lookup_erase_ne hx] at hxy
          exact h.owner x y hxy
    exact hQ _ (hover.quietEvent (.finalized st) True.intro rfl) rfl

/-! ## Native functions

A native function returns with nothing raised and nothing pending, or with one
runtime exception raised and pending. -/

/-- Between two native calls, with nothing raised. -/
structure Ready (s₀ : NativeState) (db : Nat) (held : List Nat) (s : NativeState) :
    Prop where
  inCall : InCall s₀ db held [] s
  pending : s.pending = none

/-- An exception is on its way. -/
structure Failed (s₀ : NativeState) (db : Nat) (held : List Nat) (e : Throwable)
    (s : NativeState) : Prop where
  inCall : InCall s₀ db held [e] s
  pending : s.pending = none
  kind : e.kind = .runtimeException

/-- A native function has returned. -/
inductive Settled (s₀ : NativeState) (db : Nat) (held : List Nat) (s : NativeState) : Prop
  | quiet : Ready s₀ db held s → Settled s₀ db held s
  | threw {e : Throwable} : InCall s₀ db held [e] s → s.pending = some e →
      e.kind = .runtimeException → Settled s₀ db held s

/-- `D` is what a death in the middle of the call is owed to. -/
def callPost (s₀ : NativeState) (db : Nat) (held : List Nat) (D : Prop) :
    Post NativeState Throwable α where
  ok _ s := Ready s₀ db held s
  throws e s := Failed s₀ db held e s
  dead s := D ∧ ∃ held raised, InCall s₀ db held raised s

def nativePost (s₀ : NativeState) (db : Nat) (held : List Nat) (D : Prop) :
    Post NativeState Throwable α where
  ok _ s := Settled s₀ db held s
  throws _ _ := False
  dead s := D ∧ ∃ held raised, InCall s₀ db held raised s

/-- What keeps the call going, as a property of programs. -/
def Calls (s₀ : NativeState) (db : Nat) (held : List Nat) (D : Prop) (m : NativeProg α) :
    Prop :=
  ∀ s, Ready s₀ db held s → m.wp (callPost s₀ db held D) s

variable {D : Prop} {β : Type} {m : NativeProg α}

theorem calls_pure {a : α} : Calls s₀ db held D (pure a : NativeProg α) := fun _ h => h

theorem calls_bind {f : α → NativeProg β} (hm : Calls s₀ db held D m)
    (hf : ∀ a, Calls s₀ db held D (f a)) : Calls s₀ db held D (m >>= f) := by
  intro s h
  rw [wp_bind]
  exact wp_mono (hm s h) (fun a s' h' => hf a s' h') (fun _ _ h => h) (fun _ h => h)

theorem calls_forEach {f : β → NativeProg Unit} {xs : List β}
    (hf : ∀ x ∈ xs, Calls s₀ db held D (f x)) : Calls s₀ db held D (forEach f xs) := by
  induction xs with
  | nil => exact calls_pure
  | cons x rest ih =>
      refine calls_bind (hf x List.mem_cons_self) fun _ => ih fun y hy => ?_
      exact hf y (List.mem_cons_of_mem _ hy)

theorem calls_throwJava {e : Throwable} (hkind : e.kind = .runtimeException) :
    Calls s₀ db held D (throwJava e : NativeProg α) := fun _ h =>
  ⟨h.inCall.event (.raised e) True.intro, h.pending, hkind⟩

theorem calls_throwJava_bind {e : Throwable} {f : β → NativeProg α}
    (hkind : e.kind = .runtimeException) :
    Calls s₀ db held D ((throwJava e : NativeProg β) >>= f) := fun _ h =>
  ⟨h.inCall.event (.raised e) True.intro, h.pending, hkind⟩

theorem calls_connectionPtr {f : Nat → NativeProg α}
    (hf : Calls s₀ db held D (f s₀.mConnectionPtr)) :
    Calls s₀ db held D (connectionPtr >>= f) := by
  intro s h
  simp only [connectionPtr, wp_bind, wp_getState, wp_pure, h.inCall.ptr]
  exact hf s h

theorem calls_orFail {failure : Option RuntimeThrowable} (hm : Calls s₀ db held D m) :
    Calls s₀ db held D (orFail failure m) := by
  unfold orFail
  split
  · exact hm
  · next e => exact calls_throwJava e.2

theorem wp_jni {Q : Post NativeState Throwable α} :
    (jni m).wp Q s ↔ m.wp
      { ok := fun a s' => match s'.pending with
          | none => Q.ok a s'
          | some e => Q.throws e { s' with pending := none }
        throws := Q.throws
        dead := Q.dead } s := by
  simp only [jni, wp_bind]
  refine ⟨fun h => wp_mono h ?_ (fun _ _ h => h) (fun _ h => h),
    fun h => wp_mono h ?_ (fun _ _ h => h) (fun _ h => h)⟩
  all_goals
    intro a s' h'
    cases hpending : s'.pending with
    | none => simpa [hpending] using h'
    | some e => simpa [hpending] using h'

theorem calls_jni (hm : ∀ s, Ready s₀ db held s → m.wp (nativePost s₀ db held D) s) :
    Calls s₀ db held D (jni m) := by
  intro s h
  rw [wp_jni]
  refine wp_mono (hm s h) ?_ (fun _ _ h => h.elim) (fun _ h => h)
  intro a s' hpost
  rcases hpost with hready | ⟨hcall, hpending, hkind⟩
  · simp only [hready.pending]
    exact hready
  · simp only [hpending]
    exact ⟨hcall.pending none, rfl, hkind⟩

theorem calls_jni_die (hD : D) :
    Calls s₀ db held D (jni (Prog.die : NativeProg α)) := fun _ h =>
  ⟨hD, held, [], h.inCall⟩

variable {env : NativeEnv} {st : Nat}

theorem wp_throwUnlessOk {err : Nat} (hatt : Attached s₀ db) (h : Ready s₀ db held s) :
    (throwUnlessOk env s₀.mConnectionPtr err).wp (nativePost s₀ db held D) s := by
  unfold throwUnlessOk
  split
  · rw [wp_bind]
    refine wp_connectionDb hatt h.inCall fun s' h' _ => ?_
    exact wp_throw hatt h' fun e s'' hkind h'' hpending => .threw h'' hpending hkind
  · exact .quiet h

theorem calls_bindImage {index : Nat} {image : BindImage} (hatt : Attached s₀ db) :
    Calls s₀ db (holding st) D
      (jni (sqlite3_bind env.lib st index image >>= throwUnlessOk env s₀.mConnectionPtr)) := by
  refine calls_jni fun s h => ?_
  rw [wp_bind]
  refine wp_sqlite3_bind h.inCall fun err s' h' hpending => ?_
  exact wp_throwUnlessOk hatt ⟨h', hpending.trans h.pending⟩

/-- `executeNonQuery` returns `SQLITE_DONE` exactly when it did not throw. -/
theorem wp_executeNonQuery (hatt : Attached s₀ db) (h : Ready s₀ db (holding st) s) :
    (executeNonQuery env s₀.mConnectionPtr st).wp
      { ok := fun err s' => Settled s₀ db (holding st) s' ∧
          (err = SQLITE_DONE → Ready s₀ db (holding st) s')
        throws := fun _ _ => False
        dead := fun _ => False } s := by
  have hstep : (sqlite3_step env.lib st).wp
      { ok := fun _ s' => Ready s₀ db (holding st) s'
        throws := fun _ _ => False
        dead := fun _ => False } s :=
    wp_sqlite3_step hatt h.inCall fun err s' h' hpending => ⟨h', hpending.trans h.pending⟩
  have hlive : ∀ s', Ready s₀ db (holding st) s' →
      s'.wrappers.lookup s₀.mConnectionPtr = some db ∧ db ∈ s'.handles := by
    intro s' h'
    rw [h'.inCall.wrappers]
    exact ⟨hatt.wrapper, (h'.inCall.handles db).2 hatt.handle⟩
  refine wp_executeNonQuery_of_step hstep (fun _ s' h' => hlive s' h')
    (fun s' h' => ⟨.quiet h', fun _ => h'⟩) ?_
  intro err e s' s'' h' herr hkind hthrows
  obtain ⟨h'', hpending⟩ := h'.inCall.stepThrows hthrows
  exact ⟨.threw h'' hpending hkind, fun hdone => absurd hdone herr⟩

theorem wp_nativeExecute (hatt : Attached s₀ db) (h : Ready s₀ db (holding st) s) :
    (nativeExecute env s₀.mConnectionPtr st).wp (nativePost s₀ db (holding st) D) s := by
  simp only [nativeExecute, wp_bind]
  exact wp_mono (wp_executeNonQuery hatt h) (fun _ _ h => h.1) (fun _ _ h => h)
    (fun _ h => h.elim)

theorem wp_nativeExecuteForLastInsertedRowId (hatt : Attached s₀ db)
    (h : Ready s₀ db (holding st) s) :
    (nativeExecuteForLastInsertedRowId env s₀.mConnectionPtr st).wp
      (nativePost s₀ db (holding st) D) s := by
  simp only [nativeExecuteForLastInsertedRowId, wp_bind]
  refine wp_mono (wp_executeNonQuery hatt h) ?_ (fun _ _ h => h) (fun _ h => h.elim)
  intro err s' hpost
  obtain ⟨hsettled, hdone⟩ := hpost
  dsimp only
  split
  · next herr =>
      have hready := hdone herr
      rw [wp_bind]
      refine wp_connectionDb hatt hready.inCall fun s'' h'' hpending => ?_
      have hready' : Ready s₀ db (holding st) s'' :=
        ⟨h'', hpending.trans hready.pending⟩
      simp only [wp_bind]
      refine wp_onHandle hatt h'' fun counters => ?_
      show (if 0 < counters.changes then _ else _ : NativeProg Int64).wp _ _
      split
      · exact wp_onHandle hatt h'' fun counters => .quiet hready'
      · exact .quiet hready'
  · exact hsettled

end

end OrmBenchmark.Ref
