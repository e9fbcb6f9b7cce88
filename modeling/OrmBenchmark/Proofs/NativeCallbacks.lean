import OrmBenchmark.Proofs.NativeLifecycle
import OrmBenchmark.Proofs.NativeObjects

/-!
# Callbacks find their connection, and cancellation takes effect

What is registered with a live handle is the address of the wrapper of that very
handle, which lives, so every callback finds it. The reason is that a wrapper is
freed only together with its handle, and a handle is closed only when no
statement refers to it, as the one does that is being stepped.

Whether a poll interrupts the step is then a matter of which calls came last:
the latest `nativeCancel` or reset of the connection, and whether the latest
reset made it cancelable.
-/

namespace OrmBenchmark.Ref

open OrmBenchmark.Lib OrmBenchmark.Lib.Prog

def Handlers.Registers (h : Handlers) (data : Nat) : Prop :=
  h.trace = some data ∨ h.profile = some data ∨ h.progress = some data

structure CallbackState.Sound (s : CallbackState) : Prop where
  linked : s.native.objects.Linked
  pending : s.native.pending = none
  registered : ∀ db data, s.native.objects.handle db → (s.handlers db).Registers data →
    s.native.objects.wrapper data = some db
  untouched : ∀ db, s.native.objects.next ≤ db → s.handlers db = Handlers.none
  running : ∀ db step, s.running db = some step →
    s.native.objects.wrapper step.connectionPtr = some db ∧
      s.native.objects.stmt step.statementPtr = some db

/-- The pointers a call is made with live. -/
def CallbackLabel.Valid (o : NativeObjects) : CallbackLabel → Prop
  | .nativeOpen .. | .pollProgress _ | .returnStep _ => True
  | .nativeClose ptr => ptr = 0 ∨ ∃ db, o.Connected ptr db
  | .statement ptr call => ∃ db, o.Connected ptr db ∧ call.Valid o db
  | .query function => function.Valid o
  | .nativeCancel ptr | .clearCanceled ptr | .setProgressHandler ptr _ =>
      ∃ db, o.Connected ptr db
  | .beginStep step =>
      ∃ db, o.Connected step.connectionPtr db ∧ o.MayPass db step.statementPtr

section

variable {s : CallbackState} {n : NativeState} {db ptr : Nat} {env : NativeEnv}
  {columns : SqliteColumns}

/-- The step of a function that leaves the handlers alone, and begins nothing. -/
theorem CallbackState.Sound.native_step {s' : CallbackState} (h : s.Sound)
    {opens : Prop}
    (hobjects : s.native.objects.Step (fun db => s.running db = none) opens s'.native.objects)
    (hpending : s'.native.pending = none) (hhandlers : s'.handlers = s.handlers)
    (hrunning : ∀ db step, s'.running db = some step → s.running db = some step) :
    s'.Sound where
  linked := h.linked.step hobjects
  pending := hpending
  registered db data hdb hdata := by
    rw [hhandlers] at hdata
    rcases hobjects.handle_new hdb with hold | hnew
    · exact hobjects.wrapper_kept h.linked (h.registered db data hold hdata) (Or.inl hdb)
    · rw [h.untouched db hnew] at hdata
      simp [Handlers.Registers, Handlers.none] at hdata
  untouched db hdb := by
    rw [hhandlers]
    exact h.untouched db (Nat.le_trans hobjects.next_le hdb)
  running db step hstep := by
    have hstep := hrunning db step hstep
    obtain ⟨hptr, hst⟩ := h.running db step hstep
    have hbusy : ¬ s.running db = none := by
      rw [hstep]
      exact Option.some_ne_none step
    exact ⟨hobjects.wrapper_kept h.linked hptr (Or.inr ⟨_, hst⟩),
      hobjects.stmt_kept h.linked hst hbusy⟩

/-- A connection that is live stands for a handle that lives. -/
theorem CallbackState.Sound.connected (h : s.Sound)
    (hptr : s.native.objects.wrapper ptr = some db) : s.native.objects.Connected ptr db :=
  ⟨hptr, h.linked.wrapper ptr db hptr⟩

theorem wp_native {α : Type} {m : NativeProg α} {Q : Post CallbackState Throwable α} :
    (native m).wp Q s ↔ m.wp
      { ok := fun a n => Q.ok a { s with native := n }
        throws := fun e n => Q.throws e { s with native := n }
        dead := fun n => Q.dead { s with native := n } } s.native := wp_zoom

/-! ## What a callback does -/

def CallbackEvent.Printed : CallbackEvent → Prop
  | .traced _ _ | .profiled _ _ _ => True
  | .returned _ _ => False

/-- Nothing changes but the log, which has more lines. -/
structure Prints (s s' : CallbackState) : Prop where
  objects : s'.native.objects = s.native.objects
  pending : s'.native.pending = s.native.pending
  connections : s'.connections = s.connections
  handlers : s'.handlers = s.handlers
  running : s'.running = s.running
  log : ∃ events, s'.log = s.log ++ events ∧ ∀ event ∈ events, event.Printed

theorem Prints.refl : Prints s s :=
  ⟨rfl, rfl, rfl, rfl, rfl, [], (List.append_nil _).symm, by simp⟩

theorem Prints.trans {s₁ s₂ : CallbackState} (h₁ : Prints s s₁) (h₂ : Prints s₁ s₂) :
    Prints s s₂ := by
  obtain ⟨events₁, hlog₁, hprinted₁⟩ := h₁.log
  obtain ⟨events₂, hlog₂, hprinted₂⟩ := h₂.log
  refine ⟨h₂.objects.trans h₁.objects, h₂.pending.trans h₁.pending,
    h₂.connections.trans h₁.connections, h₂.handlers.trans h₁.handlers,
    h₂.running.trans h₁.running, events₁ ++ events₂, ?_, ?_⟩
  · rw [hlog₂, hlog₁, List.append_assoc]
  · intro event hevent
    exact (List.mem_append.1 hevent).elim (hprinted₁ event) (hprinted₂ event)

theorem Prints.withRunning {s' : CallbackState} (h : Prints s s') (running : Option RunningStep) :
    Prints (s.withRunning db running) (s'.withRunning db running) := by
  refine ⟨h.objects, h.pending, h.connections, h.handlers, ?_, h.log⟩
  show Function.update s'.running db running = _
  rw [h.running]
  rfl

theorem Prints.back {s' : CallbackState} (h : s.Sound) (hprints : Prints s s') :
    BackInJava s.native.objects (fun db => s.running db = none) s'.native :=
  ⟨NativeObjects.Step.same.of_eq hprints.objects, hprints.pending.trans h.pending⟩

theorem CallbackState.Sound.prints {s' : CallbackState} (h : s.Sound) (hprints : Prints s s') :
    s'.Sound := by
  have hback := hprints.back h
  refine h.native_step hback.step hback.pending hprints.handlers fun db step hstep => ?_
  rw [← hprints.running]
  exact hstep

/-- A live connection is dereferenced. -/
theorem wp_derefConnection {Q : Post CallbackState Throwable SQLiteConnection}
    (hptr : s.native.objects.wrapper ptr = some db)
    (hQ : ∀ s', Prints s s' → s'.log = s.log → Q.ok (s.connections ptr) s') :
    (derefConnection ptr).wp Q s := by
  simp only [derefConnection, wp_bind, wp_native]
  refine wp_liveConnection hptr ?_
  refine hQ _ ⟨rfl, rfl, rfl, rfl, rfl, [], (List.append_nil _).symm, by simp⟩ rfl

/-- A callback that prints a line about its connection, if it is registered. -/
theorem wp_callback_prints {data : Option Nat} {f : Nat → CallbackProg Unit}
    (line : SQLiteConnection → CallbackEvent) (hline : ∀ c, (line c).Printed)
    (hf : ∀ ptr, f ptr = (do
      let connection ← derefConnection ptr
      emit (line connection)))
    (hdata : ∀ ptr, data = some ptr → s.native.objects.wrapper ptr = some db) :
    (callback data () f).wp (Post.only fun _ s' => Prints s s') s := by
  cases data with
  | none => exact Prints.refl
  | some ptr =>
      rw [callback, hf, wp_bind]
      refine wp_derefConnection (hdata ptr rfl) fun s' hprints hlog => ?_
      refine ⟨hprints.objects, hprints.pending, hprints.connections, hprints.handlers,
        hprints.running, [line (s.connections ptr)], ?_, ?_⟩
      · show s'.log ++ _ = _
        rw [hlog]
      · intro event hevent
        rw [List.mem_singleton.1 hevent]
        exact hline _

theorem wp_traceCallback {data : Option Nat} {sql : String}
    (hdata : ∀ ptr, data = some ptr → s.native.objects.wrapper ptr = some db) :
    (callback data () fun data => sqliteTraceCallback data sql).wp
      (Post.only fun _ s' => Prints s s') s :=
  wp_callback_prints (fun connection => .traced connection.label sql) (fun _ => True.intro)
    (fun _ => rfl) hdata

theorem wp_profileCallback {data : Option Nat} {sql : String} {tm : Nat}
    (hdata : ∀ ptr, data = some ptr → s.native.objects.wrapper ptr = some db) :
    (callback data () fun data => sqliteProfileCallback data sql tm).wp
      (Post.only fun _ s' => Prints s s') s :=
  wp_callback_prints (fun connection => .profiled connection.label sql tm) (fun _ => True.intro)
    (fun _ => rfl) hdata

/-! ## Running a statement -/

/-- The exception of a step that a progress handler interrupted. -/
def Interruption (e : Throwable) : Prop := e.className = "android/os/OperationCanceledException"

theorem interruption_of_code (sqlite3Message message : Option String) :
    Interruption (sqlite3Exception SQLITE_INTERRUPT sqlite3Message message) := by
  have hclass : exceptionClass SQLITE_INTERRUPT = "android/os/OperationCanceledException" := by
    decide
  exact hclass

/-- The objects are as before, and this is what the function throws. -/
def Throwing {α : Type} (o : NativeObjects) (P : Option Throwable → Prop) :
    Post NativeState Throwable α :=
  Post.only fun _ n => n.objects = o ∧ P n.pending

section Interrupted

variable {n : NativeState} {o : NativeObjects} {st : Nat}

theorem wp_step_interrupted (hn : n.objects = o) (hst : o.stmt st = some db) (hne : st ≠ 0)
    (hdb : o.handle db) : (sqlite3_step env.interrupted.lib st).wp
      (Post.only fun err n' => err = SQLITE_INTERRUPT ∧ n'.objects = o) n := by
  subst hn
  refine wp_withStmt (fun hzero => absurd hzero hne) (fun stmt _ hlookup => ?_) fun _ hnone => ?_
  · have hstmt : stmt.db = db := by simpa [NativeState.objects, hlookup] using hst
    subst hstmt
    simp only [wp_bind, wp_nextCall]
    refine wp_liveHandle hdb fun counters => ?_
    simp only [wp_bind, wp_record']
    refine wp_of_only (harmless_insertHandle hdb _ rfl) fun _ n' hn' => ⟨rfl, hn'⟩
  · simp [NativeState.objects, hnone] at hst

/-- An interrupted step is an error, and its code is returned. -/
def interruptedPost (o : NativeObjects) : Post NativeState Throwable Nat :=
  Post.only fun err n => err = SQLITE_INTERRUPT ∧ n.objects = o ∧
    ∃ e, n.pending = some e ∧ Interruption e

theorem wp_throw_interrupted (hn : n.objects = o) (h : o.Connected ptr db) :
    (do
      let db ← connectionDb ptr
      throw_sqlite3_exception env.interrupted.lib db none
      pure SQLITE_INTERRUPT : NativeProg Nat).wp (interruptedPost o) n := by
  subst hn
  rw [wp_bind]
  refine wp_liveConnection h.wrapper ?_
  dsimp only
  rw [wp_bind]
  refine wp_liveHandle h.handle fun _ => ?_
  simp only [wp_bind, wp_nextCall, jniThrowException, wp_modifyState, wp_record', wp_pure]
  exact ⟨rfl, rfl, _, rfl, interruption_of_code _ _⟩

theorem wp_nonQuery_interrupted (hn : n.objects = o) (h : o.Connected ptr db)
    (hst : o.stmt st = some db) (hne : st ≠ 0) :
    (executeNonQuery env.interrupted ptr st).wp (interruptedPost o) n := by
  rw [executeNonQuery, wp_bind]
  refine wp_of_only (wp_step_interrupted hn hst hne h.handle) fun err n' hstep => ?_
  obtain ⟨rfl, hn'⟩ := hstep
  dsimp only
  rw [if_neg (by decide), if_pos (by decide)]
  exact wp_throw_interrupted hn' h

theorem wp_oneRowQuery_interrupted (hn : n.objects = o) (h : o.Connected ptr db)
    (hst : o.stmt st = some db) (hne : st ≠ 0) :
    (executeOneRowQuery env.interrupted ptr st).wp (interruptedPost o) n := by
  rw [executeOneRowQuery, wp_bind]
  refine wp_of_only (wp_step_interrupted hn hst hne h.handle) fun err n' hstep => ?_
  obtain ⟨rfl, hn'⟩ := hstep
  dsimp only
  rw [if_pos (by decide)]
  exact wp_throw_interrupted hn' h

/-- None of the functions takes an interrupted step for a result. -/
theorem wp_execute_interrupted (function : ExecuteFunction) (hn : n.objects = o)
    (h : o.Connected ptr db) (hst : o.stmt st = some db) (hne : st ≠ 0) :
    (function.run env.interrupted columns ptr st).wp
      (Throwing o fun e => ∃ e', e = some e' ∧ Interruption e') n := by
  have hnonQuery : (executeNonQuery env.interrupted ptr st).wp (interruptedPost o) n :=
    wp_nonQuery_interrupted hn h hst hne
  have honeRow : (executeOneRowQuery env.interrupted ptr st).wp (interruptedPost o) n :=
    wp_oneRowQuery_interrupted hn h hst hne
  cases function with
  | nativeExecute =>
      refine wp_bind.2 (wp_of_only hnonQuery fun err n' hpost => ?_)
      exact hpost.2
  | nativeExecuteForChangedRowCount | nativeExecuteForLastInsertedRowId =>
      refine wp_bind.2 (wp_bind.2 (wp_of_only hnonQuery fun err n' hpost => ?_))
      obtain ⟨rfl, hpost⟩ := hpost
      dsimp only
      rw [if_neg (by decide)]
      exact hpost
  | nativeExecuteForLong | nativeExecuteForString =>
      refine wp_bind.2 (wp_bind.2 (wp_of_only honeRow fun err n' hpost => ?_))
      obtain ⟨rfl, hpost⟩ := hpost
      dsimp only
      rw [if_neg (by decide)]
      exact hpost

end Interrupted

theorem Throwing.of_harmless {α : Type} {o : NativeObjects} {m : NativeProg α} {n : NativeState}
    (hm : Harmless o m) (hn : n.objects = o) : m.wp (Throwing o fun _ => True) n :=
  wp_of_only (hm n hn) fun _ _ hn' => ⟨hn', True.intro⟩

/-- A function that ran a statement has returned to Java. -/
structure Executed (s : CallbackState) (ptr : Nat) (P : Option Throwable → Prop)
    (s' : CallbackState) : Prop where
  objects : s'.native.objects = s.native.objects
  pending : s'.native.pending = none
  connections : s'.connections = s.connections
  handlers : s'.handlers = s.handlers
  running : s'.running = s.running
  log : ∃ e, P e ∧ s'.log = s.log ++ [.returned ptr e]

theorem wp_execute {step : RunningStep} {P : Option Throwable → Prop}
    (hm : (step.function.run env columns step.connectionPtr step.statementPtr).wp
      (Throwing s.native.objects P) s.native) :
    (execute env columns step).wp (Post.only fun _ s' => Executed s step.connectionPtr P s') s := by
  simp only [execute, wp_tryCatch, wp_bind, wp_native, wp_jni]
  refine wp_of_only hm fun _ n hpost => ?_
  obtain ⟨hobjects, hP⟩ := hpost
  dsimp only
  split
  · next hpending =>
      rw [hpending] at hP
      exact ⟨hobjects, hpending, rfl, rfl, rfl, none, hP, rfl⟩
  · next e hpending =>
      rw [hpending] at hP
      exact ⟨hobjects, rfl, rfl, rfl, rfl, some e, hP, rfl⟩

/-! ## What each label does -/

end

/-- What the label writes to `canceled` of this connection. -/
def CallbackLabel.canceled (ptr : Nat) : CallbackLabel → Option Bool
  | .nativeCancel ptr' => if ptr' = ptr then some true else none
  | .clearCanceled ptr' => if ptr' = ptr then some false else none
  | _ => none

/-- What it makes of the progress handler. -/
def CallbackLabel.cancelable (ptr : Nat) : CallbackLabel → Option Bool
  | .setProgressHandler ptr' cancelable => if ptr' = ptr then some cancelable else none
  | _ => none

/-- Neither of the two. -/
def CallbackLabel.Silent (label : CallbackLabel) : Prop :=
  ∀ ptr, label.canceled ptr = none ∧ label.cancelable ptr = none

/-- What a thread may do, with arguments that live. -/
inductive CallbackStep (s s' : CallbackState) : CallbackLabel → Prop
  | returned {label : CallbackLabel} : label.Silent →
      BackInJava s.native.objects (fun db => s.running db = none) s'.native →
      s'.connections = s.connections → s'.handlers = s.handlers →
      (∀ db step, s'.running db = some step → s.running db = some step) → CallbackStep s s' label
  | opened {label : CallbackLabel} {n : NativeState} {db ptr : Nat}
      {connection : SQLiteConnection} {handlers : Handlers} : label.Silent →
      s.native.objects.next ≤ db → db < ptr →
      n.objects = s.native.objects.addConnection db ptr → n.pending = none →
      connection.canceled = false → handlers.progress = none →
      (∀ data, handlers.Registers data → data = ptr) →
      s' = (CallbackState.withConnection { s with native := n } ptr connection).withHandlers
        db handlers → CallbackStep s s' label
  | flagged {label : CallbackLabel} {ptr db : Nat} {canceled : Bool} :
      s.native.objects.wrapper ptr = some db →
      (label = .nativeCancel ptr ∧ canceled = true ∨
        label = .clearCanceled ptr ∧ canceled = false) →
      Prints (s.withConnection ptr { s.connections ptr with canceled := canceled }) s' →
      CallbackStep s s' label
  | handled {ptr db : Nat} {cancelable : Bool} : s.native.objects.wrapper ptr = some db →
      Prints (s.withHandlers db
        { s.handlers db with progress := if cancelable then some ptr else none }) s' →
      CallbackStep s s' (.setProgressHandler ptr cancelable)
  | begun {step : RunningStep} {db : Nat} :
      s.native.objects.wrapper step.connectionPtr = some db →
      s.native.objects.stmt step.statementPtr = some db →
      Prints (s.withRunning db (some step)) s' → CallbackStep s s' (.beginStep step)

section

variable {s s' : CallbackState} {db ptr : Nat} {env : NativeEnv} {columns : SqliteColumns}
  {label : CallbackLabel}

/-- What is registered with a handle may change to its wrapper, or to nothing. -/
theorem CallbackState.Sound.withHandlers (h : s.Sound) {handlers : Handlers}
    (hptr : s.native.objects.wrapper ptr = some db)
    (hdata : ∀ data, handlers.Registers data → data = ptr) :
    (s.withHandlers db handlers).Sound := by
  refine ⟨h.linked, h.pending, ?_, ?_, h.running⟩
  · intro db' data hhandle hregisters
    by_cases hsame : db' = db
    · subst hsame
      have hnew : (s.withHandlers db' handlers).handlers db' = handlers :=
        Function.update_self _ _ _
      rw [hnew] at hregisters
      rw [hdata data hregisters]
      exact hptr
    · have hold : (s.withHandlers db handlers).handlers db' = s.handlers db' :=
        Function.update_of_ne hsame _ _
      rw [hold] at hregisters
      exact h.registered db' data hhandle hregisters
  · intro db' hnext
    have hne : db' ≠ db := by
      have hlt := h.linked.handle_lt db (h.linked.wrapper ptr db hptr)
      have hle : s.native.objects.next ≤ db' := hnext
      omega
    exact (Function.update_of_ne hne _ _).trans (h.untouched db' hnext)

theorem CallbackState.Sound.withRunning (h : s.Sound) {step : RunningStep}
    (hptr : s.native.objects.wrapper step.connectionPtr = some db)
    (hst : s.native.objects.stmt step.statementPtr = some db) :
    (s.withRunning db (some step)).Sound := by
  refine ⟨h.linked, h.pending, h.registered, h.untouched, fun db' step' hstep => ?_⟩
  by_cases hsame : db' = db
  · subst hsame
    have hnew : (s.withRunning db' (some step)).running db' = some step :=
      Function.update_self _ _ _
    rw [hnew] at hstep
    cases hstep
    exact ⟨hptr, hst⟩
  · have hold : (s.withRunning db (some step)).running db' = s.running db' :=
      Function.update_of_ne hsame _ _
    rw [hold] at hstep
    exact h.running db' step' hstep

theorem CallbackState.Sound.step (h : s.Sound) (hstep : CallbackStep s s' label) : s'.Sound := by
  cases hstep with
  | returned _ hback _ hhandlers hrunning =>
      exact h.native_step hback.step hback.pending hhandlers hrunning
  | @opened _ n db ptr connection handlers _ hdb hptr hobjects hpending _ _ hdata hs' =>
      have hopened : (CallbackState.withConnection { s with native := n } ptr connection).Sound :=
        h.native_step ((NativeObjects.Step.opened True.intro hdb hptr).of_eq hobjects) hpending
          rfl fun _ _ h => h
      have hwrapper : n.objects.wrapper ptr = some db := by
        rw [hobjects]
        exact NativeObjects.update_eq_some.2 (Or.inl ⟨rfl, rfl⟩)
      rw [hs']
      exact hopened.withHandlers hwrapper hdata
  | @flagged _ ptr _ canceled _ _ hprints =>
      have hbefore :
          (s.withConnection ptr { s.connections ptr with canceled := canceled }).Sound :=
        ⟨h.linked, h.pending, h.registered, h.untouched, h.running⟩
      exact hbefore.prints hprints
  | @handled ptr db cancelable hptr hprints =>
      have hdb := h.linked.wrapper ptr db hptr
      refine (h.withHandlers hptr fun data hdata => ?_).prints hprints
      rcases hdata with hdata | hdata | hdata
      · exact h.linked.unique data ptr db (h.registered db data hdb (Or.inl hdata)) hptr
      · exact h.linked.unique data ptr db (h.registered db data hdb (Or.inr (Or.inl hdata))) hptr
      · cases cancelable with
        | true => exact (Option.some_inj.1 hdata).symm
        | false => cases hdata
  | begun hptr hst hprints => exact (h.withRunning hptr hst).prints hprints

/-! ## Every label does what it may -/

/-- What is asked of a label: it ends, and in one of the states it may lead to. -/
def labelPost (s : CallbackState) (label : CallbackLabel) : Post CallbackState Throwable Unit where
  ok _ s' := CallbackStep s s' label
  throws _ s' := CallbackStep s s' label
  dead _ := False

/-- A native function without callbacks. -/
theorem wp_native_label {m : NativeProg Unit} (hsilent : label.Silent)
    (hm : m.wp (javaPost s.native.objects fun db => s.running db = none) s.native) :
    (native m).wp (labelPost s label) s := by
  rw [wp_native]
  refine wp_mono hm (fun _ n hback => ?_) (fun _ n hback => ?_) (fun _ h => h)
  · exact .returned hsilent hback rfl rfl fun _ _ h => h
  · exact .returned hsilent hback rfl rfl fun _ _ h => h

/-- A return to Java clears what is pending. -/
theorem wp_returnToJava {P : CallbackState → Prop}
    (hP : P { s with native := { s.native with pending := none } }) :
    (native (jni (pure ())) : CallbackProg Unit).wp
      { ok := fun _ => P, throws := fun _ => P, dead := fun _ => False } s := by
  rw [wp_native, wp_jni, wp_pure]
  dsimp only
  cases hpending : s.native.pending with
  | none =>
      rw [← hpending] at hP
      exact hP
  | some e => exact hP

theorem wp_open_label (h : s.Sound) {path name : String} {openFlags : Nat}
    {enableTrace enableProfile : Bool} (hsilent : label.Silent) :
    (do
      let _ ← nativeOpenWithCallbacks env path openFlags name enableTrace enableProfile
      native (jni (pure ()))).wp (labelPost s label) s := by
  have hnext : ¬ s.native.objects.handle s.native.next := fun hlive =>
    absurd (h.linked.handle_lt _ hlive) (Nat.lt_irrefl _)
  rw [wp_bind]
  simp only [nativeOpenWithCallbacks, wp_bind, wp_native]
  refine wp_of_only (wp_nativeOpen_objects hnext) fun ptr n hopen => ?_
  dsimp only
  rcases hopen with ⟨rfl, hfailed⟩ | ⟨rfl, hobjects⟩
  · rw [if_pos rfl, wp_pure]
    refine wp_returnToJava (.returned hsilent ?_ rfl rfl fun _ _ h => h)
    exact ⟨.failedOpen hfailed, rfl⟩
  · rw [if_neg (Nat.succ_ne_zero _), wp_bind, wp_native]
    have hwrapper : n.wrappers.lookup (s.native.next + 1) = some s.native.next := by
      have hlookup := congrFun (congrArg NativeObjects.wrapper hobjects) (s.native.next + 1)
      exact hlookup.trans (Function.update_self _ _ _)
    refine wp_liveConnection hwrapper ?_
    simp only [wp_bind, setConnection, setHandlers, wp_modifyState, wp_pure]
    refine wp_returnToJava (.opened hsilent (Nat.le_refl _) (Nat.lt_succ_self _) ?_ rfl rfl rfl ?_
      rfl)
    · exact hobjects
    · intro data hdata
      rcases hdata with hdata | hdata | hdata
      · cases enableTrace with
        | true => exact (Option.some_inj.1 hdata).symm
        | false => cases hdata
      · cases enableProfile with
        | true => exact (Option.some_inj.1 hdata).symm
        | false => cases hdata
      · cases hdata

/-- `canceled` is written. -/
theorem wp_setCanceled (hptr : s.native.objects.wrapper ptr = some db) {canceled : Bool}
    (hlabel : label = .nativeCancel ptr ∧ canceled = true ∨
      label = .clearCanceled ptr ∧ canceled = false) :
    (do
      let connection ← derefConnection ptr
      setConnection ptr { connection with canceled := canceled }).wp (labelPost s label) s := by
  rw [wp_bind]
  refine wp_derefConnection hptr fun s' hprints hlog => ?_
  refine .flagged hptr hlabel ⟨hprints.objects, hprints.pending, ?_, hprints.handlers,
    hprints.running, hprints.log⟩
  show Function.update s'.connections ptr _ = _
  rw [hprints.connections]
  rfl

theorem wp_setProgressHandler (hptr : s.native.objects.wrapper ptr = some db)
    (hdb : s.native.objects.handle db) {cancelable : Bool} :
    (setProgressHandler ptr cancelable).wp (labelPost s (.setProgressHandler ptr cancelable))
      s := by
  simp only [setProgressHandler, wp_bind, wp_native]
  refine wp_liveConnection hptr ?_
  dsimp only
  refine wp_liveHandle hdb fun _ => ?_
  simp only [wp_getState, setHandlers, wp_modifyState, wp_pure]
  exact .handled hptr ⟨rfl, rfl, rfl, rfl, rfl, [], (List.append_nil _).symm, by simp⟩

theorem wp_beginStep (h : s.Sound) {step : RunningStep}
    (hptr : s.native.objects.wrapper step.connectionPtr = some db)
    (hst : s.native.objects.stmt step.statementPtr = some db) :
    (beginStep columns db step).wp (labelPost s (.beginStep step)) s := by
  have hdata : ∀ data, (s.handlers db).trace = some data →
      s.native.objects.wrapper data = some db := fun data htrace =>
    h.registered db data (h.linked.wrapper _ _ hptr) (Or.inl htrace)
  simp only [beginStep, wp_bind, wp_getState, wp_modifyState, wp_native, wp_nextCall]
  refine wp_of_only (wp_traceCallback hdata) fun _ s' hprints => ?_
  exact .begun hptr hst ⟨hprints.objects, hprints.pending, hprints.connections, hprints.handlers,
    hprints.running, hprints.log⟩

/-- The end of a step: a line of the profile, and then the function returns. -/
theorem wp_returnStep (h : s.Sound) {step : RunningStep} (hrunning : s.running db = some step)
    {P : Option Throwable → Prop}
    (hm : ∀ n : NativeState, n.objects = s.native.objects →
      (step.function.run env columns step.connectionPtr step.statementPtr).wp
        (Throwing s.native.objects P) n) :
    (returnStep env columns db step).wp (Post.only fun _ s' => ∃ s₁,
      Prints (s.withRunning db none) s₁ ∧ Executed s₁ step.connectionPtr P s') s := by
  obtain ⟨hptr, hst⟩ := h.running db step hrunning
  have hdata : ∀ data, (s.handlers db).profile = some data →
      s.native.objects.wrapper data = some db := fun data hprofile =>
    h.registered db data (h.linked.wrapper _ _ hptr) (Or.inr (Or.inl hprofile))
  simp only [returnStep, wp_bind, wp_getState, wp_modifyState, wp_native, wp_nextCall]
  refine wp_of_only (wp_profileCallback hdata) fun _ s₁ hprints => ?_
  have hobjects : s₁.native.objects = s.native.objects := hprints.objects
  have hm₁ := hm s₁.native hobjects
  rw [← hobjects] at hm₁
  refine wp_of_only (wp_execute hm₁) fun _ s' hexecuted => ⟨s₁, ?_, hexecuted⟩
  exact ⟨hprints.objects, hprints.pending, hprints.connections, hprints.handlers,
    hprints.running, hprints.log⟩

theorem CallbackStep.of_returnStep (hsilent : label.Silent) {s₁ : CallbackState}
    {P : Option Throwable → Prop} (hprints : Prints (s.withRunning db none) s₁)
    (hexecuted : Executed s₁ ptr P s') : CallbackStep s s' label := by
  refine .returned hsilent ⟨?_, hexecuted.pending⟩
    (hexecuted.connections.trans hprints.connections)
    (hexecuted.handlers.trans hprints.handlers) fun db' step hstep => ?_
  · exact NativeObjects.Step.same.of_eq (hexecuted.objects.trans hprints.objects)
  · rw [hexecuted.running, hprints.running] at hstep
    by_cases hsame : db' = db
    · have hnone : (s.withRunning db none).running db' = none := by
        rw [hsame]
        exact Function.update_self _ _ _
      rw [hnone] at hstep
      cases hstep
    · have hold : (s.withRunning db none).running db' = s.running db' :=
        Function.update_of_ne hsame _ _
      rw [← hold]
      exact hstep

/-- The step was interrupted, and its function throws the exception for that. -/
def Interrupts (s : CallbackState) (db : Nat) (step : RunningStep) (s' : CallbackState) : Prop :=
  ∃ s₁, Prints (s.withRunning db none) s₁ ∧
    Executed s₁ step.connectionPtr (fun e => ∃ e', e = some e' ∧ Interruption e') s'

/-- A poll asks the connection that runs the statement, if it asks at all. -/
theorem wp_pollProgress (h : s.Sound) {step : RunningStep} (hrunning : s.running db = some step) :
    (pollProgress env columns db step).wp (Post.only fun _ s' =>
      if (s.handlers db).progress.isSome ∧ (s.connections step.connectionPtr).canceled then
        Interrupts s db step s'
      else
        Prints s s' ∧ s'.log = s.log) s := by
  obtain ⟨hptr, hst⟩ := h.running db step hrunning
  have hdb := h.linked.wrapper _ _ hptr
  have hne := (h.linked.stmt_lt _ _ hst).1
  simp only [pollProgress, wp_bind, wp_getState]
  cases hprogress : (s.handlers db).progress with
  | none =>
      show Post.ok _ false s
      exact ⟨Prints.refl, rfl⟩
  | some data =>
      have hwrapper := h.registered db data hdb (Or.inr (Or.inr hprogress))
      have hdata := h.linked.unique data _ db hwrapper hptr
      subst hdata
      rw [callback, sqliteProgressHandlerCallback, wp_bind]
      refine wp_derefConnection hptr fun s₁ hprints hlog => ?_
      dsimp only
      rw [wp_pure]
      dsimp only
      cases hcanceled : (s.connections step.connectionPtr).canceled with
      | false =>
          rw [if_neg Bool.false_ne_true, wp_pure]
          exact ⟨hprints, hlog⟩
      | true =>
          have hrunning₁ : s₁.running db = some step := by
            rw [hprints.running, hrunning]
          have hinterrupted : ∀ n : NativeState, n.objects = s₁.native.objects →
              (step.function.run env.interrupted columns step.connectionPtr
                step.statementPtr).wp
                (Throwing s₁.native.objects fun e => ∃ e', e = some e' ∧ Interruption e') n := by
            intro n hn
            have hn' := hn.trans hprints.objects
            rw [hprints.objects]
            exact wp_execute_interrupted step.function hn' ⟨hptr, hdb⟩ hst hne
          rw [if_pos rfl]
          refine wp_of_only (wp_returnStep (h.prints hprints) hrunning₁ hinterrupted) ?_
          intro _ s' hpost
          obtain ⟨s₂, hprints₂, hexecuted⟩ := hpost
          exact ⟨s₂, (hprints.withRunning none).trans hprints₂, hexecuted⟩

/-! ## Which threads wait -/

theorem free_running {db : Nat} (hptr : s.native.objects.wrapper ptr = some db)
    (hfree : s.free ptr = true) : s.running db = none := by
  have hlookup : s.native.wrappers.lookup ptr = some db := hptr
  simpa [CallbackState.free, hlookup] using hfree

/-- A function that is to step a statement, or to hear that there is none. -/
theorem wp_beginStep_label (h : s.Sound) {step : RunningStep} {m : CallbackProg Unit}
    (hconnected : s.native.objects.Connected step.connectionPtr db)
    (hst : s.native.objects.MayPass db step.statementPtr)
    (hrun : (CallbackLabel.beginStep step).run env columns s = some m) :
    m.wp (labelPost s (.beginStep step)) s := by
  cases hlookup : s.native.stmts.lookup step.statementPtr with
  | none =>
      -- nothing is stepped: the library says so
      simp only [CallbackLabel.run, hlookup, Option.some_inj] at hrun
      subst hrun
      have hm : Harmless s.native.objects
          (step.function.run env columns step.connectionPtr step.statementPtr) :=
        harmless_execute step.function hconnected hst
      refine wp_of_only (wp_execute (Throwing.of_harmless hm rfl)) fun _ s' hexecuted => ?_
      refine .returned (fun _ => ⟨rfl, rfl⟩) ⟨?_, hexecuted.pending⟩ hexecuted.connections
        hexecuted.handlers fun db' step' hstep => ?_
      · exact NativeObjects.Step.same.of_eq hexecuted.objects
      · rw [← hexecuted.running]
        exact hstep
  | some stmt =>
      simp only [CallbackLabel.run, hlookup, Option.ite_none_right_eq_some] at hrun
      obtain ⟨_, hm⟩ := hrun
      cases hm
      have hlive : s.native.objects.stmt step.statementPtr = some stmt.db := by
        simp [NativeState.objects, hlookup]
      have hdb : stmt.db = db := by
        rcases hst with hzero | hst
        · exact absurd hzero (h.linked.stmt_lt _ _ hlive).1
        · rw [hlive] at hst
          exact Option.some_inj.1 hst
      subst hdb
      exact wp_beginStep h hconnected.wrapper hlive

/-- A label with arguments that live, made by a thread that does not wait. -/
theorem wp_label (h : s.Sound) (hvalid : label.Valid s.native.objects)
    {m : CallbackProg Unit} (hrun : label.run env columns s = some m) :
    m.wp (labelPost s label) s := by
  cases label with
  | nativeOpen path openFlags name enableTrace enableProfile =>
      cases hrun
      exact wp_open_label h fun _ => ⟨rfl, rfl⟩
  | nativeClose ptr =>
      simp only [CallbackLabel.run, Option.ite_none_right_eq_some] at hrun
      obtain ⟨_, hm⟩ := hrun
      cases hm
      exact wp_native_label (fun _ => ⟨rfl, rfl⟩) (wp_jni_performs (performs_close hvalid) rfl)
  | statement ptr call =>
      simp only [CallbackLabel.run, Option.ite_none_right_eq_some, Bool.and_eq_true] at hrun
      obtain ⟨⟨hfree, _⟩, hm⟩ := hrun
      cases hm
      obtain ⟨db, hconnected, hcall⟩ := hvalid
      exact wp_native_label (fun _ => ⟨rfl, rfl⟩)
        (wp_statement_objects rfl hconnected (free_running hconnected.wrapper hfree) hcall)
  | query function =>
      cases hrun
      exact wp_native_label (fun _ => ⟨rfl, rfl⟩)
        (wp_jni_performs (harmless_query hvalid).performs rfl)
  | nativeCancel ptr =>
      cases hrun
      obtain ⟨db, hconnected⟩ := hvalid
      exact wp_setCanceled hconnected.wrapper (Or.inl ⟨rfl, rfl⟩)
  | clearCanceled ptr =>
      cases hrun
      obtain ⟨db, hconnected⟩ := hvalid
      exact wp_setCanceled hconnected.wrapper (Or.inr ⟨rfl, rfl⟩)
  | setProgressHandler ptr cancelable =>
      simp only [CallbackLabel.run, Option.ite_none_right_eq_some] at hrun
      obtain ⟨_, hm⟩ := hrun
      cases hm
      obtain ⟨db, hconnected⟩ := hvalid
      exact wp_setProgressHandler hconnected.wrapper hconnected.handle
  | beginStep step =>
      obtain ⟨db, hconnected, hst⟩ := hvalid
      exact wp_beginStep_label h hconnected hst hrun
  | pollProgress db =>
      obtain ⟨step, hrunning, hm⟩ := Option.map_eq_some_iff.1 hrun
      subst hm
      refine wp_of_only (wp_pollProgress h hrunning) fun _ s' hpost => ?_
      split at hpost
      · obtain ⟨s₁, hprints, hexecuted⟩ := hpost
        exact .of_returnStep (fun _ => ⟨rfl, rfl⟩) hprints hexecuted
      · obtain ⟨hprints, _⟩ := hpost
        refine .returned (fun _ => ⟨rfl, rfl⟩) (hprints.back h) hprints.connections
          hprints.handlers fun db' step' hstep => ?_
        rw [← hprints.running]
        exact hstep
  | returnStep db =>
      obtain ⟨step, hrunning, hm⟩ := Option.map_eq_some_iff.1 hrun
      subst hm
      obtain ⟨hptr, hst⟩ := h.running db step hrunning
      have hm : Harmless s.native.objects
          (step.function.run env columns step.connectionPtr step.statementPtr) :=
        harmless_execute step.function (h.connected hptr) (Or.inr hst)
      refine wp_of_only (wp_returnStep h hrunning fun n hn => Throwing.of_harmless hm hn) ?_
      intro _ s' hpost
      obtain ⟨s₁, hprints, hexecuted⟩ := hpost
      exact .of_returnStep (fun _ => ⟨rfl, rfl⟩) hprints hexecuted

end

/-! ## Runs -/

section

variable {env : NativeEnv} {columns : SqliteColumns} {h : History CallbackSystem CallbackLabel}
  {p q : CallbackSystem} {label : CallbackLabel}

def ValidCall (p : CallbackSystem) (label : CallbackLabel) : Prop :=
  label.Valid p.state.native.objects

theorem CallbackSystem.next_cases (hnext : CallbackSystem.next env columns p label = some q) :
    ∃ m exit, label.run env columns p.state = some m ∧ m p.state = (exit, q.state) ∧
      (exit ≠ .dead → q.alive = true) := by
  unfold CallbackSystem.next at hnext
  split at hnext
  · obtain ⟨m, hrun, hm⟩ := Option.map_eq_some_iff.1 hnext
    subst hm
    cases hexit : m p.state with
    | mk exit s =>
        refine ⟨m, exit, hrun, ?_, fun halive => ?_⟩
        · cases exit with
          | ok a => exact hexit
          | throws e => exact hexit
          | dead => exact hexit
        · cases exit with
          | ok a => rfl
          | throws e => rfl
          | dead => exact absurd rfl halive
  · cases hnext

theorem CallbackSystem.next_step (hsound : p.state.Sound) (hvalid : ValidCall p label)
    (hnext : CallbackSystem.next env columns p label = some q) :
    q.alive = true ∧ CallbackStep p.state q.state label := by
  obtain ⟨m, exit, hrun, hm, halive⟩ := CallbackSystem.next_cases hnext
  have hlabel := wp_label hsound hvalid hrun
  cases exit with
  | ok a => exact ⟨halive (by simp), ok_of_wp hlabel hm⟩
  | throws e => exact ⟨halive (by simp), throws_of_wp hlabel hm⟩
  | dead => exact (dead_of_wp hlabel hm).elim

theorem CallbackState.Sound.start : CallbackSystem.start.state.Sound where
  linked :=
    { pos := Nat.one_pos
      wrapper := fun _ _ h => by cases h
      unique := fun _ _ _ h => by cases h
      stmt := fun _ _ h => by cases h
      handle_lt := fun db h => absurd h (AList.notMem_empty db)
      wrapper_lt := fun _ _ h => by cases h
      stmt_lt := fun _ _ h => by cases h }
  pending := rfl
  registered db _ h := absurd h (AList.notMem_empty db)
  untouched _ _ := rfl
  running _ _ h := by cases h

theorem CallbackState.Sound.of_run (hrun : (CallbackSystem.lts env columns).Run h p)
    (hvalid : h.Obeys ValidCall) : p.alive = true ∧ p.state.Sound := by
  refine hrun.invariant_of_obeys (I := fun p => p.alive = true ∧ p.state.Sound) ?_ ?_ hvalid
  · intro p hp
    cases hp
    exact ⟨rfl, CallbackState.Sound.start⟩
  · intro p label q hinv hvalid hnext
    obtain ⟨halive, hstep⟩ := CallbackSystem.next_step hinv.2 hvalid hnext
    exact ⟨halive, hinv.2.step hstep⟩

def SqliteColumns.answering : SqliteColumns where
  column_count _ := 1
  column_int64 _ := 1
  column_text16 _ := none
  column_name16 _ := none
  lookaside_used _ := none
  expandedSql _ := "INSERT INTO t VALUES (?)"
  elapsed _ := 0

/-- The calls of a statement that is run and canceled, if their pointers live. -/
def validCallTest (q : CallbackSystem × CallbackLabel) : Bool :=
  let n := q.1.state.native
  let connected ptr := (n.wrappers.lookup ptr).any fun db => decide (db ∈ n.handles)
  match q.2 with
  | .nativeOpen .. => true
  | .statement ptr (.nativePrepareStatement _) => connected ptr
  | .nativeCancel ptr | .clearCanceled ptr | .setProgressHandler ptr _ => connected ptr
  | .beginStep step => connected step.connectionPtr &&
      decide ((n.stmts.lookup step.statementPtr).map Stmt.db =
        n.wrappers.lookup step.connectionPtr)
  | _ => false

theorem connected_of_test {n : NativeState} {ptr : Nat}
    (htest : ((n.wrappers.lookup ptr).any fun db => decide (db ∈ n.handles)) = true) :
    ∃ db, n.objects.Connected ptr db := by
  rw [Option.any_eq_true] at htest
  obtain ⟨db, hlookup, hdb⟩ := htest
  have hmem : db ∈ n.handles := of_decide_eq_true hdb
  exact ⟨db, hlookup, hmem⟩

theorem validCall_of_test {q : CallbackSystem × CallbackLabel} (htest : validCallTest q = true) :
    ValidCall q.1 q.2 := by
  obtain ⟨q, label⟩ := q
  cases label with
  | nativeOpen path openFlags name enableTrace enableProfile => exact True.intro
  | statement ptr call =>
      cases call with
      | nativePrepareStatement sql =>
          obtain ⟨db, hconnected⟩ := connected_of_test htest
          exact ⟨db, hconnected, True.intro⟩
      | _ => cases htest
  | nativeCancel ptr => exact connected_of_test htest
  | clearCanceled ptr => exact connected_of_test htest
  | setProgressHandler ptr cancelable => exact connected_of_test htest
  | beginStep step =>
      simp only [validCallTest, Bool.and_eq_true, decide_eq_true_eq] at htest
      obtain ⟨db, hconnected⟩ := connected_of_test htest.1
      exact ⟨db, hconnected, Or.inr (htest.2.trans hconnected.wrapper)⟩
  | _ => cases htest

/-- A statement is run on a traced connection, and canceled. -/
def canceledCalls : List CallbackLabel :=
  [.nativeOpen "native.db" CREATE_IF_NECESSARY "native" true true,
    .statement 2 (.nativePrepareStatement "INSERT INTO t VALUES (?)"), .clearCanceled 2,
    .setProgressHandler 2 true, .beginStep ⟨2, 3, .nativeExecuteForLastInsertedRowId⟩,
    .nativeCancel 2]

theorem exists_canceled : ∃ h p step,
    (CallbackSystem.lts (NativeEnv.answering .ok) SqliteColumns.answering).Run h p ∧
      h.Obeys ValidCall ∧ p.state.running 1 = some step ∧ step.connectionPtr = 2 ∧
      h.latest (CallbackLabel.cancelable 2) false = true ∧
      h.latest (CallbackLabel.canceled 2) false = true ∧
      ∃ q, CallbackSystem.next (NativeEnv.answering .ok) SqliteColumns.answering p
        (.pollProgress 1) = some q := by
  obtain ⟨h, p, hrun, htest⟩ := Lts.exists_run_of_replay CallbackSystem.start
    (CallbackSystem.next (NativeEnv.answering .ok) SqliteColumns.answering) canceledCalls
    (fun h p => h.all validCallTest &&
      (p.state.running 1).any (fun step => step.connectionPtr == 2) &&
      h.latest (CallbackLabel.cancelable 2) false && h.latest (CallbackLabel.canceled 2) false &&
      (CallbackSystem.next (NativeEnv.answering .ok) SqliteColumns.answering p
        (.pollProgress 1)).isSome) (by decide +kernel)
  simp only [Bool.and_eq_true, List.all_eq_true, Option.any_eq_true, beq_iff_eq,
    Option.isSome_iff_exists] at htest
  obtain ⟨⟨⟨⟨hvalid, step, hrunning, hptr⟩, hcancelable⟩, hcanceled⟩, hnext⟩ := htest
  exact ⟨h, p, step, hrun, fun q hq => validCall_of_test (hvalid q hq), hrunning, hptr,
    hcancelable, hcanceled, hnext⟩

/-- The flag and the handler of a connection are what the latest calls made of
them. -/
structure Tracks (h : History CallbackSystem CallbackLabel) (s : CallbackState) : Prop where
  canceled : ∀ ptr db, s.native.objects.wrapper ptr = some db →
    (s.connections ptr).canceled = h.latest (CallbackLabel.canceled ptr) false
  cancelable : ∀ ptr db, s.native.objects.wrapper ptr = some db →
    (s.handlers db).progress.isSome = h.latest (CallbackLabel.cancelable ptr) false
  fresh : ∀ ptr, s.native.objects.next ≤ ptr →
    h.latest (CallbackLabel.canceled ptr) false = false ∧
      h.latest (CallbackLabel.cancelable ptr) false = false

theorem latest_silent {ptr : Nat} (hsilent : label.Silent) :
    History.latest (CallbackLabel.canceled ptr) false (h ++ [(p, label)]) =
        History.latest (CallbackLabel.canceled ptr) false h ∧
      History.latest (CallbackLabel.cancelable ptr) false (h ++ [(p, label)]) =
        History.latest (CallbackLabel.cancelable ptr) false h := by
  rw [History.latest_snoc, History.latest_snoc, (hsilent ptr).1, (hsilent ptr).2]
  exact ⟨rfl, rfl⟩

theorem Tracks.silent {s s' : CallbackState} (ht : Tracks h s) (hsilent : label.Silent)
    (hwrapper : ∀ ptr db, s'.native.objects.wrapper ptr = some db →
      s.native.objects.wrapper ptr = some db)
    (hnext : s.native.objects.next ≤ s'.native.objects.next)
    (hconnections : s'.connections = s.connections) (hhandlers : s'.handlers = s.handlers) :
    Tracks (h ++ [(p, label)]) s' := by
  refine ⟨fun ptr db hptr => ?_, fun ptr db hptr => ?_, fun ptr hfresh => ?_⟩
  · rw [(latest_silent hsilent).1, hconnections]
    exact ht.canceled ptr db (hwrapper ptr db hptr)
  · rw [(latest_silent hsilent).2, hhandlers]
    exact ht.cancelable ptr db (hwrapper ptr db hptr)
  · rw [(latest_silent hsilent).1, (latest_silent hsilent).2]
    exact ht.fresh ptr (Nat.le_trans hnext hfresh)

/-- `canceled` is written, by the one function or the other. -/
theorem canceled_of_flagged {ptr : Nat} {canceled : Bool}
    (hlabel : label = .nativeCancel ptr ∧ canceled = true ∨
      label = .clearCanceled ptr ∧ canceled = false) (ptr' : Nat) :
    label.canceled ptr' = (if ptr = ptr' then some canceled else none) ∧
      label.cancelable ptr' = none := by
  rcases hlabel with ⟨rfl, rfl⟩ | ⟨rfl, rfl⟩
  · exact ⟨rfl, rfl⟩
  · exact ⟨rfl, rfl⟩

theorem Tracks.flagged {s s' : CallbackState} (ht : Tracks h s) (hsound : s.Sound)
    {ptr db : Nat} {canceled : Bool} (hptr : s.native.objects.wrapper ptr = some db)
    (hlabel : label = .nativeCancel ptr ∧ canceled = true ∨
      label = .clearCanceled ptr ∧ canceled = false)
    (hprints : Prints
      (s.withConnection ptr { s.connections ptr with canceled := canceled }) s') :
    Tracks (h ++ [(p, label)]) s' := by
  have hobjects : s'.native.objects = s.native.objects := hprints.objects
  have hhandlers : s'.handlers = s.handlers := hprints.handlers
  have hconnections : s'.connections = Function.update s.connections ptr
      { s.connections ptr with canceled := canceled } := hprints.connections
  have hflags := canceled_of_flagged hlabel
  refine ⟨fun ptr' db' hptr' => ?_, fun ptr' db' hptr' => ?_, fun ptr' hnext => ?_⟩
  · rw [hobjects] at hptr'
    rw [History.latest_snoc, (hflags ptr').1, hconnections]
    by_cases hsame : ptr' = ptr
    · subst hsame
      rw [Function.update_self, if_pos rfl]
      rfl
    · rw [Function.update_of_ne hsame, if_neg (Ne.symm hsame)]
      exact ht.canceled ptr' db' hptr'
  · rw [hobjects] at hptr'
    rw [History.latest_snoc, (hflags ptr').2, hhandlers]
    exact ht.cancelable ptr' db' hptr'
  · rw [hobjects] at hnext
    have hne : ptr ≠ ptr' := by
      have hlt := (hsound.linked.wrapper_lt ptr db hptr).2
      omega
    rw [History.latest_snoc, History.latest_snoc, (hflags ptr').1, (hflags ptr').2, if_neg hne]
    exact ht.fresh ptr' hnext

theorem Tracks.handled {s s' : CallbackState} (ht : Tracks h s) (hsound : s.Sound)
    {ptr db : Nat} {cancelable : Bool} (hptr : s.native.objects.wrapper ptr = some db)
    (hprints : Prints (s.withHandlers db
      { s.handlers db with progress := if cancelable then some ptr else none }) s') :
    Tracks (h ++ [(p, .setProgressHandler ptr cancelable)]) s' := by
  have hobjects : s'.native.objects = s.native.objects := hprints.objects
  have hconnections : s'.connections = s.connections := hprints.connections
  have hhandlers : s'.handlers = Function.update s.handlers db
      { s.handlers db with progress := if cancelable then some ptr else none } :=
    hprints.handlers
  have hcancelable : ∀ ptr', (CallbackLabel.setProgressHandler ptr cancelable).cancelable ptr' =
      if ptr = ptr' then some cancelable else none := fun _ => rfl
  refine ⟨fun ptr' db' hptr' => ?_, fun ptr' db' hptr' => ?_, fun ptr' hnext => ?_⟩
  · rw [hobjects] at hptr'
    rw [History.latest_snoc, hconnections]
    exact ht.canceled ptr' db' hptr'
  · rw [hobjects] at hptr'
    rw [History.latest_snoc, hcancelable, hhandlers]
    by_cases hsame : db' = db
    · subst hsame
      have hone := hsound.linked.unique ptr' ptr db' hptr' hptr
      subst hone
      rw [Function.update_self, if_pos rfl]
      cases cancelable with
      | true => rfl
      | false => rfl
    · have hne : ptr ≠ ptr' := by
        intro heq
        subst heq
        rw [hptr] at hptr'
        exact hsame (Option.some_inj.1 hptr').symm
      rw [Function.update_of_ne hsame, if_neg hne]
      exact ht.cancelable ptr' db' hptr'
  · rw [hobjects] at hnext
    have hne : ptr ≠ ptr' := by
      have hlt := (hsound.linked.wrapper_lt ptr db hptr).2
      omega
    rw [History.latest_snoc, History.latest_snoc, hcancelable, if_neg hne]
    exact ht.fresh ptr' hnext

theorem Tracks.opened {s : CallbackState} (ht : Tracks h s) (hsound : s.Sound)
    (hsilent : label.Silent) {n : NativeState} {ptr db : Nat} {connection : SQLiteConnection}
    {handlers : Handlers} (hdb : s.native.objects.next ≤ db) (hptr : db < ptr)
    (hobjects : n.objects = s.native.objects.addConnection db ptr)
    (hcanceled : connection.canceled = false) (hprogress : handlers.progress = none) :
    Tracks (h ++ [(p, label)])
      ((CallbackState.withConnection { s with native := n } ptr connection).withHandlers
        db handlers) := by
  have hfresh := ht.fresh ptr (by omega)
  have hwrapper : ∀ ptr' db', n.objects.wrapper ptr' = some db' →
      ptr' = ptr ∧ db' = db ∨
        ptr' ≠ ptr ∧ db' ≠ db ∧ s.native.objects.wrapper ptr' = some db' := by
    intro ptr' db' h
    rw [hobjects] at h
    rcases NativeObjects.update_eq_some.1 h with ⟨rfl, hnew⟩ | ⟨hne, hold⟩
    · exact Or.inl ⟨rfl, (Option.some_inj.1 hnew).symm⟩
    · have hlt := hsound.linked.handle_lt _ (hsound.linked.wrapper ptr' db' hold)
      exact Or.inr ⟨hne, by omega, hold⟩
  refine ⟨fun ptr' db' hptr' => ?_, fun ptr' db' hptr' => ?_, fun ptr' hnext => ?_⟩
  · rw [(latest_silent hsilent).1]
    rcases hwrapper ptr' db' hptr' with ⟨rfl, rfl⟩ | ⟨hne, _, hold⟩
    · rw [hfresh.1, ← hcanceled]
      exact congrArg SQLiteConnection.canceled (Function.update_self _ _ _)
    · rw [← ht.canceled ptr' db' hold]
      exact congrArg SQLiteConnection.canceled (Function.update_of_ne hne _ _)
  · rw [(latest_silent hsilent).2]
    rcases hwrapper ptr' db' hptr' with ⟨rfl, rfl⟩ | ⟨_, hne, hold⟩
    · rw [hfresh.2]
      show (Function.update s.handlers db' handlers db').progress.isSome = false
      rw [Function.update_self, hprogress]
      rfl
    · rw [← ht.cancelable ptr' db' hold]
      show (Function.update s.handlers db handlers db').progress.isSome = _
      rw [Function.update_of_ne hne]
  · rw [(latest_silent hsilent).1, (latest_silent hsilent).2]
    have hle : ptr + 1 ≤ ptr' := by
      have hnext' : n.objects.next ≤ ptr' := hnext
      rw [hobjects] at hnext'
      exact hnext'
    exact ht.fresh ptr' (by omega)

theorem Tracks.step {s s' : CallbackState} (ht : Tracks h s) (hsound : s.Sound)
    (hstep : CallbackStep s s' label) : Tracks (h ++ [(p, label)]) s' := by
  cases hstep with
  | returned hsilent hback hconnections hhandlers _ =>
      exact ht.silent hsilent (fun _ _ => hback.step.wrapper_old) hback.step.next_le hconnections
        hhandlers
  | opened hsilent hdb hptr hobjects _ hcanceled hprogress _ hs' =>
      rw [hs']
      exact ht.opened hsound hsilent hdb hptr hobjects hcanceled hprogress
  | flagged hptr hlabel hprints => exact ht.flagged hsound hptr hlabel hprints
  | handled hptr hprints => exact ht.handled hsound hptr hprints
  | begun hptr hst hprints =>
      have hobjects : s'.native.objects = s.native.objects := hprints.objects
      refine ht.silent (fun _ => ⟨rfl, rfl⟩) (fun ptr db h => ?_) ?_ hprints.connections
        hprints.handlers
      · rw [← hobjects]
        exact h
      · rw [hobjects]

theorem Tracks.of_run (hrun : (CallbackSystem.lts env columns).Run h p)
    (hvalid : h.Obeys ValidCall) : Tracks h p.state := by
  refine Lts.Run.history_invariant (I := fun h p => h.Obeys ValidCall → Tracks h p.state)
    ?_ ?_ hrun hvalid
  · intro p hp _
    cases hp
    refine ⟨fun _ _ hptr => ?_, fun _ _ hptr => ?_, fun _ _ => ⟨rfl, rfl⟩⟩
    · cases hptr
    · cases hptr
  · intro h p label q hrun ih hnext hvalid
    obtain ⟨hbefore, hlast⟩ := History.obeys_snoc.1 hvalid
    have hsound := (CallbackState.Sound.of_run hrun hbefore).2
    exact (ih hbefore).step hsound (CallbackSystem.next_step hsound hlast hnext).2

end

end OrmBenchmark.Ref
