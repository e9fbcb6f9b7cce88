import OrmBenchmark.Lib.Returning
import OrmBenchmark.Proofs.NativeResults
import OrmBenchmark.Ref.NativeCallbacks

/-!
# The objects of the native layer, and who refers to whom

A wrapper refers to its handle and so does a statement. What every native
function does to the objects is one of a few things: nothing; a handle that no
wrapper takes; a handle and its wrapper made, or taken away; a statement made,
or taken away. With arguments that live none of them dies, and each keeps it
true that whoever refers to a handle refers to one that lives.
-/

namespace OrmBenchmark.Ref

open OrmBenchmark.Lib OrmBenchmark.Lib.Prog

/-- What lives, without what it holds. -/
structure NativeObjects where
  handle : Nat → Prop
  /-- the handle of a wrapper, of a statement -/
  wrapper : Nat → Option Nat
  stmt : Nat → Option Nat
  next : Nat

def NativeState.objects (s : NativeState) : NativeObjects where
  handle db := db ∈ s.handles
  wrapper := s.wrappers.lookup
  stmt st := (s.stmts.lookup st).map Stmt.db
  next := s.next

namespace NativeObjects

/-- No reference dangles, a handle has one wrapper, and numbers not given out
yet name nothing. -/
structure Linked (o : NativeObjects) : Prop where
  pos : 0 < o.next
  wrapper : ∀ ptr db, o.wrapper ptr = some db → o.handle db
  unique : ∀ ptr ptr' db, o.wrapper ptr = some db → o.wrapper ptr' = some db → ptr = ptr'
  stmt : ∀ st db, o.stmt st = some db → o.handle db
  handle_lt : ∀ db, o.handle db → db < o.next
  wrapper_lt : ∀ ptr db, o.wrapper ptr = some db → ptr ≠ 0 ∧ ptr < o.next
  stmt_lt : ∀ st db, o.stmt st = some db → st ≠ 0 ∧ st < o.next

def addConnection (o : NativeObjects) (db ptr : Nat) : NativeObjects :=
  { o with
    handle := fun x => x = db ∨ o.handle x
    wrapper := Function.update o.wrapper ptr (some db)
    next := ptr + 1 }

def removeConnection (o : NativeObjects) (db ptr : Nat) : NativeObjects :=
  { o with
    handle := fun x => x ≠ db ∧ o.handle x
    wrapper := Function.update o.wrapper ptr none }

def addStmt (o : NativeObjects) (db : Nat) : NativeObjects :=
  { o with stmt := Function.update o.stmt o.next (some db), next := o.next + 1 }

def removeStmt (o : NativeObjects) (st : Nat) : NativeObjects :=
  { o with stmt := Function.update o.stmt st none }

def addHandle (o : NativeObjects) : NativeObjects :=
  { o with handle := fun x => x = o.next ∨ o.handle x, next := o.next + 1 }

def removeHandle (o : NativeObjects) (db : Nat) : NativeObjects :=
  { o with handle := fun x => x ≠ db ∧ o.handle x }

/-- A failed open left a handle, or closed it again. -/
structure FailedOpen (o o' : NativeObjects) : Prop where
  wrapper : o'.wrapper = o.wrapper
  stmt : o'.stmt = o.stmt
  keeps : ∀ db, o.handle db → o'.handle db
  new : ∀ db, o'.handle db → o.handle db ∨ o.next ≤ db ∧ db < o'.next
  next : o.next ≤ o'.next

/-- What one native function may do. A statement is finalized only by who has
the mutex of its handle; `opens` is for `nativeOpen` alone. -/
inductive Step (o : NativeObjects) (free : Nat → Prop) (opens : Prop) : NativeObjects → Prop
  | same : Step o free opens o
  | failedOpen {o' : NativeObjects} : o.FailedOpen o' → Step o free opens o'
  | opened {db ptr : Nat} : opens → o.next ≤ db → db < ptr →
      Step o free opens (o.addConnection db ptr)
  | closed {db ptr : Nat} : o.wrapper ptr = some db → (∀ st, o.stmt st ≠ some db) →
      Step o free opens (o.removeConnection db ptr)
  | prepared {db : Nat} : o.handle db → Step o free opens (o.addStmt db)
  | finalized {st : Nat} : (∀ db, o.stmt st = some db → free db) →
      Step o free opens (o.removeStmt st)

variable {o o' : NativeObjects} {free : Nat → Prop} {opens : Prop}

theorem update_eq_some {f : Nat → Option Nat} {a x b : Nat} {v : Option Nat} :
    Function.update f a v x = some b ↔ x = a ∧ v = some b ∨ x ≠ a ∧ f x = some b := by
  by_cases h : x = a
  · subst h
    simp
  · simp [h]

theorem Step.of_eq {o₁ : NativeObjects} (h : o.Step free opens o₁) (heq : o' = o₁) :
    o.Step free opens o' := by
  rw [heq]
  exact h

theorem Linked.failedOpen (h : o.Linked) (hfailed : o.FailedOpen o') : o'.Linked := by
  obtain ⟨hpos, hwrapper, hunique, hstmt, hhandleLt, hwrapperLt, hstmtLt⟩ := h
  obtain ⟨hsameWrapper, hsameStmt, hkeep, hnew, hnext⟩ := hfailed
  rw [← hsameWrapper] at hwrapper hunique hwrapperLt
  rw [← hsameStmt] at hstmt hstmtLt
  refine ⟨by omega, fun ptr db h => hkeep db (hwrapper ptr db h), hunique,
    fun st db h => hkeep db (hstmt st db h), fun db h => ?_, fun ptr db h => ?_,
    fun st db h => ?_⟩
  · rcases hnew db h with h | h
    · exact Nat.lt_of_lt_of_le (hhandleLt db h) hnext
    · exact h.2
  · exact ⟨(hwrapperLt ptr db h).1, Nat.lt_of_lt_of_le (hwrapperLt ptr db h).2 hnext⟩
  · exact ⟨(hstmtLt st db h).1, Nat.lt_of_lt_of_le (hstmtLt st db h).2 hnext⟩

theorem Linked.addConnection {db ptr : Nat} (h : o.Linked) (hdb : o.next ≤ db)
    (hptr : db < ptr) : (o.addConnection db ptr).Linked := by
  obtain ⟨hpos, hwrapper, hunique, hstmt, hhandleLt, hwrapperLt, hstmtLt⟩ := h
  -- the new handle is larger than all that was referred to before
  have hfresh : ∀ ptr', o.wrapper ptr' ≠ some db := by
    intro ptr' h
    have := hhandleLt db (hwrapper ptr' db h)
    omega
  refine ⟨Nat.succ_pos ptr, ?_, ?_, fun st db' h => Or.inr (hstmt st db' h), ?_, ?_, ?_⟩
  · intro ptr' db' h
    rcases update_eq_some.1 h with ⟨_, h⟩ | ⟨_, h⟩
    · exact Or.inl (Option.some_inj.1 h).symm
    · exact Or.inr (hwrapper ptr' db' h)
  · intro ptr₁ ptr₂ db' h₁ h₂
    rcases update_eq_some.1 h₁ with ⟨rfl, hnew₁⟩ | ⟨_, hold₁⟩
    · rcases update_eq_some.1 h₂ with ⟨rfl, _⟩ | ⟨_, hold₂⟩
      · rfl
      · rw [← hnew₁] at hold₂
        exact absurd hold₂ (hfresh ptr₂)
    · rcases update_eq_some.1 h₂ with ⟨rfl, hnew₂⟩ | ⟨_, hold₂⟩
      · rw [← hnew₂] at hold₁
        exact absurd hold₁ (hfresh ptr₁)
      · exact hunique ptr₁ ptr₂ db' hold₁ hold₂
  · intro db' h
    rcases h with rfl | h
    · show db' < ptr + 1
      omega
    · have := hhandleLt db' h
      show db' < ptr + 1
      omega
  · intro ptr' db' h
    show ptr' ≠ 0 ∧ ptr' < ptr + 1
    rcases update_eq_some.1 h with ⟨rfl, _⟩ | ⟨_, h⟩
    · omega
    · have := hwrapperLt ptr' db' h
      omega
  · intro st db' h
    have := hstmtLt st db' h
    show st ≠ 0 ∧ st < ptr + 1
    omega

theorem Linked.removeConnection {db ptr : Nat} (h : o.Linked) (hptr : o.wrapper ptr = some db)
    (hnone : ∀ st, o.stmt st ≠ some db) : (o.removeConnection db ptr).Linked := by
  obtain ⟨hpos, hwrapper, hunique, hstmt, hhandleLt, hwrapperLt, hstmtLt⟩ := h
  refine ⟨hpos, ?_, ?_, ?_, fun db' h => hhandleLt db' h.2, ?_, hstmtLt⟩
  · intro ptr' db' h
    rcases update_eq_some.1 h with ⟨_, hgone⟩ | ⟨hne, hold⟩
    · cases hgone
    · refine ⟨?_, hwrapper ptr' db' hold⟩
      intro heq
      subst heq
      exact hne (hunique ptr' ptr db' hold hptr)
  · intro ptr₁ ptr₂ db' h₁ h₂
    rcases update_eq_some.1 h₁ with ⟨_, h₁⟩ | ⟨_, h₁⟩
    · cases h₁
    · rcases update_eq_some.1 h₂ with ⟨_, h₂⟩ | ⟨_, h₂⟩
      · cases h₂
      · exact hunique ptr₁ ptr₂ db' h₁ h₂
  · intro st db' h
    refine ⟨?_, hstmt st db' h⟩
    intro heq
    subst heq
    exact hnone st h
  · intro ptr' db' h
    rcases update_eq_some.1 h with ⟨_, h⟩ | ⟨_, h⟩
    · cases h
    · exact hwrapperLt ptr' db' h

theorem Linked.addStmt {db : Nat} (h : o.Linked) (hdb : o.handle db) : (o.addStmt db).Linked := by
  obtain ⟨hpos, hwrapper, hunique, hstmt, hhandleLt, hwrapperLt, hstmtLt⟩ := h
  refine ⟨Nat.succ_pos _, hwrapper, hunique, ?_, ?_, ?_, ?_⟩
  · intro st db' h
    rcases update_eq_some.1 h with ⟨_, h⟩ | ⟨_, h⟩
    · cases h
      exact hdb
    · exact hstmt st db' h
  · intro db' h
    exact Nat.lt_succ_of_lt (hhandleLt db' h)
  · intro ptr db' h
    exact ⟨(hwrapperLt ptr db' h).1, Nat.lt_succ_of_lt (hwrapperLt ptr db' h).2⟩
  · intro st db' h
    rcases update_eq_some.1 h with ⟨rfl, _⟩ | ⟨_, h⟩
    · exact ⟨by omega, Nat.lt_succ_self _⟩
    · exact ⟨(hstmtLt st db' h).1, Nat.lt_succ_of_lt (hstmtLt st db' h).2⟩

theorem Linked.removeStmt {st : Nat} (h : o.Linked) : (o.removeStmt st).Linked := by
  refine ⟨h.pos, h.wrapper, h.unique, ?_, h.handle_lt, h.wrapper_lt, ?_⟩
  · intro st' db hst
    rcases update_eq_some.1 hst with ⟨_, hst⟩ | ⟨_, hst⟩
    · cases hst
    · exact h.stmt st' db hst
  · intro st' db hst
    rcases update_eq_some.1 hst with ⟨_, hst⟩ | ⟨_, hst⟩
    · cases hst
    · exact h.stmt_lt st' db hst

theorem Linked.step (h : o.Linked) (hstep : o.Step free opens o') : o'.Linked := by
  cases hstep with
  | same => exact h
  | failedOpen hfailed => exact h.failedOpen hfailed
  | opened _ hdb hptr => exact h.addConnection hdb hptr
  | closed hptr hnone => exact h.removeConnection hptr hnone
  | prepared hdb => exact h.addStmt hdb
  | finalized _ => exact h.removeStmt

/-! ### What a step leaves -/

theorem Step.next_le (hstep : o.Step free opens o') : o.next ≤ o'.next := by
  cases hstep with
  | same => exact Nat.le_refl _
  | failedOpen h => exact h.next
  | @opened db ptr _ hdb hptr =>
      show o.next ≤ ptr + 1
      omega
  | closed _ _ => exact Nat.le_refl _
  | prepared _ => exact Nat.le_succ _
  | finalized _ => exact Nat.le_refl _

theorem Step.handle_new {db : Nat} (hstep : o.Step free opens o') (hdb : o'.handle db) :
    o.handle db ∨ o.next ≤ db := by
  cases hstep with
  | same => exact Or.inl hdb
  | failedOpen h => exact (h.new db hdb).imp_right And.left
  | opened _ hnew _ =>
      rcases hdb with rfl | hdb
      · exact Or.inr hnew
      · exact Or.inl hdb
  | closed _ _ => exact Or.inl hdb.2
  | prepared _ => exact Or.inl hdb
  | finalized _ => exact Or.inl hdb

/-- Only `nativeOpen` makes a wrapper. -/
theorem Step.wrapper_old {ptr db : Nat} (hstep : o.Step free False o')
    (hptr : o'.wrapper ptr = some db) : o.wrapper ptr = some db := by
  cases hstep with
  | same => exact hptr
  | failedOpen h =>
      rw [h.wrapper] at hptr
      exact hptr
  | opened hopens _ _ => exact hopens.elim
  | closed _ _ =>
      rcases update_eq_some.1 hptr with ⟨_, hgone⟩ | ⟨_, hold⟩
      · cases hgone
      · exact hold
  | prepared _ => exact hptr
  | finalized _ => exact hptr

/-- A wrapper stays as long as its handle does, which it does if a statement
refers to it. -/
theorem Step.wrapper_kept {ptr db : Nat} (hlinked : o.Linked) (hstep : o.Step free opens o')
    (hptr : o.wrapper ptr = some db) (h : o'.handle db ∨ ∃ st, o.stmt st = some db) :
    o'.wrapper ptr = some db := by
  cases hstep with
  | same => exact hptr
  | failedOpen hfailed => rw [hfailed.wrapper, hptr]
  | opened _ hnew hlt =>
      refine update_eq_some.2 (Or.inr ⟨?_, hptr⟩)
      have := (hlinked.wrapper_lt ptr db hptr).2
      omega
  | @closed db' ptr' hptr' hnone =>
      refine update_eq_some.2 (Or.inr ⟨?_, hptr⟩)
      intro heq
      subst heq
      rw [hptr] at hptr'
      cases hptr'
      rcases h with h | ⟨st, hst⟩
      · exact h.1 rfl
      · exact hnone st hst
  | prepared _ => exact hptr
  | finalized _ => exact hptr

/-- A statement stays while its handle is in use. -/
theorem Step.stmt_kept {st db : Nat} (hlinked : o.Linked) (hstep : o.Step free opens o')
    (hst : o.stmt st = some db) (hbusy : ¬ free db) : o'.stmt st = some db := by
  cases hstep with
  | same => exact hst
  | failedOpen h => rw [h.stmt, hst]
  | opened _ _ _ => exact hst
  | closed _ _ => exact hst
  | prepared _ =>
      refine update_eq_some.2 (Or.inr ⟨?_, hst⟩)
      have := (hlinked.stmt_lt st db hst).2
      omega
  | @finalized st' hfree =>
      refine update_eq_some.2 (Or.inr ⟨?_, hst⟩)
      intro heq
      subst heq
      exact hbusy (hfree db hst)

/-! ### Arguments -/

/-- A connection argument and the handle it stands for. -/
structure Connected (o : NativeObjects) (ptr db : Nat) : Prop where
  wrapper : o.wrapper ptr = some db
  handle : o.handle db

/-- A statement argument: null, or a statement of the handle. -/
def MayPass (o : NativeObjects) (db st : Nat) : Prop := st = 0 ∨ o.stmt st = some db

end NativeObjects

theorem lookup_insert_eq {β : Type} (m : AList fun _ : Nat => β) (key : Nat) (value : β) :
    (fun x => (m.insert key value).lookup x) =
      Function.update (fun x => m.lookup x) key (some value) := by
  funext x
  by_cases hx : x = key
  · subst hx
    rw [AList.lookup_insert, Function.update_self]
  · rw [AList.lookup_insert_ne hx, Function.update_of_ne hx]

theorem lookup_erase_eq {β : Type} (m : AList fun _ : Nat => β) (key : Nat) :
    (fun x => (m.erase key).lookup x) = Function.update (fun x => m.lookup x) key none := by
  funext x
  by_cases hx : x = key
  · subst hx
    rw [AList.lookup_erase, Function.update_self]
  · rw [AList.lookup_erase_ne hx, Function.update_of_ne hx]

/-! ## Functions that leave the objects as they are -/

/-- The function returns, and the same objects live. -/
def Harmless {α : Type} (o : NativeObjects) (m : NativeProg α) : Prop :=
  Returns (fun s : NativeState => s.objects = o) m

section Harmless

variable {α β : Type} {o : NativeObjects} {db ptr st : Nat} {env : NativeEnv}
  {columns : SqliteColumns}

theorem harmless_modifyState {f : NativeState → NativeState}
    (hf : ∀ s, (f s).objects = s.objects) :
    Harmless o (Prog.modifyState f : NativeProg Unit) :=
  returns_modifyState fun s h => (hf s).trans h

theorem harmless_record' {event : NativeEvent} : Harmless o (record' event) :=
  harmless_modifyState fun _ => rfl

theorem harmless_nextCall : Harmless o nextCall := fun _ h => h

theorem harmless_withHandle {f : Counters → NativeProg α} (hdb : o.handle db)
    (hf : ∀ counters, Harmless o (f counters)) : Harmless o (withHandle db f) := by
  intro s h
  subst h
  exact wp_liveHandle hdb fun counters => hf counters s rfl

/-- A call on a handle that only answers. -/
theorem harmless_answer {answer : Nat → α} (hdb : o.handle db) :
    Harmless o (withHandle db fun _ => do
      let call ← nextCall
      pure (answer call)) :=
  harmless_withHandle hdb fun _ => returns_bind harmless_nextCall fun _ => returns_pure

theorem harmless_withStmt {onNull : α} {f : Stmt → NativeProg α} (hst : o.MayPass db st)
    (hf : ∀ stmt, o.stmt st = some db → stmt.db = db → Harmless o (f stmt)) :
    Harmless o (withStmt st onNull f) := by
  intro s h
  subst h
  refine wp_withStmt (fun _ => rfl) (fun stmt hne hlookup => ?_) fun hne hnone => ?_
  · have hdb := hst.resolve_left hne
    have hstmt : stmt.db = db := by simpa [NativeState.objects, hlookup] using hdb
    exact hf stmt hdb hstmt s rfl
  · have hdb := hst.resolve_left hne
    simp [NativeState.objects, hnone] at hdb

/-- The connection is live, and goes on as its handle. -/
theorem harmless_connectionDb {f : Nat → NativeProg α} (hptr : o.wrapper ptr = some db)
    (hf : Harmless o (f db)) : Harmless o (connectionDb ptr >>= f) := by
  intro s h
  subst h
  rw [wp_bind]
  exact wp_liveConnection hptr (hf _ rfl)

theorem harmless_jniThrowException {e : Throwable} : Harmless o (jniThrowException e) :=
  returns_bind (harmless_modifyState fun _ => rfl) fun _ => harmless_record'

theorem harmless_throw {message : Option String} (hdb : o.handle db) :
    Harmless o (throw_sqlite3_exception env.lib db message) :=
  harmless_withHandle hdb fun _ =>
    returns_bind harmless_nextCall fun _ => harmless_jniThrowException

theorem harmless_throwUnlessOk {err : Nat} (h : o.Connected ptr db) :
    Harmless o (throwUnlessOk env ptr err) :=
  returns_ite (harmless_connectionDb h.wrapper (harmless_throw h.handle)) returns_pure

/-- What is stored under the key of a statement may change, but not its handle. -/
theorem harmless_insertStmt {stmt : Stmt} (hst : o.stmt st = some db) (hdb : stmt.db = db) :
    Harmless o (Prog.modifyState fun s => { s with stmts := s.stmts.insert st stmt }
      : NativeProg Unit) := by
  refine returns_modifyState fun s h => ?_
  subst h
  simp only [NativeState.objects, NativeObjects.mk.injEq, true_and, and_true]
  funext x
  by_cases hx : x = st
  · subst hx
    rw [AList.lookup_insert, Option.map_some, hdb]
    exact hst.symm
  · rw [AList.lookup_insert_ne hx]

/-- … and so what is counted for a handle. -/
theorem harmless_insertHandle {counters : Counters} (hdb : o.handle db) :
    Harmless o (Prog.modifyState fun s => { s with handles := s.handles.insert db counters }
      : NativeProg Unit) := by
  refine returns_modifyState fun s h => ?_
  subst h
  simp only [NativeState.objects, NativeObjects.mk.injEq, and_true]
  funext x
  rw [AList.mem_insert]
  refine propext ⟨fun hx => hx.elim (fun heq => ?_) id, Or.inr⟩
  rw [heq]
  exact hdb

theorem harmless_sqlite3_bind {index : Nat} {image : BindImage} (hst : o.MayPass db st) :
    Harmless o (sqlite3_bind env.lib st index image) := by
  refine harmless_withStmt hst fun stmt hlive hdb => ?_
  refine returns_bind harmless_nextCall fun call => ?_
  refine returns_bind harmless_record' fun _ => ?_
  refine returns_ite (returns_bind ?_ fun _ => returns_pure) returns_pure
  exact harmless_insertStmt hlive hdb

theorem harmless_sqlite3_step (hst : o.MayPass db st) (hdb : o.handle db) :
    Harmless o (sqlite3_step env.lib st) := by
  refine harmless_withStmt hst fun stmt _ hstmt => ?_
  refine returns_bind harmless_nextCall fun call => ?_
  subst hstmt
  refine harmless_withHandle hdb fun counters => ?_
  refine returns_bind harmless_record' fun _ => ?_
  exact returns_bind (harmless_insertHandle hdb) fun _ => returns_pure

theorem harmless_sqlite3_reset (hst : o.MayPass db st) : Harmless o (sqlite3_reset env.lib st) := by
  refine harmless_withStmt hst fun _ _ _ => ?_
  exact returns_bind harmless_nextCall fun _ => returns_bind harmless_record' fun _ => returns_pure

theorem harmless_sqlite3_clear_bindings (hst : o.MayPass db st) :
    Harmless o (sqlite3_clear_bindings env.lib st) := by
  refine harmless_withStmt hst fun stmt hlive hdb => ?_
  refine returns_bind harmless_nextCall fun call => ?_
  exact returns_bind (harmless_insertStmt hlive hdb) fun _ => returns_pure

theorem harmless_bindImage {index : Nat} {image : BindImage} (h : o.Connected ptr db)
    (hst : o.MayPass db st) :
    Harmless o (sqlite3_bind env.lib st index image >>= throwUnlessOk env ptr) :=
  returns_bind (harmless_sqlite3_bind hst) fun _ => harmless_throwUnlessOk h

theorem harmless_nativeReset (h : o.Connected ptr db) (hst : o.MayPass db st) :
    Harmless o (nativeResetStatementAndClearBindings env ptr st) := by
  refine returns_bind (harmless_sqlite3_reset hst) fun err => ?_
  refine returns_ite (returns_bind (harmless_sqlite3_clear_bindings hst) fun _ => ?_) ?_
  · exact harmless_throwUnlessOk h
  · exact harmless_throwUnlessOk h

theorem harmless_executeNonQuery (h : o.Connected ptr db) (hst : o.MayPass db st) :
    Harmless o (executeNonQuery env ptr st) := by
  refine returns_bind (harmless_sqlite3_step hst h.handle) fun err => ?_
  refine returns_ite (returns_bind harmless_jniThrowException fun _ => returns_pure) ?_
  refine returns_ite (harmless_connectionDb h.wrapper ?_) returns_pure
  exact returns_bind (harmless_throw h.handle) fun _ => returns_pure

theorem harmless_executeOneRowQuery (h : o.Connected ptr db) (hst : o.MayPass db st) :
    Harmless o (executeOneRowQuery env ptr st) := by
  refine returns_bind (harmless_sqlite3_step hst h.handle) fun err => ?_
  refine returns_ite (harmless_connectionDb h.wrapper ?_) returns_pure
  exact returns_bind (harmless_throw h.handle) fun _ => returns_pure

theorem harmless_columnCall {onNull : α} {answer : Nat → α} (hst : o.MayPass db st) :
    Harmless o (columnCall st onNull answer) :=
  harmless_withStmt hst fun _ _ _ => returns_bind harmless_nextCall fun _ => returns_pure

theorem harmless_changedRowCount (h : o.Connected ptr db) (hst : o.MayPass db st) :
    Harmless o (nativeExecuteForChangedRowCount env ptr st) := by
  refine returns_bind (harmless_executeNonQuery h hst) fun _ => ?_
  refine returns_ite (harmless_connectionDb h.wrapper ?_) returns_pure
  exact harmless_withHandle h.handle fun _ => returns_pure

theorem harmless_lastInsertedRowId (h : o.Connected ptr db) (hst : o.MayPass db st) :
    Harmless o (nativeExecuteForLastInsertedRowId env ptr st) := by
  refine returns_bind (harmless_executeNonQuery h hst) fun _ => ?_
  refine returns_ite (harmless_connectionDb h.wrapper ?_) returns_pure
  refine returns_bind (harmless_withHandle h.handle fun _ => returns_pure) fun _ => ?_
  exact returns_ite (harmless_withHandle h.handle fun _ => returns_pure) returns_pure

/-- Whatever statement function is called, with arguments that live. -/
theorem harmless_execute (function : ExecuteFunction) (h : o.Connected ptr db)
    (hst : o.MayPass db st) : Harmless o (function.run env columns ptr st) := by
  cases function with
  | nativeExecute => exact returns_bind (harmless_executeNonQuery h hst) fun _ => returns_pure
  | nativeExecuteForChangedRowCount =>
      exact returns_bind (harmless_changedRowCount h hst) fun _ => returns_pure
  | nativeExecuteForLastInsertedRowId =>
      exact returns_bind (harmless_lastInsertedRowId h hst) fun _ => returns_pure
  | nativeExecuteForLong =>
      refine returns_bind (returns_bind (harmless_executeOneRowQuery h hst) fun _ => ?_)
        fun _ => returns_pure
      refine returns_ite (returns_bind (harmless_columnCall hst) fun _ => ?_) returns_pure
      exact returns_ite (harmless_columnCall hst) returns_pure
  | nativeExecuteForString =>
      refine returns_bind (returns_bind (harmless_executeOneRowQuery h hst) fun _ => ?_)
        fun _ => returns_pure
      refine returns_ite (returns_bind (harmless_columnCall hst) fun _ => ?_) returns_pure
      exact returns_ite (harmless_columnCall hst) returns_pure

end Harmless

/-! ## Arguments that live -/

/-- Null or of this handle, and not null where the library does not look. -/
def StatementCall.Valid (o : NativeObjects) (db : Nat) : StatementCall → Prop
  | .nativePrepareStatement _ => True
  | .nativeBindNull st _ | .nativeBindLong st _ _ | .nativeBindDouble st _ _
  | .nativeBindBlob st _ _ | .nativeExecute st | .nativeExecuteForChangedRowCount st
  | .nativeExecuteForLastInsertedRowId st | .nativeFinalizeStatement st => o.MayPass db st
  | .nativeBindString st _ value => o.MayPass db st ∧ value.isSome
  | .nativeResetStatementAndClearBindings st => o.stmt st = some db

def QueryFunction.Valid (o : NativeObjects) : QueryFunction → Prop
  | .nativeGetParameterCount st | .nativeIsReadOnly st | .nativeGetColumnCount st =>
      ∃ db, o.MayPass db st
  | .nativeGetColumnName st => st ≠ 0 ∧ ∃ db, o.stmt st = some db
  | .nativeGetDbLookaside ptr => ∃ db, o.Connected ptr db

/-- The function returns, and does one thing to the objects. -/
def Performs {α : Type} (o : NativeObjects) (free : Nat → Prop) (m : NativeProg α) : Prop :=
  ∀ s, s.objects = o → m.wp (Post.only fun _ s' => o.Step free False s'.objects) s

section Performs

variable {α : Type} {o : NativeObjects} {free : Nat → Prop} {db ptr st : Nat} {env : NativeEnv}
  {columns : SqliteColumns} {m : NativeProg α}

theorem Harmless.performs (h : Harmless o m) : Performs o free m := fun s hs =>
  wp_of_only (h s hs) fun _ _ hs' => NativeObjects.Step.same.of_eq hs'

theorem performs_prepare {sql : String} (h : o.Connected ptr db) :
    Performs o free (nativePrepareStatement env ptr sql) := by
  intro s hs
  subst hs
  simp only [nativePrepareStatement, wp_bind]
  refine wp_liveConnection h.wrapper ?_
  simp only [wp_bind, sqlite3_prepare16_v2]
  refine wp_liveHandle h.handle fun _ => ?_
  simp only [wp_bind, wp_nextCall]
  split
  · next err herr =>
      have hthrow : Harmless s.objects
          (throw_sqlite3_exception env.lib db (some (", while compiling: " ++ sql))) :=
        harmless_throw h.handle
      simp only [wp_pure, ne_eq, err.2, not_false_eq_true, if_true, wp_bind]
      exact wp_of_only (hthrow _ rfl) fun _ _ hs' => NativeObjects.Step.same.of_eq hs'
  · exact .same
  · next parameters readOnly _ =>
      simp only [wp_bind, wp_allocate, wp_modifyState, wp_record', wp_pure, ne_eq,
        not_true_eq_false, if_false]
      refine NativeObjects.Step.of_eq (.prepared h.handle) ?_
      simp only [NativeState.objects, NativeObjects.addStmt, NativeObjects.mk.injEq, true_and,
        and_true]
      funext x
      by_cases hx : x = s.next
      · subst hx
        rw [AList.lookup_insert, Function.update_self]
        rfl
      · rw [AList.lookup_insert_ne hx, Function.update_of_ne hx]

theorem performs_finalize (h : o.Connected ptr db) (hfree : free db)
    (hst : o.MayPass db st) : Performs o free (nativeFinalizeStatement ptr st) := by
  intro s hs
  subst hs
  simp only [nativeFinalizeStatement, wp_bind]
  refine wp_liveConnection h.wrapper ?_
  simp only [wp_bind, sqlite3_finalize, wp_getState]
  by_cases hzero : st = 0
  · rw [if_pos hzero]
    exact .same
  · rw [if_neg hzero]
    have hlive := hst.resolve_left hzero
    obtain ⟨stmt, hlookup, _⟩ := Option.map_eq_some_iff.1 hlive
    simp only [hlookup, wp_bind, wp_modifyState, wp_record']
    have hmine : ∀ db', s.objects.stmt st = some db' → free db' := by
      intro db' hdb'
      rw [hlive] at hdb'
      cases hdb'
      exact hfree
    refine NativeObjects.Step.of_eq (.finalized hmine) ?_
    simp only [NativeState.objects, NativeObjects.removeStmt, NativeObjects.mk.injEq, true_and,
      and_true]
    funext x
    by_cases hx : x = st
    · subst hx
      rw [AList.lookup_erase, Function.update_self]
      rfl
    · rw [AList.lookup_erase_ne hx, Function.update_of_ne hx]

/-- A handle without unfinalized statements is one no statement refers to. -/
theorem stmt_ne_of_unfinalized {s : NativeState} (h : s.unfinalized db = 0) :
    s.objects.stmt st ≠ some db := by
  intro hst
  obtain ⟨stmt, hlookup, hdb⟩ := Option.map_eq_some_iff.1 hst
  have hmem : (⟨st, stmt⟩ : (_ : Nat) × Stmt) ∈ s.stmts.entries :=
    AList.mem_lookup_iff.1 hlookup
  rw [NativeState.unfinalized, List.length_eq_zero_iff, List.filter_eq_nil_iff] at h
  exact h _ hmem (by simpa using hdb)

theorem wp_close_objects {s : NativeState} (hdb : s.objects.handle db) :
    (sqlite3_close env.lib db).wp (Post.only fun err s' =>
      err ≠ SQLITE_OK ∧ s'.objects = s.objects ∨
        err = SQLITE_OK ∧ s.unfinalized db = 0 ∧ s'.objects = s.objects.removeHandle db) s := by
  refine wp_liveHandle hdb fun _ => ?_
  simp only [wp_bind, wp_nextCall, wp_getState, wp_record']
  have hunfinalized : ({ s with calls := s.calls + 1 } : NativeState).unfinalized db =
      s.unfinalized db := rfl
  rw [hunfinalized]
  by_cases hok : env.lib.close s.calls (s.unfinalized db) = SQLITE_OK
  · have hnone : s.unfinalized db = 0 := by
      by_contra hsome
      have hbusy := env.lib.close_busy s.calls _ hsome
      rw [hok] at hbusy
      cases hbusy
    rw [if_pos hok]
    refine Or.inr ⟨hok, hnone, ?_⟩
    simp only [NativeState.objects, NativeObjects.removeHandle, NativeObjects.mk.injEq, and_true]
    funext x
    exact propext AList.mem_erase
  · rw [if_neg hok]
    exact Or.inl ⟨hok, rfl⟩

theorem performs_close (h : ptr = 0 ∨ ∃ db, o.Connected ptr db) :
    Performs o free (nativeClose env ptr) := by
  intro s hs
  subst hs
  unfold nativeClose
  split
  · next hne =>
      obtain ⟨db, hconn⟩ := h.resolve_left hne
      rw [wp_bind]
      refine wp_liveConnection hconn.wrapper ?_
      simp only [wp_bind]
      refine wp_of_only (wp_close_objects hconn.handle) fun err s' hclose => ?_
      dsimp only
      rcases hclose with ⟨herr, hs'⟩ | ⟨herr, hnone, hs'⟩
      · rw [if_pos herr]
        have hdb : s'.objects.handle db := by
          rw [hs']
          exact hconn.handle
        refine wp_of_only (harmless_throw hdb s' rfl) fun _ s'' hs'' => ?_
        exact NativeObjects.Step.same.of_eq (hs''.trans hs')
      · rw [if_neg (not_not_intro herr)]
        refine NativeObjects.Step.of_eq
          (.closed hconn.wrapper fun st => stmt_ne_of_unfinalized hnone) ?_
        obtain ⟨hhandle, hwrapper, hstmt, hnext⟩ := NativeObjects.mk.inj hs'
        simp only [NativeState.objects, NativeObjects.removeConnection, NativeObjects.mk.injEq]
        refine ⟨hhandle, ?_, hstmt, hnext⟩
        rw [lookup_erase_eq]
        exact congrArg (Function.update · ptr none) hwrapper
  · exact .same

theorem wp_newHandle_objects {s : NativeState} :
    newHandle.wp (Post.only fun db s' => db = s.next ∧ s'.objects = s.objects.addHandle) s := by
  simp only [newHandle, wp_bind, wp_allocate, wp_modifyState, wp_record', wp_pure]
  refine ⟨rfl, ?_⟩
  simp only [NativeState.objects, NativeObjects.addHandle, NativeObjects.mk.injEq, and_true]
  funext x
  exact propext (AList.mem_insert _)

/-- An open that fails may have a handle all the same. -/
theorem wp_open_v2_objects {s : NativeState} {path : String} {flags : Nat} :
    (sqlite3_open_v2 env.lib path flags).wp (Post.only fun r s' =>
      r.1 ≠ SQLITE_OK ∧ (s'.objects = s.objects ∨ s'.objects = s.objects.addHandle) ∨
        r = (SQLITE_OK, s.next) ∧ s'.objects = s.objects.addHandle) s := by
  simp only [sqlite3_open_v2, wp_bind, wp_nextCall]
  split
  · rw [wp_bind]
    refine wp_of_only wp_newHandle_objects fun db s' h => ?_
    obtain ⟨rfl, hs'⟩ := h
    exact Or.inr ⟨rfl, hs'⟩
  · next err _ =>
      rw [wp_bind]
      refine wp_of_only wp_newHandle_objects fun db s' h => ?_
      exact Or.inl ⟨err.2, Or.inr h.2⟩
  · next err _ => exact Or.inl ⟨err.2, Or.inl rfl⟩

namespace NativeObjects

theorem failedOpen_refl : o.FailedOpen o :=
  ⟨rfl, rfl, fun _ h => h, fun _ h => Or.inl h, Nat.le_refl _⟩

theorem failedOpen_addHandle : o.FailedOpen o.addHandle where
  wrapper := rfl
  stmt := rfl
  keeps _ h := Or.inr h
  new db h := by
    rcases h with rfl | h
    · exact Or.inr ⟨Nat.le_refl _, Nat.lt_succ_self _⟩
    · exact Or.inl h
  next := Nat.le_succ _

theorem failedOpen_removeHandle (hnext : ¬ o.handle o.next) :
    o.FailedOpen (o.addHandle.removeHandle o.next) where
  wrapper := rfl
  stmt := rfl
  keeps db h := by
    refine ⟨?_, Or.inr h⟩
    intro heq
    subst heq
    exact hnext h
  new db h := Or.inl (h.2.resolve_left h.1)
  next := Nat.le_succ _

end NativeObjects

theorem wp_openFailed_objects {s : NativeState} {message : String} (hnext : ¬ o.handle o.next)
    (hs : s.objects = o.addHandle) :
    (openFailed env o.next message).wp (Post.only fun ptr s' =>
      ptr = 0 ∧ o.FailedOpen s'.objects) s := by
  have hdb : s.objects.handle o.next := by
    rw [hs]
    exact Or.inl rfl
  simp only [openFailed, wp_bind]
  refine wp_of_only (harmless_throw hdb s rfl) fun _ s' hs' => ?_
  rw [← hs'] at hdb
  dsimp only
  rw [wp_bind]
  refine wp_of_only (wp_close_objects hdb) fun err s'' hclose => ⟨rfl, ?_⟩
  rcases hclose with ⟨_, hs''⟩ | ⟨_, _, hs''⟩
  · rw [hs'', hs', hs]
    exact NativeObjects.failedOpen_addHandle
  · rw [hs'', hs', hs]
    exact NativeObjects.failedOpen_removeHandle hnext

/-- It fails, or makes a handle and then its wrapper. -/
theorem wp_nativeOpen_objects {s : NativeState} {path : String} {openFlags : Nat}
    (hnext : ¬ s.objects.handle s.next) :
    (nativeOpen env path openFlags).wp (Post.only fun ptr s' =>
      ptr = 0 ∧ s.objects.FailedOpen s'.objects ∨
        ptr = s.next + 1 ∧ s'.objects = s.objects.addConnection s.next (s.next + 1)) s := by
  simp only [nativeOpen, wp_bind]
  refine wp_of_only wp_open_v2_objects fun r s₁ hopen => ?_
  obtain ⟨err, db⟩ := r
  dsimp only
  rcases hopen with ⟨herr, hs₁⟩ | ⟨hok, hs₁⟩
  · rw [if_pos herr, wp_bind]
    refine wp_of_only (harmless_jniThrowException s₁ rfl) fun _ s₂ hs₂ => ?_
    refine Or.inl ⟨rfl, ?_⟩
    rw [hs₂]
    rcases hs₁ with hs₁ | hs₁
    · rw [hs₁]
      exact NativeObjects.failedOpen_refl
    · rw [hs₁]
      exact NativeObjects.failedOpen_addHandle
  · obtain ⟨rfl, rfl⟩ := Prod.mk.inj hok
    rw [if_neg (not_not_intro rfl), wp_bind]
    have hdb : s.objects.addHandle.handle s.next := Or.inl rfl
    have hreadOnly : Harmless s.objects.addHandle
        (openedReadOnly env (sqliteFlags openFlags) s.next) :=
      returns_ite (harmless_answer hdb) returns_pure
    refine wp_of_only (hreadOnly s₁ hs₁) fun readOnly s₂ hs₂ => ?_
    have hfailed : ∀ {message s'}, s'.objects = s.objects.addHandle →
        (openFailed env s.next message).wp (Post.only fun ptr s' =>
          ptr = 0 ∧ s.objects.FailedOpen s'.objects ∨
            ptr = s.next + 1 ∧ s'.objects = s.objects.addConnection s.next (s.next + 1)) s' := by
      intro message s' hs'
      exact wp_of_only (wp_openFailed_objects hnext hs') fun _ _ h => Or.inl h
    dsimp only
    split
    · exact hfailed hs₂
    · rw [wp_bind]
      have hbusy : Harmless s.objects.addHandle (sqlite3_busy_timeout env.lib s.next) :=
        harmless_answer hdb
      refine wp_of_only (hbusy s₂ hs₂) fun err s₃ hs₃ => ?_
      dsimp only
      split
      · exact hfailed hs₃
      · simp only [wp_bind, wp_allocate, wp_modifyState, wp_pure]
        obtain ⟨hhandle, hwrapper, hstmt, hnextEq⟩ := NativeObjects.mk.inj hs₃
        refine Or.inr ⟨hnextEq, ?_⟩
        simp only [NativeState.objects, NativeObjects.addConnection, NativeObjects.mk.injEq]
        have hthree : s₃.next = s.next + 1 := hnextEq
        refine ⟨hhandle, ?_, hstmt, by rw [hthree]⟩
        rw [lookup_insert_eq, hthree]
        exact congrArg (Function.update · (s.next + 1) (some s.next)) hwrapper

/-! ## Back in Java -/

/-- A native function has returned to Java, normally or with an exception. -/
structure BackInJava (o : NativeObjects) (free : Nat → Prop) (s : NativeState) : Prop where
  step : o.Step free False s.objects
  pending : s.pending = none

def javaPost (o : NativeObjects) (free : Nat → Prop) : Post NativeState Throwable α where
  ok _ s := BackInJava o free s
  throws _ s := BackInJava o free s
  dead _ := False

theorem wp_jni_performs {s : NativeState} (hm : Performs o free m) (hs : s.objects = o) :
    (jni m).wp (javaPost o free) s := by
  rw [wp_jni]
  refine wp_of_only (hm s hs) fun a s' hstep => ?_
  dsimp only
  split
  · next hpending => exact ⟨hstep, hpending⟩
  · exact ⟨hstep, rfl⟩

theorem wp_statement_objects {s : NativeState} {call : StatementCall} (hs : s.objects = o)
    (h : o.Connected ptr db) (hfree : free db) (hvalid : call.Valid o db) :
    (call.run env ptr).wp (javaPost o free) s := by
  have hdiscard : ∀ {β : Type} {m : NativeProg β}, Performs o free m →
      (discard (jni m)).wp (javaPost o free) s := fun hm =>
    wp_discard.2 (wp_jni_performs hm hs)
  have hquiet : ∀ {m : NativeProg Unit}, Harmless o m → (jni m).wp (javaPost o free) s :=
    fun hm => wp_jni_performs hm.performs hs
  cases call with
  | nativePrepareStatement sql => exact hdiscard (performs_prepare h)
  | nativeBindNull st index => exact hquiet (harmless_bindImage h hvalid)
  | nativeBindLong st index value => exact hquiet (harmless_bindImage h hvalid)
  | nativeBindDouble st index value => exact hquiet (harmless_bindImage h hvalid)
  | nativeBindString st index value =>
      obtain ⟨hst, hsome⟩ := hvalid
      obtain ⟨text, rfl⟩ := Option.isSome_iff_exists.1 hsome
      exact hquiet (harmless_bindImage h hst)
  | nativeBindBlob st index value => exact hquiet (harmless_bindImage h hvalid)
  | nativeExecute st =>
      exact hquiet (returns_bind (harmless_executeNonQuery h hvalid) fun _ => returns_pure)
  | nativeExecuteForChangedRowCount st =>
      exact hdiscard (harmless_changedRowCount h hvalid).performs
  | nativeExecuteForLastInsertedRowId st =>
      exact hdiscard (harmless_lastInsertedRowId h hvalid).performs
  | nativeResetStatementAndClearBindings st => exact hquiet (harmless_nativeReset h (Or.inr hvalid))
  | nativeFinalizeStatement st => exact wp_jni_performs (performs_finalize h hfree hvalid) hs

theorem harmless_query {function : QueryFunction} (hvalid : function.Valid o) :
    Harmless o (function.run columns) := by
  cases function with
  | nativeGetParameterCount st =>
      obtain ⟨db, hst⟩ := hvalid
      refine returns_bind ?_ fun _ => returns_pure
      exact harmless_withStmt hst fun _ _ _ => returns_bind harmless_record' fun _ => returns_pure
  | nativeIsReadOnly st =>
      obtain ⟨db, hst⟩ := hvalid
      refine returns_bind ?_ fun _ => returns_pure
      exact harmless_withStmt hst fun _ _ _ => returns_bind harmless_record' fun _ => returns_pure
  | nativeGetColumnCount st =>
      obtain ⟨db, hst⟩ := hvalid
      exact returns_bind (harmless_columnCall hst) fun _ => returns_pure
  | nativeGetColumnName st =>
      obtain ⟨hne, db, hst⟩ := hvalid
      refine returns_bind ?_ fun _ => returns_pure
      rw [Ref.nativeGetColumnName, if_neg hne]
      exact returns_bind (harmless_columnCall (Or.inr hst)) fun _ => returns_pure
  | nativeGetDbLookaside ptr =>
      obtain ⟨db, h⟩ := hvalid
      refine returns_bind (harmless_connectionDb h.wrapper ?_) fun _ => returns_pure
      exact harmless_answer h.handle

end Performs

end OrmBenchmark.Ref
