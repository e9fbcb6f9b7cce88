import Mathlib.Data.List.AList
import OrmBenchmark.Lib.Prog
import OrmBenchmark.Ref.SQLiteCommon

/-!
# SQLite as the native layer calls it

The part of the process that the native connection works on: the `sqlite3`
handles and `sqlite3_stmt` objects that exist, the `SQLiteConnection` wrappers
around handles, the exception that is pending in the JNI environment, and the
`mConnectionPtr` field of the one Java object.

What SQLite answers is not modelled. `Sqlite` answers every call of the run,
by the number of the call, and may fail any of them; the documented parts are
fields of it. What is modelled is what each call does to the objects: a handle
lives from `sqlite3_open_v2`, which may leave one behind even when it fails, to
a successful `sqlite3_close`, and a statement from a successful prepare to
`sqlite3_finalize`. Using an object that does not live, or a null pointer where
the library does not accept one, is undefined behaviour, and the process dies
of it. Objects are numbered as they are created, from 1; 0 is the null pointer.
-/

namespace OrmBenchmark.Ref

open OrmBenchmark.Lib

/-- A result code other than `SQLITE_OK`. -/
abbrev ErrorCode := { err : Nat // err ≠ SQLITE_OK }

/-- An exception a `catch (RuntimeException)` catches. -/
abbrev RuntimeThrowable := { e : Throwable // e.kind = .runtimeException }

/-- What is bound to a parameter. Text is UTF-16. -/
inductive BindImage
  | null
  | int64 (value : Int64)
  | double (value : Float)
  | text16 (value : List UInt16)
  | blob (value : List UInt8)

/-- `allocated` tells whether the failed call left a handle in `*ppDb`. -/
inductive OpenAnswer
  | ok
  | failed (err : ErrorCode) (allocated : Bool)

/-- `empty` is the success without a statement: the text holds none. -/
inductive PrepareAnswer
  | prepared (parameters : Nat) (readOnly : Bool)
  | empty
  | failed (err : ErrorCode)

/-- What the execution of a statement did, as far as the counters of its
connection report it. -/
structure StmtEffect where
  /-- rows changed, if this was a top-level INSERT, UPDATE or DELETE -/
  changes : Option Int32
  /-- the last rowid it inserted into a rowid table -/
  inserted : Option Int64

structure StepAnswer where
  err : Nat
  effect : StmtEffect

/-- The library's answers, by the number of the call. `open_v2` sees the path
and the flags, `prepare16_v2` the text. -/
structure Sqlite where
  open_v2 : Nat → String → Nat → OpenAnswer
  db_readonly : Nat → Bool
  busy_timeout : Nat → Nat
  /-- with the number of unfinalized statements of the handle -/
  close : Nat → Nat → Nat
  close_busy : ∀ call unfinalized, unfinalized ≠ 0 →
    close call unfinalized = SQLITE_BUSY
  prepare16_v2 : Nat → String → PrepareAnswer
  bind : Nat → Nat
  step : Nat → StepAnswer
  reset : Nat → Nat
  clear_bindings : Nat → Nat
  extended_errcode : Nat → Nat
  errmsg : Nat → String

/-- What `sqlite3_changes` and `sqlite3_last_insert_rowid` report. -/
structure Counters where
  changes : Int32
  lastInsertRowid : Int64

def Counters.apply (c : Counters) (effect : StmtEffect) : Counters where
  changes := effect.changes.getD c.changes
  lastInsertRowid := effect.inserted.getD c.lastInsertRowid

structure Stmt where
  db : Nat
  parameters : Nat
  readOnly : Bool
  /-- the successful binds, oldest first -/
  bound : List (Nat × BindImage)

/-- What a call does with a statement between its prepare and its finalize. -/
inductive StmtUse
  | parameterCount
  | readOnly
  | bind (index : Nat) (image : BindImage) (err : Nat)
  | step (bound : List (Nat × BindImage)) (answer : StepAnswer)
  | reset

inductive NativeEvent
  /-- a native function dereferenced its connection argument -/
  | deref (connectionPtr : Nat) (live : Bool)
  | opened (db : Nat)
  /-- `sqlite3_close`, with its result -/
  | closed (db err : Nat)
  | prepared (statement : Nat)
  | used (statement : Nat) (use : StmtUse)
  | finalized (statement : Nat)
  /-- an exception was created -/
  | raised (e : Throwable)

structure NativeState where
  mConnectionPtr : Nat
  /-- the exception pending in the JNI environment -/
  pending : Option Throwable
  /-- library calls so far -/
  calls : Nat
  /-- the number of the next object -/
  next : Nat
  handles : AList fun _ : Nat => Counters
  /-- address of a `SQLiteConnection`, and its `db` -/
  wrappers : AList fun _ : Nat => Nat
  stmts : AList fun _ : Nat => Stmt
  log : List NativeEvent

abbrev NativeProg := Prog NativeState Throwable

/-! ## Bookkeeping -/

def record' (event : NativeEvent) : NativeProg Unit :=
  Prog.modifyState fun s => { s with log := s.log ++ [event] }

/-- The number of a library call. -/
def nextCall : NativeProg Nat := fun s =>
  (.ok s.calls, { s with calls := s.calls + 1 })

/-- The number of a new object. -/
def allocate : NativeProg Nat := fun s =>
  (.ok s.next, { s with next := s.next + 1 })

/-! ## Handles -/

/-- A call on a handle, which has to live. -/
def withHandle {α : Type} (db : Nat) (f : Counters → NativeProg α) : NativeProg α := do
  let s ← Prog.getState
  match s.handles.lookup db with
  | none => Prog.die
  | some counters => f counters

def newHandle : NativeProg Nat := do
  let db ← allocate
  Prog.modifyState fun s => { s with handles := s.handles.insert db ⟨0, 0⟩ }
  record' (.opened db)
  pure db

/-- The result code and `*ppDb`. -/
def sqlite3_open_v2 (lib : Sqlite) (path : String) (flags : Nat) :
    NativeProg (Nat × Nat) := do
  let call ← nextCall
  match lib.open_v2 call path flags with
  | .ok => do
      let db ← newHandle
      pure (SQLITE_OK, db)
  | .failed err true => do
      let db ← newHandle
      pure (err, db)
  | .failed err false => pure (err, 0)

def sqlite3_db_readonly (lib : Sqlite) (db : Nat) : NativeProg Bool :=
  withHandle db fun _ => do
    let call ← nextCall
    pure (lib.db_readonly call)

def sqlite3_busy_timeout (lib : Sqlite) (db : Nat) : NativeProg Nat :=
  withHandle db fun _ => do
    let call ← nextCall
    pure (lib.busy_timeout call)

/-- The unfinalized statements of a handle. -/
def NativeState.unfinalized (s : NativeState) (db : Nat) : Nat :=
  (s.stmts.entries.filter fun e => e.2.db = db).length

def sqlite3_close (lib : Sqlite) (db : Nat) : NativeProg Nat :=
  withHandle db fun _ => do
    let call ← nextCall
    let s ← Prog.getState
    let err := lib.close call (s.unfinalized db)
    record' (.closed db err)
    if err = SQLITE_OK then
      Prog.modifyState fun s => { s with handles := s.handles.erase db }
      pure err
    else
      pure err

def sqlite3_changes (db : Nat) : NativeProg Int32 :=
  withHandle db fun counters => pure counters.changes

def sqlite3_last_insert_rowid (db : Nat) : NativeProg Int64 :=
  withHandle db fun counters => pure counters.lastInsertRowid

/-! ## Statements -/

/-- The result code and `*ppStmt`. -/
def sqlite3_prepare16_v2 (lib : Sqlite) (db : Nat) (sql : String) :
    NativeProg (Nat × Nat) :=
  withHandle db fun _ => do
    let call ← nextCall
    match lib.prepare16_v2 call sql with
    | .failed err => pure (err, 0)
    | .empty => pure (SQLITE_OK, 0)
    | .prepared parameters readOnly => do
        let statement ← allocate
        Prog.modifyState fun s =>
          { s with stmts := s.stmts.insert statement ⟨db, parameters, readOnly, []⟩ }
        record' (.prepared statement)
        pure (SQLITE_OK, statement)

/-- A null statement is accepted and does nothing. -/
def sqlite3_finalize (statement : Nat) : NativeProg Unit := do
  let s ← Prog.getState
  if statement = 0 then
    pure ()
  else
    match s.stmts.lookup statement with
    | none => Prog.die
    | some _ => do
        Prog.modifyState fun s => { s with stmts := s.stmts.erase statement }
        record' (.finalized statement)

/-- Use a statement: `onNull` is the answer to a null pointer. -/
def withStmt {α : Type} (statement : Nat) (onNull : α) (f : Stmt → NativeProg α) :
    NativeProg α := do
  let s ← Prog.getState
  if statement = 0 then
    pure onNull
  else
    match s.stmts.lookup statement with
    | none => Prog.die
    | some stmt => f stmt

def sqlite3_bind_parameter_count (statement : Nat) : NativeProg Nat :=
  withStmt statement 0 fun stmt => do
    record' (.used statement .parameterCount)
    pure stmt.parameters

def sqlite3_stmt_readonly (statement : Nat) : NativeProg Bool :=
  withStmt statement true fun stmt => do
    record' (.used statement .readOnly)
    pure stmt.readOnly

/-- `sqlite3_bind_null`, `_int64`, `_double`, `_text16` and `_blob`. -/
def sqlite3_bind (lib : Sqlite) (statement index : Nat) (image : BindImage) :
    NativeProg Nat :=
  withStmt statement SQLITE_MISUSE fun stmt => do
    let call ← nextCall
    let err := lib.bind call
    record' (.used statement (.bind index image err))
    if err = SQLITE_OK then
      Prog.modifyState fun s =>
        { s with
          stmts := s.stmts.insert statement
            { stmt with bound := stmt.bound ++ [(index, image)] } }
      pure err
    else
      pure err

def sqlite3_step (lib : Sqlite) (statement : Nat) : NativeProg Nat :=
  withStmt statement SQLITE_MISUSE fun stmt => do
    let call ← nextCall
    let answer := lib.step call
    withHandle stmt.db fun counters => do
      record' (.used statement (.step stmt.bound answer))
      Prog.modifyState fun s =>
        { s with handles := s.handles.insert stmt.db (counters.apply answer.effect) }
      pure answer.err

def sqlite3_reset (lib : Sqlite) (statement : Nat) : NativeProg Nat :=
  withStmt statement SQLITE_OK fun _ => do
    let call ← nextCall
    record' (.used statement .reset)
    pure (lib.reset call)

/-- Only ever called on a statement that `sqlite3_reset` accepted. -/
def sqlite3_clear_bindings (lib : Sqlite) (statement : Nat) : NativeProg Nat :=
  withStmt statement SQLITE_MISUSE fun stmt => do
    let call ← nextCall
    Prog.modifyState fun s =>
      { s with stmts := s.stmts.insert statement { stmt with bound := [] } }
    pure (lib.clear_bindings call)

/-! ## Exceptions -/

/-- `jniThrowException`: what was pending is discarded. -/
def jniThrowException (e : Throwable) : NativeProg Unit := do
  Prog.modifyState fun s => { s with pending := some e }
  record' (.raised e)

/-- With the error of a handle. -/
def throw_sqlite3_exception (lib : Sqlite) (db : Nat) (message : Option String) :
    NativeProg Unit :=
  withHandle db fun _ => do
    let call ← nextCall
    jniThrowException
      (sqlite3Exception (lib.extended_errcode call) (some (lib.errmsg call)) message)

/-- With a message alone. -/
def throw_sqlite3_exception_message (message : String) : NativeProg Unit :=
  jniThrowException (sqlite3Exception SQLITE_OK (some "unknown error") (some message))

def throw_sqlite3_exception_errcode (errcode : Nat) (message : String) :
    NativeProg Unit :=
  jniThrowException (sqlite3Exception errcode (some "unknown error") (some message))

/-- A native method returns to Java: a pending exception is thrown there. -/
def jni {α : Type} (m : NativeProg α) : NativeProg α := do
  let a ← m
  let s ← Prog.getState
  match s.pending with
  | none => pure a
  | some e => do
      Prog.modifyState fun s => { s with pending := none }
      Prog.raise e

end OrmBenchmark.Ref
