import Mathlib.Logic.Function.Basic
import OrmBenchmark.Ref.NativeConnection

/-!
# Callbacks and cancellation

The rest of `com_epam_database_NativeSQLiteConnection.cpp`: the three callbacks
a connection registers with its handle, `nativeCancel` and `nativeResetCancel`,
the queries for one row, and the functions about columns.

A callback is given the address of a `SQLiteConnection` that was registered some
time before, and dereferences it. Several threads may be in native functions.
One that runs a statement holds the mutex of the handle from the beginning of
the step to its end, and others that change anything of the handle wait for it.
A call that waits counts as made when its wait is over. `nativeCancel` calls
nothing, and `nativeResetCancel` writes its flag before it waits. So a step is
begun, polls the progress handler any number of times and returns, and other
functions come in between.
-/

namespace OrmBenchmark.Ref

open OrmBenchmark.Lib

/-! ## Columns and queries for one row -/

/-- What the library says of the columns of a statement, by the number of the
call. -/
structure SqliteColumns where
  column_count : Nat → Nat
  column_int64 : Nat → Int64
  column_text16 : Nat → Option (List UInt16)
  column_name16 : Nat → Option (List UInt16)
  /-- `none` where `sqlite3_db_status` fails and writes nothing -/
  lookaside_used : Nat → Option Int32
  /-- what is passed to the trace callback and to the profile callback -/
  expandedSql : Nat → String
  elapsed : Nat → Nat

variable (env : NativeEnv) (columns : SqliteColumns)

/-- A call about a column, which asks the library. -/
def columnCall {α : Type} (statementPtr : Nat) (onNull : α) (answer : Nat → α) : NativeProg α :=
  withStmt statementPtr onNull fun _ => do
    let call ← nextCall
    pure (answer call)

def nativeGetColumnCount (statementPtr : Nat) : NativeProg Nat :=
  columnCall statementPtr 0 columns.column_count

/-- The name is copied up to its first zero. `sqlite3_column_name16` does not
look whether the statement is null. -/
def nativeGetColumnName (statementPtr : Nat) : NativeProg (Option (List UInt16)) :=
  if statementPtr = 0 then
    Prog.die
  else do
    let name ← columnCall statementPtr none columns.column_name16
    pure (name.map fun name => name.takeWhile fun c => c ≠ 0)

def nativeGetDbLookaside (connectionPtr : Nat) : NativeProg Int32 := do
  let db ← connectionDb connectionPtr
  withHandle db fun _ => do
    let call ← nextCall
    pure ((columns.lookaside_used call).getD (-1))

/-- With `SQLITE_DONE` it throws as with an error. -/
def executeOneRowQuery (connectionPtr statementPtr : Nat) : NativeProg Nat := do
  let err ← sqlite3_step env.lib statementPtr
  if err ≠ SQLITE_ROW then
    let db ← connectionDb connectionPtr
    throw_sqlite3_exception env.lib db none
    pure err
  else
    pure err

def nativeExecuteForLong (connectionPtr statementPtr : Nat) : NativeProg Int64 := do
  let err ← executeOneRowQuery env connectionPtr statementPtr
  if err = SQLITE_ROW then
    let count ← columnCall statementPtr 0 columns.column_count
    if 1 ≤ count then columnCall statementPtr 0 columns.column_int64 else pure (-1)
  else
    pure (-1)

/-- The text is copied by its length, whatever it holds. -/
def nativeExecuteForString (connectionPtr statementPtr : Nat) :
    NativeProg (Option (List UInt16)) := do
  let err ← executeOneRowQuery env connectionPtr statementPtr
  if err = SQLITE_ROW then
    let count ← columnCall statementPtr 0 columns.column_count
    if 1 ≤ count then columnCall statementPtr none columns.column_text16 else pure none
  else
    pure none

/-- The native functions that only ask the library for something. -/
inductive QueryFunction
  | nativeGetParameterCount (statementPtr : Nat)
  | nativeIsReadOnly (statementPtr : Nat)
  | nativeGetColumnCount (statementPtr : Nat)
  | nativeGetColumnName (statementPtr : Nat)
  | nativeGetDbLookaside (connectionPtr : Nat)

def QueryFunction.run : QueryFunction → NativeProg Unit
  | nativeGetParameterCount st => discard (Ref.nativeGetParameterCount st)
  | nativeIsReadOnly st => discard (Ref.nativeIsReadOnly st)
  | nativeGetColumnCount st => discard (Ref.nativeGetColumnCount columns st)
  | nativeGetColumnName st => discard (Ref.nativeGetColumnName columns st)
  | nativeGetDbLookaside connectionPtr =>
      discard (Ref.nativeGetDbLookaside columns connectionPtr)

/-- The native functions that run a statement. -/
inductive ExecuteFunction
  | nativeExecute
  | nativeExecuteForChangedRowCount
  | nativeExecuteForLastInsertedRowId
  | nativeExecuteForLong
  | nativeExecuteForString

def ExecuteFunction.run (connectionPtr statementPtr : Nat) : ExecuteFunction → NativeProg Unit
  | nativeExecute => Ref.nativeExecute env connectionPtr statementPtr
  | nativeExecuteForChangedRowCount =>
      discard (Ref.nativeExecuteForChangedRowCount env connectionPtr statementPtr)
  | nativeExecuteForLastInsertedRowId =>
      discard (Ref.nativeExecuteForLastInsertedRowId env connectionPtr statementPtr)
  | nativeExecuteForLong =>
      discard (Ref.nativeExecuteForLong env columns connectionPtr statementPtr)
  | nativeExecuteForString =>
      discard (Ref.nativeExecuteForString env columns connectionPtr statementPtr)

/-- The library once a progress handler has answered other than zero: the step
is interrupted, and so says the handle. -/
def NativeEnv.interrupted (env : NativeEnv) : NativeEnv :=
  { env with
    lib := { env.lib with
      step := fun _ => ⟨SQLITE_INTERRUPT, ⟨none, none⟩⟩
      extended_errcode := fun _ => SQLITE_INTERRUPT } }

/-! ## Connections with callbacks -/

/-- The fields of a `SQLiteConnection` besides `db` that are read. -/
structure SQLiteConnection where
  label : String
  canceled : Bool

/-- What is registered with a handle, each with the address it was given. -/
structure Handlers where
  trace : Option Nat
  profile : Option Nat
  progress : Option Nat

def Handlers.none : Handlers := ⟨.none, .none, .none⟩

/-- A step that has not returned, and who called it. -/
structure RunningStep where
  connectionPtr : Nat
  statementPtr : Nat
  function : ExecuteFunction

inductive CallbackEvent
  /-- `sqliteTraceCallback`, `sqliteProfileCallback` -/
  | traced (label sql : String)
  | profiled (label sql : String) (nanoseconds : Nat)
  /-- a native function that ran a statement returned to Java -/
  | returned (connectionPtr : Nat) (exception : Option Throwable)

structure CallbackState where
  native : NativeState
  /-- the memory at these addresses; what lives there is what `native` wraps -/
  connections : Nat → SQLiteConnection
  handlers : Nat → Handlers
  /-- by handle -/
  running : Nat → Option RunningStep
  log : List CallbackEvent

namespace CallbackState

def withConnection (s : CallbackState) (ptr : Nat) (connection : SQLiteConnection) :
    CallbackState :=
  { s with connections := Function.update s.connections ptr connection }

def withHandlers (s : CallbackState) (db : Nat) (handlers : Handlers) : CallbackState :=
  { s with handlers := Function.update s.handlers db handlers }

def withRunning (s : CallbackState) (db : Nat) (step : Option RunningStep) : CallbackState :=
  { s with running := Function.update s.running db step }

end CallbackState

abbrev CallbackProg := Prog CallbackState Throwable

/-- In the library, or in a function without callbacks. -/
def native {α : Type} (m : NativeProg α) : CallbackProg α :=
  Prog.zoom CallbackState.native (fun n s => { s with native := n }) m

def emit (event : CallbackEvent) : CallbackProg Unit :=
  Prog.modifyState fun s => { s with log := s.log ++ [event] }

/-- `static_cast<SQLiteConnection*>(data)`, read. -/
def derefConnection (data : Nat) : CallbackProg SQLiteConnection := do
  let _ ← native (connectionDb data)
  let s ← Prog.getState
  pure (s.connections data)

def setConnection (data : Nat) (connection : SQLiteConnection) : CallbackProg Unit :=
  Prog.modifyState fun s => s.withConnection data connection

def setHandlers (db : Nat) (handlers : Handlers) : CallbackProg Unit :=
  Prog.modifyState fun s => s.withHandlers db handlers

def sqliteTraceCallback (data : Nat) (sql : String) : CallbackProg Unit := do
  let connection ← derefConnection data
  emit (.traced connection.label sql)

def sqliteProfileCallback (data : Nat) (sql : String) (tm : Nat) : CallbackProg Unit := do
  let connection ← derefConnection data
  emit (.profiled connection.label sql tm)

def sqliteProgressHandlerCallback (data : Nat) : CallbackProg Bool := do
  let connection ← derefConnection data
  pure connection.canceled

/-- The library makes a callback, if there is one. -/
def callback {α : Type} (data : Option Nat) (onNone : α) (f : Nat → CallbackProg α) :
    CallbackProg α :=
  match data with
  | none => pure onNone
  | some data => f data

def nativeOpenWithCallbacks (path : String) (openFlags : Nat) (label : String)
    (enableTrace enableProfile : Bool) : CallbackProg Nat := do
  let connection ← native (nativeOpen env path openFlags)
  if connection = 0 then
    pure 0
  else
    let db ← native (connectionDb connection)
    setConnection connection ⟨label, false⟩
    setHandlers db
      ⟨if enableTrace then some connection else none,
        if enableProfile then some connection else none, none⟩
    pure connection

def nativeCancel (connectionPtr : Nat) : CallbackProg Unit := do
  let connection ← derefConnection connectionPtr
  setConnection connectionPtr { connection with canceled := true }

/-- The first half of `nativeResetCancel`. -/
def clearCanceled (connectionPtr : Nat) : CallbackProg Unit := do
  let connection ← derefConnection connectionPtr
  setConnection connectionPtr { connection with canceled := false }

/-- The second half, which waits for the handle. -/
def setProgressHandler (connectionPtr : Nat) (cancelable : Bool) : CallbackProg Unit := do
  let db ← native (connectionDb connectionPtr)
  native (withHandle db fun _ => pure ())
  let s ← Prog.getState
  setHandlers db
    { s.handlers db with progress := if cancelable then some connectionPtr else none }

/-- A native function runs, from `sqlite3_step` to its return to Java. -/
def execute (step : RunningStep) : CallbackProg Unit :=
  Prog.tryCatch
    (do
      native (jni (step.function.run env columns step.connectionPtr step.statementPtr))
      emit (.returned step.connectionPtr none))
    fun e => emit (.returned step.connectionPtr (some e))

/-- `sqlite3_step` begins. -/
def beginStep (db : Nat) (step : RunningStep) : CallbackProg Unit := do
  let s ← Prog.getState
  Prog.modifyState fun s => s.withRunning db (some step)
  let call ← native nextCall
  callback (s.handlers db).trace () fun data => sqliteTraceCallback data (columns.expandedSql call)

/-- `sqlite3_step` returns, and then the function that called it. -/
def returnStep (db : Nat) (step : RunningStep) : CallbackProg Unit := do
  let s ← Prog.getState
  Prog.modifyState fun s => s.withRunning db none
  let call ← native nextCall
  callback (s.handlers db).profile () fun data =>
    sqliteProfileCallback data (columns.expandedSql call) (columns.elapsed call)
  execute env columns step

/-- Some instructions of the statement later. -/
def pollProgress (db : Nat) (step : RunningStep) : CallbackProg Unit := do
  let s ← Prog.getState
  let canceled ← callback (s.handlers db).progress false sqliteProgressHandlerCallback
  if canceled then returnStep env.interrupted columns db step else pure ()

/-! ## Threads -/

inductive CallbackLabel
  | nativeOpen (path : String) (openFlags : Nat) (label : String) (enableTrace enableProfile : Bool)
  | nativeClose (connectionPtr : Nat)
  /-- a call that does not run the statement -/
  | statement (connectionPtr : Nat) (call : StatementCall)
  | query (function : QueryFunction)
  | nativeCancel (connectionPtr : Nat)
  | clearCanceled (connectionPtr : Nat)
  | setProgressHandler (connectionPtr : Nat) (cancelable : Bool)
  | beginStep (step : RunningStep)
  | pollProgress (db : Nat)
  | returnStep (db : Nat)

def StatementCall.runsStatement : StatementCall → Bool
  | nativeExecute _ | nativeExecuteForChangedRowCount _
  | nativeExecuteForLastInsertedRowId _ => true
  | _ => false

/-- The mutex of the connection's handle is not held for a step. -/
def CallbackState.free (s : CallbackState) (connectionPtr : Nat) : Bool :=
  match s.native.wrappers.lookup connectionPtr with
  | none => true
  | some db => (s.running db).isNone

/-- What a thread does now, or `none` if it has to wait. -/
def CallbackLabel.run (s : CallbackState) : CallbackLabel → Option (CallbackProg Unit)
  | .nativeOpen path openFlags label enableTrace enableProfile => some do
      let _ ← nativeOpenWithCallbacks env path openFlags label enableTrace enableProfile
      native (jni (pure ()))
  | .nativeClose connectionPtr =>
      if s.free connectionPtr then some (native (jni (Ref.nativeClose env connectionPtr)))
      else none
  | .statement connectionPtr call =>
      if s.free connectionPtr && !call.runsStatement then
        some (native (call.run env connectionPtr))
      else
        none
  | .query function => some (native (jni (function.run columns)))
  | .nativeCancel connectionPtr => some (Ref.nativeCancel connectionPtr)
  | .clearCanceled connectionPtr => some (Ref.clearCanceled connectionPtr)
  | .setProgressHandler connectionPtr cancelable =>
      if s.free connectionPtr then some (Ref.setProgressHandler connectionPtr cancelable)
      else none
  | .beginStep step =>
      match s.native.stmts.lookup step.statementPtr with
      | none => some (execute env columns step)
      | some stmt =>
          if (s.running stmt.db).isNone then some (Ref.beginStep columns stmt.db step) else none
  | .pollProgress db => (s.running db).map (Ref.pollProgress env columns db)
  | .returnStep db => (s.running db).map (Ref.returnStep env columns db)

/-- The process, and whether it still runs. -/
structure CallbackSystem where
  state : CallbackState
  alive : Bool

def CallbackSystem.start : CallbackSystem where
  state :=
    { native := NativeState.start
      connections := fun _ => ⟨"", false⟩
      handlers := fun _ => Handlers.none
      running := fun _ => none
      log := [] }
  alive := true

def CallbackSystem.next (p : CallbackSystem) (label : CallbackLabel) : Option CallbackSystem :=
  if p.alive then
    (label.run env columns p.state).map fun m =>
      match m p.state with
      | (.dead, s) => ⟨s, false⟩
      | (_, s) => ⟨s, true⟩
  else
    none

def CallbackSystem.lts : Lts CallbackSystem CallbackLabel :=
  Lts.ofNext CallbackSystem.start (CallbackSystem.next env columns)

end OrmBenchmark.Ref
