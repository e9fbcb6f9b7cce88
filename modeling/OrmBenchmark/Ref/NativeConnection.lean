import OrmBenchmark.Lib.Lts
import OrmBenchmark.Ref.Sqlite

/-!
# The native connection

`com_epam_database_NativeSQLiteConnection.cpp` and, over it,
`NativeSQLiteConnection.java`. A native function takes the address of a
`SQLiteConnection` as a number and dereferences it where the source does,
which for some functions is only on an error path; it throws by leaving an
exception pending and returns all the same.

The two metadata calls of `acquirePreparedStatement` cannot fail in the C++
code, and `DatabaseUtils.getSqlStatementType` is Android's. All three may fail
here, with any runtime exception. Tracing and the fields of a wrapper other
than `db` do nothing for the functions below and are left out.
-/

namespace OrmBenchmark.Ref

open OrmBenchmark.Lib

structure NativeEnv where
  lib : Sqlite
  /-- failures of the metadata calls, by the number of library calls so far -/
  parameterCountFails : Nat → Option RuntimeThrowable
  isReadOnlyFails : Nat → Option RuntimeThrowable
  getSqlStatementType : Nat → String → Except RuntimeThrowable Int32

variable (env : NativeEnv)

/-! ## The native functions -/

/-- `reinterpret_cast<SQLiteConnection*>(connectionPtr)->db`. -/
def connectionDb (connectionPtr : Nat) : NativeProg Nat := do
  let s ← Prog.getState
  match s.wrappers.lookup connectionPtr with
  | none => do
      record' (.deref connectionPtr false)
      Prog.die
  | some db => do
      record' (.deref connectionPtr true)
      pure db

def SQLITE_OPEN_READONLY : Nat := 0x1
def SQLITE_OPEN_READWRITE : Nat := 0x2
def SQLITE_OPEN_CREATE : Nat := 0x4
def OPEN_READONLY : Nat := 0x1
def CREATE_IF_NECESSARY : Nat := 0x10000000

def sqliteFlags (openFlags : Nat) : Nat :=
  if openFlags &&& CREATE_IF_NECESSARY ≠ 0 then
    SQLITE_OPEN_READWRITE ||| SQLITE_OPEN_CREATE
  else if openFlags &&& OPEN_READONLY ≠ 0 then
    SQLITE_OPEN_READONLY
  else
    SQLITE_OPEN_READWRITE

/-- `(sqliteFlags & SQLITE_OPEN_READWRITE) && sqlite3_db_readonly(db, NULL)`. -/
def openedReadOnly (flags db : Nat) : NativeProg Bool :=
  if flags &&& SQLITE_OPEN_READWRITE ≠ 0 then sqlite3_db_readonly env.lib db
  else pure false

/-- An error exit of `nativeOpen` after the open: the result of the close is
not looked at. -/
def openFailed (db : Nat) (message : String) : NativeProg Nat := do
  throw_sqlite3_exception env.lib db (some message)
  let _ ← sqlite3_close env.lib db
  pure 0

def nativeOpen (path : String) (openFlags : Nat) : NativeProg Nat := do
  let flags := sqliteFlags openFlags
  let (err, db) ← sqlite3_open_v2 env.lib path flags
  if err ≠ SQLITE_OK then
    throw_sqlite3_exception_errcode err "Could not open database"
    pure 0
  else
    let readOnly ← openedReadOnly env flags db
    if readOnly then
      openFailed env db "Could not open the database in read/write mode."
    else
      let err ← sqlite3_busy_timeout env.lib db
      if err ≠ SQLITE_OK then
        openFailed env db "Could not set busy timeout"
      else
        let connection ← allocate
        Prog.modifyState fun s => { s with wrappers := s.wrappers.insert connection db }
        pure connection

def nativeClose (connectionPtr : Nat) : NativeProg Unit :=
  if connectionPtr ≠ 0 then do
    let db ← connectionDb connectionPtr
    let err ← sqlite3_close env.lib db
    if err ≠ SQLITE_OK then
      throw_sqlite3_exception env.lib db (some "Count not close db.")
    else
      Prog.modifyState fun s => { s with wrappers := s.wrappers.erase connectionPtr }
  else
    pure ()

def nativePrepareStatement (connectionPtr : Nat) (sqlString : String) :
    NativeProg Nat := do
  let db ← connectionDb connectionPtr
  let (err, statement) ← sqlite3_prepare16_v2 env.lib db sqlString
  if err ≠ SQLITE_OK then
    throw_sqlite3_exception env.lib db (some (", while compiling: " ++ sqlString))
    pure 0
  else
    pure statement

/-- The log line dereferences the connection before anything is finalized. -/
def nativeFinalizeStatement (connectionPtr statementPtr : Nat) : NativeProg Unit := do
  let _ ← connectionDb connectionPtr
  sqlite3_finalize statementPtr

def nativeGetParameterCount (statementPtr : Nat) : NativeProg Nat :=
  sqlite3_bind_parameter_count statementPtr

def nativeIsReadOnly (statementPtr : Nat) : NativeProg Bool :=
  sqlite3_stmt_readonly statementPtr

/-- A result code that is an error becomes the connection's exception. -/
def throwUnlessOk (connectionPtr err : Nat) : NativeProg Unit :=
  if err ≠ SQLITE_OK then do
    let db ← connectionDb connectionPtr
    throw_sqlite3_exception env.lib db none
  else
    pure ()

def nativeBindNull (connectionPtr statementPtr index : Nat) : NativeProg Unit := do
  let err ← sqlite3_bind env.lib statementPtr index .null
  throwUnlessOk env connectionPtr err

def nativeBindLong (connectionPtr statementPtr index : Nat) (value : Int64) :
    NativeProg Unit := do
  let err ← sqlite3_bind env.lib statementPtr index (.int64 value)
  throwUnlessOk env connectionPtr err

def nativeBindDouble (connectionPtr statementPtr index : Nat) (value : Float) :
    NativeProg Unit := do
  let err ← sqlite3_bind env.lib statementPtr index (.double value)
  throwUnlessOk env connectionPtr err

/-- The text `sqlite3_bind_text16` takes: `valueLength * sizeof(jchar)` arrives
as an `int`, and a negative one stands for the text up to its first zero. -/
def text16 (value : List UInt16) : List UInt16 :=
  let nBytes := Int32.ofNat (value.length * 2)
  if nBytes < 0 then value.takeWhile fun c => c ≠ 0
  else value.take (nBytes.toNatClampNeg / 2)

/-- A null string dies in `GetStringLength`. -/
def nativeBindString (connectionPtr statementPtr index : Nat)
    (valueString : Option (List UInt16)) : NativeProg Unit :=
  match valueString with
  | none => Prog.die
  | some value => do
      let err ← sqlite3_bind env.lib statementPtr index (.text16 (text16 value))
      throwUnlessOk env connectionPtr err

def nativeBindBlob (connectionPtr statementPtr index : Nat) (value : List UInt8) :
    NativeProg Unit := do
  let err ← sqlite3_bind env.lib statementPtr index (.blob value)
  throwUnlessOk env connectionPtr err

def nativeResetStatementAndClearBindings (connectionPtr statementPtr : Nat) :
    NativeProg Unit := do
  let err ← sqlite3_reset env.lib statementPtr
  if err = SQLITE_OK then
    let err ← sqlite3_clear_bindings env.lib statementPtr
    throwUnlessOk env connectionPtr err
  else
    throwUnlessOk env connectionPtr err

def executeNonQuery (connectionPtr statementPtr : Nat) : NativeProg Nat := do
  let err ← sqlite3_step env.lib statementPtr
  if err = SQLITE_ROW then
    throw_sqlite3_exception_message
      "Queries can be performed using SQLiteDatabase query or rawQuery methods only."
    pure err
  else if err ≠ SQLITE_DONE then
    let db ← connectionDb connectionPtr
    throw_sqlite3_exception env.lib db none
    pure err
  else
    pure err

def nativeExecute (connectionPtr statementPtr : Nat) : NativeProg Unit := do
  let _ ← executeNonQuery env connectionPtr statementPtr
  pure ()

def nativeExecuteForChangedRowCount (connectionPtr statementPtr : Nat) :
    NativeProg Int32 := do
  let err ← executeNonQuery env connectionPtr statementPtr
  if err = SQLITE_DONE then
    let db ← connectionDb connectionPtr
    sqlite3_changes db
  else
    pure (-1)

def nativeExecuteForLastInsertedRowId (connectionPtr statementPtr : Nat) :
    NativeProg Int64 := do
  let err ← executeNonQuery env connectionPtr statementPtr
  if err = SQLITE_DONE then
    let db ← connectionDb connectionPtr
    let changes ← sqlite3_changes db
    if 0 < changes then sqlite3_last_insert_rowid db else pure (-1)
  else
    pure (-1)

/-! ## The Java class -/

structure PreparedStatement where
  mSql : String
  mStatementPtr : Nat
  mNumParameters : Nat
  mType : Int32
  mReadOnly : Bool
  mInCache : Bool
  mInUse : Bool

/-- What `bindArgs` may hold. `other` is any object of another class, with the
outcome of its `toString()`, where `none` is `null`. -/
inductive JavaObject
  | null
  | byte (value : Int8)
  | short (value : Int16)
  | integer (value : Int32)
  | long (value : Int64)
  | float (value : Float32)
  | double (value : Float)
  | byteArray (value : List UInt8)
  | boolean (value : Bool)
  | other (toString : Except RuntimeThrowable (Option (List UInt16)))

/-- `throw`. -/
def throwJava {α : Type} (e : Throwable) : NativeProg α := do
  record' (.raised e)
  Prog.raise e

/-- A call that may fail instead. -/
def orFail {α : Type} (failure : Option RuntimeThrowable) (m : NativeProg α) :
    NativeProg α :=
  match failure with
  | none => m
  | some e => throwJava e.1

def classCast : Throwable :=
  ⟨.runtimeException, "java/lang/ClassCastException", none⟩

namespace JavaObject

/-- `((Number) arg).longValue()`, for the classes this is called on. -/
def longValue : JavaObject → NativeProg Int64
  | byte value => pure value.toInt64
  | short value => pure value.toInt64
  | integer value => pure value.toInt64
  | long value => pure value
  | _ => throwJava classCast

/-- `((Number) arg).doubleValue()`, for the classes this is called on. -/
def doubleValue : JavaObject → NativeProg Float
  | float value => pure value.toFloat
  | double value => pure value
  | _ => throwJava classCast

/-- `(byte[]) arg`. -/
def bytes : JavaObject → NativeProg (List UInt8)
  | byteArray value => pure value
  | _ => throwJava classCast

/-- `arg.toString()`, for the classes this is called on. -/
def text : JavaObject → NativeProg (Option (List UInt16))
  | other (.ok value) => pure value
  | other (.error e) => throwJava e.1
  | _ => throwJava classCast

end JavaObject

inductive FieldType
  | FIELD_TYPE_NULL
  | FIELD_TYPE_INTEGER
  | FIELD_TYPE_FLOAT
  | FIELD_TYPE_STRING
  | FIELD_TYPE_BLOB

def getTypeOfObject : JavaObject → FieldType
  | .null => .FIELD_TYPE_NULL
  | .byteArray _ => .FIELD_TYPE_BLOB
  | .float _ | .double _ => .FIELD_TYPE_FLOAT
  | .long _ | .integer _ | .short _ | .byte _ => .FIELD_TYPE_INTEGER
  | .boolean _ | .other _ => .FIELD_TYPE_STRING

/-- The field `mConnectionPtr`, read for a call. -/
def connectionPtr : NativeProg Nat := do
  let s ← Prog.getState
  pure s.mConnectionPtr

/-- One round of the binding loop; `i` counts from zero. -/
def bindArgument (statementPtr i : Nat) (arg : JavaObject) : NativeProg Unit := do
  let ptr ← connectionPtr
  match getTypeOfObject arg with
  | .FIELD_TYPE_NULL => jni (nativeBindNull env ptr statementPtr (i + 1))
  | .FIELD_TYPE_INTEGER => do
      let value ← arg.longValue
      jni (nativeBindLong env ptr statementPtr (i + 1) value)
  | .FIELD_TYPE_FLOAT => do
      let value ← arg.doubleValue
      jni (nativeBindDouble env ptr statementPtr (i + 1) value)
  | .FIELD_TYPE_BLOB => do
      let value ← arg.bytes
      jni (nativeBindBlob env ptr statementPtr (i + 1) value)
  | .FIELD_TYPE_STRING =>
      match arg with
      | .boolean value =>
          jni (nativeBindLong env ptr statementPtr (i + 1) (if value then 1 else 0))
      | arg => do
          let value ← arg.text
          jni (nativeBindString env ptr statementPtr (i + 1) value)

def bindArguments (statement : PreparedStatement)
    (bindArgs : Option (List JavaObject)) : NativeProg Unit := do
  let args := bindArgs.getD []
  if args.length ≠ statement.mNumParameters then
    throwJava ⟨.runtimeException,
      "android/database/sqlite/SQLiteBindOrColumnIndexOutOfRangeException",
      some s!"Expected {statement.mNumParameters} bind arguments but {args.length} were provided."⟩
  else
    Prog.forEach (fun arg => bindArgument env statement.mStatementPtr arg.2 arg.1)
      args.zipIdx

def obtainPreparedStatement (sql : String) (statementPtr numParameters : Nat)
    (type : Int32) (readOnly : Bool) : PreparedStatement where
  mSql := sql
  mStatementPtr := statementPtr
  mNumParameters := numParameters
  mType := type
  mReadOnly := readOnly
  mInCache := false
  mInUse := false

/-- The `try` block of `acquirePreparedStatement`. -/
def describeStatement (sql : String) (statementPtr : Nat) :
    NativeProg PreparedStatement := do
  let s ← Prog.getState
  let numParameters ← orFail (env.parameterCountFails s.calls)
    (jni (nativeGetParameterCount statementPtr))
  match env.getSqlStatementType s.calls sql with
  | .error e => throwJava e.1
  | .ok type => do
      let readOnly ← orFail (env.isReadOnlyFails s.calls)
        (jni (nativeIsReadOnly statementPtr))
      pure (obtainPreparedStatement sql statementPtr numParameters type readOnly)

def acquirePreparedStatement (sql : String) : NativeProg PreparedStatement := do
  let ptr ← connectionPtr
  let statementPtr ← jni (nativePrepareStatement env ptr sql)
  let statement ← Prog.tryCatch (describeStatement env sql statementPtr) fun ex =>
    -- `statement` is still null: the block assigns it last
    if ex.kind = .runtimeException then do
      let ptr ← connectionPtr
      jni (nativeFinalizeStatement ptr statementPtr)
      Prog.raise ex
    else
      Prog.raise ex
  pure { statement with mInUse := true }

/-- The fields the source clears afterwards are not read again. -/
def finalizePreparedStatement (statement : PreparedStatement) : NativeProg Unit := do
  let ptr ← connectionPtr
  jni (nativeFinalizeStatement ptr statement.mStatementPtr)

def releasePreparedStatement (statement : PreparedStatement) : NativeProg Unit :=
  if statement.mInCache then do
    let ptr ← connectionPtr
    Prog.tryCatch
      (jni (nativeResetStatementAndClearBindings env ptr statement.mStatementPtr))
      fun ex => if ex.isSQLiteException then pure () else Prog.raise ex
  else
    finalizePreparedStatement statement

/-- `execute` and `executeForLastInsertedRowId` are this, with the native call
that runs the statement. The rethrowing handler and the empty `finally` blocks
of the source do nothing. -/
def executeWith {α : Type} (native : Nat → Nat → NativeProg α) (sql : Option String)
    (bindArgs : Option (List JavaObject)) : NativeProg α :=
  match sql with
  | none => throwJava (Throwable.illegalArgument "sql must not be null.")
  | some sql => do
      let statement ← acquirePreparedStatement env sql
      Prog.tryFinally
        (do
          bindArguments env statement bindArgs
          let ptr ← connectionPtr
          jni (native ptr statement.mStatementPtr))
        (releasePreparedStatement env statement)

def NativeSQLiteConnection.execute : Option String → Option (List JavaObject) → NativeProg Unit :=
  executeWith env (nativeExecute env)

def NativeSQLiteConnection.executeForLastInsertedRowId :
    Option String → Option (List JavaObject) → NativeProg Int64 :=
  executeWith env (nativeExecuteForLastInsertedRowId env)

def NativeSQLiteConnection.open (path : String) : NativeProg Unit := do
  let connection ← jni (nativeOpen env path CREATE_IF_NECESSARY)
  Prog.modifyState fun s => { s with mConnectionPtr := connection }

def NativeSQLiteConnection.close : NativeProg Unit := do
  let s ← Prog.getState
  if s.mConnectionPtr ≠ 0 then
    jni (nativeClose env s.mConnectionPtr)
    Prog.modifyState fun s => { s with mConnectionPtr := 0 }
  else
    pure ()

/-! ## Sequences of public calls -/

inductive NativeCall
  | open (path : String)
  | close
  | execute (sql : Option String) (bindArgs : Option (List JavaObject))
  | executeForLastInsertedRowId (sql : Option String)
      (bindArgs : Option (List JavaObject))

/-- The call, with the row id as its result where it has one. -/
def NativeCall.run : NativeCall → NativeProg (Option Int64)
  | .open path => do
      NativeSQLiteConnection.open env path
      pure none
  | .close => do
      NativeSQLiteConnection.close env
      pure none
  | .execute sql bindArgs => do
      NativeSQLiteConnection.execute env sql bindArgs
      pure none
  | .executeForLastInsertedRowId sql bindArgs => do
      let rowid ← NativeSQLiteConnection.executeForLastInsertedRowId env sql bindArgs
      pure (some rowid)

/-- A new object in a process that has opened nothing yet. -/
def NativeState.start : NativeState where
  mConnectionPtr := 0
  pending := none
  calls := 0
  next := 1
  handles := ∅
  wrappers := ∅
  stmts := ∅
  log := []

/-- A process between public calls, and whether it still runs. -/
structure NativeSystem where
  state : NativeState
  alive : Bool

def NativeSystem.next (env : NativeEnv) (s : NativeSystem) (call : NativeCall) :
    Option NativeSystem :=
  if s.alive then
    match call.run env s.state with
    | (.dead, state) => some ⟨state, false⟩
    | (_, state) => some ⟨state, true⟩
  else
    none

def NativeSystem.lts (env : NativeEnv) : Lts NativeSystem NativeCall :=
  Lts.ofNext ⟨NativeState.start, true⟩ (NativeSystem.next env)

/-! ## Statements on one connection -/

/-- A native call with a statement of the connection. -/
inductive StatementCall
  | nativePrepareStatement (sql : String)
  | nativeBindNull (statementPtr index : Nat)
  | nativeBindLong (statementPtr index : Nat) (value : Int64)
  | nativeBindDouble (statementPtr index : Nat) (value : Float)
  | nativeBindString (statementPtr index : Nat) (value : Option (List UInt16))
  | nativeBindBlob (statementPtr index : Nat) (value : List UInt8)
  | nativeExecute (statementPtr : Nat)
  | nativeExecuteForChangedRowCount (statementPtr : Nat)
  | nativeExecuteForLastInsertedRowId (statementPtr : Nat)
  | nativeResetStatementAndClearBindings (statementPtr : Nat)
  | nativeFinalizeStatement (statementPtr : Nat)

def discard {α : Type} (m : NativeProg α) : NativeProg Unit := do
  let _ ← m
  pure ()

def StatementCall.run (connectionPtr : Nat) : StatementCall → NativeProg Unit
  | .nativePrepareStatement sql =>
      discard (jni (Ref.nativePrepareStatement env connectionPtr sql))
  | .nativeBindNull st index => jni (Ref.nativeBindNull env connectionPtr st index)
  | .nativeBindLong st index value =>
      jni (Ref.nativeBindLong env connectionPtr st index value)
  | .nativeBindDouble st index value =>
      jni (Ref.nativeBindDouble env connectionPtr st index value)
  | .nativeBindString st index value =>
      jni (Ref.nativeBindString env connectionPtr st index value)
  | .nativeBindBlob st index value =>
      jni (Ref.nativeBindBlob env connectionPtr st index value)
  | .nativeExecute st => jni (Ref.nativeExecute env connectionPtr st)
  | .nativeExecuteForChangedRowCount st =>
      discard (jni (Ref.nativeExecuteForChangedRowCount env connectionPtr st))
  | .nativeExecuteForLastInsertedRowId st =>
      discard (jni (Ref.nativeExecuteForLastInsertedRowId env connectionPtr st))
  | .nativeResetStatementAndClearBindings st =>
      jni (Ref.nativeResetStatementAndClearBindings env connectionPtr st)
  | .nativeFinalizeStatement st => jni (Ref.nativeFinalizeStatement connectionPtr st)

/-- The call may throw, and then the next one follows all the same. -/
def StatementCall.next (connectionPtr : Nat) (s : NativeState) (call : StatementCall) :
    Option NativeState :=
  match call.run env connectionPtr s with
  | (.dead, _) => none
  | (_, s') => some s'

/-- Native calls on one connection, in any order. -/
def statementCalls (env : NativeEnv) (connectionPtr : Nat) (s₀ : NativeState) :
    Lts NativeState StatementCall :=
  Lts.ofNext s₀ (StatementCall.next env connectionPtr)

end OrmBenchmark.Ref
