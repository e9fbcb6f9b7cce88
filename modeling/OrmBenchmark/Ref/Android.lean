import Mathlib.Data.List.AList
import Mathlib.Logic.Function.Basic
import OrmBenchmark.Lib.Prog
import OrmBenchmark.Lib.TxStore
import OrmBenchmark.Ref.Executor

/-!
# Databases as the adapters use them

The part of the device the adapters work on: the database files and the names
that lead to them, the handles the process has open, and the objects it keeps.
A file and what was committed to it survive the process; handles, transactions
and objects do not.

Every call into a library may return, throw or find the process dead, as
`Android.answer` has it by the number of the call, and does nothing unless it
returns. A commit that throws rolls back. What the calls do is what the
documentation of `SQLiteDatabase`, `SQLiteOpenHelper` and `Context` says of
them; a database holds one table here, the adapter's.
-/

namespace OrmBenchmark.Ref

open OrmBenchmark.Lib

/-! ## Tables -/

inductive SqlValue
  | null
  | integer (value : Int64)
  | text (value : String)
deriving DecidableEq, Repr

inductive Affinity
  | text
  | integer
deriving DecidableEq, Repr

structure Column where
  name : String
  affinity : Affinity
  /-- `INTEGER PRIMARY KEY AUTOINCREMENT` -/
  rowid : Bool
deriving DecidableEq, Repr

structure Table where
  columns : List Column
  rows : List (List SqlValue)
  sequence : Nat
deriving DecidableEq, Repr

structure Content where
  version : Nat
  table : Option Table

inductive Answer
  | ok
  | throws (e : Throwable)
  | kill

/-- The device. `store` is what a column of an affinity makes of a value. -/
structure Android where
  answer : Nat → Answer
  SDK_INT : Nat
  store : Affinity → SqlValue → SqlValue
  store_null : ∀ affinity, store affinity .null = .null
  store_text : ∀ value, store .text (.text value) = .text value
  store_integer : ∀ value, store .integer (.integer value) = .integer value
  /-- what `getLong` makes of a text -/
  parseLong : String → Int64
  /-- the database of the content provider inside the GenericDao library -/
  genericDaoDatabase : String

/-- A device with these answers: a text that is a number is stored as one in an
integer column, and a number as its text in a text column. -/
def Android.answering (answer : Nat → Answer) : Android where
  answer := answer
  SDK_INT := 19
  store
    | .text, .integer value => .text (toString value)
    | .integer, .text value =>
        match value.toInt? with
        | none => .text value
        | some n => .integer (.ofInt n)
    | _, value => value
  store_null affinity := by cases affinity <;> rfl
  store_text _ := rfl
  store_integer _ := rfl
  parseLong value := .ofInt (value.toInt?.getD 0)
  genericDaoDatabase := "generic_dao"

namespace SqlValue

def getString : SqlValue → Option String
  | null => none
  | integer value => some (toString value)
  | text value => some value

def getLong (env : Android) : SqlValue → Int64
  | null => 0
  | integer value => value
  | text value => env.parseLong value

def getInt (env : Android) (value : SqlValue) : Int32 := (value.getLong env).toInt32

def ofString : Option String → SqlValue
  | none => null
  | some value => text value

end SqlValue

/-- The row an `INSERT` with these columns and values makes. -/
def Table.newRow (env : Android) (columns : List String) (values : List SqlValue)
    (t : Table) : List SqlValue :=
  t.columns.map fun column =>
    let value := match columns.idxOf? column.name with
      | none => .null
      | some i => values.getD i .null
    if column.rowid && value = .null then .integer (Int64.ofNat (t.sequence + 1))
    else env.store column.affinity value

def Table.addRow (row : List SqlValue) (t : Table) : Table where
  columns := t.columns
  rows := t.rows ++ [row]
  sequence := t.sequence + 1

/-- The five fields of an entity as the values of its columns. -/
def Entity.values (entity : Entity) : List SqlValue :=
  [.ofString entity.field1, .ofString entity.field2, .ofString entity.field3,
    .integer entity.field4.toInt64, .integer entity.field5]

/-- An entity read back from a row that begins with the row id. -/
def Entity.ofRow (env : Android) (row : List SqlValue) : Entity where
  field1 := (row.getD 1 .null).getString
  field2 := (row.getD 2 .null).getString
  field3 := (row.getD 3 .null).getString
  field4 := (row.getD 4 .null).getInt env
  field5 := (row.getD 5 .null).getLong env

def Content.entities (env : Android) (content : Content) : List Entity :=
  match content.table with
  | none => []
  | some t => t.rows.map (Entity.ofRow env)

/-! ## The world -/

/-- `android.database.sqlite.SQLiteOpenHelper`. -/
structure SQLiteOpenHelper where
  name : String
  mDatabase : Option Nat

/-- The statement a `compileStatement` returned; its bindings are the world's. -/
structure SQLiteStatement where
  db : Nat
  columns : List String

structure NoOrmSQLiteHelper where
  helper : SQLiteOpenHelper
  insertStatement : SQLiteStatement

/-- The objects and static fields that live as long as the process: the fields
of the adapters, `DatabaseHelper.instance`, and for each library that keeps its
database to itself the handle it works on. -/
structure Objects where
  sqLiteHelper : Option NoOrmSQLiteHelper
  greenDao : Option Nat
  ormLite : Option SQLiteOpenHelper
  activeAndroid : Option Nat
  activeAndroidSebbia : Option Nat
  sugar : Option Nat
  genericDao : Option Nat

def Objects.none : Objects := ⟨.none, .none, .none, .none, .none, .none, .none⟩

structure World where
  /-- library calls so far, and how many of them threw -/
  calls : Nat
  failures : Nat
  /-- the number of the next file or handle -/
  next : Nat
  names : String → Option Nat
  files : Nat → Option (TxStore Content)
  /-- open handles, and the file each is open on -/
  handles : AList fun _ : Nat => Nat
  /-- bindings of the insert statement -/
  bindings : AList fun _ : Nat => SqlValue
  objects : Objects
  /-- deleted names, and whether the file was open in the process -/
  deletions : List (String × Bool)

abbrev AndroidProg := Prog World Throwable

/-- A device nothing was stored on, with a new process. -/
def World.empty : World where
  calls := 0
  failures := 0
  next := 0
  names _ := none
  files _ := none
  handles := ∅
  bindings := ∅
  objects := Objects.none
  deletions := []

/-- The process has ended and a new one starts. -/
def World.restart (w : World) : World :=
  { w with
    files := fun file => (w.files file).map TxStore.abandon
    handles := ∅
    bindings := ∅
    objects := Objects.none }

/-- The committed entities of a database. -/
def World.stored (env : Android) (w : World) (name : String) : List Entity :=
  match (w.names name).bind w.files with
  | none => []
  | some s => s.committed.entities env

section

variable (env : Android)

/-! ## Library calls -/

def fail {α : Type} (e : Throwable) : AndroidProg α := do
  Prog.modifyState fun w => { w with failures := w.failures + 1 }
  Prog.raise e

/-- A call that has no effect of its own here. -/
def call : AndroidProg Unit := do
  let w ← Prog.getState
  Prog.modifyState fun w => { w with calls := w.calls + 1 }
  match env.answer w.calls with
  | .ok => pure ()
  | .throws e => fail e
  | .kill => Prog.die

def newNumber : AndroidProg Nat := fun w => (.ok w.next, { w with next := w.next + 1 })

/-- The file a handle is open on. -/
def World.store? (w : World) (db : Nat) : Option (Nat × TxStore Content) :=
  (w.handles.lookup db).bind fun file => (w.files file).map fun s => (file, s)

def alreadyClosed : Throwable :=
  .illegalState "attempt to re-open an already-closed object"

def noTransaction : Throwable :=
  .illegalState "Cannot perform this operation because there is no current transaction."

def noSuchTable : Throwable :=
  ⟨.runtimeException, "android/database/sqlite/SQLiteException", some "no such table"⟩

def tableExists : Throwable :=
  ⟨.runtimeException, "android/database/sqlite/SQLiteException",
    some "table already exists"⟩

def getStore (db : Nat) : AndroidProg (TxStore Content) := do
  let w ← Prog.getState
  match w.store? db with
  | none => fail alreadyClosed
  | some (_, s) => pure s

/-- Change what is behind a handle, or throw. -/
def onStore (db : Nat) (f : TxStore Content → Except Throwable (TxStore Content)) :
    AndroidProg Unit := do
  let w ← Prog.getState
  match w.store? db with
  | none => fail alreadyClosed
  | some (file, s) =>
      match f s with
      | .error e => fail e
      | .ok s' =>
          Prog.modifyState fun w => { w with files := Function.update w.files file (some s') }

/-- Change the table behind a handle. -/
def onTable (db : Nat) (missing : Throwable) (f : Table → Table) : AndroidProg Unit :=
  onStore db fun s =>
    match s.current.table with
    | none => .error missing
    | some t => .ok (s.update fun content => { content with table := some (f t) })

def getTable (db : Nat) (missing : Throwable) : AndroidProg Table := do
  let s ← getStore db
  match s.current.table with
  | none => fail missing
  | some t => pure t

/-! ## `SQLiteDatabase` -/

def beginTransaction (db : Nat) : AndroidProg Unit := do
  call env
  onStore db fun s => .ok s.begin'

/-- The two modes differ in what other connections may do meanwhile. -/
def beginTransactionNonExclusive (db : Nat) : AndroidProg Unit :=
  beginTransaction env db

def setTransactionSuccessful (db : Nat) : AndroidProg Unit := do
  call env
  onStore db fun s =>
    match s.mark with
    | none => .error noTransaction
    | some s' => .ok s'

def finishTransaction (db : Nat) (commits : Bool) : AndroidProg Unit :=
  onStore db fun s =>
    match s.finish commits with
    | none => .error noTransaction
    | some s' => .ok s'

def endTransaction (db : Nat) : AndroidProg Unit := do
  Prog.tryCatch (call env) fun e => do
    finishTransaction db false
    Prog.raise e
  finishTransaction db true

/-- `execSQL("CREATE TABLE ...")`. -/
def createTable (ifNotExists : Bool) (columns : List Column) (db : Nat) :
    AndroidProg Unit := do
  call env
  onStore db fun s =>
    match s.current.table with
    | none => .ok (s.update fun content => { content with table := some ⟨columns, [], 0⟩ })
    | some _ => if ifNotExists then .ok s else .error tableExists

/-! ## Opening and closing -/

def newHandle' (file : Nat) : AndroidProg Nat := do
  let db ← newNumber
  Prog.modifyState fun w => { w with handles := w.handles.insert db file }
  pure db

/-- Open the database of this name; one that does not exist is created empty. -/
def openDatabase (name : String) : AndroidProg Nat := do
  call env
  let w ← Prog.getState
  match w.names name with
  | some file => newHandle' file
  | none => do
      let file ← newNumber
      Prog.modifyState fun w =>
        { w with
          names := Function.update w.names name (some file)
          files := Function.update w.files file (some (.ofCommitted ⟨0, none⟩)) }
      newHandle' file

def closeHandle (db : Nat) : AndroidProg Unit :=
  Prog.modifyState fun w =>
    match w.handles.lookup db with
    | none => w
    | some file =>
        { w with
          files := Function.update w.files file ((w.files file).map TxStore.abandon)
          handles := w.handles.erase db }

def World.isOpen (w : World) (name : String) : Bool :=
  match w.names name with
  | none => false
  | some file => w.handles.entries.any fun e => e.2 == file

/-- `Context.deleteDatabase`: open handles keep the file, the name is free. -/
def deleteDatabase (name : String) : AndroidProg Unit := do
  call env
  Prog.modifyState fun w =>
    { w with
      names := Function.update w.names name none
      deletions := w.deletions ++ [(name, w.isOpen name)] }

namespace SQLiteOpenHelper

/-- `onCreate` in its transaction, for a database without a version. -/
def create (onCreate : Nat → AndroidProg Unit) (db : Nat) : AndroidProg Unit := do
  let s ← getStore db
  if s.current.version = 0 then
    beginTransaction env db
    Prog.tryFinally
      (do
        onCreate db
        onStore db fun s => .ok (s.update fun content => { content with version := 1 })
        setTransactionSuccessful env db)
      (endTransaction env db)
  else
    pure ()

/-- `getWritableDatabase()`, and `getReadableDatabase()`, which opens the same
way where it can. -/
def getWritableDatabase (onCreate : Nat → AndroidProg Unit) (helper : SQLiteOpenHelper) :
    AndroidProg (Nat × SQLiteOpenHelper) :=
  match helper.mDatabase with
  | some db => pure (db, helper)
  | none => do
      let db ← openDatabase env helper.name
      Prog.tryCatch (create env onCreate db) fun e => do
        closeHandle db
        Prog.raise e
      pure (db, { helper with mDatabase := some db })

def close (helper : SQLiteOpenHelper) : AndroidProg SQLiteOpenHelper :=
  match helper.mDatabase with
  | none => pure helper
  | some db => do
      call env
      closeHandle db
      pure { helper with mDatabase := none }

end SQLiteOpenHelper

end

end OrmBenchmark.Ref
