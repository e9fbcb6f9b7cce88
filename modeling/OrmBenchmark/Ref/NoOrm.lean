import OrmBenchmark.Ref.Android

/-!
# The plain helper

`noorm/NoOrmSQLiteHelper.java`, `noorm/NoOrmEntity.java` and
`noorm/NoOrmBenchmark.java`. One statement is compiled when the helper is made
and used for every insert; what was bound to it stays until it is cleared.
-/

namespace OrmBenchmark.Ref

open OrmBenchmark.Lib

variable (env : Android)

/-! ## `SQLiteStatement` and `Cursor` -/

def clearBindings : AndroidProg Unit := do
  call env
  Prog.modifyState fun w => { w with bindings := ∅ }

def bindLong (index : Nat) (value : Int64) : AndroidProg Unit := do
  call env
  Prog.modifyState fun w => { w with bindings := w.bindings.insert index (.integer value) }

def bindString (index : Nat) (value : Option String) : AndroidProg Unit :=
  match value with
  | none => fail (.illegalArgument s!"the bind value at index {index} is null")
  | some value => do
      call env
      Prog.modifyState fun w => { w with bindings := w.bindings.insert index (.text value) }

/-- The values of the parameters; one that is not bound is `NULL`. -/
def boundValues (parameters : Nat) (bindings : AList fun _ : Nat => SqlValue) :
    List SqlValue :=
  (List.range parameters).map fun i => (bindings.lookup (i + 1)).getD .null

def executeInsert (statement : SQLiteStatement) : AndroidProg Unit := do
  call env
  let w ← Prog.getState
  onTable statement.db noSuchTable fun t =>
    t.addRow (t.newRow env statement.columns
      (boundValues statement.columns.length w.bindings))

/-- `cursor.getString`, `getInt` and `getLong` all begin with this. -/
def getColumn (row : List SqlValue) (columnIndex : Nat) : AndroidProg SqlValue := do
  call env
  match row[columnIndex]? with
  | none => fail (.illegalState s!"Couldn't read row, col {columnIndex} from CursorWindow.")
  | some value => pure value

/-! ## `NoOrmEntity` -/

namespace NoOrmEntity

def fromCursor (row : List SqlValue) : AndroidProg Entity := do
  let field1 ← getColumn env row 1
  let field2 ← getColumn env row 2
  let field3 ← getColumn env row 3
  let field4 ← getColumn env row 4
  let field5 ← getColumn env row 5
  pure
    { field1 := field1.getString
      field2 := field2.getString
      field3 := field3.getString
      field4 := field4.getInt env
      field5 := field5.getLong env }

def bindToStatement (entity : Entity) : AndroidProg Unit := do
  bindString env 1 entity.field1
  bindString env 2 entity.field2
  bindString env 3 entity.field3
  bindLong env 4 entity.field4.toInt64
  bindLong env 5 entity.field5

end NoOrmEntity

/-! ## `NoOrmSQLiteHelper` -/

namespace NoOrmSQLiteHelper

def ID : String := "_id"
def FIELD_1 : String := "field1"
def FIELD_2 : String := "field2"
def FIELD_3 : String := "field3"
def FIELD_4 : String := "field4"
def FIELD_5 : String := "field5"

def columns : List Column :=
  [⟨ID, .integer, true⟩, ⟨FIELD_1, .text, false⟩, ⟨FIELD_2, .text, false⟩,
    ⟨FIELD_3, .text, false⟩, ⟨FIELD_4, .integer, false⟩, ⟨FIELD_5, .integer, false⟩]

def onCreate (db : Nat) : AndroidProg Unit := createTable env true columns db

def insertColumns : List String := [FIELD_1, FIELD_2, FIELD_3, FIELD_4, FIELD_5]

/-- The constructor; `createInsertStatement()` is its second half. -/
def new : AndroidProg NoOrmSQLiteHelper := do
  let (db, helper) ← SQLiteOpenHelper.getWritableDatabase env (onCreate env) ⟨"no_orm", none⟩
  call env
  Prog.modifyState fun w => { w with bindings := ∅ }
  pure ⟨helper, ⟨db, insertColumns⟩⟩

end NoOrmSQLiteHelper

/-- The field `sqLiteHelper`. -/
def sqLiteHelper : AndroidProg NoOrmSQLiteHelper := do
  let w ← Prog.getState
  match w.objects.sqLiteHelper with
  | none => Prog.raise .nullPointer
  | some helper => pure helper

def setSqLiteHelper (helper : NoOrmSQLiteHelper) : AndroidProg Unit :=
  Prog.modifyState fun w => { w with objects := { w.objects with sqLiteHelper := some helper } }

namespace NoOrmSQLiteHelper

/-- `getWritableDatabase()` on the helper the field holds. -/
def getWritableDatabase : AndroidProg Nat := do
  let self ← sqLiteHelper
  let (db, helper) ← self.helper.getWritableDatabase env (onCreate env)
  setSqLiteHelper { self with helper := helper }
  pure db

def insert (entity : Entity) : AndroidProg Unit := do
  clearBindings env
  NoOrmEntity.bindToStatement env entity
  let self ← sqLiteHelper
  executeInsert env self.insertStatement

/-- The begin is inside the block whose `finally` ends the transaction. -/
def insertInTransaction (entities : List Entity) : AndroidProg Unit := do
  let db ← getWritableDatabase env
  Prog.tryFinally
    (do
      if 11 ≤ env.SDK_INT then beginTransactionNonExclusive env db
      else beginTransaction env db
      Prog.forEach (insert env) entities
      setTransactionSuccessful env db)
    (endTransaction env db)

/-- The cursor is null, and not closed, until the query has returned it. -/
def getAllEntities : AndroidProg (List Entity) := do
  let db ← getWritableDatabase env
  call env
  let cursor ← getTable db noSuchTable
  Prog.tryFinally
    (do
      let result ← Prog.mapEach
        (fun row => do
          call env
          NoOrmEntity.fromCursor env row)
        cursor.rows
      call env
      pure result)
    (call env)

/-- `_id =?` with `String.valueOf(id)`; the column is numeric, so the two are
compared as numbers. -/
def queryById (db : Nat) (id : Int64) : AndroidProg (List (List SqlValue)) := do
  call env
  let t ← getTable db noSuchTable
  pure (t.rows.filter fun row => row.getD 0 .null = .integer id)

/-- The cursor is closed whether there is one or not: where there is none the
`finally` throws, and what had been thrown is lost. -/
def findEntity (id : Int64) : AndroidProg (Option Entity) := do
  let cursor ← Prog.tryCatch
    (do
      let db ← getWritableDatabase env
      queryById env db id)
    fun _ => Prog.raise .nullPointer
  Prog.tryFinally
    (do
      call env
      match cursor with
      | [] => pure none
      | row :: _ => do
          let entity ← NoOrmEntity.fromCursor env row
          pure (some entity))
    (call env)

end NoOrmSQLiteHelper

/-! ## `NoOrmBenchmark` -/

namespace NoOrmBenchmark

def init : AndroidProg Unit := do
  deleteDatabase env "no_orm"
  let helper ← NoOrmSQLiteHelper.new env
  setSqLiteHelper helper

def dispose : AndroidProg Unit := do
  let self ← sqLiteHelper
  let helper ← self.helper.close env
  setSqLiteHelper { self with helper := helper }

def saveEntitiesInTransaction (entities : List Entity) : AndroidProg Unit :=
  NoOrmSQLiteHelper.insertInTransaction env entities

def loadEntities : AndroidProg (Option (List Entity)) := do
  let entities ← NoOrmSQLiteHelper.getAllEntities env
  pure (some entities)

end NoOrmBenchmark

def noOrmBenchmark : Benchmark World where
  getName := "SQLiteOpenHelper"
  init := NoOrmBenchmark.init env
  saveEntitiesInTransaction := NoOrmBenchmark.saveEntitiesInTransaction env
  loadEntities := NoOrmBenchmark.loadEntities env
  clearCache := pure ()
  dispose := NoOrmBenchmark.dispose env

end OrmBenchmark.Ref
