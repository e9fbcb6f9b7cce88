import OrmBenchmark.Ref.NoOrm

/-!
# The other six adapters

Each over the library it measures. Of a library only the calls the adapter
makes appear, with the effect its documentation promises: a save appends the
entities or throws, a load returns the rows of the table. What an adapter does
around them is its own: where it deletes the file, when it opens and closes,
what it catches.
-/

namespace OrmBenchmark.Ref

open OrmBenchmark.Lib

variable (env : Android)

/-! ## What the libraries share -/

/-- The columns of a table a library lays out for itself. -/
def entityColumns : List Column :=
  [⟨"id", .integer, true⟩, ⟨"field1", .text, false⟩, ⟨"field2", .text, false⟩,
    ⟨"field3", .text, false⟩, ⟨"field4", .integer, false⟩, ⟨"field5", .integer, false⟩]

def Table.addEntity (t : Table) (entity : Entity) : Table :=
  t.addRow (.integer (Int64.ofNat (t.sequence + 1)) :: entity.values)

/-- Append entities, all or none. -/
def saveAll (db : Nat) (missing : Throwable) (entities : List Entity) : AndroidProg Unit := do
  call env
  onTable db missing fun t => entities.foldl Table.addEntity t

def loadAll (db : Nat) (missing : Throwable) : AndroidProg (List Entity) := do
  call env
  let t ← getTable db missing
  pure (t.rows.map (Entity.ofRow env))

/-- Where a library keeps the handle of its database. -/
structure Slot where
  get : Objects → Option Nat
  set : Option Nat → Objects → Objects

namespace Slot

def db (slot : Slot) : AndroidProg Nat := do
  let w ← Prog.getState
  match slot.get w.objects with
  | none => Prog.raise .nullPointer
  | some db => pure db

def put (slot : Slot) (db : Option Nat) : AndroidProg Unit :=
  Prog.modifyState fun w => { w with objects := slot.set db w.objects }

def open' (slot : Slot) (name : String) : AndroidProg Unit := do
  let (db, _) ← SQLiteOpenHelper.getWritableDatabase env (createTable env true entityColumns)
    ⟨name, none⟩
  slot.put (some db)

def close (slot : Slot) : AndroidProg Unit := do
  let w ← Prog.getState
  match slot.get w.objects with
  | none => pure ()
  | some db => do
      call env
      closeHandle db
      slot.put none

end Slot

/-! ## `greendao` -/

namespace GreenDaoEntityDao

def columns : List Column :=
  [⟨"_id", .integer, true⟩, ⟨"FIELD1", .text, false⟩, ⟨"FIELD2", .text, false⟩,
    ⟨"FIELD3", .text, false⟩, ⟨"FIELD4", .integer, false⟩, ⟨"FIELD5", .integer, false⟩]

/-- The bindings `bindValues` makes; a new entity has no id. -/
def bindValues (entity : Entity) : AList fun _ : Nat => SqlValue :=
  let bindText (index : Nat) (field : Option String)
      (bindings : AList fun _ : Nat => SqlValue) : AList fun _ : Nat => SqlValue :=
    match field with
    | none => bindings
    | some value => bindings.insert index (.text value)
  ((bindText 4 entity.field3 (bindText 3 entity.field2 (bindText 2 entity.field1 ∅))).insert 5
    (.integer entity.field4.toInt64)).insert 6 (.integer entity.field5)

def readEntity (row : List SqlValue) (offset : Nat) : Entity where
  field1 := (row.getD (offset + 1) .null).getString
  field2 := (row.getD (offset + 2) .null).getString
  field3 := (row.getD (offset + 3) .null).getString
  field4 := (row.getD (offset + 4) .null).getInt env
  field5 := (row.getD (offset + 5) .null).getLong env

def addRow (t : Table) (entity : Entity) : Table :=
  t.addRow (t.newRow env (columns.map Column.name)
    (boundValues columns.length (bindValues entity)))

/-- `AbstractDao.insertInTx`, with this class's `bindValues`. -/
def insertInTx (db : Nat) (entities : List Entity) : AndroidProg Unit := do
  call env
  onTable db noSuchTable fun t => entities.foldl (addRow env) t

/-- `AbstractDao.loadAll`, with this class's `readEntity`. -/
def loadAll (db : Nat) : AndroidProg (List Entity) := do
  call env
  let t ← getTable db noSuchTable
  pure (t.rows.map fun row => readEntity env row 0)

end GreenDaoEntityDao

namespace GreenDaoBenchmark

/-- The database of `daoMaster`, `daoSession` and `dao`. -/
def slot : Slot := ⟨Objects.greenDao, fun db objects => { objects with greenDao := db }⟩

/-- The open helper is a local variable. -/
def init : AndroidProg Unit := do
  deleteDatabase env "greendao"
  let (db, _) ← SQLiteOpenHelper.getWritableDatabase env
    (createTable env false GreenDaoEntityDao.columns) ⟨"greendao", none⟩
  call env
  slot.put (some db)

/-- `daoSession.clear()`. -/
def clear : AndroidProg Unit := do
  let _ ← slot.db
  call env

def saveEntitiesInTransaction (entities : List Entity) : AndroidProg Unit := do
  let db ← slot.db
  GreenDaoEntityDao.insertInTx env db entities

def loadEntities : AndroidProg (Option (List Entity)) := do
  let db ← slot.db
  let entities ← GreenDaoEntityDao.loadAll env db
  pure (some entities)

end GreenDaoBenchmark

def greenDaoBenchmark : Benchmark World where
  getName := "Green Dao"
  init := GreenDaoBenchmark.init env
  saveEntitiesInTransaction := GreenDaoBenchmark.saveEntitiesInTransaction env
  loadEntities := GreenDaoBenchmark.loadEntities env
  clearCache := GreenDaoBenchmark.clear env
  dispose := GreenDaoBenchmark.clear env

/-! ## `ormlite` -/

/-- `catch (SQLException e)`. -/
def catchSQLException {α : Type} (m : AndroidProg α) (handler : AndroidProg α) :
    AndroidProg α :=
  Prog.tryCatch m fun e => if e.kind = .sqlException then handler else Prog.raise e

/-- `catch (Exception e)`. -/
def catchException {α : Type} (m : AndroidProg α) (handler : AndroidProg α) :
    AndroidProg α :=
  Prog.tryCatch m fun e => if e.kind = .error then Prog.raise e else handler

def sqlNoSuchTable : Throwable := .sqlException "no such table"

namespace DatabaseHelper

def setInstance (instance' : Option SQLiteOpenHelper) : AndroidProg Unit :=
  Prog.modifyState fun w => { w with objects := { w.objects with ormLite := instance' } }

def getInstance : AndroidProg SQLiteOpenHelper := do
  let w ← Prog.getState
  match w.objects.ormLite with
  | some instance' => pure instance'
  | none => do
      call env
      setInstance (some ⟨"ormlite", none⟩)
      pure ⟨"ormlite", none⟩

def dispose : AndroidProg Unit := do
  let w ← Prog.getState
  match w.objects.ormLite with
  | none => Prog.raise .nullPointer
  | some instance' => do
      let _ ← instance'.close env
      setInstance none

/-- A table that could not be created is logged and done without. -/
def onCreate (db : Nat) : AndroidProg Unit :=
  catchSQLException (createTable env false entityColumns db) (pure ())

/-- `none` is the `null` of the handler; a DAO has no state of its own here. -/
def getDao : AndroidProg (Option Unit) :=
  catchSQLException
    (do
      call env -- super.getDao(clazz)
      call env -- dao.setObjectCache(false)
      pure (some ()))
    (pure none)

/-- The database behind the connection source, opened when it is first asked
for a connection. -/
def getConnection : AndroidProg Nat := do
  let self ← getInstance env
  call env
  let (db, helper) ← self.getWritableDatabase env (onCreate env)
  setInstance (some helper)
  pure db

end DatabaseHelper

namespace OrmLiteBenchmark

def init : AndroidProg Unit := do
  deleteDatabase env "ormlite"
  let _ ← DatabaseHelper.getInstance env
  pure ()

/-- `TransactionManager.callInTransaction`. -/
def callInTransaction (callable : Nat → AndroidProg Unit) : AndroidProg Unit := do
  let db ← DatabaseHelper.getConnection env
  beginTransaction env db
  Prog.tryFinally
    (do
      callable db
      setTransactionSuccessful env db)
    (endTransaction env db)

def createIfNotExists (dao : Option Unit) (db : Nat) (entity : Entity) : AndroidProg Unit :=
  match dao with
  | none => Prog.raise .nullPointer
  | some _ => saveAll env db sqlNoSuchTable [entity]

def queryForAll (dao : Option Unit) : AndroidProg (List Entity) :=
  match dao with
  | none => Prog.raise .nullPointer
  | some _ => do
      let db ← DatabaseHelper.getConnection env
      loadAll env db sqlNoSuchTable

/-- Whatever exception it was, the save returns. -/
def saveEntitiesInTransaction (entities : List Entity) : AndroidProg Unit := do
  let _ ← DatabaseHelper.getInstance env
  let dao ← DatabaseHelper.getDao env
  catchException
    (callInTransaction env fun db => Prog.forEach (createIfNotExists env dao db) entities)
    (pure ())

def loadEntities : AndroidProg (Option (List Entity)) := do
  let _ ← DatabaseHelper.getInstance env
  let dao ← DatabaseHelper.getDao env
  catchSQLException
    (do
      let entities ← queryForAll env dao
      pure (some entities))
    (pure none)

def clearCache : AndroidProg Unit := do
  let _ ← DatabaseHelper.getInstance env
  let dao ← DatabaseHelper.getDao env
  match dao with
  | none => Prog.raise .nullPointer
  | some _ => call env

end OrmLiteBenchmark

def ormLiteBenchmark : Benchmark World where
  getName := "ORMLite"
  init := OrmLiteBenchmark.init env
  saveEntitiesInTransaction := OrmLiteBenchmark.saveEntitiesInTransaction env
  loadEntities := OrmLiteBenchmark.loadEntities env
  clearCache := OrmLiteBenchmark.clearCache env
  dispose := DatabaseHelper.dispose env

/-! ## `activeandroid` and `activeandroid.sebbia` -/

/-- `ActiveAndroid.initialize`: a second time it does nothing. -/
def initializeLibrary (slot : Slot) (name : String) : AndroidProg Unit := do
  let w ← Prog.getState
  match slot.get w.objects with
  | some _ => pure ()
  | none => slot.open' env name

/-- The two `saveEntitiesInTransaction`s, with what saves the entities. The
begin is inside the block whose `finally` ends the transaction, and the database
is asked for each time. -/
def saveInTransaction (slot : Slot) (save : AndroidProg Unit) : AndroidProg Unit :=
  Prog.tryFinally
    (do
      let db ← slot.db
      beginTransaction env db
      save
      let db ← slot.db
      setTransactionSuccessful env db)
    (do
      let db ← slot.db
      endTransaction env db)

/-- `Model.save` and `Model.saveMultiple`. -/
def saveModels (slot : Slot) (entities : List Entity) : AndroidProg Unit := do
  let db ← slot.db
  saveAll env db noSuchTable entities

/-- `new Select().from(...).execute()`. -/
def select (slot : Slot) : AndroidProg (Option (List Entity)) := do
  let db ← slot.db
  let entities ← loadAll env db noSuchTable
  pure (some entities)

namespace ActiveAndroidBenchmark

def slot : Slot :=
  ⟨Objects.activeAndroid, fun db objects => { objects with activeAndroid := db }⟩

def init : AndroidProg Unit := initializeLibrary env slot "activeandroid"

def dispose : AndroidProg Unit := do
  slot.close env
  deleteDatabase env "activeandroid"

def saveEntitiesInTransaction (entities : List Entity) : AndroidProg Unit :=
  saveInTransaction env slot (Prog.forEach (fun entity => saveModels env slot [entity]) entities)

end ActiveAndroidBenchmark

def activeAndroidBenchmark : Benchmark World where
  getName := "ActiveAndroid"
  init := ActiveAndroidBenchmark.init env
  saveEntitiesInTransaction := ActiveAndroidBenchmark.saveEntitiesInTransaction env
  loadEntities := select env ActiveAndroidBenchmark.slot
  clearCache := call env
  dispose := ActiveAndroidBenchmark.dispose env

namespace ActiveAndroidSebbiaBenchmark

def slot : Slot :=
  ⟨Objects.activeAndroidSebbia, fun db objects => { objects with activeAndroidSebbia := db }⟩

def init : AndroidProg Unit := do
  deleteDatabase env "activeandroid_sebbia"
  initializeLibrary env slot "activeandroid_sebbia"

def dispose : AndroidProg Unit := do
  slot.close env
  deleteDatabase env "activeandroid_sebbia"

def saveEntitiesInTransaction (entities : List Entity) : AndroidProg Unit :=
  saveInTransaction env slot (saveModels env slot entities)

end ActiveAndroidSebbiaBenchmark

def activeAndroidSebbiaBenchmark : Benchmark World where
  getName := "ActiveAndroid.Sebbia"
  init := ActiveAndroidSebbiaBenchmark.init env
  saveEntitiesInTransaction := ActiveAndroidSebbiaBenchmark.saveEntitiesInTransaction env
  loadEntities := select env ActiveAndroidSebbiaBenchmark.slot
  clearCache := call env
  dispose := ActiveAndroidSebbiaBenchmark.dispose env

/-! ## `sugarorm` -/

namespace SugarOrmBenchmark

def slot : Slot := ⟨Objects.sugar, fun db objects => { objects with sugar := db }⟩

def init : AndroidProg Unit := do
  deleteDatabase env "sugarorm.db"
  slot.open' env "sugarorm.db"

end SugarOrmBenchmark

def sugarOrmBenchmark : Benchmark World where
  getName := "Sugar ORM"
  init := SugarOrmBenchmark.init env
  saveEntitiesInTransaction := saveModels env SugarOrmBenchmark.slot
  loadEntities := select env SugarOrmBenchmark.slot
  clearCache := call env
  dispose := SugarOrmBenchmark.slot.close env

/-! ## `genericdao` -/

namespace GenericDaoBenchmark

def slot : Slot := ⟨Objects.genericDao, fun db objects => { objects with genericDao := db }⟩

/-- A new content provider each time, and then `delete(GenericDaoEntity.class)`. -/
def init : AndroidProg Unit := do
  call env
  slot.open' env env.genericDaoDatabase
  let db ← slot.db
  call env
  onTable db noSuchTable fun t => { t with rows := [] }

end GenericDaoBenchmark

def genericDaoBenchmark : Benchmark World where
  getName := "GenericDao"
  init := GenericDaoBenchmark.init env
  saveEntitiesInTransaction := saveModels env GenericDaoBenchmark.slot
  loadEntities := select env GenericDaoBenchmark.slot
  clearCache := pure ()
  dispose := pure ()

/-- `BenchmarkExecutor.BENCHMARKS`. -/
def benchmarks : List (Benchmark World) :=
  [noOrmBenchmark env, greenDaoBenchmark env, ormLiteBenchmark env,
    activeAndroidBenchmark env, activeAndroidSebbiaBenchmark env, sugarOrmBenchmark env,
    genericDaoBenchmark env]

end OrmBenchmark.Ref
