import Mathlib.Data.List.Induction
import OrmBenchmark.Proofs.Separation

/-!
# What a pass leaves of the other databases

Each of the five methods of each adapter works on the database of that adapter
only, so a pass does, whether it returns, throws or is killed. Over a run: what
the last pass on a database left there is there until the next one, whatever
passes of other adapters come in between.
-/

namespace OrmBenchmark.Ref

open OrmBenchmark.Lib OrmBenchmark.Lib.Prog

/-- Whatever it does and however it ends, the adapter keeps to this database. -/
structure KeepsTo (env : Android) (b : Benchmark World) (name : String) : Prop where
  init : ∀ {w₀ met}, Preserves (Keeps env name w₀ met) b.init
  save : ∀ {w₀ met entities},
    Preserves (Keeps env name w₀ met) (b.saveEntitiesInTransaction entities)
  load : ∀ {w₀ met}, Preserves (Keeps env name w₀ met) b.loadEntities
  clearCache : ∀ {w₀ met}, Preserves (Keeps env name w₀ met) b.clearCache
  dispose : ∀ {w₀ met}, Preserves (Keeps env name w₀ met) b.dispose

/-- The slot holds handles of this database, and nothing else. -/
structure Slot.Of (env : Android) (slot : Slot) (name : String) : Prop where
  get : ∀ objects db, slot.get objects = some db → (name, db) ∈ objects.held env
  set : ∀ db objects, ∀ p ∈ (slot.set db objects).held env,
    p ∈ objects.held env ∨ ∃ d ∈ db, p = (name, d)
  helpers : ∀ db objects, objects.HelpersNamed → (slot.set db objects).HelpersNamed

def slots (env : Android) : List (Slot × String) :=
  [(GreenDaoBenchmark.slot, "greendao"), (ActiveAndroidBenchmark.slot, "activeandroid"),
    (ActiveAndroidSebbiaBenchmark.slot, "activeandroid_sebbia"),
    (SugarOrmBenchmark.slot, "sugarorm.db"), (GenericDaoBenchmark.slot, env.genericDaoDatabase)]

section

variable {env : Android} {name : String} {w₀ : World} {met : List (String × Nat)}
  {db : Nat} {slot : Slot} {entities : List Entity}

theorem slots_of (h : (slot, name) ∈ slots env) : slot.Of env name := by
  simp only [slots, List.mem_cons, Prod.mk.injEq, List.not_mem_nil, or_false] at h
  refine ⟨fun objects db hget => ?_, fun db objects p hp => ?_, fun db objects hnamed => ?_⟩
  · rcases h with ⟨rfl, rfl⟩ | ⟨rfl, rfl⟩ | ⟨rfl, rfl⟩ | ⟨rfl, rfl⟩ | ⟨rfl, rfl⟩ <;>
      simp only [GreenDaoBenchmark.slot, ActiveAndroidBenchmark.slot,
        ActiveAndroidSebbiaBenchmark.slot, SugarOrmBenchmark.slot,
        GenericDaoBenchmark.slot] at hget <;>
      simp [Objects.held, hget]
  · simp only [Objects.held, List.mem_append, List.mem_map, Option.mem_toList] at hp ⊢
    rcases h with ⟨rfl, rfl⟩ | ⟨rfl, rfl⟩ | ⟨rfl, rfl⟩ | ⟨rfl, rfl⟩ | ⟨rfl, rfl⟩ <;>
      simp only [GreenDaoBenchmark.slot, ActiveAndroidBenchmark.slot,
        ActiveAndroidSebbiaBenchmark.slot, SugarOrmBenchmark.slot,
        GenericDaoBenchmark.slot] at hp <;>
      grind
  · rcases h with ⟨rfl, rfl⟩ | ⟨rfl, rfl⟩ | ⟨rfl, rfl⟩ | ⟨rfl, rfl⟩ | ⟨rfl, rfl⟩ <;>
      exact ⟨hnamed.noOrm, hnamed.ormLite⟩

/-! ## What the libraries share -/

theorem Slot.Of.finds_db (hslot : slot.Of env name) :
    Finds env name w₀ met slot.db (fun db => [db]) fun _ => True := by
  intro w h
  simp only [Slot.db, wp_bind, wp_getState]
  cases hget : slot.get w.objects with
  | none => exact h
  | some db =>
      refine ⟨True.intro, h.meet fun p hp => ?_⟩
      rw [List.mem_singleton.1 hp]
      exact h.held _ (hslot.get _ _ hget)

theorem Slot.Of.keeps_put (hslot : slot.Of env name) {db : Option Nat}
    (hmet : ∀ d ∈ db, (name, d) ∈ met) : Preserves (Keeps env name w₀ met) (slot.put db) := by
  refine preserves_modifyState fun w h => h.setObjects (fun p hp => ?_) ?_
  · rcases hslot.set db w.objects p hp with hold | ⟨d, hd, rfl⟩
    · exact Or.inl hold
    · exact Or.inr (hmet d hd)
  · exact hslot.helpers db w.objects h.helpers

theorem Slot.Of.keeps_open' (hslot : slot.Of env name) :
    Preserves (Keeps env name w₀ met) (slot.open' env name) := by
  refine (finds_openNew keeps_createTable).bind fun r _ => hslot.keeps_put fun d hd => ?_
  cases hd
  exact List.mem_append_left _ (List.mem_singleton.2 rfl)

theorem Slot.Of.keeps_close (hslot : slot.Of env name) :
    Preserves (Keeps env name w₀ met) (slot.close env) := by
  intro w h
  simp only [Slot.close, wp_bind, wp_getState]
  cases hget : slot.get w.objects with
  | none => exact h
  | some db =>
      have hdb : ∀ p ∈ [(name, db)], w.LeadsTo p.1 p.2 := fun p hp => by
        rw [List.mem_singleton.1 hp]
        exact h.held _ (hslot.get _ _ hget)
      have hrest : Preserves (Keeps env name w₀ ([(name, db)] ++ met))
          (do
            call env
            closeHandle db
            slot.put none) :=
        preserves_bind keeps_call fun _ =>
          preserves_bind (keeps_closeHandle List.mem_cons_self) fun _ =>
            hslot.keeps_put fun _ hd => absurd hd (Option.not_mem_none _)
      exact wp_mono (hrest w (h.meet hdb)) (fun _ _ h' => h'.forget_left)
        (fun _ _ h' => h'.forget_left) (fun _ h' => h'.forget_left)

theorem keeps_saveAll {missing : Throwable} (hmet : (name, db) ∈ met) :
    Preserves (Keeps env name w₀ met) (saveAll env db missing entities) :=
  preserves_bind keeps_call fun _ => keeps_onTable hmet

theorem keeps_loadAll {missing : Throwable} :
    Preserves (Keeps env name w₀ met) (loadAll env db missing) :=
  preserves_bind keeps_call fun _ => preserves_bind keeps_getTable fun _ => preserves_pure

theorem Slot.Of.keeps_saveModels (hslot : slot.Of env name) :
    Preserves (Keeps env name w₀ met) (saveModels env slot entities) :=
  hslot.finds_db.bind fun _ _ => keeps_saveAll List.mem_cons_self

theorem Slot.Of.keeps_select (hslot : slot.Of env name) :
    Preserves (Keeps env name w₀ met) (select env slot) :=
  hslot.finds_db.bind fun _ _ => preserves_bind keeps_loadAll fun _ => preserves_pure

theorem Slot.Of.keeps_initializeLibrary (hslot : slot.Of env name) :
    Preserves (Keeps env name w₀ met) (initializeLibrary env slot name) := by
  refine preserves_bind preserves_getState fun w => ?_
  cases slot.get w.objects with
  | none => exact hslot.keeps_open'
  | some db => exact preserves_pure

theorem Slot.Of.keeps_saveInTransaction (hslot : slot.Of env name) {save : AndroidProg Unit}
    (hsave : ∀ {met}, Preserves (Keeps env name w₀ met) save) :
    Preserves (Keeps env name w₀ met) (saveInTransaction env slot save) := by
  refine preserves_tryFinally ?_ ?_
  · refine hslot.finds_db.bind fun db _ => ?_
    refine preserves_bind (keeps_beginTransaction List.mem_cons_self) fun _ => ?_
    refine preserves_bind hsave fun _ => ?_
    exact hslot.finds_db.bind fun db _ => keeps_setTransactionSuccessful List.mem_cons_self
  · exact hslot.finds_db.bind fun db _ => keeps_endTransaction List.mem_cons_self

/-! ## The five adapters with a slot -/

theorem greenDao_keepsTo : KeepsTo env (greenDaoBenchmark env) "greendao" := by
  have hslot : GreenDaoBenchmark.slot.Of env "greendao" := slots_of (by simp [slots])
  have hclear : ∀ {w₀ met},
      Preserves (Keeps env "greendao" w₀ met) (GreenDaoBenchmark.clear env) :=
    hslot.finds_db.bind fun _ _ => keeps_call
  refine ⟨?_, ?_, ?_, hclear, hclear⟩
  · intro w₀ met
    refine preserves_bind keeps_deleteDatabase fun _ => ?_
    refine (finds_openNew keeps_createTable).bind fun r _ => ?_
    refine preserves_bind keeps_call fun _ => hslot.keeps_put fun d hd => ?_
    cases hd
    exact List.mem_append_left _ (List.mem_singleton.2 rfl)
  · exact hslot.finds_db.bind fun _ _ =>
      preserves_bind keeps_call fun _ => keeps_onTable List.mem_cons_self
  · refine hslot.finds_db.bind fun _ _ => preserves_bind ?_ fun _ => preserves_pure
    exact preserves_bind keeps_call fun _ => preserves_bind keeps_getTable fun _ => preserves_pure

theorem activeAndroid_keepsTo : KeepsTo env (activeAndroidBenchmark env) "activeandroid" := by
  have hslot : ActiveAndroidBenchmark.slot.Of env "activeandroid" := slots_of (by simp [slots])
  refine ⟨hslot.keeps_initializeLibrary, ?_, hslot.keeps_select, keeps_call, ?_⟩
  · exact hslot.keeps_saveInTransaction (preserves_forEach (fun _ => hslot.keeps_saveModels) _)
  · exact preserves_bind hslot.keeps_close fun _ => keeps_deleteDatabase

theorem activeAndroidSebbia_keepsTo :
    KeepsTo env (activeAndroidSebbiaBenchmark env) "activeandroid_sebbia" := by
  have hslot : ActiveAndroidSebbiaBenchmark.slot.Of env "activeandroid_sebbia" :=
    slots_of (by simp [slots])
  refine ⟨?_, hslot.keeps_saveInTransaction hslot.keeps_saveModels, hslot.keeps_select,
    keeps_call, ?_⟩
  · exact preserves_bind keeps_deleteDatabase fun _ => hslot.keeps_initializeLibrary
  · exact preserves_bind hslot.keeps_close fun _ => keeps_deleteDatabase

theorem sugar_keepsTo : KeepsTo env (sugarOrmBenchmark env) "sugarorm.db" := by
  have hslot : SugarOrmBenchmark.slot.Of env "sugarorm.db" := slots_of (by simp [slots])
  refine ⟨?_, hslot.keeps_saveModels, hslot.keeps_select, keeps_call, hslot.keeps_close⟩
  exact preserves_bind keeps_deleteDatabase fun _ => hslot.keeps_open'

theorem genericDao_keepsTo : KeepsTo env (genericDaoBenchmark env) env.genericDaoDatabase := by
  have hslot : GenericDaoBenchmark.slot.Of env env.genericDaoDatabase :=
    slots_of (by simp [slots])
  refine ⟨?_, hslot.keeps_saveModels, hslot.keeps_select, preserves_pure, preserves_pure⟩
  refine preserves_bind keeps_call fun _ => preserves_bind hslot.keeps_open' fun _ => ?_
  exact hslot.finds_db.bind fun _ _ =>
    preserves_bind keeps_call fun _ => keeps_onTable List.mem_cons_self

/-! ## The plain helper -/

theorem finds_sqLiteHelper :
    Finds env "no_orm" w₀ met sqLiteHelper
      (fun self => self.helper.mDatabase.toList ++ [self.insertStatement.db])
      fun self => self.helper.name = "no_orm" := by
  intro w h
  simp only [sqLiteHelper, wp_bind, wp_getState]
  cases hself : w.objects.sqLiteHelper with
  | none => exact h
  | some self =>
      refine ⟨h.helpers.noOrm self hself, h.meet fun p hp => h.held p ?_⟩
      simp only [Objects.held, hself, Option.toList_some, List.flatMap_singleton,
        List.mem_append]
      exact Or.inl (Or.inl (Or.inl (Or.inl (Or.inl (Or.inl hp)))))

theorem keeps_setSqLiteHelper {self : NoOrmSQLiteHelper} (hname : self.helper.name = "no_orm")
    (hmet : ∀ db ∈ self.helper.mDatabase.toList ++ [self.insertStatement.db],
      ("no_orm", db) ∈ met) :
    Preserves (Keeps env "no_orm" w₀ met) (setSqLiteHelper self) := by
  refine preserves_modifyState fun w h => h.setObjects (fun p hp => ?_) ⟨?_, h.helpers.ormLite⟩
  · simp only [Objects.held, Option.toList_some, List.flatMap_singleton, List.mem_append] at hp ⊢
    rcases hp with (((((hp | hp) | hp) | hp) | hp) | hp) | hp
    · obtain ⟨db, hdb, rfl⟩ := List.mem_map.1 hp
      exact Or.inr (hmet db hdb)
    all_goals simp [hp]
  · intro self' hself'
    cases hself'
    exact hname

theorem keeps_bindings {f : World → AList fun _ : Nat => SqlValue} :
    Preserves (Keeps env name w₀ met)
      (modifyState fun w => { w with bindings := f w } : AndroidProg Unit) := by
  refine keeps_count ?_ ?_ ?_ ?_ ?_
  all_goals exact fun _ => rfl

theorem keeps_bindString {index : Nat} {value : Option String} :
    Preserves (Keeps env name w₀ met) (bindString env index value) := by
  cases value with
  | none => exact keeps_fail
  | some value => exact preserves_bind keeps_call fun _ => keeps_bindings

theorem keeps_bindLong {index : Nat} {value : Int64} :
    Preserves (Keeps env name w₀ met) (bindLong env index value) :=
  preserves_bind keeps_call fun _ => keeps_bindings

theorem keeps_insert {entity : Entity} :
    Preserves (Keeps env "no_orm" w₀ met) (NoOrmSQLiteHelper.insert env entity) := by
  refine preserves_bind (preserves_bind keeps_call fun _ => keeps_bindings) fun _ => ?_
  refine preserves_bind ?_ fun _ => ?_
  · exact preserves_bind keeps_bindString fun _ => preserves_bind keeps_bindString fun _ =>
      preserves_bind keeps_bindString fun _ => preserves_bind keeps_bindLong fun _ =>
        keeps_bindLong
  · refine finds_sqLiteHelper.bind fun self _ => ?_
    refine preserves_bind keeps_call fun _ => preserves_bind preserves_getState fun w => ?_
    exact keeps_onTable (by simp)

theorem finds_noOrmWritable :
    Finds env "no_orm" w₀ met (NoOrmSQLiteHelper.getWritableDatabase env) (fun db => [db])
      fun _ => True := by
  refine finds_sqLiteHelper.andThen fun self hname => ?_
  refine (finds_getWritableDatabase hname (fun db hdb => ?_) keeps_createTable).andThen
    fun r hr => ?_
  · exact List.mem_append_left _ (List.mem_map_of_mem
      (List.mem_append_left _ (Option.mem_toList.2 hdb)))
  · refine (Finds.of_preserves (keeps_setSqLiteHelper hr.1 ?_)).andThen fun _ _ =>
      finds_pure True.intro fun db hdb => ?_
    · simp [hr.2]
    · simp [List.mem_singleton.1 hdb]

theorem keeps_getColumn {row : List SqlValue} {columnIndex : Nat} :
    Preserves (Keeps env name w₀ met) (getColumn env row columnIndex) := by
  refine preserves_bind keeps_call fun _ => ?_
  cases row[columnIndex]? with
  | none => exact keeps_fail
  | some value => exact preserves_pure

theorem keeps_fromCursor {row : List SqlValue} :
    Preserves (Keeps env name w₀ met) (NoOrmEntity.fromCursor env row) :=
  preserves_bind keeps_getColumn fun _ => preserves_bind keeps_getColumn fun _ =>
    preserves_bind keeps_getColumn fun _ => preserves_bind keeps_getColumn fun _ =>
      preserves_bind keeps_getColumn fun _ => preserves_pure

theorem keeps_insertInTransaction :
    Preserves (Keeps env "no_orm" w₀ met) (NoOrmSQLiteHelper.insertInTransaction env entities) := by
  refine finds_noOrmWritable.bind fun db _ => ?_
  refine preserves_tryFinally ?_ (keeps_endTransaction List.mem_cons_self)
  have hbegin : Preserves (Keeps env "no_orm" w₀ (("no_orm", db) :: met))
      (beginTransaction env db) := keeps_beginTransaction List.mem_cons_self
  have hinsert : Preserves (Keeps env "no_orm" w₀ (("no_orm", db) :: met)) (do
      forEach (NoOrmSQLiteHelper.insert env) entities
      setTransactionSuccessful env db) :=
    preserves_bind (preserves_forEach (fun _ => keeps_insert) entities) fun _ =>
      keeps_setTransactionSuccessful List.mem_cons_self
  -- Both branches begin the same way.
  exact preserves_ite (preserves_bind hbegin fun _ => hinsert)
    (preserves_bind hbegin fun _ => hinsert)

theorem noOrm_keepsTo : KeepsTo env (noOrmBenchmark env) "no_orm" := by
  refine ⟨?_, ?_, ?_, preserves_pure, ?_⟩
  · intro w₀ met
    refine preserves_bind keeps_deleteDatabase fun _ => ?_
    have hnew : Finds env "no_orm" w₀ met (NoOrmSQLiteHelper.new env)
        (fun self => self.helper.mDatabase.toList ++ [self.insertStatement.db])
        fun self => self.helper.name = "no_orm" := by
      refine (finds_openNew keeps_createTable).andThen fun r hr => ?_
      refine (Finds.of_preserves keeps_call).andThen fun _ _ => ?_
      refine (Finds.of_preserves keeps_bindings).andThen fun _ _ => ?_
      exact finds_pure hr.1 fun db hdb => by
        simp [show db = r.1 by simpa [hr.2] using hdb]
    refine hnew.bind fun self hname => keeps_setSqLiteHelper hname fun db hdb => ?_
    exact List.mem_append_left _ (List.mem_map_of_mem hdb)
  · exact keeps_insertInTransaction
  · refine preserves_bind ?_ fun _ => preserves_pure
    refine finds_noOrmWritable.bind fun db _ => ?_
    refine preserves_bind keeps_call fun _ => preserves_bind keeps_getTable fun t => ?_
    refine preserves_tryFinally ?_ keeps_call
    refine preserves_bind (preserves_mapEach (fun row => ?_) _) fun _ => ?_
    · exact preserves_bind keeps_call fun _ => keeps_fromCursor
    · exact preserves_bind keeps_call fun _ => preserves_pure
  · refine finds_sqLiteHelper.bind fun self hname => ?_
    refine (finds_close hname fun db hdb => ?_).bind fun helper hname' => ?_
    · exact List.mem_append_left _ (List.mem_map_of_mem
        (List.mem_append_left _ (Option.mem_toList.2 hdb)))
    · refine keeps_setSqLiteHelper hname' fun db hdb => ?_
      rcases List.mem_append.1 hdb with hdb | hdb
      · exact List.mem_append_left _ (List.mem_map_of_mem hdb)
      · exact List.mem_append_right _ (List.mem_append_left _
          (List.mem_map_of_mem (List.mem_append_right _ hdb)))

/-! ## `ormlite` -/

theorem keeps_setInstance {instance' : Option SQLiteOpenHelper}
    (hname : ∀ helper ∈ instance', helper.name = "ormlite")
    (hmet : ∀ helper ∈ instance', ∀ db ∈ helper.mDatabase, ("ormlite", db) ∈ met) :
    Preserves (Keeps env "ormlite" w₀ met) (DatabaseHelper.setInstance instance') := by
  refine preserves_modifyState fun w h => h.setObjects (fun p hp => ?_) ⟨h.helpers.noOrm, hname⟩
  simp only [Objects.held, List.mem_append] at hp ⊢
  rcases hp with (((((hp | hp) | hp) | hp) | hp) | hp) | hp
  · exact Or.inl (Or.inl (Or.inl (Or.inl (Or.inl (Or.inl (Or.inl hp))))))
  · simp [hp]
  · obtain ⟨db, hdb, rfl⟩ := List.mem_map.1 hp
    obtain ⟨helper, hhelper, hdb⟩ := Option.bind_eq_some_iff.1 (Option.mem_toList.1 hdb)
    exact Or.inr (hmet helper hhelper db hdb)
  all_goals simp [hp]

theorem finds_getInstance :
    Finds env "ormlite" w₀ met (DatabaseHelper.getInstance env)
      (fun helper => helper.mDatabase.toList) fun helper => helper.name = "ormlite" := by
  intro w h
  simp only [DatabaseHelper.getInstance, wp_bind, wp_getState]
  cases hself : w.objects.ormLite with
  | some helper =>
      refine ⟨h.helpers.ormLite helper hself, h.meet fun p hp => h.held p ?_⟩
      simp only [Objects.held, hself, Option.bind_some, List.mem_append]
      exact Or.inl (Or.inl (Or.inl (Or.inl (Or.inr hp))))
  | none =>
      have hnew : Finds env "ormlite" w₀ met
          (do
            call env
            DatabaseHelper.setInstance (some ⟨"ormlite", none⟩)
            pure (⟨"ormlite", none⟩ : SQLiteOpenHelper))
          (fun helper => helper.mDatabase.toList) fun helper => helper.name = "ormlite" := by
        refine (Finds.of_preserves keeps_call).andThen fun _ _ => ?_
        refine (Finds.of_preserves (keeps_setInstance ?_ ?_)).andThen fun _ _ =>
          finds_pure rfl fun _ hdb => absurd hdb List.not_mem_nil
        · intro helper hhelper
          cases hhelper
          rfl
        · intro helper hhelper db hdb
          cases hhelper
          cases hdb
      exact hnew w h

theorem keeps_catchSQLException {α : Type} {m handler : AndroidProg α}
    (hm : Preserves (Keeps env name w₀ met) m)
    (hhandler : Preserves (Keeps env name w₀ met) handler) :
    Preserves (Keeps env name w₀ met) (catchSQLException m handler) :=
  preserves_tryCatch hm fun _ => preserves_ite hhandler preserves_raise

theorem keeps_getDao : Preserves (Keeps env name w₀ met) (DatabaseHelper.getDao env) :=
  keeps_catchSQLException
    (preserves_bind keeps_call fun _ => preserves_bind keeps_call fun _ => preserves_pure)
    preserves_pure

theorem finds_getConnection :
    Finds env "ormlite" w₀ met (DatabaseHelper.getConnection env) (fun db => [db])
      fun _ => True := by
  refine finds_getInstance.andThen fun self hname => ?_
  refine (Finds.of_preserves keeps_call).andThen fun _ _ => ?_
  refine (finds_getWritableDatabase hname (fun db hdb => ?_) fun hmet => ?_).andThen fun r hr => ?_
  · simp [show self.mDatabase = some db from hdb]
  · exact keeps_catchSQLException (keeps_createTable hmet) preserves_pure
  · refine (Finds.of_preserves (keeps_setInstance ?_ ?_)).andThen fun _ _ =>
      finds_pure True.intro fun db hdb => ?_
    · intro helper hhelper
      cases hhelper
      exact hr.1
    · intro helper hhelper db hdb
      cases hhelper
      rw [hr.2] at hdb
      cases hdb
      simp
    · simp [List.mem_singleton.1 hdb]

theorem keeps_ormLiteSave :
    Preserves (Keeps env "ormlite" w₀ met)
      (OrmLiteBenchmark.saveEntitiesInTransaction env entities) := by
  refine finds_getInstance.bind fun _ _ => preserves_bind keeps_getDao fun dao => ?_
  refine preserves_tryCatch ?_ fun _ => preserves_ite preserves_raise preserves_pure
  refine finds_getConnection.bind fun db _ => ?_
  refine preserves_bind (keeps_beginTransaction List.mem_cons_self) fun _ => ?_
  refine preserves_tryFinally ?_ (keeps_endTransaction List.mem_cons_self)
  refine preserves_bind (preserves_forEach (fun entity => ?_) _) fun _ => ?_
  · cases dao with
    | none => exact preserves_raise
    | some _ => exact keeps_saveAll List.mem_cons_self
  · exact keeps_setTransactionSuccessful List.mem_cons_self

theorem keeps_ormLiteLoad :
    Preserves (Keeps env "ormlite" w₀ met) (OrmLiteBenchmark.loadEntities env) := by
  refine finds_getInstance.bind fun _ _ => preserves_bind keeps_getDao fun dao => ?_
  refine keeps_catchSQLException (preserves_bind ?_ fun _ => preserves_pure) preserves_pure
  cases dao with
  | none => exact preserves_raise
  | some _ => exact finds_getConnection.bind fun _ _ => keeps_loadAll

theorem ormLite_keepsTo : KeepsTo env (ormLiteBenchmark env) "ormlite" := by
  refine ⟨?_, keeps_ormLiteSave, keeps_ormLiteLoad, ?_, ?_⟩
  · exact preserves_bind keeps_deleteDatabase fun _ =>
      finds_getInstance.bind fun _ _ => preserves_pure
  · refine finds_getInstance.bind fun _ _ => preserves_bind keeps_getDao fun dao => ?_
    cases dao with
    | none => exact preserves_raise
    | some _ => exact keeps_call
  · intro w₀ met w h
    simp only [ormLiteBenchmark, DatabaseHelper.dispose, wp_bind, wp_getState]
    cases hself : w.objects.ormLite with
    | none => exact h
    | some helper =>
        have hmet : ∀ p ∈ helper.mDatabase.toList.map (fun db => ("ormlite", db)),
            w.LeadsTo p.1 p.2 := by
          intro p hp
          refine h.held p ?_
          simp only [Objects.held, hself, Option.bind_some, List.mem_append]
          exact Or.inl (Or.inl (Or.inl (Or.inl (Or.inr hp))))
        have hrest : Preserves
            (Keeps env "ormlite" w₀
              (helper.mDatabase.toList.map (fun db => ("ormlite", db)) ++ met))
            (do
              let _ ← helper.close env
              DatabaseHelper.setInstance none) := by
          refine (finds_close (h.helpers.ormLite helper hself) fun db hdb => ?_).bind fun _ _ =>
            keeps_setInstance (fun _ hnone => absurd hnone (Option.not_mem_none _))
              fun _ hnone => absurd hnone (Option.not_mem_none _)
          exact List.mem_append_left _ (List.mem_map_of_mem (Option.mem_toList.2 hdb))
        exact wp_mono (hrest w (h.meet hmet)) (fun _ _ h' => h'.forget_left)
          (fun _ _ h' => h'.forget_left) (fun _ h' => h'.forget_left)

/-! ## A pass -/

theorem exists_keepsTo {b : Benchmark World} (hb : b ∈ benchmarks env) :
    KeepsTo env b (database env b.getName) := by
  simp only [benchmarks, List.mem_cons, List.not_mem_nil, or_false] at hb
  rcases hb with rfl | rfl | rfl | rfl | rfl | rfl | rfl
  · exact noOrm_keepsTo
  · exact greenDao_keepsTo
  · exact ormLite_keepsTo
  · exact activeAndroid_keepsTo
  · exact activeAndroidSebbia_keepsTo
  · exact sugar_keepsTo
  · exact genericDao_keepsTo

variable {x : ExecEnv} {b : Benchmark World}

/-- What the executor does between the calls does not touch the world. -/
theorem preserves_world_runPass {I : World → Prop} {results : List TimeMeasure}
    (hinit : Preserves I b.init)
    (hsave : ∀ entities, Preserves I (b.saveEntitiesInTransaction entities))
    (hclear : Preserves I b.clearCache) (hload : Preserves I b.loadEntities)
    (hdispose : Preserves I b.dispose) :
    Preserves (fun s : Exec World => I s.world) (runPass x b results) := by
  have hadapter : ∀ {α : Type} {m : AndroidProg α}, Preserves I m →
      Preserves (fun s : Exec World => I s.world) (adapter m) :=
    fun hm => preserves_zoom (fun _ _ => rfl) hm
  have hread : Preserves (fun s : Exec World => I s.world) (nanoTime x) := fun _ hs => hs
  have hrecord : ∀ event, Preserves (fun s : Exec World => I s.world) (record event) :=
    fun _ _ hs => hs
  have hgenerate : ∀ n, Preserves (fun s : Exec World => I s.world) (generateEntities x n) :=
    fun _ _ hs => hs
  refine preserves_bind (hadapter hinit) fun _ => preserves_bind (hgenerate _) fun _ => ?_
  refine preserves_bind ?_ fun _ => preserves_bind (hadapter hclear) fun _ =>
    preserves_bind ?_ fun _ => preserves_bind (hadapter hdispose) fun _ => preserves_pure
  · exact preserves_bind preserves_getState fun _ => preserves_bind hread fun _ =>
      preserves_bind (hadapter (hsave _)) fun _ => preserves_bind hread fun _ =>
        preserves_bind preserves_getState fun _ => preserves_bind (hrecord _) fun _ =>
          preserves_pure
  · exact preserves_bind preserves_getState fun _ => preserves_bind hread fun _ =>
      preserves_bind (hadapter hload) fun _ => preserves_bind hread fun _ =>
        preserves_bind preserves_getState fun _ => preserves_bind (hrecord _) fun _ =>
          preserves_pure

theorem KeepsTo.runPass (h : KeepsTo env b name) {results : List TimeMeasure} :
    Preserves (fun s : Exec World => Keeps env name w₀ met s.world) (runPass x b results) :=
  preserves_world_runPass h.init (fun _ => h.save) h.clearCache h.load h.dispose

/-! ## Over a run -/

variable {w : World} {s s' : Exec World} {i : Nat} {n : String}

theorem Separate.empty : Separate env World.empty := by
  refine ⟨nofun, fun db file h => ?_, nofun, fun p hp => ?_, ⟨nofun, nofun⟩⟩
  · cases h
  · simp [World.empty, Objects.held, Objects.none] at hp

/-- A new process has nothing open. -/
theorem Separate.restart (h : Separate env w) : Separate env w.restart := by
  refine ⟨h.named, fun db file hlookup => ?_, h.injective, fun p hp => ?_, ⟨nofun, nofun⟩⟩
  · cases hlookup
  · simp [World.restart, Objects.held, Objects.none] at hp

theorem World.content_restart : w.restart.content n = w.content n := by
  simp only [World.content, World.restart]
  cases w.names n with
  | none => rfl
  | some file =>
      simp only [Option.bind_some]
      cases w.files file with
      | none => rfl
      | some s => rfl

theorem Keeps.content_eq (h : Keeps env name w₀ met w) (hn : n ≠ name) :
    w.content n = w₀.content n := by
  have hnames := h.names_eq n hn
  have hfiles := h.files_eq n hn
  simp only [World.content, ← hnames]
  cases hname : w.names n with
  | none => rfl
  | some file => simp only [Option.bind_some, hfiles file hname]

/-- The other databases after a pass, whichever way it ended. -/
theorem nextPass_keeps (h : Separate env s.world) (hstep : nextPass env x s i = some s') :
    Separate env s'.world ∧ ∃ b, (benchmarks env)[i]? = some b ∧
      ∀ n, n ≠ database env b.getName → s'.world.content n = s.world.content n := by
  obtain ⟨b, hb, hnext⟩ := Option.map_eq_some_iff.1 hstep
  have hkeeps : (runPass x b []).wp _ { s with trace := [] } :=
    (exists_keepsTo (List.mem_of_getElem? hb)).runPass _ (Keeps.start h)
  cases hrun : runPass x b [] { s with trace := [] } with
  | mk exit s₁ =>
      have h₁ : Keeps env (database env b.getName) s.world [] s₁.world :=
        exit_of_wp (R := fun _ (s' : Exec World) =>
          Keeps env (database env b.getName) s.world [] s'.world) hkeeps hrun
      have hrestarted : Separate env s₁.world.restart ∧ ∃ b, (benchmarks env)[i]? = some b ∧
          ∀ n, n ≠ database env b.getName → s₁.world.restart.content n = s.world.content n :=
        ⟨h₁.toSeparate.restart, b, hb, fun n hn => by
          rw [World.content_restart, h₁.content_eq hn]⟩
      rw [hrun] at hnext
      cases exit with
      | ok results =>
          subst hnext
          exact ⟨h₁.toSeparate, b, hb, fun n hn => h₁.content_eq hn⟩
      | throws e =>
          subst hnext
          exact hrestarted
      | dead =>
          subst hnext
          exact hrestarted

theorem Separate.of_reachable (hr : (passes env x).Reachable s) : Separate env s.world := by
  refine hr.invariant (I := fun s => Separate env s.world) ?_ ?_
  · intro s hs
    cases hs
    exact Separate.empty
  · intro s i s' h hstep
    exact (nextPass_keeps h hstep).1

end

end OrmBenchmark.Ref
