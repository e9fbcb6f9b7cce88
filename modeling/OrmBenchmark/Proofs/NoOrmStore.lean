import OrmBenchmark.Lib.Lts
import OrmBenchmark.Proofs.Databases

/-!
# What the plain helper stores

One call of `insertInTransaction` appends the entities it was given or appends
nothing, and says which by returning or throwing; `getAllEntities` gives them
back. What is bound to the shared statement when a call begins plays no part,
because an insert clears the bindings and then sets all five of them or throws.

A history of calls is a run of `insertCalls`, and the loaded list is a
function of it.
-/

namespace OrmBenchmark.Ref

open OrmBenchmark.Lib OrmBenchmark.Lib.Prog

/-- The table `onCreate` made, with rows as long as it is wide. -/
structure NoOrmTable (c : Content) (t : Table) : Prop where
  held : c.table = some t
  columns : t.columns = NoOrmSQLiteHelper.columns
  width : ∀ row ∈ t.rows, row.length = NoOrmSQLiteHelper.columns.length

/-- From `init` to `dispose`, between calls. -/
structure NoOrmReady (w : World) (db file : Nat) (c : Content) : Prop where
  attached : AttachedTo w "no_orm" db file c
  helper : w.objects.sqLiteHelper =
    some ⟨⟨"no_orm", some db⟩, ⟨db, NoOrmSQLiteHelper.insertColumns⟩⟩
  table : ∃ t, NoOrmTable c t

section

variable {env : Android} {w₀ w : World} {file db : Nat} {c : Content} {s : TxStore Content}
  {v : TxStore Content} {quiet : Bool} {entity : Entity} {helper : NoOrmSQLiteHelper}

/-! ## The fields of the helper -/

theorem wp_sqLiteHelper {Q : Post World Throwable NoOrmSQLiteHelper}
    (h : w.objects.sqLiteHelper = some helper) (hok : Q.ok helper w) :
    sqLiteHelper.wp Q w := by
  simp only [sqLiteHelper, wp_bind, wp_getState, h]
  exact hok

/-- Writing back what the field holds. -/
theorem wp_setSqLiteHelper_same {Q : Post World Throwable Unit}
    (h : w.objects.sqLiteHelper = some helper) (hok : Q.ok () w) :
    (setSqLiteHelper helper).wp Q w := by
  have hsame : ({ w with objects := { w.objects with sqLiteHelper := some helper } } : World)
      = w := by
    rw [← h]
  simp only [setSqLiteHelper, wp_modifyState, hsame]
  exact hok

/-- An open helper hands out the handle it has. -/
theorem wp_noOrm_getWritableDatabase {Q : Post World Throwable Nat}
    (h : w.objects.sqLiteHelper = some helper) (hdb : helper.helper.mDatabase = some db)
    (hok : Q.ok db w) : (NoOrmSQLiteHelper.getWritableDatabase env).wp Q w := by
  simp only [NoOrmSQLiteHelper.getWritableDatabase, wp_bind]
  refine wp_sqLiteHelper h ?_
  simp only [wp_bind, SQLiteOpenHelper.getWritableDatabase, hdb, wp_pure]
  exact wp_setSqLiteHelper_same h hok

/-! ## One insert -/

theorem Within.wp_bindLong {Q : Post World Throwable Unit} {index : Nat} {value : Int64}
    (h : Within w₀ file s quiet w)
    (hok : ∀ w', Within w₀ file s quiet w' →
      w'.bindings = w.bindings.insert index (.integer value) → Q.ok () w')
    (hthrows : ∀ e w', Within w₀ file s false w' → Q.throws e w')
    (hdead : ∀ w', Q.dead w') : (bindLong env index value).wp Q w := by
  simp only [bindLong, wp_bind]
  refine h.wp_call (fun w' h' hbindings => ?_) hthrows hdead
  exact hok _ (h'.bind _) (by rw [← hbindings])

/-- A null is not bound: the call throws instead. -/
theorem Within.wp_bindString {Q : Post World Throwable Unit} {index : Nat}
    {value : Option String} (h : Within w₀ file s quiet w)
    (hok : ∀ w', Within w₀ file s quiet w' →
      w'.bindings = w.bindings.insert index (.ofString value) → Q.ok () w')
    (hthrows : ∀ e w', Within w₀ file s false w' → Q.throws e w')
    (hdead : ∀ w', Q.dead w') : (bindString env index value).wp Q w := by
  cases value with
  | none => exact hthrows _ _ h.failed
  | some value =>
      simp only [bindString, wp_bind]
      refine h.wp_call (fun w' h' hbindings => ?_) hthrows hdead
      exact hok _ (h'.bind _) (by rw [← hbindings]; rfl)

/-- After the five binds the statement's values are those of the entity,
whatever was bound before. -/
theorem Within.wp_bindToStatement {Q : Post World Throwable Unit}
    (h : Within w₀ file s quiet w)
    (hok : ∀ w', Within w₀ file s quiet w' → boundValues 5 w'.bindings = entity.values →
      Q.ok () w')
    (hthrows : ∀ e w', Within w₀ file s false w' → Q.throws e w')
    (hdead : ∀ w', Q.dead w') : (NoOrmEntity.bindToStatement env entity).wp Q w := by
  simp only [NoOrmEntity.bindToStatement, wp_bind]
  refine h.wp_bindString (fun w₁ h₁ hb₁ => ?_) hthrows hdead
  simp only [wp_bind]
  refine h₁.wp_bindString (fun w₂ h₂ hb₂ => ?_) hthrows hdead
  simp only [wp_bind]
  refine h₂.wp_bindString (fun w₃ h₃ hb₃ => ?_) hthrows hdead
  simp only [wp_bind]
  refine h₃.wp_bindLong (fun w₄ h₄ hb₄ => ?_) hthrows hdead
  refine h₄.wp_bindLong (fun w₅ h₅ hb₅ => ?_) hthrows hdead
  refine hok w₅ h₅ ?_
  rw [hb₅, hb₄, hb₃, hb₂, hb₁]
  simp [boundValues, List.range, List.range.loop, Entity.values, AList.lookup_insert_ne]

theorem NoOrmTable.newRow {t : Table} (h : NoOrmTable c t) :
    t.newRow env NoOrmSQLiteHelper.insertColumns entity.values =
      entity.row (.integer (Int64.ofNat (t.sequence + 1))) := by
  rw [Table.newRow, h.columns]
  simp [NoOrmSQLiteHelper.columns, NoOrmSQLiteHelper.insertColumns, NoOrmSQLiteHelper.ID,
    NoOrmSQLiteHelper.FIELD_1, NoOrmSQLiteHelper.FIELD_2, NoOrmSQLiteHelper.FIELD_3,
    NoOrmSQLiteHelper.FIELD_4, NoOrmSQLiteHelper.FIELD_5, Entity.row, Entity.values,
    List.idxOf?, List.findIdx?, List.findIdx?.go, env.store_integer]

theorem NoOrmTable.addRow {t : Table} (h : NoOrmTable c t) (id : SqlValue) (version : Nat) :
    NoOrmTable ⟨version, some (t.addRow (entity.row id))⟩ (t.addRow (entity.row id)) := by
  refine ⟨rfl, h.columns, ?_⟩
  intro row hrow
  rcases List.mem_append.1 hrow with hrow | hrow
  · exact h.width row hrow
  · rw [List.mem_singleton] at hrow
    subst hrow
    rfl

theorem wp_insert (hdb : w₀.handles.lookup db = some file)
    (hhelper : w₀.objects.sqLiteHelper = some helper)
    (hstatement : helper.insertStatement = ⟨db, NoOrmSQLiteHelper.insertColumns⟩)
    (hc : ∃ t, NoOrmTable c t) (h : Within w₀ file (v.inner c) quiet w) :
    (NoOrmSQLiteHelper.insert env entity).wp
      { ok := fun _ w' => ∃ c', (∃ t, NoOrmTable c' t) ∧
          c'.entities env = c.entities env ++ [entity] ∧ Within w₀ file (v.inner c') quiet w'
        throws := fun _ w' => ∃ c', Within w₀ file (v.inner c') false w'
        dead := fun _ => True } w := by
  obtain ⟨t, ht⟩ := hc
  simp only [NoOrmSQLiteHelper.insert, clearBindings, wp_bind]
  refine h.wp_call (fun w₁ h₁ _ => ?_) (fun e w₁ h₁ => ⟨c, h₁⟩) (fun _ => True.intro)
  simp only [wp_modifyState, wp_bind]
  refine (h₁.bind ∅).wp_bindToStatement ?_ ?_ ?_
  rotate_left
  · exact fun e w₂ h₂ => ⟨c, h₂⟩
  · exact fun _ => True.intro
  intro w₂ h₂ hbound
  simp only [wp_bind]
  refine wp_sqLiteHelper (h₂.objects ▸ hhelper) ?_
  simp only [executeInsert, wp_bind, hstatement]
  refine h₂.wp_call (fun w₃ h₃ hsame => ?_) (fun e w₃ h₃ => ⟨c, h₃⟩) (fun _ => True.intro)
  simp only [wp_bind, wp_getState]
  refine h₃.wp_onTable hdb ?_ (fun w₄ _ h₄ => ⟨c, h₄⟩)
  intro t' w₄ ht' h₄
  have htable : t' = t := Option.some.inj (ht'.symm.trans ht.held)
  subst htable
  have hrow : t'.newRow env NoOrmSQLiteHelper.insertColumns
      (boundValues NoOrmSQLiteHelper.insertColumns.length w₃.bindings) =
      entity.row (.integer (Int64.ofNat (t'.sequence + 1))) := by
    rw [hsame]
    show t'.newRow env NoOrmSQLiteHelper.insertColumns (boundValues 5 w₂.bindings) = _
    rw [hbound, ht.newRow]
  rw [hrow] at h₄
  refine ⟨_, ⟨_, ht.addRow _ c.version⟩, ?_, h₄⟩
  rw [Content.entities_eq rfl, Table.addRow_entities, Content.entities_eq ht.held]

/-! ## One call -/

theorem NoOrmReady.within {c' : Content} {w' : World} (hready : NoOrmReady w db file c)
    (h : Within w file (.ofCommitted c') quiet w') (ht : ∃ t, NoOrmTable c' t) :
    NoOrmReady w' db file c' :=
  ⟨h.attached hready.attached, by rw [h.objects, hready.helper], ht⟩

/-- All of the entities are committed or none is. -/
theorem wp_insertInTransaction {entities : List Entity} (hready : NoOrmReady w db file c) :
    (NoOrmSQLiteHelper.insertInTransaction env entities).wp
      { ok := fun _ w' => ∃ c', (∃ t, NoOrmTable c' t) ∧
          c'.entities env = c.entities env ++ entities ∧
          Within w file (.ofCommitted c') true w'
        throws := fun _ w' => Within w file (.ofCommitted c) false w'
        dead := fun _ => True } w := by
  have hdb := hready.attached.handle
  simp only [NoOrmSQLiteHelper.insertInTransaction, beginTransactionNonExclusive, ite_self,
    wp_bind]
  refine wp_noOrm_getWritableDatabase hready.helper rfl ?_
  have hbody : ∀ w₁, Within w file ((TxStore.ofCommitted c).inner c) true w₁ →
      (forEach (NoOrmSQLiteHelper.insert env) entities).wp _ w₁ :=
    fun w₁ h₁ => Within.wp_insertEach
      (fun hc h => wp_insert hdb hready.helper rfl hc h) hready.table h₁
  dsimp only
  refine wp_mono (wp_bracket (P := fun c' => (∃ t, NoOrmTable c' t) ∧
    c'.entities env = c.entities env ++ entities) hready.attached.held hdb fun w₁ h₁ =>
      wp_mono (hbody w₁ h₁) ?_ (fun _ _ h => h) (fun _ h => h)) ?_ (fun _ _ h => h)
      (fun _ h => h)
  · intro _ w₂ hpost
    obtain ⟨c', ht, hentities, h₂⟩ := hpost
    exact ⟨c', ⟨ht, hentities⟩, h₂⟩
  · intro _ w' hpost
    obtain ⟨c', ⟨ht, hentities⟩, h'⟩ := hpost
    exact ⟨c', ht, hentities, h'⟩

theorem Within.wp_getColumn {Q : Post World Throwable SqlValue} {row : List SqlValue} {i : Nat}
    (h : Within w₀ file s quiet w) (hi : i < row.length)
    (hok : ∀ w', Within w₀ file s quiet w' → Q.ok (row.getD i .null) w')
    (hthrows : ∀ e w', env.Fails w₀ → Within w₀ file s false w' → Q.throws e w')
    (hdead : ∀ w', env.Fails w₀ → Q.dead w') : (getColumn env row i).wp Q w := by
  simp only [getColumn, wp_bind]
  refine h.wp_call_fails (fun w' h' _ => ?_) hthrows hdead
  have hvalue := hok w' h'
  rw [List.getD_eq_getElem?_getD, List.getElem?_eq_getElem hi] at hvalue
  simp only [List.getElem?_eq_getElem hi, wp_pure]
  exact hvalue

/-- One row under the cursor. -/
theorem Within.wp_fromCursor {Q : Post World Throwable Entity} {row : List SqlValue}
    (h : Within w₀ file s quiet w) (hwidth : row.length = NoOrmSQLiteHelper.columns.length)
    (hok : ∀ w', Within w₀ file s quiet w' → Q.ok (Entity.ofRow env row) w')
    (hthrows : ∀ e w', env.Fails w₀ → Within w₀ file s false w' → Q.throws e w')
    (hdead : ∀ w', env.Fails w₀ → Q.dead w') : (NoOrmEntity.fromCursor env row).wp Q w := by
  have hlen : row.length = 6 := hwidth
  simp only [NoOrmEntity.fromCursor, wp_bind]
  refine h.wp_getColumn (by omega) (fun w₁ h₁ => ?_) hthrows hdead
  simp only [wp_bind]
  refine h₁.wp_getColumn (by omega) (fun w₂ h₂ => ?_) hthrows hdead
  simp only [wp_bind]
  refine h₂.wp_getColumn (by omega) (fun w₃ h₃ => ?_) hthrows hdead
  simp only [wp_bind]
  refine h₃.wp_getColumn (by omega) (fun w₄ h₄ => ?_) hthrows hdead
  simp only [wp_bind]
  refine h₄.wp_getColumn (by omega) (fun w₅ h₅ => ?_) hthrows hdead
  exact hok w₅ h₅

theorem Within.wp_readRows {rows : List (List SqlValue)} (h : Within w₀ file s true w)
    (hwidth : ∀ row ∈ rows, row.length = NoOrmSQLiteHelper.columns.length) :
    (mapEach (fun row => do call env; NoOrmEntity.fromCursor env row) rows).wp
      { ok := fun entities w' => entities = rows.map (Entity.ofRow env) ∧
          Within w₀ file s true w'
        throws := fun _ w' => env.Fails w₀ ∧ Within w₀ file s false w'
        dead := fun _ => env.Fails w₀ } w := by
  refine wp_mapEach (g := Entity.ofRow env) (I := Within w₀ file s true) ?_ ?_ h
  · intro row hrow w₁ h₁
    simp only [wp_bind]
    refine h₁.wp_call_fails (fun w₂ h₂ _ => ?_) (fun e w₂ hfails h₂ => ⟨hfails, h₂⟩)
      (fun _ hfails => hfails)
    exact h₂.wp_fromCursor (hwidth row hrow) (fun w₃ h₃ => ⟨rfl, h₃⟩)
      (fun e w₃ hfails h₃ => ⟨hfails, h₃⟩) (fun _ hfails => hfails)
  · exact fun w₁ h₁ => ⟨rfl, h₁⟩

/-- The list has every row; only a call that does not return keeps it back. -/
theorem wp_getAllEntities (hready : NoOrmReady w db file c) :
    (NoOrmSQLiteHelper.getAllEntities env).wp
      { ok := fun entities w' => entities = c.entities env ∧
          Within w file (.ofCommitted c) true w'
        throws := fun _ w' => env.Fails w ∧ Within w file (.ofCommitted c) false w'
        dead := fun _ => env.Fails w } w := by
  obtain ⟨t, ht⟩ := hready.table
  -- `cursor.close()` after a failure, which stays one whatever the call does.
  have hclose : ∀ {w'} {Q : Post World Throwable Unit},
      env.Fails w ∧ Within w file (.ofCommitted c) false w' →
      (∀ w'', env.Fails w ∧ Within w file (.ofCommitted c) false w'' → Q.ok () w'') →
      (∀ e w'', env.Fails w ∧ Within w file (.ofCommitted c) false w'' → Q.throws e w'') →
      (∀ w'', env.Fails w → Q.dead w'') → (call env).wp Q w' := by
    intro w' Q h' hok hthrows hdead
    exact h'.2.wp_call (fun w'' h'' _ => hok w'' ⟨h'.1, h''⟩)
      (fun e w'' h'' => hthrows e w'' ⟨h'.1, h''⟩) (fun w'' => hdead w'' h'.1)
  simp only [NoOrmSQLiteHelper.getAllEntities, wp_bind]
  refine wp_noOrm_getWritableDatabase hready.helper rfl ?_
  simp only [wp_bind]
  refine (Within.refl hready.attached.held).wp_call_fails (fun w₁ h₁ _ => ?_)
    (fun e w₁ hfails h₁ => ⟨hfails, h₁⟩) (fun w₁ hfails => hfails)
  simp only [wp_bind]
  refine h₁.wp_getTable hready.attached.handle ?_ ?_
  · intro t' ht'
    have htable : t' = t := Option.some.inj (ht'.symm.trans ht.held)
    subst htable
    simp only [wp_tryFinally, wp_bind]
    refine wp_mono (h₁.wp_readRows ht.width) ?_ ?_ (fun _ h => h)
    · intro entities w₂ hpost
      obtain ⟨rfl, h₂⟩ := hpost
      simp only [wp_bind]
      refine h₂.wp_call_fails (fun w₃ h₃ _ => ?_) ?_ (fun _ hfails => hfails)
      · simp only [wp_pure]
        refine h₃.wp_call_fails (fun w₄ h₄ _ => ?_) ?_ (fun _ hfails => hfails)
        · exact ⟨(Content.entities_eq ht.held).symm, h₄⟩
        · exact fun e w₄ hfails h₄ => ⟨hfails, h₄⟩
      · intro e w₃ hfails h₃
        exact hclose ⟨hfails, h₃⟩ (fun _ h => h) (fun _ _ h => h) (fun _ h => h)
    · intro e w₂ h₂
      exact hclose h₂ (fun _ h => h) (fun _ _ h => h) (fun _ h => h)
  · intro w₂ hnone
    rw [show (TxStore.ofCommitted c).current.table = c.table from rfl, ht.held] at hnone
    cases hnone

/-! ## A fresh helper -/

theorem wp_noOrm_init :
    (NoOrmBenchmark.init env).wp
      { ok := fun _ w' => ∃ db file c, NoOrmReady w' db file c ∧ c.entities env = [] ∧
          w'.handles = w.handles.insert db file ∧
          w'.deletions = w.deletions ++ [("no_orm", w.isOpen "no_orm")] ∧
          (AllIdle w → AllIdle w') ∧
          ∃ helper, w'.objects = { w.objects with sqLiteHelper := some helper }
        throws := fun _ _ => True
        dead := fun _ => True } w := by
  simp only [NoOrmBenchmark.init, wp_bind]
  refine wp_deleteDatabase (fun w₁ h₁ => ?_) (fun _ => True.intro) (fun _ => True.intro)
  simp only [NoOrmSQLiteHelper.new, wp_bind]
  refine wp_getWritableDatabase (P := TableCreated NoOrmSQLiteHelper.columns) rfl h₁.idleAt
    ?_ ?_ (fun _ _ _ => True.intro) (fun _ => True.intro)
  · intro w₂ w₃ db file hdb h₃
    refine wp_createTable h₃ hdb (fun c w₄ hc h₄ => ⟨c, true, hc, h₄⟩)
      (fun e w₄ h₄ => ⟨_, h₄⟩) (fun _ => True.intro)
  · intro db file c quiet w₂ hcreated h₂
    rw [show (SQLiteOpenHelper.mk "no_orm" none).name = "no_orm" from rfl, h₁.content]
      at hcreated
    simp only [wp_bind]
    refine wp_call (fun _ => ?_) (fun _ _ => True.intro) (fun _ => True.intro)
    obtain ⟨_, c₀, hc₀, rfl⟩ := hcreated.resolve_right fun h => h.1 rfl
    have htable : c₀.table = some ⟨NoOrmSQLiteHelper.columns, [], 0⟩ := hc₀.1
    refine ⟨db, file, _, ⟨⟨h₂.attached.name, h₂.attached.handle, h₂.attached.held⟩, rfl,
      ⟨_, htable, rfl, ?_⟩⟩, ?_, ?_, ?_, fun hall => h₂.idle (h₁.idle hall),
      ⟨⟨"no_orm", some db⟩, ⟨db, NoOrmSQLiteHelper.insertColumns⟩⟩, ?_⟩
    · exact fun row hrow => absurd hrow List.not_mem_nil
    · simp only [Content.entities, htable, List.map_nil]
    · show w₂.handles = _
      rw [h₂.handles, h₁.handles]
    · show w₂.deletions = _
      rw [h₂.deletions, h₁.deletions]
    · rw [← h₁.objects, ← h₂.objects]

/-! ## Histories of calls -/

/-- Calls of `insertInTransaction`, one after the other, that may throw. -/
def insertCalls (env : Android) (w₀ : World) : Lts World (List Entity) :=
  Lts.ofNext w₀ fun w entities =>
    match NoOrmSQLiteHelper.insertInTransaction env entities w with
    | (.dead, _) => none
    | (_, w') => some w'

/-- The entities of those calls of a history that returned. -/
def saved (env : Android) (history : History World (List Entity)) : List Entity :=
  history.flatMap fun p =>
    match (NoOrmSQLiteHelper.insertInTransaction env p.2 p.1).1 with
    | .ok _ => p.2
    | .throws _ | .dead => []

theorem saved_snoc {history : History World (List Entity)} {entities : List Entity} :
    saved env (history ++ [(w, entities)]) = saved env history ++
      match (NoOrmSQLiteHelper.insertInTransaction env entities w).1 with
      | .ok _ => entities
      | .throws _ | .dead => [] := by
  rw [saved, List.flatMap_append, List.flatMap_singleton]
  rfl

theorem NoOrmReady.of_run (hready : NoOrmReady w₀ db file c) (hempty : c.entities env = [])
    {history : History World (List Entity)} (hrun : (insertCalls env w₀).Run history w) :
    ∃ c', NoOrmReady w db file c' ∧ c'.entities env = saved env history := by
  refine Lts.Run.history_invariant
    (I := fun history w => ∃ c', NoOrmReady w db file c' ∧ c'.entities env = saved env history)
    ?_ ?_ hrun
  · intro w hstart
    subst hstart
    exact ⟨c, hready, hempty⟩
  · intro history w entities w' _ hbefore hstep
    obtain ⟨c₁, hready₁, hsaved⟩ := hbefore
    have hwp : (NoOrmSQLiteHelper.insertInTransaction env entities).wp _ w :=
      wp_insertInTransaction hready₁
    have hnext : (match NoOrmSQLiteHelper.insertInTransaction env entities w with
      | (.dead, _) => none
      | (_, w') => some w') = some w' := hstep
    rw [saved_snoc, ← hsaved]
    cases hcall : NoOrmSQLiteHelper.insertInTransaction env entities w with
    | mk exit w₂ =>
        rw [hcall] at hnext
        cases exit with
        | ok a =>
            cases hnext
            obtain ⟨c₂, ht, hentities, h₂⟩ := ok_of_wp hwp hcall
            exact ⟨c₂, hready₁.within h₂ ht, hentities⟩
        | throws e =>
            cases hnext
            have h₂ := throws_of_wp hwp hcall
            exact ⟨c₁, hready₁.within h₂ hready₁.table, (List.append_nil _).symm⟩
        | dead => cases hnext

/-- After any history of calls on a fresh helper the loaded list is what the
calls that returned were given, in order; and the load does return unless a
library call it makes does not. -/
theorem getAllEntities_saved {w₁ : World} {history : History World (List Entity)}
    (hinit : NoOrmBenchmark.init env w₀ = (.ok (), w₁))
    (hrun : (insertCalls env w₁).Run history w) :
    (∀ entities w', NoOrmSQLiteHelper.getAllEntities env w = (.ok entities, w') →
        entities = saved env history) ∧
      ((∀ n, w.calls ≤ n → env.answer n = .ok) →
        (NoOrmSQLiteHelper.getAllEntities env w).1 = .ok (saved env history)) := by
  obtain ⟨db, file, c, hready, hempty, _⟩ := ok_of_wp wp_noOrm_init hinit
  obtain ⟨c', hready', hentities⟩ := hready.of_run hempty hrun
  have hwp : (NoOrmSQLiteHelper.getAllEntities env).wp _ w := wp_getAllEntities hready'
  rw [← hentities]
  refine ⟨fun entities w' hload => (ok_of_wp hwp hload).1, fun hanswers => ?_⟩
  have hreturns : ¬ env.Fails w := fun hfails => by
    obtain ⟨n, hn, hfail⟩ := hfails
    exact hfail (hanswers n hn)
  unfold wp at hwp
  split at hwp
  · next heq => rw [heq, hwp.1]
  · exact absurd hwp.1 hreturns
  · exact absurd hwp hreturns

/-- Two entities are saved, a null keeps the second call from saving anything,
and the third call's text is not mixed up with what that one had bound. -/
theorem getAllEntities_saved_nullField :
    ∃ env w₁ history w,
      NoOrmBenchmark.init env World.empty = (.ok (), w₁) ∧
        (insertCalls env w₁).Run history w ∧ history.length = 3 ∧
        (NoOrmSQLiteHelper.getAllEntities env w).1 =
          .ok [⟨some "a", some "b", some "c", -1, 5⟩, ⟨some "a", some "", some "1", 2, -6⟩,
            ⟨some "x", some "y", some "z", 0, 0⟩] := by
  have hinit : NoOrmBenchmark.init (Android.answering fun _ => .ok) World.empty =
      (.ok (), (NoOrmBenchmark.init (Android.answering fun _ => .ok) World.empty).2) :=
    Prod.ext (by decide +kernel) rfl
  obtain ⟨history, w, hrun, htest⟩ := Lts.exists_run_of_replay
    (NoOrmBenchmark.init (Android.answering fun _ => .ok) World.empty).2
    (fun w entities =>
      match NoOrmSQLiteHelper.insertInTransaction (Android.answering fun _ => .ok) entities w with
      | (.dead, _) => none
      | (_, w') => some w')
    [[⟨some "a", some "b", some "c", -1, 5⟩, ⟨some "a", some "", some "1", 2, -6⟩],
      [⟨some "p", none, some "q", 3, 4⟩], [⟨some "x", some "y", some "z", 0, 0⟩]]
    (fun history _ => decide (history.length = 3 ∧
      saved (Android.answering fun _ => .ok) history =
        [⟨some "a", some "b", some "c", -1, 5⟩, ⟨some "a", some "", some "1", 2, -6⟩,
          ⟨some "x", some "y", some "z", 0, 0⟩])) (by decide +kernel)
  rw [decide_eq_true_iff] at htest
  refine ⟨_, _, history, w, hinit, hrun, htest.1, ?_⟩
  rw [← htest.2]
  exact (getAllEntities_saved hinit hrun).2 fun _ _ => rfl

end

end OrmBenchmark.Ref
