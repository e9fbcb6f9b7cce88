import OrmBenchmark.Proofs.NoOrmStore

/-!
# The helper over its whole life

Everything the helper offers, in any order: inserts in a transaction and outside
one, both reads, and `close`, which is not the end. The next read opens the
database again, and so does the next insert; but the statement was compiled for
the handle that was closed, and the helper never compiles another. From the
first `close` on nothing can be inserted, and everything can be read.

Rows are numbered as they come and a rollback takes its numbers back, so an id
is a place in the list of what was kept.
-/

namespace OrmBenchmark.Ref

open OrmBenchmark.Lib OrmBenchmark.Lib.Prog

structure Table.Numbered (t : Table) : Prop where
  ids : ∀ i (row : List SqlValue), t.rows[i]? = some row →
    row.getD 0 .null = .integer (Int64.ofNat (i + 1))
  sequence : t.sequence = t.rows.length

structure HelperTable (c : Content) (t : Table) : Prop extends NoOrmTable c t where
  numbered : t.Numbered
  version : c.version ≠ 0

/-- Between two calls. `db` is the handle the statement was compiled for, and
`mDatabase` the one the helper has open. -/
structure HelperState (w : World) (db file : Nat) (c : Content) (closed : Bool)
    (mDatabase : Option Nat) : Prop where
  name : w.names "no_orm" = some file
  held : w.files file = some (.ofCommitted c)
  helper : w.objects.sqLiteHelper =
    some ⟨⟨"no_orm", mDatabase⟩, ⟨db, NoOrmSQLiteHelper.insertColumns⟩⟩
  opened : ∀ db' ∈ mDatabase, w.handles.lookup db' = some file
  statement : if closed then w.handles.lookup db = none else mDatabase = some db
  used : db < w.next
  table : ∃ t, HelperTable c t

/-- The entity with this id, if the list is everything there is. -/
def entityAt (entities : List Entity) (id : Int64) : Option Entity :=
  if 0 < id.toInt then entities[id.toInt.toNat - 1]? else none

section

variable {env : Android} {w w₀ w' : World} {db file : Nat} {c c' : Content} {closed quiet : Bool}
  {mDatabase : Option Nat} {s v : TxStore Content} {t : Table} {entity : Entity}
  {entities : List Entity} {id : Int64}

/-! ## Numbers -/

theorem Table.Numbered.addRow (h : t.Numbered) :
    (t.addRow (entity.row (.integer (Int64.ofNat (t.sequence + 1))))).Numbered := by
  refine ⟨?_, ?_⟩
  · intro i row hrow
    rcases Nat.lt_or_ge i t.rows.length with hlt | hge
    · exact h.ids i row (by rw [← hrow, Table.addRow, List.getElem?_append_left hlt])
    · rw [Table.addRow, List.getElem?_append_right hge] at hrow
      have hlast : i = t.rows.length := by
        have := (List.getElem?_eq_some_iff.1 hrow).1
        simp only [List.length_singleton] at this
        omega
      subst hlast
      rw [Nat.sub_self, List.getElem?_cons_zero] at hrow
      cases hrow
      rw [h.sequence]
      rfl
  · show t.sequence + 1 = (t.rows ++ [_]).length
    rw [h.sequence, List.length_append, List.length_singleton]

/-- The first row with an id is the row in its place. -/
theorem Table.Numbered.find_row (h : t.Numbered) (hlt : t.rows.length < 2 ^ 63) :
    t.rows.find? (fun row => decide (row.getD 0 .null = .integer id)) =
      if 0 < id.toInt then t.rows[id.toInt.toNat - 1]? else none := by
  have hid : ∀ i (row : List SqlValue), t.rows[i]? = some row →
      (row.getD 0 .null = .integer id ↔ ((i + 1 : Nat) : Int) = id.toInt) := by
    intro i row hrow
    have hi := (List.getElem?_eq_some_iff.1 hrow).1
    rw [h.ids i row hrow, SqlValue.integer.injEq, ← Int64.toInt_inj,
      Int64.toInt_ofNat_of_lt (by omega)]
  cases hfind : t.rows.find? (fun row => decide (row.getD 0 .null = .integer id)) with
  | none =>
      rw [List.find?_eq_none] at hfind
      split
      · next hpos =>
          refine (List.getElem?_eq_none_iff.2 ?_).symm
          by_contra hlength
          have hrow : t.rows[id.toInt.toNat - 1]? = some t.rows[id.toInt.toNat - 1] :=
            List.getElem?_eq_getElem (by omega)
          have hfound := (hid _ _ hrow).2 (by omega)
          exact hfind _ (List.mem_of_getElem? hrow) (decide_eq_true hfound)
      · rfl
  | some row =>
      obtain ⟨hrow, i, hi, hat, _⟩ := List.find?_eq_some_iff_getElem.1 hfind
      have hget : t.rows[i]? = some row := by rw [List.getElem?_eq_getElem hi, hat]
      have hplace := (hid i row hget).1 (of_decide_eq_true hrow)
      rw [if_pos (by omega), show id.toInt.toNat - 1 = i by omega, hget]

/-- What a cursor over the rows with an id finds first. -/
theorem Table.Numbered.found (h : t.Numbered) (hlt : t.rows.length < 2 ^ 63) :
    (t.rows.find? fun row => decide (row.getD 0 .null = .integer id)).map (Entity.ofRow env) =
      entityAt (t.rows.map (Entity.ofRow env)) id := by
  rw [h.find_row hlt, entityAt]
  split
  · rw [List.getElem?_map]
  · rfl

/-! ## What the calls keep -/

theorem HelperState.of_eq (h : HelperState w db file c closed mDatabase)
    (hnames : w'.names = w.names) (hheld : w'.files file = some (.ofCommitted c'))
    (hhandles : w'.handles = w.handles) (hobjects : w'.objects = w.objects)
    (hnext : w'.next = w.next) (htable : ∃ t, HelperTable c' t) :
    HelperState w' db file c' closed mDatabase := by
  refine ⟨?_, hheld, ?_, ?_, ?_, ?_, htable⟩
  · rw [hnames, h.name]
  · rw [hobjects, h.helper]
  · rw [hhandles]
    exact h.opened
  · rw [hhandles]
    exact h.statement
  · rw [hnext]
    exact h.used

theorem HelperState.within (h : HelperState w db file c closed mDatabase)
    (hw : Within w file (.ofCommitted c') quiet w') (htable : ∃ t, HelperTable c' t) :
    HelperState w' db file c' closed mDatabase :=
  h.of_eq hw.names hw.held hw.handles hw.objects hw.next htable

/-- Only a close leaves the helper without a database. -/
theorem HelperState.closed_of_none (h : HelperState w db file c closed none) : closed = true := by
  have hstatement := h.statement
  cases closed with
  | true => rfl
  | false => cases hstatement

/-- A closed helper opens the database again. -/
theorem HelperState.wp_getWritableDatabase {Q : Post World Throwable Nat}
    (h : HelperState w db file c closed mDatabase)
    (hok : ∀ db' w', HelperState w' db file c closed (some db') → w.calls ≤ w'.calls →
      Q.ok db' w')
    (hthrows : ∀ e w', env.Fails w → HelperState w' db file c closed mDatabase → Q.throws e w')
    (hdead : ∀ w', env.Fails w → Q.dead w') :
    (NoOrmSQLiteHelper.getWritableDatabase env).wp Q w := by
  cases mDatabase with
  | some db' => exact wp_noOrm_getWritableDatabase h.helper rfl (hok db' w h (Nat.le_refl _))
  | none =>
      obtain ⟨t, ht⟩ := h.table
      cases h.closed_of_none
      simp only [NoOrmSQLiteHelper.getWritableDatabase, wp_bind]
      refine wp_sqLiteHelper h.helper ?_
      simp only [SQLiteOpenHelper.getWritableDatabase, openDatabase, wp_bind]
      refine wp_call (fun _ => ?_) (fun e he => ?_) (fun hkill => ?_)
      · simp only [wp_bind, wp_getState, h.name, wp_newHandle', wp_tryCatch]
        have hstore : World.store?
            { w with calls := w.calls + 1, next := w.next + 1,
                     handles := w.handles.insert w.next file } w.next =
            some (file, .ofCommitted c) := by
          simp only [World.store?, AList.lookup_insert, Option.bind_some, h.held, Option.map_some]
        simp only [SQLiteOpenHelper.create, getStore, wp_bind, wp_getState, hstore, wp_pure]
        have hversion : (TxStore.ofCommitted c).current.version ≠ 0 := ht.version
        rw [if_neg hversion]
        simp only [wp_pure, setSqLiteHelper, wp_bind, wp_modifyState]
        refine hok w.next _ ⟨h.name, h.held, rfl, ?_, ?_, Nat.lt_succ_of_lt h.used, t, ht⟩
          (Nat.le_succ _)
        · intro db' hdb'
          cases hdb'
          exact AList.lookup_insert _
        · show (w.handles.insert w.next file).lookup db = none
          rw [AList.lookup_insert_ne (Nat.ne_of_lt h.used)]
          exact h.statement
      · exact hthrows e _ ⟨w.calls, Nat.le_refl _, by rw [he]; exact Answer.noConfusion⟩
          (h.of_eq rfl h.held rfl rfl rfl h.table)
      · exact hdead _ ⟨w.calls, Nat.le_refl _, by rw [hkill]; exact Answer.noConfusion⟩

/-! ## Inserting -/

theorem HelperTable.addRow (h : HelperTable c t) :
    HelperTable
      { c with table := some (t.addRow (entity.row (.integer (Int64.ofNat (t.sequence + 1))))) }
      (t.addRow (entity.row (.integer (Int64.ofNat (t.sequence + 1))))) where
  toNoOrmTable := h.toNoOrmTable.addRow _ c.version
  numbered := h.numbered.addRow
  version := h.version

theorem HelperTable.addRow_entities (h : HelperTable c t) :
    Content.entities env
      { c with table := some (t.addRow (entity.row (.integer (Int64.ofNat (t.sequence + 1))))) } =
      c.entities env ++ [entity] := by
  rw [Content.entities_eq rfl, Table.addRow_entities, Content.entities_eq h.held]

/-- An insert comes to the statement with its own values bound. -/
theorem Within.wp_insertBound {helper : NoOrmSQLiteHelper} {Q : Post World Throwable Unit}
    (h : Within w₀ file s quiet w) (hhelper : w₀.objects.sqLiteHelper = some helper)
    (hstatement : helper.insertStatement = ⟨db, NoOrmSQLiteHelper.insertColumns⟩)
    (hok : ∀ w', Within w₀ file s quiet w' →
      (onTable db noSuchTable fun t =>
        t.addRow (t.newRow env NoOrmSQLiteHelper.insertColumns entity.values)).wp Q w')
    (hthrows : ∀ e w', Within w₀ file s false w' → Q.throws e w')
    (hdead : ∀ w', Q.dead w') : (NoOrmSQLiteHelper.insert env entity).wp Q w := by
  simp only [NoOrmSQLiteHelper.insert, clearBindings, wp_bind]
  refine h.wp_call (fun w₁ h₁ _ => ?_) hthrows hdead
  simp only [wp_modifyState, wp_bind]
  refine (h₁.bind ∅).wp_bindToStatement (fun w₂ h₂ hbound => ?_) hthrows hdead
  simp only [wp_bind]
  refine wp_sqLiteHelper (h₂.objects ▸ hhelper) ?_
  simp only [executeInsert, wp_bind, hstatement]
  refine h₂.wp_call (fun w₃ h₃ hsame => ?_) hthrows hdead
  simp only [wp_bind, wp_getState]
  have hvalues : boundValues NoOrmSQLiteHelper.insertColumns.length w₃.bindings =
      entity.values := by
    rw [hsame]
    exact hbound
  rw [hvalues]
  exact hok w₃ h₃

/-- The row an insert adds, in a transaction or outside one. -/
theorem Within.wp_insertRow {helper : NoOrmSQLiteHelper} {Q : Post World Throwable Unit}
    (h : Within w₀ file s quiet w) (hdb : w₀.handles.lookup db = some file)
    (hhelper : w₀.objects.sqLiteHelper = some helper)
    (hstatement : helper.insertStatement = ⟨db, NoOrmSQLiteHelper.insertColumns⟩)
    (ht : NoOrmTable s.current t)
    (hok : ∀ w', Within w₀ file (s.update fun content => { content with
      table := some (t.addRow (entity.row (.integer (Int64.ofNat (t.sequence + 1))))) }) quiet w' →
      Q.ok () w')
    (hthrows : ∀ e w', Within w₀ file s false w' → Q.throws e w')
    (hdead : ∀ w', Q.dead w') : (NoOrmSQLiteHelper.insert env entity).wp Q w := by
  refine h.wp_insertBound hhelper hstatement (fun w₁ h₁ => ?_) hthrows hdead
  refine h₁.wp_onTable hdb (fun t' w₂ ht' h₂ => ?_) fun w₂ _ h₂ => hthrows _ w₂ h₂
  cases ht.held.symm.trans ht'
  rw [ht.newRow] at h₂
  exact hok w₂ h₂

/-- An insert through a statement whose handle is closed throws, whatever the
device answers. -/
theorem Within.wp_insert_closed {helper : NoOrmSQLiteHelper} {Q : Post World Throwable Unit}
    (h : Within w₀ file s quiet w) (hdb : w₀.handles.lookup db = none)
    (hhelper : w₀.objects.sqLiteHelper = some helper)
    (hstatement : helper.insertStatement = ⟨db, NoOrmSQLiteHelper.insertColumns⟩)
    (hthrows : ∀ e w', Within w₀ file s false w' → Q.throws e w')
    (hdead : ∀ w', Q.dead w') : (NoOrmSQLiteHelper.insert env entity).wp Q w := by
  refine h.wp_insertBound hhelper hstatement (fun w₁ h₁ => ?_) hthrows hdead
  have hnone : w₁.store? db = none := by
    rw [World.store?, h₁.handles, hdb]
    rfl
  simp only [onTable, onStore, wp_bind, wp_getState, hnone, wp_fail]
  exact hthrows _ _ h₁.failed

/-- What an insert outside a transaction adds. -/
theorem HelperState.wp_insert (h : HelperState w db file c closed mDatabase) :
    (NoOrmSQLiteHelper.insert env entity).wp
      { ok := fun _ w' => closed = false ∧ ∃ c', HelperState w' db file c' closed mDatabase ∧
          c'.entities env = c.entities env ++ [entity]
        throws := fun _ w' => HelperState w' db file c closed mDatabase
        dead := fun _ => True } w := by
  have hstart : Within w file (.ofCommitted c) true w := Within.refl h.held
  have hstatement := h.statement
  cases closed with
  | true =>
      exact hstart.wp_insert_closed hstatement h.helper rfl
        (fun _ _ h' => h.within h' h.table) fun _ => True.intro
  | false =>
      obtain ⟨t, ht⟩ := h.table
      refine hstart.wp_insertRow (h.opened db hstatement) h.helper rfl ht.toNoOrmTable
        (fun w' h' => ?_) (fun _ _ h' => h.within h' h.table) fun _ => True.intro
      exact ⟨rfl, _, h.within h' ⟨_, ht.addRow⟩, ht.addRow_entities⟩

/-- The loop of a transaction begun through a handle `w` has. -/
theorem HelperState.wp_insertEach (h : HelperState w db file c closed mDatabase)
    (h₁ : Within w file ((TxStore.ofCommitted c).inner c) true w') :
    (forEach (NoOrmSQLiteHelper.insert env) entities).wp
      { ok := fun _ w₂ => ∃ c', ((closed = true → entities = []) ∧ (∃ t, HelperTable c' t) ∧
          c'.entities env = c.entities env ++ entities) ∧
          Within w file ((TxStore.ofCommitted c).inner c') true w₂
        throws := fun _ w₂ => ∃ c', Within w file ((TxStore.ofCommitted c).inner c') false w₂
        dead := fun _ => True } w' := by
  have hstatement := h.statement
  cases closed with
  | true =>
      cases entities with
      | nil => exact ⟨c, ⟨fun _ => rfl, h.table, (List.append_nil _).symm⟩, h₁⟩
      | cons entity rest =>
          rw [forEach, wp_bind]
          exact h₁.wp_insert_closed hstatement h.helper rfl (fun _ _ h' => ⟨c, h'⟩)
            fun _ => True.intro
  | false =>
      have heach : (forEach (NoOrmSQLiteHelper.insert env) entities).wp
          { ok := fun _ w₂ => ∃ c', (∃ t, HelperTable c' t) ∧
              c'.entities env = c.entities env ++ entities ∧
              Within w file ((TxStore.ofCommitted c).inner c') true w₂
            throws := fun _ w₂ => ∃ c', Within w file ((TxStore.ofCommitted c).inner c') false w₂
            dead := fun _ => True } w' := by
        refine Within.wp_insertEach (fun hc h' => ?_) h.table h₁
        obtain ⟨t, ht⟩ := hc
        exact h'.wp_insertRow (h.opened db hstatement) h.helper rfl ht.toNoOrmTable
          (fun w₂ h₂ => ⟨_, ⟨_, ht.addRow⟩, ht.addRow_entities, h₂⟩) (fun _ _ h₂ => ⟨_, h₂⟩)
          fun _ => True.intro
      refine wp_mono heach (fun _ w₂ hpost => ?_) (fun _ _ h => h) fun _ h => h
      obtain ⟨c', htable, hentities, h₂⟩ := hpost
      exact ⟨c', ⟨Bool.noConfusion, htable, hentities⟩, h₂⟩

/-- … and one transaction: all of the entities or none, and after a `close` none. -/
theorem HelperState.wp_insertInTransaction (h : HelperState w db file c closed mDatabase) :
    (NoOrmSQLiteHelper.insertInTransaction env entities).wp
      { ok := fun _ w' => (closed = true → entities = []) ∧
          ∃ mDatabase' c', HelperState w' db file c' closed mDatabase' ∧
            c'.entities env = c.entities env ++ entities
        throws := fun _ w' => ∃ mDatabase', HelperState w' db file c closed mDatabase'
        dead := fun _ => True } w := by
  simp only [NoOrmSQLiteHelper.insertInTransaction, beginTransactionNonExclusive, ite_self,
    wp_bind]
  refine h.wp_getWritableDatabase (fun db' w₁ h₁ _ => ?_) (fun _ _ _ h₁ => ⟨_, h₁⟩)
    fun _ _ => True.intro
  dsimp only
  refine wp_mono (wp_bracket h₁.held (h₁.opened db' rfl) fun _ h₂ => h₁.wp_insertEach h₂)
    (fun _ w' hpost => ?_) (fun _ _ h' => ⟨_, h₁.within h' h.table⟩) (fun _ h => h)
  obtain ⟨c', ⟨hempty, htable, hentities⟩, h'⟩ := hpost
  exact ⟨hempty, _, c', h₁.within h' htable, hentities⟩

/-! ## Reading -/

/-- A read from a file throws only where a library call fails, and changes
nothing. -/
def Android.Reads {α : Type} (env : Android) (w₀ : World) (file : Nat) (c : Content)
    (value : α) : Post World Throwable α where
  ok a w' := a = value ∧ Within w₀ file (.ofCommitted c) true w'
  throws _ w' := env.Fails w₀ ∧ Within w₀ file (.ofCommitted c) false w'
  dead _ := env.Fails w₀

/-- … and through the helper, which may open the file for it. -/
def Android.HelperReads {α : Type} (env : Android) (w : World) (db file : Nat) (c : Content)
    (closed : Bool) (value : α) : Post World Throwable α where
  ok a w' := a = value ∧ w.calls ≤ w'.calls ∧
    ∃ mDatabase, HelperState w' db file c closed mDatabase
  throws _ w' := env.Fails w ∧ ∃ mDatabase, HelperState w' db file c closed mDatabase
  dead _ := env.Fails w

theorem Android.Fails.mono (h : env.Fails w') (hcalls : w.calls ≤ w'.calls) : env.Fails w := by
  obtain ⟨n, hn, hfails⟩ := h
  exact ⟨n, Nat.le_trans hcalls hn, hfails⟩

/-- The `finally` that closes a cursor. -/
theorem wp_closeCursor {α : Type} {m : AndroidProg α} {value : α}
    (h : m.wp (env.Reads w₀ file c value) w) :
    (tryFinally m (call env)).wp (env.Reads w₀ file c value) w := by
  rw [wp_tryFinally]
  refine wp_mono h (fun a w' hpost => ?_) (fun e w' hpost => ?_) fun _ hfails => hfails
  · obtain ⟨hvalue, h'⟩ := hpost
    exact h'.wp_call_fails (fun w'' h'' _ => ⟨hvalue, h''⟩)
      (fun e w'' hfails h'' => ⟨hfails, h''⟩) fun _ hfails => hfails
  · obtain ⟨hfails, h'⟩ := hpost
    exact h'.wp_call (fun w'' h'' _ => ⟨hfails, h''⟩) (fun e w'' h'' => ⟨hfails, h''⟩)
      fun _ => hfails

theorem HelperState.wp_reads {α : Type} {m : AndroidProg α} {value : α}
    (h : HelperState w db file c closed mDatabase)
    (hm : m.wp (env.Reads w file c value) w) :
    m.wp (env.HelperReads w db file c closed value) w := by
  refine wp_mono hm (fun a w' hpost => ?_) (fun e w' hpost => ?_) fun _ hfails => hfails
  · obtain ⟨hvalue, h'⟩ := hpost
    exact ⟨hvalue, h'.calls, _, h.within h' h.table⟩
  · obtain ⟨hfails, h'⟩ := hpost
    exact ⟨hfails, _, h.within h' h.table⟩

/-- What begins later is counted from the beginning. -/
theorem wp_helperReads_of_later {α : Type} {m : AndroidProg α} {value : α}
    (hcalls : w.calls ≤ w'.calls) (hm : m.wp (env.HelperReads w' db file c closed value) w') :
    m.wp (env.HelperReads w db file c closed value) w' := by
  refine wp_mono hm (fun a w'' hpost => ?_) (fun e w'' hpost => ?_) fun _ hfails => ?_
  · obtain ⟨hvalue, hcalls', hstate⟩ := hpost
    exact ⟨hvalue, Nat.le_trans hcalls hcalls', hstate⟩
  · exact ⟨hpost.1.mono hcalls, hpost.2⟩
  · exact Android.Fails.mono hfails hcalls

/-- A read goes through the handle that is open, or is opened for it. -/
theorem HelperState.wp_readable {α : Type} {read : Nat → AndroidProg α} {value : α}
    (h : HelperState w db file c closed mDatabase)
    (hread : ∀ db' w₁, w₁.handles.lookup db' = some file →
      w₁.files file = some (.ofCommitted c) →
      (read db').wp (env.Reads w₁ file c value) w₁) :
    (do let db ← NoOrmSQLiteHelper.getWritableDatabase env; read db).wp
      (env.HelperReads w db file c closed value) w := by
  rw [wp_bind]
  refine h.wp_getWritableDatabase (fun db' w₁ h₁ hcalls => ?_)
    (fun e w₁ hfails h₁ => ⟨hfails, _, h₁⟩) fun w₁ hfails => hfails
  exact wp_helperReads_of_later hcalls
    (h₁.wp_reads (hread db' w₁ (h₁.opened db' rfl) h₁.held))

theorem HelperState.wp_getAllEntities (h : HelperState w db file c closed mDatabase) :
    (NoOrmSQLiteHelper.getAllEntities env).wp
      (env.HelperReads w db file c closed (c.entities env)) w := by
  obtain ⟨t, ht⟩ := h.table
  refine h.wp_readable fun db' w₁ hdb hheld => ?_
  rw [wp_bind]
  refine (Within.refl hheld).wp_call_fails (fun w₂ h₂ _ => ?_)
    (fun e w₂ hfails h₂ => ⟨hfails, h₂⟩) fun w₂ hfails => hfails
  dsimp only
  rw [wp_bind]
  refine h₂.wp_getTable hdb (fun t' ht' => ?_) fun w₃ hnone => ?_
  · cases ht.held.symm.trans ht'
    refine wp_closeCursor ?_
    rw [wp_bind]
    refine wp_mono (h₂.wp_readRows ht.width) (fun entities w₃ hpost => ?_)
      (fun _ _ hpost => hpost) fun _ hfails => hfails
    obtain ⟨rfl, h₃⟩ := hpost
    dsimp only
    rw [wp_bind]
    exact h₃.wp_call_fails (fun w₄ h₄ _ => ⟨(Content.entities_eq ht.held).symm, h₄⟩)
      (fun e w₄ hfails h₄ => ⟨hfails, h₄⟩) fun _ hfails => hfails
  · cases ht.held.symm.trans hnone

/-- The rows with the id, in the order of the table. -/
theorem wp_queryById (ht : c.table = some t) (hdb : w.handles.lookup db = some file)
    (hheld : w.files file = some (.ofCommitted c)) :
    (NoOrmSQLiteHelper.queryById env db id).wp
      (env.Reads w file c (t.rows.filter fun row => row.getD 0 .null = .integer id)) w := by
  rw [NoOrmSQLiteHelper.queryById, wp_bind]
  refine (Within.refl hheld).wp_call_fails (fun w₁ h₁ _ => ?_)
    (fun e w₁ hfails h₁ => ⟨hfails, h₁⟩) fun w₁ hfails => hfails
  dsimp only
  rw [wp_bind]
  refine h₁.wp_getTable hdb (fun t' ht' => ?_) fun w₂ hnone => ?_
  · cases ht.symm.trans ht'
    exact ⟨rfl, h₁⟩
  · cases ht.symm.trans hnone

theorem HelperState.wp_findEntity (h : HelperState w db file c closed mDatabase)
    (hlt : (c.entities env).length < 2 ^ 63) :
    (NoOrmSQLiteHelper.findEntity env id).wp
      (env.HelperReads w db file c closed (entityAt (c.entities env) id)) w := by
  obtain ⟨t, ht⟩ := h.table
  rw [Content.entities_eq ht.held] at hlt ⊢
  rw [List.length_map] at hlt
  rw [NoOrmSQLiteHelper.findEntity, wp_bind, wp_tryCatch]
  refine wp_mono (h.wp_readable fun _ _ hdb hheld => wp_queryById ht.held hdb hheld)
    (fun cursor w₁ hpost => ?_) (fun _ _ hpost => hpost)
    fun _ hfails => hfails
  obtain ⟨hcursor, hcalls, _, h₁⟩ := hpost
  refine wp_helperReads_of_later hcalls (h₁.wp_reads (wp_closeCursor ?_))
  rw [wp_bind]
  refine (Within.refl h₁.held).wp_call_fails (fun w₂ h₂ _ => ?_)
    (fun e w₂ hfails h₂ => ⟨hfails, h₂⟩) fun w₂ hfails => hfails
  have hfound : cursor.head?.map (Entity.ofRow env) =
      entityAt (t.rows.map (Entity.ofRow env)) id := by
    rw [hcursor, List.head?_filter]
    exact ht.numbered.found hlt
  dsimp only
  cases cursor with
  | nil => exact ⟨hfound, h₂⟩
  | cons row rest =>
      have hrow : row ∈ t.rows := by
        exact List.mem_of_mem_filter (hcursor ▸ List.mem_cons_self)
      dsimp only
      rw [wp_bind]
      exact h₂.wp_fromCursor (ht.width row hrow) (fun w₃ h₃ => ⟨hfound, h₃⟩)
        (fun e w₃ hfails h₃ => ⟨hfails, h₃⟩) fun _ hfails => hfails

/-! ## Closing -/

theorem HelperState.wp_dispose (h : HelperState w db file c closed mDatabase) :
    (NoOrmBenchmark.dispose env).wp
      { ok := fun _ w' => HelperState w' db file c true none
        throws := fun _ w' => HelperState w' db file c closed mDatabase
        dead := fun _ => True } w := by
  simp only [NoOrmBenchmark.dispose, wp_bind]
  refine wp_sqLiteHelper h.helper ?_
  simp only [wp_bind, SQLiteOpenHelper.close]
  cases mDatabase with
  | none =>
      cases h.closed_of_none
      simp only [wp_pure]
      exact wp_setSqLiteHelper_same h.helper h
  | some db' =>
      simp only [wp_bind]
      refine wp_call (fun _ => ?_) (fun e _ => h.of_eq rfl h.held rfl rfl rfl h.table)
        fun _ => True.intro
      have hdb := h.opened db' rfl
      simp only [closeHandle, setSqLiteHelper, wp_bind, wp_modifyState, wp_pure]
      rw [hdb]
      refine ⟨h.name, ?_, rfl, ?_, ?_, h.used, h.table⟩
      · show Function.update w.files file _ file = _
        rw [Function.update_self, h.held]
        rfl
      · intro db'' hdb''
        cases hdb''
      · show (w.handles.erase db').lookup db = none
        rcases eq_or_ne db db' with rfl | hne
        · exact AList.lookup_erase _ _
        · rw [AList.lookup_erase_ne hne]
          have hstatement := h.statement
          cases closed with
          | true => exact hstatement
          | false => cases hstatement; exact absurd rfl hne

/-! ## A fresh helper -/

/-- The constructor compiles the statement for the handle it has opened, and
this number is not given out again. -/
theorem HelperState.wp_init :
    (NoOrmBenchmark.init env).wp
      { ok := fun _ w' => ∃ db file c, HelperState w' db file c false (some db) ∧
          c.entities env = []
        throws := fun _ _ => True
        dead := fun _ => True } w := by
  simp only [NoOrmBenchmark.init, wp_bind]
  refine wp_deleteDatabase (fun w₁ h₁ => ?_) (fun _ => True.intro) fun _ => True.intro
  simp only [NoOrmSQLiteHelper.new, SQLiteOpenHelper.getWritableDatabase, openDatabase, wp_bind]
  refine wp_call (fun _ => ?_) (fun _ _ => True.intro) fun _ => True.intro
  simp only [wp_bind, wp_getState, h₁.gone, wp_newNumber, wp_modifyState, wp_newHandle',
    wp_tryCatch]
  refine wp_create (P := TableCreated NoOrmSQLiteHelper.columns)
    (Within.refl (Function.update_self _ _ _)) (AList.lookup_insert _)
    (fun w₂ h₂ => ?_) (fun c quiet w₂ hcreated h₂ => ?_) (fun _ _ _ => True.intro)
    fun _ => True.intro
  · exact wp_createTable h₂ (AList.lookup_insert _) (fun c w₃ hc h₃ => ⟨c, true, hc, h₃⟩)
      (fun e w₃ h₃ => ⟨_, h₃⟩) fun _ => True.intro
  · obtain ⟨_, c₀, hc₀, rfl⟩ := hcreated.resolve_right fun h => h.1 rfl
    have htable : c₀.table = some ⟨NoOrmSQLiteHelper.columns, [], 0⟩ := hc₀.1
    simp only [wp_pure, wp_bind]
    refine wp_call (fun _ => ?_) (fun _ _ => True.intro) fun _ => True.intro
    refine ⟨w₁.next + 1, w₁.next, _, ⟨?_, h₂.held, rfl, ?_, rfl, ?_, ?_⟩, ?_⟩
    · show w₂.names "no_orm" = _
      rw [h₂.names]
      exact Function.update_self "no_orm" (some w₁.next) w₁.names
    · intro db' hdb'
      cases hdb'
      show w₂.handles.lookup (w₁.next + 1) = _
      rw [h₂.handles]
      exact AList.lookup_insert _
    · show w₁.next + 1 < w₂.next
      rw [h₂.next]
      exact Nat.lt_succ_self _
    · refine ⟨_, ⟨htable, rfl, fun row hrow => absurd hrow List.not_mem_nil⟩, ⟨?_, rfl⟩,
        Nat.one_ne_zero⟩
      intro i row hrow
      cases hrow
    · simp only [Content.entities, htable, List.map_nil]

/-! ## Calls and their replies -/

inductive HelperCall
  | insertInTransaction (entities : List Entity)
  | insert (entity : Entity)
  | getAllEntities
  | findEntity (id : Int64)
  | close
deriving DecidableEq, Repr

inductive HelperReply
  | done
  | all (entities : List Entity)
  | one (entity : Option Entity)
deriving DecidableEq, Repr

def HelperCall.prog (env : Android) : HelperCall → AndroidProg HelperReply
  | .insertInTransaction entities => do
      NoOrmSQLiteHelper.insertInTransaction env entities
      pure .done
  | .insert entity => do
      NoOrmSQLiteHelper.insert env entity
      pure .done
  | .getAllEntities => do
      let entities ← NoOrmSQLiteHelper.getAllEntities env
      pure (.all entities)
  | .findEntity id => do
      let entity ← NoOrmSQLiteHelper.findEntity env id
      pure (.one entity)
  | .close => do
      NoOrmBenchmark.dispose env
      pure .done

/-- What the call would insert. -/
def HelperCall.given : HelperCall → List Entity
  | .insertInTransaction entities => entities
  | .insert entity => [entity]
  | .getAllEntities | .findEntity _ | .close => []

/-- What the helper is for: a list that grows until it is closed, and that can
always be read. -/
structure Shelf where
  entities : List Entity
  closed : Bool
deriving DecidableEq, Repr

/-- The reply to a call, if the call may return at all. -/
def Shelf.reply (shelf : Shelf) : HelperCall → Option (HelperReply × Shelf)
  | .insertInTransaction entities =>
      if shelf.closed ∧ entities ≠ [] then none
      else some (.done, { shelf with entities := shelf.entities ++ entities })
  | .insert entity =>
      if shelf.closed then none
      else some (.done, { shelf with entities := shelf.entities ++ [entity] })
  | .getAllEntities => some (.all shelf.entities, shelf)
  | .findEntity id => some (.one (entityAt shelf.entities id), shelf)
  | .close => some (.done, { shelf with closed := true })

/-- The shelf after one more call: a call that throws has not been made, and one
that returns something else than the shelf's reply has no place here. -/
def Shelf.follow (shelf : Shelf) (call : HelperCall) :
    Exit Throwable HelperReply → Option Shelf
  | .ok reply => (shelf.reply call).bind fun p => if p.1 = reply then some p.2 else none
  | .throws _ | .dead => some shelf

def helperCalls (env : Android) (w₀ : World) : Lts World HelperCall :=
  Lts.ofNext w₀ fun w call =>
    match call.prog env w with
    | (.dead, _) => none
    | (_, w') => some w'

/-- The shelf that gives the replies of a history, if there is one. -/
def Shelf.after (env : Android) (history : History World HelperCall) : Option Shelf :=
  history.foldlM (fun shelf p => shelf.follow p.2 (p.2.prog env p.1).1) ⟨[], false⟩

theorem Shelf.after_snoc {history : History World HelperCall} {call : HelperCall} :
    Shelf.after env (history ++ [(w, call)]) =
      (Shelf.after env history).bind fun shelf => shelf.follow call (call.prog env w).1 := by
  rw [Shelf.after, List.foldlM_append]
  simp only [List.foldlM_cons, List.foldlM_nil, bind_pure]
  rfl

/-- The helper has what the shelf has. -/
def HelperHolds (env : Android) (w : World) (db file : Nat) (shelf : Shelf) : Prop :=
  ∃ c mDatabase, HelperState w db file c shelf.closed mDatabase ∧
    c.entities env = shelf.entities

variable {shelf : Shelf}

/-- A read takes nothing from the shelf. -/
theorem holds_of_reads {α : Type} {m : AndroidProg α} {value : α}
    (hentities : c.entities env = shelf.entities)
    (hm : m.wp (env.HelperReads w db file c shelf.closed value) w) :
    m.wp
      { ok := fun a w' => a = value ∧ HelperHolds env w' db file shelf
        throws := fun _ w' => HelperHolds env w' db file shelf
        dead := fun _ => True } w := by
  refine wp_mono hm (fun a w' hpost => ?_) (fun e w' hpost => ?_) fun _ _ => True.intro
  · obtain ⟨hvalue, _, mDatabase', hstate'⟩ := hpost
    exact ⟨hvalue, c, mDatabase', hstate', hentities⟩
  · obtain ⟨_, mDatabase', hstate'⟩ := hpost
    exact ⟨c, mDatabase', hstate', hentities⟩

/-- One call, case by case: the reply is the shelf's, and a call that throws
leaves the shelf alone. -/
theorem HelperHolds.wp_prog (h : HelperHolds env w db file shelf)
    (hlt : shelf.entities.length < 2 ^ 63) (call : HelperCall) :
    (call.prog env).wp
      { ok := fun reply w' => ∃ shelf', shelf.reply call = some (reply, shelf') ∧
          HelperHolds env w' db file shelf'
        throws := fun _ w' => HelperHolds env w' db file shelf
        dead := fun _ => True } w := by
  obtain ⟨c, mDatabase, hstate, hentities⟩ := h
  cases call with
  | insertInTransaction entities =>
      rw [HelperCall.prog, wp_bind]
      refine wp_mono hstate.wp_insertInTransaction (fun _ w' hpost => ?_) (fun e w' hpost => ?_)
        fun _ h => h
      · obtain ⟨hempty, mDatabase', c', hstate', hentities'⟩ := hpost
        refine ⟨_, if_neg fun hnot => hnot.2 (hempty hnot.1), c', mDatabase', hstate', ?_⟩
        rw [hentities', hentities]
      · obtain ⟨mDatabase', hstate'⟩ := hpost
        exact ⟨c, mDatabase', hstate', hentities⟩
  | insert entity =>
      rw [HelperCall.prog, wp_bind]
      refine wp_mono hstate.wp_insert (fun _ w' hpost => ?_)
        (fun e w' hstate' => ⟨c, mDatabase, hstate', hentities⟩) fun _ h => h
      obtain ⟨hopen, c', hstate', hentities'⟩ := hpost
      refine ⟨_, if_neg (by rw [hopen]; exact Bool.false_ne_true), c', mDatabase, hstate', ?_⟩
      rw [hentities', hentities]
  | getAllEntities =>
      rw [HelperCall.prog, wp_bind]
      refine wp_mono (holds_of_reads hentities hstate.wp_getAllEntities)
        (fun entities w' hpost => ?_) (fun _ _ h => h) fun _ h => h
      obtain ⟨rfl, hholds⟩ := hpost
      exact ⟨shelf, by rw [hentities]; rfl, hholds⟩
  | findEntity id =>
      rw [HelperCall.prog, wp_bind]
      refine wp_mono (holds_of_reads hentities
          (hstate.wp_findEntity (by rw [hentities]; exact hlt)))
        (fun entity w' hpost => ?_) (fun _ _ h => h) fun _ h => h
      obtain ⟨rfl, hholds⟩ := hpost
      exact ⟨shelf, by rw [hentities]; rfl, hholds⟩
  | close =>
      rw [HelperCall.prog, wp_bind]
      refine wp_mono hstate.wp_dispose (fun _ w' hstate' => ?_)
        (fun e w' hstate' => ⟨c, mDatabase, hstate', hentities⟩) fun _ h => h
      exact ⟨_, rfl, c, none, hstate', hentities⟩

theorem Shelf.reply_length {call : HelperCall} {reply : HelperReply} {shelf' : Shelf}
    (h : shelf.reply call = some (reply, shelf')) :
    shelf'.entities.length ≤ shelf.entities.length + call.given.length := by
  cases call with
  | insertInTransaction entities =>
      rw [Shelf.reply] at h
      split at h
      · cases h
      · cases h
        exact Nat.le_of_eq List.length_append
  | insert entity =>
      rw [Shelf.reply] at h
      split at h
      · cases h
      · cases h
        exact Nat.le_of_eq List.length_append
  | getAllEntities | findEntity _ | close =>
      cases h
      exact Nat.le_add_right _ _

/-- Along a history, as long as no more entities come than there are ids. -/
theorem HelperHolds.of_run (h : HelperHolds env w₀ db file ⟨[], false⟩)
    {history : History World HelperCall} (hrun : (helperCalls env w₀).Run history w)
    (hfew : (history.flatMap fun p => p.2.given).length < 2 ^ 63) :
    ∃ shelf, Shelf.after env history = some shelf ∧ HelperHolds env w db file shelf ∧
      shelf.entities.length ≤ (history.flatMap fun p => p.2.given).length := by
  revert hfew
  refine Lts.Run.history_invariant
    (I := fun history w => (history.flatMap fun p => p.2.given).length < 2 ^ 63 →
      ∃ shelf, Shelf.after env history = some shelf ∧ HelperHolds env w db file shelf ∧
        shelf.entities.length ≤ (history.flatMap fun p => p.2.given).length)
    (fun w hstart _ => ?_) (fun history w call w' _ hbefore hstep hfew => ?_) hrun
  · subst hstart
    exact ⟨_, rfl, h, Nat.zero_le _⟩
  · rw [List.flatMap_append, List.flatMap_singleton, List.length_append] at hfew ⊢
    obtain ⟨shelf, hafter, hholds, hlength⟩ := hbefore (by omega)
    have hwp : (call.prog env).wp _ w := hholds.wp_prog (by omega) call
    have hnext : (match call.prog env w with
      | (.dead, _) => none
      | (_, w') => some w') = some w' := hstep
    rw [Shelf.after_snoc, hafter, Option.bind_some]
    cases hcall : call.prog env w with
    | mk exit w₂ =>
        rw [hcall] at hnext
        cases exit with
        | ok reply =>
            cases hnext
            obtain ⟨shelf', hreply, hholds'⟩ := ok_of_wp hwp hcall
            have hlength' := Shelf.reply_length hreply
            refine ⟨shelf', ?_, hholds', Nat.le_trans hlength' (Nat.add_le_add_right hlength _)⟩
            rw [Shelf.follow, hreply, Option.bind_some, if_pos rfl]
        | throws e =>
            cases hnext
            exact ⟨shelf, rfl, throws_of_wp hwp hcall, by omega⟩
        | dead => cases hnext

/-- A read that no library call fails under returns. -/
theorem exit_of_helperReads {α : Type} {m : AndroidProg α} {value : α}
    (h : m.wp (env.HelperReads w db file c closed value) w) (hreturns : ¬ env.Fails w) :
    (m w).1 = .ok value := by
  cases hm : m w with
  | mk exit w' =>
      cases exit with
      | ok a => rw [(ok_of_wp h hm).1]
      | throws e => exact absurd (throws_of_wp h hm).1 hreturns
      | dead => exact absurd (dead_of_wp h hm) hreturns

/-- Whatever is called on a fresh helper, and in whatever order, the replies are
those of the shelf: what a transaction did not return for is not there, an id is
a place, and once a `close` has returned nothing is inserted and everything is
still read. The database holds what the shelf does, and both reads return as
long as no library call fails under them. -/
theorem helper_replies_as_shelf {w₁ : World} {history : History World HelperCall}
    (hinit : NoOrmBenchmark.init env w₀ = (.ok (), w₁))
    (hrun : (helperCalls env w₁).Run history w)
    (hfew : (history.flatMap fun p => p.2.given).length < 2 ^ 63) :
    ∃ shelf, Shelf.after env history = some shelf ∧
      w.stored env "no_orm" = shelf.entities ∧
      ((∀ n, w.calls ≤ n → env.answer n = .ok) →
        (NoOrmSQLiteHelper.getAllEntities env w).1 = .ok shelf.entities ∧
          ∀ id, (NoOrmSQLiteHelper.findEntity env id w).1 =
            .ok (entityAt shelf.entities id)) := by
  obtain ⟨db, file, c₁, hstate₁, hempty⟩ := ok_of_wp HelperState.wp_init hinit
  obtain ⟨shelf, hafter, ⟨c, mDatabase, hstate, hentities⟩, hlength⟩ :=
    HelperHolds.of_run ⟨c₁, some db, hstate₁, hempty⟩ hrun hfew
  refine ⟨shelf, hafter, ?_, fun hanswers => ?_⟩
  · rw [← hentities, World.stored, hstate.name, Option.bind_some, hstate.held]
    rfl
  · have hreturns : ¬ env.Fails w := by
      intro hfails
      obtain ⟨n, hn, hfail⟩ := hfails
      exact hfail (hanswers n hn)
    rw [← hentities] at hlength ⊢
    exact ⟨exit_of_helperReads hstate.wp_getAllEntities hreturns,
      fun id => exit_of_helperReads (hstate.wp_findEntity (by omega)) hreturns⟩

/-- Two entities, a null that takes its transaction's number back, a third, and
a close: the insert after it throws, and 3 is still the third. -/
theorem helper_replies_as_shelf_afterClose :
    ∃ env w₁ history w,
      NoOrmBenchmark.init env World.empty = (.ok (), w₁) ∧
        (helperCalls env w₁).Run history w ∧ history.length = 7 ∧
        (NoOrmSQLiteHelper.getAllEntities env w).1 =
          .ok [⟨some "a", some "b", some "c", -1, 5⟩, ⟨some "a", some "", some "1", 2, -6⟩,
            ⟨some "x", some "y", some "z", 0, 0⟩] ∧
        (NoOrmSQLiteHelper.findEntity env 3 w).1 =
          .ok (some ⟨some "x", some "y", some "z", 0, 0⟩) := by
  have hinit : NoOrmBenchmark.init (Android.answering fun _ => .ok) World.empty =
      (.ok (), (NoOrmBenchmark.init (Android.answering fun _ => .ok) World.empty).2) :=
    Prod.ext (by decide +kernel) rfl
  obtain ⟨history, w, hrun, htest⟩ := Lts.exists_run_of_replay
    (NoOrmBenchmark.init (Android.answering fun _ => .ok) World.empty).2
    (fun w call =>
      match call.prog (Android.answering fun _ => .ok) w with
      | (.dead, _) => none
      | (_, w') => some w')
    [HelperCall.insertInTransaction
        [⟨some "a", some "b", some "c", -1, 5⟩, ⟨some "a", some "", some "1", 2, -6⟩],
      .insertInTransaction [⟨some "p", some "q", some "r", 7, 8⟩, ⟨some "p", none, some "q", 3, 4⟩],
      .findEntity 3, .insert ⟨some "x", some "y", some "z", 0, 0⟩, .close,
      .insert ⟨some "p", some "q", some "r", 7, 8⟩, .findEntity 3]
    (fun history _ => decide (history.length = 7 ∧
      (history.flatMap fun p => p.2.given).length < 2 ^ 63 ∧
      Shelf.after (Android.answering fun _ => .ok) history =
        some ⟨[⟨some "a", some "b", some "c", -1, 5⟩, ⟨some "a", some "", some "1", 2, -6⟩,
          ⟨some "x", some "y", some "z", 0, 0⟩], true⟩)) (by decide +kernel)
  rw [decide_eq_true_iff] at htest
  obtain ⟨hlength, hfew, hafter⟩ := htest
  obtain ⟨shelf, hshelf, _, hreads⟩ := helper_replies_as_shelf hinit hrun hfew
  cases hafter.symm.trans hshelf
  obtain ⟨hall, hone⟩ := hreads fun _ _ => rfl
  exact ⟨_, _, history, w, hinit, hrun, hlength, hall, hone 3⟩

end

end OrmBenchmark.Ref
