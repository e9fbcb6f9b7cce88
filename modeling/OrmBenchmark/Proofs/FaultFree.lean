import OrmBenchmark.Lib.Returning
import OrmBenchmark.Proofs.OnePass

/-!
# When the device answers every call

The contracts of the adapters say what a call that returns has done. Here every
library call is answered, and the question is whether the adapters' calls return
at all. They would not if a handle led nowhere, if there was no table, if a
table was made twice, if a transaction was ended that nobody began, if a null
was bound. So what is carried along says a little more than in the contracts:
that a database that has a version has its table.
-/

namespace OrmBenchmark.Ref

open OrmBenchmark.Lib OrmBenchmark.Lib.Prog

/-- Every library call returns. -/
def Android.Calm (env : Android) : Prop := ∀ n, env.answer n = .ok

/-- The device from now on, when all goes well. -/
def Android.calm (env : Android) : Android := { env with answer := fun _ => .ok }

/-- A content is whole if `onCreate` has been here before its version was set. -/
def Content.Whole (c : Content) : Prop := c.version ≠ 0 → c.table ≠ none

/-- What the name leads to is there, and whole. -/
def World.Whole (w : World) (name : String) : Prop :=
  ∀ file, w.names name = some file →
    ∃ s, w.files file = some s ∧ s.committed.Whole ∧ s.current.Whole

/-- No text is null. -/
structure Entity.HasTexts (entity : Entity) : Prop where
  field1 : entity.field1 ≠ none
  field2 : entity.field2 ≠ none
  field3 : entity.field3 ≠ none

/-- The contract of an adapter whose library answers every call: it returns. -/
structure Serves (env : Android) (b : Benchmark World)
    (Ready : World → World → List Entity → Prop) : Prop where
  init : ∀ {w}, Between w → w.Whole "activeandroid" → w.Whole env.genericDaoDatabase →
    b.init.wp (.only fun _ w' => Ready w w' (stale env b.getName w)) w
  save : ∀ {w₀ w rows entities}, Ready w₀ w rows → (∀ entity ∈ entities, entity.HasTexts) →
    (b.saveEntitiesInTransaction entities).wp (.only fun _ w' => Ready w₀ w' (rows ++ entities)) w
  clearCache : ∀ {w₀ w rows}, Ready w₀ w rows →
    b.clearCache.wp (.only fun _ w' => Ready w₀ w' rows) w
  load : ∀ {w₀ w rows}, Ready w₀ w rows →
    b.loadEntities.wp (.only fun loaded w' => loaded = some rows ∧ Ready w₀ w' rows) w
  dispose : ∀ {w₀ w rows}, Ready w₀ w rows →
    b.dispose.wp (.only fun _ w' => Between w' ∧ stale env b.getName w' = []) w

section

variable {env : Android} {w w₀ w' : World} {name : String} {db file : Nat} {c v : Content}
  {s : TxStore Content} {t : Table} {quiet : Bool} {slot : Slot} {entities rows : List Entity}
  {missing : Throwable} {α : Type}

theorem Android.calm_calm (env : Android) : env.calm.Calm := fun _ => rfl

theorem Android.Calm.not_fails (hcalm : env.Calm) : ¬ env.Fails w := by
  intro hfails
  obtain ⟨n, _, hn⟩ := hfails
  exact hn (hcalm n)

/-! ## Single calls -/

theorem calm_call {Q : Post World Throwable Unit} (hcalm : env.Calm)
    (hok : Q.ok () { w with calls := w.calls + 1 }) : (call env).wp Q w := by
  refine wp_call (fun _ => hok) (fun e he => ?_) (fun hkill => ?_)
  · rw [hcalm] at he
    cases he
  · rw [hcalm] at hkill
    cases hkill

theorem Within.calm_call {Q : Post World Throwable Unit} (h : Within w₀ file s quiet w)
    (hcalm : env.Calm)
    (hok : ∀ w', Within w₀ file s quiet w' → w'.bindings = w.bindings → Q.ok () w') :
    (call env).wp Q w :=
  h.wp_call_fails hok (fun _ _ hfails _ => absurd hfails hcalm.not_fails)
    (fun _ hfails => absurd hfails hcalm.not_fails)

/-- A table that is there is changed. -/
theorem Within.calm_onTable {Q : Post World Throwable Unit} {f : Table → Table}
    (h : Within w₀ file s quiet w) (hdb : w₀.handles.lookup db = some file)
    (htable : s.current.table = some t)
    (hok : ∀ w', Within w₀ file (s.update fun content => { content with table := some (f t) })
      quiet w' → Q.ok () w') : (onTable db missing f).wp Q w := by
  refine h.wp_onTable hdb (fun t' w' ht' h' => ?_) (fun w' hnone _ => ?_)
  · cases htable.symm.trans ht'
    exact hok w' h'
  · cases htable.symm.trans hnone

theorem Within.calm_getTable {Q : Post World Throwable Table} (h : Within w₀ file s quiet w)
    (hdb : w₀.handles.lookup db = some file) (htable : s.current.table = some t)
    (hok : Q.ok t w) : (getTable db missing).wp Q w := by
  refine h.wp_getTable hdb (fun t' ht' => ?_) (fun w' hnone _ => ?_)
  · cases htable.symm.trans ht'
    exact hok
  · cases htable.symm.trans hnone

/-! ## Transactions -/

theorem Within.calm_beginTransaction {Q : Post World Throwable Unit}
    (h : Within w₀ file s quiet w) (hcalm : env.Calm) (hdb : w₀.handles.lookup db = some file)
    (hok : ∀ w', Within w₀ file (s.inner s.current) quiet w' → Q.ok () w') :
    (beginTransaction env db).wp Q w := by
  simp only [beginTransaction, wp_bind]
  refine h.calm_call hcalm fun w₁ h₁ _ => ?_
  refine h₁.wp_onStore hdb (fun s' w' hs' h' => ?_) (fun e _ he _ => by cases he)
  cases hs'
  exact hok w' h'

/-- What the body of the outermost transaction reached is committed. -/
theorem calm_transaction {Q : Post World Throwable Unit} {body : AndroidProg Unit}
    {P : Content → Prop} (hcalm : env.Calm) (hdb : w₀.handles.lookup db = some file)
    (hbody : body.wp (.only fun _ w' => ∃ c, P c ∧
      Within w₀ file ((TxStore.ofCommitted v).inner c) quiet w') w)
    (hok : ∀ c w', P c → Within w₀ file (.ofCommitted c) quiet w' → Q.ok () w') :
    (do body; setTransactionSuccessful env db : AndroidProg Unit).wp (beforeEnd env db Q) w := by
  rw [wp_bind]
  refine wp_of_only hbody fun _ w₁ hpost => ?_
  obtain ⟨c, hc, h₁⟩ := hpost
  simp only [setTransactionSuccessful, wp_bind]
  refine h₁.calm_call hcalm fun w₂ h₂ _ => ?_
  refine h₂.wp_onStore hdb (fun s' w₃ hs' h₃ => ?_) (fun e _ he _ => by cases he)
  cases hs'
  show (endTransaction env db).wp Q w₃
  simp only [endTransaction, wp_bind, wp_tryCatch]
  have hmarked : Within w₀ file ((TxStore.ofCommitted v).innerMarked c) quiet w₃ := h₃
  refine hmarked.calm_call hcalm fun w₄ h₄ _ => ?_
  exact h₄.wp_finishTransaction hdb TxStore.finish_innerMarked fun w₅ h₅ => hok c w₅ hc h₅

/-- … and the begin may be in the block. -/
theorem Within.calm_bracket {body : AndroidProg Unit} {P : Content → Prop}
    (h : Within w₀ file (.ofCommitted v) quiet w) (hcalm : env.Calm)
    (hdb : w₀.handles.lookup db = some file)
    (hbody : ∀ w₁, Within w₀ file ((TxStore.ofCommitted v).inner v) quiet w₁ →
      body.wp (.only fun _ w' => ∃ c, P c ∧
        Within w₀ file ((TxStore.ofCommitted v).inner c) quiet w') w₁) :
    (tryFinally (do beginTransaction env db; body; setTransactionSuccessful env db)
      (endTransaction env db)).wp
      (.only fun _ w' => ∃ c, P c ∧ Within w₀ file (.ofCommitted c) quiet w') w := by
  rw [wp_tryFinally_end, wp_bind]
  refine h.calm_beginTransaction hcalm hdb fun w₁ h₁ => ?_
  exact calm_transaction hcalm hdb (hbody w₁ h₁) fun c w₂ hc h₂ => ⟨c, hc, h₂⟩

/-! ## Opening -/

theorem Within.calm_createTable {columns : List Column} {ifNotExists : Bool}
    {Q : Post World Throwable Unit} (h : Within w₀ file (s.inner v) quiet w) (hcalm : env.Calm)
    (hdb : w₀.handles.lookup db = some file) (hfree : v.table = none ∨ ifNotExists = true)
    (hok : ∀ c w', TableCreated columns v c true → Within w₀ file (s.inner c) quiet w' →
      Q.ok () w') : (createTable env ifNotExists columns db).wp Q w := by
  simp only [createTable, wp_bind]
  refine h.calm_call hcalm fun w₁ h₁ _ => ?_
  cases htable : v.table with
  | none =>
      refine h₁.wp_onStore hdb (fun s' w' hs' h' => ?_) (fun e w' he _ => ?_)
      · rw [show (s.inner v).current.table = none from htable] at hs'
        cases hs'
        exact hok _ w' ⟨by rw [htable]; rfl, rfl⟩ h'
      · rw [show (s.inner v).current.table = none from htable] at he
        cases he
  | some t =>
      obtain rfl : ifNotExists = true := hfree.resolve_left (by rw [htable]; exact nofun)
      refine h₁.wp_onStore hdb (fun s' w' hs' h' => ?_) (fun e w' he _ => ?_)
      · rw [show (s.inner v).current.table = some t from htable] at hs'
        cases hs'
        exact hok v w' ⟨by rw [htable]; rfl, rfl⟩ h'
      · rw [show (s.inner v).current.table = some t from htable] at he
        cases he

theorem Within.calm_create {onCreate : Nat → AndroidProg Unit}
    {P : Content → Content → Bool → Prop} {Q : Post World Throwable Unit}
    (h : Within w₀ file (.ofCommitted v) true w) (hcalm : env.Calm)
    (hdb : w₀.handles.lookup db = some file)
    (hcreate : v.version = 0 → ∀ w', Within w₀ file ((TxStore.ofCommitted v).inner v) true w' →
      (onCreate db).wp (.only fun _ w'' => ∃ c, P v c true ∧
        Within w₀ file ((TxStore.ofCommitted v).inner c) true w'') w')
    (hok : ∀ c w', Created P v c true → Within w₀ file (.ofCommitted c) true w' → Q.ok () w') :
    (SQLiteOpenHelper.create env onCreate db).wp Q w := by
  simp only [SQLiteOpenHelper.create, wp_bind]
  refine h.wp_getStore hdb ?_
  dsimp only
  split
  · next hversion =>
      rw [wp_bind]
      refine h.calm_beginTransaction hcalm hdb fun w₁ h₁ => ?_
      have hbody : (do
          onCreate db
          onStore db fun s => .ok (s.update fun content => { content with version := 1 }) :
          AndroidProg Unit).wp (.only fun _ w'' => ∃ c, Created P v c true ∧
            Within w₀ file ((TxStore.ofCommitted v).inner c) true w'') w₁ := by
        rw [wp_bind]
        refine wp_of_only (hcreate hversion w₁ h₁) fun _ w₂ hpost => ?_
        obtain ⟨c, hP, h₂⟩ := hpost
        refine h₂.wp_onStore hdb (fun s' w₃ hs' h₃ => ?_) (fun e w₃ he _ => by cases he)
        cases hs'
        exact ⟨_, Or.inl ⟨hversion, c, hP, rfl⟩, h₃⟩
      dsimp only
      rw [wp_tryFinally_end]
      have htransaction : Prog.wp _ (beforeEnd env db Q) w₁ :=
        calm_transaction hcalm hdb hbody fun c w₂ hc h₂ => hok c w₂ hc h₂
      rw [Prog.bind_bind] at htransaction
      exact htransaction
  · next hversion => exact hok v w (Or.inr ⟨hversion, rfl, rfl⟩) h

/-- A name that leads somewhere leads to a file. -/
theorem calm_getWritableDatabase {onCreate : Nat → AndroidProg Unit}
    {P : Content → Content → Bool → Prop} {helper : SQLiteOpenHelper}
    {Q : Post World Throwable (Nat × SQLiteOpenHelper)} (hcalm : env.Calm)
    (hnone : helper.mDatabase = none)
    (hidle : ∀ file, w.names helper.name = some file → IdleFile w file)
    (hexists : ∀ file, w.names helper.name = some file → w.files file ≠ none)
    (hcreate : ∀ {w₁ w₂ db file}, (w.content helper.name).version = 0 →
      w₁.handles.lookup db = some file →
      Within w₁ file ((TxStore.ofCommitted (w.content helper.name)).inner
        (w.content helper.name)) true w₂ →
      (onCreate db).wp (.only fun _ w₃ => ∃ c, P (w.content helper.name) c true ∧
        Within w₁ file ((TxStore.ofCommitted (w.content helper.name)).inner c) true w₃) w₂)
    (hok : ∀ db file c w', Created P (w.content helper.name) c true →
      OpenedAs w helper.name db file c true w' →
      Q.ok (db, { helper with mDatabase := some db }) w') :
    (helper.getWritableDatabase env onCreate).wp Q w := by
  have hopen : (openDatabase env helper.name).wp (.only fun db w' => ∃ file,
      NewHandle w helper.name db file w' ∧
        w'.files file = some (.ofCommitted (w.content helper.name))) w := by
    simp only [openDatabase, wp_bind]
    refine calm_call hcalm ?_
    cases hname : w.names helper.name with
    | some file =>
        simp only [wp_bind, wp_getState, hname, wp_newHandle']
        refine ⟨file, ⟨hname, hidle file hname, fun _ _ => rfl, rfl, rfl, rfl, rfl, id, rfl⟩, ?_⟩
        obtain ⟨s, hs⟩ := Option.ne_none_iff_exists'.1 (hexists file hname)
        show w.files file = some (.ofCommitted (w.content helper.name))
        rw [World.content, hname, Option.bind_some, hs]
        exact congrArg some (TxStore.ofCommitted_of_idle (hidle file hname s hs))
    | none =>
        simp only [wp_bind, wp_getState, hname, wp_newNumber, wp_modifyState, wp_newHandle']
        have hcontent : w.content helper.name = ⟨0, none⟩ := by
          rw [World.content, hname]
          rfl
        refine ⟨w.next, ⟨Function.update_self _ _ _, ?_, fun n hn => Function.update_of_ne hn _ _,
          ?_, rfl, rfl, rfl, ?_, rfl⟩, ?_⟩
        · intro s hs
          cases (Function.update_self w.next _ w.files).symm.trans hs
          rfl
        · simp [World.content, hname, TxStore.ofCommitted]
        · exact fun hall => hall.update (TxStore.idle_levels _) rfl
        · rw [hcontent]
          exact Function.update_self w.next _ w.files
  simp only [SQLiteOpenHelper.getWritableDatabase, hnone, wp_bind]
  refine wp_of_only hopen fun db w₁ hpost => ?_
  obtain ⟨file, hnew, hheld⟩ := hpost
  have hdb : w₁.handles.lookup db = some file := by rw [hnew.handles, AList.lookup_insert]
  simp only [wp_bind, wp_tryCatch]
  refine (Within.refl hheld).calm_create hcalm hdb
    (fun hversion w₂ h₂ => hcreate hversion hdb h₂) fun c w₂ hcreated h₂ => ?_
  refine hok db file c w₂ hcreated ⟨⟨?_, ?_, h₂.held⟩, ?_, ?_, ?_, ?_, ?_, ?_⟩
  · rw [h₂.names, hnew.leads]
  · rw [h₂.handles, hdb]
  · intro n hn
    rw [h₂.names, hnew.names n hn]
  · rw [h₂.handles, hnew.handles]
  · rw [h₂.objects, hnew.objects]
  · rw [h₂.deletions, hnew.deletions]
  · exact fun hall => h₂.idle (hnew.idle hall) rfl
  · exact (Eq.trans h₂.failures hnew.failures)

theorem calm_deleteDatabase {Q : Post World Throwable Unit} (hcalm : env.Calm)
    (hok : ∀ w', Deleted w name w' → Q.ok () w') : (deleteDatabase env name).wp Q w := by
  simp only [deleteDatabase, wp_bind]
  refine calm_call hcalm ?_
  exact hok _ ⟨Function.update_self _ _ _, fun n hn => Function.update_of_ne hn _ _, rfl, rfl,
    rfl, rfl, rfl⟩

/-! ## A slot -/

theorem OpenedAs.slotReady (h : OpenedAs w name db file c quiet w') (hidle : AllIdle w) :
    SlotReady slot name w { w' with objects := slot.set (some db) w'.objects } db file c := by
  refine ⟨⟨h.attached.name, h.attached.handle, h.attached.held⟩, ?_, h.idle hidle, h.handles⟩
  show slot.set (some db) w'.objects = _
  rw [h.objects]

theorem Created.whole {columns : List Column} (h : Created (TableCreated columns) v c quiet)
    (hv : v.Whole) : c.table ≠ none := by
  rcases h with ⟨_, c₀, hc₀, rfl⟩ | ⟨hversion, rfl, _⟩
  · show c₀.table ≠ none
    rw [hc₀.1]
    exact Option.some_ne_none _
  · exact hv hversion

theorem Created.entities_eq {columns : List Column} (h : Created (TableCreated columns) v c quiet) :
    c.entities env = v.entities env := by
  rcases h with ⟨_, c₀, hc₀, rfl⟩ | ⟨_, rfl, _⟩
  · exact hc₀.entities
  · rfl

theorem World.Whole.exists_file (h : w.Whole name) :
    ∀ file, w.names name = some file → w.files file ≠ none := by
  intro file hfile
  obtain ⟨s, hs, _⟩ := h file hfile
  rw [hs]
  exact Option.some_ne_none s

theorem World.Whole.content (h : w.Whole name) : (w.content name).Whole := by
  unfold World.content
  cases hname : w.names name with
  | none => exact fun hversion => absurd rfl hversion
  | some file =>
      obtain ⟨s, hs, hcommitted, _⟩ := h file hname
      rw [Option.bind_some, hs]
      exact hcommitted

/-- A name that was deleted leads nowhere. -/
theorem Deleted.whole (h : Deleted w name w') : w'.Whole name := by
  intro file hfile
  cases h.gone.symm.trans hfile

theorem calm_open' (hcalm : env.Calm) (hidle : AllIdle w) (hwhole : w.Whole name) :
    (slot.open' env name).wp (.only fun _ w' => ∃ db file c,
      SlotReady slot name w w' db file c ∧ c.table ≠ none ∧
        c.entities env = w.stored env name) w := by
  simp only [Slot.open', wp_bind]
  refine calm_getWritableDatabase (P := TableCreated entityColumns) hcalm rfl
    (fun file _ => hidle file) hwhole.exists_file ?_ ?_
  · intro w₁ w₂ db file _ hdb h₂
    exact h₂.calm_createTable hcalm hdb (Or.inr rfl) fun c w₃ hc h₃ => ⟨c, hc, h₃⟩
  · intro db file c w₁ hcreated h₁
    refine ⟨db, file, c, h₁.slotReady hidle, hcreated.whole hwhole.content, ?_⟩
    rw [World.stored_eq]
    exact hcreated.entities_eq

/-- The rows of a table are a list of entities, and a save appends to it. -/
theorem Within.calm_saveAll {Q : Post World Throwable Unit} (h : Within w₀ file s quiet w)
    (hcalm : env.Calm) (hdb : w₀.handles.lookup db = some file)
    (htable : s.current.table ≠ none)
    (hok : ∀ (f : Content → Content) w', (f s.current).table ≠ none →
      (f s.current).entities env = s.current.entities env ++ entities →
      Within w₀ file (s.update f) quiet w' → Q.ok () w') :
    (saveAll env db missing entities).wp Q w := by
  obtain ⟨t, ht⟩ := Option.ne_none_iff_exists'.1 htable
  simp only [saveAll, wp_bind]
  refine h.calm_call hcalm fun w₁ h₁ _ => ?_
  refine h₁.calm_onTable hdb ht fun w₂ h₂ => hok _ w₂ (Option.some_ne_none _) ?_ h₂
  rw [Content.entities_eq ht, Content.entities_eq rfl, rows_foldl_addEntity]

theorem Within.calm_loadAll {Q : Post World Throwable (List Entity)}
    (h : Within w₀ file s quiet w) (hcalm : env.Calm) (hdb : w₀.handles.lookup db = some file)
    (htable : s.current.table ≠ none)
    (hok : ∀ w', Within w₀ file s quiet w' → Q.ok (s.current.entities env) w') :
    (loadAll env db missing).wp Q w := by
  obtain ⟨t, ht⟩ := Option.ne_none_iff_exists'.1 htable
  simp only [loadAll, wp_bind]
  refine h.calm_call hcalm fun w₁ h₁ _ => ?_
  simp only [wp_bind]
  refine h₁.calm_getTable hdb ht ?_
  have hloaded := hok w₁ h₁
  rw [Content.entities_eq ht] at hloaded
  exact hloaded

theorem Within.calm_saveModels {Q : Post World Throwable Unit} (h : Within w₀ file s quiet w)
    (hcalm : env.Calm) (hget : slot.get w₀.objects = some db)
    (hdb : w₀.handles.lookup db = some file) (htable : s.current.table ≠ none)
    (hok : ∀ (f : Content → Content) w', (f s.current).table ≠ none →
      (f s.current).entities env = s.current.entities env ++ entities →
      Within w₀ file (s.update f) quiet w' → Q.ok () w') :
    (saveModels env slot entities).wp Q w := by
  simp only [saveModels, wp_bind]
  refine wp_slotDb (by rw [h.objects, hget]) ?_
  exact h.calm_saveAll hcalm hdb htable hok

/-- Entities inserted one after the other, each of a kind that can be. -/
theorem Within.calm_insertEach {v : TxStore Content} {insert : Entity → AndroidProg Unit}
    {Good : Content → Prop} {Fits : Entity → Prop}
    (hinsert : ∀ {c e w}, Good c → Fits e → Within w₀ file (v.inner c) quiet w →
      (insert e).wp (.only fun _ w' => ∃ c', Good c' ∧
        c'.entities env = c.entities env ++ [e] ∧ Within w₀ file (v.inner c') quiet w') w)
    (hc : Good c) (hfits : ∀ e ∈ entities, Fits e) (h : Within w₀ file (v.inner c) quiet w) :
    (forEach insert entities).wp (.only fun _ w' => ∃ c', (Good c' ∧
      c'.entities env = c.entities env ++ entities) ∧ Within w₀ file (v.inner c') quiet w') w := by
  -- What is still to come are the entities after those inserted so far.
  let I := fun rest w => ∃ c' before, entities = before ++ rest ∧ Good c' ∧
    c'.entities env = c.entities env ++ before ∧ Within w₀ file (v.inner c') quiet w
  refine wp_forEach (I := I) ?_ ?_ ⟨c, [], rfl, hc, by rw [List.append_nil], h⟩
  · intro e rest w₁ hI
    obtain ⟨c₁, before, hsplit, hgood, hentities, h₁⟩ := hI
    have hfits' : Fits e := hfits e (by rw [hsplit]; simp)
    refine wp_of_only (hinsert hgood hfits' h₁) fun _ w₂ hpost => ?_
    obtain ⟨c₂, hgood₂, hentities₂, h₂⟩ := hpost
    refine ⟨c₂, before ++ [e], ?_, hgood₂, ?_, h₂⟩
    · rw [hsplit, List.append_assoc]
      rfl
    · rw [hentities₂, hentities, List.append_assoc]
  · intro w₁ hI
    obtain ⟨c₁, before, hsplit, hgood, hentities, h₁⟩ := hI
    rw [List.append_nil] at hsplit
    subst hsplit
    exact ⟨c₁, ⟨hgood, hentities⟩, h₁⟩

/-! ## The adapters with a slot -/

theorem slot_serves {b : Benchmark World} {Good : Content → Prop}
    (hinit : ∀ {w}, Between w → w.Whole "activeandroid" → w.Whole env.genericDaoDatabase →
      b.init.wp (.only fun _ w' => ∃ db file c, SlotReady slot name w w' db file c ∧ Good c ∧
        c.entities env = stale env b.getName w) w)
    (hsave : ∀ {w₀ w db file c entities}, SlotReady slot name w₀ w db file c → Good c →
      (b.saveEntitiesInTransaction entities).wp (.only fun _ w' => ∃ c', (Good c' ∧
        c'.entities env = c.entities env ++ entities) ∧
        Within w file (.ofCommitted c') true w') w)
    (hclear : ∀ {w₀ w db file c}, SlotReady slot name w₀ w db file c →
      b.clearCache.wp (.only fun _ w' => Within w file (.ofCommitted c) true w') w)
    (hload : ∀ {w₀ w db file c}, SlotReady slot name w₀ w db file c → Good c →
      b.loadEntities.wp (.only fun loaded w' => loaded = some (c.entities env) ∧
        Within w file (.ofCommitted c) true w') w)
    (hdispose : ∀ {w₀ w db file c}, w₀.objects.Closed → SlotReady slot name w₀ w db file c →
      b.dispose.wp (.only fun _ w' => Between w' ∧ stale env b.getName w' = []) w) :
    Serves env b (SlotPass env slot name Good) where
  init hbetween hactive hgeneric :=
    wp_of_only (hinit hbetween hactive hgeneric) fun _ w' h => ⟨hbetween.closed, h⟩
  save := by
    intro w₀ w _ entities hpass _
    obtain ⟨hclosed, db, file, c, hready, hgood, rfl⟩ := hpass
    refine wp_of_only (hsave hready hgood) fun _ w' hpost => ?_
    obtain ⟨c', ⟨hgood', hentities⟩, h'⟩ := hpost
    exact ⟨hclosed, db, file, c', hready.within h', hgood', hentities⟩
  clearCache := by
    intro w₀ w _ hpass
    obtain ⟨hclosed, db, file, c, hready, hgood, rfl⟩ := hpass
    refine wp_of_only (hclear hready) fun _ w' h' => ?_
    exact ⟨hclosed, db, file, c, hready.within h', hgood, rfl⟩
  load := by
    intro w₀ w _ hpass
    obtain ⟨hclosed, db, file, c, hready, hgood, rfl⟩ := hpass
    refine wp_of_only (hload hready hgood) fun loaded w' hpost => ?_
    exact ⟨hpost.1, hclosed, db, file, c, hready.within hpost.2, hgood, rfl⟩
  dispose := by
    intro w₀ w _ hpass
    obtain ⟨hclosed, db, file, c, hready, _, _⟩ := hpass
    exact hdispose hclosed hready

def HasTable (c : Content) : Prop := c.table ≠ none

theorem SlotReady.calm_call (h : SlotReady slot name w₀ w db file c) (hcalm : env.Calm) :
    (call env).wp (.only fun _ w' => Within w file (.ofCommitted c) true w') w :=
  (Within.refl h.attached.held).calm_call hcalm fun _ h' _ => h'

theorem SlotReady.calm_saveModels (h : SlotReady slot name w₀ w db file c) (hcalm : env.Calm)
    (hslot : slot.Lawful) (htable : HasTable c) :
    (saveModels env slot entities).wp (.only fun _ w' => ∃ c', (HasTable c' ∧
      c'.entities env = c.entities env ++ entities) ∧
      Within w file (.ofCommitted c') true w') w :=
  (Within.refl h.attached.held).calm_saveModels hcalm (h.get hslot) h.attached.handle htable
    fun f _ hf hentities h' => ⟨f c, ⟨hf, hentities⟩, h'⟩

theorem SlotReady.calm_select (h : SlotReady slot name w₀ w db file c) (hcalm : env.Calm)
    (hslot : slot.Lawful) (htable : HasTable c) :
    (select env slot).wp (.only fun loaded w' => loaded = some (c.entities env) ∧
      Within w file (.ofCommitted c) true w') w := by
  simp only [select, wp_bind]
  refine wp_slotDb (h.get hslot) ?_
  simp only [wp_bind]
  exact (Within.refl h.attached.held).calm_loadAll hcalm h.attached.handle htable
    fun w' h' => ⟨rfl, h'⟩

theorem SlotReady.calm_saveInTransaction {P : Content → Prop}
    (h : SlotReady slot name w₀ w db file c) (hcalm : env.Calm) (hslot : slot.Lawful)
    {save : AndroidProg Unit} (hkeeps : ∀ d, Preserves (AtDepth w.objects db d) save)
    (hsave : ∀ w₁, Within w file ((TxStore.ofCommitted c).inner c) true w₁ →
      save.wp (.only fun _ w' => ∃ c', P c' ∧
        Within w file ((TxStore.ofCommitted c).inner c') true w') w₁) :
    (saveInTransaction env slot save).wp (.only fun _ w' => ∃ c', P c' ∧
      Within w file (.ofCommitted c') true w') w := by
  have hdepth : w.depth db = some 0 := by
    rw [World.depth, (Within.refl h.attached.held).store? h.attached.handle]
    rfl
  rw [wp_congr (saveInTransaction_eq (h.get hslot) hdepth (preserves_exists hkeeps))]
  exact (Within.refl h.attached.held).calm_bracket hcalm h.attached.handle hsave

/-- Closing returns, and the contract says what it does. -/
theorem SlotReady.calm_close (h : SlotReady slot name w₀ w db file c) (hcalm : env.Calm)
    (hslot : slot.Lawful) (hclosed : w₀.objects.Closed) :
    (slot.close env).wp (.only fun _ w' => Between w') w := by
  refine wp_only_of_returns (Q := .returning fun _ w' => Between w')
    (h.wp_close hslot hclosed (fun _ h' => h') (fun _ _ => True.intro) fun _ => True.intro) ?_
  simp only [Slot.close, wp_bind, wp_getState, h.get hslot]
  refine Ref.calm_call hcalm ?_
  dsimp only
  rw [wp_bind]
  exact wp_closeHandle h.attached.handle (h.idle file) fun _ _ _ _ _ _ _ => True.intro

theorem SlotReady.calm_closeAndDelete (h : SlotReady slot name w₀ w db file c)
    (hcalm : env.Calm) (hslot : slot.Lawful) (hclosed : w₀.objects.Closed) :
    (do slot.close env; deleteDatabase env name).wp
      (.only fun _ w' => Between w' ∧ w'.stored env name = []) w := by
  simp only [wp_bind]
  refine wp_of_only (h.calm_close hcalm hslot hclosed) fun _ w₁ h₁ => ?_
  exact calm_deleteDatabase hcalm fun w₂ h₂ => ⟨h₂.between h₁, h₂.stored⟩

/-- The name is deleted first, so what is opened under it is new. -/
theorem calm_deleteAndOpen {m : AndroidProg Unit} (hcalm : env.Calm) (hbetween : Between w)
    (hm : ∀ w₁, Deleted w name w₁ → Between w₁ → m.wp (.only fun _ w' => ∃ db file c,
      SlotReady slot name w₁ w' db file c ∧ c.table ≠ none ∧
        c.entities env = w₁.stored env name) w₁) :
    (do deleteDatabase env name; m).wp (.only fun _ w' => ∃ db file c,
      SlotReady slot name w w' db file c ∧ HasTable c ∧ c.entities env = []) w := by
  simp only [wp_bind]
  refine calm_deleteDatabase hcalm fun w₁ h₁ => ?_
  refine wp_of_only (hm w₁ h₁ (h₁.between hbetween)) fun _ w₂ hpost => ?_
  obtain ⟨db, file, c, hready, htable, hentities⟩ := hpost
  rw [h₁.stored] at hentities
  exact ⟨db, file, c, hready.of_start h₁.objects h₁.handles, htable, hentities⟩

theorem calm_initializeLibrary (hcalm : env.Calm) (hidle : AllIdle w) (hwhole : w.Whole name)
    (hnone : slot.get w.objects = none) :
    (initializeLibrary env slot name).wp (.only fun _ w' => ∃ db file c,
      SlotReady slot name w w' db file c ∧ c.table ≠ none ∧
        c.entities env = w.stored env name) w := by
  simp only [initializeLibrary, wp_bind, wp_getState, hnone]
  exact calm_open' hcalm hidle hwhole

theorem Within.calm_saveEach {v : TxStore Content} (h : Within w₀ file (v.inner c) quiet w)
    (hcalm : env.Calm) (hget : slot.get w₀.objects = some db)
    (hdb : w₀.handles.lookup db = some file) (htable : HasTable c) :
    (forEach (fun entity => saveModels env slot [entity]) entities).wp (.only fun _ w' =>
      ∃ c', (HasTable c' ∧ c'.entities env = c.entities env ++ entities) ∧
        Within w₀ file (v.inner c') quiet w') w := by
  have hsave : ∀ {c e w}, HasTable c → True → Within w₀ file (v.inner c) quiet w →
      (saveModels env slot [e]).wp (.only fun _ w' => ∃ c', HasTable c' ∧
        c'.entities env = c.entities env ++ [e] ∧ Within w₀ file (v.inner c') quiet w') w := by
    intro c e w htable' _ h'
    exact h'.calm_saveModels hcalm hget hdb htable' fun f _ hf hentities h'' =>
      ⟨f c, hf, hentities, h''⟩
  exact Within.calm_insertEach hsave htable (fun _ _ => True.intro) h

theorem activeAndroid_serves (hcalm : env.Calm) :
    Serves env (activeAndroidBenchmark env)
      (SlotPass env ActiveAndroidBenchmark.slot "activeandroid" HasTable) := by
  have hslot := activeAndroid_lawful
  refine slot_serves ?_ ?_ (fun hready => hready.calm_call hcalm)
    (fun hready htable => hready.calm_select hcalm hslot htable) ?_
  · intro w hbetween hactive _
    exact calm_initializeLibrary hcalm hbetween.idle hactive hbetween.closed.activeAndroid
  · intro w₀ w db file c entities hready htable
    refine hready.calm_saveInTransaction hcalm hslot
      (fun d => preserves_forEach (fun entity => preserves_saveModels) entities) ?_
    exact fun w₁ h₁ => h₁.calm_saveEach hcalm (hready.get hslot) hready.attached.handle htable
  · intro w₀ w db file c hclosed hready
    exact hready.calm_closeAndDelete hcalm hslot hclosed

theorem activeAndroidSebbia_serves (hcalm : env.Calm) :
    Serves env (activeAndroidSebbiaBenchmark env)
      (SlotPass env ActiveAndroidSebbiaBenchmark.slot "activeandroid_sebbia" HasTable) := by
  have hslot := activeAndroidSebbia_lawful
  refine slot_serves ?_ ?_ (fun hready => hready.calm_call hcalm)
    (fun hready htable => hready.calm_select hcalm hslot htable) ?_
  · intro w hbetween _ _
    refine calm_deleteAndOpen hcalm hbetween fun w₁ hdeleted h₁ => ?_
    exact calm_initializeLibrary hcalm h₁.idle hdeleted.whole h₁.closed.activeAndroidSebbia
  · intro w₀ w db file c entities hready htable
    refine hready.calm_saveInTransaction hcalm hslot (fun d => preserves_saveModels)
      fun w₁ h₁ => ?_
    exact h₁.calm_saveModels hcalm (hready.get hslot) hready.attached.handle htable
      fun f _ hf hentities h' => ⟨f c, ⟨hf, hentities⟩, h'⟩
  · intro w₀ w db file c hclosed hready
    exact wp_of_only (hready.calm_closeAndDelete hcalm hslot hclosed) fun _ _ h => ⟨h.1, rfl⟩

theorem sugar_serves (hcalm : env.Calm) :
    Serves env (sugarOrmBenchmark env)
      (SlotPass env SugarOrmBenchmark.slot "sugarorm.db" HasTable) := by
  have hslot := sugar_lawful
  refine slot_serves ?_ (fun hready htable => hready.calm_saveModels hcalm hslot htable)
    (fun hready => hready.calm_call hcalm)
    (fun hready htable => hready.calm_select hcalm hslot htable) ?_
  · intro w hbetween _ _
    exact calm_deleteAndOpen hcalm hbetween fun w₁ hdeleted h₁ =>
      calm_open' hcalm h₁.idle hdeleted.whole
  · intro w₀ w db file c hclosed hready
    exact wp_of_only (hready.calm_close hcalm hslot hclosed) fun _ _ h => ⟨h, rfl⟩

theorem genericDao_serves (hcalm : env.Calm) :
    Serves env (genericDaoBenchmark env)
      (SlotPass env GenericDaoBenchmark.slot env.genericDaoDatabase HasTable) := by
  have hslot := genericDao_lawful
  refine slot_serves ?_ (fun hready htable => hready.calm_saveModels hcalm hslot htable) ?_
    (fun hready htable => hready.calm_select hcalm hslot htable) ?_
  · intro w hbetween _ hwhole
    simp only [genericDaoBenchmark, GenericDaoBenchmark.init, wp_bind]
    refine calm_call hcalm ?_
    dsimp only
    rw [wp_bind]
    refine wp_of_only (calm_open' (w := { w with calls := w.calls + 1 }) hcalm hbetween.idle
      hwhole) fun _ w₁ hpost => ?_
    obtain ⟨db, file, c, hready, htable, _⟩ := hpost
    obtain ⟨t, ht⟩ := Option.ne_none_iff_exists'.1 htable
    simp only [wp_bind]
    refine wp_slotDb (hready.get hslot) ?_
    simp only [wp_bind]
    refine (Within.refl hready.attached.held).calm_call hcalm fun w₂ h₂ _ => ?_
    refine h₂.calm_onTable hready.attached.handle ht fun w₃ h₃ => ?_
    rw [TxStore.update_ofCommitted] at h₃
    exact ⟨db, file, _, (hready.within h₃).of_start rfl rfl, Option.some_ne_none _, rfl⟩
  · intro w₀ w db file c hready
    exact Within.refl hready.attached.held
  · intro w₀ w db file c hclosed hready
    refine ⟨⟨hready.idle, ?_⟩, rfl⟩
    rw [hready.objects]
    exact ⟨hclosed.activeAndroid, hclosed.activeAndroidSebbia, hclosed.ormLite⟩

/-! ## `greendao` -/

theorem greenDao_serves (hcalm : env.Calm) :
    Serves env (greenDaoBenchmark env)
      (SlotPass env GreenDaoBenchmark.slot "greendao" fun c => HasTable c ∧ GreenDaoTable c) := by
  have hslot := greenDao_lawful
  refine slot_serves ?_ ?_ ?_ ?_ ?_
  · intro w hbetween _ _
    simp only [greenDaoBenchmark, GreenDaoBenchmark.init, wp_bind]
    refine calm_deleteDatabase hcalm fun w₁ h₁ => ?_
    simp only [wp_bind]
    refine calm_getWritableDatabase (P := TableCreated GreenDaoEntityDao.columns) hcalm rfl
      h₁.idleAt h₁.whole.exists_file ?_ ?_
    · intro w₂ w₃ db file _ hdb h₃
      refine h₃.calm_createTable hcalm hdb (Or.inl ?_) fun c w₄ hc h₄ => ⟨c, hc, h₄⟩
      rw [h₁.content]
    · intro db file c w₂ hcreated h₂
      rw [show (SQLiteOpenHelper.mk "greendao" none).name = "greendao" from rfl, h₁.content]
        at hcreated
      obtain ⟨_, c₀, hc₀, rfl⟩ := hcreated.resolve_right fun h => h.1 rfl
      have htable : c₀.table = some ⟨GreenDaoEntityDao.columns, [], 0⟩ := hc₀.1
      simp only [wp_bind]
      refine calm_call hcalm ?_
      refine ⟨db, file, { c₀ with version := 1 }, ?_, ⟨?_, ?_⟩, ?_⟩
      · have hready : SlotReady GreenDaoBenchmark.slot "greendao" w _ db file _ :=
          (h₂.slotReady (h₁.idle hbetween.idle)).of_start h₁.objects h₁.handles
        exact hready.within (Within.refl hready.attached.held).count
      · exact fun hnone => Option.some_ne_none _ (htable.symm.trans hnone)
      · intro t ht
        cases htable.symm.trans ht
        rfl
      · show Content.entities env _ = []
        simp only [Content.entities, htable, List.map_nil]
  · intro w₀ w db file c entities hready hgood
    obtain ⟨t, ht⟩ := Option.ne_none_iff_exists'.1 hgood.1
    obtain ⟨hcolumns, hrows⟩ := rows_foldl_greenDao env entities (hgood.2 t ht)
    simp only [greenDaoBenchmark, GreenDaoBenchmark.saveEntitiesInTransaction,
      GreenDaoEntityDao.insertInTx, wp_bind]
    refine wp_slotDb (hready.get hslot) ?_
    simp only [wp_bind]
    refine (Within.refl hready.attached.held).calm_call hcalm fun w₁ h₁ _ => ?_
    refine h₁.calm_onTable hready.attached.handle ht fun w₂ h₂ => ?_
    rw [TxStore.update_ofCommitted] at h₂
    refine ⟨_, ⟨⟨?_, ?_⟩, ?_⟩, h₂⟩
    · exact Option.some_ne_none _
    · intro t' ht'
      cases ht'
      exact hcolumns
    · rw [Content.entities_eq rfl, hrows, Content.entities_eq (c := c) ht]
  · intro w₀ w db file c hready
    simp only [greenDaoBenchmark, GreenDaoBenchmark.clear, wp_bind]
    exact wp_slotDb (hready.get hslot) (hready.calm_call hcalm)
  · intro w₀ w db file c hready hgood
    obtain ⟨t, ht⟩ := Option.ne_none_iff_exists'.1 hgood.1
    simp only [greenDaoBenchmark, GreenDaoBenchmark.loadEntities, GreenDaoEntityDao.loadAll,
      wp_bind]
    refine wp_slotDb (hready.get hslot) ?_
    simp only [wp_bind]
    refine (Within.refl hready.attached.held).calm_call hcalm fun w₁ h₁ _ => ?_
    simp only [wp_bind]
    refine h₁.calm_getTable hready.attached.handle ht ⟨?_, h₁⟩
    rw [Content.entities_eq (c := c) ht]
    rfl
  · intro w₀ w db file c hclosed hready
    simp only [greenDaoBenchmark, GreenDaoBenchmark.clear, wp_bind]
    refine wp_slotDb (hready.get hslot) ?_
    refine wp_of_only (hready.calm_call hcalm) fun _ w' h' => ⟨⟨h'.idle hready.idle rfl, ?_⟩, rfl⟩
    rw [h'.objects, hready.objects]
    exact ⟨hclosed.activeAndroid, hclosed.activeAndroidSebbia, hclosed.ormLite⟩

/-! ## `noorm` -/

theorem Within.calm_bindLong {Q : Post World Throwable Unit} {index : Nat} {value : Int64}
    (h : Within w₀ file s quiet w) (hcalm : env.Calm)
    (hok : ∀ w', Within w₀ file s quiet w' → Q.ok () w') : (bindLong env index value).wp Q w := by
  simp only [bindLong, wp_bind]
  exact h.calm_call hcalm fun w' h' _ => hok _ (h'.bind _)

theorem Within.calm_bindString {Q : Post World Throwable Unit} {index : Nat}
    {value : Option String} (h : Within w₀ file s quiet w) (hcalm : env.Calm)
    (hvalue : value ≠ none) (hok : ∀ w', Within w₀ file s quiet w' → Q.ok () w') :
    (bindString env index value).wp Q w := by
  obtain ⟨text, rfl⟩ := Option.ne_none_iff_exists'.1 hvalue
  simp only [bindString, wp_bind]
  exact h.calm_call hcalm fun w' h' _ => hok _ (h'.bind _)

/-- An insert of an entity with all its texts returns. -/
theorem Within.calm_insert {v : TxStore Content} {entity : Entity} {helper : NoOrmSQLiteHelper}
    (h : Within w₀ file (v.inner c) quiet w) (hcalm : env.Calm)
    (hdb : w₀.handles.lookup db = some file) (hhelper : w₀.objects.sqLiteHelper = some helper)
    (hstatement : helper.insertStatement = ⟨db, NoOrmSQLiteHelper.insertColumns⟩)
    (hc : ∃ t, NoOrmTable c t) (htexts : entity.HasTexts) :
    (NoOrmSQLiteHelper.insert env entity).wp (.only fun _ _ => True) w := by
  obtain ⟨t, ht⟩ := hc
  simp only [NoOrmSQLiteHelper.insert, clearBindings, NoOrmEntity.bindToStatement, wp_bind]
  refine h.calm_call hcalm fun w₁ h₁ _ => ?_
  simp only [wp_modifyState, wp_bind]
  refine (h₁.bind ∅).calm_bindString hcalm htexts.field1 fun w₂ h₂ => ?_
  simp only [wp_bind]
  refine h₂.calm_bindString hcalm htexts.field2 fun w₃ h₃ => ?_
  simp only [wp_bind]
  refine h₃.calm_bindString hcalm htexts.field3 fun w₄ h₄ => ?_
  simp only [wp_bind]
  refine h₄.calm_bindLong hcalm fun w₅ h₅ => ?_
  refine h₅.calm_bindLong hcalm fun w₆ h₆ => ?_
  simp only [wp_bind]
  refine wp_sqLiteHelper (h₆.objects ▸ hhelper) ?_
  simp only [executeInsert, wp_bind, hstatement]
  refine h₆.calm_call hcalm fun w₇ h₇ _ => ?_
  simp only [wp_bind, wp_getState]
  exact h₇.calm_onTable hdb ht.held fun _ _ => True.intro

theorem NoOrmReady.calm_insertInTransaction (hready : NoOrmReady w db file c) (hcalm : env.Calm)
    (htexts : ∀ entity ∈ entities, entity.HasTexts) :
    (NoOrmSQLiteHelper.insertInTransaction env entities).wp (.only fun _ _ => True) w := by
  have hdb := hready.attached.handle
  simp only [NoOrmSQLiteHelper.insertInTransaction, beginTransactionNonExclusive, ite_self,
    wp_bind]
  refine wp_noOrm_getWritableDatabase hready.helper rfl ?_
  refine wp_of_only ((Within.refl hready.attached.held).calm_bracket (P := fun c' =>
    (∃ t, NoOrmTable c' t) ∧ c'.entities env = c.entities env ++ entities) hcalm hdb
      fun w₁ h₁ => ?_) fun _ _ _ => True.intro
  refine Within.calm_insertEach (fun hc htexts' h => ?_) hready.table htexts h₁
  exact wp_only_of_returns (wp_insert hdb hready.helper rfl hc h)
    (h.calm_insert hcalm hdb hready.helper rfl hc htexts')

theorem calm_noOrm_init (hcalm : env.Calm) :
    (NoOrmBenchmark.init env).wp (.only fun _ _ => True) w := by
  simp only [NoOrmBenchmark.init, wp_bind]
  refine calm_deleteDatabase hcalm fun w₁ h₁ => ?_
  simp only [NoOrmSQLiteHelper.new, wp_bind]
  refine calm_getWritableDatabase (P := TableCreated NoOrmSQLiteHelper.columns) hcalm rfl
    h₁.idleAt h₁.whole.exists_file ?_ ?_
  · intro w₂ w₃ db file _ hdb h₃
    exact h₃.calm_createTable hcalm hdb (Or.inr rfl) fun c w₄ hc h₄ => ⟨c, hc, h₄⟩
  · intro db file c w₂ _ _
    simp only [wp_bind]
    exact calm_call hcalm True.intro

theorem NoOrmPass.calm_dispose (h : NoOrmPass env w₀ w db file c) (hcalm : env.Calm) :
    (NoOrmBenchmark.dispose env).wp (.only fun _ _ => True) w := by
  simp only [NoOrmBenchmark.dispose, wp_bind]
  refine wp_sqLiteHelper h.ready.helper ?_
  simp only [SQLiteOpenHelper.close, wp_bind]
  refine calm_call hcalm ?_
  dsimp only
  rw [wp_bind]
  exact wp_closeHandle h.ready.attached.handle (h.between.idle file)
    fun _ _ _ _ _ _ _ => True.intro

/-- What the calls do is in the contract already; that they return is not. -/
theorem noOrm_serves (hcalm : env.Calm) :
    Serves env (noOrmBenchmark env) (fun w₀ w rows => ∃ db file c,
      NoOrmPass env w₀ w db file c ∧ c.entities env = rows) where
  init hbetween _ _ := wp_only_of_returns (noOrm_passes.init hbetween) (calm_noOrm_init hcalm)
  save := by
    intro w₀ w rows entities hpass htexts
    obtain ⟨db, file, c, hready, _⟩ := id hpass
    refine wp_of_only (wp_only_of_returns (noOrm_passes.save hpass)
      (hready.ready.calm_insertInTransaction hcalm htexts)) fun _ w' hwent => ?_
    rcases hwent with ⟨_, hready'⟩ | ⟨hfalse, _⟩
    · exact hready'
    · exact hfalse.elim
  clearCache := fun hready => hready
  load := by
    intro w₀ w rows hpass
    obtain ⟨db, file, c, hready, _⟩ := id hpass
    have hreturns : (noOrmBenchmark env).loadEntities.wp (.only fun _ _ => True) w := by
      simp only [noOrmBenchmark, NoOrmBenchmark.loadEntities, wp_bind]
      exact wp_mono (wp_getAllEntities hready.ready) (fun _ _ _ => True.intro)
        (fun _ _ h => absurd h.1 hcalm.not_fails) (fun _ h => absurd h hcalm.not_fails)
    refine wp_of_only (wp_only_of_returns (noOrm_passes.load hpass) hreturns)
      fun loaded w' hpost => ?_
    obtain ⟨hready', ⟨_, hloaded⟩ | ⟨hfalse, _⟩⟩ := hpost
    · exact ⟨hloaded, hready'⟩
    · exact hfalse.elim
  dispose := by
    intro w₀ w rows hpass
    obtain ⟨db, file, c, hready, _⟩ := id hpass
    exact wp_of_only (wp_only_of_returns (noOrm_passes.dispose hpass) (hready.calm_dispose hcalm))
      fun _ w' hbetween => ⟨hbetween, rfl⟩

/-! ## `ormlite` -/

/-- Nothing has gone wrong so far: a database that was opened has its table. -/
def OrmLiteServed (env : Android) (w₀ w : World) (rows : List Entity) : Prop :=
  w₀.objects.Closed ∧ (OrmLiteUnopened w₀ w ∧ w.names "ormlite" = none ∧ rows = [] ∨
    ∃ db file c, OrmLiteOpened w₀ w db file c ∧ HasTable c ∧ c.entities env = rows)

theorem OrmLiteServed.pass (h : OrmLiteServed env w₀ w rows) : OrmLitePass env w₀ w rows := by
  obtain ⟨hclosed, ⟨hunopened, _, hrows⟩ | ⟨db, file, c, hopened, _, hrows⟩⟩ := h
  · exact ⟨hclosed, Or.inl ⟨hunopened, hrows⟩⟩
  · exact ⟨hclosed, Or.inr ⟨db, file, c, hopened, hrows⟩⟩

theorem OrmLiteServed.untouched (h : OrmLiteServed env w₀ w rows) (hw : Untouched w w') :
    OrmLiteServed env w₀ w' rows := by
  obtain ⟨hclosed, ⟨hunopened, hgone, hrows⟩ | ⟨db, file, c, hopened, htable, hrows⟩⟩ := h
  · refine ⟨hclosed, Or.inl ⟨⟨hunopened.toOrmLiteHelper.untouched hw, ?_, ?_⟩, ?_, hrows⟩⟩
    · rw [World.content_congr hw.names hw.files, hunopened.content]
    · intro hempty
      rw [hw.handles, hunopened.handles hempty]
    · rw [hw.names, hgone]
  · exact ⟨hclosed, Or.inr ⟨db, file, c, hopened.untouched hw, htable, hrows⟩⟩

theorem calm_call_untouched {Q : Post World Throwable Unit} (hcalm : env.Calm)
    (hok : ∀ w', Untouched w w' → Q.ok () w') : (call env).wp Q w :=
  calm_call hcalm (hok _ ⟨rfl, rfl, rfl, rfl, rfl⟩)

theorem calm_getDao {Q : Post World Throwable (Option Unit)} (hcalm : env.Calm)
    (hok : ∀ w', Untouched w w' → Q.ok (some ()) w') : (DatabaseHelper.getDao env).wp Q w := by
  simp only [DatabaseHelper.getDao, catchSQLException, wp_tryCatch, wp_bind]
  refine calm_call_untouched hcalm fun w₁ h₁ => ?_
  simp only [wp_bind]
  exact calm_call_untouched hcalm fun w₂ h₂ => hok w₂ (h₁.trans h₂)

/-- The first connection creates the table, the later ones find it. -/
theorem OrmLiteServed.calm_getConnection {Q : Post World Throwable Nat}
    (h : OrmLiteServed env w₀ w rows) (hcalm : env.Calm)
    (hok : ∀ db file c w', OrmLiteOpened w₀ w' db file c → HasTable c →
      c.entities env = rows → Q.ok db w') : (DatabaseHelper.getConnection env).wp Q w := by
  obtain ⟨helper, hhelper⟩ := h.pass.helper
  simp only [DatabaseHelper.getConnection, wp_bind]
  refine wp_getInstance hhelper ?_
  simp only [wp_bind]
  refine calm_call_untouched hcalm fun w₁ h₁ => ?_
  have hpass := h.untouched h₁
  dsimp only
  rw [wp_bind]
  rcases hpass with ⟨_, ⟨hunopened, hgone, rfl⟩ | ⟨db, file, c, hopened, htable, hrows⟩⟩
  · have hname : helper = ⟨"ormlite", none⟩ := by
      rw [← h₁.objects, hunopened.objects] at hhelper
      exact (Option.some.inj hhelper).symm
    subst hname
    refine calm_getWritableDatabase (P := TableCreated entityColumns) hcalm rfl
      (fun file _ => hunopened.idle file) ?_ ?_ ?_
    · intro file hfile
      cases hgone.symm.trans hfile
    · intro w₂ w₃ db file _ hdb h₃
      simp only [DatabaseHelper.onCreate, catchSQLException, wp_tryCatch]
      refine h₃.calm_createTable hcalm hdb (Or.inl ?_) fun c w₄ hc h₄ => ⟨c, hc, h₄⟩
      rw [show (SQLiteOpenHelper.mk "ormlite" none).name = "ormlite" from rfl,
        hunopened.content]
    · intro db file c w₂ hcreated h₂
      rw [show (SQLiteOpenHelper.mk "ormlite" none).name = "ormlite" from rfl,
        hunopened.content] at hcreated
      refine hok db file c _ (hunopened.opened h₂) ?_ ?_
      · exact hcreated.whole fun hversion => absurd rfl hversion
      · exact hcreated.entities_eq
  · have hname : helper = ⟨"ormlite", some db⟩ := by
      rw [← h₁.objects, hopened.objects] at hhelper
      exact (Option.some.inj hhelper).symm
    subst hname
    simp only [SQLiteOpenHelper.getWritableDatabase, wp_pure, wp_bind]
    refine hok db file c _ ?_ htable hrows
    refine hopened.untouched ⟨rfl, rfl, rfl, ?_, rfl⟩
    show { w₁.objects with ormLite := some ⟨"ormlite", some db⟩ } = w₁.objects
    rw [hopened.objects]

theorem OrmLiteServed.calm_save (h : OrmLiteServed env w₀ w rows) (hcalm : env.Calm) :
    (OrmLiteBenchmark.saveEntitiesInTransaction env entities).wp
      (.only fun _ w' => OrmLiteServed env w₀ w' (rows ++ entities)) w := by
  obtain ⟨helper, hhelper⟩ := h.pass.helper
  have hclosed := h.1
  simp only [OrmLiteBenchmark.saveEntitiesInTransaction, wp_bind]
  refine wp_getInstance hhelper ?_
  simp only [wp_bind]
  refine calm_getDao hcalm fun w₁ h₁ => ?_
  simp only [catchException, wp_tryCatch, OrmLiteBenchmark.callInTransaction, wp_bind]
  refine (h.untouched h₁).calm_getConnection hcalm fun db file c w₂ hopened htable hrows => ?_
  have hdb := hopened.attached.handle
  dsimp only
  rw [wp_bind]
  refine (Within.refl hopened.attached.held).calm_beginTransaction hcalm hdb fun w₃ h₃ => ?_
  have hcreate : ∀ {c' e w'}, HasTable c' → True →
      Within w₂ file ((TxStore.ofCommitted c).inner c') true w' →
      (OrmLiteBenchmark.createIfNotExists env (some ()) db e).wp (.only fun _ w'' =>
        ∃ c'', HasTable c'' ∧ c''.entities env = c'.entities env ++ [e] ∧
          Within w₂ file ((TxStore.ofCommitted c).inner c'') true w'') w' := by
    intro c' e w' htable' _ h'
    exact h'.calm_saveAll hcalm hdb htable' fun f _ hf hentities h'' =>
      ⟨f c', hf, hentities, h''⟩
  dsimp only
  rw [wp_tryFinally_end]
  refine calm_transaction hcalm hdb
    (Within.calm_insertEach hcreate htable (fun _ _ => True.intro) h₃) fun c' w₄ hreached h₄ => ?_
  obtain ⟨htable', hentities⟩ := hreached
  exact ⟨hclosed, Or.inr ⟨db, file, c', hopened.within h₄, htable', by rw [hentities, hrows]⟩⟩

theorem OrmLiteServed.calm_load (h : OrmLiteServed env w₀ w rows) (hcalm : env.Calm) :
    (OrmLiteBenchmark.loadEntities env).wp
      (.only fun loaded w' => loaded = some rows ∧ OrmLiteServed env w₀ w' rows) w := by
  obtain ⟨helper, hhelper⟩ := h.pass.helper
  have hclosed := h.1
  simp only [OrmLiteBenchmark.loadEntities, wp_bind]
  refine wp_getInstance hhelper ?_
  simp only [wp_bind]
  refine calm_getDao hcalm fun w₁ h₁ => ?_
  simp only [catchSQLException, wp_tryCatch, OrmLiteBenchmark.queryForAll, wp_bind]
  refine (h.untouched h₁).calm_getConnection hcalm fun db file c w₂ hopened htable hrows => ?_
  refine (Within.refl hopened.attached.held).calm_loadAll hcalm hopened.attached.handle htable
    fun w₃ h₃ => ⟨congrArg some hrows, hclosed, ?_⟩
  exact Or.inr ⟨db, file, c, hopened.within h₃, htable, hrows⟩

theorem ormLite_serves (hcalm : env.Calm) :
    Serves env (ormLiteBenchmark env) (OrmLiteServed env) where
  init := by
    intro w hbetween _ _
    simp only [ormLiteBenchmark, OrmLiteBenchmark.init, wp_bind]
    refine calm_deleteDatabase hcalm fun w₁ h₁ => ?_
    have hnone : w₁.objects.ormLite = none := by rw [h₁.objects, hbetween.closed.ormLite]
    simp only [DatabaseHelper.getInstance, wp_bind, wp_getState, hnone]
    refine calm_call_untouched hcalm fun w₂ h₂ => ?_
    have hidle : AllIdle w₂ := (h₁.idle hbetween.idle).of_files h₂.files
    refine ⟨hbetween.closed, Or.inl ⟨⟨⟨hidle, ?_, ?_⟩, ?_, ?_⟩, ?_, rfl⟩⟩
    · show { w₂.objects with ormLite := some ⟨"ormlite", none⟩ } = _
      rw [h₂.objects, h₁.objects]
    · show w₂.deletions = _
      rw [h₂.deletions, h₁.deletions]
    · exact (World.content_congr (w := w₁) h₂.names h₂.files).trans h₁.content
    · intro hempty
      show w₂.handles = ∅
      rw [h₂.handles, h₁.handles, hempty]
    · show w₂.names "ormlite" = none
      rw [h₂.names, h₁.gone]
  save h _ := h.calm_save hcalm
  clearCache := by
    intro w₀ w rows h
    obtain ⟨helper, hhelper⟩ := h.pass.helper
    simp only [ormLiteBenchmark, OrmLiteBenchmark.clearCache, wp_bind]
    refine wp_getInstance hhelper ?_
    simp only [wp_bind]
    refine calm_getDao hcalm fun w₁ h₁ => ?_
    exact calm_call_untouched hcalm fun w₂ h₂ => h.untouched (h₁.trans h₂)
  load h := h.calm_load hcalm
  dispose := by
    intro w₀ w rows h
    have hreturns : (DatabaseHelper.dispose env).wp (.only fun _ _ => True) w := by
      obtain ⟨_, ⟨hunopened, _⟩ | ⟨db, file, c, hopened, _⟩⟩ := h
      · have hhelper : w.objects.ormLite = some ⟨"ormlite", none⟩ := by rw [hunopened.objects]
        simp only [DatabaseHelper.dispose, wp_bind, wp_getState, hhelper,
          SQLiteOpenHelper.close, wp_pure]
        exact True.intro
      · have hhelper : w.objects.ormLite = some ⟨"ormlite", some db⟩ := by rw [hopened.objects]
        simp only [DatabaseHelper.dispose, wp_bind, wp_getState, hhelper, SQLiteOpenHelper.close]
        refine calm_call_untouched hcalm fun w₁ h₁ => ?_
        have hopened₁ := hopened.untouched h₁
        dsimp only
        rw [wp_bind]
        exact wp_closeHandle hopened₁.attached.handle (hopened₁.idle file)
          fun _ _ _ _ _ _ _ => True.intro
    exact wp_of_only (wp_only_of_returns (ormLite_passes.dispose h.pass) hreturns)
      fun _ w' hbetween => ⟨hbetween, rfl⟩

end

end OrmBenchmark.Ref
