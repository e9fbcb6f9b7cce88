import OrmBenchmark.Proofs.Sessions

/-!
# Opening, closing and deleting

What a name leads to before and after. Opening a database does not change what
is stored in it, one that does not exist counting as empty; deleting the name
makes it empty; and an open that throws leaves no handle behind.
-/

namespace OrmBenchmark.Ref

open OrmBenchmark.Lib OrmBenchmark.Lib.Prog

/-- What was committed under a name. -/
def World.content (w : World) (name : String) : Content :=
  match (w.names name).bind w.files with
  | none => ⟨0, none⟩
  | some s => s.committed

/-- No transaction is open on the file. -/
def IdleFile (w : World) (file : Nat) : Prop :=
  ∀ s, w.files file = some s → s.levels = []

/-- … on any file. -/
def AllIdle (w : World) : Prop := ∀ file, IdleFile w file

/-- A handle of the database of this name, on which nothing is open. -/
structure AttachedTo (w : World) (name : String) (db file : Nat) (c : Content) : Prop where
  name : w.names name = some file
  handle : w.handles.lookup db = some file
  held : w.files file = some (.ofCommitted c)

/-- What `onCreate` and the version make of a content, when `P` is what
`onCreate` may make of it. -/
def Created (P : Content → Content → Bool → Prop) (v c : Content) (quiet : Bool) : Prop :=
  (v.version = 0 ∧ ∃ c₀, P v c₀ quiet ∧ c = { c₀ with version := 1 }) ∨
    (v.version ≠ 0 ∧ c = v ∧ quiet = true)

structure OpenedAs (w : World) (name : String) (db file : Nat) (c : Content) (quiet : Bool)
    (w' : World) : Prop where
  attached : AttachedTo w' name db file c
  names : ∀ n, n ≠ name → w'.names n = w.names n
  handles : w'.handles = w.handles.insert db file
  objects : w'.objects = w.objects
  deletions : w'.deletions = w.deletions
  idle : AllIdle w → AllIdle w'
  failures : if quiet then w'.failures = w.failures else w.failures < w'.failures

/-- A handle has just been made, and nothing done through it. -/
structure NewHandle (w : World) (name : String) (db file : Nat) (w' : World) : Prop where
  leads : w'.names name = some file
  idleFile : IdleFile w' file
  names : ∀ n, n ≠ name → w'.names n = w.names n
  content : w'.content name = w.content name
  handles : w'.handles = w.handles.insert db file
  objects : w'.objects = w.objects
  deletions : w'.deletions = w.deletions
  idle : AllIdle w → AllIdle w'
  failures : w'.failures = w.failures

/-- What `Context.deleteDatabase` leaves. -/
structure Deleted (w : World) (name : String) (w' : World) : Prop where
  gone : w'.names name = none
  names : ∀ n, n ≠ name → w'.names n = w.names n
  files : w'.files = w.files
  handles : w'.handles = w.handles
  objects : w'.objects = w.objects
  deletions : w'.deletions = w.deletions ++ [(name, w.isOpen name)]
  failures : w'.failures = w.failures

structure OpenFailed (w : World) (name : String) (w' : World) : Prop where
  names : ∀ n, n ≠ name → w'.names n = w.names n
  content : w'.content name = w.content name
  handles : w.handles = ∅ → w'.handles = ∅
  objects : w'.objects = w.objects
  deletions : w'.deletions = w.deletions
  idle : AllIdle w → AllIdle w'
  failures : w.failures < w'.failures

section

variable {env : Android} {w w₀ w' : World} {name : String} {db file : Nat} {c v : Content}
  {quiet : Bool} {α : Type}

theorem World.stored_eq : w.stored env name = (w.content name).entities env := by
  unfold World.stored World.content
  cases (w.names name).bind w.files <;> rfl

theorem AttachedTo.content (h : AttachedTo w name db file c) : w.content name = c := by
  rw [World.content, h.name, Option.bind_some, h.held]
  rfl

theorem AttachedTo.stored (h : AttachedTo w name db file c) :
    w.stored env name = c.entities env := by
  rw [World.stored_eq, h.content]

theorem AllIdle.restart : AllIdle w.restart := by
  intro file s h
  obtain ⟨s', _, rfl⟩ := Option.map_eq_some_iff.1 h
  rfl

theorem AllIdle.of_files (h : AllIdle w) (hfiles : w'.files = w.files) : AllIdle w' := by
  intro file s hs
  rw [hfiles] at hs
  exact h file s hs

theorem Within.idle {s : TxStore Content} (h : Within w₀ file s quiet w)
    (hall : AllIdle w₀) (hidle : s.levels = []) : AllIdle w := by
  intro g s' hs'
  by_cases hg : g = file
  · subst hg
    rw [h.held] at hs'
    cases hs'
    exact hidle
  · rw [h.others g hg] at hs'
    exact hall g s' hs'

/-- A program that worked through the handle leaves it attached. -/
theorem Within.attached (h : Within w₀ file (.ofCommitted c) quiet w)
    (hatt : AttachedTo w₀ name db file v) : AttachedTo w name db file c :=
  ⟨by rw [h.names, hatt.name], by rw [h.handles, hatt.handle], h.held⟩

/-! ## Rows -/

@[simp]
theorem getString_ofString (value : Option String) :
    (SqlValue.ofString value).getString = value := by
  cases value <;> rfl

@[simp]
theorem store_ofString (value : Option String) :
    env.store .text (.ofString value) = .ofString value := by
  cases value with
  | none => exact env.store_null .text
  | some value => exact env.store_text value

/-- The row the five fields are stored in, with any row id. -/
def Entity.row (id : SqlValue) (entity : Entity) : List SqlValue := id :: entity.values

theorem Entity.ofRow_row (id : SqlValue) (entity : Entity) :
    Entity.ofRow env (entity.row id) = entity := by
  simp [Entity.ofRow, Entity.row, Entity.values, SqlValue.getInt, SqlValue.getLong]

theorem Table.addRow_entities {t : Table} {id : SqlValue} {entity : Entity} :
    (t.addRow (entity.row id)).rows.map (Entity.ofRow env) =
      t.rows.map (Entity.ofRow env) ++ [entity] := by
  rw [Table.addRow, List.map_append, List.map_singleton, Entity.ofRow_row]

theorem Content.entities_eq {t : Table} (h : c.table = some t) :
    c.entities env = t.rows.map (Entity.ofRow env) := by
  rw [Content.entities, h]

/-! ## `onCreate` -/

/-- What `createTable` may make of a content. -/
def TableCreated (columns : List Column) (v c : Content) (quiet : Bool) : Prop :=
  c.table = some (v.table.getD ⟨columns, [], 0⟩) ∧ quiet = true

theorem TableCreated.entities {columns : List Column} (h : TableCreated columns v c quiet) :
    c.entities env = v.entities env := by
  rw [Content.entities, h.1, Content.entities]
  cases v.table with
  | none => rfl
  | some t => rfl

theorem wp_createTable {columns : List Column} {ifNotExists : Bool}
    {s : TxStore Content} (h : Within w₀ file (s.inner v) quiet w)
    (hdb : w₀.handles.lookup db = some file) {Q : Post World Throwable Unit}
    (hok : ∀ c w', TableCreated columns v c true → Within w₀ file (s.inner c) quiet w' →
      Q.ok () w')
    (hthrows : ∀ e w', Within w₀ file (s.inner v) false w' → Q.throws e w')
    (hdead : ∀ w', Q.dead w') : (createTable env ifNotExists columns db).wp Q w := by
  simp only [createTable, wp_bind]
  refine h.wp_call (fun w₁ h₁ _ => ?_) hthrows hdead
  refine h₁.wp_onStore hdb ?_ ?_
  · intro s' w' hs' hw'
    cases htable : v.table with
    | none =>
        rw [show (s.inner v).current.table = none from htable] at hs'
        cases hs'
        exact hok _ w' ⟨by rw [htable]; rfl, rfl⟩ hw'
    | some t =>
        rw [show (s.inner v).current.table = some t from htable] at hs'
        cases ifNotExists with
        | false => cases hs'
        | true =>
            cases hs'
            exact hok v w' ⟨by rw [htable]; rfl, rfl⟩ hw'
  · intro e w' _ hw'
    exact hthrows e w' hw'

/-- The transaction `onCreate` runs in. -/
theorem wp_create {onCreate : Nat → AndroidProg Unit} {P : Content → Content → Bool → Prop}
    (h : Within w₀ file (.ofCommitted v) true w) (hdb : w₀.handles.lookup db = some file)
    (hcreate : ∀ w', Within w₀ file ((TxStore.ofCommitted v).inner v) true w' →
      (onCreate db).wp
        { ok := fun _ w'' => ∃ c quiet', P v c quiet' ∧
            Within w₀ file ((TxStore.ofCommitted v).inner c) quiet' w''
          throws := fun _ w'' => ∃ c,
            Within w₀ file ((TxStore.ofCommitted v).inner c) false w''
          dead := fun _ => True } w')
    {Q : Post World Throwable Unit}
    (hok : ∀ c quiet' w', Created P v c quiet' →
      Within w₀ file (.ofCommitted c) quiet' w' → Q.ok () w')
    (hthrows : ∀ e w', Within w₀ file (.ofCommitted v) false w' → Q.throws e w')
    (hdead : ∀ w', Q.dead w') : (SQLiteOpenHelper.create env onCreate db).wp Q w := by
  simp only [SQLiteOpenHelper.create, wp_bind]
  refine h.wp_getStore hdb ?_
  dsimp only
  split
  · next hversion =>
      rw [wp_bind]
      refine h.wp_beginTransaction hdb (fun w₁ h₁ => ?_) hthrows hdead
      have hbody : (do
          onCreate db
          onStore db fun s => .ok (s.update fun content => { content with version := 1 }) :
          AndroidProg Unit).wp
          { ok := fun _ w'' => ∃ c quiet', Created P v c quiet' ∧
              Within w₀ file ((TxStore.ofCommitted v).inner c) quiet' w''
            throws := fun _ w'' => ∃ c,
              Within w₀ file ((TxStore.ofCommitted v).inner c) false w''
            dead := fun _ => True } w₁ := by
        rw [wp_bind]
        refine wp_mono (hcreate w₁ h₁) ?_ (fun _ _ h => h) (fun _ h => h)
        intro _ w₂ hpost
        obtain ⟨c, quiet', hP, h₂⟩ := hpost
        refine h₂.wp_onStore hdb (fun s' w₃ hs' h₃ => ?_) (fun e w₃ he _ => by cases he)
        cases hs'
        exact ⟨_, quiet', Or.inl ⟨hversion, c, hP, rfl⟩, h₃⟩
      dsimp only
      rw [wp_tryFinally_end]
      have htransaction : Prog.wp _ (beforeEnd env db Q) w₁ :=
        Within.wp_transaction hdb hbody hok hthrows hdead
      rw [Prog.bind_bind] at htransaction
      exact htransaction
  · next hversion => exact hok v true w (Or.inr ⟨hversion, rfl, rfl⟩) h

/-! ## Opening -/

theorem wp_newNumber {Q : Post World Throwable Nat} :
    newNumber.wp Q w ↔ Q.ok w.next { w with next := w.next + 1 } := Iff.rfl

theorem wp_newHandle' {Q : Post World Throwable Nat} :
    (newHandle' file).wp Q w ↔
      Q.ok w.next { w with next := w.next + 1, handles := w.handles.insert w.next file } :=
  Iff.rfl

theorem AllIdle.update (hall : AllIdle w) {s : TxStore Content} (hidle : s.levels = [])
    (hfiles : w'.files = Function.update w.files file (some s)) : AllIdle w' := by
  intro g s' hs'
  rw [hfiles] at hs'
  by_cases hg : g = file
  · subst hg
    rw [Function.update_self] at hs'
    cases hs'
    exact hidle
  · rw [Function.update_of_ne hg] at hs'
    exact hall g s' hs'

theorem wp_openDatabase {Q : Post World Throwable Nat}
    (hidle : ∀ file, w.names name = some file → IdleFile w file)
    (hok : ∀ db file w', NewHandle w name db file w' → Q.ok db w')
    (hthrows : ∀ e w', OpenFailed w name w' → Q.throws e w') (hdead : ∀ w', Q.dead w') :
    (openDatabase env name).wp Q w := by
  simp only [openDatabase, wp_bind]
  refine wp_call (fun _ => ?_) (fun e _ => ?_) (fun _ => hdead _)
  · cases hname : w.names name with
    | some file =>
        simp only [wp_bind, wp_getState, hname, wp_newHandle']
        exact hok _ file _ ⟨hname, hidle file hname, fun _ _ => rfl, rfl, rfl, rfl, rfl, id, rfl⟩
    | none =>
        simp only [wp_bind, wp_getState, hname, wp_newNumber, wp_modifyState, wp_newHandle']
        refine hok _ w.next _ ⟨Function.update_self _ _ _, ?_,
          fun n hn => Function.update_of_ne hn _ _, ?_, rfl, rfl, rfl, ?_, rfl⟩
        · intro s hs
          cases (Function.update_self w.next _ w.files).symm.trans hs
          rfl
        · simp [World.content, hname, TxStore.ofCommitted]
        · exact fun hall => hall.update (TxStore.idle_levels _) rfl
  · exact hthrows e _ ⟨fun _ _ => rfl, rfl, id, rfl, rfl, id, Nat.lt_succ_self _⟩

/-- Closing a handle changes no file that nothing is open on. -/
theorem wp_closeHandle {Q : Post World Throwable Unit}
    (hlookup : w.handles.lookup db = some file) (hidle : IdleFile w file)
    (hQ : ∀ w', w'.names = w.names → w'.handles = w.handles.erase db →
      w'.objects = w.objects → w'.deletions = w.deletions → w'.failures = w.failures →
      w'.files = w.files → Q.ok () w') : (closeHandle db).wp Q w := by
  simp only [closeHandle, wp_modifyState, hlookup]
  refine hQ _ rfl rfl rfl rfl rfl (Function.update_eq_iff.2 ⟨?_, fun _ _ => rfl⟩)
  cases hfile : w.files file with
  | none => rfl
  | some s =>
      rw [Option.map_some, TxStore.abandon, ← TxStore.ofCommitted_of_idle (hidle s hfile)]

theorem World.content_congr (hnames : w'.names = w.names) (hfiles : w'.files = w.files) :
    w'.content name = w.content name := by
  rw [World.content, hnames, hfiles]
  rfl

theorem erase_insert_empty {a b : Nat} :
    ((∅ : AList fun _ : Nat => Nat).insert a b).erase a = ∅ := by
  rw [AList.insert_empty]
  exact AList.ext (List.kerase_cons_eq rfl)

/-- An open that got as far as the handle and failed afterwards. -/
theorem NewHandle.wp_close {w₁ w₂ : World} (hnew : NewHandle w name db file w₁)
    (hnames : w₂.names = w₁.names) (hhandles : w₂.handles = w₁.handles)
    (hobjects : w₂.objects = w₁.objects) (hdeletions : w₂.deletions = w₁.deletions)
    (hidle : AllIdle w₁ → AllIdle w₂) (hidleFile : IdleFile w₂ file)
    (hcontent : w₂.content name = w₁.content name)
    (hfailures : w₁.failures < w₂.failures) {Q : Post World Throwable Unit}
    (hQ : ∀ w', OpenFailed w name w' → Q.ok () w') : (closeHandle db).wp Q w₂ := by
  have hlookup : w₂.handles.lookup db = some file := by
    rw [hhandles, hnew.handles, AList.lookup_insert]
  refine wp_closeHandle hlookup hidleFile ?_
  intro w' hnames' hhandles' hobjects' hdeletions' hfailures' hfiles'
  refine hQ w' ⟨?_, ?_, ?_, ?_, ?_, ?_, ?_⟩
  · intro n hn
    rw [hnames', hnames, hnew.names n hn]
  · rw [World.content_congr hnames' hfiles', hcontent, hnew.content]
  · intro hempty
    rw [hhandles', hhandles, hnew.handles, hempty, erase_insert_empty]
  · rw [hobjects', hobjects, hnew.objects]
  · rw [hdeletions', hdeletions, hnew.deletions]
  · exact fun hall => (hidle (hnew.idle hall)).of_files hfiles'
  · have := hnew.failures
    omega

theorem Deleted.content (h : Deleted w name w') : w'.content name = ⟨0, none⟩ := by
  rw [World.content, h.gone]
  rfl

theorem Deleted.idle (h : Deleted w name w') (hidle : AllIdle w) : AllIdle w' :=
  hidle.of_files h.files

/-- Nothing is left for an open to find in a transaction. -/
theorem Deleted.idleAt (h : Deleted w name w') :
    ∀ file, w'.names name = some file → IdleFile w' file := by
  intro file hfile
  rw [h.gone] at hfile
  cases hfile

theorem wp_deleteDatabase {Q : Post World Throwable Unit}
    (hok : ∀ w', Deleted w name w' → Q.ok () w')
    (hthrows : ∀ e, Q.throws e { w with calls := w.calls + 1, failures := w.failures + 1 })
    (hdead : ∀ w', Q.dead w') : (deleteDatabase env name).wp Q w := by
  simp only [deleteDatabase, wp_bind]
  refine wp_call (fun _ => ?_) (fun e _ => hthrows e) (fun _ => hdead _)
  exact hok _ ⟨Function.update_self _ _ _, fun n hn => Function.update_of_ne hn _ _, rfl, rfl,
    rfl, rfl, rfl⟩

theorem wp_getWritableDatabase {onCreate : Nat → AndroidProg Unit}
    {P : Content → Content → Bool → Prop} {helper : SQLiteOpenHelper}
    {Q : Post World Throwable (Nat × SQLiteOpenHelper)} (hnone : helper.mDatabase = none)
    (hidle : ∀ file, w.names helper.name = some file → IdleFile w file)
    (hcreate : ∀ {w₁ w₂ db file}, w₁.handles.lookup db = some file →
      Within w₁ file ((TxStore.ofCommitted (w.content helper.name)).inner
        (w.content helper.name)) true w₂ →
      (onCreate db).wp
        { ok := fun _ w₃ => ∃ c quiet, P (w.content helper.name) c quiet ∧
            Within w₁ file ((TxStore.ofCommitted (w.content helper.name)).inner c) quiet w₃
          throws := fun _ w₃ => ∃ c,
            Within w₁ file ((TxStore.ofCommitted (w.content helper.name)).inner c) false w₃
          dead := fun _ => True } w₂)
    (hok : ∀ db file c quiet w', Created P (w.content helper.name) c quiet →
      OpenedAs w helper.name db file c quiet w' →
      Q.ok (db, { helper with mDatabase := some db }) w')
    (hthrows : ∀ e w', OpenFailed w helper.name w' → Q.throws e w')
    (hdead : ∀ w', Q.dead w') :
    (helper.getWritableDatabase env onCreate).wp Q w := by
  simp only [SQLiteOpenHelper.getWritableDatabase, hnone, wp_bind]
  refine wp_openDatabase hidle (fun db file w₁ hnew => ?_) hthrows hdead
  have hdb : w₁.handles.lookup db = some file := by rw [hnew.handles, AList.lookup_insert]
  simp only [wp_bind, wp_tryCatch]
  cases hfile : w₁.files file with
  | none =>
      simp only [SQLiteOpenHelper.create, wp_bind, getStore, wp_getState, World.store?, hdb,
        Option.bind_some, hfile, Option.map_none, wp_fail]
      refine hnew.wp_close ?_ ?_ ?_ ?_ ?_ ?_ ?_ ?_ ?_
      · rfl
      · rfl
      · rfl
      · rfl
      · exact id
      · exact hnew.idleFile
      · rfl
      · exact Nat.lt_succ_self _
      · exact fun w' h' => hthrows _ w' h'
  | some s =>
      -- Nothing is open on the file, so it is as it was committed.
      have hs : s = .ofCommitted (w.content helper.name) := by
        rw [← hnew.content, World.content, hnew.leads, Option.bind_some, hfile]
        exact TxStore.ofCommitted_of_idle (hnew.idleFile s hfile)
      rw [hs] at hfile
      refine wp_create (Within.refl hfile) hdb (fun w₂ h₂ => hcreate hdb h₂) ?_ ?_ hdead
      · intro c quiet w₂ hcreated h₂
        refine hok db file c quiet w₂ hcreated ⟨⟨?_, ?_, h₂.held⟩, ?_, ?_, ?_, ?_, ?_, ?_⟩
        · rw [h₂.names, hnew.leads]
        · rw [h₂.handles, hdb]
        · intro n hn
          rw [h₂.names, hnew.names n hn]
        · rw [h₂.handles, hnew.handles]
        · rw [h₂.objects, hnew.objects]
        · rw [h₂.deletions, hnew.deletions]
        · exact fun hall => h₂.idle (hnew.idle hall) rfl
        · rw [← hnew.failures]
          exact h₂.failures
      · intro e w₂ h₂
        simp only [wp_bind]
        refine hnew.wp_close h₂.names h₂.handles h₂.objects h₂.deletions
          (fun hall => h₂.idle hall rfl) ?_ ?_ h₂.failures fun w' h' => hthrows e w' h'
        · intro s' hs'
          rw [h₂.held] at hs'
          cases hs'
          rfl
        · rw [World.content, h₂.names, hnew.leads, Option.bind_some, h₂.held, hnew.content]
          rfl

end

end OrmBenchmark.Ref
