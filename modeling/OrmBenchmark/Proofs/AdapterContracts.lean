import OrmBenchmark.Proofs.TransactionBracket

/-!
# What the adapters promise

Seven adapters, one contract. `Between` is what a pass finds: no transaction is
open on any file, and no library that would not open its database again has it
open. From there to the end of the pass an adapter is `Ready` with the entities
it has stored by now, and each call that returns moves them on.

A call went well if no library call it made threw. Six of the adapters let no
failure pass, so a call of theirs that returns went well; what the seventh does
is in a module of its own.
-/

namespace OrmBenchmark.Ref

open OrmBenchmark.Lib OrmBenchmark.Lib.Prog

/-! ## The contract -/

structure Objects.Closed (objects : Objects) : Prop where
  activeAndroid : objects.activeAndroid = .none
  activeAndroidSebbia : objects.activeAndroidSebbia = .none
  ormLite : objects.ormLite = .none

structure Between (w : World) : Prop where
  idle : AllIdle w
  closed : w.objects.Closed

/-- A call that returned went well, or its adapter swallows exceptions. -/
def Went (swallows : Prop) (w w' : World) (well ill : Prop) : Prop :=
  (w'.failures = w.failures ∧ well) ∨ (swallows ∧ w.failures < w'.failures ∧ ill)

/-- The database an adapter works on. -/
def database (env : Android) (benchmark : String) : String :=
  if benchmark = "SQLiteOpenHelper" then "no_orm"
  else if benchmark = "Green Dao" then "greendao"
  else if benchmark = "ORMLite" then "ormlite"
  else if benchmark = "ActiveAndroid" then "activeandroid"
  else if benchmark = "ActiveAndroid.Sebbia" then "activeandroid_sebbia"
  else if benchmark = "Sugar ORM" then "sugarorm.db"
  else env.genericDaoDatabase

/-- `Ready w₀ w rows`: in a pass that found `w₀`, with these entities stored.
`initial` is what an adapter has stored after `init`. -/
structure Passes (env : Android) (b : Benchmark World) (initial : World → List Entity)
    (swallows : Prop) (Ready : World → World → List Entity → Prop) : Prop where
  init : ∀ {w}, Between w →
    b.init.wp (.returning fun _ w' => Ready w w' (initial w)) w
  save : ∀ {w₀ w rows entities}, Ready w₀ w rows →
    (b.saveEntitiesInTransaction entities).wp (.returning fun _ w' =>
      Went swallows w w' (Ready w₀ w' (rows ++ entities)) (Ready w₀ w' rows)) w
  clearCache : ∀ {w₀ w rows}, Ready w₀ w rows →
    b.clearCache.wp (.returning fun _ w' => w'.failures = w.failures ∧ Ready w₀ w' rows) w
  load : ∀ {w₀ w rows}, Ready w₀ w rows →
    b.loadEntities.wp (.returning fun loaded w' => Ready w₀ w' rows ∧
      Went swallows w w' (loaded = some rows) (loaded = none)) w
  dispose : ∀ {w₀ w rows}, Ready w₀ w rows → b.dispose.wp (.returning fun _ w' => Between w') w
  stored : ∀ {w₀ w rows}, Ready w₀ w rows → w.stored env (database env b.getName) = rows

theorem Between.restart {w : World} : Between w.restart :=
  ⟨AllIdle.restart, ⟨rfl, rfl, rfl⟩⟩

theorem Between.empty : Between World.empty := by
  refine ⟨?_, ⟨rfl, rfl, rfl⟩⟩
  intro file s hs
  cases hs

/-! ## Working in one slot -/

/-- The slot holds a handle of the database, opened since the pass began. -/
structure SlotReady (slot : Slot) (name : String) (w₀ w : World) (db file : Nat)
    (c : Content) : Prop where
  attached : AttachedTo w name db file c
  objects : w.objects = slot.set (some db) w₀.objects
  idle : AllIdle w
  handles : w.handles = w₀.handles.insert db file

/-- What is asked of `get` and `set`. -/
structure Slot.Lawful (slot : Slot) : Prop where
  get_set : ∀ db objects, slot.get (slot.set db objects) = db
  closed : ∀ db {objects : Objects}, objects.Closed →
    (slot.set none (slot.set db objects)).Closed

section

variable {env : Android} {slot : Slot} {name : String} {w₀ w w' : World} {db file : Nat}
  {c : Content} {s : TxStore Content} {quiet : Bool} {entities : List Entity}
  {missing : Throwable}

theorem greenDao_lawful : GreenDaoBenchmark.slot.Lawful :=
  ⟨fun _ _ => rfl, fun _ _ h => ⟨h.activeAndroid, h.activeAndroidSebbia, h.ormLite⟩⟩

theorem activeAndroid_lawful : ActiveAndroidBenchmark.slot.Lawful :=
  ⟨fun _ _ => rfl, fun _ _ h => ⟨rfl, h.activeAndroidSebbia, h.ormLite⟩⟩

theorem activeAndroidSebbia_lawful : ActiveAndroidSebbiaBenchmark.slot.Lawful :=
  ⟨fun _ _ => rfl, fun _ _ h => ⟨h.activeAndroid, rfl, h.ormLite⟩⟩

theorem sugar_lawful : SugarOrmBenchmark.slot.Lawful :=
  ⟨fun _ _ => rfl, fun _ _ h => ⟨h.activeAndroid, h.activeAndroidSebbia, h.ormLite⟩⟩

theorem genericDao_lawful : GenericDaoBenchmark.slot.Lawful :=
  ⟨fun _ _ => rfl, fun _ _ h => ⟨h.activeAndroid, h.activeAndroidSebbia, h.ormLite⟩⟩

theorem SlotReady.within {c' : Content} (h : SlotReady slot name w₀ w db file c)
    (hw : Within w file (.ofCommitted c') quiet w') :
    SlotReady slot name w₀ w' db file c' :=
  ⟨hw.attached h.attached, by rw [hw.objects, h.objects], hw.idle h.idle rfl,
    by rw [hw.handles, h.handles]⟩

/-- A pass that began with something else done to no handle and no object. -/
theorem SlotReady.of_start {w₁ : World} (h : SlotReady slot name w₁ w db file c)
    (hobjects : w₁.objects = w₀.objects) (hhandles : w₁.handles = w₀.handles) :
    SlotReady slot name w₀ w db file c :=
  ⟨h.attached, by rw [h.objects, hobjects], h.idle, by rw [h.handles, hhandles]⟩

theorem SlotReady.get (h : SlotReady slot name w₀ w db file c) (hslot : slot.Lawful) :
    slot.get w.objects = some db := by
  rw [h.objects, hslot.get_set]

theorem wp_slotDb {Q : Post World Throwable Nat} (h : slot.get w.objects = some db)
    (hok : Q.ok db w) : slot.db.wp Q w := by
  simp only [Slot.db, wp_bind, wp_getState, h]
  exact hok

theorem wp_open' (hidle : AllIdle w) :
    (slot.open' env name).wp (.returning fun _ w' => ∃ db file c,
      SlotReady slot name w w' db file c ∧ c.entities env = w.stored env name) w := by
  simp only [Slot.open', wp_bind]
  refine wp_getWritableDatabase (P := TableCreated entityColumns) rfl (fun file _ => hidle file)
    ?_ ?_ (fun _ _ _ => True.intro) (fun _ => True.intro)
  · intro w₁ w₂ db file hdb h₂
    exact wp_createTable h₂ hdb (fun c w₃ hc h₃ => ⟨c, true, hc, h₃⟩) (fun e w₃ h₃ => ⟨_, h₃⟩)
      (fun _ => True.intro)
  · intro db file c quiet w₁ hcreated h₁
    refine ⟨db, file, c, ⟨⟨h₁.attached.name, h₁.attached.handle, h₁.attached.held⟩, ?_,
      h₁.idle hidle, h₁.handles⟩, ?_⟩
    · show slot.set (some db) w₁.objects = _
      rw [h₁.objects]
    · rw [World.stored_eq]
      rcases hcreated with ⟨_, c₀, hc₀, rfl⟩ | ⟨_, rfl, _⟩
      · exact hc₀.entities
      · rfl

/-- Closing what the slot holds changes no file. -/
theorem SlotReady.wp_close {Q : Post World Throwable Unit} (h : SlotReady slot name w₀ w db file c)
    (hslot : slot.Lawful) (hclosed : w₀.objects.Closed) (hok : ∀ w', Between w' → Q.ok () w')
    (hthrows : ∀ e w', Q.throws e w') (hdead : ∀ w', Q.dead w') :
    (slot.close env).wp Q w := by
  simp only [Slot.close, wp_bind, wp_getState, h.get hslot]
  refine wp_call (fun _ => ?_) (fun e _ => hthrows e _) (fun _ => hdead _)
  dsimp only
  rw [wp_bind]
  refine wp_closeHandle h.attached.handle (h.idle file) ?_
  intro w₁ _ _ hobjects _ _ hfiles
  refine hok _ ⟨h.idle.of_files hfiles, ?_⟩
  show (slot.set none w₁.objects).Closed
  rw [hobjects]
  show (slot.set none w.objects).Closed
  rw [h.objects]
  exact hslot.closed _ hclosed

/-! ## Saves and loads of a library -/

theorem rows_foldl_addEntity (t : Table) (entities : List Entity) :
    (entities.foldl Table.addEntity t).rows.map (Entity.ofRow env) =
      t.rows.map (Entity.ofRow env) ++ entities := by
  induction entities generalizing t with
  | nil => exact (List.append_nil _).symm
  | cons entity rest ih =>
      rw [List.foldl_cons, ih, Table.addEntity]
      show ((t.addRow (entity.row _)).rows.map (Entity.ofRow env)) ++ rest = _
      rw [Table.addRow_entities, List.append_assoc]
      rfl

theorem Within.wp_saveAll {Q : Post World Throwable Unit} (h : Within w₀ file s quiet w)
    (hdb : w₀.handles.lookup db = some file)
    (hok : ∀ (f : Content → Content) w', s.current.table ≠ none →
      (f s.current).entities env = s.current.entities env ++ entities →
      Within w₀ file (s.update f) quiet w' → Q.ok () w')
    (hthrows : ∀ e w', Within w₀ file s false w' → Q.throws e w')
    (hdead : ∀ w', Q.dead w') : (saveAll env db missing entities).wp Q w := by
  simp only [saveAll, wp_bind]
  refine h.wp_call (fun w₁ h₁ _ => ?_) hthrows hdead
  refine h₁.wp_onTable hdb (fun t w₂ htable h₂ => hok _ w₂ ?_ ?_ h₂)
    (fun w₂ _ h₂ => hthrows _ w₂ h₂)
  · rw [htable]
    exact Option.some_ne_none t
  · rw [Content.entities_eq htable, Content.entities_eq rfl, rows_foldl_addEntity]

theorem Within.wp_loadAll {Q : Post World Throwable (List Entity)}
    (h : Within w₀ file s quiet w) (hdb : w₀.handles.lookup db = some file)
    (hok : ∀ w', s.current.table ≠ none → Within w₀ file s quiet w' →
      Q.ok (s.current.entities env) w')
    (hthrows : ∀ e w', Within w₀ file s false w' → Q.throws e w')
    (hdead : ∀ w', Q.dead w') : (loadAll env db missing).wp Q w := by
  simp only [loadAll, wp_bind]
  refine h.wp_call (fun w₁ h₁ _ => ?_) hthrows hdead
  simp only [wp_bind]
  refine h₁.wp_getTable hdb (fun t htable => ?_) (fun w₂ _ h₂ => hthrows _ w₂ h₂)
  have hloaded := hok w₁ (by rw [htable]; exact Option.some_ne_none t) h₁
  rw [Content.entities_eq htable] at hloaded
  exact hloaded

/-- `Model.save` and its like, in a transaction or outside one. -/
theorem Within.wp_saveModels {Q : Post World Throwable Unit} (h : Within w₀ file s quiet w)
    (hget : slot.get w₀.objects = some db) (hdb : w₀.handles.lookup db = some file)
    (hok : ∀ (f : Content → Content) w',
      (f s.current).entities env = s.current.entities env ++ entities →
      Within w₀ file (s.update f) quiet w' → Q.ok () w')
    (hthrows : ∀ e w', Within w₀ file s false w' → Q.throws e w')
    (hdead : ∀ w', Q.dead w') : (saveModels env slot entities).wp Q w := by
  simp only [saveModels, wp_bind]
  refine wp_slotDb (by rw [h.objects, hget]) ?_
  exact h.wp_saveAll hdb (fun f w' _ => hok f w') hthrows hdead

theorem SlotReady.wp_saveModels (h : SlotReady slot name w₀ w db file c)
    (hslot : slot.Lawful) :
    (saveModels env slot entities).wp (.returning fun _ w' => ∃ c',
      c'.entities env = c.entities env ++ entities ∧
        Within w file (.ofCommitted c') true w') w :=
  (Within.refl h.attached.held).wp_saveModels (h.get hslot) h.attached.handle
    (fun f _ hf h' => ⟨f c, hf, h'⟩) (fun _ _ _ => True.intro) (fun _ => True.intro)

theorem SlotReady.wp_select (h : SlotReady slot name w₀ w db file c) (hslot : slot.Lawful) :
    (select env slot).wp (.returning fun loaded w' =>
      loaded = some (c.entities env) ∧ Within w file (.ofCommitted c) true w') w := by
  simp only [select, wp_bind]
  refine wp_slotDb (h.get hslot) ?_
  simp only [wp_bind]
  exact (Within.refl h.attached.held).wp_loadAll h.attached.handle
    (fun w' _ h' => ⟨rfl, h'⟩) (fun _ _ _ => True.intro) (fun _ => True.intro)

/-! ## The contract of an adapter with a slot -/

def SlotPass (env : Android) (slot : Slot) (name : String) (Good : Content → Prop)
    (w₀ w : World) (rows : List Entity) : Prop :=
  w₀.objects.Closed ∧ ∃ db file c, SlotReady slot name w₀ w db file c ∧ Good c ∧
    c.entities env = rows

theorem slot_passes {b : Benchmark World} {initial : World → List Entity}
    {Good : Content → Prop} (hname : database env b.getName = name)
    (hinit : ∀ {w}, Between w → b.init.wp (.returning fun _ w' => ∃ db file c,
      SlotReady slot name w w' db file c ∧ Good c ∧ c.entities env = initial w) w)
    (hsave : ∀ {w₀ w db file c entities}, SlotReady slot name w₀ w db file c → Good c →
      (b.saveEntitiesInTransaction entities).wp (.returning fun _ w' => ∃ c', Good c' ∧
        c'.entities env = c.entities env ++ entities ∧
        Within w file (.ofCommitted c') true w') w)
    (hclear : ∀ {w₀ w db file c}, SlotReady slot name w₀ w db file c →
      b.clearCache.wp (.returning fun _ w' => Within w file (.ofCommitted c) true w') w)
    (hload : ∀ {w₀ w db file c}, SlotReady slot name w₀ w db file c → Good c →
      b.loadEntities.wp (.returning fun loaded w' => loaded = some (c.entities env) ∧
        Within w file (.ofCommitted c) true w') w)
    (hdispose : ∀ {w₀ w db file c}, w₀.objects.Closed →
      SlotReady slot name w₀ w db file c → b.dispose.wp (.returning fun _ w' => Between w') w) :
    Passes env b initial False (SlotPass env slot name Good) where
  init hbetween := by
    refine wp_returning_mono (hinit hbetween) ?_
    exact fun _ w' h => ⟨hbetween.closed, h⟩
  save := by
    intro w₀ w _ entities hpass
    obtain ⟨hclosed, db, file, c, hready, hgood, rfl⟩ := hpass
    refine wp_returning_mono (hsave hready hgood) ?_
    intro _ w' hpost
    obtain ⟨c', hgood', hentities, h'⟩ := hpost
    exact Or.inl ⟨h'.failures, hclosed, db, file, c', hready.within h', hgood', hentities⟩
  clearCache := by
    intro w₀ w _ hpass
    obtain ⟨hclosed, db, file, c, hready, hgood, rfl⟩ := hpass
    refine wp_returning_mono (hclear hready) ?_
    intro _ w' h'
    exact ⟨h'.failures, hclosed, db, file, c, hready.within h', hgood, rfl⟩
  load := by
    intro w₀ w _ hpass
    obtain ⟨hclosed, db, file, c, hready, hgood, rfl⟩ := hpass
    refine wp_returning_mono (hload hready hgood) ?_
    intro loaded w' hpost
    obtain ⟨rfl, h'⟩ := hpost
    exact ⟨⟨hclosed, db, file, c, hready.within h', hgood, rfl⟩, Or.inl ⟨h'.failures, rfl⟩⟩
  dispose := by
    intro w₀ w _ hpass
    obtain ⟨hclosed, db, file, c, hready, _, _⟩ := hpass
    exact hdispose hclosed hready
  stored := by
    intro w₀ w _ hpass
    obtain ⟨_, db, file, c, hready, _, rfl⟩ := hpass
    rw [hname, hready.attached.stored]

theorem SlotReady.wp_call (h : SlotReady slot name w₀ w db file c) :
    (call env).wp (.returning fun _ w' => Within w file (.ofCommitted c) true w') w :=
  (Within.refl h.attached.held).wp_call (fun _ h' _ => h') (fun _ _ _ => True.intro)
    (fun _ => True.intro)

theorem Deleted.stored (h : Deleted w name w') : w'.stored env name = [] := by
  rw [World.stored_eq, h.content]
  rfl

theorem Deleted.between (h : Deleted w name w') (hbetween : Between w) : Between w' :=
  ⟨h.idle hbetween.idle, by rw [h.objects]; exact hbetween.closed⟩

/-- The contract of those that leave the layout of the table to their library. -/
theorem library_passes {b : Benchmark World} {initial : World → List Entity}
    (hslot : slot.Lawful) (hname : database env b.getName = name)
    (hinit : ∀ {w}, Between w → b.init.wp (.returning fun _ w' => ∃ db file c,
      SlotReady slot name w w' db file c ∧ c.entities env = initial w) w)
    (hsave : ∀ {w₀ w db file c entities}, SlotReady slot name w₀ w db file c →
      (b.saveEntitiesInTransaction entities).wp (.returning fun _ w' => ∃ c',
        c'.entities env = c.entities env ++ entities ∧
        Within w file (.ofCommitted c') true w') w)
    (hclear : ∀ {w₀ w db file c}, SlotReady slot name w₀ w db file c →
      b.clearCache.wp (.returning fun _ w' => Within w file (.ofCommitted c) true w') w)
    (hload : b.loadEntities = select env slot)
    (hdispose : ∀ {w₀ w db file c}, w₀.objects.Closed →
      SlotReady slot name w₀ w db file c → b.dispose.wp (.returning fun _ w' => Between w') w) :
    Passes env b initial False (SlotPass env slot name fun _ => True) := by
  refine slot_passes hname ?_ ?_ hclear ?_ hdispose
  · intro w hbetween
    refine wp_returning_mono (hinit hbetween) ?_
    intro _ w' hpost
    obtain ⟨db, file, c, hready, hentities⟩ := hpost
    exact ⟨db, file, c, hready, True.intro, hentities⟩
  · intro w₀ w db file c entities hready _
    refine wp_returning_mono (hsave hready) ?_
    intro _ w' hpost
    obtain ⟨c', hentities, h'⟩ := hpost
    exact ⟨c', True.intro, hentities, h'⟩
  · intro w₀ w db file c hready _
    rw [hload]
    exact hready.wp_select hslot

/-- The name is deleted first, so what is opened under it is empty. -/
theorem wp_deleteAndOpen {m : AndroidProg Unit} (hbetween : Between w)
    (hm : ∀ w₁, Deleted w name w₁ → Between w₁ → m.wp (.returning fun _ w' => ∃ db file c,
      SlotReady slot name w₁ w' db file c ∧ c.entities env = w₁.stored env name) w₁) :
    (do deleteDatabase env name; m).wp (.returning fun _ w' => ∃ db file c,
      SlotReady slot name w w' db file c ∧ c.entities env = []) w := by
  simp only [wp_bind]
  refine wp_deleteDatabase (fun w₁ h₁ => ?_) (fun _ => True.intro) (fun _ => True.intro)
  refine wp_returning_mono (hm w₁ h₁ (h₁.between hbetween)) ?_
  intro _ w₂ hpost
  obtain ⟨db, file, c, hready, hentities⟩ := hpost
  rw [h₁.stored] at hentities
  exact ⟨db, file, c, hready.of_start h₁.objects h₁.handles, hentities⟩

/-- A library closed and its database deleted. -/
theorem SlotReady.wp_closeAndDelete (h : SlotReady slot name w₀ w db file c)
    (hslot : slot.Lawful) (hclosed : w₀.objects.Closed) :
    (do slot.close env; deleteDatabase env name).wp (.returning fun _ w' => Between w') w := by
  simp only [wp_bind]
  refine h.wp_close hslot hclosed (fun w₁ h₁ => ?_) (fun _ _ => True.intro)
    (fun _ => True.intro)
  exact wp_deleteDatabase (fun w₂ h₂ => h₂.between h₁) (fun _ => True.intro)
    (fun _ => True.intro)

/-! ## `activeandroid` and `activeandroid.sebbia` -/

/-- The library has to be closed to be opened. -/
theorem wp_initializeLibrary (hidle : AllIdle w) (hnone : slot.get w.objects = none) :
    (initializeLibrary env slot name).wp (.returning fun _ w' => ∃ db file c,
      SlotReady slot name w w' db file c ∧ c.entities env = w.stored env name) w := by
  simp only [initializeLibrary, wp_bind, wp_getState, hnone]
  exact wp_open' hidle

theorem SlotReady.wp_saveInTransaction (h : SlotReady slot name w₀ w db file c)
    (hslot : slot.Lawful) {save : AndroidProg Unit}
    (hkeeps : ∀ d, Preserves (AtDepth w.objects db d) save)
    (hsave : ∀ w₁, Within w file ((TxStore.ofCommitted c).inner c) true w₁ →
      save.wp
        { ok := fun _ w' => ∃ c', c'.entities env = c.entities env ++ entities ∧
            Within w file ((TxStore.ofCommitted c).inner c') true w'
          throws := fun _ w' => ∃ c', Within w file ((TxStore.ofCommitted c).inner c') false w'
          dead := fun _ => True } w₁) :
    (saveInTransaction env slot save).wp (.returning fun _ w' => ∃ c',
      c'.entities env = c.entities env ++ entities ∧
        Within w file (.ofCommitted c') true w') w := by
  have hdepth : w.depth db = some 0 := by
    rw [World.depth, (Within.refl h.attached.held).store? h.attached.handle]
    rfl
  rw [wp_congr (saveInTransaction_eq (h.get hslot) hdepth (preserves_exists hkeeps))]
  exact wp_mono (wp_bracket h.attached.held h.attached.handle hsave) (fun _ _ h => h)
    (fun _ _ _ => True.intro) (fun _ _ => True.intro)

/-- In a transaction what one `save` call is given is appended. -/
theorem Within.wp_saveModels_inner {v : TxStore Content}
    (h : Within w₀ file (v.inner c) quiet w) (hget : slot.get w₀.objects = some db)
    (hdb : w₀.handles.lookup db = some file) :
    (saveModels env slot entities).wp
      { ok := fun _ w' => ∃ c', c'.entities env = c.entities env ++ entities ∧
          Within w₀ file (v.inner c') quiet w'
        throws := fun _ w' => ∃ c', Within w₀ file (v.inner c') false w'
        dead := fun _ => True } w :=
  h.wp_saveModels hget hdb (fun f _ hf h' => ⟨f c, hf, h'⟩) (fun _ _ h' => ⟨c, h'⟩)
    (fun _ => True.intro)

theorem Within.wp_saveEach {v : TxStore Content} (h : Within w₀ file (v.inner c) quiet w)
    (hget : slot.get w₀.objects = some db) (hdb : w₀.handles.lookup db = some file) :
    (forEach (fun entity => saveModels env slot [entity]) entities).wp
      { ok := fun _ w' => ∃ c', c'.entities env = c.entities env ++ entities ∧
          Within w₀ file (v.inner c') quiet w'
        throws := fun _ w' => ∃ c', Within w₀ file (v.inner c') false w'
        dead := fun _ => True } w := by
  have hsave : ∀ {c e w}, True → Within w₀ file (v.inner c) quiet w →
      (saveModels env slot [e]).wp
        { ok := fun _ w' => ∃ c', True ∧ c'.entities env = c.entities env ++ [e] ∧
            Within w₀ file (v.inner c') quiet w'
          throws := fun _ w' => ∃ c', Within w₀ file (v.inner c') false w'
          dead := fun _ => True } w := by
    intro c e w _ h
    refine wp_mono (h.wp_saveModels_inner hget hdb) ?_ (fun _ _ h => h) (fun _ h => h)
    intro _ w₁ hpost
    obtain ⟨c', hentities, h₁⟩ := hpost
    exact ⟨c', True.intro, hentities, h₁⟩
  refine wp_mono (Within.wp_insertEach hsave True.intro h) ?_ (fun _ _ h => h) (fun _ h => h)
  intro _ w₁ hpost
  obtain ⟨c', _, hentities, h₁⟩ := hpost
  exact ⟨c', hentities, h₁⟩

theorem activeAndroid_passes :
    Passes env (activeAndroidBenchmark env) (fun w => w.stored env "activeandroid") False
      (SlotPass env ActiveAndroidBenchmark.slot "activeandroid" fun _ => True) := by
  have hslot := activeAndroid_lawful
  refine library_passes hslot rfl ?_ ?_ (fun hready => hready.wp_call) rfl ?_
  · intro w hbetween
    exact wp_initializeLibrary hbetween.idle hbetween.closed.activeAndroid
  · intro w₀ w db file c entities hready
    refine hready.wp_saveInTransaction hslot
      (fun d => preserves_forEach (fun entity => preserves_saveModels) entities) ?_
    exact fun w₁ h₁ => h₁.wp_saveEach (hready.get hslot) hready.attached.handle
  · intro w₀ w db file c hclosed hready
    exact hready.wp_closeAndDelete hslot hclosed

theorem activeAndroidSebbia_passes :
    Passes env (activeAndroidSebbiaBenchmark env) (fun _ => []) False
      (SlotPass env ActiveAndroidSebbiaBenchmark.slot "activeandroid_sebbia" fun _ => True) := by
  have hslot := activeAndroidSebbia_lawful
  refine library_passes hslot rfl ?_ ?_ (fun hready => hready.wp_call) rfl ?_
  · intro w hbetween
    refine wp_deleteAndOpen hbetween fun w₁ _ h₁ => ?_
    exact wp_initializeLibrary h₁.idle h₁.closed.activeAndroidSebbia
  · intro w₀ w db file c entities hready
    refine hready.wp_saveInTransaction hslot (fun d => preserves_saveModels) fun w₁ h₁ => ?_
    exact h₁.wp_saveModels_inner (hready.get hslot) hready.attached.handle
  · intro w₀ w db file c hclosed hready
    exact hready.wp_closeAndDelete hslot hclosed

/-! ## `sugarorm` -/

theorem sugar_passes :
    Passes env (sugarOrmBenchmark env) (fun _ => []) False
      (SlotPass env SugarOrmBenchmark.slot "sugarorm.db" fun _ => True) := by
  have hslot := sugar_lawful
  refine library_passes hslot rfl ?_ (fun hready => hready.wp_saveModels hslot)
    (fun hready => hready.wp_call) rfl ?_
  · intro w hbetween
    exact wp_deleteAndOpen hbetween fun w₁ _ h₁ => wp_open' h₁.idle
  · intro w₀ w db file c hclosed hready
    exact hready.wp_close hslot hclosed (fun _ h => h) (fun _ _ => True.intro)
      (fun _ => True.intro)

/-! ## `genericdao` -/

/-- The rows that were there are deleted once the database is open. -/
theorem genericDao_passes :
    Passes env (genericDaoBenchmark env) (fun _ => []) False
      (SlotPass env GenericDaoBenchmark.slot env.genericDaoDatabase fun _ => True) := by
  have hslot := genericDao_lawful
  refine library_passes hslot rfl ?_ (fun hready => hready.wp_saveModels hslot) ?_ rfl ?_
  · intro w hbetween
    simp only [genericDaoBenchmark, GenericDaoBenchmark.init, wp_bind]
    refine wp_call (fun _ => ?_) (fun _ _ => True.intro) (fun _ => True.intro)
    dsimp only
    rw [wp_bind]
    refine wp_mono (wp_open' (w := { w with calls := w.calls + 1 }) hbetween.idle) ?_
      (fun _ _ _ => True.intro) (fun _ _ => True.intro)
    intro _ w₁ hpost
    obtain ⟨db, file, c, hready, _⟩ := hpost
    simp only [wp_bind]
    refine wp_slotDb (hready.get hslot) ?_
    simp only [wp_bind]
    refine (Within.refl hready.attached.held).wp_call (fun w₂ h₂ _ => ?_)
      (fun _ _ _ => True.intro) (fun _ => True.intro)
    refine h₂.wp_onTable hready.attached.handle (fun t w₃ _ h₃ => ?_)
      (fun _ _ _ => True.intro)
    rw [TxStore.update_ofCommitted] at h₃
    exact ⟨db, file, _, (hready.within h₃).of_start rfl rfl, rfl⟩
  · intro w₀ w db file c hready
    exact Within.refl hready.attached.held
  · intro w₀ w db file c hclosed hready
    refine ⟨hready.idle, ?_⟩
    rw [hready.objects]
    exact ⟨hclosed.activeAndroid, hclosed.activeAndroidSebbia, hclosed.ormLite⟩

/-! ## `greendao` -/

/-- The table `onCreate` made, if there is one. -/
def GreenDaoTable (c : Content) : Prop :=
  ∀ t, c.table = some t → t.columns = GreenDaoEntityDao.columns

/-- A field that is null is not bound, which makes it `NULL`. -/
theorem boundValues_bindValues (entity : Entity) :
    boundValues GreenDaoEntityDao.columns.length (GreenDaoEntityDao.bindValues entity) =
      .null :: entity.values := by
  obtain ⟨field1, field2, field3, field4, field5⟩ := entity
  cases field1 <;> cases field2 <;> cases field3 <;> rfl

theorem greenDao_newRow {t : Table} {entity : Entity}
    (hcolumns : t.columns = GreenDaoEntityDao.columns) :
    t.newRow env (GreenDaoEntityDao.columns.map Column.name) (.null :: entity.values) =
      entity.row (.integer (Int64.ofNat (t.sequence + 1))) := by
  rw [Table.newRow, hcolumns]
  simp [GreenDaoEntityDao.columns, Entity.row, Entity.values, List.idxOf?, List.findIdx?,
    List.findIdx?.go, env.store_integer]

theorem rows_foldl_greenDao (env : Android) (entities : List Entity) {t : Table}
    (hcolumns : t.columns = GreenDaoEntityDao.columns) :
    (entities.foldl (GreenDaoEntityDao.addRow env) t).columns = GreenDaoEntityDao.columns ∧
      (entities.foldl (GreenDaoEntityDao.addRow env) t).rows.map (Entity.ofRow env) =
        t.rows.map (Entity.ofRow env) ++ entities := by
  induction entities generalizing t with
  | nil => exact ⟨hcolumns, (List.append_nil _).symm⟩
  | cons entity rest ih =>
      obtain ⟨hcolumns', hrows⟩ := ih (t := GreenDaoEntityDao.addRow env t entity) hcolumns
      refine ⟨hcolumns', ?_⟩
      rw [List.foldl_cons, hrows, GreenDaoEntityDao.addRow, boundValues_bindValues,
        greenDao_newRow hcolumns, Table.addRow_entities, List.append_assoc]
      rfl

theorem wp_greenDao_init (hbetween : Between w) :
    (GreenDaoBenchmark.init env).wp (.returning fun _ w' => ∃ db file c,
      SlotReady GreenDaoBenchmark.slot "greendao" w w' db file c ∧ GreenDaoTable c ∧
        c.entities env = []) w := by
  simp only [GreenDaoBenchmark.init, wp_bind]
  refine wp_deleteDatabase (fun w₁ h₁ => ?_) (fun _ => True.intro) (fun _ => True.intro)
  simp only [wp_bind]
  refine wp_getWritableDatabase (P := TableCreated GreenDaoEntityDao.columns) rfl h₁.idleAt
    ?_ ?_ (fun _ _ _ => True.intro) (fun _ => True.intro)
  · intro w₂ w₃ db file hdb h₃
    exact wp_createTable h₃ hdb (fun c w₄ hc h₄ => ⟨c, true, hc, h₄⟩) (fun e w₄ h₄ => ⟨_, h₄⟩)
      (fun _ => True.intro)
  · intro db file c quiet w₂ hcreated h₂
    rw [show (SQLiteOpenHelper.mk "greendao" none).name = "greendao" from rfl, h₁.content]
      at hcreated
    obtain ⟨_, c₀, hc₀, rfl⟩ := hcreated.resolve_right fun h => h.1 rfl
    have htable : c₀.table = some ⟨GreenDaoEntityDao.columns, [], 0⟩ := hc₀.1
    simp only [wp_bind]
    refine wp_call (fun _ => ?_) (fun _ _ => True.intro) (fun _ => True.intro)
    refine ⟨db, file, _, ⟨⟨h₂.attached.name, h₂.attached.handle, h₂.attached.held⟩, ?_,
      h₂.idle (h₁.idle hbetween.idle), ?_⟩, ?_, ?_⟩
    · show { w₂.objects with greenDao := some db } = _
      rw [h₂.objects, h₁.objects]
      rfl
    · show w₂.handles = _
      rw [h₂.handles, h₁.handles]
    · intro t ht
      cases htable.symm.trans ht
      rfl
    · simp only [Content.entities, htable, List.map_nil]

theorem SlotReady.wp_insertInTx (h : SlotReady GreenDaoBenchmark.slot "greendao" w₀ w db file c)
    (hgood : GreenDaoTable c) :
    (GreenDaoBenchmark.saveEntitiesInTransaction env entities).wp (.returning fun _ w' =>
      ∃ c', GreenDaoTable c' ∧ c'.entities env = c.entities env ++ entities ∧
        Within w file (.ofCommitted c') true w') w := by
  simp only [GreenDaoBenchmark.saveEntitiesInTransaction, GreenDaoEntityDao.insertInTx, wp_bind]
  refine wp_slotDb (h.get greenDao_lawful) ?_
  simp only [wp_bind]
  refine (Within.refl h.attached.held).wp_call (fun w₁ h₁ _ => ?_) (fun _ _ _ => True.intro)
    (fun _ => True.intro)
  refine h₁.wp_onTable h.attached.handle (fun t w₂ htable h₂ => ?_) (fun _ _ _ => True.intro)
  obtain ⟨hcolumns, hrows⟩ := rows_foldl_greenDao env entities (hgood t htable)
  rw [TxStore.update_ofCommitted] at h₂
  refine ⟨_, ?_, ?_, h₂⟩
  · intro t' ht'
    cases ht'
    exact hcolumns
  · rw [Content.entities_eq rfl, hrows, Content.entities_eq (c := c) htable]

theorem SlotReady.wp_greenDao_load
    (h : SlotReady GreenDaoBenchmark.slot "greendao" w₀ w db file c) :
    (GreenDaoBenchmark.loadEntities env).wp (.returning fun loaded w' =>
      loaded = some (c.entities env) ∧ Within w file (.ofCommitted c) true w') w := by
  simp only [GreenDaoBenchmark.loadEntities, GreenDaoEntityDao.loadAll, wp_bind]
  refine wp_slotDb (h.get greenDao_lawful) ?_
  simp only [wp_bind]
  refine (Within.refl h.attached.held).wp_call (fun w₁ h₁ _ => ?_) (fun _ _ _ => True.intro)
    (fun _ => True.intro)
  simp only [wp_bind]
  refine h₁.wp_getTable h.attached.handle (fun t htable => ?_) (fun _ _ _ => True.intro)
  refine ⟨?_, h₁⟩
  rw [Content.entities_eq (c := c) htable]
  rfl

theorem SlotReady.wp_greenDao_clear
    (h : SlotReady GreenDaoBenchmark.slot "greendao" w₀ w db file c) :
    (GreenDaoBenchmark.clear env).wp (.returning fun _ w' =>
      Within w file (.ofCommitted c) true w') w := by
  simp only [GreenDaoBenchmark.clear, wp_bind]
  exact wp_slotDb (h.get greenDao_lawful) h.wp_call

/-- The end of a pass leaves the handle open. -/
theorem greenDao_passes :
    Passes env (greenDaoBenchmark env) (fun _ => []) False
      (SlotPass env GreenDaoBenchmark.slot "greendao" GreenDaoTable) := by
  refine slot_passes rfl wp_greenDao_init (fun hready hgood => hready.wp_insertInTx hgood)
    (fun hready => hready.wp_greenDao_clear) (fun hready _ => hready.wp_greenDao_load) ?_
  intro w₀ w db file c hclosed hready
  refine wp_returning_mono hready.wp_greenDao_clear ?_
  intro _ w' h'
  refine ⟨h'.idle hready.idle rfl, ?_⟩
  rw [h'.objects, hready.objects]
  exact ⟨hclosed.activeAndroid, hclosed.activeAndroidSebbia, hclosed.ormLite⟩

/-! ## `noorm` -/

/-- Open since the pass began, which also deleted what was there. -/
structure NoOrmPass (env : Android) (w₀ w : World) (db file : Nat) (c : Content) : Prop where
  ready : NoOrmReady w db file c
  between : Between w
  handles : w.handles = w₀.handles.insert db file
  deletions : w.deletions = w₀.deletions ++ [("no_orm", w₀.isOpen "no_orm")]

theorem NoOrmPass.within {c' : Content} (h : NoOrmPass env w₀ w db file c)
    (hw : Within w file (.ofCommitted c') quiet w') (ht : ∃ t, NoOrmTable c' t) :
    NoOrmPass env w₀ w' db file c' :=
  ⟨h.ready.within hw ht, ⟨hw.idle h.between.idle rfl, by rw [hw.objects]; exact h.between.closed⟩,
    by rw [hw.handles, h.handles], by rw [hw.deletions, h.deletions]⟩

theorem NoOrmPass.wp_dispose (h : NoOrmPass env w₀ w db file c) :
    (NoOrmBenchmark.dispose env).wp (.returning fun _ w' => Between w' ∧
      w'.handles = w.handles.erase db ∧ w'.deletions = w.deletions) w := by
  simp only [NoOrmBenchmark.dispose, wp_bind]
  refine wp_sqLiteHelper h.ready.helper ?_
  simp only [SQLiteOpenHelper.close, wp_bind]
  refine wp_call (fun _ => ?_) (fun _ _ => True.intro) (fun _ => True.intro)
  dsimp only
  rw [wp_bind]
  refine wp_closeHandle h.ready.attached.handle (h.between.idle file) ?_
  intro w₁ _ hhandles hobjects hdeletions _ hfiles
  refine ⟨⟨h.between.idle.of_files hfiles, ?_⟩, hhandles, hdeletions⟩
  have hclosed := h.between.closed
  have hobjects' : w₁.objects = w.objects := hobjects
  rw [← hobjects'] at hclosed
  exact ⟨hclosed.activeAndroid, hclosed.activeAndroidSebbia, hclosed.ormLite⟩

theorem noOrm_passes :
    Passes env (noOrmBenchmark env) (fun _ => []) False (fun w₀ w rows => ∃ db file c,
      NoOrmPass env w₀ w db file c ∧ c.entities env = rows) where
  init := by
    intro w hbetween
    refine wp_mono wp_noOrm_init ?_ (fun _ _ _ => True.intro) (fun _ _ => True.intro)
    intro _ w' hpost
    obtain ⟨db, file, c, hready, hempty, hhandles, hdeletions, hidle, helper, hobjects⟩ := hpost
    refine ⟨db, file, c, ⟨hready, ⟨hidle hbetween.idle, ?_⟩, hhandles, hdeletions⟩, hempty⟩
    rw [hobjects]
    exact ⟨hbetween.closed.activeAndroid, hbetween.closed.activeAndroidSebbia,
      hbetween.closed.ormLite⟩
  save := by
    intro w₀ w _ entities hpass
    obtain ⟨db, file, c, hpass, rfl⟩ := hpass
    refine wp_mono (wp_insertInTransaction hpass.ready) ?_ (fun _ _ _ => True.intro)
      (fun _ _ => True.intro)
    intro _ w' hpost
    obtain ⟨c', ht, hentities, h'⟩ := hpost
    exact Or.inl ⟨h'.failures, db, file, c', hpass.within h' ht, hentities⟩
  clearCache := by
    intro w₀ w rows hready
    exact ⟨rfl, hready⟩
  load := by
    intro w₀ w _ hpass
    obtain ⟨db, file, c, hpass, rfl⟩ := hpass
    simp only [noOrmBenchmark, NoOrmBenchmark.loadEntities, wp_bind]
    refine wp_mono (wp_getAllEntities hpass.ready) ?_ (fun _ _ _ => True.intro)
      (fun _ _ => True.intro)
    intro loaded w' hpost
    obtain ⟨rfl, h'⟩ := hpost
    exact ⟨⟨db, file, c, hpass.within h' hpass.ready.table, rfl⟩, Or.inl ⟨h'.failures, rfl⟩⟩
  dispose := by
    intro w₀ w _ hpass
    obtain ⟨db, file, c, hpass, _⟩ := hpass
    exact wp_returning_mono hpass.wp_dispose fun _ w' h => h.1
  stored := by
    intro w₀ w _ hpass
    obtain ⟨db, file, c, hpass, rfl⟩ := hpass
    exact hpass.ready.attached.stored

end

end OrmBenchmark.Ref
