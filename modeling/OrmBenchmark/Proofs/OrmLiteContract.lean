import OrmBenchmark.Proofs.AdapterContracts

/-!
# The adapter that swallows exceptions

`ormlite` opens its database when it is first asked for a connection, which is
inside the save, and what goes wrong there or in the save it prints. A table
that could not be created is printed and done without. So a call that returned
may have had a library call throw; but then it stored nothing and, if it was the
load, returned `null`.
-/

namespace OrmBenchmark.Ref

open OrmBenchmark.Lib OrmBenchmark.Lib.Prog

/-! ## The states of the helper -/

structure OrmLiteHelper (w₀ w : World) (mDatabase : Option Nat) : Prop where
  idle : AllIdle w
  objects : w.objects = { w₀.objects with ormLite := some ⟨"ormlite", mDatabase⟩ }
  deletions : w.deletions = w₀.deletions ++ [("ormlite", w₀.isOpen "ormlite")]

structure OrmLiteUnopened (w₀ w : World) : Prop extends OrmLiteHelper w₀ w none where
  content : w.content "ormlite" = ⟨0, none⟩
  handles : w₀.handles = ∅ → w.handles = ∅

structure OrmLiteOpened (w₀ w : World) (db file : Nat) (c : Content) : Prop
    extends OrmLiteHelper w₀ w (some db) where
  attached : AttachedTo w "ormlite" db file c
  handles : w₀.handles = ∅ → w.handles = (∅ : AList fun _ : Nat => Nat).insert db file

def OrmLitePass (env : Android) (w₀ w : World) (rows : List Entity) : Prop :=
  w₀.objects.Closed ∧ (OrmLiteUnopened w₀ w ∧ rows = [] ∨
    ∃ db file c, OrmLiteOpened w₀ w db file c ∧ c.entities env = rows)

/-- Only the counts and the bindings differ. -/
structure Untouched (w w' : World) : Prop where
  names : w'.names = w.names
  files : w'.files = w.files
  handles : w'.handles = w.handles
  objects : w'.objects = w.objects
  deletions : w'.deletions = w.deletions

section

variable {env : Android} {w₀ w w' : World} {db file : Nat} {c v : Content} {quiet : Bool}
  {rows entities : List Entity} {α : Type}

theorem Untouched.trans {w'' : World} (h : Untouched w w') (h' : Untouched w' w'') :
    Untouched w w'' :=
  ⟨h'.names.trans h.names, h'.files.trans h.files, h'.handles.trans h.handles,
    h'.objects.trans h.objects, h'.deletions.trans h.deletions⟩

theorem OrmLiteHelper.untouched {m : Option Nat} (h : OrmLiteHelper w₀ w m)
    (hw : Untouched w w') : OrmLiteHelper w₀ w' m := by
  exact ⟨h.idle.of_files hw.files, by rw [hw.objects, h.objects],
    by rw [hw.deletions, h.deletions]⟩

theorem OrmLiteOpened.untouched (h : OrmLiteOpened w₀ w db file c) (hw : Untouched w w') :
    OrmLiteOpened w₀ w' db file c where
  toOrmLiteHelper := h.toOrmLiteHelper.untouched hw
  attached := ⟨by rw [hw.names, h.attached.name], by rw [hw.handles, h.attached.handle],
    by rw [hw.files, h.attached.held]⟩
  handles hempty := by rw [hw.handles, h.handles hempty]

theorem OrmLitePass.untouched (h : OrmLitePass env w₀ w rows) (hw : Untouched w w') :
    OrmLitePass env w₀ w' rows := by
  obtain ⟨hclosed, ⟨hunopened, hrows⟩ | ⟨db, file, c, hopened, hrows⟩⟩ := h
  · refine ⟨hclosed, Or.inl ⟨⟨hunopened.toOrmLiteHelper.untouched hw, ?_, ?_⟩, hrows⟩⟩
    · rw [World.content_congr hw.names hw.files, hunopened.content]
    · intro hempty
      rw [hw.handles, hunopened.handles hempty]
  · exact ⟨hclosed, Or.inr ⟨db, file, c, hopened.untouched hw, hrows⟩⟩

theorem OrmLiteOpened.within (h : OrmLiteOpened w₀ w db file v)
    (hw : Within w file (.ofCommitted c) quiet w') : OrmLiteOpened w₀ w' db file c where
  idle := hw.idle h.idle rfl
  objects := by rw [hw.objects, h.objects]
  deletions := by rw [hw.deletions, h.deletions]
  attached := hw.attached h.attached
  handles hempty := by rw [hw.handles, h.handles hempty]

/-- What the first connection makes of the helper. -/
theorem OrmLiteUnopened.opened (h : OrmLiteUnopened w₀ w)
    (hw : OpenedAs w "ormlite" db file c quiet w') :
    OrmLiteOpened w₀
      { w' with objects := { w'.objects with ormLite := some ⟨"ormlite", some db⟩ } }
      db file c where
  idle := hw.idle h.idle
  objects := by rw [hw.objects, h.objects]
  deletions := hw.deletions.trans h.deletions
  attached := ⟨hw.attached.name, hw.attached.handle, hw.attached.held⟩
  handles hempty := hw.handles.trans (by rw [h.handles hempty])

/-- … and what one that failed leaves. -/
theorem OrmLiteUnopened.openFailed (h : OrmLiteUnopened w₀ w)
    (hw : OpenFailed w "ormlite" w') : OrmLiteUnopened w₀ w' where
  idle := hw.idle h.idle
  objects := by rw [hw.objects, h.objects]
  deletions := hw.deletions.trans h.deletions
  content := hw.content.trans h.content
  handles hempty := hw.handles (h.handles hempty)

theorem OrmLitePass.helper (h : OrmLitePass env w₀ w rows) :
    ∃ helper, w.objects.ormLite = some helper := by
  obtain ⟨_, ⟨hunopened, _⟩ | ⟨db, file, c, hopened, _⟩⟩ := h
  · exact ⟨_, by rw [hunopened.objects]⟩
  · exact ⟨_, by rw [hopened.objects]⟩

theorem OrmLitePass.stored (h : OrmLitePass env w₀ w rows) :
    w.stored env "ormlite" = rows := by
  obtain ⟨_, ⟨hunopened, rfl⟩ | ⟨db, file, c, hopened, rfl⟩⟩ := h
  · rw [World.stored_eq, hunopened.content]
    rfl
  · exact hopened.attached.stored

/-! ## Calls that are caught -/

theorem wp_call_untouched {Q : Post World Throwable Unit}
    (hok : ∀ w', Untouched w w' → w'.failures = w.failures → Q.ok () w')
    (hthrows : ∀ e w', Untouched w w' → w.failures < w'.failures → Q.throws e w')
    (hdead : ∀ w', Q.dead w') : (call env).wp Q w :=
  wp_call (fun _ => hok _ ⟨rfl, rfl, rfl, rfl, rfl⟩ rfl)
    (fun e _ => hthrows e _ ⟨rfl, rfl, rfl, rfl, rfl⟩ (Nat.lt_succ_self _)) (fun _ => hdead _)

/-- What is asked of a program whose exceptions may become the value `a`. -/
theorem wp_catchException {m : AndroidProg Unit} {P : Unit → World → Prop}
    (h : m.wp { ok := P, throws := fun _ => P (), dead := fun _ => True } w) :
    (catchException m (pure ())).wp (.returning P) w := by
  simp only [catchException, wp_tryCatch]
  refine wp_mono h (fun _ _ h => h) ?_ (fun _ h => h)
  intro e w' hP
  dsimp only
  split
  · exact True.intro
  · exact hP

theorem wp_catchSQLException {m : AndroidProg α} {a : α} {P : α → World → Prop}
    (h : m.wp { ok := P, throws := fun e w' => e.kind = .sqlException → P a w'
                dead := fun _ => True } w) :
    (catchSQLException m (pure a)).wp (.returning P) w := by
  simp only [catchSQLException, wp_tryCatch]
  refine wp_mono h (fun _ _ h => h) ?_ (fun _ h => h)
  intro e w' hP
  dsimp only
  split
  · next hkind => exact hP hkind
  · exact True.intro

theorem wp_getInstance {Q : Post World Throwable SQLiteOpenHelper} {helper : SQLiteOpenHelper}
    (h : w.objects.ormLite = some helper) (hok : Q.ok helper w) :
    (DatabaseHelper.getInstance env).wp Q w := by
  simp only [DatabaseHelper.getInstance, wp_bind, wp_getState, h]
  exact hok

/-- Without a DAO something has gone wrong before. -/
theorem wp_getDao {P : Option Unit → World → Prop}
    (hsome : ∀ w', Untouched w w' → w'.failures = w.failures → P (some ()) w')
    (hnone : ∀ w', Untouched w w' → w.failures < w'.failures → P none w') :
    (DatabaseHelper.getDao env).wp (.returning P) w := by
  refine wp_catchSQLException ?_
  simp only [wp_bind]
  refine wp_call_untouched (fun w₁ h₁ hf₁ => ?_) (fun e w₁ h₁ hf₁ _ => hnone w₁ h₁ hf₁)
    (fun _ => True.intro)
  simp only [wp_bind]
  refine wp_call_untouched (fun w₂ h₂ hf₂ => ?_) (fun e w₂ h₂ hf₂ _ => ?_) (fun _ => True.intro)
  · exact hsome w₂ (h₁.trans h₂) (by omega)
  · exact hnone w₂ (h₁.trans h₂) (by omega)

/-! ## The connection -/

/-- What `onCreate` may make of a content. -/
def TableTried (v c : Content) (quiet : Bool) : Prop :=
  TableCreated entityColumns v c quiet ∨ (quiet = false ∧ c = v)

theorem wp_ormLite_onCreate (h : Within w₀ file ((TxStore.ofCommitted v).inner v) true w)
    (hdb : w₀.handles.lookup db = some file) :
    (DatabaseHelper.onCreate env db).wp
      { ok := fun _ w' => ∃ c quiet, TableTried v c quiet ∧
          Within w₀ file ((TxStore.ofCommitted v).inner c) quiet w'
        throws := fun _ w' => ∃ c, Within w₀ file ((TxStore.ofCommitted v).inner c) false w'
        dead := fun _ => True } w := by
  simp only [DatabaseHelper.onCreate, catchSQLException, wp_tryCatch]
  refine wp_createTable h hdb (fun c w₁ hc h₁ => ⟨c, true, Or.inl hc, h₁⟩) ?_
    (fun _ => True.intro)
  intro e w₁ h₁
  dsimp only
  split
  · exact ⟨v, false, Or.inr ⟨rfl, rfl⟩, h₁⟩
  · exact ⟨v, h₁⟩

/-- A connection: what is stored is as before, and if something went wrong on
the way there is no table. -/
theorem wp_getConnection {Q : Post World Throwable Nat} (h : OrmLitePass env w₀ w rows)
    (hok : ∀ db file c w', OrmLiteOpened w₀ w' db file c → c.entities env = rows →
      (w'.failures = w.failures ∨ w.failures < w'.failures ∧ c.table = none) → Q.ok db w')
    (hthrows : ∀ e w', OrmLitePass env w₀ w' rows → w.failures < w'.failures → Q.throws e w')
    (hdead : ∀ w', Q.dead w') : (DatabaseHelper.getConnection env).wp Q w := by
  obtain ⟨helper, hhelper⟩ := h.helper
  simp only [DatabaseHelper.getConnection, wp_bind]
  refine wp_getInstance hhelper ?_
  simp only [wp_bind]
  refine wp_call_untouched (fun w₁ h₁ hf₁ => ?_)
    (fun e w₁ h₁ hf₁ => hthrows e w₁ (h.untouched h₁) hf₁) hdead
  have hpass := h.untouched h₁
  have hclosed := hpass.1
  dsimp only
  rw [wp_bind]
  rcases hpass with ⟨_, ⟨hunopened, rfl⟩ | ⟨db, file, c, hopened, hrows⟩⟩
  · -- The first connection opens the database.
    have hname : helper = ⟨"ormlite", none⟩ := by
      rw [← h₁.objects, hunopened.objects] at hhelper
      exact (Option.some.inj hhelper).symm
    subst hname
    refine wp_getWritableDatabase (P := TableTried) rfl (fun file _ => hunopened.idle file)
      (fun hdb h₃ => wp_ormLite_onCreate h₃ hdb) ?_ ?_ hdead
    · intro db file c quiet w₂ hcreated h₂
      rw [show (SQLiteOpenHelper.mk "ormlite" none).name = "ormlite" from rfl,
        hunopened.content] at hcreated
      obtain ⟨_, c₀, htried, rfl⟩ := hcreated.resolve_right fun h => h.1 rfl
      have hopened := hunopened.opened h₂
      have hfailures := h₂.failures
      rcases htried with ⟨htable, rfl⟩ | ⟨rfl, rfl⟩
      · refine hok db file _ _ hopened ?_ (Or.inl ?_)
        · rw [Content.entities, htable]
          rfl
        · show w₂.failures = w.failures
          rw [← hf₁]
          exact hfailures
      · refine hok db file _ _ hopened rfl (Or.inr ⟨?_, rfl⟩)
        show w.failures < w₂.failures
        rw [← hf₁]
        exact hfailures
    · intro e w₂ h₂
      refine hthrows e w₂ ⟨hclosed, Or.inl ⟨hunopened.openFailed h₂, rfl⟩⟩ ?_
      have hfailures := h₂.failures
      omega
  · -- After that the helper hands out the handle it has.
    have hname : helper = ⟨"ormlite", some db⟩ := by
      rw [← h₁.objects, hopened.objects] at hhelper
      exact (Option.some.inj hhelper).symm
    subst hname
    simp only [SQLiteOpenHelper.getWritableDatabase, wp_pure, wp_bind]
    refine hok db file c _ ?_ hrows (Or.inl hf₁)
    refine hopened.untouched ⟨rfl, rfl, rfl, ?_, rfl⟩
    show { w₁.objects with ormLite := some ⟨"ormlite", some db⟩ } = w₁.objects
    rw [hopened.objects]

/-! ## The save -/

theorem OrmLiteOpened.counted (h : OrmLiteOpened w₀ w db file c) (failures : Nat) :
    OrmLiteOpened w₀ { w with failures := failures } db file c :=
  h.untouched ⟨rfl, rfl, rfl, rfl, rfl⟩

theorem wp_createEach (hdb : w₀.handles.lookup db = some file)
    (h : Within w₀ file ((TxStore.ofCommitted v).inner c) quiet w) :
    (forEach (OrmLiteBenchmark.createIfNotExists env (some ()) db) entities).wp
      { ok := fun _ w' => ∃ c', True ∧ c'.entities env = c.entities env ++ entities ∧
          Within w₀ file ((TxStore.ofCommitted v).inner c') quiet w'
        throws := fun _ w' => ∃ c', Within w₀ file ((TxStore.ofCommitted v).inner c') false w'
        dead := fun _ => True } w := by
  have hcreate : ∀ {c e w}, True → Within w₀ file ((TxStore.ofCommitted v).inner c) quiet w →
      (OrmLiteBenchmark.createIfNotExists env (some ()) db e).wp
        { ok := fun _ w' => ∃ c', True ∧ c'.entities env = c.entities env ++ [e] ∧
            Within w₀ file ((TxStore.ofCommitted v).inner c') quiet w'
          throws := fun _ w' => ∃ c', Within w₀ file ((TxStore.ofCommitted v).inner c') false w'
          dead := fun _ => True } w := by
    intro c e w _ h
    exact h.wp_saveAll hdb (fun f _ _ hf h' => ⟨f c, True.intro, hf, h'⟩)
      (fun _ _ h' => ⟨c, h'⟩) (fun _ => True.intro)
  exact Within.wp_insertEach hcreate True.intro h

/-- Without a DAO, or without a table, the first entity ends the loop. -/
theorem wp_createEach_failed {dao : Option Unit} (hdb : w₀.handles.lookup db = some file)
    (hfailed : dao = none ∨ c.table = none)
    (h : Within w₀ file ((TxStore.ofCommitted v).inner c) false w) :
    (forEach (OrmLiteBenchmark.createIfNotExists env dao db) entities).wp
      { ok := fun _ w' => Within w₀ file ((TxStore.ofCommitted v).inner c) false w'
        throws := fun _ w' => Within w₀ file ((TxStore.ofCommitted v).inner c) false w'
        dead := fun _ => True } w := by
  cases entities with
  | nil => exact h
  | cons entity rest =>
      rw [forEach, wp_bind]
      cases dao with
      | none => exact h
      | some _ =>
          have htable := hfailed.resolve_left (Option.some_ne_none _)
          exact h.wp_saveAll hdb (fun _ _ hsome => absurd htable hsome) (fun _ _ h' => h')
            (fun _ => True.intro)

/-- From the begin to the end: all of the entities are committed if nothing went
wrong before or since, and none if anything did. -/
theorem Within.wp_createInTransaction {dao : Option Unit}
    (h : Within w₀ file (.ofCommitted c) quiet w) (hdb : w₀.handles.lookup db = some file)
    (hdao : if quiet then dao = some () else dao = none ∨ c.table = none) :
    (do beginTransaction env db
        tryFinally
          (do
            forEach (OrmLiteBenchmark.createIfNotExists env dao db) entities
            setTransactionSuccessful env db)
          (endTransaction env db) : AndroidProg Unit).wp
      { ok := fun _ w' =>
          (∃ c', c'.entities env = c.entities env ++ entities ∧
            Within w₀ file (.ofCommitted c') true w') ∨ Within w₀ file (.ofCommitted c) false w'
        throws := fun _ w' => Within w₀ file (.ofCommitted c) false w'
        dead := fun _ => True } w := by
  rw [wp_bind]
  refine h.wp_beginTransaction hdb (fun w₁ h₁ => ?_) (fun _ _ h₁ => h₁) (fun _ => True.intro)
  dsimp only
  rw [wp_tryFinally_end]
  cases quiet with
  | true =>
      cases hdao
      refine Within.wp_transaction hdb (P := fun c' quiet => quiet = true ∧
        c'.entities env = c.entities env ++ entities)
        (wp_mono (wp_createEach hdb h₁) ?_ (fun _ _ h => h) (fun _ h => h)) ?_
        (fun _ _ h => h) (fun _ => True.intro)
      · intro _ w₂ hpost
        obtain ⟨c', _, hentities, h₂⟩ := hpost
        exact ⟨c', true, ⟨rfl, hentities⟩, h₂⟩
      · intro c' _ w₂ hreached h₂
        obtain ⟨rfl, hentities⟩ := hreached
        exact Or.inl ⟨c', hentities, h₂⟩
  | false =>
      refine Within.wp_transaction hdb (P := fun c' quiet => quiet = false ∧ c' = c)
        (wp_mono (wp_createEach_failed hdb hdao h₁) ?_ (fun _ _ h => ⟨c, h⟩) (fun _ h => h)) ?_
        (fun _ _ h => h) (fun _ => True.intro)
      · exact fun _ w₂ h₂ => ⟨c, false, ⟨rfl, rfl⟩, h₂⟩
      · intro _ _ w₂ hreached h₂
        obtain ⟨rfl, rfl⟩ := hreached
        exact Or.inr h₂

/-- Counting failures from another number on. -/
theorem OrmLiteOpened.within_counted (h : OrmLiteOpened w₀ w db file c) {failures : Nat}
    (hquiet : if quiet then w.failures = failures else failures < w.failures) :
    Within { w with failures := failures } file (.ofCommitted c) quiet w :=
  ⟨rfl, rfl, rfl, rfl, rfl, Nat.le_refl _, h.attached.held, fun _ _ => rfl, hquiet⟩

/-- All of the entities are stored if nothing went wrong, and none if anything did. -/
theorem wp_ormLite_save (h : OrmLitePass env w₀ w rows) :
    (OrmLiteBenchmark.saveEntitiesInTransaction env entities).wp (.returning fun _ w' =>
      Went True w w' (OrmLitePass env w₀ w' (rows ++ entities)) (OrmLitePass env w₀ w' rows)) w := by
  obtain ⟨helper, hhelper⟩ := h.helper
  have hclosed := h.1
  simp only [OrmLiteBenchmark.saveEntitiesInTransaction, wp_bind]
  refine wp_getInstance hhelper ?_
  simp only [wp_bind]
  -- The rest of the save, once it is known whether there is a DAO.
  have hrest : ∀ dao w₁, Untouched w w₁ →
      (dao = some () ∧ w₁.failures = w.failures ∨ dao = none ∧ w.failures < w₁.failures) →
      (catchException (OrmLiteBenchmark.callInTransaction env fun db =>
        forEach (OrmLiteBenchmark.createIfNotExists env dao db) entities) (pure ())).wp
        (.returning fun _ w' => Went True w w' (OrmLitePass env w₀ w' (rows ++ entities))
          (OrmLitePass env w₀ w' rows)) w₁ := by
    intro dao w₁ h₁ hdao
    refine wp_catchException ?_
    simp only [OrmLiteBenchmark.callInTransaction]
    rw [wp_bind]
    refine wp_getConnection (h.untouched h₁) ?_ ?_ (fun _ => True.intro)
    · intro db file c w₂ hopened hrows hf₂
      have hstart := hopened.counted w.failures
      have hlost : ∀ {w₃},
          Within { w₂ with failures := w.failures } file (.ofCommitted c) false w₃ →
          Went True w w₃ (OrmLitePass env w₀ w₃ (rows ++ entities)) (OrmLitePass env w₀ w₃ rows) :=
        fun h₃ => Or.inr ⟨True.intro, h₃.failures,
          hclosed, Or.inr ⟨db, file, c, hstart.within h₃, hrows⟩⟩
      have hquiet : ∃ quiet : Bool,
          (if quiet then w₂.failures = w.failures else w.failures < w₂.failures) ∧
            if quiet then dao = some () else dao = none ∨ c.table = none := by
        rcases hdao with ⟨hdao, hf₁⟩ | ⟨hdao, hf₁⟩
        · rcases hf₂ with hf₂ | ⟨hf₂, htable⟩
          · exact ⟨true, hf₂.trans hf₁, hdao⟩
          · exact ⟨false, hf₁ ▸ hf₂, Or.inr htable⟩
        · refine ⟨false, ?_, Or.inl hdao⟩
          show w.failures < w₂.failures
          omega
      obtain ⟨quiet, hcount, hdao'⟩ := hquiet
      refine wp_mono ((hopened.within_counted hcount).wp_createInTransaction
        hstart.attached.handle hdao') ?_ (fun _ _ h₃ => hlost h₃) (fun _ h => h)
      intro _ w₃ hpost
      rcases hpost with ⟨c', hentities, h₃⟩ | h₃
      · refine Or.inl ⟨h₃.failures, hclosed, Or.inr ⟨db, file, c', hstart.within h₃, ?_⟩⟩
        rw [hentities, hrows]
      · exact hlost h₃
    · intro e w₂ h₂ hf₂
      exact Or.inr ⟨True.intro, by omega, h₂⟩
  refine wp_getDao (fun w₁ h₁ hf₁ => ?_) (fun w₁ h₁ hf₁ => ?_)
  · exact hrest (some ()) w₁ h₁ (Or.inl ⟨rfl, hf₁⟩)
  · exact hrest none w₁ h₁ (Or.inr ⟨rfl, hf₁⟩)

/-! ## The load, and the rest of a pass -/

/-- Every row if nothing went wrong, and `null` if anything did. -/
theorem wp_ormLite_load (h : OrmLitePass env w₀ w rows) :
    (OrmLiteBenchmark.loadEntities env).wp (.returning fun loaded w' =>
      OrmLitePass env w₀ w' rows ∧ Went True w w' (loaded = some rows) (loaded = none)) w := by
  obtain ⟨helper, hhelper⟩ := h.helper
  have hclosed := h.1
  simp only [OrmLiteBenchmark.loadEntities, wp_bind]
  refine wp_getInstance hhelper ?_
  simp only [wp_bind]
  refine wp_getDao (fun w₁ h₁ hf₁ => ?_) (fun w₁ h₁ hf₁ => ?_)
  · refine wp_catchSQLException ?_
    simp only [OrmLiteBenchmark.queryForAll, wp_bind]
    refine wp_getConnection (h.untouched h₁) ?_ ?_ (fun _ => True.intro)
    · intro db file c w₂ hopened hrows hf₂
      have hstart := hopened.counted w.failures
      have hnull : ∀ {w₃},
          Within { w₂ with failures := w.failures } file (.ofCommitted c) false w₃ →
          OrmLitePass env w₀ w₃ rows ∧ Went True w w₃ (none = some rows) True :=
        fun h₃ => ⟨⟨hclosed, Or.inr ⟨db, file, c, hstart.within h₃, hrows⟩⟩,
          Or.inr ⟨True.intro, h₃.failures, True.intro⟩⟩
      rcases hf₂ with hf₂ | ⟨hf₂, htable⟩
      · have hquiet : Within { w₂ with failures := w.failures } file (.ofCommitted c) true w₂ :=
          hopened.within_counted (hf₂.trans hf₁)
        refine hquiet.wp_loadAll hstart.attached.handle ?_ (fun e w₃ h₃ _ => hnull h₃)
          (fun _ => True.intro)
        intro w₃ _ h₃
        exact ⟨⟨hclosed, Or.inr ⟨db, file, c, hstart.within h₃, hrows⟩⟩,
          Or.inl ⟨h₃.failures, congrArg some hrows⟩⟩
      · have hloud : Within { w₂ with failures := w.failures } file (.ofCommitted c) false w₂ :=
          hopened.within_counted (hf₁ ▸ hf₂)
        exact hloud.wp_loadAll hstart.attached.handle (fun _ hsome _ => absurd htable hsome)
          (fun e w₃ h₃ _ => hnull h₃) (fun _ => True.intro)
    · intro e w₂ h₂ hf₂ _
      exact ⟨h₂, Or.inr ⟨True.intro, by omega, True.intro⟩⟩
  · -- The DAO is dereferenced, and that exception is not one that is caught.
    refine wp_catchSQLException fun hkind => ?_
    cases hkind

theorem wp_ormLite_clearCache (h : OrmLitePass env w₀ w rows) :
    (OrmLiteBenchmark.clearCache env).wp (.returning fun _ w' =>
      w'.failures = w.failures ∧ OrmLitePass env w₀ w' rows) w := by
  obtain ⟨helper, hhelper⟩ := h.helper
  simp only [OrmLiteBenchmark.clearCache, wp_bind]
  refine wp_getInstance hhelper ?_
  simp only [wp_bind]
  refine wp_getDao (fun w₁ h₁ hf₁ => ?_) (fun _ _ _ => True.intro)
  refine wp_call_untouched (fun w₂ h₂ hf₂ => ?_) (fun _ _ _ _ => True.intro)
    (fun _ => True.intro)
  exact ⟨hf₂.trans hf₁, h.untouched (h₁.trans h₂)⟩

/-- What was opened is closed, however far the opening got. -/
theorem wp_ormLite_dispose (h : OrmLitePass env w₀ w rows) :
    (DatabaseHelper.dispose env).wp (.returning fun _ w' => Between w' ∧
      (w₀.handles = ∅ → w'.handles = ∅) ∧
      w'.deletions = w₀.deletions ++ [("ormlite", w₀.isOpen "ormlite")]) w := by
  obtain ⟨hclosed, ⟨hunopened, _⟩ | ⟨db, file, c, hopened, _⟩⟩ := h
  · have hhelper : w.objects.ormLite = some ⟨"ormlite", none⟩ := by rw [hunopened.objects]
    simp only [DatabaseHelper.dispose, wp_bind, wp_getState, hhelper, SQLiteOpenHelper.close,
      wp_pure]
    refine ⟨⟨hunopened.idle, ?_⟩, hunopened.handles, hunopened.deletions⟩
    show Objects.Closed { w.objects with ormLite := none }
    rw [hunopened.objects]
    exact ⟨hclosed.activeAndroid, hclosed.activeAndroidSebbia, rfl⟩
  · have hhelper : w.objects.ormLite = some ⟨"ormlite", some db⟩ := by rw [hopened.objects]
    simp only [DatabaseHelper.dispose, wp_bind, wp_getState, hhelper, SQLiteOpenHelper.close]
    refine wp_call_untouched (fun w₁ h₁ _ => ?_) (fun _ _ _ _ => True.intro)
      (fun _ => True.intro)
    have hopened₁ := hopened.untouched h₁
    dsimp only
    rw [wp_bind]
    refine wp_closeHandle hopened₁.attached.handle (hopened₁.idle file) ?_
    intro w₂ _ hhandles hobjects hdeletions _ hfiles
    refine ⟨⟨hopened₁.idle.of_files hfiles, ?_⟩, ?_, ?_⟩
    · show Objects.Closed { w₂.objects with ormLite := none }
      rw [hobjects, hopened₁.objects]
      exact ⟨hclosed.activeAndroid, hclosed.activeAndroidSebbia, rfl⟩
    · intro hempty
      show w₂.handles = ∅
      rw [hhandles, hopened₁.handles hempty, erase_insert_empty]
    · show w₂.deletions = _
      rw [hdeletions, hopened₁.deletions]

theorem wp_ormLite_init (hbetween : Between w) :
    (OrmLiteBenchmark.init env).wp (.returning fun _ w' => OrmLitePass env w w' []) w := by
  simp only [OrmLiteBenchmark.init, wp_bind]
  refine wp_deleteDatabase (fun w₁ h₁ => ?_) (fun _ => True.intro) (fun _ => True.intro)
  have hnone : w₁.objects.ormLite = none := by rw [h₁.objects, hbetween.closed.ormLite]
  simp only [DatabaseHelper.getInstance, wp_bind, wp_getState, hnone]
  refine wp_call_untouched (fun w₂ h₂ _ => ?_) (fun _ _ _ _ => True.intro)
    (fun _ => True.intro)
  have hidle : AllIdle w₂ := (h₁.idle hbetween.idle).of_files h₂.files
  refine ⟨hbetween.closed, Or.inl ⟨⟨⟨hidle, ?_, ?_⟩, ?_, ?_⟩, rfl⟩⟩
  · show { w₂.objects with ormLite := some ⟨"ormlite", none⟩ } = _
    rw [h₂.objects, h₁.objects]
  · show w₂.deletions = _
    rw [h₂.deletions, h₁.deletions]
  · exact (World.content_congr (w := w₁) h₂.names h₂.files).trans h₁.content
  · intro hempty
    show w₂.handles = ∅
    rw [h₂.handles, h₁.handles, hempty]

theorem ormLite_passes : Passes env (ormLiteBenchmark env) (fun _ => []) True (OrmLitePass env) where
  init := wp_ormLite_init
  save := wp_ormLite_save
  clearCache := wp_ormLite_clearCache
  load := wp_ormLite_load
  dispose h := wp_returning_mono (wp_ormLite_dispose h) fun _ _ h => h.1
  stored := OrmLitePass.stored

end

end OrmBenchmark.Ref
