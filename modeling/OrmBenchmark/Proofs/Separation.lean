import OrmBenchmark.Proofs.PassIsolation

/-!
# Each adapter keeps to its own database

The seven adapters share the process, its handles and its files, and some of
them leave a handle open when their pass is over. Still no adapter reaches the
database of another. A handle that an adapter holds leads to a file that no name
but that of its own database leads to, if it leads anywhere: a file is opened
under one name only, a handle is never used again for another file, and a name
that is given away gets a new file. So whatever a pass does, and wherever it is
cut off, the other databases are as they were.
-/

namespace OrmBenchmark.Ref

open OrmBenchmark.Lib OrmBenchmark.Lib.Prog

/-- The handle leads to no file that another name leads to. -/
def World.LeadsTo (w : World) (name : String) (db : Nat) : Prop :=
  db < w.next ∧ ∀ file, w.handles.lookup db = some file →
    ∀ n, n ≠ name → w.names n ≠ some file

/-- The handles that objects hold, with the database each was opened for. -/
def Objects.held (env : Android) (objects : Objects) : List (String × Nat) :=
  (objects.sqLiteHelper.toList.flatMap fun self =>
      (self.helper.mDatabase.toList ++ [self.insertStatement.db]).map fun db => ("no_orm", db)) ++
    (objects.greenDao.toList.map fun db => ("greendao", db)) ++
    ((objects.ormLite.bind SQLiteOpenHelper.mDatabase).toList.map fun db => ("ormlite", db)) ++
    (objects.activeAndroid.toList.map fun db => ("activeandroid", db)) ++
    (objects.activeAndroidSebbia.toList.map fun db => ("activeandroid_sebbia", db)) ++
    (objects.sugar.toList.map fun db => ("sugarorm.db", db)) ++
    (objects.genericDao.toList.map fun db => (env.genericDaoDatabase, db))

structure Objects.HelpersNamed (objects : Objects) : Prop where
  noOrm : ∀ self ∈ objects.sqLiteHelper, self.helper.name = "no_orm"
  ormLite : ∀ helper ∈ objects.ormLite, helper.name = "ormlite"

/-- No two databases share a file, and no object holds a handle of another's. -/
structure Separate (env : Android) (w : World) : Prop where
  named : ∀ n file, w.names n = some file → file < w.next
  opened : ∀ db file, w.handles.lookup db = some file → db < w.next ∧ file < w.next
  injective : ∀ n m file, w.names n = some file → w.names m = some file → n = m
  held : ∀ p ∈ w.objects.held env, w.LeadsTo p.1 p.2
  helpers : w.objects.HelpersNamed

/-- A world that work on the database `name` has made of `w₀`, with the handles
met on the way. -/
structure Keeps (env : Android) (name : String) (w₀ : World) (met : List (String × Nat))
    (w : World) : Prop extends Separate env w where
  known : ∀ p ∈ met, w.LeadsTo p.1 p.2
  names_eq : ∀ n, n ≠ name → w.names n = w₀.names n
  files_eq : ∀ n, n ≠ name → ∀ file, w.names n = some file → w.files file = w₀.files file

section

variable {env : Android} {name : String} {w₀ w w' : World} {met : List (String × Nat)}
  {db file : Nat} {α β : Type}

theorem Keeps.start (h : Separate env w) : Keeps env name w [] w :=
  ⟨h, fun _ hp => absurd hp List.not_mem_nil, fun _ _ => rfl, fun _ _ _ _ => rfl⟩

theorem Keeps.forget {met' : List (String × Nat)} (h : Keeps env name w₀ met w)
    (hsubset : ∀ p ∈ met', p ∈ met) : Keeps env name w₀ met' w :=
  ⟨h.toSeparate, fun p hp => h.known p (hsubset p hp), h.names_eq, h.files_eq⟩

theorem Keeps.meet (h : Keeps env name w₀ met w) {met' : List (String × Nat)}
    (hmet' : ∀ p ∈ met', w.LeadsTo p.1 p.2) : Keeps env name w₀ (met' ++ met) w := by
  refine ⟨h.toSeparate, fun p hp => ?_, h.names_eq, h.files_eq⟩
  rcases List.mem_append.1 hp with hp | hp
  · exact hmet' p hp
  · exact h.known p hp

/-- Counters and bindings are nobody's concern. -/
theorem Keeps.of_same (h : Keeps env name w₀ met w) (hnames : w'.names = w.names)
    (hfiles : w'.files = w.files) (hhandles : w'.handles = w.handles)
    (hobjects : w'.objects = w.objects) (hnext : w'.next = w.next) :
    Keeps env name w₀ met w' := by
  have hleads : ∀ n db, w.LeadsTo n db → w'.LeadsTo n db := by
    intro n db hdb
    unfold World.LeadsTo at hdb ⊢
    rw [hnext, hhandles, hnames]
    exact hdb
  refine ⟨⟨?_, ?_, ?_, ?_, ?_⟩, fun p hp => hleads _ _ (h.known p hp), ?_, ?_⟩
  · rw [hnames, hnext]
    exact h.named
  · rw [hhandles, hnext]
    exact h.opened
  · rw [hnames]
    exact h.injective
  · rw [hobjects]
    exact fun p hp => hleads _ _ (h.held p hp)
  · rw [hobjects]
    exact h.helpers
  · rw [hnames]
    exact h.names_eq
  · rw [hnames, hfiles]
    exact h.files_eq

/-! ## The library -/

theorem keeps_count {f : World → World} (hnames : ∀ w, (f w).names = w.names)
    (hfiles : ∀ w, (f w).files = w.files) (hhandles : ∀ w, (f w).handles = w.handles)
    (hobjects : ∀ w, (f w).objects = w.objects) (hnext : ∀ w, (f w).next = w.next) :
    Preserves (Keeps env name w₀ met) (modifyState f : AndroidProg Unit) :=
  preserves_modifyState fun w h =>
    h.of_same (hnames w) (hfiles w) (hhandles w) (hobjects w) (hnext w)

theorem keeps_fail {e : Throwable} :
    Preserves (Keeps env name w₀ met) (fail e : AndroidProg α) := by
  refine preserves_bind (keeps_count ?_ ?_ ?_ ?_ ?_) fun _ => preserves_raise
  all_goals exact fun _ => rfl

theorem keeps_call : Preserves (Keeps env name w₀ met) (call env) := by
  refine preserves_bind preserves_getState fun w => ?_
  refine preserves_bind (keeps_count ?_ ?_ ?_ ?_ ?_) fun _ => ?_
  · exact fun _ => rfl
  · exact fun _ => rfl
  · exact fun _ => rfl
  · exact fun _ => rfl
  · exact fun _ => rfl
  · cases env.answer w.calls with
    | ok => exact preserves_pure
    | throws e => exact keeps_fail
    | kill => exact preserves_die

/-- A change of the file that a handle of this database leads to. -/
theorem Keeps.update (h : Keeps env name w₀ met w) (hdb : w.LeadsTo name db)
    (hfile : w.handles.lookup db = some file) (s : Option (TxStore Content)) :
    Keeps env name w₀ met { w with files := Function.update w.files file s } := by
  refine ⟨⟨h.named, h.opened, h.injective, h.held, h.helpers⟩, h.known, h.names_eq, ?_⟩
  intro n hn f hf
  have hne : f ≠ file := by
    intro heq
    subst heq
    exact hdb.2 f hfile n hn hf
  show Function.update w.files file s f = w₀.files f
  rw [Function.update_of_ne hne]
  exact h.files_eq n hn f hf

theorem keeps_onStore {f : TxStore Content → Except Throwable (TxStore Content)}
    (hmet : (name, db) ∈ met) : Preserves (Keeps env name w₀ met) (onStore db f) := by
  intro w h
  simp only [onStore, wp_bind, wp_getState]
  cases hstore : w.store? db with
  | none => exact keeps_fail w h
  | some p =>
      obtain ⟨file, s⟩ := p
      cases hfs : f s with
      | error e =>
          simp only [hfs]
          exact keeps_fail w h
      | ok s' =>
          have hfile : w.handles.lookup db = some file := by
            simp only [World.store?, Option.bind_eq_some_iff, Option.map_eq_some_iff,
              Prod.mk.injEq] at hstore
            obtain ⟨_, hlookup, _, _, rfl, _⟩ := hstore
            exact hlookup
          simp only [hfs, wp_modifyState]
          exact h.update (h.known _ hmet) hfile _

theorem keeps_onTable {missing : Throwable} {f : Table → Table} (hmet : (name, db) ∈ met) :
    Preserves (Keeps env name w₀ met) (onTable db missing f) := keeps_onStore hmet

theorem keeps_getStore : Preserves (Keeps env name w₀ met) (getStore db) := by
  refine preserves_bind preserves_getState fun w => ?_
  cases w.store? db with
  | none => exact keeps_fail
  | some p => exact preserves_pure

theorem keeps_getTable {missing : Throwable} :
    Preserves (Keeps env name w₀ met) (getTable db missing) := by
  refine preserves_bind keeps_getStore fun s => ?_
  cases s.current.table with
  | none => exact keeps_fail
  | some t => exact preserves_pure

theorem keeps_beginTransaction (hmet : (name, db) ∈ met) :
    Preserves (Keeps env name w₀ met) (beginTransaction env db) :=
  preserves_bind keeps_call fun _ => keeps_onStore hmet

theorem keeps_setTransactionSuccessful (hmet : (name, db) ∈ met) :
    Preserves (Keeps env name w₀ met) (setTransactionSuccessful env db) :=
  preserves_bind keeps_call fun _ => keeps_onStore hmet

theorem keeps_endTransaction (hmet : (name, db) ∈ met) :
    Preserves (Keeps env name w₀ met) (endTransaction env db) := by
  refine preserves_bind (preserves_tryCatch keeps_call fun e => ?_) fun _ => keeps_onStore hmet
  exact preserves_bind (keeps_onStore hmet) fun _ => preserves_raise

theorem keeps_createTable {ifNotExists : Bool} {columns : List Column}
    (hmet : (name, db) ∈ met) :
    Preserves (Keeps env name w₀ met) (createTable env ifNotExists columns db) :=
  preserves_bind keeps_call fun _ => keeps_onStore hmet

theorem keeps_create {onCreate : Nat → AndroidProg Unit} (hmet : (name, db) ∈ met)
    (hcreate : Preserves (Keeps env name w₀ met) (onCreate db)) :
    Preserves (Keeps env name w₀ met) (SQLiteOpenHelper.create env onCreate db) := by
  refine preserves_bind keeps_getStore fun s => ?_
  refine preserves_ite ?_ preserves_pure
  refine preserves_bind (keeps_beginTransaction hmet) fun _ => ?_
  refine preserves_tryFinally ?_ (keeps_endTransaction hmet)
  refine preserves_bind hcreate fun _ => ?_
  exact preserves_bind (keeps_onStore hmet) fun _ => keeps_setTransactionSuccessful hmet

/-! ## Names and handles -/

/-- A new handle for the file of this name. -/
theorem Keeps.newHandle (h : Keeps env name w₀ met w) (hlt : file < w.next)
    (hfile : ∀ n, n ≠ name → w.names n ≠ some file) :
    Keeps env name w₀ ((name, w.next) :: met)
      { w with next := w.next + 1, handles := w.handles.insert w.next file } := by
  have hleads : ∀ n db, w.LeadsTo n db →
      World.LeadsTo { w with next := w.next + 1, handles := w.handles.insert w.next file }
        n db := by
    intro n db hdb
    refine ⟨Nat.lt_succ_of_lt hdb.1, fun f hf => hdb.2 f ?_⟩
    rw [← AList.lookup_insert_ne (Nat.ne_of_lt hdb.1)]
    exact hf
  refine ⟨⟨?_, ?_, h.injective, fun p hp => hleads _ _ (h.held p hp), h.helpers⟩, ?_,
    h.names_eq, h.files_eq⟩
  · exact fun n f hf => Nat.lt_succ_of_lt (h.named n f hf)
  · intro d f hd
    by_cases hnew : d = w.next
    · subst hnew
      have hd : (w.handles.insert w.next file).lookup w.next = some f := hd
      rw [AList.lookup_insert] at hd
      cases hd
      exact ⟨Nat.lt_succ_self _, Nat.lt_succ_of_lt hlt⟩
    · have hd : (w.handles.insert w.next file).lookup d = some f := hd
      rw [AList.lookup_insert_ne hnew] at hd
      obtain ⟨hdlt, hflt⟩ := h.opened d f hd
      exact ⟨Nat.lt_succ_of_lt hdlt, Nat.lt_succ_of_lt hflt⟩
  · refine List.forall_mem_cons.2 ⟨⟨Nat.lt_succ_self _, fun f hf => ?_⟩,
      fun p hp => hleads _ _ (h.known p hp)⟩
    have hf : (w.handles.insert w.next file).lookup w.next = some f := hf
    rw [AList.lookup_insert] at hf
    cases hf
    exact hfile

/-- A name that leads nowhere gets a new file. -/
theorem Keeps.newFile (h : Keeps env name w₀ met w) (hname : w.names name = none)
    (s : Option (TxStore Content)) :
    Keeps env name w₀ met
      { w with
        next := w.next + 1
        names := Function.update w.names name (some w.next)
        files := Function.update w.files w.next s } := by
  have hother : ∀ n, n ≠ name → Function.update w.names name (some w.next) n = w.names n :=
    fun n hn => Function.update_of_ne hn _ _
  have hleads : ∀ n db, w.LeadsTo n db → World.LeadsTo
      { w with
        next := w.next + 1
        names := Function.update w.names name (some w.next)
        files := Function.update w.files w.next s } n db := by
    intro n db hdb
    refine ⟨Nat.lt_succ_of_lt hdb.1, fun f hf m hm => ?_⟩
    by_cases hname' : m = name
    · subst hname'
      intro heq
      have heq : Function.update w.names m (some w.next) m = some f := heq
      rw [Function.update_self, Option.some_inj] at heq
      exact absurd (h.opened db f hf).2 (by omega)
    · show Function.update w.names name (some w.next) m ≠ some f
      rw [hother m hname']
      exact hdb.2 f hf m hm
  refine ⟨⟨?_, ?_, ?_, fun p hp => hleads _ _ (h.held p hp), h.helpers⟩,
    fun p hp => hleads _ _ (h.known p hp), ?_, ?_⟩
  · intro n f hf
    by_cases hn : n = name
    · subst hn
      have hf : Function.update w.names n (some w.next) n = some f := hf
      rw [Function.update_self] at hf
      cases hf
      exact Nat.lt_succ_self _
    · exact Nat.lt_succ_of_lt (h.named n f (by rw [← hother n hn]; exact hf))
  · intro d f hd
    obtain ⟨hdlt, hflt⟩ := h.opened d f hd
    exact ⟨Nat.lt_succ_of_lt hdlt, Nat.lt_succ_of_lt hflt⟩
  · intro n m f hn hm
    have hnew : ∀ k, k ≠ name → Function.update w.names name (some w.next) k = some f →
        f < w.next := fun k hk hf => h.named k f (by rw [← hother k hk]; exact hf)
    by_cases hn' : n = name
    · by_cases hm' : m = name
      · rw [hn', hm']
      · have hlt := hnew m hm' hm
        have hn : Function.update w.names name (some w.next) n = some f := hn
        rw [hn', Function.update_self, Option.some_inj] at hn
        omega
    · by_cases hm' : m = name
      · have hlt := hnew n hn' hn
        have hm : Function.update w.names name (some w.next) m = some f := hm
        rw [hm', Function.update_self, Option.some_inj] at hm
        omega
      · have hn : w.names n = some f := by rw [← hother n hn']; exact hn
        have hm : w.names m = some f := by rw [← hother m hm']; exact hm
        exact h.injective n m f hn hm
  · intro n hn
    rw [← h.names_eq n hn]
    exact hother n hn
  · intro n hn f hf
    have hf : w.names n = some f := by
      rw [← hother n hn]
      exact hf
    show Function.update w.files w.next s f = w₀.files f
    rw [Function.update_of_ne (Nat.ne_of_lt (h.named n f hf))]
    exact h.files_eq n hn f hf

/-- A program that comes back with handles of this database, and with more. -/
def Finds (env : Android) (name : String) (w₀ : World) (met : List (String × Nat))
    (m : AndroidProg α) (handles : α → List Nat) (more : α → Prop) : Prop :=
  ∀ w, Keeps env name w₀ met w →
    m.wp
      { ok := fun a w' => more a ∧
          Keeps env name w₀ ((handles a).map (fun db => (name, db)) ++ met) w'
        throws := fun _ w' => Keeps env name w₀ met w'
        dead := fun w' => Keeps env name w₀ met w' } w

theorem Keeps.forget_left {met' : List (String × Nat)} (h : Keeps env name w₀ (met' ++ met) w) :
    Keeps env name w₀ met w :=
  h.forget fun _ hp => List.mem_append_right _ hp

/-- What goes on with the handles, and forgets them again. -/
theorem Finds.bind {m : AndroidProg α} {handles : α → List Nat} {more : α → Prop}
    {f : α → AndroidProg β} (hm : Finds env name w₀ met m handles more)
    (hf : ∀ a, more a →
      Preserves (Keeps env name w₀ ((handles a).map (fun db => (name, db)) ++ met)) (f a)) :
    Preserves (Keeps env name w₀ met) (m >>= f) := by
  intro w h
  rw [wp_bind]
  refine wp_mono (hm w h) ?_ (fun _ _ h' => h') (fun _ h' => h')
  intro a w' hpost
  obtain ⟨hmore, h'⟩ := hpost
  exact wp_mono (hf a hmore w' h') (fun _ _ h'' => h''.forget_left)
    (fun _ _ h'' => h''.forget_left) (fun _ h'' => h''.forget_left)

/-- … or finds others with them. -/
theorem Finds.andThen {m : AndroidProg α} {handles : α → List Nat} {more : α → Prop}
    {f : α → AndroidProg β} {handles' : β → List Nat} {more' : β → Prop}
    (hm : Finds env name w₀ met m handles more)
    (hf : ∀ a, more a →
      Finds env name w₀ ((handles a).map (fun db => (name, db)) ++ met) (f a) handles' more') :
    Finds env name w₀ met (m >>= f) handles' more' := by
  intro w h
  rw [wp_bind]
  refine wp_mono (hm w h) ?_ (fun _ _ h' => h') (fun _ h' => h')
  intro a w' hpost
  obtain ⟨hmore, h'⟩ := hpost
  refine wp_mono (hf a hmore w' h') ?_ (fun _ _ h'' => h''.forget_left)
    (fun _ h'' => h''.forget_left)
  intro b w'' hpost'
  obtain ⟨hmore', h''⟩ := hpost'
  refine ⟨hmore', h''.forget fun p hp => ?_⟩
  rcases List.mem_append.1 hp with hp | hp
  · exact List.mem_append_left _ hp
  · exact List.mem_append_right _ (List.mem_append_right _ hp)

theorem Finds.of_preserves {m : AndroidProg α} (hm : Preserves (Keeps env name w₀ met) m) :
    Finds env name w₀ met m (fun _ => []) fun _ => True := fun w h =>
  wp_mono (hm w h) (fun _ _ h' => ⟨True.intro, h'⟩) (fun _ _ h' => h') (fun _ h' => h')

theorem finds_pure {a : α} {handles : α → List Nat} {more : α → Prop} (hmore : more a)
    (hmet : ∀ db ∈ handles a, (name, db) ∈ met) :
    Finds env name w₀ met (pure a) handles more := by
  intro w h
  refine ⟨hmore, h.meet fun p hp => ?_⟩
  obtain ⟨db, hdb, rfl⟩ := List.mem_map.1 hp
  exact h.known _ (hmet db hdb)

theorem finds_openDatabase :
    Finds env name w₀ met (openDatabase env name) (fun db => [db]) fun _ => True := by
  intro w h
  simp only [openDatabase, wp_bind]
  refine wp_mono (keeps_call w h) ?_ (fun _ _ h' => h') (fun _ h' => h')
  intro _ w₁ h₁
  simp only [wp_bind, wp_getState]
  cases hname : w₁.names name with
  | some file =>
      refine ⟨True.intro, h₁.newHandle (h₁.named name file hname) fun n hn hn' => ?_⟩
      exact hn (h₁.injective n name file hn' hname)
  | none =>
      have h₂ := h₁.newFile hname (some (.ofCommitted ⟨0, none⟩))
      refine ⟨True.intro, h₂.newHandle (Nat.lt_succ_self _) fun n hn hn' => ?_⟩
      have hn' : Function.update w₁.names name (some w₁.next) n = some w₁.next := hn'
      rw [Function.update_of_ne hn] at hn'
      exact absurd (h₁.named n _ hn') (Nat.lt_irrefl _)

theorem keeps_closeHandle (hmet : (name, db) ∈ met) :
    Preserves (Keeps env name w₀ met) (closeHandle db) := by
  intro w h
  simp only [closeHandle, wp_modifyState]
  cases hfile : w.handles.lookup db with
  | none => exact h
  | some file =>
      have h' := h.update (h.known _ hmet) hfile ((w.files file).map TxStore.abandon)
      have hlookup : ∀ d f, (w.handles.erase db).lookup d = some f →
          w.handles.lookup d = some f := by
        intro d f hd
        by_cases hd' : d = db
        · subst hd'
          rw [AList.lookup_erase] at hd
          cases hd
        · rw [AList.lookup_erase_ne hd'] at hd
          exact hd
      have hleads : ∀ n d, w.LeadsTo n d → World.LeadsTo
          { w with
            files := Function.update w.files file ((w.files file).map TxStore.abandon)
            handles := w.handles.erase db } n d :=
        fun n d hd => ⟨hd.1, fun f hf => hd.2 f (hlookup d f hf)⟩
      exact ⟨⟨h'.named, fun d f hd => h.opened d f (hlookup d f hd), h'.injective,
        fun p hp => hleads _ _ (h.held p hp), h'.helpers⟩,
        fun p hp => hleads _ _ (h.known p hp), h'.names_eq, h'.files_eq⟩

theorem keeps_deleteDatabase :
    Preserves (Keeps env name w₀ met) (deleteDatabase env name) := by
  refine preserves_bind keeps_call fun _ => preserves_modifyState fun w h => ?_
  have hfree : ∀ n f, Function.update w.names name none n = some f →
      n ≠ name ∧ w.names n = some f := by
    intro n f hf
    by_cases hn : n = name
    · subst hn
      rw [Function.update_self] at hf
      cases hf
    · rw [Function.update_of_ne hn] at hf
      exact ⟨hn, hf⟩
  have hleads : ∀ n db, w.LeadsTo n db → World.LeadsTo
      { w with
        names := Function.update w.names name none
        deletions := w.deletions ++ [(name, w.isOpen name)] } n db :=
    fun n db hdb => ⟨hdb.1, fun f hf m hm hm' => hdb.2 f hf m hm (hfree m f hm').2⟩
  refine ⟨⟨fun n f hf => h.named n f (hfree n f hf).2, h.opened, ?_,
    fun p hp => hleads _ _ (h.held p hp), h.helpers⟩, fun p hp => hleads _ _ (h.known p hp),
    ?_, ?_⟩
  · exact fun n m f hn hm => h.injective n m f (hfree n f hn).2 (hfree m f hm).2
  · intro n hn
    rw [← h.names_eq n hn]
    exact Function.update_of_ne hn _ _
  · exact fun n hn f hf => h.files_eq n hn f (hfree n f hf).2

theorem finds_getWritableDatabase {onCreate : Nat → AndroidProg Unit} {helper : SQLiteOpenHelper}
    (hname : helper.name = name) (hmet : ∀ db ∈ helper.mDatabase, (name, db) ∈ met)
    (hcreate : ∀ {db met'}, (name, db) ∈ met' →
      Preserves (Keeps env name w₀ met') (onCreate db)) :
    Finds env name w₀ met (helper.getWritableDatabase env onCreate) (fun r => [r.1])
      fun r => r.2.name = name ∧ r.2.mDatabase = some r.1 := by
  unfold SQLiteOpenHelper.getWritableDatabase
  cases hdb : helper.mDatabase with
  | some db =>
      refine finds_pure ⟨hname, hdb⟩ fun d hd => ?_
      rw [List.mem_singleton.1 hd]
      exact hmet db hdb
  | none =>
      subst hname
      refine finds_openDatabase.andThen fun db _ => ?_
      have hmem : (helper.name, db) ∈ [db].map (fun db => (helper.name, db)) ++ met :=
        List.mem_append_left _ (List.mem_singleton.2 rfl)
      refine (Finds.of_preserves ?_).andThen fun _ _ => finds_pure ⟨rfl, rfl⟩ fun d hd => ?_
      · exact preserves_tryCatch (keeps_create hmem (hcreate hmem)) fun e =>
          preserves_bind (keeps_closeHandle hmem) fun _ => preserves_raise
      · rw [List.mem_singleton.1 hd]
        exact hmem

/-- A helper that has nothing open. -/
theorem finds_openNew {onCreate : Nat → AndroidProg Unit}
    (hcreate : ∀ {db met'}, (name, db) ∈ met' →
      Preserves (Keeps env name w₀ met') (onCreate db)) :
    Finds env name w₀ met (SQLiteOpenHelper.getWritableDatabase env onCreate ⟨name, none⟩)
      (fun r => [r.1]) fun r => r.2.name = name ∧ r.2.mDatabase = some r.1 :=
  finds_getWritableDatabase rfl (fun _ hdb => absurd hdb (Option.not_mem_none _)) hcreate

theorem finds_close {helper : SQLiteOpenHelper} (hname : helper.name = name)
    (hmet : ∀ db ∈ helper.mDatabase, (name, db) ∈ met) :
    Finds env name w₀ met (helper.close env) (fun helper' => helper'.mDatabase.toList)
      fun helper' => helper'.name = name := by
  unfold SQLiteOpenHelper.close
  cases hdb : helper.mDatabase with
  | none => exact finds_pure hname fun db h => by simp [hdb] at h
  | some db =>
      refine (Finds.of_preserves keeps_call).andThen fun _ _ => ?_
      refine (Finds.of_preserves (keeps_closeHandle (hmet db hdb))).andThen fun _ _ => ?_
      exact finds_pure hname fun _ h => absurd h List.not_mem_nil

/-- New objects that hold what the old ones held or what was met. -/
theorem Keeps.setObjects (h : Keeps env name w₀ met w) {objects : Objects}
    (hheld : ∀ p ∈ objects.held env, p ∈ w.objects.held env ∨ p ∈ met)
    (hhelpers : objects.HelpersNamed) :
    Keeps env name w₀ met { w with objects := objects } := by
  refine ⟨⟨h.named, h.opened, h.injective, fun p hp => ?_, hhelpers⟩, h.known, h.names_eq,
    h.files_eq⟩
  rcases hheld p hp with hold | hmet
  · exact h.held p hold
  · exact h.known p hmet

end

end OrmBenchmark.Ref
