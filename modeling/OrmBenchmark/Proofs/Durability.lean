import OrmBenchmark.Proofs.FaultFree
import OrmBenchmark.Proofs.Noninterference

/-!
# What a broken pass can leave behind

Passes fail and are killed, and the next process begins with what they left.
Two adapters open a database they have not deleted, and would not find their
table in one whose version was set without it. But the version is set in the
transaction that creates the table, so wherever that is cut off a database has
both or neither. The other five delete first, and keep to their own.
-/

namespace OrmBenchmark.Ref

open OrmBenchmark.Lib OrmBenchmark.Lib.Prog

section

variable {env : Android} {w w' : World} {name : String} {s s' : TxStore Content} {db : Nat}
  {slot : Slot} {α : Type}

/-! ## What keeps a database whole -/

def WholeStore (s : TxStore Content) : Prop := s.committed.Whole ∧ s.current.Whole

theorem WholeStore.update {f : Content → Content} (h : WholeStore s) (hf : (f s.current).Whole) :
    WholeStore (s.update f) := by
  refine ⟨?_, hf⟩
  show Content.Whole (if s.levels = [] then f s.current else s.committed)
  split
  · exact hf
  · exact h.1

theorem WholeStore.mark (h : WholeStore s) (hmark : s.mark = some s') : WholeStore s' := by
  unfold TxStore.mark at hmark
  split at hmark
  · cases hmark
  · split at hmark
    · cases hmark
    · cases hmark
      exact h

theorem WholeStore.finish {commits : Bool} (h : WholeStore s)
    (hfinish : s.finish commits = some s') : WholeStore s' := by
  unfold TxStore.finish at hfinish
  split at hfinish
  · cases hfinish
  · split at hfinish
    · cases hfinish
      exact ⟨h.2, h.2⟩
    · cases hfinish
      exact ⟨h.1, h.1⟩
  · cases hfinish
    exact h

theorem World.Whole.of_same (h : w.Whole name) (hnames : w'.names = w.names)
    (hfiles : w'.files = w.files) : w'.Whole name := by
  intro file hfile
  rw [hnames] at hfile
  rw [hfiles]
  exact h file hfile

theorem World.Whole.restart (h : w.Whole name) : w.restart.Whole name := by
  intro file hfile
  obtain ⟨s, hs, hcommitted, _⟩ := h file hfile
  refine ⟨s.abandon, ?_, hcommitted, hcommitted⟩
  show (w.files file).map TxStore.abandon = some s.abandon
  rw [hs]
  rfl

theorem whole_fail {e : Throwable} :
    Preserves (fun w => w.Whole name) (fail e : AndroidProg α) :=
  preserves_bind (preserves_modifyState fun _ h => h) fun _ => preserves_raise

theorem whole_call : Preserves (fun w => w.Whole name) (call env) := by
  refine preserves_bind preserves_getState fun w => ?_
  refine preserves_bind (preserves_modifyState fun _ h => h) fun _ => ?_
  cases env.answer w.calls with
  | ok => exact preserves_pure
  | throws e => exact whole_fail
  | kill => exact preserves_die

theorem World.store?_eq_some {file : Nat} :
    w.store? db = some (file, s) ↔ w.handles.lookup db = some file ∧ w.files file = some s := by
  simp only [World.store?, Option.bind_eq_some_iff, Option.map_eq_some_iff, Prod.mk.injEq]
  constructor
  · intro h
    obtain ⟨_, hlookup, _, hheld, rfl, rfl⟩ := h
    exact ⟨hlookup, hheld⟩
  · intro h
    exact ⟨file, h.1, s, h.2, rfl, rfl⟩

/-- What a change behind a handle comes to. -/
theorem wp_onStore {f : TxStore Content → Except Throwable (TxStore Content)}
    {Q : Post World Throwable Unit}
    (hok : ∀ file s s', w.handles.lookup db = some file → w.files file = some s → f s = .ok s' →
      Q.ok () { w with files := Function.update w.files file (some s') })
    (hthrows : ∀ e, Q.throws e { w with failures := w.failures + 1 }) :
    (onStore db f).wp Q w := by
  simp only [onStore, wp_bind, wp_getState]
  cases hstore : w.store? db with
  | none => exact hthrows _
  | some p =>
      obtain ⟨file, s⟩ := p
      obtain ⟨hlookup, hheld⟩ := World.store?_eq_some.1 hstore
      cases hfs : f s with
      | error e =>
          simp only [hfs]
          exact hthrows e
      | ok s' =>
          simp only [hfs, wp_modifyState]
          exact hok file s s' hlookup hheld hfs

/-- The file another name leads to is as it was, or the same file. -/
theorem World.Whole.update {file : Nat} (h : w.Whole name) (hheld : w.files file = some s)
    (hs : WholeStore s → WholeStore s') :
    { w with files := Function.update w.files file (some s') }.Whole name := by
  intro g hg
  obtain ⟨s₀, hs₀, hwhole⟩ := h g hg
  by_cases hfile : g = file
  · subst hfile
    cases hheld.symm.trans hs₀
    exact ⟨s', Function.update_self _ _ _, hs hwhole⟩
  · exact ⟨s₀, (Function.update_of_ne hfile _ _).trans hs₀, hwhole⟩

/-- A change behind any handle that makes whole of whole. -/
theorem whole_onStore {f : TxStore Content → Except Throwable (TxStore Content)}
    (hf : ∀ s s', WholeStore s → f s = .ok s' → WholeStore s') :
    Preserves (fun w => w.Whole name) (onStore db f) := fun _ h =>
  wp_onStore (fun _ s s' _ hheld hfs => h.update hheld fun hwhole => hf s s' hwhole hfs)
    (fun _ => h)

theorem whole_onTable {missing : Throwable} {f : Table → Table} :
    Preserves (fun w => w.Whole name) (onTable db missing f) := by
  refine whole_onStore fun s s' h hs => ?_
  split at hs
  · cases hs
  · cases hs
    exact h.update fun _ => Option.some_ne_none _

theorem whole_getStore : Preserves (fun w => w.Whole name) (getStore db) := by
  refine preserves_bind preserves_getState fun w => ?_
  cases w.store? db with
  | none => exact whole_fail
  | some p => exact preserves_pure

theorem whole_getTable {missing : Throwable} :
    Preserves (fun w => w.Whole name) (getTable db missing) := by
  refine preserves_bind whole_getStore fun s => ?_
  cases s.current.table with
  | none => exact whole_fail
  | some t => exact preserves_pure

theorem whole_beginTransaction :
    Preserves (fun w => w.Whole name) (beginTransaction env db) := by
  refine preserves_bind whole_call fun _ => whole_onStore fun s s' h hs => ?_
  cases hs
  exact h

theorem whole_setTransactionSuccessful :
    Preserves (fun w => w.Whole name) (setTransactionSuccessful env db) := by
  refine preserves_bind whole_call fun _ => whole_onStore fun s s' h hs => ?_
  split at hs
  · cases hs
  · next hmark =>
      cases hs
      exact h.mark hmark

theorem whole_endTransaction : Preserves (fun w => w.Whole name) (endTransaction env db) := by
  have hfinish : ∀ commits,
      Preserves (fun w => w.Whole name) (finishTransaction db commits) := by
    intro commits
    refine whole_onStore fun s s' h hs => ?_
    split at hs
    · cases hs
    · next hfinish =>
        cases hs
        exact h.finish hfinish
  exact preserves_bind (preserves_tryCatch whole_call fun e =>
    preserves_bind (hfinish false) fun _ => preserves_raise) fun _ => hfinish true

/-- The version is set where the table has just been made. -/
theorem whole_createAndSetVersion {columns : List Column} {ifNotExists : Bool} :
    Preserves (fun w => w.Whole name) (do
      createTable env ifNotExists columns db
      onStore db fun s => .ok (s.update fun content => { content with version := 1 })) := by
  intro w h
  have hcreate : (createTable env ifNotExists columns db).wp
      { ok := fun _ w' => w'.Whole name ∧ ∀ file s, w'.handles.lookup db = some file →
          w'.files file = some s → s.current.table ≠ none
        throws := fun _ w' => w'.Whole name
        dead := fun w' => w'.Whole name } w := by
    rw [createTable, wp_bind]
    refine wp_mono (whole_call w h) (fun _ w₁ h₁ => ?_) (fun _ _ h => h) (fun _ h => h)
    refine wp_onStore (fun file s s' hlookup hheld hfs => ?_) fun _ => h₁
    have hmade : s'.current.table ≠ none := by
      split at hfs
      · cases hfs
        exact Option.some_ne_none _
      · next t htable =>
          split at hfs
          · cases hfs
            rw [htable]
            exact Option.some_ne_none t
          · cases hfs
    refine ⟨h₁.update hheld fun hwhole => ?_, ?_⟩
    · split at hfs
      · cases hfs
        exact hwhole.update fun _ => Option.some_ne_none _
      · split at hfs
        · cases hfs
          exact hwhole
        · cases hfs
    · intro g s₂ hg hs₂
      cases hlookup.symm.trans hg
      cases (Function.update_self file _ w₁.files).symm.trans hs₂
      exact hmade
  rw [wp_bind]
  refine wp_mono hcreate (fun _ w₁ hpost => ?_) (fun _ _ h => h) (fun _ h => h)
  obtain ⟨h₁, htable⟩ := hpost
  refine wp_onStore (fun file s s' hlookup hheld hfs => ?_) fun _ => h₁
  cases hfs
  exact h₁.update hheld fun hwhole => hwhole.update fun _ => htable file s hlookup hheld

theorem whole_create {columns : List Column} {ifNotExists : Bool} :
    Preserves (fun w => w.Whole name)
      (SQLiteOpenHelper.create env (createTable env ifNotExists columns) db) := by
  refine preserves_bind whole_getStore fun s => preserves_ite ?_ preserves_pure
  refine preserves_bind whole_beginTransaction fun _ => preserves_tryFinally ?_
    whole_endTransaction
  have hcreate : Preserves (fun w => w.Whole name) (do
      createTable env ifNotExists columns db
      onStore db fun s => .ok (s.update fun content => { content with version := 1 })) :=
    whole_createAndSetVersion
  have hmark : Preserves (fun w => w.Whole name) (setTransactionSuccessful env db) :=
    whole_setTransactionSuccessful
  have hbody := preserves_bind hcreate fun _ => hmark
  rw [Prog.bind_bind] at hbody
  exact hbody

theorem whole_openDatabase {name' : String} :
    Preserves (fun w => w.Whole name) (openDatabase env name') := by
  refine preserves_bind whole_call fun _ w h => ?_
  simp only [wp_bind, wp_getState]
  cases hname : w.names name' with
  | some file => exact h
  | none =>
      simp only [wp_bind, wp_newNumber, wp_modifyState, wp_newHandle']
      intro g hg
      have hnew : WholeStore (TxStore.ofCommitted ⟨0, none⟩) :=
        ⟨fun hversion => absurd rfl hversion, fun hversion => absurd rfl hversion⟩
      by_cases hfile : g = w.next
      · subst hfile
        exact ⟨_, Function.update_self _ _ _, hnew⟩
      · have hleads : w.names name = some g := by
          by_cases hn : name = name'
          · subst hn
            cases (Function.update_self name _ w.names).symm.trans hg
            exact absurd rfl hfile
          · exact (Function.update_of_ne hn _ _).symm.trans hg
        obtain ⟨s, hs, hwhole⟩ := h g hleads
        exact ⟨s, (Function.update_of_ne hfile _ _).trans hs, hwhole⟩

theorem whole_closeHandle :
    Preserves (fun w => w.Whole name) (closeHandle db : AndroidProg Unit) := by
  refine preserves_modifyState fun w h => ?_
  cases hlookup : w.handles.lookup db with
  | none => exact h
  | some file =>
      intro g hg
      obtain ⟨s, hs, hwhole⟩ := h g hg
      by_cases hfile : g = file
      · subst hfile
        refine ⟨s.abandon, ?_, hwhole.1, hwhole.1⟩
        show Function.update w.files g _ g = _
        rw [Function.update_self, hs]
        rfl
      · exact ⟨s, (Function.update_of_ne hfile _ _).trans hs, hwhole⟩

theorem whole_deleteDatabase {name' : String} :
    Preserves (fun w => w.Whole name) (deleteDatabase env name') := by
  refine preserves_bind whole_call fun _ => preserves_modifyState fun w h file hfile => ?_
  by_cases hn : name = name'
  · subst hn
    cases (Function.update_self name _ w.names).symm.trans hfile
  · exact h file ((Function.update_of_ne hn _ _).symm.trans hfile)

theorem whole_slotDb : Preserves (fun w => w.Whole name) slot.db := by
  refine preserves_bind preserves_getState fun w => ?_
  cases slot.get w.objects with
  | none => exact preserves_raise
  | some db => exact preserves_pure

theorem whole_open' {name' : String} :
    Preserves (fun w => w.Whole name) (slot.open' env name') := by
  refine preserves_bind ?_ fun _ => preserves_modifyState fun _ h => h
  refine preserves_bind whole_openDatabase fun db => ?_
  refine preserves_bind (preserves_tryCatch whole_create fun e => ?_) fun _ => preserves_pure
  exact preserves_bind whole_closeHandle fun _ => preserves_raise

theorem whole_close : Preserves (fun w => w.Whole name) (slot.close env) := by
  refine preserves_bind preserves_getState fun w => ?_
  cases slot.get w.objects with
  | none => exact preserves_pure
  | some db =>
      exact preserves_bind whole_call fun _ => preserves_bind whole_closeHandle fun _ =>
        preserves_modifyState fun _ h => h

theorem whole_saveModels {entities : List Entity} :
    Preserves (fun w => w.Whole name) (saveModels env slot entities) :=
  preserves_bind whole_slotDb fun _ => preserves_bind whole_call fun _ => whole_onTable

theorem whole_select : Preserves (fun w => w.Whole name) (select env slot) := by
  refine preserves_bind whole_slotDb fun _ => preserves_bind ?_ fun _ => preserves_pure
  exact preserves_bind whole_call fun _ => preserves_bind whole_getTable fun _ => preserves_pure

theorem whole_activeAndroidPass {x : ExecEnv} {results : List TimeMeasure} :
    Preserves (fun s : Exec World => s.world.Whole name)
      (runPass x (activeAndroidBenchmark env) results) := by
  refine preserves_world_runPass (I := fun w => w.Whole name) ?_ (fun entities => ?_) ?_ ?_ ?_
  · refine preserves_bind preserves_getState fun w => ?_
    cases ActiveAndroidBenchmark.slot.get w.objects with
    | none => exact whole_open'
    | some db => exact preserves_pure
  · refine preserves_tryFinally ?_ (preserves_bind whole_slotDb fun _ => whole_endTransaction)
    refine preserves_bind whole_slotDb fun _ => preserves_bind whole_beginTransaction fun _ => ?_
    refine preserves_bind (preserves_forEach (fun _ => whole_saveModels) entities) fun _ => ?_
    exact preserves_bind whole_slotDb fun _ => whole_setTransactionSuccessful
  · exact whole_call
  · exact whole_select
  · exact preserves_bind whole_close fun _ => whole_deleteDatabase

theorem whole_genericDaoPass {x : ExecEnv} {results : List TimeMeasure} :
    Preserves (fun s : Exec World => s.world.Whole name)
      (runPass x (genericDaoBenchmark env) results) := by
  refine preserves_world_runPass (I := fun w => w.Whole name) ?_ (fun entities => ?_) ?_ ?_ ?_
  · refine preserves_bind whole_call fun _ => preserves_bind whole_open' fun _ => ?_
    exact preserves_bind whole_slotDb fun _ => preserves_bind whole_call fun _ => whole_onTable
  · exact whole_saveModels
  · exact preserves_pure
  · exact whole_select
  · exact preserves_pure

/-! ## What earlier passes can leave -/

/-- What every pass finds, whatever became of the passes before. -/
structure Durable (env : Android) (w : World) : Prop where
  separate : Separate env w
  activeAndroid : w.Whole "activeandroid"
  genericDao : w.Whole env.genericDaoDatabase

/-- The library's own database is none of those the application names. -/
def Android.GenericDaoApart (env : Android) : Prop :=
  env.genericDaoDatabase ∉
    ["no_orm", "greendao", "ormlite", "activeandroid", "activeandroid_sebbia", "sugarorm.db"]

theorem Durable.empty : Durable env World.empty where
  separate := Separate.empty
  activeAndroid _ hfile := absurd hfile (Option.some_ne_none _).symm
  genericDao _ hfile := absurd hfile (Option.some_ne_none _).symm

theorem Durable.restart (h : Durable env w) : Durable env w.restart :=
  ⟨h.separate.restart, h.activeAndroid.restart, h.genericDao.restart⟩

variable {w₀ : World} {met : List (String × Nat)} {x : ExecEnv} {b : Benchmark World}

theorem Keeps.whole {n : String} (h : Keeps env name w₀ met w) (hn : n ≠ name)
    (hwhole : w₀.Whole n) : w.Whole n := by
  intro file hfile
  rw [h.files_eq n hn file hfile]
  rw [h.names_eq n hn] at hfile
  exact hwhole file hfile

/-- Two adapters keep a database whole because of what they do to it, the others
because they do nothing to it. -/
theorem durable_runPass (hapart : env.GenericDaoApart) (hb : b ∈ benchmarks env)
    {results : List TimeMeasure} :
    Preserves (fun s : Exec World => Durable env s.world) (runPass x b results) := by
  refine preserves_of_exit fun s r s' hdurable hrun => ?_
  have hkeeps : Keeps env (database env b.getName) s.world [] s'.world :=
    (exists_keepsTo hb).runPass.of_run (Keeps.start hdurable.separate) hrun
  have hothers : database env b.getName ≠ "activeandroid" →
      database env b.getName ∈ ["no_orm", "greendao", "ormlite", "activeandroid",
        "activeandroid_sebbia", "sugarorm.db"] → Durable env s'.world := by
    intro hactive hgeneric
    refine ⟨hkeeps.toSeparate, hkeeps.whole hactive.symm hdurable.activeAndroid,
      hkeeps.whole (fun heq => hapart ?_) hdurable.genericDao⟩
    rw [heq]
    exact hgeneric
  simp only [benchmarks, List.mem_cons, List.not_mem_nil, or_false] at hb
  rcases hb with rfl | rfl | rfl | rfl | rfl | rfl | rfl
  · exact hothers (by simp [database, noOrmBenchmark]) (by simp [database, noOrmBenchmark])
  · exact hothers (by simp [database, greenDaoBenchmark]) (by simp [database, greenDaoBenchmark])
  · exact hothers (by simp [database, ormLiteBenchmark]) (by simp [database, ormLiteBenchmark])
  · exact ⟨hkeeps.toSeparate, whole_activeAndroidPass.of_run hdurable.activeAndroid hrun,
      whole_activeAndroidPass.of_run hdurable.genericDao hrun⟩
  · exact hothers (by simp [database, activeAndroidSebbiaBenchmark])
      (by simp [database, activeAndroidSebbiaBenchmark])
  · exact hothers (by simp [database, sugarOrmBenchmark]) (by simp [database, sugarOrmBenchmark])
  · exact ⟨hkeeps.toSeparate, whole_genericDaoPass.of_run hdurable.activeAndroid hrun,
      whole_genericDaoPass.of_run hdurable.genericDao hrun⟩

theorem Durable.nextPass {i : Nat} {s s' : Exec World} (hapart : env.GenericDaoApart)
    (h : Durable env s.world) (hstep : nextPass env x s i = some s') : Durable env s'.world := by
  obtain ⟨b, hb, hnext⟩ := Option.map_eq_some_iff.1 hstep
  cases hrun : runPass x b [] { s with trace := [] } with
  | mk exit s₁ =>
      have h₁ : Durable env s₁.world :=
        (durable_runPass hapart (List.mem_of_getElem? hb)).of_run
          (s := { s with trace := [] }) h hrun
      rw [hrun] at hnext
      cases exit with
      | ok results =>
          subst hnext
          exact h₁
      | throws e =>
          subst hnext
          exact h₁.restart
      | dead =>
          subst hnext
          exact h₁.restart

end

end OrmBenchmark.Ref
