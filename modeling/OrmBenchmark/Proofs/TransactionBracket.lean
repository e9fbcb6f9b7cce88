import OrmBenchmark.Proofs.NoOrmStore
import OrmBenchmark.Ref.Adapters

/-!
# The begin inside the block

Three methods begin a transaction inside the block whose `finally` ends one.
Each runs its steps in order: the begin, the saves, the mark. Whichever of them
fails, an end follows, and that is right for every step but the first. After a
begin that failed there is either no transaction to end, and the exception of
the end replaces that of the begin, or there is an enclosing one, and the end is
its end.

Every step after the begin leaves the depth alone, so one argument does for all
three.
-/

namespace OrmBenchmark.Ref

open OrmBenchmark.Lib OrmBenchmark.Lib.Prog

/-- The transaction nesting depth of an open database. -/
def World.depth (w : World) (db : Nat) : Option Nat :=
  (w.store? db).map fun p => p.2.levels.length

/-- One of the methods, with the database it works on and its saves. -/
structure Bracket where
  method : List Entity → AndroidProg Unit
  db : Objects → Option Nat
  saves : List Entity → List (AndroidProg Unit)

def noOrmBracket (env : Android) : Bracket where
  method := NoOrmSQLiteHelper.insertInTransaction env
  db objects := objects.sqLiteHelper.bind fun self => self.helper.mDatabase
  saves entities := entities.map (NoOrmSQLiteHelper.insert env)

def activeAndroidBracket (env : Android) : Bracket where
  method := ActiveAndroidBenchmark.saveEntitiesInTransaction env
  db := Objects.activeAndroid
  saves entities :=
    entities.map fun entity => saveModels env ActiveAndroidBenchmark.slot [entity]

def activeAndroidSebbiaBracket (env : Android) : Bracket where
  method := ActiveAndroidSebbiaBenchmark.saveEntitiesInTransaction env
  db := Objects.activeAndroidSebbia
  saves entities := [saveModels env ActiveAndroidSebbiaBenchmark.slot entities]

def brackets (env : Android) : List Bracket :=
  [noOrmBracket env, activeAndroidBracket env, activeAndroidSebbiaBracket env]

/-- The steps in the block, on this database. -/
def Bracket.steps (b : Bracket) (env : Android) (db : Nat) (entities : List Entity) :
    List (AndroidProg Unit) :=
  beginTransaction env db :: b.saves entities ++ [setTransactionSuccessful env db]

/-- The method throws this, and the depth is what it was. -/
def Bracket.Balanced (b : Bracket) (w : World) (db : Nat) (entities : List Entity)
    (e : Throwable) : Prop :=
  (b.method entities w).1 = .throws e ∧ (b.method entities w).2.depth db = w.depth db

/-! ## What leaves the depth alone -/

/-- The process has these objects, and the database this depth. -/
def AtDepth (objects : Objects) (db d : Nat) (w : World) : Prop :=
  w.objects = objects ∧ w.depth db = some d

section

variable {env : Android} {objects : Objects} {db db' d : Nat} {w : World} {α : Type}

theorem preserves_fail {e : Throwable} :
    Preserves (AtDepth objects db d) (fail e : AndroidProg α) :=
  preserves_bind (preserves_modifyState fun _ h => h) fun _ => preserves_raise

theorem preserves_call : Preserves (AtDepth objects db d) (call env) := by
  refine preserves_bind preserves_getState fun w => ?_
  refine preserves_bind (preserves_modifyState fun _ h => h) fun _ => ?_
  cases env.answer w.calls with
  | ok => exact preserves_pure
  | throws e => exact preserves_fail
  | kill => exact preserves_die

/-- A change behind any handle that opens and ends no level. -/
theorem preserves_onStore {f : TxStore Content → Except Throwable (TxStore Content)}
    (hf : ∀ s s', f s = .ok s' → s'.levels.length = s.levels.length) :
    Preserves (AtDepth objects db d) (onStore db' f) := by
  intro w h
  simp only [onStore, wp_bind, wp_getState]
  cases hstore : w.store? db' with
  | none => exact h
  | some p =>
      obtain ⟨file, s⟩ := p
      cases hfs : f s with
      | error e =>
          simp only [hfs]
          exact h
      | ok s' =>
          simp only [hfs, wp_modifyState]
          refine ⟨h.1, Eq.trans ?_ h.2⟩
          simp only [World.depth, World.store?]
          cases hdb : w.handles.lookup db with
          | none => rfl
          | some g =>
              by_cases hg : g = file
              · subst hg
                have hheld : w.files g = some s := by
                  simp only [World.store?, Option.bind_eq_some_iff, Option.map_eq_some_iff,
                    Prod.mk.injEq] at hstore
                  obtain ⟨_, _, _, hs, rfl, rfl⟩ := hstore
                  exact hs
                simp [hheld, hf s s' hfs]
              · simp [Function.update_of_ne hg]

theorem preserves_onTable {missing : Throwable} {f : Table → Table} :
    Preserves (AtDepth objects db d) (onTable db' missing f) := by
  refine preserves_onStore fun s s' hs => ?_
  split at hs
  · cases hs
  · cases hs
    rfl

theorem preserves_setTransactionSuccessful :
    Preserves (AtDepth objects db d) (setTransactionSuccessful env db') := by
  refine preserves_bind preserves_call fun _ => preserves_onStore fun s s' hs => ?_
  split at hs
  · cases hs
  · next hmark =>
      cases hs
      exact TxStore.depth_mark hmark

/-! ## The saves -/

theorem preserves_bindString {index : Nat} {value : Option String} :
    Preserves (AtDepth objects db d) (bindString env index value) := by
  cases value with
  | none => exact preserves_fail
  | some value =>
      exact preserves_bind preserves_call fun _ => preserves_modifyState fun _ h => h

theorem preserves_bindLong {index : Nat} {value : Int64} :
    Preserves (AtDepth objects db d) (bindLong env index value) :=
  preserves_bind preserves_call fun _ => preserves_modifyState fun _ h => h

theorem preserves_insert {entity : Entity} :
    Preserves (AtDepth objects db d) (NoOrmSQLiteHelper.insert env entity) := by
  refine preserves_bind ?_ fun _ => preserves_bind ?_ fun _ => preserves_bind ?_ fun self => ?_
  · exact preserves_bind preserves_call fun _ => preserves_modifyState fun _ h => h
  · exact preserves_bind preserves_bindString fun _ =>
      preserves_bind preserves_bindString fun _ =>
        preserves_bind preserves_bindString fun _ =>
          preserves_bind preserves_bindLong fun _ => preserves_bindLong
  · refine preserves_bind preserves_getState fun w => ?_
    cases w.objects.sqLiteHelper with
    | none => exact preserves_raise
    | some helper => exact preserves_pure
  · exact preserves_bind preserves_call fun _ =>
      preserves_bind preserves_getState fun _ => preserves_onTable

theorem preserves_slotDb {slot : Slot} : Preserves (AtDepth objects db d) slot.db := by
  refine preserves_bind preserves_getState fun w => ?_
  cases slot.get w.objects with
  | none => exact preserves_raise
  | some db => exact preserves_pure

theorem preserves_saveModels {slot : Slot} {entities : List Entity} :
    Preserves (AtDepth objects db d) (saveModels env slot entities) :=
  preserves_bind preserves_slotDb fun _ => preserves_bind preserves_call fun _ => preserves_onTable

theorem preserves_saves {b : Bracket} (hb : b ∈ brackets env) {entities : List Entity} :
    ∀ m ∈ b.saves entities, Preserves (AtDepth objects db d) m := by
  intro m hm
  simp only [brackets, List.mem_cons, List.not_mem_nil, or_false] at hb
  rcases hb with rfl | rfl | rfl
  · obtain ⟨entity, _, rfl⟩ := List.mem_map.1 hm
    exact preserves_insert
  · obtain ⟨entity, _, rfl⟩ := List.mem_map.1 hm
    exact preserves_saveModels
  · rw [List.mem_singleton.1 hm]
    exact preserves_saveModels

/-! ## The begin and the end -/

theorem wp_onStore_depth {f : TxStore Content → Except Throwable (TxStore Content)} {d' : Nat}
    (hf : ∀ s, s.levels.length = d → ∃ s', f s = .ok s' ∧ s'.levels.length = d')
    (h : AtDepth objects db d w) :
    (onStore db f).wp
      { ok := fun _ => AtDepth objects db d'
        throws := fun _ _ => False
        dead := fun _ => False } w := by
  obtain ⟨⟨file, s⟩, hstore, hlength⟩ := Option.map_eq_some_iff.1 h.2
  obtain ⟨s', hfs, hlength'⟩ := hf s hlength
  simp only [onStore, wp_bind, wp_getState, hstore, hfs, wp_modifyState]
  refine ⟨h.1, ?_⟩
  simp only [World.store?, Option.bind_eq_some_iff, Option.map_eq_some_iff, Prod.mk.injEq]
    at hstore
  obtain ⟨file', hlookup, _, hheld, rfl, rfl⟩ := hstore
  simp [World.depth, World.store?, hlookup, hlength']

/-- A begin that throws opens no level. -/
theorem wp_beginTransaction_depth (h : AtDepth objects db d w) :
    (beginTransaction env db).wp
      { ok := fun _ => AtDepth objects db (d + 1)
        throws := fun _ => AtDepth objects db d
        dead := AtDepth objects db d } w := by
  simp only [beginTransaction, wp_bind]
  refine wp_mono (preserves_call w h) ?_ (fun _ _ h => h) (fun _ h => h)
  intro _ w₁ h₁
  have hlevel : ∀ s : TxStore Content, s.levels.length = d →
      ∃ s', (Except.ok s.begin' : Except Throwable (TxStore Content)) = .ok s' ∧
        s'.levels.length = d + 1 := by
    intro s hs
    exact ⟨s.begin', rfl, by rw [← hs]; rfl⟩
  exact wp_mono (wp_onStore_depth hlevel h₁) (fun _ _ h => h) (fun _ _ h => h.elim)
    (fun _ h => h.elim)

theorem endTransaction_of_ok (hanswer : env.answer w.calls = .ok) :
    endTransaction env db w = finishTransaction db true { w with calls := w.calls + 1 } := by
  obtain ⟨_, w', hcall, rfl⟩ := exists_ok_of_wp
    (P := fun _ w' => w' = { w with calls := w.calls + 1 }) (m := call env) (s := w)
    (wp_call (fun _ => rfl) (fun e he => by rw [hanswer] at he; cases he)
      (fun he => by rw [hanswer] at he; cases he))
  exact bind_of_run (a := ()) (tryCatch_of_run hcall)

/-- An end that is not disturbed ends the innermost level. -/
theorem endTransaction_depth (h : AtDepth objects db (d + 1) w)
    (hanswer : env.answer w.calls = .ok) :
    ∃ w', endTransaction env db w = (.ok (), w') ∧ w'.depth db = some d := by
  have hfinish : ∀ s : TxStore Content, s.levels.length = d + 1 →
      ∃ s', s.finish true = some s' ∧ s'.levels.length = d := by
    intro s hs
    obtain ⟨s', hs', hlength⟩ := TxStore.depth_finish true
      (List.ne_nil_of_length_pos (by omega : 0 < s.levels.length))
    exact ⟨s', hs', by omega⟩
  rw [endTransaction_of_ok hanswer]
  have hwp : (finishTransaction db true).wp
      { ok := fun _ => AtDepth objects db d
        throws := fun _ _ => False
        dead := fun _ => False } { w with calls := w.calls + 1 } := by
    refine wp_onStore_depth (fun s hs => ?_) h
    obtain ⟨s', hs', hlength⟩ := hfinish s hs
    exact ⟨s', by rw [hs'], hlength⟩
  obtain ⟨_, w', hrun, h'⟩ := exists_ok_of_wp hwp
  exact ⟨w', hrun, h'.2⟩

/-- … and one without a level throws. -/
theorem endTransaction_noLevel (h : AtDepth objects db 0 w)
    (hanswer : env.answer w.calls = .ok) :
    ∃ w', endTransaction env db w = (.throws noTransaction, w') ∧ w'.depth db = some 0 := by
  rw [endTransaction_of_ok hanswer]
  obtain ⟨⟨file, s⟩, hstore, hlength⟩ := Option.map_eq_some_iff.1 h.2
  have hnone : s.finish true = none := by
    rw [TxStore.finish, List.length_eq_zero_iff.1 hlength]
  refine ⟨{ w with calls := w.calls + 1, failures := w.failures + 1 }, ?_, h.2⟩
  show onStore db _ { w with calls := w.calls + 1 } = _
  refine Eq.trans (bind_of_run (a := { w with calls := w.calls + 1 }) rfl) ?_
  rw [show World.store? { w with calls := w.calls + 1 } db = some (file, s) from hstore]
  simp only [hnone]
  rfl

/-! ## The methods as their steps -/

theorem getWritableDatabase_run {helper : NoOrmSQLiteHelper}
    (h : w.objects.sqLiteHelper = some helper) (hdb : helper.helper.mDatabase = some db) :
    NoOrmSQLiteHelper.getWritableDatabase env w = (.ok db, w) := by
  obtain ⟨a, w', hrun, ha, hw'⟩ := exists_ok_of_wp (P := fun a w' => a = db ∧ w' = w)
    (m := NoOrmSQLiteHelper.getWritableDatabase env)
    (wp_noOrm_getWritableDatabase h hdb ⟨rfl, rfl⟩)
  rw [hrun, ha, hw']

theorem slotDb_run {slot : Slot} (h : slot.get w.objects = some db) :
    slot.db w = (.ok db, w) := by
  refine Eq.trans (bind_of_run (a := w) rfl) ?_
  rw [h]
  rfl

theorem preserves_beginTransaction :
    Preserves (fun w => ∃ d, AtDepth objects db d w) (beginTransaction env db) := by
  intro w hdepth
  obtain ⟨d, h⟩ := hdepth
  exact wp_mono (wp_beginTransaction_depth h) (fun _ _ h => ⟨_, h⟩) (fun _ _ h => ⟨_, h⟩)
    (fun _ h => ⟨_, h⟩)

theorem forEach_bracket {first last : AndroidProg Unit} {saves : List (AndroidProg Unit)} :
    forEach id (first :: saves ++ [last]) =
      first >>= fun _ => forEach id saves >>= fun _ => last := by
  rw [List.cons_append, forEach, forEach_append, forEach_singleton]
  rfl

/-- The database is asked for three times, and is the same each time. -/
theorem saveInTransaction_eq {slot : Slot} {save : AndroidProg Unit}
    (hdb : slot.get w.objects = some db) (hdepth : w.depth db = some d)
    (hsave : Preserves (fun w' => ∃ d, AtDepth w.objects db d w') save) :
    saveInTransaction env slot save w =
      tryFinally (beginTransaction env db >>= fun _ => save >>= fun _ =>
        setTransactionSuccessful env db) (endTransaction env db) w := by
  have hstart : ∃ d, AtDepth w.objects db d w := ⟨d, rfl, hdepth⟩
  have hbegin : Preserves (fun w' => ∃ d, AtDepth w.objects db d w')
      (beginTransaction env db) := preserves_beginTransaction
  have hslot : ∀ w', (∃ d, AtDepth w.objects db d w') → slot.db w' = (.ok db, w') := by
    intro w' hdepth'
    obtain ⟨_, hobjects, _⟩ := hdepth'
    exact slotDb_run (by rw [hobjects, hdb])
  have hmark : Preserves (fun w' => ∃ d, AtDepth w.objects db d w')
      (setTransactionSuccessful env db) :=
    preserves_exists fun d => preserves_setTransactionSuccessful
  have hbody : (slot.db >>= fun db => beginTransaction env db >>= fun _ => save >>= fun _ =>
        slot.db >>= fun db => setTransactionSuccessful env db) w =
      (beginTransaction env db >>= fun _ => save >>= fun _ =>
        setTransactionSuccessful env db) w := by
    refine Eq.trans (bind_of_run (hslot w hstart)) ?_
    refine hbegin.bind_congr (fun _ w₁ h₁ => ?_) hstart
    refine hsave.bind_congr (fun _ w₂ h₂ => ?_) h₁
    exact bind_of_run (hslot w₂ h₂)
  refine Eq.trans (tryFinally_of_run_eq hbody) ?_
  refine Preserves.tryFinally_congr (I := fun w' => ∃ d, AtDepth w.objects db d w')
    (preserves_bind hbegin fun _ => preserves_bind hsave fun _ => hmark) ?_ hstart
  exact fun w' h' => bind_of_run (hslot w' h')

theorem Bracket.method_eq {b : Bracket} (hb : b ∈ brackets env) {entities : List Entity}
    (hdb : b.db w.objects = some db) (hdepth : w.depth db = some d) :
    b.method entities w =
      tryFinally (forEach id (b.steps env db entities)) (endTransaction env db) w := by
  rw [Bracket.steps, forEach_bracket]
  simp only [brackets, List.mem_cons, List.not_mem_nil, or_false] at hb
  rcases hb with rfl | rfl | rfl
  · obtain ⟨helper, hhelper, hopen⟩ := Option.bind_eq_some_iff.1 hdb
    simp only [noOrmBracket, forEach_map, id]
    refine Eq.trans (bind_of_run (getWritableDatabase_run hhelper hopen)) ?_
    simp only [beginTransactionNonExclusive, ite_self]
  · simp only [activeAndroidBracket, forEach_map, id]
    refine saveInTransaction_eq hdb hdepth (preserves_exists fun d => ?_)
    exact preserves_forEach (fun entity => preserves_saveModels) entities
  · simp only [activeAndroidSebbiaBracket, forEach_singleton, id]
    exact saveInTransaction_eq hdb hdepth (preserves_exists fun d => preserves_saveModels)

/-- When one step fails and the end is not disturbed, the depth is kept and the
step's exception leaves the method, exactly if the step was not the begin. (Of a
begin outside a transaction this also holds if it threw what the end throws.) -/
theorem balanced_iff_notBegin {b : Bracket} (hb : b ∈ brackets env) {entities : List Entity}
    {k : Nat} {e : Throwable} {w₁ : World} (hdb : b.db w.objects = some db)
    (hdepth : w.depth db = some d)
    (hfails : firstFailure (b.steps env db entities) w = some (k, e, w₁))
    (hend : env.answer w₁.calls = .ok) :
    b.Balanced w db entities e ↔ (k ≠ 0 ∨ d = 0 ∧ e = noTransaction) := by
  have hbody := tryFinally_of_throws (endTransaction env db) (run_of_firstFailure hfails)
  rw [Bracket.Balanced, Bracket.method_eq hb hdb hdepth, hbody, hdepth]
  rcases firstFailure_cons hfails with ⟨rfl, hbegin⟩ | ⟨j, w₂, rfl, hbegin, hrest⟩
  · -- The begin: there is no level of its own to end.
    have h₁ : AtDepth w.objects db d w₁ :=
      throws_of_wp (wp_beginTransaction_depth ⟨rfl, hdepth⟩) hbegin
    cases d with
    | zero =>
        obtain ⟨w₂, hrun, hdepth₂⟩ := endTransaction_noLevel h₁ hend
        simp [hrun, hdepth₂, eq_comm]
    | succ d =>
        obtain ⟨w₂, hrun, hdepth₂⟩ := endTransaction_depth h₁ hend
        simp [hrun, hdepth₂]
  · have h₂ : AtDepth w.objects db (d + 1) w₂ :=
      ok_of_wp (wp_beginTransaction_depth ⟨rfl, hdepth⟩) hbegin
    have hsteps : ∀ m ∈ b.saves entities ++ [setTransactionSuccessful env db],
        Preserves (AtDepth w.objects db (d + 1)) m := by
      intro m hm
      rcases List.mem_append.1 hm with hm | hm
      · exact preserves_saves hb m hm
      · rw [List.mem_singleton.1 hm]
        exact preserves_setTransactionSuccessful
    have h₁ := Preserves.of_firstFailure hsteps h₂ hrest
    obtain ⟨w₃, hrun, hdepth₃⟩ := endTransaction_depth h₁ hend
    simp [hrun, hdepth₃]

/-- Inside a transaction: the second entity has a null field. -/
theorem balanced_iff_notBegin_nullField :
    ∃ env b w db e, b ∈ brackets env ∧ w.depth db = some 1 ∧
      b.Balanced w db [⟨some "a", some "b", some "c", 4, 5⟩, ⟨none, some "b", some "c", 4, 5⟩]
        e := by
  let env := Android.answering fun _ => .ok
  let w := ((do NoOrmBenchmark.init env; beginTransaction env 1 : AndroidProg Unit)
    World.empty).2
  let entities : List Entity :=
    [⟨some "a", some "b", some "c", 4, 5⟩, ⟨none, some "b", some "c", 4, 5⟩]
  obtain ⟨⟨k, e, w₁⟩, hfails⟩ : ∃ r,
      firstFailure ((noOrmBracket env).steps env 1 entities) w = some r :=
    Option.isSome_iff_exists.1 (by decide +kernel)
  have hstep : (firstFailure ((noOrmBracket env).steps env 1 entities) w).map
      (fun r => r.1) = some 2 := by decide +kernel
  rw [hfails] at hstep
  have hdepth : w.depth 1 = some 1 := by decide +kernel
  have hbalanced := (balanced_iff_notBegin (b := noOrmBracket env) List.mem_cons_self
    (by decide +kernel) hdepth hfails rfl).2 (Or.inl ?_)
  · exact ⟨env, noOrmBracket env, w, 1, e, List.mem_cons_self, hdepth, hbalanced⟩
  · injection hstep with hstep
    rw [show k = 2 from hstep]
    decide

/-- The begin fails because the database is locked, and the caller is told that
there is no transaction. -/
theorem balanced_broken_by_begin :
    ¬ ∀ env, ∀ b ∈ brackets env, ∀ w db d entities k e w₁, b.db w.objects = some db →
      w.depth db = some d →
      firstFailure (b.steps env db entities) w = some (k, e, w₁) →
      env.answer w₁.calls = .ok → b.Balanced w db entities e := by
  intro hclaim
  let locked : Throwable :=
    ⟨.runtimeException, "android/database/sqlite/SQLiteDatabaseLockedException", none⟩
  let env := Android.answering fun n => if n = 7 then .throws locked else .ok
  let w := (NoOrmBenchmark.init env World.empty).2
  obtain ⟨⟨k, e, w₁⟩, hfails⟩ : ∃ r,
      firstFailure ((noOrmBracket env).steps env 1 []) w = some r :=
    Option.isSome_iff_exists.1 (by decide +kernel)
  have hstep : (firstFailure ((noOrmBracket env).steps env 1 []) w).map
      (fun r => (r.2.1, r.2.2.calls)) = some (locked, 8) := by decide +kernel
  rw [hfails] at hstep
  injection hstep with hstep
  injection hstep with he hcalls
  have hend : env.answer w₁.calls = .ok := by
    rw [show w₁.calls = 8 from hcalls]
    rfl
  have hbalanced := hclaim env (noOrmBracket env) List.mem_cons_self w 1 0 [] k e w₁
    (by decide +kernel) (by decide +kernel) hfails hend
  have hthrows : ((noOrmBracket env).method [] w).1 = .throws noTransaction := by decide +kernel
  have heq := hthrows.symm.trans hbalanced.1
  injection heq with heq
  rw [show e = locked from he] at heq
  exact absurd heq (by decide)

end

end OrmBenchmark.Ref
