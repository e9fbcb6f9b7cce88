import OrmBenchmark.Ref.NoOrm

/-!
# Working on one file

A program that works through one handle changes the file behind it and counts
its calls, and leaves the rest of the world alone. `Within` says so relative to
the world it began in, with what the file holds by now and whether every library
call so far returned; the rules below carry it through the calls.

Nothing is said of a process that died: what it leaves behind is what
`World.restart` keeps.
-/

namespace OrmBenchmark.Ref

open OrmBenchmark.Lib OrmBenchmark.Lib.Prog

/-- Some call from here on does not return. -/
def Android.Fails (env : Android) (w : World) : Prop :=
  ∃ n, w.calls ≤ n ∧ env.answer n ≠ .ok

structure Within (w₀ : World) (file : Nat) (s : TxStore Content) (quiet : Bool)
    (w : World) : Prop where
  names : w.names = w₀.names
  handles : w.handles = w₀.handles
  objects : w.objects = w₀.objects
  deletions : w.deletions = w₀.deletions
  next : w.next = w₀.next
  calls : w₀.calls ≤ w.calls
  held : w.files file = some s
  others : ∀ g, g ≠ file → w.files g = w₀.files g
  failures : if quiet then w.failures = w₀.failures else w₀.failures < w.failures

section

variable {env : Android} {w₀ w : World} {file db : Nat} {s s' : TxStore Content}
  {quiet : Bool} {α β : Type}

theorem Within.refl (h : w.files file = some s) : Within w file s true w :=
  ⟨rfl, rfl, rfl, rfl, rfl, Nat.le_refl _, h, fun _ _ => rfl, rfl⟩

theorem Within.count (h : Within w₀ file s quiet w) :
    Within w₀ file s quiet { w with calls := w.calls + 1 } :=
  ⟨h.names, h.handles, h.objects, h.deletions, h.next, Nat.le_succ_of_le h.calls, h.held,
    h.others, h.failures⟩

theorem Within.bind (h : Within w₀ file s quiet w)
    (bindings : AList fun _ : Nat => SqlValue) :
    Within w₀ file s quiet { w with bindings := bindings } :=
  ⟨h.names, h.handles, h.objects, h.deletions, h.next, h.calls, h.held, h.others,
    h.failures⟩

theorem Within.failures_le (h : Within w₀ file s quiet w) : w₀.failures ≤ w.failures := by
  have hfailures := h.failures
  cases quiet with
  | true => exact Nat.le_of_eq (Eq.symm hfailures)
  | false => exact Nat.le_of_lt hfailures

theorem Within.failed (h : Within w₀ file s quiet w) :
    Within w₀ file s false { w with failures := w.failures + 1 } :=
  ⟨h.names, h.handles, h.objects, h.deletions, h.next, h.calls, h.held, h.others,
    Nat.lt_succ_of_le h.failures_le⟩

theorem Within.store (h : Within w₀ file s quiet w) (s' : TxStore Content) :
    Within w₀ file s' quiet { w with files := Function.update w.files file (some s') } := by
  refine ⟨h.names, h.handles, h.objects, h.deletions, h.next, h.calls, ?_, ?_, h.failures⟩
  · exact Function.update_self _ _ _
  · intro g hg
    show Function.update w.files file (some s') g = w₀.files g
    rw [Function.update_of_ne hg]
    exact h.others g hg

theorem Within.store? (h : Within w₀ file s quiet w)
    (hdb : w₀.handles.lookup db = some file) : w.store? db = some (file, s) := by
  rw [World.store?, h.handles, hdb, Option.bind_some, h.held, Option.map_some]

/-! ## Single calls -/

theorem wp_fail {Q : Post World Throwable α} {e : Throwable} :
    (fail e : AndroidProg α).wp Q w ↔
      Q.throws e { w with failures := w.failures + 1 } := Iff.rfl

/-- The one place that looks at the answers. -/
theorem wp_call {Q : Post World Throwable Unit}
    (hok : env.answer w.calls = .ok → Q.ok () { w with calls := w.calls + 1 })
    (hthrows : ∀ e, env.answer w.calls = .throws e →
      Q.throws e { w with calls := w.calls + 1, failures := w.failures + 1 })
    (hdead : env.answer w.calls = .kill → Q.dead { w with calls := w.calls + 1 }) :
    (call env).wp Q w := by
  simp only [call, wp_bind, wp_getState, wp_modifyState]
  cases hanswer : env.answer w.calls with
  | ok => exact hok hanswer
  | throws e => exact hthrows e hanswer
  | kill => exact hdead hanswer

/-- … with the reason, when it does not return. -/
theorem Within.wp_call_fails {Q : Post World Throwable Unit} (h : Within w₀ file s quiet w)
    (hok : ∀ w', Within w₀ file s quiet w' → w'.bindings = w.bindings → Q.ok () w')
    (hthrows : ∀ e w', env.Fails w₀ → Within w₀ file s false w' → Q.throws e w')
    (hdead : ∀ w', env.Fails w₀ → Q.dead w') : (call env).wp Q w := by
  refine Ref.wp_call (fun _ => hok _ h.count rfl) (fun e he => ?_) (fun hkill => ?_)
  · exact hthrows e _ ⟨w.calls, h.calls, by rw [he]; exact nofun⟩ h.count.failed
  · exact hdead _ ⟨w.calls, h.calls, by rw [hkill]; exact nofun⟩

theorem Within.wp_call {Q : Post World Throwable Unit} (h : Within w₀ file s quiet w)
    (hok : ∀ w', Within w₀ file s quiet w' → w'.bindings = w.bindings → Q.ok () w')
    (hthrows : ∀ e w', Within w₀ file s false w' → Q.throws e w')
    (hdead : ∀ w', Q.dead w') : (call env).wp Q w :=
  h.wp_call_fails hok (fun e w' _ => hthrows e w') (fun w' _ => hdead w')

theorem Within.wp_onStore {Q : Post World Throwable Unit}
    {f : TxStore Content → Except Throwable (TxStore Content)}
    (h : Within w₀ file s quiet w) (hdb : w₀.handles.lookup db = some file)
    (hok : ∀ s' w', f s = .ok s' → Within w₀ file s' quiet w' → Q.ok () w')
    (hthrows : ∀ e w', f s = .error e → Within w₀ file s false w' → Q.throws e w') :
    (onStore db f).wp Q w := by
  simp only [onStore, wp_bind, wp_getState, h.store? hdb]
  cases hf : f s with
  | error e => exact hthrows e _ hf h.failed
  | ok s' => exact hok s' _ hf (h.store s')

theorem Within.wp_getStore {Q : Post World Throwable (TxStore Content)}
    (h : Within w₀ file s quiet w) (hdb : w₀.handles.lookup db = some file)
    (hok : Q.ok s w) : (getStore db).wp Q w := by
  simp only [getStore, wp_bind, wp_getState, h.store? hdb]
  exact hok

/-- A change of the table: outside a transaction it is committed. -/
theorem Within.wp_onTable {Q : Post World Throwable Unit} {missing : Throwable}
    {f : Table → Table} (h : Within w₀ file s quiet w)
    (hdb : w₀.handles.lookup db = some file)
    (hok : ∀ t w', s.current.table = some t →
      Within w₀ file (s.update fun content => { content with table := some (f t) }) quiet w' →
      Q.ok () w')
    (hthrows : ∀ w', s.current.table = none → Within w₀ file s false w' →
      Q.throws missing w') : (onTable db missing f).wp Q w := by
  refine h.wp_onStore hdb ?_ ?_
  · intro s' w' hs' hw'
    cases htable : s.current.table with
    | none => rw [htable] at hs'; cases hs'
    | some t =>
        rw [htable] at hs'
        cases hs'
        exact hok t w' htable hw'
  · intro e w' he hw'
    cases htable : s.current.table with
    | none =>
        rw [htable] at he
        cases he
        exact hthrows w' htable hw'
    | some t => rw [htable] at he; cases he

theorem Within.wp_getTable {Q : Post World Throwable Table} {missing : Throwable}
    (h : Within w₀ file s quiet w) (hdb : w₀.handles.lookup db = some file)
    (hok : ∀ t, s.current.table = some t → Q.ok t w)
    (hthrows : ∀ w', s.current.table = none → Within w₀ file s false w' →
      Q.throws missing w') : (getTable db missing).wp Q w := by
  simp only [getTable, wp_bind]
  refine h.wp_getStore hdb ?_
  dsimp only
  split
  · next htable => exact hthrows _ htable h.failed
  · next t htable => exact hok t htable

/-! ## Transactions -/

theorem Within.wp_beginTransaction {Q : Post World Throwable Unit}
    (h : Within w₀ file s quiet w) (hdb : w₀.handles.lookup db = some file)
    (hok : ∀ w', Within w₀ file (s.inner s.current) quiet w' → Q.ok () w')
    (hthrows : ∀ e w', Within w₀ file s false w' → Q.throws e w')
    (hdead : ∀ w', Q.dead w') : (beginTransaction env db).wp Q w := by
  simp only [beginTransaction, wp_bind]
  refine h.wp_call (fun w' h' _ => ?_) hthrows hdead
  refine h'.wp_onStore hdb (fun s' w'' hs' hw'' => ?_) (fun e w'' he _ => by cases he)
  cases hs'
  exact hok w'' hw''

theorem Within.wp_setTransactionSuccessful {Q : Post World Throwable Unit} {c : Content}
    (h : Within w₀ file (s.inner c) quiet w) (hdb : w₀.handles.lookup db = some file)
    (hok : ∀ w', Within w₀ file (s.innerMarked c) quiet w' → Q.ok () w')
    (hthrows : ∀ e w', Within w₀ file (s.inner c) false w' → Q.throws e w')
    (hdead : ∀ w', Q.dead w') : (setTransactionSuccessful env db).wp Q w := by
  simp only [setTransactionSuccessful, wp_bind]
  refine h.wp_call (fun w' h' _ => ?_) hthrows hdead
  refine h'.wp_onStore hdb (fun s' w'' hs' hw'' => ?_) (fun e w'' he _ => by cases he)
  cases hs'
  exact hok w'' hw''

theorem Within.wp_finishTransaction {Q : Post World Throwable Unit} {commits : Bool}
    (h : Within w₀ file s quiet w) (hdb : w₀.handles.lookup db = some file)
    (hfinish : s.finish commits = some s')
    (hok : ∀ w', Within w₀ file s' quiet w' → Q.ok () w') :
    (finishTransaction db commits).wp Q w := by
  refine h.wp_onStore hdb (fun s'' w' hs'' hw' => ?_) (fun e w' he _ => ?_)
  · rw [hfinish] at hs''
    cases hs''
    exact hok w' hw'
  · rw [hfinish] at he
    cases he

theorem Within.wp_endTransaction {Q : Post World Throwable Unit} {s₁ s₂ : TxStore Content}
    (h : Within w₀ file s quiet w) (hdb : w₀.handles.lookup db = some file)
    (hcommits : s.finish true = some s₁) (hfails : s.finish false = some s₂)
    (hok : ∀ w', Within w₀ file s₁ quiet w' → Q.ok () w')
    (hthrows : ∀ e w', Within w₀ file s₂ false w' → Q.throws e w')
    (hdead : ∀ w', Q.dead w') : (endTransaction env db).wp Q w := by
  simp only [endTransaction, wp_bind, wp_tryCatch]
  refine h.wp_call (fun w' h' _ => h'.wp_finishTransaction hdb hcommits hok) ?_ hdead
  intro e w' h'
  simp only [wp_bind]
  exact h'.wp_finishTransaction hdb hfails fun w'' h'' => hthrows e w'' h''

/-- Outside a transaction the end throws. -/
theorem Within.wp_endTransaction_idle {Q : Post World Throwable Unit}
    (h : Within w₀ file s quiet w) (hdb : w₀.handles.lookup db = some file)
    (hidle : s.levels = []) (hthrows : ∀ e w', Within w₀ file s false w' → Q.throws e w')
    (hdead : ∀ w', Q.dead w') : (endTransaction env db).wp Q w := by
  have hnone : ∀ commits, s.finish commits = none := by
    intro commits
    rw [TxStore.finish, hidle]
  have hfinish : ∀ {quiet' w'} {Q' : Post World Throwable Unit} {commits : Bool},
      Within w₀ file s quiet' w' →
      (∀ e w'', Within w₀ file s false w'' → Q'.throws e w'') →
      (finishTransaction db commits).wp Q' w' := by
    intro quiet' w' Q' commits h' hQ'
    refine h'.wp_onStore hdb (fun s'' w'' hs'' _ => ?_) (fun e w'' _ hw'' => hQ' e w'' hw'')
    rw [hnone] at hs''
    cases hs''
  simp only [endTransaction, wp_bind, wp_tryCatch]
  refine h.wp_call (fun w' h' _ => hfinish h' hthrows) (fun e w' h' => ?_) hdead
  simp only [wp_bind]
  exact hfinish h' hthrows

/-- What is asked of the body of `tryFinally body (endTransaction env db)`. -/
def beforeEnd (env : Android) (db : Nat) (Q : Post World Throwable Unit) :
    Post World Throwable Unit where
  ok _ := (endTransaction env db).wp Q
  throws e := (endTransaction env db).wp
    { ok := fun _ => Q.throws e, throws := Q.throws, dead := Q.dead }
  dead := Q.dead

theorem wp_tryFinally_end {m : AndroidProg Unit} {Q : Post World Throwable Unit} :
    (tryFinally m (endTransaction env db)).wp Q w ↔ m.wp (beforeEnd env db Q) w := by
  rw [wp_tryFinally]
  rfl

/-- A body after the begin of the outermost transaction: what it reached is
committed, or the store is as before. `P` says what it can reach. -/
theorem Within.wp_transaction {Q : Post World Throwable Unit} {v : Content}
    {body : AndroidProg Unit} {P : Content → Bool → Prop}
    (hdb : w₀.handles.lookup db = some file)
    (hbody : body.wp
      { ok := fun _ w' => ∃ c quiet', P c quiet' ∧
          Within w₀ file ((TxStore.ofCommitted v).inner c) quiet' w'
        throws := fun _ w' => ∃ c,
          Within w₀ file ((TxStore.ofCommitted v).inner c) false w'
        dead := fun _ => True } w)
    (hok : ∀ c quiet' w', P c quiet' →
      Within w₀ file (TxStore.ofCommitted c) quiet' w' → Q.ok () w')
    (hthrows : ∀ e w', Within w₀ file (TxStore.ofCommitted v) false w' → Q.throws e w')
    (hdead : ∀ w', Q.dead w') :
    (do body; setTransactionSuccessful env db : AndroidProg Unit).wp (beforeEnd env db Q) w := by
  have hend : ∀ {c e w'}, Within w₀ file ((TxStore.ofCommitted v).inner c) false w' →
      (beforeEnd env db Q).throws e w' := by
    intro c e w' h'
    refine h'.wp_endTransaction hdb TxStore.finish_inner TxStore.finish_inner ?_ ?_ hdead
    · exact fun w'' h'' => hthrows e w'' h''
    · exact fun e' w'' h'' => hthrows e' w'' h''
  simp only [wp_bind]
  refine wp_mono hbody ?_ ?_ (fun w' _ => hdead w')
  · intro _ w' hpost
    obtain ⟨c, quiet', hP, h'⟩ := hpost
    refine h'.wp_setTransactionSuccessful hdb ?_ (fun e w'' h'' => hend h'') hdead
    intro w'' h''
    refine h''.wp_endTransaction hdb TxStore.finish_innerMarked TxStore.finish_innerMarked ?_ ?_
      hdead
    · exact fun w₃ h₃ => hok c quiet' w₃ hP h₃
    · exact fun e w₃ h₃ => hthrows e w₃ h₃
  · intro e w' hpost
    obtain ⟨c, h'⟩ := hpost
    exact hend h'

/-- A whole transaction, with the begin in the block whose `finally` ends it:
what the body reached is committed, or nothing is. -/
theorem wp_bracket {v : Content} {body : AndroidProg Unit} {P : Content → Prop}
    (hheld : w.files file = some (.ofCommitted v)) (hdb : w.handles.lookup db = some file)
    (hbody : ∀ w₁, Within w file ((TxStore.ofCommitted v).inner v) true w₁ →
      body.wp
        { ok := fun _ w' => ∃ c, P c ∧ Within w file ((TxStore.ofCommitted v).inner c) true w'
          throws := fun _ w' => ∃ c,
            Within w file ((TxStore.ofCommitted v).inner c) false w'
          dead := fun _ => True } w₁) :
    (tryFinally (do beginTransaction env db; body; setTransactionSuccessful env db)
        (endTransaction env db)).wp
      { ok := fun _ w' => ∃ c, P c ∧ Within w file (.ofCommitted c) true w'
        throws := fun _ w' => Within w file (.ofCommitted v) false w'
        dead := fun _ => True } w := by
  rw [wp_tryFinally_end, wp_bind]
  refine (Within.refl hheld).wp_beginTransaction hdb (fun w₁ h₁ => ?_) ?_ ?_
  · refine Within.wp_transaction hdb (P := fun c quiet => quiet = true ∧ P c)
      (wp_mono (hbody w₁ h₁) ?_ (fun _ _ h => h) (fun _ h => h)) ?_ (fun _ _ h => h)
      (fun _ => True.intro)
    · intro _ w₂ hpost
      obtain ⟨c, hP, h₂⟩ := hpost
      exact ⟨c, true, ⟨rfl, hP⟩, h₂⟩
    · intro c _ w₂ hreached h₂
      obtain ⟨rfl, hP⟩ := hreached
      exact ⟨c, hP, h₂⟩
  · -- The begin failed, and the end of a transaction that is not there fails too.
    intro e w₁ h₁
    exact h₁.wp_endTransaction_idle hdb rfl (fun _ _ h => h) (fun _ => True.intro)
  · exact fun _ => True.intro

/-- Entities inserted one after the other, by a program that appends the one
it is given to a content of the right kind. -/
theorem Within.wp_insertEach {v : TxStore Content} {insert : Entity → AndroidProg Unit}
    {Good : Content → Prop}
    (hinsert : ∀ {c e w}, Good c → Within w₀ file (v.inner c) quiet w →
      (insert e).wp
        { ok := fun _ w' => ∃ c', Good c' ∧ c'.entities env = c.entities env ++ [e] ∧
            Within w₀ file (v.inner c') quiet w'
          throws := fun _ w' => ∃ c', Within w₀ file (v.inner c') false w'
          dead := fun _ => True } w)
    {c : Content} (hc : Good c) (h : Within w₀ file (v.inner c) quiet w)
    {entities : List Entity} :
    (forEach insert entities).wp
      { ok := fun _ w' => ∃ c', Good c' ∧ c'.entities env = c.entities env ++ entities ∧
          Within w₀ file (v.inner c') quiet w'
        throws := fun _ w' => ∃ c', Within w₀ file (v.inner c') false w'
        dead := fun _ => True } w := by
  -- What is still to come are the entities after those inserted so far.
  let I := fun rest w => ∃ c' before, entities = before ++ rest ∧ Good c' ∧
    c'.entities env = c.entities env ++ before ∧ Within w₀ file (v.inner c') quiet w
  refine wp_forEach (I := I) ?_ ?_ ⟨c, [], rfl, hc, by rw [List.append_nil], h⟩
  · intro e rest w₁ hI
    obtain ⟨c₁, before, hsplit, hgood, hentities, h₁⟩ := hI
    refine wp_mono (hinsert hgood h₁) ?_ (fun _ _ h => h) (fun _ h => h)
    intro _ w₂ hpost
    obtain ⟨c₂, hgood₂, hentities₂, h₂⟩ := hpost
    refine ⟨c₂, before ++ [e], ?_, hgood₂, ?_, h₂⟩
    · rw [hsplit, List.append_assoc]
      rfl
    · rw [hentities₂, hentities, List.append_assoc]
  · intro w₁ hI
    obtain ⟨c₁, before, hsplit, hgood, hentities, h₁⟩ := hI
    rw [List.append_nil] at hsplit
    subst hsplit
    exact ⟨c₁, hgood, hentities, h₁⟩

end

end OrmBenchmark.Ref
