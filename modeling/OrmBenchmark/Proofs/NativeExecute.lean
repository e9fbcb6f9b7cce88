import OrmBenchmark.Proofs.NativeCalls

/-!
# `execute` on an open connection

The statement a call prepares is finalized once on each way out of it: by the
handler of `acquirePreparedStatement` if describing it fails, by the `finally`
of the caller otherwise. `mInCache` is false for every statement that is
obtained, so the branch that resets instead is never taken. The exception that
leaves the call is the only one that was raised in it.
-/

namespace OrmBenchmark.Ref

open OrmBenchmark.Lib OrmBenchmark.Lib.Prog

/-- Some argument's `toString()` answers `null`. -/
def NullText (bindArgs : Option (List JavaObject)) : Prop :=
  .other (.ok none) ∈ bindArgs.getD []

section

variable {s₀ s : NativeState} {db st : Nat} {env : NativeEnv} {α : Type}

theorem calls_bindArgument {D : Prop} (hatt : Attached s₀ db) {i : Nat} {arg : JavaObject}
    (hnull : arg = .other (.ok none) → D) :
    Calls s₀ db (holding st) D (bindArgument env st i arg) := by
  refine calls_connectionPtr ?_
  cases arg with
  | null => exact calls_bindImage hatt
  | byte value => exact calls_bindImage hatt
  | short value => exact calls_bindImage hatt
  | integer value => exact calls_bindImage hatt
  | long value => exact calls_bindImage hatt
  | float value => exact calls_bindImage hatt
  | double value => exact calls_bindImage hatt
  | byteArray value => exact calls_bindImage hatt
  | boolean value => exact calls_bindImage hatt
  | other text =>
      cases text with
      | error e => exact calls_throwJava_bind e.2
      | ok value =>
          cases value with
          | some value => exact calls_bindImage hatt
          | none => exact calls_jni_die (hnull rfl)

theorem calls_bindArguments {D : Prop} (hatt : Attached s₀ db)
    {statement : PreparedStatement} (hst : statement.mStatementPtr = st)
    {bindArgs : Option (List JavaObject)} (hnull : NullText bindArgs → D) :
    Calls s₀ db (holding st) D (bindArguments env statement bindArgs) := by
  unfold bindArguments
  dsimp only
  split
  · exact calls_throwJava rfl
  · rw [hst]
    refine calls_forEach fun arg harg => calls_bindArgument hatt fun hnone => hnull ?_
    rw [NullText, ← hnone]
    exact List.fst_mem_of_mem_zipIdx harg

theorem wp_describeStatement {sql : String} (h : Ready s₀ db (holding st) s) :
    (describeStatement env sql st).wp
      { ok := fun statement s' => statement.mStatementPtr = st ∧
          statement.mInCache = false ∧ Ready s₀ db (holding st) s'
        throws := fun e s' => Failed s₀ db (holding st) e s'
        dead := fun _ => False } s := by
  have hcount : Calls s₀ db (holding st) False (jni (nativeGetParameterCount st)) :=
    calls_jni fun s h => wp_bind_parameter_count h.inCall
      fun _ _ h' hpending => .quiet ⟨h', hpending.trans h.pending⟩
  have hreadOnly : Calls s₀ db (holding st) False (jni (nativeIsReadOnly st)) :=
    calls_jni fun s h => wp_stmt_readonly h.inCall
      fun _ _ h' hpending => .quiet ⟨h', hpending.trans h.pending⟩
  simp only [describeStatement, wp_bind, wp_getState]
  refine wp_mono (calls_orFail hcount s h) ?_ (fun _ _ h => h) (fun _ h => h.1)
  intro numParameters s₁ h₁
  dsimp only
  split
  · next e _ => exact ⟨h₁.inCall.event (.raised e.1) True.intro, h₁.pending, e.2⟩
  · simp only [wp_bind]
    refine wp_mono (calls_orFail hreadOnly s₁ h₁) ?_ (fun _ _ h => h) (fun _ h => h.1)
    intro readOnly s₂ h₂
    exact ⟨rfl, rfl, h₂⟩

theorem wp_nativeFinalizeStatement {e : List Throwable} (hatt : Attached s₀ db)
    (h : InCall s₀ db (holding st) e s) (hpending : s.pending = none)
    {Q : Post NativeState Throwable Unit}
    (hQ : ∀ s', InCall s₀ db [] e s' → s'.pending = none → Q.ok () s') :
    (jni (nativeFinalizeStatement s₀.mConnectionPtr st)).wp Q s := by
  rw [wp_jni]
  simp only [nativeFinalizeStatement, wp_bind]
  refine wp_connectionDb hatt h fun s₁ h₁ hpending₁ => ?_
  refine wp_finalize h₁ fun s₂ h₂ hpending₂ => ?_
  have hnone : s₂.pending = none := by rw [hpending₂, hpending₁, hpending]
  simp only [hnone]
  exact hQ s₂ h₂ hnone

theorem wp_nativePrepareStatement {sql : String} (hatt : Attached s₀ db)
    (hpos : 0 < s₀.next) (h : Ready s₀ db [] s) :
    (jni (nativePrepareStatement env s₀.mConnectionPtr sql)).wp
      { ok := fun st s' => Ready s₀ db (holding st) s'
        throws := fun e s' => Failed s₀ db [] e s'
        dead := fun _ => False } s := by
  rw [wp_jni]
  simp only [nativePrepareStatement, wp_bind]
  refine wp_connectionDb hatt h.inCall fun s₁ h₁ hpending₁ => ?_
  simp only [wp_bind]
  refine wp_prepare hatt hpos h₁ fun err st s₂ hzero hpending₂ h₂ => ?_
  dsimp only
  split
  · next herr =>
      rw [hzero herr] at h₂
      simp only [wp_bind]
      refine wp_throw hatt h₂ fun e s₃ hkind h₃ hpending₃ => ?_
      simp only [wp_pure, hpending₃]
      exact ⟨h₃.pending none, rfl, hkind⟩
  · have hnone : s₂.pending = none := by rw [hpending₂, hpending₁, h.pending]
    simp only [wp_pure, hnone]
    exact ⟨h₂, hnone⟩

theorem wp_acquirePreparedStatement {sql : String} (hatt : Attached s₀ db)
    (hpos : 0 < s₀.next) (h : Ready s₀ db [] s) :
    (acquirePreparedStatement env sql).wp
      { ok := fun statement s' => statement.mInCache = false ∧
          Ready s₀ db (holding statement.mStatementPtr) s'
        throws := fun e s' => Failed s₀ db [] e s'
        dead := fun _ => False } s := by
  simp only [acquirePreparedStatement, connectionPtr, wp_bind, wp_getState, wp_pure,
    h.inCall.ptr]
  refine wp_mono (wp_nativePrepareStatement hatt hpos h) ?_ (fun _ _ h => h) (fun _ h => h)
  intro st s₁ h₁
  simp only [wp_bind, wp_tryCatch]
  refine wp_mono (wp_describeStatement h₁) ?_ ?_ (fun _ h => h)
  · intro statement s₂ hpost
    obtain ⟨hptr, hcache, h₂⟩ := hpost
    rw [← hptr] at h₂
    exact ⟨hcache, h₂⟩
  · -- Describing failed: the handler finalizes and throws the same exception.
    intro e s₂ h₂
    simp only [if_pos h₂.kind, wp_bind, wp_getState, wp_pure, h₂.inCall.ptr]
    refine wp_nativeFinalizeStatement hatt h₂.inCall h₂.pending fun s₃ h₃ hpending₃ => ?_
    exact ⟨h₃, hpending₃, h₂.kind⟩

theorem wp_releasePreparedStatement {e : List Throwable} {statement : PreparedStatement}
    (hatt : Attached s₀ db) (hcache : statement.mInCache = false)
    (h : InCall s₀ db (holding statement.mStatementPtr) e s) (hpending : s.pending = none)
    {Q : Post NativeState Throwable Unit}
    (hQ : ∀ s', InCall s₀ db [] e s' → s'.pending = none → Q.ok () s') :
    (releasePreparedStatement env statement).wp Q s := by
  simp only [releasePreparedStatement, hcache, finalizePreparedStatement, connectionPtr,
    wp_bind, wp_getState, wp_pure, h.ptr, Bool.false_eq_true, if_false]
  exact wp_nativeFinalizeStatement hatt h hpending hQ

/-- A call with a text, from an open connection that holds no statement. -/
theorem wp_executeWith {native : Nat → Nat → NativeProg α} (hatt : Attached s db)
    (hpos : 0 < s.next) (hstmts : s.stmts = ∅) (hpending : s.pending = none)
    (hnative : ∀ st s', Ready s db (holding st) s' →
      (native s.mConnectionPtr st).wp (nativePost s db (holding st) False) s')
    {sql : String} {bindArgs : Option (List JavaObject)} :
    (executeWith env native (some sql) bindArgs).wp
      (callPost s db [] (NullText bindArgs)) s := by
  have hstart : Ready s db [] s := ⟨InCall.start hstmts, hpending⟩
  simp only [executeWith, wp_bind]
  refine wp_mono (wp_acquirePreparedStatement hatt hpos hstart) ?_ (fun _ _ h => h)
    (fun _ h => h.elim)
  intro statement s₁ hpost
  obtain ⟨hcache, h₁⟩ := hpost
  have hbody : Calls s db (holding statement.mStatementPtr) (NullText bindArgs)
      (bindArguments env statement bindArgs >>= fun _ => connectionPtr >>= fun ptr =>
        jni (native ptr statement.mStatementPtr)) := by
    refine calls_bind (calls_bindArguments hatt rfl id) fun _ => calls_connectionPtr ?_
    refine calls_jni fun s' h' => ?_
    exact wp_mono (hnative _ s' h') (fun _ _ h => h) (fun _ _ h => h) (fun _ h => h.1.elim)
  simp only [wp_tryFinally]
  refine wp_mono (hbody s₁ h₁) ?_ ?_ (fun _ h => h)
  · intro a s₂ h₂
    refine wp_releasePreparedStatement hatt hcache h₂.inCall h₂.pending ?_
    exact fun s₃ h₃ hpending₃ => ⟨h₃, hpending₃⟩
  · intro e s₂ h₂
    refine wp_releasePreparedStatement hatt hcache h₂.inCall h₂.pending ?_
    exact fun s₃ h₃ hpending₃ => ⟨h₃, hpending₃, h₂.kind⟩

end

end OrmBenchmark.Ref
