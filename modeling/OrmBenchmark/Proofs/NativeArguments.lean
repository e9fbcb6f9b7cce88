import Mathlib.Algebra.Group.Nat.Defs
import OrmBenchmark.Proofs.NativeLifecycle

/-!
# What the statement is stepped with

A call on an open connection, followed exactly: which library call has which
number, what is bound to the compiled statement so far, and which steps are in
the log. Until the arguments are bound there is none, and whatever fails before
that ends the call with an exception. So the statement is stepped once, with
every argument bound in its place, or not at all.
-/

namespace OrmBenchmark.Ref

open OrmBenchmark.Lib OrmBenchmark.Lib.Prog

/-! ## What is to be bound -/

/-- What an argument is bound as, if it can be. -/
def JavaObject.image : JavaObject → Option BindImage
  | .null => some .null
  | .byte value => some (.int64 value.toInt64)
  | .short value => some (.int64 value.toInt64)
  | .integer value => some (.int64 value.toInt64)
  | .long value => some (.int64 value)
  | .float value => some (.double value.toFloat)
  | .double value => some (.double value)
  | .byteArray value => some (.blob value)
  | .boolean true => some (.int64 1)
  | .boolean false => some (.int64 0)
  | .other (.ok (some text)) => some (.text16 text)
  | .other (.ok none) => none
  | .other (.error _) => none

/-- The texts of these arguments fit the native call: they are there and are
shorter than 2³⁰ characters. -/
def ShortTexts (args : List JavaObject) : Prop :=
  ∀ text, .other (.ok text) ∈ args → ∃ value, text = some value ∧ value.length < 2 ^ 30

/-- All of the arguments can be bound, by library calls numbered from `call`. -/
def AllBound (env : NativeEnv) (call : Nat) (args : List JavaObject) : Prop :=
  ∀ i (h : i < args.length), args[i].image ≠ none ∧ env.lib.bind (call + i) = SQLITE_OK

/-- The metadata calls after the prepare succeed. -/
def Described (env : NativeEnv) (call : Nat) (sql : String) : Prop :=
  env.parameterCountFails call = none ∧ (∃ type, env.getSqlStatementType call sql = .ok type) ∧
    env.isReadOnlyFails call = none

/-- What it takes for a text to be stepped with these arguments, when the
prepare has this number. -/
def Steps (env : NativeEnv) (call : Nat) (sql : String) (args : List JavaObject) : Prop :=
  (∃ readOnly, env.lib.prepare16_v2 call sql = .prepared args.length readOnly) ∧
    Described env (call + 1) sql ∧ AllBound env (call + 1) args

/-- The steps of a log: the statement, what was bound to it, and the answer. -/
def stepsOf (log : List NativeEvent) : List (Nat × List (Nat × BindImage) × StepAnswer) :=
  log.filterMap fun
    | .used st (.step bound answer) => some (st, bound, answer)
    | _ => none

section

variable {env : NativeEnv} {call : Nat} {args rest : List JavaObject} {arg : JavaObject}

theorem text16_of_short {value : List UInt16} (h : value.length < 2 ^ 30) :
    text16 value = value := by
  have hint : (Int32.ofNat (value.length * 2)).toInt = (value.length * 2 : Nat) := by
    rw [Int32.toInt_ofNat_of_lt]
    omega
  have hpos : ¬ Int32.ofNat (value.length * 2) < 0 := by
    rw [Int32.lt_iff_toInt_lt, hint]
    show ¬ ((value.length * 2 : Nat) : Int) < 0
    omega
  have hclamp : (Int32.ofNat (value.length * 2)).toNatClampNeg = value.length * 2 := by
    rw [Int32.toNatClampNeg, hint, Int.toNat_natCast]
  simp only [text16, if_neg hpos, hclamp]
  rw [Nat.mul_div_cancel _ (by decide), List.take_length]

theorem allBound_cons : AllBound env call (arg :: rest) ↔
    (arg.image ≠ none ∧ env.lib.bind call = SQLITE_OK) ∧ AllBound env (call + 1) rest := by
  constructor
  · intro h
    refine ⟨h 0 (Nat.succ_pos _), fun i hi => ?_⟩
    have hnext := h (i + 1) (Nat.succ_lt_succ hi)
    rw [show call + 1 + i = call + (i + 1) by omega]
    exact hnext
  · intro h i hi
    obtain ⟨hfirst, hrest⟩ := h
    cases i with
    | zero => exact hfirst
    | succ i =>
        have hnext := hrest i (Nat.lt_of_succ_lt_succ hi)
        rw [show call + (i + 1) = call + 1 + i by omega]
        exact hnext

theorem stepsOf_append (log log' : List NativeEvent) :
    stepsOf (log ++ log') = stepsOf log ++ stepsOf log' := List.filterMap_append

end

/-- The parameters the arguments are bound to, counted from `i + 1`. -/
def imagesOf (i : Nat) (args : List JavaObject) : List (Nat × BindImage) :=
  (args.zipIdx i).filterMap fun p => p.1.image.map fun image => (p.2 + 1, image)

/-! ## The state of the call -/

/-- The connection is open, the statement is there if it is not null, and these
steps have been made. -/
structure InExecute (s₀ : NativeState) (db st : Nat)
    (steps : List (Nat × List (Nat × BindImage) × StepAnswer)) (s : NativeState) : Prop where
  ptr : s.mConnectionPtr = s₀.mConnectionPtr
  wrapper : s.wrappers.lookup s₀.mConnectionPtr = some db
  handle : db ∈ s.handles
  live : st ≠ 0 → st ∈ s.stmts
  steps : stepsOf s.log = stepsOf s₀.log ++ steps

/-- An exception is on its way. -/
structure Thrown (s₀ : NativeState) (db st : Nat)
    (steps : List (Nat × List (Nat × BindImage) × StepAnswer)) (e : Throwable)
    (s : NativeState) : Prop where
  inExecute : InExecute s₀ db st steps s
  pending : s.pending = none
  kind : e.kind = .runtimeException

/-- Nothing was stepped yet, the statement is as it says, and the next library
call has this number. A null statement has no parameters. -/
structure Binding (s₀ : NativeState) (db st : Nat) (stmt : Stmt) (call : Nat)
    (s : NativeState) : Prop where
  inExecute : InExecute s₀ db st [] s
  pending : s.pending = none
  calls : s.calls = call
  held : st ≠ 0 → s.stmts.lookup st = some stmt
  owner : stmt.db = db
  null : st = 0 → stmt.parameters = 0

/-- It returns if `P`, with the statement like this, and throws if not. -/
def bindPost (s₀ : NativeState) (db st : Nat) (P : Prop) (stmt : Stmt) (call : Nat) :
    Post NativeState Throwable α where
  ok _ s := P ∧ Binding s₀ db st stmt call s
  throws e s := ¬ P ∧ Thrown s₀ db st [] e s
  dead _ := False

section

variable {env : NativeEnv} {s₀ s s' : NativeState} {db st call : Nat} {stmt : Stmt}
  {steps : List (Nat × List (Nat × BindImage) × StepAnswer)} {α : Type}

theorem InExecute.silent (h : InExecute s₀ db st steps s)
    (hptr : s'.mConnectionPtr = s.mConnectionPtr) (hwrappers : s'.wrappers = s.wrappers)
    (hhandles : s'.handles = s.handles) (hstmts : s'.stmts = s.stmts)
    (hsteps : stepsOf s'.log = stepsOf s.log) : InExecute s₀ db st steps s' := by
  refine ⟨hptr.trans h.ptr, ?_, ?_, ?_, hsteps.trans h.steps⟩
  · rw [hwrappers]
    exact h.wrapper
  · rw [hhandles]
    exact h.handle
  · rw [hstmts]
    exact h.live

/-- An event that is not a step. -/
theorem stepsOf_event {log : List NativeEvent} {event : NativeEvent}
    (hevent : stepsOf [event] = []) : stepsOf (log ++ [event]) = stepsOf log := by
  rw [stepsOf_append, hevent, List.append_nil]

theorem InExecute.wp_connectionDb {Q : Post NativeState Throwable Nat}
    (h : InExecute s₀ db st steps s)
    (hQ : ∀ s', InExecute s₀ db st steps s' → s'.pending = s.pending → Q.ok db s') :
    (connectionDb s₀.mConnectionPtr).wp Q s :=
  wp_liveConnection h.wrapper (hQ _ (h.silent rfl rfl rfl rfl (stepsOf_event rfl)) rfl)

theorem InExecute.wp_onHandle {f : Counters → NativeProg α} {Q : Post NativeState Throwable α}
    (h : InExecute s₀ db st steps s) (hf : ∀ counters, (f counters).wp Q s) :
    (withHandle db f).wp Q s :=
  wp_liveHandle h.handle hf

theorem InExecute.wp_throw {Q : Post NativeState Throwable Unit} {message : Option String}
    (h : InExecute s₀ db st steps s)
    (hQ : ∀ e s', e.kind = .runtimeException → InExecute s₀ db st steps s' →
      s'.pending = some e → Q.ok () s') :
    (throw_sqlite3_exception env.lib db message).wp Q s :=
  wp_throw_sqlite3_exception h.handle fun e hkind =>
    hQ e _ hkind (h.silent rfl rfl rfl rfl (stepsOf_event rfl)) rfl

theorem InExecute.stepThrows {e : Throwable} (h : InExecute s₀ db st steps s)
    (hthrows : StepThrows s₀.mConnectionPtr e s s') :
    InExecute s₀ db st steps s' ∧ s'.pending = some e := by
  cases hthrows with
  | row => exact ⟨h.silent rfl rfl rfl rfl (stepsOf_event rfl), rfl⟩
  | error =>
      exact ⟨h.silent rfl rfl rfl rfl ((stepsOf_event rfl).trans (stepsOf_event rfl)), rfl⟩

theorem InExecute.thrown (h : InExecute s₀ db st steps s) {e : Throwable}
    (hkind : e.kind = .runtimeException) :
    Thrown s₀ db st steps e { s with pending := none } :=
  ⟨h.silent rfl rfl rfl rfl rfl, rfl, hkind⟩

theorem InExecute.throwJava (h : InExecute s₀ db st steps s) (hpending : s.pending = none)
    {e : Throwable} (hkind : e.kind = .runtimeException) :
    Thrown s₀ db st steps e { s with log := s.log ++ [.raised e] } :=
  ⟨h.silent rfl rfl rfl rfl (stepsOf_event rfl), hpending, hkind⟩

/-! ## Binding -/

/-- One native bind, with the value it is given. -/
theorem Binding.wp_bindImage {index : Nat} {image : BindImage}
    (h : Binding s₀ db st stmt call s) (hst : st ≠ 0) :
    (jni (sqlite3_bind env.lib st index image >>= throwUnlessOk env s₀.mConnectionPtr)).wp
      (bindPost s₀ db st (env.lib.bind call = SQLITE_OK)
        { stmt with bound := stmt.bound ++ [(index, image)] } (call + 1)) s := by
  rw [wp_jni, wp_bind]
  refine wp_withStmt (fun hzero => absurd hzero hst) (fun stmt' _ hstmt' => ?_)
    (fun _ hnone => ?_)
  · rw [h.held hst] at hstmt'
    cases hstmt'
    simp only [wp_bind, wp_nextCall, wp_record', h.calls]
    generalize env.lib.bind call = err
    have hused : InExecute s₀ db st []
        { s with calls := call + 1, log := s.log ++ [.used st (.bind index image err)] } :=
      h.inExecute.silent rfl rfl rfl rfl (stepsOf_event rfl)
    by_cases herr : err = SQLITE_OK
    · subst herr
      simp only [if_true, wp_bind, wp_modifyState, wp_pure, throwUnlessOk, ne_eq,
        not_true_eq_false, if_false, h.pending]
      refine ⟨True.intro, ⟨hused.ptr, hused.wrapper, hused.handle, fun _ => ?_, hused.steps⟩, rfl,
        rfl, fun _ => AList.lookup_insert _, h.owner, h.null⟩
      exact (AList.mem_insert _).2 (Or.inl rfl)
    · simp only [if_neg herr, wp_pure, throwUnlessOk, ne_eq, if_pos herr, wp_bind]
      refine hused.wp_connectionDb fun s₁ h₁ _ => ?_
      refine h₁.wp_throw fun e s₂ hkind h₂ hpending => ?_
      simp only [hpending]
      exact ⟨herr, h₂.thrown hkind⟩
  · rw [h.held hst] at hnone
    cases hnone

theorem bindPost_congr {P P' : Prop} {stmt stmt' : Stmt} {m : NativeProg α}
    (h : m.wp (bindPost s₀ db st P stmt call) s) (hP : P ↔ P')
    (hstmt : P → stmt = stmt') : m.wp (bindPost s₀ db st P' stmt' call) s := by
  refine wp_mono h ?_ ?_ (fun _ h => h)
  · intro _ s' hpost
    obtain ⟨hp, hbinding⟩ := hpost
    exact ⟨hP.1 hp, hstmt hp ▸ hbinding⟩
  · intro e s' hpost
    obtain ⟨hp, hthrown⟩ := hpost
    exact ⟨fun hp' => hp (hP.2 hp'), hthrown⟩

theorem imagesOf_cons {i : Nat} {arg : JavaObject} {rest : List JavaObject} {image : BindImage}
    (himage : arg.image = some image) :
    imagesOf i (arg :: rest) = (i + 1, image) :: imagesOf (i + 1) rest := by
  simp [imagesOf, himage]

/-- One argument, by its type. -/
theorem Binding.wp_bindArgument {i : Nat} {arg : JavaObject}
    (h : Binding s₀ db st stmt call s) (hst : st ≠ 0) (hshort : ShortTexts [arg]) :
    (bindArgument env st i arg).wp
      (bindPost s₀ db st (arg.image ≠ none ∧ env.lib.bind call = SQLITE_OK)
        { stmt with bound := stmt.bound ++ imagesOf i [arg] } (call + 1)) s := by
  have hbind : ∀ image, arg.image = some image →
      (jni (sqlite3_bind env.lib st (i + 1) image >>=
        throwUnlessOk env s₀.mConnectionPtr)).wp
      (bindPost s₀ db st (arg.image ≠ none ∧ env.lib.bind call = SQLITE_OK)
        { stmt with bound := stmt.bound ++ imagesOf i [arg] } (call + 1)) s := by
    intro image himage
    refine bindPost_congr (h.wp_bindImage hst) ?_ fun _ => ?_
    · rw [himage]
      simp
    · rw [imagesOf_cons himage]
      rfl
  simp only [bindArgument, connectionPtr, wp_bind, wp_getState, wp_pure, h.inExecute.ptr]
  cases arg with
  | null => exact hbind _ rfl
  | byte value => exact hbind _ rfl
  | short value => exact hbind _ rfl
  | integer value => exact hbind _ rfl
  | long value => exact hbind _ rfl
  | float value => exact hbind _ rfl
  | double value => exact hbind _ rfl
  | byteArray value => exact hbind _ rfl
  | boolean value =>
      cases value with
      | true => exact hbind _ rfl
      | false => exact hbind _ rfl
  | other text =>
      cases text with
      | error e =>
          exact ⟨fun hp => hp.1 rfl, h.inExecute.throwJava h.pending e.2⟩
      | ok text =>
          obtain ⟨value, rfl, hlength⟩ := hshort text (List.mem_singleton.2 rfl)
          show (jni (sqlite3_bind env.lib st (i + 1) (.text16 (text16 value)) >>=
            throwUnlessOk env s₀.mConnectionPtr)).wp _ s
          rw [text16_of_short hlength]
          exact hbind _ rfl

theorem ShortTexts.head {arg : JavaObject} {rest : List JavaObject}
    (h : ShortTexts (arg :: rest)) : ShortTexts [arg] := by
  intro text htext
  rw [List.mem_singleton] at htext
  exact h text (htext ▸ List.mem_cons_self)

theorem ShortTexts.tail {arg : JavaObject} {rest : List JavaObject}
    (h : ShortTexts (arg :: rest)) : ShortTexts rest :=
  fun text htext => h text (List.mem_cons_of_mem _ htext)

/-- The arguments from `i` on, left by the first that cannot be bound. -/
theorem Binding.wp_bindEach {i : Nat} {args : List JavaObject}
    (h : Binding s₀ db st stmt call s) (hst : st ≠ 0) (hshort : ShortTexts args) :
    (forEach (fun arg => bindArgument env st arg.2 arg.1) (args.zipIdx i)).wp
      (bindPost s₀ db st (AllBound env call args)
        { stmt with bound := stmt.bound ++ imagesOf i args } (call + args.length)) s := by
  induction args generalizing i call stmt s with
  | nil =>
      refine ⟨fun i hi => absurd hi (Nat.not_lt_zero i), ?_⟩
      rw [imagesOf, List.zipIdx_nil, List.filterMap_nil, List.append_nil]
      exact h
  | cons arg rest ih =>
      rw [List.zipIdx_cons, forEach, wp_bind]
      refine wp_mono (h.wp_bindArgument hst hshort.head) ?_ ?_ (fun _ h => h)
      · intro _ s₁ hpost
        obtain ⟨hfirst, h₁⟩ := hpost
        have hrest := ih (i := i + 1) h₁ hshort.tail
        rw [show call + 1 + rest.length = call + (arg :: rest).length by
          rw [List.length_cons]; omega] at hrest
        refine bindPost_congr hrest ?_ fun _ => ?_
        · rw [allBound_cons]
          exact (and_iff_right hfirst).symm
        · obtain ⟨image, himage⟩ := Option.ne_none_iff_exists'.1 hfirst.1
          rw [imagesOf_cons himage, imagesOf_cons himage, List.append_assoc]
          rfl
      · intro e s₁ hpost
        obtain ⟨hfirst, h₁⟩ := hpost
        refine ⟨fun hall => hfirst ?_, h₁⟩
        exact (allBound_cons.1 hall).1

/-- With a number of arguments that is not the statement's none is bound. -/
theorem Binding.wp_bindArguments {statement : PreparedStatement}
    {bindArgs : Option (List JavaObject)} (h : Binding s₀ db st stmt call s)
    (hptr : statement.mStatementPtr = st) (hparams : statement.mNumParameters = stmt.parameters)
    (hbound : stmt.bound = []) (hshort : ShortTexts (bindArgs.getD [])) :
    (bindArguments env statement bindArgs).wp
      (bindPost s₀ db st
        ((bindArgs.getD []).length = stmt.parameters ∧ AllBound env call (bindArgs.getD []))
        { stmt with bound := imagesOf 0 (bindArgs.getD []) }
        (call + (bindArgs.getD []).length)) s := by
  generalize hargs : bindArgs.getD [] = args at hshort ⊢
  simp only [bindArguments, hargs, hparams, hptr]
  split
  · next hcount => exact ⟨fun hp => hcount hp.1, h.inExecute.throwJava h.pending rfl⟩
  · next hcount =>
      have hcount := not_not.1 hcount
      by_cases hst : st = 0
      · have hnil : args = [] := by
          rw [h.null hst] at hcount
          exact List.length_eq_zero_iff.1 hcount
        subst hnil
        refine ⟨⟨hcount, fun i hi => absurd hi (Nat.not_lt_zero i)⟩, ?_⟩
        show Binding s₀ db st { stmt with bound := [] } call s
        rw [← hbound]
        exact h
      · refine bindPost_congr (h.wp_bindEach hst hshort) ?_ fun _ => ?_
        · exact (and_iff_right hcount).symm
        · rw [hbound, List.nil_append]

/-! ## Preparing -/

/-- A metadata call that looks at the statement. -/
theorem Binding.wp_metadata {onNull : α} {use : StmtUse} {f : Stmt → α}
    (h : Binding s₀ db st stmt call s) (huse : stepsOf [.used st use] = [])
    {failure : Option RuntimeThrowable} {Q : Post NativeState Throwable α}
    (hok : ∀ a s', failure = none → (st ≠ 0 → a = f stmt) → (st = 0 → a = onNull) →
      Binding s₀ db st stmt call s' → Q.ok a s')
    (hthrows : ∀ e s', failure ≠ none → Thrown s₀ db st [] e s' → Q.throws e s') :
    (orFail failure (jni (withStmt st onNull fun stmt => do
      record' (.used st use)
      pure (f stmt)))).wp Q s := by
  cases failure with
  | some e => exact hthrows e.1 _ (by simp) (h.inExecute.throwJava h.pending e.2)
  | none =>
      rw [orFail, wp_jni]
      refine wp_withStmt (fun hzero => ?_) (fun stmt' hst hstmt' => ?_) (fun hst hnone => ?_)
      · simp only [h.pending]
        exact hok _ _ rfl (absurd hzero) (fun _ => rfl) h
      · rw [h.held hst] at hstmt'
        cases hstmt'
        simp only [wp_bind, wp_record', wp_pure, h.pending]
        refine hok _ _ rfl (fun _ => rfl) (fun hzero => absurd hzero hst)
          ⟨?_, rfl, h.calls, h.held, h.owner, h.null⟩
        exact h.inExecute.silent rfl rfl rfl rfl (stepsOf_event huse)
      · rw [h.held hst] at hnone
        cases hnone

theorem Binding.wp_describeStatement {sql : String} (h : Binding s₀ db st stmt call s) :
    (describeStatement env sql st).wp
      { ok := fun statement s' => Described env call sql ∧ statement.mStatementPtr = st ∧
          statement.mNumParameters = stmt.parameters ∧ statement.mInCache = false ∧
          Binding s₀ db st stmt call s'
        throws := fun e s' => ¬ Described env call sql ∧ Thrown s₀ db st [] e s'
        dead := fun _ => False } s := by
  simp only [describeStatement, wp_bind, wp_getState, h.calls]
  refine h.wp_metadata (f := Stmt.parameters) rfl ?_ ?_
  · intro numParameters s₁ hcount hlive hnull h₁
    have hparams : numParameters = stmt.parameters := by
      by_cases hst : st = 0
      · rw [hnull hst, h.null hst]
      · exact hlive hst
    dsimp only
    split
    · next e htype =>
        refine ⟨fun hdescribed => ?_, h₁.inExecute.throwJava h₁.pending e.2⟩
        obtain ⟨_, ⟨type, htype'⟩, _⟩ := hdescribed
        rw [htype] at htype'
        cases htype'
    · next type htype =>
        rw [wp_bind]
        refine h₁.wp_metadata (f := Stmt.readOnly) rfl ?_ ?_
        · intro readOnly s₂ hreadOnly _ _ h₂
          exact ⟨⟨hcount, ⟨type, htype⟩, hreadOnly⟩, rfl, hparams, rfl, h₂⟩
        · intro e s₂ hreadOnly h₂
          exact ⟨fun hdescribed => hreadOnly hdescribed.2.2, h₂⟩
  · intro e s₁ hcount h₁
    exact ⟨fun hdescribed => hcount hdescribed.1, h₁⟩

/-- What the prepare returned: the number of a new statement, or null for a
text without one. -/
def Prepared (env : NativeEnv) (s₀ : NativeState) (sql : String) (st : Nat) (stmt : Stmt) :
    Prop :=
  stmt.bound = [] ∧
    ((st ≠ 0 ∧ st = s₀.next ∧
        env.lib.prepare16_v2 s₀.calls sql = .prepared stmt.parameters stmt.readOnly) ∨
      (st = 0 ∧ env.lib.prepare16_v2 s₀.calls sql = .empty))

/-- The start of a call on an open connection. -/
theorem InExecute.start (hatt : Attached s₀ db) : InExecute s₀ db 0 [] s₀ :=
  ⟨rfl, hatt.wrapper, hatt.handle, fun h => absurd rfl h, (List.append_nil _).symm⟩

theorem wp_prepare_exact {sql : String} (hatt : Attached s₀ db) (hpos : 0 < s₀.next)
    (hpending : s₀.pending = none) :
    (jni (nativePrepareStatement env s₀.mConnectionPtr sql)).wp
      { ok := fun st s' => ∃ stmt, Prepared env s₀ sql st stmt ∧
          Binding s₀ db st stmt (s₀.calls + 1) s'
        throws := fun e s' => (∃ err, env.lib.prepare16_v2 s₀.calls sql = .failed err) ∧
          Thrown s₀ db 0 [] e s'
        dead := fun _ => False } s₀ := by
  rw [wp_jni]
  simp only [nativePrepareStatement, connectionDb, wp_bind, wp_getState, hatt.wrapper,
    wp_record', wp_pure]
  have hderef : InExecute s₀ db 0 []
      { s₀ with log := s₀.log ++ [.deref s₀.mConnectionPtr true] } :=
    (InExecute.start hatt).silent rfl rfl rfl rfl (stepsOf_event rfl)
  refine hderef.wp_onHandle fun counters => ?_
  simp only [wp_bind, wp_nextCall]
  split
  · next err herr =>
      have hcall : InExecute s₀ db 0 [] { s₀ with
          calls := s₀.calls + 1, log := s₀.log ++ [.deref s₀.mConnectionPtr true] } :=
        hderef.silent rfl rfl rfl rfl rfl
      simp only [wp_pure, if_pos err.2, wp_bind]
      refine hcall.wp_throw fun e s₁ hkind h₁ hpending₁ => ?_
      simp only [wp_pure, hpending₁]
      exact ⟨⟨err, herr⟩, h₁.thrown hkind⟩
  · next hempty =>
      simp only [wp_pure, ne_eq, not_true_eq_false, if_false, hpending]
      refine ⟨⟨db, 0, true, []⟩, ⟨rfl, Or.inr ⟨rfl, hempty⟩⟩, ?_, rfl, rfl,
        fun h => absurd rfl h, rfl, fun _ => rfl⟩
      exact hderef.silent rfl rfl rfl rfl rfl
  · next parameters readOnly hprepared =>
      simp only [wp_bind, wp_allocate, wp_modifyState, wp_record', wp_pure, ne_eq,
        not_true_eq_false, if_false, hpending]
      have hne : s₀.next ≠ 0 := by omega
      refine ⟨⟨db, parameters, readOnly, []⟩, ⟨rfl, Or.inl ⟨hne, rfl, hprepared⟩⟩,
        ⟨rfl, hatt.wrapper, hatt.handle, fun _ => ?_, ?_⟩, rfl, rfl,
        fun _ => AList.lookup_insert _, rfl, fun h => absurd h hne⟩
      · exact (AList.mem_insert _).2 (Or.inl rfl)
      · rw [stepsOf_event rfl]
        exact hderef.steps

/-- Finalizing adds no step. -/
theorem InExecute.wp_finalize (h : InExecute s₀ db st steps s) (hpending : s.pending = none)
    {Q : Post NativeState Throwable Unit}
    (hQ : ∀ s', stepsOf s'.log = stepsOf s.log → Q.ok () s') :
    (jni (nativeFinalizeStatement s₀.mConnectionPtr st)).wp Q s := by
  rw [wp_jni]
  simp only [nativeFinalizeStatement, wp_bind]
  refine h.wp_connectionDb fun s₁ h₁ hpending₁ => ?_
  have hsteps₁ : stepsOf s₁.log = stepsOf s.log := by rw [h₁.steps, h.steps]
  have hnone : s₁.pending = none := by rw [hpending₁, hpending]
  simp only [sqlite3_finalize, wp_bind, wp_getState]
  split
  · simp only [wp_pure, hnone]
    exact hQ s₁ hsteps₁
  · next hst =>
      obtain ⟨stmt, hlookup⟩ := Option.isSome_iff_exists.1 (AList.lookup_isSome.2 (h₁.live hst))
      simp only [hlookup, wp_bind, wp_modifyState, wp_record', hnone]
      exact hQ _ ((stepsOf_event rfl).trans hsteps₁)

/-- What was compiled, or the exception of what went wrong; a statement that
could not be described is gone again. -/
theorem wp_acquire_exact {sql : String} (hatt : Attached s₀ db) (hpos : 0 < s₀.next)
    (hpending : s₀.pending = none) :
    (acquirePreparedStatement env sql).wp
      { ok := fun statement s' => ∃ stmt,
          Prepared env s₀ sql statement.mStatementPtr stmt ∧
          Described env (s₀.calls + 1) sql ∧ statement.mNumParameters = stmt.parameters ∧
          statement.mInCache = false ∧
          Binding s₀ db statement.mStatementPtr stmt (s₀.calls + 1) s'
        throws := fun _ s' => ((∃ err, env.lib.prepare16_v2 s₀.calls sql = .failed err) ∨
          ¬ Described env (s₀.calls + 1) sql) ∧ stepsOf s'.log = stepsOf s₀.log
        dead := fun _ => False } s₀ := by
  simp only [acquirePreparedStatement, connectionPtr, wp_bind, wp_getState, wp_pure]
  refine wp_mono (wp_prepare_exact hatt hpos hpending) ?_ ?_ (fun _ h => h)
  · intro st s₁ hpost
    obtain ⟨stmt, hprepared, h₁⟩ := hpost
    simp only [wp_bind, wp_tryCatch]
    refine wp_mono h₁.wp_describeStatement ?_ ?_ (fun _ h => h)
    · intro statement s₂ hpost
      obtain ⟨hdescribed, rfl, hparams, hcache, h₂⟩ := hpost
      exact ⟨stmt, hprepared, hdescribed, hparams, hcache, h₂⟩
    · intro e s₂ hpost
      obtain ⟨hdescribed, h₂⟩ := hpost
      simp only [if_pos h₂.kind, wp_bind, wp_getState, wp_pure, h₂.inExecute.ptr]
      refine h₂.inExecute.wp_finalize h₂.pending fun s₃ hsteps => ?_
      simp only [wp_raise]
      exact ⟨Or.inr hdescribed, by rw [hsteps, h₂.inExecute.steps, List.append_nil]⟩
  · intro e s₁ hpost
    obtain ⟨herr, h₁⟩ := hpost
    exact ⟨Or.inl herr, by rw [h₁.inExecute.steps, List.append_nil]⟩

/-! ## The step -/

/-- The one step of a statement; stepping null is none. -/
def stepsWith (st : Nat) (bound : List (Nat × BindImage)) (answer : StepAnswer) :
    List (Nat × List (Nat × BindImage) × StepAnswer) :=
  if st = 0 then [] else [(st, bound, answer)]

/-- A native call that runs the statement: once, unless that is null, and then
it throws. -/
def RunsStatement (env : NativeEnv) (native : Nat → Nat → NativeProg α) : Prop :=
  ∀ {s₀ s : NativeState} {db st call : Nat} {stmt : Stmt}, Binding s₀ db st stmt call s →
    (jni (native s₀.mConnectionPtr st)).wp
      { ok := fun _ s' => st ≠ 0 ∧ s'.pending = none ∧
          InExecute s₀ db st (stepsWith st stmt.bound (env.lib.step call)) s'
        throws := fun e s' =>
          Thrown s₀ db st (stepsWith st stmt.bound (env.lib.step call)) e s'
        dead := fun _ => False } s

theorem Binding.wp_executeNonQuery (h : Binding s₀ db st stmt call s)
    {Q : Post NativeState Throwable Nat}
    (hdone : ∀ s', st ≠ 0 → s'.pending = none →
      InExecute s₀ db st (stepsWith st stmt.bound (env.lib.step call)) s' →
      Q.ok SQLITE_DONE s')
    (hthrows : ∀ err e s', err ≠ SQLITE_DONE → e.kind = .runtimeException →
      s'.pending = some e →
      InExecute s₀ db st (stepsWith st stmt.bound (env.lib.step call)) s' → Q.ok err s') :
    (executeNonQuery env s₀.mConnectionPtr st).wp Q s := by
  have hstep : (sqlite3_step env.lib st).wp
      { ok := fun err s' => (st = 0 → err = SQLITE_MISUSE) ∧ s'.pending = none ∧
          InExecute s₀ db st (stepsWith st stmt.bound (env.lib.step call)) s'
        throws := fun _ _ => False
        dead := fun _ => False } s := by
    refine wp_withStmt (fun hzero => ?_) (fun stmt' hst hstmt' => ?_) (fun hst hnone => ?_)
    · rw [stepsWith, if_pos hzero]
      exact ⟨fun _ => rfl, h.pending, h.inExecute⟩
    · rw [h.held hst] at hstmt'
      cases hstmt'
      simp only [wp_bind, wp_nextCall, h.calls, h.owner]
      have hcall : InExecute s₀ db st [] { s with calls := call + 1 } :=
        h.inExecute.silent rfl rfl rfl rfl rfl
      refine hcall.wp_onHandle fun counters => ?_
      simp only [wp_bind, wp_record', wp_modifyState, wp_pure]
      refine ⟨fun hzero => absurd hzero hst, h.pending, h.inExecute.ptr, h.inExecute.wrapper,
        (AList.mem_insert _).2 (Or.inl rfl), h.inExecute.live, ?_⟩
      rw [stepsWith, if_neg hst, stepsOf_append, h.inExecute.steps, List.append_nil]
      rfl
    · rw [h.held hst] at hnone
      cases hnone
  refine wp_executeNonQuery_of_step
    (wp_mono hstep (fun _ _ h => h) (fun _ _ h => h.elim) (fun _ h => h.elim))
    (fun err s₁ h₁ => ⟨h₁.2.2.wrapper, h₁.2.2.handle⟩) ?_ ?_
  · intro s₁ hpost
    obtain ⟨hmisuse, hpending₁, h₁⟩ := hpost
    refine hdone s₁ (fun hzero => ?_) hpending₁ h₁
    have := hmisuse hzero
    cases this
  · intro err e s₁ s₂ hpost herr hkind hstepThrows
    obtain ⟨_, _, h₁⟩ := hpost
    obtain ⟨h₂, hpending₂⟩ := h₁.stepThrows hstepThrows
    exact hthrows err e s₂ herr hkind hpending₂ h₂

theorem runsStatement_nativeExecute : RunsStatement env (nativeExecute env) := by
  intro s₀ s db st call stmt h
  rw [wp_jni]
  simp only [nativeExecute, wp_bind]
  refine h.wp_executeNonQuery ?_ ?_
  · intro s' hst hpending h'
    simp only [wp_pure, hpending]
    exact ⟨hst, True.intro, h'⟩
  · intro err e s' _ hkind hpending h'
    simp only [wp_pure, hpending]
    exact h'.thrown hkind

theorem runsStatement_nativeExecuteForLastInsertedRowId :
    RunsStatement env (nativeExecuteForLastInsertedRowId env) := by
  intro s₀ s db st call stmt h
  rw [wp_jni]
  simp only [nativeExecuteForLastInsertedRowId, wp_bind]
  refine h.wp_executeNonQuery ?_ ?_
  · intro s₁ hst hpending₁ h₁
    simp only [if_true, wp_bind]
    refine h₁.wp_connectionDb fun s₂ h₂ hpending₂ => ?_
    have hpending : s₂.pending = none := by rw [hpending₂, hpending₁]
    simp only [wp_bind]
    refine h₂.wp_onHandle fun counters => ?_
    simp only [wp_pure]
    split
    · refine h₂.wp_onHandle fun counters' => ?_
      simp only [wp_pure, hpending]
      exact ⟨hst, True.intro, h₂⟩
    · simp only [wp_pure, hpending]
      exact ⟨hst, True.intro, h₂⟩
  · intro err e s' herr hkind hpending h'
    simp only [if_neg herr, wp_pure, hpending]
    exact h'.thrown hkind

/-! ## The whole call -/

theorem InExecute.wp_release {statement : PreparedStatement}
    (h : InExecute s₀ db statement.mStatementPtr steps s) (hpending : s.pending = none)
    (hcache : statement.mInCache = false) {Q : Post NativeState Throwable Unit}
    (hQ : ∀ s', stepsOf s'.log = stepsOf s₀.log ++ steps → Q.ok () s') :
    (releasePreparedStatement env statement).wp Q s := by
  simp only [releasePreparedStatement, hcache, Bool.false_eq_true, if_false,
    finalizePreparedStatement, connectionPtr, wp_bind, wp_getState, wp_pure, h.ptr]
  exact h.wp_finalize hpending fun s' hsteps => hQ s' (hsteps.trans h.steps)

theorem steps_iff {sql : String} {args : List JavaObject} (hprepared : Prepared env s₀ sql st stmt)
    (hdescribed : Described env (s₀.calls + 1) sql) (hst : st ≠ 0) :
    Steps env s₀.calls sql args ↔
      args.length = stmt.parameters ∧ AllBound env (s₀.calls + 1) args := by
  rcases hprepared.2 with ⟨_, _, hprepare⟩ | ⟨hzero, _⟩
  · constructor
    · intro h
      obtain ⟨⟨readOnly, hprepare'⟩, _, hall⟩ := h
      rw [hprepare] at hprepare'
      injection hprepare' with hparams
      exact ⟨hparams.symm, hall⟩
    · intro h
      obtain ⟨hcount, hall⟩ := h
      exact ⟨⟨stmt.readOnly, by rw [hprepare, hcount]⟩, hdescribed, hall⟩
  · exact absurd hzero hst

theorem not_steps_of_empty {sql : String} {args : List JavaObject}
    (hprepared : Prepared env s₀ sql 0 stmt) : ¬ Steps env s₀.calls sql args := by
  rcases hprepared.2 with ⟨hne, _⟩ | ⟨_, hprepare⟩
  · exact absurd rfl hne
  · intro h
    obtain ⟨⟨readOnly, hprepare'⟩, _⟩ := h
    rw [hprepare] at hprepare'
    cases hprepare'

/-- The step of this call, if there is one. -/
def stepOf (env : NativeEnv) (s : NativeState) (args : List JavaObject) :
    Nat × List (Nat × BindImage) × StepAnswer :=
  (s.next, imagesOf 0 args, env.lib.step (s.calls + 1 + args.length))

theorem stepsWith_eq {sql : String} {args : List JavaObject}
    (hprepared : Prepared env s₀ sql st stmt) (hst : st ≠ 0) :
    stepsWith st (imagesOf 0 args) (env.lib.step (s₀.calls + 1 + args.length)) =
      [stepOf env s₀ args] := by
  rcases hprepared.2 with ⟨_, hnext, _⟩ | ⟨hzero, _⟩
  · rw [stepsWith, if_neg hst, stepOf, hnext]
  · exact absurd hzero hst

/-- Binding and running what was compiled. -/
theorem Binding.wp_bindAndRun {native : Nat → Nat → NativeProg α} {sql : String}
    {statement : PreparedStatement} {bindArgs : Option (List JavaObject)}
    (hnative : RunsStatement env native)
    (hprepared : Prepared env s₀ sql statement.mStatementPtr stmt)
    (hdescribed : Described env (s₀.calls + 1) sql)
    (hparams : statement.mNumParameters = stmt.parameters)
    (h : Binding s₀ db statement.mStatementPtr stmt (s₀.calls + 1) s)
    (hshort : ShortTexts (bindArgs.getD [])) :
    (do
      bindArguments env statement bindArgs
      let ptr ← connectionPtr
      jni (native ptr statement.mStatementPtr) : NativeProg α).wp
      { ok := fun _ s' => Steps env s₀.calls sql (bindArgs.getD []) ∧ s'.pending = none ∧
          InExecute s₀ db statement.mStatementPtr [stepOf env s₀ (bindArgs.getD [])] s'
        throws := fun e s' =>
          (Steps env s₀.calls sql (bindArgs.getD []) ∧
            Thrown s₀ db statement.mStatementPtr [stepOf env s₀ (bindArgs.getD [])] e s') ∨
          (¬ Steps env s₀.calls sql (bindArgs.getD []) ∧
            Thrown s₀ db statement.mStatementPtr [] e s')
        dead := fun _ => False } s := by
  rw [wp_bind]
  refine wp_mono (h.wp_bindArguments rfl hparams hprepared.1 hshort) ?_ ?_ (fun _ h => h)
  · intro _ s₁ hpost
    obtain ⟨hbound, h₁⟩ := hpost
    simp only [wp_bind, connectionPtr, wp_getState, wp_pure, h₁.inExecute.ptr]
    have hrun := hnative h₁
    by_cases hst : statement.mStatementPtr = 0
    · -- There is nothing to step: the native call throws.
      refine wp_mono hrun (fun a s₂ h₂ => absurd hst h₂.1) (fun e s₂ h₂ => Or.inr ?_)
        (fun _ h => h)
      rw [stepsWith, if_pos hst] at h₂
      rw [hst] at hprepared
      exact ⟨not_steps_of_empty hprepared, h₂⟩
    · have hsteps := (steps_iff hprepared hdescribed hst).2 hbound
      dsimp only at hrun
      rw [stepsWith_eq hprepared hst] at hrun
      exact wp_mono hrun (fun a s₂ h₂ => ⟨hsteps, h₂.2⟩) (fun e s₂ h₂ => Or.inl ⟨hsteps, h₂⟩)
        (fun _ h => h)
  · intro e s₁ hpost
    obtain ⟨hbound, h₁⟩ := hpost
    refine Or.inr ⟨fun hsteps => ?_, h₁⟩
    by_cases hst : statement.mStatementPtr = 0
    · rw [hst] at hprepared
      exact not_steps_of_empty hprepared hsteps
    · exact hbound ((steps_iff hprepared hdescribed hst).1 hsteps)

/-- A call with a text steps it once, or throws without having stepped. -/
theorem wp_executeWith_exact {native : Nat → Nat → NativeProg α} {sql : String}
    {bindArgs : Option (List JavaObject)} (hnative : RunsStatement env native)
    (hatt : Attached s₀ db) (hpos : 0 < s₀.next) (hpending : s₀.pending = none)
    (hshort : ShortTexts (bindArgs.getD [])) :
    (executeWith env native (some sql) bindArgs).wp
      { ok := fun _ s' => Steps env s₀.calls sql (bindArgs.getD []) ∧
          stepsOf s'.log = stepsOf s₀.log ++ [stepOf env s₀ (bindArgs.getD [])]
        throws := fun _ s' =>
          (Steps env s₀.calls sql (bindArgs.getD []) ∧
            stepsOf s'.log = stepsOf s₀.log ++ [stepOf env s₀ (bindArgs.getD [])]) ∨
          (¬ Steps env s₀.calls sql (bindArgs.getD []) ∧ stepsOf s'.log = stepsOf s₀.log)
        dead := fun _ => False } s₀ := by
  simp only [executeWith, wp_bind]
  refine wp_mono (wp_acquire_exact hatt hpos hpending) ?_ ?_ (fun _ h => h)
  · intro statement s₁ hpost
    obtain ⟨stmt, hprepared, hdescribed, hparams, hcache, h₁⟩ := hpost
    simp only [wp_tryFinally]
    refine wp_mono (h₁.wp_bindAndRun hnative hprepared hdescribed hparams hshort) ?_ ?_
      (fun _ h => h)
    · intro a s₂ hpost
      obtain ⟨hsteps, hpending₂, h₂⟩ := hpost
      exact h₂.wp_release hpending₂ hcache fun s₃ h₃ => ⟨hsteps, h₃⟩
    · intro e s₂ hpost
      rcases hpost with ⟨hsteps, h₂⟩ | ⟨hsteps, h₂⟩
      · exact h₂.inExecute.wp_release h₂.pending hcache fun s₃ h₃ => Or.inl ⟨hsteps, h₃⟩
      · refine h₂.inExecute.wp_release h₂.pending hcache fun s₃ h₃ => Or.inr ⟨hsteps, ?_⟩
        rw [h₃, List.append_nil]
  · intro e s₁ hpost
    obtain ⟨hfailed, hsteps⟩ := hpost
    refine Or.inr ⟨?_, hsteps⟩
    intro h
    obtain ⟨⟨readOnly, hprepare⟩, hdescribed, _⟩ := h
    rcases hfailed with ⟨err, herr⟩ | hnot
    · rw [hprepare] at herr
      cases herr
    · exact hnot hdescribed

theorem imagesOf_eq {i : Nat} {args : List JavaObject}
    (himages : ∀ arg ∈ args, arg.image ≠ none) :
    (imagesOf i args).map (fun b => (b.1, some b.2)) =
      (args.zipIdx i).map fun a => (a.2 + 1, a.1.image) := by
  induction args generalizing i with
  | nil => rfl
  | cons arg rest ih =>
      obtain ⟨image, himage⟩ := Option.ne_none_iff_exists'.1 (himages arg List.mem_cons_self)
      rw [imagesOf_cons himage, List.map_cons, ih fun x hx => himages x (List.mem_cons_of_mem _ hx),
        List.zipIdx_cons, List.map_cons, himage]

end

end OrmBenchmark.Ref
