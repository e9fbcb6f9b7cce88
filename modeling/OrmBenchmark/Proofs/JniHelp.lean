import OrmBenchmark.Ref.JniHelp
import OrmBenchmark.Ref.Sqlite

/-!
# What the JNI helpers leave behind

Every reference and array that a helper obtains it gives back, whatever the
virtual machine answers, and the exception that is pending afterwards is the
one its comment promises. Three answers break that. A `getMessage` that throws
while an exception is summarised leaves its own exception pending, and the next
JNI call, which may not be made then, is `FindClass` or `Throw`. And a stack
trace is cut to the buffer by its length in UTF-16 units but written there as
bytes, which outside ASCII are more.

A state is followed as what it shows, which is all of it but the number of the
next reference.
-/

namespace OrmBenchmark.Ref

open OrmBenchmark.Lib OrmBenchmark.Lib.Prog

/-- A state without the number of the next reference. -/
structure JniView where
  pending : Option Throwable
  calls : Nat
  locals : Nat → Option LocalRef
  chars : Nat → Option (List UInt8)
  log : List LogLine

structure Viewed (v : JniView) (s : JniState) : Prop where
  pending : s.pending = v.pending
  calls : s.calls = v.calls
  locals : s.locals = v.locals
  chars : s.chars = v.chars
  log : s.log = v.log
  free : ∀ n, s.next ≤ n → v.locals n = none ∧ v.chars n = none

namespace JniView

def called (v : JniView) : JniView := { v with calls := v.calls + 1 }

def holding (v : JniView) (ref : Nat) (object : LocalRef) : JniView :=
  { v with locals := Function.update v.locals ref (some object) }

def without (v : JniView) (ref : Nat) : JniView :=
  { v with locals := Function.update v.locals ref none }

def throwing (v : JniView) (pending : Option Throwable) : JniView := { v with pending := pending }

def lending (v : JniView) (n : Nat) (bytes : List UInt8) : JniView :=
  { v with chars := Function.update v.chars n (some bytes) }

def returned (v : JniView) (n : Nat) : JniView :=
  { v with chars := Function.update v.chars n none }

/-- Some calls later, with this pending and all else as it was. -/
def after (v : JniView) (calls : Nat) (pending : Option Throwable) : JniView :=
  { v with calls := calls, pending := pending }

/-- … with more in the log. -/
def logged (v : JniView) (log : List LogLine) : JniView := { v with log := log }

end JniView

section

variable {jvm : Jvm} {v : JniView} {s : JniState} {α : Type} {ref : Nat} {object : LocalRef}

theorem JniView.live_self : (v.holding ref object).locals ref = some object :=
  Function.update_self _ _ _

theorem JniView.lent_self {n : Nat} {bytes : List UInt8} :
    (v.lending n bytes).chars n = some bytes := Function.update_self _ _ _

/-- A reference is still there when another one is. -/
theorem JniView.live_of_holding {r : Nat} {object' : LocalRef} (hlive : v.locals ref = some object)
    (hfree : v.locals r = none) : (v.holding r object').locals ref = some object := by
  show Function.update v.locals r (some object') ref = some object
  rw [Function.update_of_ne ?_, hlive]
  intro heq
  rw [← heq, hlive] at hfree
  cases hfree

/-! ## The environment -/

namespace Viewed

open JNIEnv

theorem wp_checkPending {Q : Post JniState Empty Unit} (h : Viewed v s)
    (hquiet : v.pending = none) (hok : Q.ok () s) : checkPending.wp Q s := by
  simp only [checkPending, wp_bind, wp_getState]
  rw [h.pending, hquiet]
  exact hok

theorem wp_deref {Q : Post JniState Empty LocalRef} (h : Viewed v s)
    (hlive : v.locals ref = some object) (hok : Q.ok object s) : (deref ref).wp Q s := by
  simp only [deref, wp_bind, wp_getState]
  rw [h.locals, hlive]
  exact hok

theorem wp_newLocalRef {Q : Post JniState Empty Nat} (h : Viewed v s)
    (hok : ∀ r s', v.locals r = none → Viewed (v.holding r object) s' → Q.ok r s') :
    (newLocalRef object).wp Q s := by
  refine hok s.next _ (h.free _ (Nat.le_refl _)).1 ⟨h.pending, h.calls, ?_, h.chars, h.log, ?_⟩
  · show Function.update s.locals s.next (some object) = _
    rw [h.locals]
    rfl
  · intro n hn
    have hn : s.next + 1 ≤ n := hn
    obtain ⟨hlocals, hchars⟩ := h.free n (by omega)
    refine ⟨?_, hchars⟩
    show Function.update v.locals s.next (some object) n = none
    rw [Function.update_of_ne (by omega), hlocals]

theorem wp_setPending {Q : Post JniState Empty Unit} {pending : Option Throwable}
    (h : Viewed v s) (hok : ∀ s', Viewed (v.throwing pending) s' → Q.ok () s') :
    (setPending pending).wp Q s :=
  hok _ ⟨rfl, h.calls, h.locals, h.chars, h.log, h.free⟩

theorem wp_ExceptionClear {Q : Post JniState Empty Unit} (h : Viewed v s)
    (hok : ∀ s', Viewed (v.throwing none) s' → Q.ok () s') : ExceptionClear.wp Q s :=
  h.wp_setPending hok

theorem wp_ExceptionCheck {Q : Post JniState Empty Bool} (h : Viewed v s)
    (hok : Q.ok v.pending.isSome s) : ExceptionCheck.wp Q s := by
  simp only [ExceptionCheck, wp_bind, wp_getState, wp_pure]
  rw [h.pending]
  exact hok

theorem wp_ExceptionOccurred {Q : Post JniState Empty (Option Nat)} {e : Throwable}
    (h : Viewed v s) (hpending : v.pending = some e)
    (hok : ∀ r s', v.locals r = none → Viewed (v.holding r (.throwable e)) s' → Q.ok (some r) s') :
    ExceptionOccurred.wp Q s := by
  simp only [ExceptionOccurred, wp_bind, wp_getState]
  rw [h.pending, hpending]
  exact wp_bind.2 (h.wp_newLocalRef hok)

theorem wp_writeLog {Q : Post JniState Empty Unit} {line : LogLine} (h : Viewed v s)
    (hok : ∀ s', Viewed (v.logged (v.log ++ [line])) s' → Q.ok () s') :
    (writeLog line).wp Q s := by
  refine hok _ ⟨h.pending, h.calls, h.locals, h.chars, ?_, h.free⟩
  show s.log ++ [line] = v.log ++ [line]
  rw [h.log]

theorem wp_DeleteLocalRef {Q : Post JniState Empty Unit} (h : Viewed v s)
    (hlive : v.locals ref = some object) (hok : ∀ s', Viewed (v.without ref) s' → Q.ok () s') :
    (DeleteLocalRef ref).wp Q s := by
  rw [DeleteLocalRef, wp_bind]
  refine h.wp_deref hlive (hok _ ⟨h.pending, h.calls, ?_, h.chars, h.log, ?_⟩)
  · show Function.update s.locals ref none = _
    rw [h.locals]
    rfl
  · intro n hn
    obtain ⟨hlocals, hchars⟩ := h.free n hn
    refine ⟨?_, hchars⟩
    show Function.update v.locals ref none n = none
    rw [Function.update_apply, hlocals, ite_self]

/-- What is deleted after it was obtained leaves nothing. -/
theorem of_without (h : Viewed ((v.holding ref object).without ref) s)
    (hfree : v.locals ref = none) : Viewed v s := by
  have hlocals : ((v.holding ref object).without ref).locals = v.locals := by
    show Function.update (Function.update v.locals ref (some object)) ref none = v.locals
    rw [Function.update_idem, ← hfree, Function.update_eq_self]
  exact ⟨h.pending, h.calls, h.locals.trans hlocals, h.chars, h.log,
    fun n hn => ⟨hlocals ▸ (h.free n hn).1, (h.free n hn).2⟩⟩

theorem of_returned {n : Nat} {bytes : List UInt8} (h : Viewed ((v.lending n bytes).returned n) s)
    (hfree : v.chars n = none) : Viewed v s := by
  have hchars : ((v.lending n bytes).returned n).chars = v.chars := by
    show Function.update (Function.update v.chars n (some bytes)) n none = v.chars
    rw [Function.update_idem, ← hfree, Function.update_eq_self]
  exact ⟨h.pending, h.calls, h.locals, h.chars.trans hchars, h.log,
    fun n hn => ⟨(h.free n hn).1, hchars ▸ (h.free n hn).2⟩⟩

theorem quiet (h : Viewed v s) (hquiet : v.pending = none) : Viewed (v.throwing none) s :=
  ⟨h.pending.trans hquiet, h.calls, h.locals, h.chars, h.log, h.free⟩

theorem wp_ReleaseStringUTFChars {Q : Post JniState Empty Unit} {n : Nat} {bytes : List UInt8}
    (h : Viewed v s) (hlent : v.chars n = some bytes)
    (hok : ∀ s', Viewed (v.returned n) s' → Q.ok () s') : (ReleaseStringUTFChars n).wp Q s := by
  simp only [ReleaseStringUTFChars, wp_bind, wp_getState]
  rw [h.chars, hlent]
  refine hok _ ⟨h.pending, h.calls, h.locals, ?_, h.log, ?_⟩
  · show Function.update s.chars n none = _
    rw [h.chars]
    rfl
  · intro m hm
    obtain ⟨hlocals, hchars⟩ := h.free m hm
    refine ⟨hlocals, ?_⟩
    show Function.update v.chars n none m = none
    rw [Function.update_apply, hchars, ite_self]

theorem wp_GetObjectClass {Q : Post JniState Empty Nat} (h : Viewed v s)
    (hquiet : v.pending = none) (hlive : v.locals ref = some object)
    (hok : ∀ r name s', v.locals r = none → Viewed (v.holding r (.clazz name)) s' → Q.ok r s') :
    (GetObjectClass ref).wp Q s := by
  simp only [GetObjectClass, wp_bind]
  refine h.wp_checkPending hquiet (wp_bind.2 (h.wp_deref hlive ?_))
  exact h.wp_newLocalRef fun r s' hfree h' => hok r _ s' hfree h'

theorem wp_GetMethodID {Q : Post JniState Empty Unit} (h : Viewed v s)
    (hquiet : v.pending = none) (hlive : v.locals ref = some object) (hok : Q.ok () s) :
    (GetMethodID ref).wp Q s := by
  simp only [GetMethodID, wp_bind]
  exact h.wp_checkPending hquiet (wp_bind.2 (h.wp_deref hlive hok))

/-- A call that can fail. -/
theorem wp_nextJniCall {Q : Post JniState Empty Nat} (h : Viewed v s)
    (hok : ∀ s', Viewed v.called s' → Q.ok v.calls s') : nextJniCall.wp Q s := by
  show Q.ok s.calls { s with calls := s.calls + 1 }
  rw [h.calls]
  exact hok _ ⟨h.pending, rfl, h.locals, h.chars, h.log, h.free⟩

theorem wp_newOrNull {Q : Post JniState Empty (Option Nat)} {failure : Option Throwable}
    (h : Viewed v s)
    (hok : failure = none → ∀ r s', v.locals r = none → Viewed (v.holding r object) s' →
      Q.ok (some r) s')
    (hnull : ∀ e s', failure = some e → Viewed (v.throwing (some e)) s' → Q.ok none s') :
    (newOrNull failure object).wp Q s := by
  cases failure with
  | none =>
      simp only [newOrNull, wp_bind]
      exact h.wp_newLocalRef fun r s' hfree h' => hok rfl r s' hfree h'
  | some e =>
      simp only [newOrNull, wp_bind]
      exact h.wp_setPending fun s' h' => hnull e s' rfl h'

theorem wp_FindClass {Q : Post JniState Empty (Option Nat)} {name : String} (h : Viewed v s)
    (hquiet : v.pending = none)
    (hok : jvm.FindClass v.calls name = none → ∀ r s', v.locals r = none →
      Viewed (v.called.holding r (.clazz name)) s' → Q.ok (some r) s')
    (hnull : ∀ e s', jvm.FindClass v.calls name = some e →
      Viewed (v.called.throwing (some e)) s' → Q.ok none s') :
    (FindClass jvm name).wp Q s := by
  simp only [FindClass, wp_bind]
  refine h.wp_checkPending hquiet (wp_bind.2 ?_)
  exact h.wp_nextJniCall fun s' h' => h'.wp_newOrNull hok hnull

theorem wp_NewObject {Q : Post JniState Empty (Option Nat)} {className : String} (h : Viewed v s)
    (hquiet : v.pending = none) (hlive : v.locals ref = some object)
    (hok : jvm.NewObject v.calls = none → ∀ r s', v.locals r = none →
      Viewed (v.called.holding r (.object className)) s' → Q.ok (some r) s')
    (hnull : ∀ e s', jvm.NewObject v.calls = some e →
      Viewed (v.called.throwing (some e)) s' → Q.ok none s') :
    (NewObject jvm ref className).wp Q s := by
  simp only [NewObject, wp_bind]
  refine h.wp_checkPending hquiet (wp_bind.2 (h.wp_deref hlive (wp_bind.2 ?_)))
  exact h.wp_nextJniCall fun s' h' => h'.wp_newOrNull hok hnull

theorem wp_CallObjectMethod {Q : Post JniState Empty (Option Nat)} {method : Nat → StringAnswer}
    (h : Viewed v s) (hquiet : v.pending = none) (hlive : v.locals ref = some object)
    (hok : ∀ text r s', method v.calls = .value text → v.locals r = none →
      Viewed (v.called.holding r (.string text)) s' → Q.ok (some r) s')
    (hnull : ∀ s', method v.calls = .null → Viewed v.called s' → Q.ok none s')
    (hthrows : ∀ e s', method v.calls = .throws e → Viewed (v.called.throwing (some e)) s' →
      Q.ok none s') :
    (CallObjectMethod ref method).wp Q s := by
  simp only [CallObjectMethod, wp_bind]
  refine h.wp_checkPending hquiet (wp_bind.2 (h.wp_deref hlive (wp_bind.2 ?_)))
  refine h.wp_nextJniCall fun s' h' => ?_
  dsimp only
  cases hm : method v.calls with
  | value text =>
      exact h'.wp_newOrNull (fun _ r s'' => hok text r s'' hm) fun _ _ heq => by cases heq
  | null => exact hnull s' hm h'
  | throws e =>
      refine h'.wp_newOrNull (fun heq => by cases heq) fun e' s'' heq h'' => ?_
      cases heq
      exact hthrows e s'' hm h''

theorem wp_CallVoidMethod {Q : Post JniState Empty Unit} {method : Nat → Option Throwable}
    (h : Viewed v s) (hquiet : v.pending = none) (hlive : v.locals ref = some object)
    (hok : ∀ s', Viewed (v.called.throwing (method v.calls)) s' → Q.ok () s') :
    (CallVoidMethod ref method).wp Q s := by
  simp only [CallVoidMethod, wp_bind]
  refine h.wp_checkPending hquiet (wp_bind.2 (h.wp_deref hlive ?_))
  dsimp only
  rw [wp_bind]
  exact h.wp_nextJniCall fun s' h' => h'.wp_setPending hok

theorem wp_GetStringUTFChars {Q : Post JniState Empty (Option (Nat × List UInt8))}
    {text : List UInt16} (h : Viewed v s) (hquiet : v.pending = none)
    (hlive : v.locals ref = some (.string text))
    (hok : jvm.GetStringUTFChars v.calls = none → ∀ n s', v.chars n = none →
      Viewed (v.called.lending n (modifiedUtf8 text)) s' → Q.ok (some (n, modifiedUtf8 text)) s')
    (hnull : ∀ e s', jvm.GetStringUTFChars v.calls = some e →
      Viewed (v.called.throwing (some e)) s' → Q.ok none s') :
    (GetStringUTFChars jvm ref).wp Q s := by
  simp only [GetStringUTFChars, wp_bind]
  refine h.wp_checkPending hquiet (wp_bind.2 (h.wp_deref hlive (wp_bind.2 ?_)))
  refine h.wp_nextJniCall fun s' h' => ?_
  dsimp only
  cases hanswer : jvm.GetStringUTFChars v.calls with
  | none =>
      simp only [wp_bind, wp_getState, wp_modifyState, wp_pure]
      refine hok hanswer s'.next _ (h'.free _ (Nat.le_refl _)).2
        ⟨h'.pending, h'.calls, h'.locals, ?_, h'.log, ?_⟩
      · show Function.update s'.chars s'.next (some (modifiedUtf8 text)) = _
        rw [h'.chars]
        rfl
      · intro n hn
        have hn : s'.next + 1 ≤ n := hn
        obtain ⟨hlocals, hchars⟩ := h'.free n (by omega)
        refine ⟨hlocals, ?_⟩
        show Function.update v.called.chars s'.next (some (modifiedUtf8 text)) n = none
        rw [Function.update_of_ne (by omega), hchars]
  | some e =>
      simp only [wp_bind]
      exact h'.wp_setPending fun s'' h'' => hnull e s'' hanswer h''

theorem wp_ThrowNew {Q : Post JniState Empty Bool} {className : String} {msg : Option String}
    (h : Viewed v s) (hquiet : v.pending = none) (hlive : v.locals ref = some object)
    (hok : ∀ s', Viewed (v.called.throwing (some ⟨jvm.kindOf className, className, msg⟩)) s' →
      Q.ok true s')
    (hfailed : ∀ e s', jvm.ThrowNew v.calls = some e → Viewed (v.called.throwing (some e)) s' →
      Q.ok false s') :
    (ThrowNew jvm ref className msg).wp Q s := by
  simp only [ThrowNew, wp_bind]
  refine h.wp_checkPending hquiet (wp_bind.2 (h.wp_deref hlive (wp_bind.2 ?_)))
  refine h.wp_nextJniCall fun s' h' => ?_
  dsimp only
  cases hanswer : jvm.ThrowNew v.calls with
  | none => exact wp_bind.2 (h'.wp_setPending fun s'' h'' => hok s'' h'')
  | some e => exact wp_bind.2 (h'.wp_setPending fun s'' h'' => hfailed e s'' hanswer h'')

theorem wp_GetStringLength {Q : Post JniState Empty Nat} {text : List UInt16} (h : Viewed v s)
    (hquiet : v.pending = none) (hlive : v.locals ref = some (.string text))
    (hok : Q.ok text.length s) : (GetStringLength ref).wp Q s := by
  simp only [GetStringLength, wp_bind]
  exact h.wp_checkPending hquiet (wp_bind.2 (h.wp_deref hlive hok))

theorem wp_GetStringUTFRegion {Q : Post JniState Empty (List UInt8)} {text : List UInt16}
    {len bufLen : Nat} (h : Viewed v s) (hquiet : v.pending = none)
    (hlive : v.locals ref = some (.string text))
    (hok : (modifiedUtf8 (text.take len)).length ≤ bufLen → Q.ok (modifiedUtf8 (text.take len)) s)
    (hdead : ¬(modifiedUtf8 (text.take len)).length ≤ bufLen → Q.dead s) :
    (GetStringUTFRegion ref len bufLen).wp Q s := by
  simp only [GetStringUTFRegion, wp_bind]
  refine h.wp_checkPending hquiet (wp_bind.2 (h.wp_deref hlive ?_))
  dsimp only
  split
  · next hfits => exact hok hfits
  · next hlong => exact hdead hlong

end Viewed

/-! ## A summary -/

def StringAnswer.thrown : StringAnswer → Option Throwable
  | throws e => some e
  | _ => none

/-- What a summary that begins with this call leaves pending. -/
def Jvm.leftBySummary (jvm : Jvm) (n : Nat) : Option Throwable :=
  match jvm.getName n, jvm.GetStringUTFChars (n + 1) with
  | .value _, none => (jvm.getMessage (n + 2)).thrown
  | _, _ => none

open JNIEnv JNIHelp

theorem length_fit_le {text : List UInt8} {bufLen : Nat} :
    (fit text bufLen).length ≤ bufLen - 1 := List.length_take_le _ _

theorem Viewed.wp_summarize {Q : Post JniState Empty (List UInt8)} {exception exceptionClazz : Nat}
    {object object' : LocalRef} {classNameChars : List UInt8} {bufLen : Nat} (h : Viewed v s)
    (hquiet : v.pending = none) (hexception : v.locals exception = some object)
    (hclazz : v.locals exceptionClazz = some object')
    (hok : ∀ buf m s', buf.length ≤ bufLen - 1 →
      Viewed (v.after m (jvm.getMessage v.calls).thrown) s' → Q.ok buf s') :
    (summarize jvm exception exceptionClazz classNameChars bufLen).wp Q s := by
  refine wp_bind.2 (h.wp_GetMethodID hquiet hclazz (wp_bind.2 ?_))
  refine h.wp_CallObjectMethod hquiet hexception ?_ ?_ ?_
  · intro text r s₁ hmessage hfree h₁
    have hthrown : (jvm.getMessage v.calls).thrown = none := by rw [hmessage]; rfl
    rw [hthrown] at hok
    refine wp_bind.2 (h₁.wp_GetStringUTFChars hquiet JniView.live_self ?_ ?_)
    · intro _ n s₂ hchars h₂
      simp only [wp_bind]
      refine h₂.wp_ReleaseStringUTFChars JniView.lent_self fun s₃ h₃ => ?_
      simp only [wp_bind, wp_pure]
      refine (h₃.of_returned hchars).wp_DeleteLocalRef JniView.live_self ?_
      intro s₄ h₄
      have h₄ := of_without (v := v.called.called) h₄ hfree
      exact hok _ (v.calls + 1 + 1) s₄ length_fit_le (h₄.quiet hquiet)
    · intro e s₂ _ h₂
      simp only [wp_bind]
      refine h₂.wp_ExceptionClear fun s₃ h₃ => ?_
      simp only [wp_bind, wp_pure]
      refine h₃.wp_DeleteLocalRef JniView.live_self fun s₄ h₄ => ?_
      exact hok _ (v.calls + 1 + 1) s₄ length_fit_le
        (of_without (v := (v.called.called).throwing none) h₄ hfree)
  · intro s₁ hmessage h₁
    refine hok _ (v.calls + 1) s₁ length_fit_le ?_
    rw [hmessage]
    exact h₁.quiet hquiet
  · intro e s₁ hmessage h₁
    refine hok _ (v.calls + 1) s₁ length_fit_le ?_
    rw [hmessage]
    exact h₁

theorem wp_withLocalRef {Q : Post JniState Empty (Option α)} {body : Nat → JniProg (Option α)}
    (object : LocalRef) (hbody : (body ref).wp
      { ok := fun a s' => ∃ v' : JniView, v'.locals ref = none ∧
          Viewed (v'.holding ref object) s' ∧ ∀ s'', Viewed v' s'' → Q.ok a s''
        throws := Q.throws
        dead := Q.dead } s) :
    (withLocalRef (some ref) body).wp Q s := by
  simp only [withLocalRef, wp_bind]
  refine wp_mono hbody ?_ (fun _ _ h => h) (fun _ h => h)
  intro a s' hafter
  obtain ⟨v', hfree, h', hdone⟩ := hafter
  dsimp only
  rw [wp_bind]
  exact h'.wp_DeleteLocalRef JniView.live_self fun s'' h'' =>
    hdone s'' (h''.of_without hfree)

theorem Viewed.wp_nameAndMessage {Q : Post JniState Empty (Option (List UInt8))}
    {exception exceptionClazz bufLen : Nat} {object' : LocalRef} (h : Viewed v s)
    (hquiet : v.pending = none) (hexception : v.locals exception = some object)
    (hclazz : v.locals exceptionClazz = some object')
    (hok : ∀ buf m s', buf.length ≤ bufLen - 1 →
      Viewed (v.after m (jvm.leftBySummary v.calls)) s' → Q.ok (some buf) s')
    (hnone : ∀ m left s', jvm.leftBySummary v.calls = none → Viewed (v.after m left) s' →
      Q.ok none s') :
    (nameAndMessage jvm exception exceptionClazz bufLen).wp Q s := by
  refine wp_bind.2 (h.wp_CallObjectMethod hquiet hclazz ?_ ?_ ?_)
  · intro text r s₁ hname hfree h₁
    refine wp_withLocalRef (.string text) ?_
    refine wp_bind.2 (h₁.wp_GetStringUTFChars hquiet JniView.live_self ?_ ?_)
    · intro hchars n s₂ hlent h₂
      have hleft : jvm.leftBySummary v.calls = (jvm.getMessage (v.calls + 2)).thrown := by
        rw [Jvm.leftBySummary, hname, show jvm.GetStringUTFChars (v.calls + 1) = none from hchars]
      rw [hleft] at hok
      refine wp_bind.2 (h₂.wp_summarize hquiet
        (JniView.live_of_holding (v := v.called) hexception hfree)
        (JniView.live_of_holding (v := v.called) hclazz hfree) ?_)
      intro buf m s₃ hlength h₃
      simp only [wp_bind]
      refine h₃.wp_ReleaseStringUTFChars JniView.lent_self fun s₄ h₄ => ?_
      exact ⟨v.after m _, hfree, h₄.of_returned (v := (v.after m _).holding r _) hlent,
        fun s₅ h₅ => hok buf m s₅ hlength h₅⟩
    · intro e s₂ hchars h₂
      have hleft : jvm.leftBySummary v.calls = none := by
        rw [Jvm.leftBySummary, hname, show jvm.GetStringUTFChars (v.calls + 1) = some e from hchars]
      exact ⟨v.after (v.calls + 1 + 1) (some e), hfree, h₂, fun s₃ h₃ => hnone _ _ s₃ hleft h₃⟩
  · intro s₁ hname h₁
    exact hnone _ _ s₁ (by rw [Jvm.leftBySummary, hname]) (h₁.quiet hquiet)
  · intro e s₁ hname h₁
    exact hnone _ _ s₁ (by rw [Jvm.leftBySummary, hname]) h₁

theorem Viewed.wp_getExceptionSummary {Q : Post JniState Empty (List UInt8)}
    {exception bufLen : Nat} (h : Viewed v s) (hquiet : v.pending = none)
    (hexception : v.locals exception = some object)
    (hok : ∀ buf m s', buf.length ≤ bufLen - 1 →
      Viewed (v.after m (jvm.leftBySummary v.calls)) s' → Q.ok buf s') :
    (getExceptionSummary jvm exception bufLen).wp Q s := by
  refine wp_bind.2 (h.wp_GetObjectClass hquiet hexception fun clazz name s₁ hclazz h₁ => ?_)
  refine wp_bind.2 (h₁.wp_GetObjectClass hquiet JniView.live_self ?_)
  intro classClazz name' s₂ hclassClazz h₂
  refine wp_bind.2 (h₂.wp_GetMethodID hquiet JniView.live_self (wp_bind.2 ?_))
  refine h₂.wp_nameAndMessage hquiet
    (JniView.live_of_holding (JniView.live_of_holding hexception hclazz) hclassClazz)
    (JniView.live_of_holding JniView.live_self hclassClazz) ?_ ?_
  · intro buf m s₃ hlength h₃
    refine wp_bind.2 (h₃.wp_DeleteLocalRef JniView.live_self fun s₄ h₄ => ?_)
    have h₄ := of_without (v := (v.holding clazz (.clazz name)).after m _) h₄ hclassClazz
    refine wp_bind.2 (h₄.wp_DeleteLocalRef JniView.live_self fun s₅ h₅ => ?_)
    exact hok buf m s₅ hlength (of_without (v := v.after m _) h₅ hclazz)
  · intro m left s₃ hleft h₃
    refine wp_bind.2 (h₃.wp_DeleteLocalRef JniView.live_self fun s₄ h₄ => ?_)
    have h₄ := of_without (v := (v.holding clazz (.clazz name)).after m _) h₄ hclassClazz
    refine wp_bind.2 (h₄.wp_DeleteLocalRef JniView.live_self fun s₅ h₅ => ?_)
    have h₅ := of_without (v := v.after m _) h₅ hclazz
    dsimp only
    refine wp_bind.2 (h₅.wp_ExceptionClear fun s₆ h₆ => ?_)
    have hleft : jvm.leftBySummary v.calls = none := hleft
    refine hok _ m s₆ length_fit_le ?_
    rw [hleft]
    exact h₆

/-! ## Throwing -/

/-- What is pending once the old exception was logged. -/
def Jvm.leftByDiscard (jvm : Jvm) (pending : Option Throwable) (n : Nat) : Option Throwable :=
  pending.bind fun _ => jvm.leftBySummary n

theorem Viewed.wp_discardPending {Q : Post JniState Empty Unit} {className : String}
    (h : Viewed v s)
    (hok : ∀ m log s', Viewed ((v.after m (jvm.leftByDiscard v.pending v.calls)).logged log) s' →
      Q.ok () s') :
    (discardPending jvm className).wp Q s := by
  refine wp_bind.2 (h.wp_ExceptionCheck ?_)
  cases hpending : v.pending with
  | none =>
      rw [hpending] at hok
      exact hok v.calls v.log s (h.quiet hpending)
  | some e =>
      rw [hpending] at hok
      dsimp only [Option.isSome]
      refine wp_bind.2 (h.wp_ExceptionOccurred hpending fun r s₁ hfree h₁ => ?_)
      refine wp_bind.2 (h₁.wp_ExceptionClear fun s₂ h₂ => ?_)
      refine wp_bind.2 (h₂.wp_getExceptionSummary rfl JniView.live_self ?_)
      intro buf m s₃ _ h₃
      refine wp_bind.2 (h₃.wp_writeLog fun s₄ h₄ => ?_)
      refine h₄.wp_DeleteLocalRef JniView.live_self fun s₅ h₅ => ?_
      exact hok m _ s₅ (of_without (v := (v.after m _).logged _) h₅ hfree)

theorem run_FindClass_of_pending {name : String} {e : Throwable} (h : Viewed v s)
    (hpending : v.pending = some e) : FindClass jvm name s = (.dead, s) := by
  have hsome : s.pending = some e := h.pending.trans hpending
  simp only [FindClass, checkPending, bind, andThen, getState, hsome, die]

theorem run_Throw_of_pending {e : Throwable} (h : Viewed v s) (hpending : v.pending = some e) :
    Throw ref s = (.dead, s) := by
  have hsome : s.pending = some e := h.pending.trans hpending
  simp only [Throw, checkPending, bind, andThen, getState, hsome, die]

theorem Viewed.wp_jniThrowException {Q : Post JniState Empty Int32} {className : String}
    {msg : Option String} (h : Viewed v s)
    (hthrown : jvm.leftByDiscard v.pending v.calls = none → ∀ m log s',
      Viewed ((v.after m (some ⟨jvm.kindOf className, className, msg⟩)).logged log) s' → Q.ok 0 s')
    (hfailed : jvm.leftByDiscard v.pending v.calls = none → ∀ n e m log s',
      jvm.FindClass n className = some e ∨ jvm.ThrowNew n = some e →
      Viewed ((v.after m (some e)).logged log) s' → Q.ok (-1) s')
    (hdead : jvm.leftByDiscard v.pending v.calls ≠ none → ∀ s', Q.dead s') :
    (JNIHelp.jniThrowException jvm className msg).wp Q s := by
  refine wp_bind.2 (h.wp_discardPending fun m log s₁ h₁ => ?_)
  cases hleft : jvm.leftByDiscard v.pending v.calls with
  | some e =>
      rw [hleft] at h₁
      refine wp_bind.2 ?_
      unfold wp
      rw [run_FindClass_of_pending h₁ rfl]
      exact hdead (by rw [hleft]; exact Option.some_ne_none e) s₁
  | none =>
      rw [hleft] at h₁
      refine wp_bind.2 (h₁.wp_FindClass rfl (fun _ r s₂ hfree h₂ => ?_) fun e s₂ hfind h₂ => ?_)
      · dsimp only
        refine wp_bind.2 (h₂.wp_ThrowNew rfl JniView.live_self ?_ ?_)
        · intro s₃ h₃
          refine wp_bind.2 (wp_pure.2 ?_)
          refine wp_bind.2 (h₃.wp_DeleteLocalRef JniView.live_self fun s₄ h₄ => ?_)
          exact hthrown hleft (m + 1 + 1) log s₄
            (of_without (v := (v.after (m + 1 + 1) _).logged log) h₄ hfree)
        · intro e s₃ hthrow h₃
          refine wp_bind.2 (h₃.wp_writeLog fun s₄ h₄ => ?_)
          refine wp_bind.2 (wp_pure.2 ?_)
          refine wp_bind.2 (h₄.wp_DeleteLocalRef JniView.live_self fun s₅ h₅ => ?_)
          exact hfailed hleft (m + 1) e (m + 1 + 1) _ s₅ (Or.inr hthrow)
            (of_without (v := (v.after (m + 1 + 1) _).logged _) h₅ hfree)
      · dsimp only
        refine wp_bind.2 (h₂.wp_writeLog fun s₃ h₃ => ?_)
        exact hfailed hleft m e _ _ s₃ (Or.inl hfind) h₃

/-! ## Logging -/

/-- What the calls from this one on make of the writers. -/
def Jvm.writtenTrace (jvm : Jvm) (n : Nat) : Option (List UInt16) × Nat :=
  if (jvm.printStackTrace n).isSome then (none, n + 1)
  else
    match jvm.toString (n + 1) with
    | .value text => (some text, n + 2)
    | _ => (none, n + 2)

/-- What the calls from this one on make of the stack trace, and the number of
the first call after them. -/
def Jvm.stackTrace (jvm : Jvm) (n : Nat) : Option (List UInt16) × Nat :=
  if (jvm.FindClass n "java/io/StringWriter").isSome then (none, n + 1)
  else if (jvm.FindClass (n + 1) "java/io/PrintWriter").isSome then (none, n + 2)
  else if (jvm.NewObject (n + 2)).isSome then (none, n + 3)
  else if (jvm.NewObject (n + 3)).isSome then (none, n + 4)
  else jvm.writtenTrace (n + 4)

/-- The bytes of what is copied of a trace fit into the buffer. -/
def TraceFits (bufLen : Nat) (text : List UInt16) : Prop :=
  (modifiedUtf8 (text.take (bufLen - 1))).length ≤ bufLen

instance {bufLen : Nat} {text : List UInt16} : Decidable (TraceFits bufLen text) :=
  inferInstanceAs (Decidable (_ ≤ _))

def cutTrace (bufLen : Nat) (text : List UInt16) : List UInt8 :=
  (modifiedUtf8 (text.take (bufLen - 1))).take (min text.length (bufLen - 1))

/-- A postcondition of printing, given what comes of the trace. -/
structure Printed (v : JniView) (bufLen : Nat) (trace : Option (List UInt16) × Nat)
    (Q : Post JniState Empty (Option (List UInt8))) : Prop where
  ok : ∀ text s', trace.1 = some text → TraceFits bufLen text →
    Viewed (v.after trace.2 none) s' → Q.ok (some (cutTrace bufLen text)) s'
  dead : ∀ text s', trace.1 = some text → ¬TraceFits bufLen text → Q.dead s'
  failed : ∀ left s', trace.1 = none → Viewed (v.after trace.2 left) s' → Q.ok none s'

theorem Printed.called {Q : Post JniState Empty (Option (List UInt8))} {bufLen : Nat}
    {trace : Option (List UInt16) × Nat} (hQ : Printed v bufLen trace Q) :
    Printed v.called bufLen trace Q :=
  ⟨hQ.ok, hQ.dead, hQ.failed⟩

/-- … with one more reference held meanwhile. -/
theorem Printed.inside {Q : Post JniState Empty (Option (List UInt8))} {bufLen : Nat}
    {trace : Option (List UInt16) × Nat} (hQ : Printed v bufLen trace Q)
    (hfree : v.locals ref = none) :
    Printed (v.holding ref object) bufLen trace
      { ok := fun a s' => ∃ v' : JniView, v'.locals ref = none ∧
          Viewed (v'.holding ref object) s' ∧ ∀ s'', Viewed v' s'' → Q.ok a s''
        throws := Q.throws
        dead := Q.dead } where
  ok text _ htext hfits h' :=
    ⟨v.after trace.2 _, hfree, h', fun s'' h'' => hQ.ok text s'' htext hfits h''⟩
  dead := hQ.dead
  failed left _ hnone h' :=
    ⟨v.after trace.2 left, hfree, h', fun s'' h'' => hQ.failed left s'' hnone h''⟩

theorem messageStrLength_eq {length bufLen : Nat} :
    (if bufLen ≤ length then bufLen - 1 else length) = min length (bufLen - 1) := by
  split <;> omega

theorem take_messageStrLength {text : List UInt16} {bufLen : Nat} :
    text.take (min text.length (bufLen - 1)) = text.take (bufLen - 1) := by
  rw [Nat.min_comm, ← List.take_eq_take_min]

theorem Viewed.wp_readStackTrace {Q : Post JniState Empty (Option (List UInt8))}
    {exception stringWriterObj bufLen : Nat} {object' : LocalRef} (h : Viewed v s)
    (hquiet : v.pending = none) (hexception : v.locals exception = some object)
    (hwriter : v.locals stringWriterObj = some object')
    (hQ : Printed v bufLen (jvm.writtenTrace v.calls) Q) :
    (readStackTrace jvm exception stringWriterObj bufLen).wp Q s := by
  refine wp_bind.2 (h.wp_GetObjectClass hquiet hexception fun clazz name s₁ hclazz h₁ => ?_)
  refine wp_bind.2 (h₁.wp_GetMethodID hquiet JniView.live_self ?_)
  refine wp_bind.2 (h₁.wp_CallVoidMethod hquiet (JniView.live_of_holding hexception hclazz) ?_)
  intro s₂ h₂
  have h₂ : Viewed ((v.holding clazz (.clazz name)).after (v.calls + 1)
    (jvm.printStackTrace v.calls)) s₂ := h₂
  refine wp_bind.2 (h₂.wp_ExceptionCheck ?_)
  cases hprint : jvm.printStackTrace v.calls with
  | some e =>
      have htrace : jvm.writtenTrace v.calls = (none, v.calls + 1) := by
        rw [Jvm.writtenTrace, hprint]
        rfl
      rw [htrace] at hQ
      rw [hprint] at h₂
      refine wp_bind.2 (wp_pure.2 (wp_bind.2 ?_))
      refine h₂.wp_DeleteLocalRef JniView.live_self fun s₃ h₃ => ?_
      exact hQ.failed _ s₃ rfl (of_without (v := v.after (v.calls + 1) _) h₃ hclazz)
  | none =>
      rw [hprint] at h₂
      have htrace : jvm.writtenTrace v.calls = match jvm.toString (v.calls + 1) with
          | .value text => (some text, v.calls + 2)
          | _ => (none, v.calls + 2) := by
        rw [Jvm.writtenTrace, hprint]
        rfl
      rw [htrace] at hQ
      refine wp_bind.2 (h₂.wp_CallObjectMethod rfl
        (JniView.live_of_holding hwriter hclazz) ?_ ?_ ?_)
      · intro text r s₃ hstring hfree h₃
        rw [show jvm.toString (v.calls + 1) = .value text from hstring] at hQ
        refine wp_bind.2 (wp_withLocalRef (.string text) (wp_bind.2 ?_))
        refine h₃.wp_GetStringLength rfl JniView.live_self ?_
        dsimp only
        rw [messageStrLength_eq]
        refine wp_bind.2 (h₃.wp_GetStringUTFRegion rfl JniView.live_self ?_ ?_)
        · intro hfits
          rw [take_messageStrLength] at hfits ⊢
          refine ⟨(v.holding clazz _).after (v.calls + 2) none, hfree, h₃, fun s₄ h₄ => ?_⟩
          refine wp_bind.2 (h₄.wp_DeleteLocalRef JniView.live_self fun s₅ h₅ => ?_)
          exact hQ.ok text s₅ rfl hfits (of_without (v := v.after (v.calls + 2) _) h₅ hclazz)
        · intro hlong
          rw [take_messageStrLength] at hlong
          exact hQ.dead text s₃ rfl hlong
      · intro s₃ hstring h₃
        rw [show jvm.toString (v.calls + 1) = .null from hstring] at hQ
        refine wp_bind.2 (wp_pure.2 (wp_bind.2 ?_))
        refine h₃.wp_DeleteLocalRef JniView.live_self fun s₄ h₄ => ?_
        exact hQ.failed _ s₄ rfl (of_without (v := v.after (v.calls + 2) _) h₄ hclazz)
      · intro e s₃ hstring h₃
        rw [show jvm.toString (v.calls + 1) = .throws e from hstring] at hQ
        refine wp_bind.2 (wp_pure.2 (wp_bind.2 ?_))
        refine h₃.wp_DeleteLocalRef JniView.live_self fun s₄ h₄ => ?_
        exact hQ.failed _ s₄ rfl (of_without (v := v.after (v.calls + 2) _) h₄ hclazz)

/-- The call obtains a reference to this object, or fails as the virtual machine
says. -/
def Obtains (v : JniView) (call : JniProg (Option Nat)) (failure : Option Throwable)
    (object : LocalRef) : Prop :=
  ∀ {Q : Post JniState Empty (Option Nat)} {s : JniState}, Viewed v s →
    (failure = none → ∀ r s', v.locals r = none → Viewed (v.called.holding r object) s' →
      Q.ok (some r) s') →
    (∀ e s', failure = some e → Viewed (v.called.throwing (some e)) s' → Q.ok none s') →
    call.wp Q s

/-- What is obtained is held while the rest is tried, and then given back. -/
theorem Viewed.wp_obtain {Q : Post JniState Empty (Option (List UInt8))}
    {call : JniProg (Option Nat)} {body : Nat → JniProg (Option (List UInt8))}
    {failure : Option Throwable} {bufLen : Nat} {trace : Option (List UInt16) × Nat}
    (h : Viewed v s) (hcall : Obtains v call failure object)
    (hQ : Printed v bufLen (if failure.isSome then (none, v.calls + 1) else trace) Q)
    (hbody : ∀ {Q'} r s', v.locals r = none → Viewed (v.called.holding r object) s' →
      Printed (v.called.holding r object) bufLen trace Q' → (body r).wp Q' s') :
    (call >>= fun ref => withLocalRef ref body).wp Q s := by
  cases hfailure : failure with
  | none =>
      rw [hfailure] at hQ
      refine wp_bind.2 (hcall h (fun _ r s₁ hfree h₁ => ?_) fun e s₁ heq => ?_)
      · refine wp_withLocalRef object (hbody r s₁ hfree h₁ ?_)
        exact Printed.inside (v := v.called) hQ.called hfree
      · rw [hfailure] at heq
        cases heq
  | some e =>
      rw [hfailure] at hQ
      refine wp_bind.2 (hcall h (fun heq => ?_) fun e' s₁ _ h₁ => hQ.failed (some e') s₁ rfl h₁)
      rw [hfailure] at heq
      cases heq

theorem Viewed.wp_writeStackTrace {Q : Post JniState Empty (Option (List UInt8))}
    {exception bufLen : Nat} (h : Viewed v s) (hquiet : v.pending = none)
    (hexception : v.locals exception = some object)
    (hQ : Printed v bufLen (jvm.stackTrace v.calls) Q) :
    (writeStackTrace jvm exception bufLen).wp Q s := by
  refine h.wp_obtain (fun h => h.wp_FindClass hquiet) hQ fun r₁ s₁ hfree₁ h₁ hQ₁ => ?_
  have hwriter : (v.called.holding r₁ (.clazz "java/io/StringWriter")).locals r₁ = _ :=
    JniView.live_self
  refine wp_bind.2 (h₁.wp_GetMethodID hquiet hwriter ?_)
  refine wp_bind.2 (h₁.wp_GetMethodID hquiet hwriter ?_)
  refine h₁.wp_obtain (fun h => h.wp_FindClass hquiet) hQ₁ fun r₂ s₂ hfree₂ h₂ hQ₂ => ?_
  refine wp_bind.2 (h₂.wp_GetMethodID hquiet JniView.live_self ?_)
  have hwriter : ((v.called.holding r₁ _).called.holding r₂
      (.clazz "java/io/PrintWriter")).locals r₁ = _ := JniView.live_of_holding hwriter hfree₂
  refine h₂.wp_obtain (fun h => h.wp_NewObject hquiet hwriter) hQ₂ fun r₃ s₃ hfree₃ h₃ hQ₃ => ?_
  have hprinter : (((v.called.holding r₁ _).called.holding r₂ _).called.holding r₃
      (.object "java/io/StringWriter")).locals r₂ = _ :=
    JniView.live_of_holding JniView.live_self hfree₃
  refine h₃.wp_obtain (fun h => h.wp_NewObject hquiet hprinter) hQ₃ fun r₄ s₄ hfree₄ h₄ hQ₄ => ?_
  refine @wp_readStackTrace jvm _ _ object _ _ _ _ _ h₄ hquiet ?_
    (JniView.live_of_holding JniView.live_self hfree₄) hQ₄
  exact JniView.live_of_holding (JniView.live_of_holding (JniView.live_of_holding
    (JniView.live_of_holding hexception hfree₁) hfree₂) hfree₃) hfree₄

/-- Where there is no trace, there is a summary. -/
theorem Viewed.wp_printStackTrace {Q : Post JniState Empty (List UInt8)} {exception bufLen : Nat}
    (h : Viewed v s) (hquiet : v.pending = none) (hexception : v.locals exception = some object)
    (htrace : ∀ text m s', (jvm.stackTrace v.calls).1 = some text → TraceFits bufLen text →
      Viewed (v.after m none) s' → Q.ok (cutTrace bufLen text) s')
    (hdead : ∀ text s', (jvm.stackTrace v.calls).1 = some text → ¬TraceFits bufLen text → Q.dead s')
    (hsummary : ∀ buf m s', (jvm.stackTrace v.calls).1 = none → buf.length ≤ bufLen - 1 →
      Viewed (v.after m (jvm.leftBySummary (jvm.stackTrace v.calls).2)) s' → Q.ok buf s') :
    (printStackTrace jvm exception bufLen).wp Q s := by
  refine wp_bind.2 (h.wp_writeStackTrace hquiet hexception ⟨?_, hdead, ?_⟩)
  · intro text s₁ htext hfits h₁
    exact htrace text _ s₁ htext hfits h₁
  · intro left s₁ hnone h₁
    refine wp_bind.2 (h₁.wp_ExceptionClear fun s₂ h₂ => ?_)
    refine h₂.wp_getExceptionSummary rfl hexception fun buf m s₃ hlength h₃ => ?_
    exact hsummary buf m s₃ hnone hlength h₃

theorem Viewed.wp_Throw {Q : Post JniState Empty Unit} {e : Throwable} (h : Viewed v s)
    (hlive : v.locals ref = some (.throwable e))
    (hok : v.pending = none → ∀ s', Viewed (v.throwing (some e)) s' → Q.ok () s')
    (hdead : v.pending ≠ none → Q.dead s) : (Throw ref).wp Q s := by
  cases hpending : v.pending with
  | none =>
      simp only [Throw, wp_bind]
      exact h.wp_checkPending hpending (wp_bind.2 (h.wp_deref hlive
        (h.wp_setPending (hok hpending))))
  | some e' =>
      unfold wp
      rw [run_Throw_of_pending h hpending]
      exact hdead (by rw [hpending]; exact Option.some_ne_none e')

/-- What printing leaves pending. -/
def Jvm.leftByPrinting (jvm : Jvm) (n : Nat) : Option Throwable :=
  match (jvm.stackTrace n).1 with
  | some _ => none
  | none => jvm.leftBySummary (jvm.stackTrace n).2

/-- The trace is written past the end of the buffer. -/
def Jvm.Overruns (jvm : Jvm) (bufLen n : Nat) : Prop :=
  ∃ text, (jvm.stackTrace n).1 = some text ∧ ¬TraceFits bufLen text

/-- What is logged: the trace, cut to the buffer, or some text that fits. -/
structure Jvm.Logs (jvm : Jvm) (n : Nat) (text : List UInt8) : Prop where
  length_le : text.length ≤ 1023
  trace : ∀ trace, (jvm.stackTrace n).1 = some trace → text = cutTrace 1024 trace

theorem length_cutTrace_le {bufLen : Nat} {text : List UInt16} :
    (cutTrace bufLen text).length ≤ bufLen - 1 :=
  Nat.le_trans (List.length_take_le _ _) (Nat.min_le_right _ _)

theorem Viewed.wp_printForLog {Q : Post JniState Empty (List UInt8)} {exception : Nat}
    (h : Viewed v s) (hquiet : v.pending = none) (hexception : v.locals exception = some object)
    (hok : ∀ text m s', ¬jvm.Overruns 1024 v.calls → jvm.Logs v.calls text →
      Viewed (v.after m (jvm.leftByPrinting v.calls)) s' → Q.ok text s')
    (hdead : jvm.Overruns 1024 v.calls → ∀ s', Q.dead s') :
    (printStackTrace jvm exception 1024).wp Q s := by
  refine h.wp_printStackTrace hquiet hexception ?_ ?_ ?_
  · intro text m s₁ htext hfits h₁
    rw [show jvm.leftByPrinting v.calls = none by rw [Jvm.leftByPrinting, htext]] at hok
    refine hok (cutTrace 1024 text) m s₁ ?_ ⟨length_cutTrace_le, ?_⟩ h₁
    · intro hover
      obtain ⟨text', htext', hlong⟩ := hover
      rw [htext] at htext'
      cases htext'
      exact hlong hfits
    · intro trace htrace
      rw [htext] at htrace
      cases htrace
      rfl
  · intro text s₁ htext hlong
    exact hdead ⟨text, htext, hlong⟩ s₁
  · intro buf m s₁ hnone hlength h₁
    have hleft : jvm.leftByPrinting v.calls = jvm.leftBySummary (jvm.stackTrace v.calls).2 := by
      rw [Jvm.leftByPrinting, hnone]
    rw [hleft] at hok
    refine hok buf m s₁ ?_ ⟨hlength, ?_⟩ h₁
    · intro hover
      obtain ⟨text', htext', _⟩ := hover
      rw [hnone] at htext'
      cases htext'
    · intro trace htrace
      rw [hnone] at htrace
      cases htrace

/-- The pending exception is thrown again unless printing it left another one,
with which it may not be. -/
theorem Viewed.wp_jniLogException_pending {Q : Post JniState Empty Unit} {priority : Int32}
    {tag : String} {e : Throwable} (h : Viewed v s) (hpending : v.pending = some e)
    (hok : ∀ text m s', ¬jvm.Overruns 1024 v.calls → jvm.leftByPrinting v.calls = none →
      jvm.Logs v.calls text →
      Viewed ((v.after m (some e)).logged (v.log ++ [.write priority tag text])) s' → Q.ok () s')
    (hdead : jvm.Overruns 1024 v.calls ∨ jvm.leftByPrinting v.calls ≠ none → ∀ s', Q.dead s') :
    (jniLogException jvm priority tag none).wp Q s := by
  refine wp_bind.2 (h.wp_ExceptionOccurred hpending fun r s₁ hfree h₁ => ?_)
  refine wp_bind.2 (h₁.wp_ExceptionClear fun s₂ h₂ => ?_)
  refine wp_bind.2 (h₂.wp_printForLog rfl JniView.live_self ?_ fun hover => hdead (Or.inl hover))
  intro text m s₃ hfits htext h₃
  refine wp_bind.2 (h₃.wp_writeLog fun s₄ h₄ => ?_)
  refine wp_bind.2 (h₄.wp_Throw JniView.live_self (fun hleft s₅ h₅ => ?_) ?_)
  · refine h₅.wp_DeleteLocalRef JniView.live_self fun s₆ h₆ => ?_
    exact hok text m s₆ hfits hleft htext
      (of_without (v := (v.after m (some e)).logged _) h₆ hfree)
  · intro hleft
    exact hdead (Or.inr hleft) s₄

theorem Viewed.wp_jniLogException_argument {Q : Post JniState Empty Unit} {priority : Int32}
    {tag : String} (h : Viewed v s) (hquiet : v.pending = none)
    (hexception : v.locals ref = some object)
    (hok : ∀ text m s', ¬jvm.Overruns 1024 v.calls → jvm.Logs v.calls text →
      Viewed ((v.after m (jvm.leftByPrinting v.calls)).logged
        (v.log ++ [.write priority tag text])) s' → Q.ok () s')
    (hdead : jvm.Overruns 1024 v.calls → ∀ s', Q.dead s') :
    (jniLogException jvm priority tag (some ref)).wp Q s := by
  refine wp_bind.2 (h.wp_printForLog hquiet hexception (fun text m s₁ hfits htext h₁ => ?_) hdead)
  exact h₁.wp_writeLog fun s₂ h₂ => hok text m s₂ hfits htext h₂

/-! ## Bytes and units -/

/-- A unit that takes one byte. -/
def Ascii (c : UInt16) : Prop := c ≠ 0 ∧ c < 0x80

theorem length_modifiedUtf8Unit {c : UInt16} :
    0 < (modifiedUtf8Unit c).length ∧ ((modifiedUtf8Unit c).length ≤ 1 ↔ Ascii c) := by
  unfold modifiedUtf8Unit Ascii
  split
  · next hascii => exact ⟨Nat.one_pos, fun _ => hascii, fun _ => Nat.le_refl 1⟩
  · next hascii => split <;> exact ⟨by simp, by simp [hascii]⟩

theorem length_modifiedUtf8 (text : List UInt16) :
    text.length ≤ (modifiedUtf8 text).length ∧
      ((modifiedUtf8 text).length ≤ text.length ↔ ∀ c ∈ text, Ascii c) := by
  induction text with
  | nil => exact ⟨Nat.le_refl 0, fun _ => nofun, fun _ => Nat.le_refl 0⟩
  | cons c rest ih =>
      obtain ⟨hle, hiff⟩ := ih
      obtain ⟨hpos, hone⟩ := length_modifiedUtf8Unit (c := c)
      have hlength : (modifiedUtf8 (c :: rest)).length =
          (modifiedUtf8Unit c).length + (modifiedUtf8 rest).length := List.length_append
      rw [List.forall_mem_cons, ← hone, ← hiff, hlength, List.length_cons]
      omega

/-- The whole trace is kept only if it is as many bytes as units. -/
theorem cutTrace_eq_iff {bufLen : Nat} {text : List UInt16} :
    cutTrace bufLen text = modifiedUtf8 text ↔
      text.length ≤ bufLen - 1 ∧ ∀ c ∈ text, Ascii c := by
  obtain ⟨hle, hiff⟩ := length_modifiedUtf8 text
  constructor
  · intro heq
    have hcut : (cutTrace bufLen text).length ≤ min text.length (bufLen - 1) :=
      List.length_take_le _ _
    rw [heq] at hcut
    exact ⟨by omega, hiff.1 (by omega)⟩
  · intro h
    obtain ⟨hshort, hascii⟩ := h
    rw [cutTrace, List.take_of_length_le hshort, List.take_of_length_le]
    rw [Nat.min_eq_left hshort]
    exact hiff.2 hascii

/-! ## The two functions -/

/-- The numbers not given out yet are of nothing. -/
def JniState.Free (s : JniState) : Prop := ∀ n, s.next ≤ n → s.locals n = none ∧ s.chars n = none

/-- The references and arrays are what they were. -/
structure GivenBack (s s' : JniState) : Prop where
  locals : s'.locals = s.locals
  chars : s'.chars = s.chars

theorem JniState.Free.viewed (h : s.Free) :
    Viewed ⟨s.pending, s.calls, s.locals, s.chars, s.log⟩ s :=
  ⟨rfl, rfl, rfl, rfl, rfl, h⟩

theorem Viewed.givenBack {s₀ s' : JniState} {calls : Nat} {pending : Option Throwable}
    {log : List LogLine} (h : Viewed ⟨pending, calls, s₀.locals, s₀.chars, log⟩ s') :
    GivenBack s₀ s' :=
  ⟨h.locals, h.chars⟩

theorem JniState.Free.wp_jniThrowException {className : String} {msg : Option String}
    (hfree : s.Free) :
    (JNIHelp.jniThrowException jvm className msg).wp
      { ok := fun result s' => jvm.leftByDiscard s.pending s.calls = none ∧ GivenBack s s' ∧
          ((result = 0 ∧ s'.pending = some ⟨jvm.kindOf className, className, msg⟩) ∨
            (result = -1 ∧ ∃ n e, s'.pending = some e ∧
              (jvm.FindClass n className = some e ∨ jvm.ThrowNew n = some e)))
        throws := fun _ _ => False
        dead := fun _ => jvm.leftByDiscard s.pending s.calls ≠ none } s := by
  refine hfree.viewed.wp_jniThrowException ?_ ?_ fun hleft _ => hleft
  · intro hleft m log s₁ h₁
    exact ⟨hleft, h₁.givenBack, Or.inl ⟨rfl, h₁.pending⟩⟩
  · intro hleft n e m log s₁ hfailed h₁
    exact ⟨hleft, h₁.givenBack, Or.inr ⟨rfl, n, e, h₁.pending, hfailed⟩⟩

/-- The text is the whole trace exactly if that is short and has nothing but
one-byte units. -/
theorem Jvm.Logs.whole_iff {n : Nat} {text : List UInt8} {trace : List UInt16}
    (h : jvm.Logs n text) (htrace : (jvm.stackTrace n).1 = some trace) :
    text = modifiedUtf8 trace ↔ trace.length ≤ 1023 ∧ ∀ c ∈ trace, Ascii c := by
  rw [h.trace trace htrace]
  exact cutTrace_eq_iff

/-- What the native connection takes it for: with the class there, memory left
and nothing pending before, the exception is pending and nothing else happened. -/
theorem jniThrowException_simulates {e : Throwable} (hfree : s.Free) (hquiet : s.pending = none)
    (hfind : ∀ n, jvm.FindClass n e.className = none) (hthrow : ∀ n, jvm.ThrowNew n = none)
    (hkind : jvm.kindOf e.className = e.kind) (t : NativeState) :
    ∃ s', JNIHelp.jniThrowException jvm e.className e.message s = (.ok 0, s') ∧ GivenBack s s' ∧
      s'.pending = (Ref.jniThrowException e t).2.pending := by
  have hwp : (JNIHelp.jniThrowException jvm e.className e.message).wp _ s :=
    hfree.wp_jniThrowException
  cases hrun : JNIHelp.jniThrowException jvm e.className e.message s with
  | mk r s₁ =>
      cases r with
      | throws e' => cases e'
      | dead =>
          have hleft := dead_of_wp hwp hrun
          rw [hquiet] at hleft
          exact absurd rfl hleft
      | ok result =>
          obtain ⟨_, hback, hthrown | hfailed⟩ := ok_of_wp hwp hrun
          · obtain ⟨rfl, hpending⟩ := hthrown
            refine ⟨s₁, rfl, hback, ?_⟩
            rw [hpending, hkind]
            rfl
          · obtain ⟨_, n, e', _, hnot | hnot⟩ := hfailed
            · rw [hfind] at hnot
              cases hnot
            · rw [hthrow] at hnot
              cases hnot

end

end OrmBenchmark.Ref
