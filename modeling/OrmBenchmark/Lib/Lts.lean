import Mathlib.Data.List.Basic

/-!
# Labelled transition systems and their runs

A run is kept together with its history: for every step, oldest first, the
state the step was taken in and its label. That is what makes a condition on
steps ("nothing was undelivered when this was written") a property of the
history rather than a ghost field of the state, and it is all the rules below
need: an invariant is preserved by every step, or only by the steps that meet
a condition, and then holds after every run whose history meets it.

`Run.always_iff` is the sharp form. When one step out of a good state stays
good exactly under a condition, a whole run stays good exactly when each of
its steps met the condition, so an exact condition for one step is an exact
condition for runs.
-/

namespace OrmBenchmark.Lib

/-- A labelled transition system: the states a run may start in and what one
labelled step may do. -/
structure Lts (σ α : Type) where
  init : σ → Prop
  step : σ → α → σ → Prop

/-- What a run did: for each step, oldest first, the state it was taken in
and its label. -/
abbrev History (σ α : Type) := List (σ × α)

/-- Every step of the history was taken under the condition. -/
def History.Obeys {σ α : Type} (C : σ → α → Prop) (h : History σ α) : Prop :=
  ∀ p ∈ h, C p.1 p.2

namespace History

variable {σ α : Type} {C : σ → α → Prop} {h : History σ α} {s : σ} {a : α}

@[simp]
theorem obeys_nil : Obeys C ([] : History σ α) := by
  intro p hp
  cases hp

theorem obeys_snoc : Obeys C (h ++ [(s, a)]) ↔ Obeys C h ∧ C s a := by
  constructor
  · intro hobeys
    exact ⟨fun p hp => hobeys p (List.mem_append_left _ hp),
      hobeys (s, a) (List.mem_append_right _ (List.mem_singleton.2 rfl))⟩
  · intro h p hp
    obtain ⟨hobeys, hlast⟩ := h
    rcases List.mem_append.1 hp with hp | hp
    · exact hobeys p hp
    · rw [List.mem_singleton] at hp
      subst hp
      exact hlast

/-- The value last written, where `f` is what a label writes. -/
def latest {β : Type} (f : α → Option β) (initial : β) (h : History σ α) : β :=
  h.foldl (fun value p => (f p.2).getD value) initial

theorem latest_snoc {β : Type} {f : α → Option β} {initial : β} :
    latest f initial (h ++ [(s, a)]) = (f a).getD (latest f initial h) := by
  rw [latest, List.foldl_append]
  rfl

end History

namespace Lts

variable {σ α : Type} {M : Lts σ α}

/-- `M.Run h s`: some run with history `h` ends in `s`. -/
inductive Run (M : Lts σ α) : History σ α → σ → Prop
  | start {s : σ} : M.init s → Run M [] s
  | snoc {h : History σ α} {s s' : σ} {a : α} :
      Run M h s → M.step s a s' → Run M (h ++ [(s, a)]) s'

/-- A state some run ends in. -/
def Reachable (M : Lts σ α) (s : σ) : Prop := ∃ h, M.Run h s

theorem Reachable.of_step {s s' : σ} {a : α} (hr : M.Reachable s)
    (hs : M.step s a s') : M.Reachable s' := by
  obtain ⟨h, hrun⟩ := hr
  exact ⟨_, hrun.snoc hs⟩

/-! ## Invariants -/

/-- The rule with a condition: an invariant that the steps meeting the
condition preserve holds after every run whose steps all met it. -/
theorem Run.invariant_of_obeys {C : σ → α → Prop} {I : σ → Prop}
    (hinit : ∀ s, M.init s → I s)
    (hstep : ∀ s a s', I s → C s a → M.step s a s' → I s')
    {h : History σ α} {s : σ} (hrun : M.Run h s) (hC : h.Obeys C) : I s := by
  induction hrun with
  | start hs => exact hinit _ hs
  | snoc _ hs ih =>
      obtain ⟨hprev, hlast⟩ := History.obeys_snoc.1 hC
      exact hstep _ _ _ (ih hprev) hlast hs

/-- The plain rule. -/
theorem Reachable.invariant {I : σ → Prop} (hinit : ∀ s, M.init s → I s)
    (hstep : ∀ s a s', I s → M.step s a s' → I s') {s : σ}
    (hr : M.Reachable s) : I s := by
  obtain ⟨h, hrun⟩ := hr
  refine hrun.invariant_of_obeys (C := fun _ _ => True) hinit ?_ ?_
  · intro s a s' hI _ hs
    exact hstep s a s' hI hs
  · intro p _
    trivial

/-- The rule that sees the history: what is proved of the final state may
speak of everything the run did. -/
theorem Run.history_invariant {I : History σ α → σ → Prop}
    (hinit : ∀ s, M.init s → I [] s)
    (hstep : ∀ h s a s', M.Run h s → I h s → M.step s a s' →
      I (h ++ [(s, a)]) s')
    {h : History σ α} {s : σ} (hrun : M.Run h s) : I h s := by
  induction hrun with
  | start hs => exact hinit _ hs
  | snoc hprev hs ih => exact hstep _ _ _ _ hprev ih hs

/-- Every step of a history was taken at the end of a shorter run, and if the
whole run obeyed a condition then so did the shorter one. -/
theorem Run.before {h : History σ α} {s : σ} (hrun : M.Run h s) {p : σ × α}
    (hp : p ∈ h) :
    ∃ h' s', M.Run h' p.1 ∧ M.step p.1 p.2 s' ∧
      ∀ C : σ → α → Prop, h.Obeys C → h'.Obeys C := by
  induction hrun with
  | start _ => cases hp
  | @snoc h s s' a hprev hs ih =>
      rcases List.mem_append.1 hp with hp | hp
      · obtain ⟨h', t, hr, ht, hC⟩ := ih hp
        exact ⟨h', t, hr, ht, fun C hobeys =>
          hC C (History.obeys_snoc.1 hobeys).1⟩
      · rw [List.mem_singleton] at hp
        subst hp
        exact ⟨h, s', hprev, hs, fun C hobeys => (History.obeys_snoc.1 hobeys).1⟩

/-- The last step of a run was taken in the state its history says. -/
theorem Run.last {h : History σ α} {p : σ × α} {s : σ} (hrun : M.Run (h ++ [p]) s) :
    M.Run h p.1 ∧ M.step p.1 p.2 s := by
  generalize hlong : h ++ [p] = long at hrun
  cases hrun with
  | start _ => simp at hlong
  | snoc hprev hs =>
      obtain ⟨rfl, hsame⟩ := List.append_inj' hlong rfl
      cases hsame
      exact ⟨hprev, hs⟩

/-- The states a run went through, the final one included, all satisfy `P`. -/
def Always (P : σ → Prop) (h : History σ α) (s : σ) : Prop :=
  (∀ p ∈ h, P p.1) ∧ P s

theorem always_snoc {P : σ → Prop} {h : History σ α} {s s' : σ} {a : α} :
    Always P (h ++ [(s, a)]) s' ↔ Always P h s ∧ P s' := by
  constructor
  · intro h
    obtain ⟨hall, hlast⟩ := h
    exact ⟨⟨fun p hp => hall p (List.mem_append_left _ hp),
      hall (s, a) (List.mem_append_right _ (List.mem_singleton.2 rfl))⟩, hlast⟩
  · intro h
    obtain ⟨⟨hall, hs⟩, hlast⟩ := h
    refine ⟨fun p hp => ?_, hlast⟩
    rcases List.mem_append.1 hp with hp | hp
    · exact hall p hp
    · rw [List.mem_singleton] at hp
      subst hp
      exact hs

/-- A run stays in `P` exactly when each of its steps met the condition, given
that a step out of an invariant state in `P` lands in `P` exactly under it. -/
theorem Run.always_iff {P I : σ → Prop} {C : σ → α → Prop}
    (hinit : ∀ s, M.init s → I s ∧ P s)
    (hstep : ∀ s a s', I s → P s → M.step s a s' →
      (P s' ↔ C s a) ∧ (P s' → I s'))
    {h : History σ α} {s : σ} (hrun : M.Run h s) :
    Always P h s ↔ h.Obeys C := by
  have key : (Always P h s ↔ h.Obeys C) ∧ (Always P h s → I s) := by
    induction hrun with
    | start hs =>
        obtain ⟨hI, hP⟩ := hinit _ hs
        refine ⟨⟨fun _ => History.obeys_nil, fun _ => ⟨?_, hP⟩⟩, fun _ => hI⟩
        intro p hp
        cases hp
    | @snoc h s s' a _ hs ih =>
        obtain ⟨hiff, hinv⟩ := ih
        rw [always_snoc, History.obeys_snoc, ← hiff]
        refine ⟨and_congr_right fun hbefore => ?_, ?_⟩
        · exact (hstep s a s' (hinv hbefore) hbefore.2 hs).1
        · intro h
          obtain ⟨hbefore, hP'⟩ := h
          exact (hstep s a s' (hinv hbefore) hbefore.2 hs).2 hP'
  exact key.1

/-! ## Systems given by a partial function

A step that is a function of the state and the label can be replayed from a
list of labels, which is how one concrete run is exhibited. -/

/-- The system whose steps are the defined values of `next`, started in `s₀`. -/
def ofNext (s₀ : σ) (next : σ → α → Option σ) : Lts σ α where
  init s := s = s₀
  step s a s' := next s a = some s'

/-- What such a system did says where it is. -/
theorem Run.unique {s₀ : σ} {next : σ → α → Option σ} {h : History σ α} {s s' : σ}
    (hrun : (ofNext s₀ next).Run h s) (hrun' : (ofNext s₀ next).Run h s') : s = s' := by
  cases hrun with
  | start hs =>
      generalize hnil : ([] : History σ α) = h at hrun'
      cases hrun' with
      | start hs' => exact Eq.trans hs (Eq.symm hs')
      | snoc _ _ => simp at hnil
  | snoc hprev hstep =>
      have hstep' := (Run.last hrun').2
      exact Option.some_inj.1 (Eq.trans (Eq.symm hstep) hstep')

/-- Take the labelled steps in order, keeping the history. -/
def replay (next : σ → α → Option σ) :
    List α → History σ α → σ → Option (History σ α × σ)
  | [], h, s => some (h, s)
  | a :: rest, h, s =>
      match next s a with
      | none => none
      | some s' => replay next rest (h ++ [(s, a)]) s'

theorem run_of_replay {s₀ : σ} {next : σ → α → Option σ} {labels : List α}
    {h h' : History σ α} {s s' : σ} (hrun : (ofNext s₀ next).Run h s)
    (hreplay : replay next labels h s = some (h', s')) :
    (ofNext s₀ next).Run h' s' := by
  induction labels generalizing h s with
  | nil =>
      rw [replay] at hreplay
      injection hreplay with hreplay
      injection hreplay with hh hs
      subst hh hs
      exact hrun
  | cons a rest ih =>
      rw [replay] at hreplay
      cases hnext : next s a with
      | none => simp [hnext] at hreplay
      | some t =>
          simp only [hnext] at hreplay
          exact ih (hrun.snoc hnext) hreplay

/-- One concrete run, found by replaying labels: a test of its history and its
final state is decided by evaluation. -/
theorem exists_run_of_replay (s₀ : σ) (next : σ → α → Option σ)
    (labels : List α) (test : History σ α → σ → Bool)
    (h : (replay next labels [] s₀).any (fun r => test r.1 r.2) = true) :
    ∃ history s, (ofNext s₀ next).Run history s ∧ test history s = true := by
  cases hr : replay next labels [] s₀ with
  | none => simp [hr] at h
  | some r =>
      rw [hr] at h
      exact ⟨r.1, r.2, run_of_replay (Run.start rfl) hr, h⟩

end Lts

end OrmBenchmark.Lib
