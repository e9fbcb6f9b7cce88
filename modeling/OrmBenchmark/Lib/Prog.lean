import Mathlib.Init

/-!
# Programs that throw, clean up and die

A program runs on a state and ends in one of three ways: it returns a value,
it throws an exception, or the process it runs in dies. The difference
between the last two is what `finally` is about. A thrown exception runs
every cleanup on its way out, and a cleanup that throws replaces the exception
that was on its way; a death runs nothing at all. In all three cases the state
stays as the program left it: nothing is rolled back by leaving.

Programs are reasoned about by weakest preconditions over three
postconditions, one for each way of ending, and every construct has one rule
that says what it does to the three. The loop rule asks for an invariant over
the elements still to come.
-/

namespace OrmBenchmark.Lib

/-- How a program ended. -/
inductive Exit (ε α : Type)
  | ok (a : α)
  | throws (e : ε)
  | dead
deriving DecidableEq, Repr

/-- A program over the state `σ` that may throw an `ε` or return an `α`. -/
def Prog (σ ε α : Type) : Type := σ → Exit ε α × σ

/-- What is asked of each way of ending. -/
structure Post (σ ε α : Type) where
  ok : α → σ → Prop
  throws : ε → σ → Prop
  dead : σ → Prop

/-- A relation between ways of ending and states, as a postcondition. -/
def Post.ofExit {σ ε α : Type} (R : Exit ε α → σ → Prop) : Post σ ε α where
  ok a := R (.ok a)
  throws e := R (.throws e)
  dead := R .dead

/-- Nothing is asked unless the program returns. -/
def Post.returning {σ ε α : Type} (P : α → σ → Prop) : Post σ ε α where
  ok := P
  throws _ _ := True
  dead _ := True

namespace Prog

variable {σ τ ε α β γ : Type}

/-! ## The constructs -/

/-- Sequencing: only a value goes on. -/
def andThen (m : Prog σ ε α) (f : α → Prog σ ε β) : Prog σ ε β := fun s =>
  match m s with
  | (.ok a, s') => f a s'
  | (.throws e, s') => (.throws e, s')
  | (.dead, s') => (.dead, s')

instance : Monad (Prog σ ε) where
  pure a := fun s => (.ok a, s)
  bind := andThen

def getState : Prog σ ε σ := fun s => (.ok s, s)

def modifyState (f : σ → σ) : Prog σ ε Unit := fun s => (.ok (), f s)

def raise (e : ε) : Prog σ ε α := fun s => (.throws e, s)

/-- The process dies here. -/
def die : Prog σ ε α := fun s => (.dead, s)

/-- `try { m } catch (e) { h(e) }`. -/
def tryCatch (m : Prog σ ε α) (h : ε → Prog σ ε α) : Prog σ ε α := fun s =>
  match m s with
  | (.ok a, s') => (.ok a, s')
  | (.throws e, s') => h e s'
  | (.dead, s') => (.dead, s')

/-- `try { m } finally { fin }`: the cleanup runs after a value and after an
exception, and what the cleanup throws replaces either. -/
def tryFinally (m : Prog σ ε α) (fin : Prog σ ε Unit) : Prog σ ε α := fun s =>
  match m s with
  | (.dead, s') => (.dead, s')
  | (.ok a, s') =>
      match fin s' with
      | (.ok _, s'') => (.ok a, s'')
      | (.throws e, s'') => (.throws e, s'')
      | (.dead, s'') => (.dead, s'')
  | (.throws e, s') =>
      match fin s' with
      | (.ok _, s'') => (.throws e, s'')
      | (.throws e', s'') => (.throws e', s'')
      | (.dead, s'') => (.dead, s'')

/-- A loop over a list, left by the first iteration that does not return. -/
def forEach (f : β → Prog σ ε Unit) : List β → Prog σ ε Unit
  | [] => pure ()
  | x :: rest => f x >>= fun _ => forEach f rest

/-- A loop over a list that keeps what its iterations return. -/
def mapEach (f : β → Prog σ ε γ) : List β → Prog σ ε (List γ)
  | [] => pure []
  | x :: rest => f x >>= fun y => mapEach f rest >>= fun ys => pure (y :: ys)

/-- A program over a part of a larger state. -/
def zoom (get : τ → σ) (set : σ → τ → τ) (m : Prog σ ε α) : Prog τ ε α := fun t =>
  match m (get t) with
  | (r, s) => (r, set s t)

theorem bind_bind (m : Prog σ ε α) (f : α → Prog σ ε β) (g : β → Prog σ ε γ) :
    m >>= f >>= g = m >>= fun a => f a >>= g := by
  funext s
  show andThen (andThen m f) g s = andThen m (fun a => andThen (f a) g) s
  unfold andThen
  cases hm : m s with
  | mk r s' => cases r <;> rfl

theorem forEach_append (f : β → Prog σ ε Unit) (xs ys : List β) :
    forEach f (xs ++ ys) = forEach f xs >>= fun _ => forEach f ys := by
  induction xs with
  | nil => rfl
  | cons x rest ih =>
      rw [List.cons_append, forEach, ih, forEach, bind_bind]

theorem forEach_map (f : γ → Prog σ ε Unit) (g : β → γ) (xs : List β) :
    forEach f (xs.map g) = forEach (fun x => f (g x)) xs := by
  induction xs with
  | nil => rfl
  | cons x rest ih => rw [List.map_cons, forEach, ih, forEach]

/-- A last step may be left as it is. -/
theorem forEach_singleton (f : β → Prog σ ε Unit) (x : β) : forEach f [x] = f x := by
  funext s
  show andThen (f x) (fun _ => pure ()) s = f x s
  unfold andThen
  cases hm : f x s with
  | mk r s' => cases r <;> rfl

/-- Which of the steps is the first that throws, if each before it returns:
its place, the exception and the state it was thrown in. -/
def firstFailure : List (Prog σ ε Unit) → σ → Option (Nat × ε × σ)
  | [], _ => none
  | m :: rest, s =>
      match m s with
      | (.ok _, s') => (firstFailure rest s').map fun r => (r.1 + 1, r.2)
      | (.throws e, s') => some (0, e, s')
      | (.dead, _) => none

theorem firstFailure_cons {m : Prog σ ε Unit} {rest : List (Prog σ ε Unit)} {s s' : σ} {k : Nat}
    {e : ε} (h : firstFailure (m :: rest) s = some (k, e, s')) :
    (k = 0 ∧ m s = (.throws e, s')) ∨
      ∃ j s₁, k = j + 1 ∧ m s = (.ok (), s₁) ∧ firstFailure rest s₁ = some (j, e, s') := by
  unfold firstFailure at h
  cases hm : m s with
  | mk r s₁ =>
      rw [hm] at h
      cases r with
      | ok a =>
          simp only [Option.map_eq_some_iff, Prod.mk.injEq] at h
          obtain ⟨⟨j, e', s₂⟩, hrest, rfl, rfl, rfl⟩ := h
          exact Or.inr ⟨j, s₁, rfl, rfl, hrest⟩
      | throws e' =>
          simp only [Option.some.injEq, Prod.mk.injEq] at h
          obtain ⟨rfl, rfl, rfl⟩ := h
          exact Or.inl ⟨rfl, rfl⟩
      | dead => cases h

/-- The steps in sequence end where the first of them fails. -/
theorem run_of_firstFailure {steps : List (Prog σ ε Unit)} {s s' : σ} {k : Nat} {e : ε}
    (h : firstFailure steps s = some (k, e, s')) : forEach id steps s = (.throws e, s') := by
  induction steps generalizing s k with
  | nil => cases h
  | cons m rest ih =>
      show andThen m (fun _ => forEach id rest) s = (.throws e, s')
      unfold andThen
      rcases firstFailure_cons h with ⟨_, hm⟩ | ⟨j, s₁, _, hm, hrest⟩
      · rw [hm]
      · rw [hm]
        exact ih hrest

/-! ## Weakest preconditions -/

/-- Every way `m` can end from `s` satisfies its postcondition. -/
def wp (m : Prog σ ε α) (Q : Post σ ε α) (s : σ) : Prop :=
  match m s with
  | (.ok a, s') => Q.ok a s'
  | (.throws e, s') => Q.throws e s'
  | (.dead, s') => Q.dead s'

variable {m : Prog σ ε α} {Q Q' : Post σ ε α} {s : σ}

theorem wp_mono (h : m.wp Q s) (hok : ∀ a s', Q.ok a s' → Q'.ok a s')
    (hthrows : ∀ e s', Q.throws e s' → Q'.throws e s')
    (hdead : ∀ s', Q.dead s' → Q'.dead s') : m.wp Q' s := by
  unfold wp at h ⊢
  split at h
  · exact hok _ _ h
  · exact hthrows _ _ h
  · exact hdead _ h

theorem wp_congr {m' : Prog σ ε α} (h : m s = m' s) : m.wp Q s ↔ m'.wp Q s := by
  unfold wp
  rw [h]

theorem wp_returning_mono {P P' : α → σ → Prop} (h : m.wp (.returning P) s)
    (hP : ∀ a s', P a s' → P' a s') : m.wp (.returning P') s :=
  wp_mono h hP (fun _ _ h => h) (fun _ h => h)

/-- Reading a postcondition off a run that returned. -/
theorem ok_of_wp {a : α} {s' : σ} (h : m.wp Q s) (hrun : m s = (.ok a, s')) :
    Q.ok a s' := by
  unfold wp at h
  rw [hrun] at h
  exact h

theorem throws_of_wp {e : ε} {s' : σ} (h : m.wp Q s)
    (hrun : m s = (.throws e, s')) : Q.throws e s' := by
  unfold wp at h
  rw [hrun] at h
  exact h

theorem dead_of_wp {s' : σ} (h : m.wp Q s) (hrun : m s = (.dead, s')) : Q.dead s' := by
  unfold wp at h
  rw [hrun] at h
  exact h

theorem exit_of_wp {R : Exit ε α → σ → Prop} {r : Exit ε α} {s' : σ}
    (h : m.wp (Post.ofExit R) s) (hrun : m s = (r, s')) : R r s' := by
  unfold wp at h
  rw [hrun] at h
  cases r with
  | ok a => exact h
  | throws e => exact h
  | dead => exact h

/-- A run that can only return. -/
theorem exists_ok_of_wp {P : α → σ → Prop}
    (h : m.wp { ok := P, throws := fun _ _ => False, dead := fun _ => False } s) :
    ∃ a s', m s = (.ok a, s') ∧ P a s' := by
  unfold wp at h
  split at h
  · next a s' hrun => exact ⟨a, s', hrun, h⟩
  · exact h.elim
  · exact h.elim

theorem bind_of_run {f : α → Prog σ ε β} {a : α} {s' : σ} (h : m s = (.ok a, s')) :
    (m >>= f) s = f a s' := by
  show andThen m f s = f a s'
  rw [andThen, h]

theorem tryCatch_of_run {h : ε → Prog σ ε α} {a : α} {s' : σ} (hrun : m s = (.ok a, s')) :
    tryCatch m h s = (.ok a, s') := by
  rw [tryCatch, hrun]

theorem tryFinally_of_run_eq {m' : Prog σ ε α} {fin : Prog σ ε Unit} (h : m s = m' s) :
    tryFinally m fin s = tryFinally m' fin s := by
  rw [tryFinally, h, tryFinally]

theorem tryFinally_of_throws {e : ε} {s' : σ} (fin : Prog σ ε Unit)
    (h : m s = (.throws e, s')) :
    tryFinally m fin s = match fin s' with
      | (.ok _, s'') => (.throws e, s'')
      | (.throws e', s'') => (.throws e', s'')
      | (.dead, s'') => (.dead, s'') := by
  rw [tryFinally, h]

@[simp]
theorem wp_pure {a : α} : (pure a : Prog σ ε α).wp Q s ↔ Q.ok a s := Iff.rfl

@[simp]
theorem wp_bind {f : α → Prog σ ε β} {Q : Post σ ε β} :
    (m >>= f).wp Q s ↔ m.wp { Q with ok := fun a => (f a).wp Q } s := by
  show (andThen m f).wp Q s ↔ _
  unfold wp andThen
  split <;> rename_i h <;> split at h <;> simp_all

@[simp]
theorem wp_getState {Q : Post σ ε σ} :
    (getState : Prog σ ε σ).wp Q s ↔ Q.ok s s := Iff.rfl

@[simp]
theorem wp_modifyState {f : σ → σ} {Q : Post σ ε Unit} :
    (modifyState f : Prog σ ε Unit).wp Q s ↔ Q.ok () (f s) := Iff.rfl

@[simp]
theorem wp_raise {e : ε} : (raise e : Prog σ ε α).wp Q s ↔ Q.throws e s := Iff.rfl

@[simp]
theorem wp_die : (die : Prog σ ε α).wp Q s ↔ Q.dead s := Iff.rfl

@[simp]
theorem wp_tryCatch {h : ε → Prog σ ε α} :
    (tryCatch m h).wp Q s ↔ m.wp { Q with throws := fun e => (h e).wp Q } s := by
  unfold wp tryCatch
  split <;> rename_i hm <;> split at hm <;> simp_all

@[simp]
theorem wp_tryFinally {fin : Prog σ ε Unit} :
    (tryFinally m fin).wp Q s ↔
      m.wp
        { ok := fun a => fin.wp { Q with ok := fun _ => Q.ok a }
          throws := fun e => fin.wp
            { ok := fun _ => Q.throws e, throws := Q.throws, dead := Q.dead }
          dead := Q.dead } s := by
  unfold wp tryFinally
  cases hm : m s with
  | mk r s' =>
      cases r with
      | ok a =>
          cases hf : fin s' with
          | mk r' s'' => cases r' <;> simp [hf]
      | throws e =>
          cases hf : fin s' with
          | mk r' s'' => cases r' <;> simp [hf]
      | dead => simp

@[simp]
theorem wp_zoom {get : τ → σ} {set : σ → τ → τ} {Q : Post τ ε α} {t : τ} :
    (zoom get set m).wp Q t ↔
      m.wp
        { ok := fun a s' => Q.ok a (set s' t)
          throws := fun e s' => Q.throws e (set s' t)
          dead := fun s' => Q.dead (set s' t) } (get t) := by
  unfold wp zoom
  cases hm : m (get t) with
  | mk r s' => cases r <;> simp

/-- The loop rule: `I rest` holds whenever `rest` is what is still to come. -/
theorem wp_forEach {f : β → Prog σ ε Unit} {I : List β → σ → Prop}
    {Q : Post σ ε Unit}
    (hstep : ∀ x rest s, I (x :: rest) s →
      (f x).wp { Q with ok := fun _ => I rest } s)
    (hdone : ∀ s, I [] s → Q.ok () s) :
    ∀ {xs : List β} {s : σ}, I xs s → (forEach f xs).wp Q s := by
  intro xs
  induction xs with
  | nil =>
      intro s hI
      exact hdone s hI
  | cons x rest ih =>
      intro s hI
      rw [forEach, wp_bind]
      exact wp_mono (hstep x rest s hI) (fun _ s' hI' => ih hI')
        (fun _ _ h => h) (fun _ h => h)

/-- The rule for a loop whose every iteration returns what `g` says. -/
theorem wp_mapEach {f : β → Prog σ ε γ} {g : β → γ} {I : σ → Prop}
    {Q : Post σ ε (List γ)} {xs : List β}
    (hstep : ∀ x ∈ xs, ∀ s, I s →
      (f x).wp { ok := fun y s' => y = g x ∧ I s', throws := Q.throws, dead := Q.dead } s)
    (hdone : ∀ s, I s → Q.ok (xs.map g) s) {s : σ} (hI : I s) : (mapEach f xs).wp Q s := by
  induction xs generalizing s Q with
  | nil => exact hdone s hI
  | cons x rest ih =>
      simp only [mapEach, wp_bind]
      refine wp_mono (hstep x List.mem_cons_self s hI) ?_ (fun _ _ h => h) (fun _ h => h)
      intro y s' hy
      obtain ⟨hy, hI'⟩ := hy
      dsimp only
      rw [wp_bind]
      have hrest := ih (Q := { Q with ok := fun ys => (pure (y :: ys) : Prog σ ε _).wp Q })
        (fun z hz => hstep z (List.mem_cons_of_mem _ hz))
      refine hrest (fun s'' hI'' => ?_) hI'
      dsimp only
      rw [wp_pure, hy]
      exact hdone s'' hI''

/-! ## Invariants of programs -/

/-- However `m` ends, it keeps `I`. -/
def Preserves (I : σ → Prop) (m : Prog σ ε α) : Prop :=
  ∀ s, I s → m.wp { ok := fun _ => I, throws := fun _ => I, dead := I } s

section

variable {I : σ → Prop}

theorem preserves_pure {a : α} : Preserves I (pure a : Prog σ ε α) := fun _ h => h

theorem preserves_raise {e : ε} : Preserves I (raise e : Prog σ ε α) := fun _ h => h

theorem preserves_die : Preserves I (die : Prog σ ε α) := fun _ h => h

theorem preserves_getState : Preserves I (getState : Prog σ ε σ) := fun _ h => h

theorem preserves_bind {f : α → Prog σ ε β} (hm : Preserves I m)
    (hf : ∀ a, Preserves I (f a)) : Preserves I (m >>= f) := by
  intro s hI
  rw [wp_bind]
  exact wp_mono (hm s hI) (fun a s' hI' => hf a s' hI') (fun _ _ h => h) (fun _ h => h)

theorem preserves_tryCatch {h : ε → Prog σ ε α} (hm : Preserves I m)
    (hh : ∀ e, Preserves I (h e)) : Preserves I (tryCatch m h) := by
  intro s hI
  rw [wp_tryCatch]
  exact wp_mono (hm s hI) (fun _ _ h => h) (fun e s' hI' => hh e s' hI') (fun _ h => h)

theorem preserves_tryFinally {fin : Prog σ ε Unit} (hm : Preserves I m)
    (hfin : Preserves I fin) : Preserves I (tryFinally m fin) := by
  intro s hI
  rw [wp_tryFinally]
  refine wp_mono (hm s hI) ?_ ?_ (fun _ h => h)
  · intro a s' hI'
    exact wp_mono (hfin s' hI') (fun _ _ h => h) (fun _ _ h => h) (fun _ h => h)
  · intro e s' hI'
    exact wp_mono (hfin s' hI') (fun _ _ h => h) (fun _ _ h => h) (fun _ h => h)

theorem preserves_ite {c : Prop} [Decidable c] {m' : Prog σ ε α}
    (hm : Preserves I m) (hm' : Preserves I m') : Preserves I (if c then m else m') := by
  by_cases h : c
  · rw [if_pos h]
    exact hm
  · rw [if_neg h]
    exact hm'

theorem preserves_forEach {f : β → Prog σ ε Unit} (hf : ∀ x, Preserves I (f x)) :
    ∀ xs : List β, Preserves I (forEach f xs)
  | [] => preserves_pure
  | x :: rest => preserves_bind (hf x) fun _ => preserves_forEach hf rest

theorem preserves_mapEach {f : β → Prog σ ε γ} (hf : ∀ x, Preserves I (f x)) :
    ∀ xs : List β, Preserves I (mapEach f xs)
  | [] => preserves_pure
  | x :: rest => preserves_bind (hf x) fun _ =>
      preserves_bind (preserves_mapEach hf rest) fun _ => preserves_pure

theorem preserves_modifyState {f : σ → σ} (hf : ∀ s, I s → I (f s)) :
    Preserves I (modifyState f : Prog σ ε Unit) := fun s hI => hf s hI

/-- A program over a part keeps what it keeps of the part. -/
theorem preserves_zoom {get : τ → σ} {set : σ → τ → τ} (hget : ∀ s t, get (set s t) = s)
    (hm : Preserves I m) : Preserves (fun t => I (get t)) (zoom get set m) := by
  intro t hI
  rw [wp_zoom]
  refine wp_mono (hm (get t) hI) (fun _ s h => ?_) (fun _ s h => ?_) (fun s h => ?_)
  all_goals
    dsimp only
    rw [hget]
    exact h

theorem preserves_exists {J : β → σ → Prop} (h : ∀ b, Preserves (J b) m) :
    Preserves (fun s => ∃ b, J b s) m := by
  intro s hs
  obtain ⟨b, hb⟩ := hs
  exact wp_mono (h b s hb) (fun _ _ h' => ⟨b, h'⟩) (fun _ _ h' => ⟨b, h'⟩) (fun _ h' => ⟨b, h'⟩)

/-- What an invariant says of the state a program ended in. -/
theorem Preserves.of_run {r : Exit ε α} {s s' : σ} (h : Preserves I m) (hI : I s)
    (hrun : m s = (r, s')) : I s' :=
  exit_of_wp (R := fun _ => I) (h s hI) hrun

theorem preserves_of_exit (h : ∀ s r s', I s → m s = (r, s') → I s') : Preserves I m := by
  intro s hI
  unfold wp
  split
  · next a s' hrun => exact h s _ s' hI hrun
  · next e s' hrun => exact h s _ s' hI hrun
  · next s' hrun => exact h s _ s' hI hrun

/-- … and of the state a step first failed in. -/
theorem Preserves.of_firstFailure {steps : List (Prog σ ε Unit)} {s s' : σ} {k : Nat} {e : ε}
    (hsteps : ∀ m ∈ steps, Preserves I m) (hI : I s)
    (h : firstFailure steps s = some (k, e, s')) : I s' := by
  induction steps generalizing s k with
  | nil => cases h
  | cons m rest ih =>
      have hm := hsteps m List.mem_cons_self
      rcases firstFailure_cons h with ⟨_, hrun⟩ | ⟨j, s₁, _, hrun, hrest⟩
      · exact hm.of_run hI hrun
      · exact ih (fun m' hm' => hsteps m' (List.mem_cons_of_mem _ hm')) (hm.of_run hI hrun) hrest

/-- Two continuations that agree where the invariant holds. -/
theorem Preserves.bind_congr {f g : α → Prog σ ε β} (hm : Preserves I m)
    (hfg : ∀ a s, I s → f a s = g a s) {s : σ} (hI : I s) : (m >>= f) s = (m >>= g) s := by
  show andThen m f s = andThen m g s
  unfold andThen
  cases hrun : m s with
  | mk r s' =>
      cases r with
      | ok a => exact hfg a s' (hm.of_run hI hrun)
      | throws e => rfl
      | dead => rfl

/-- … and two cleanups. -/
theorem Preserves.tryFinally_congr {fin fin' : Prog σ ε Unit} (hm : Preserves I m)
    (hfin : ∀ s, I s → fin s = fin' s) {s : σ} (hI : I s) :
    tryFinally m fin s = tryFinally m fin' s := by
  unfold tryFinally
  cases hrun : m s with
  | mk r s' =>
      have hcleanup := hfin s' (hm.of_run hI hrun)
      cases r with
      | ok a => simp only [hcleanup]
      | throws e => simp only [hcleanup]
      | dead => rfl

end

end Prog

end OrmBenchmark.Lib
