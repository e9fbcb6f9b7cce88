import OrmBenchmark.Lib.Prog

/-!
# Programs that always return

A program returns under an invariant when out of every state of the invariant
it ends with a value, in a state of the invariant: it neither throws nor dies.
This is what a safety proof asks of every function of a library. The invariant
says which arguments are good, and a call with good arguments goes on with an
invariant that still says it. The rules follow the constructs, as those of
`Preserves` do, so a function returns if what it calls does.
-/

namespace OrmBenchmark.Lib

/-- The postcondition of a program that returns. -/
def Post.only {σ ε α : Type} (P : α → σ → Prop) : Post σ ε α where
  ok := P
  throws _ _ := False
  dead _ := False

namespace Prog

variable {σ ε α β : Type} {I : σ → Prop} {m : Prog σ ε α}

def Returns (I : σ → Prop) (m : Prog σ ε α) : Prop :=
  ∀ s, I s → m.wp (Post.only fun _ => I) s

theorem returns_pure {a : α} : Returns I (pure a : Prog σ ε α) := fun _ h => h

theorem returns_modifyState {f : σ → σ} (hf : ∀ s, I s → I (f s)) :
    Returns I (modifyState f : Prog σ ε Unit) := fun s hI => hf s hI

/-- The rule of consequence for a program that returns. -/
theorem wp_of_only {P : α → σ → Prop} {Q : Post σ ε α} {s : σ} (h : m.wp (Post.only P) s)
    (hok : ∀ a s', P a s' → Q.ok a s') : m.wp Q s :=
  wp_mono h hok (fun _ _ h => h.elim) (fun _ h => h.elim)

/-- What holds if the program returns, and that it does. -/
theorem wp_and_only {Q : Post σ ε α} {P : α → σ → Prop} {s : σ} (h : m.wp Q s)
    (hreturns : m.wp (Post.only P) s) : m.wp (Post.only fun a s' => Q.ok a s' ∧ P a s') s := by
  unfold wp at h hreturns ⊢
  split at h
  · next a s' hrun =>
      rw [hrun] at hreturns
      exact ⟨h, hreturns⟩
  · next e s' hrun =>
      rw [hrun] at hreturns
      exact hreturns.elim
  · next s' hrun =>
      rw [hrun] at hreturns
      exact hreturns.elim

theorem wp_only_of_returns {Q : Post σ ε α} {s : σ} (h : m.wp Q s)
    (hreturns : m.wp (Post.only fun _ _ => True) s) : m.wp (Post.only Q.ok) s :=
  wp_of_only (wp_and_only h hreturns) fun _ _ hboth => hboth.1

/-- What a program that returns left. -/
theorem exit_of_only {P : α → σ → Prop} {s s' : σ} {r : Exit ε α} (h : m.wp (Post.only P) s)
    (hrun : m s = (r, s')) : ∃ a, r = .ok a ∧ P a s' := by
  unfold wp at h
  rw [hrun] at h
  cases r with
  | ok a => exact ⟨a, rfl, h⟩
  | throws e => exact h.elim
  | dead => exact h.elim

theorem returns_bind {f : α → Prog σ ε β} (hm : Returns I m) (hf : ∀ a, Returns I (f a)) :
    Returns I (m >>= f) := by
  intro s hI
  rw [wp_bind]
  exact wp_of_only (hm s hI) fun a s' hI' => hf a s' hI'

theorem returns_ite {c : Prop} [Decidable c] {m' : Prog σ ε α} (hm : Returns I m)
    (hm' : Returns I m') : Returns I (if c then m else m') := by
  by_cases h : c
  · rw [if_pos h]
    exact hm
  · rw [if_neg h]
    exact hm'

end Prog

end OrmBenchmark.Lib
