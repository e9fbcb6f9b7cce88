import OrmBenchmark.Lib.Lts

/-!
# Systems that come to rest

Some labels are the environment's, the others the system's own. If every own
step lowers a measure, a system that is left alone takes only so many steps,
and a run that is continued with own steps ends in a state that has none. What
the environment may add to the measure bounds the own steps of a whole run: it
pays for all of them.
-/

namespace OrmBenchmark.Lib.Lts

variable {σ α : Type} {M : Lts σ α} {h : History σ α} {s : σ}

/-- Nothing but the environment can take a step. -/
def Rests (M : Lts σ α) (external : α → Bool) (s : σ) : Prop :=
  ∀ a s', M.step s a s' → external a = true

/-- The steps a run took by itself. -/
def ownSteps (external : α → Bool) (h : History σ α) : Nat :=
  h.countP fun p => !external p.2

/-- … and those its environment took. -/
def externalSteps (external : α → Bool) (h : History σ α) : Nat :=
  h.countP fun p => external p.2

variable {external : α → Bool} {work : σ → Nat}

/-- The environment pays `cost` for each of its steps, and no run takes more own
steps than were paid for. -/
theorem Run.ownSteps_le {cost : Nat} (hinit : ∀ s, M.init s → work s = 0)
    (hown : ∀ s a s', M.step s a s' → external a = false → work s' < work s)
    (hexternal : ∀ s a s', M.step s a s' → external a = true → work s' ≤ work s + cost)
    (hrun : M.Run h s) :
    ownSteps external h + work s ≤ cost * externalSteps external h := by
  induction hrun with
  | start hs => simp [ownSteps, externalSteps, hinit _ hs]
  | @snoc h s s' a _ hs ih =>
      unfold ownSteps externalSteps at ih ⊢
      rw [List.countP_append, List.countP_append, List.countP_singleton, List.countP_singleton]
      cases ha : external a with
      | false =>
          have hless := hown s a s' hs ha
          simp
          omega
      | true =>
          have hmore := hexternal s a s' hs ha
          simp [Nat.mul_add]
          omega

/-- A run can be continued by own steps to a state at rest. -/
theorem Run.exists_rest
    (hown : ∀ s a s', M.step s a s' → external a = false → work s' < work s)
    (hrun : M.Run h s) :
    ∃ h' s', M.Run (h ++ h') s' ∧ (∀ p ∈ h', external p.2 = false) ∧ M.Rests external s' := by
  -- By induction on what is left to do, over all the runs that have that much left.
  induction hwork : work s using Nat.strongRecOn generalizing h s with
  | ind n ih =>
      by_cases hrests : M.Rests external s
      · exact ⟨[], s, by rw [List.append_nil]; exact hrun, by simp, hrests⟩
      · unfold Rests at hrests
        push Not at hrests
        obtain ⟨a, s', hs, ha⟩ := hrests
        have ha' : external a = false := by simpa using ha
        have hless := hown s a s' hs ha'
        obtain ⟨h', s'', hrun', hall, hrests'⟩ :=
          ih (work s') (by omega) (hrun.snoc hs) rfl
        refine ⟨(s, a) :: h', s'', ?_, ?_, hrests'⟩
        · rw [List.append_assoc] at hrun'
          exact hrun'
        · intro p hp
          rcases List.mem_cons.1 hp with rfl | hp
          · exact ha'
          · exact hall p hp

end OrmBenchmark.Lib.Lts
