import Mathlib.Init

/-!
# A store with nested transactions

A value that outlives the process, the copy a session works on, and the levels
of the transaction that is open on it, innermost first. With no level open the
two copies agree, and the store carries that. An update outside a transaction
is committed at once.

A level fails if it ends without having been marked or after an inner level
failed; only the end of the outermost level touches the committed value, and it
does so only if the level did not fail and the commit works.

A transaction is described by the value it has reached. `inner` is the store
while its innermost level is open and unmarked, `innerMarked` once it is marked;
`kept` and `dropped` are what ending it leaves, and they only differ from the
store before the level in what the level was about.
-/

namespace OrmBenchmark.Lib

structure TxLevel where
  marked : Bool
  childFailed : Bool
deriving DecidableEq, Repr

structure TxStore (σ : Type) where
  committed : σ
  current : σ
  levels : List TxLevel
  idle : levels = [] → current = committed

namespace TxStore

variable {σ : Type}

/-- A store that nothing is open on. -/
def ofCommitted (v : σ) : TxStore σ := ⟨v, v, [], fun _ => rfl⟩

/-- The session is gone: what it had not committed is lost. -/
def abandon (s : TxStore σ) : TxStore σ := ofCommitted s.committed

def update (f : σ → σ) (s : TxStore σ) : TxStore σ where
  committed := if s.levels = [] then f s.current else s.committed
  current := f s.current
  levels := s.levels
  idle h := by rw [if_pos h]

def begin' (s : TxStore σ) : TxStore σ where
  committed := s.committed
  current := s.current
  levels := ⟨false, false⟩ :: s.levels
  idle h := by cases h

/-- Marking twice, or outside a transaction, is an error. -/
def mark (s : TxStore σ) : Option (TxStore σ) :=
  match s.levels with
  | [] => none
  | level :: rest =>
      if level.marked then none
      else some ⟨s.committed, s.current, { level with marked := true } :: rest,
        fun h => by cases h⟩

def failChild : List TxLevel → List TxLevel
  | [] => []
  | level :: rest => { level with childFailed := true } :: rest

/-- Without a transaction an error; `commits` is whether a commit would work. -/
def finish (commits : Bool) (s : TxStore σ) : Option (TxStore σ) :=
  match s.levels with
  | [] => none
  | [level] =>
      if level.marked && !level.childFailed && commits then some (ofCommitted s.current)
      else some (ofCommitted s.committed)
  | level :: outer :: rest =>
      some ⟨s.committed, s.current,
        if level.marked && !level.childFailed then outer :: rest
        else failChild (outer :: rest),
        fun h => by split at h <;> cases h⟩

/-! ## One transaction -/

def inner (s : TxStore σ) (v : σ) : TxStore σ :=
  ⟨s.committed, v, ⟨false, false⟩ :: s.levels, fun h => by cases h⟩

def innerMarked (s : TxStore σ) (v : σ) : TxStore σ :=
  ⟨s.committed, v, ⟨true, false⟩ :: s.levels, fun h => by cases h⟩

def kept (s : TxStore σ) (v : σ) : TxStore σ where
  committed := if s.levels = [] then v else s.committed
  current := v
  levels := s.levels
  idle h := by rw [if_pos h]

/-- Outside a transaction the store is as before; inside one the outer level
has a failed child and keeps what the inner level did until it ends itself. -/
def dropped (s : TxStore σ) (v : σ) : TxStore σ where
  committed := s.committed
  current := if s.levels = [] then s.current else v
  levels := failChild s.levels
  idle h := by
    cases hlevels : s.levels with
    | nil => exact s.idle hlevels
    | cons level rest => rw [hlevels] at h; cases h

variable {s : TxStore σ} {v : σ} {f : σ → σ}

theorem ofCommitted_of_idle (h : s.levels = []) : s = ofCommitted s.committed := by
  obtain ⟨committed, current, levels, hidle⟩ := s
  cases h
  cases hidle rfl
  rfl

@[simp]
theorem idle_levels (v : σ) : (ofCommitted v).levels = [] := rfl

/-- Outside a transaction an update is committed. -/
@[simp]
theorem update_ofCommitted : (ofCommitted v).update f = ofCommitted (f v) := rfl

/-- A commit that fails rolls back like a level that was not marked. -/
theorem finish_innerMarked {commits : Bool} :
    (s.innerMarked v).finish commits =
      some (if commits ∨ s.levels ≠ [] then s.kept v else s.dropped v) := by
  obtain ⟨committed, current, levels, hidle⟩ := s
  cases levels with
  | nil =>
      cases hidle rfl
      cases commits <;> rfl
  | cons outer rest => simp [innerMarked, finish, kept]

theorem finish_inner {commits : Bool} : (s.inner v).finish commits = some (s.dropped v) := by
  obtain ⟨committed, current, levels, hidle⟩ := s
  cases levels with
  | nil =>
      cases hidle rfl
      rfl
  | cons outer rest => simp [inner, finish, dropped, failChild]

theorem depth_mark {s' : TxStore σ} (h : s.mark = some s') :
    s'.levels.length = s.levels.length := by
  unfold mark at h
  split at h
  · cases h
  · next level rest hlevels =>
      split at h
      · cases h
      · cases h
        rw [hlevels]
        rfl

/-- Ending the innermost level, whatever comes of it. -/
theorem depth_finish (commits : Bool) (h : s.levels ≠ []) :
    ∃ s', s.finish commits = some s' ∧ s'.levels.length + 1 = s.levels.length := by
  unfold finish
  split
  · next hnil => exact absurd hnil h
  · next level hlevels => split <;> exact ⟨_, rfl, by simp [ofCommitted, hlevels]⟩
  · next level outer rest hlevels =>
      refine ⟨_, rfl, ?_⟩
      rw [hlevels]
      dsimp only
      split <;> simp [failChild]

end TxStore

end OrmBenchmark.Lib
