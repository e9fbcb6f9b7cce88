import Mathlib.Algebra.Order.BigOperators.Group.List
import OrmBenchmark.Lib.Clock
import OrmBenchmark.Ref.TimeMeasure

/-!
# The averaging constructor

The loop adds the durations with one tag in a wrapping long and counts them in
a wrapping int. As long as the durations are not negative and their sum and
their number fit, it computes the exact sum and the exact number at every
point, the division is by that number, and the two truncating divisions give
one floor.
-/

namespace OrmBenchmark.Ref

open OrmBenchmark.Lib

namespace TimeMeasure

/-- The measures with this tag. -/
def tagged (actionRes : Int32) (l : List TimeMeasure) : List TimeMeasure :=
  l.filter fun tm => tm.actionRes = actionRes

/-- The sum of their durations, over the integers. -/
def total (actionRes : Int32) (l : List TimeMeasure) : Int :=
  ((tagged actionRes l).map fun tm => tm.nano.toInt).sum

/-- The loop of the averaging constructor overflows at no point. -/
def Exact (actionRes : Int32) (l : List TimeMeasure) : Prop :=
  ∀ pre, pre <+: l →
    (pre.foldl (accumulate actionRes) (0, 0)).1.toInt = total actionRes pre ∧
    (pre.foldl (accumulate actionRes) (0, 0)).2.toInt = (tagged actionRes pre).length

section

variable {actionRes : Int32} {l : List TimeMeasure}

theorem total_append (l' : List TimeMeasure) :
    total actionRes (l ++ l') = total actionRes l + total actionRes l' := by
  simp [total, tagged]

theorem total_nonneg (actionRes : Int32) (h : ∀ tm ∈ l, 0 ≤ tm.nano.toInt) :
    0 ≤ total actionRes l := by
  refine List.sum_nonneg fun x hx => ?_
  obtain ⟨tm, htm, rfl⟩ := List.mem_map.1 hx
  exact h tm (List.mem_of_mem_filter htm)

theorem tagged_cons (tm : TimeMeasure) :
    tagged actionRes (tm :: l) =
      if tm.actionRes = actionRes then tm :: tagged actionRes l
      else tagged actionRes l := by
  simp [tagged, List.filter_cons]

theorem total_cons (tm : TimeMeasure) :
    total actionRes (tm :: l) =
      if tm.actionRes = actionRes then tm.nano.toInt + total actionRes l
      else total actionRes l := by
  rw [total, tagged_cons]
  split
  · rw [List.map_cons, List.sum_cons, total]
  · rw [total]

/-- The count is the number of measures with the tag, if that is an `int`. -/
theorem foldl_accumulate_count (actionRes : Int32) (acc : Int64 × Int32)
    (hcount : 0 ≤ acc.2.toInt)
    (hlength : acc.2.toInt + (tagged actionRes l).length < 2 ^ 31) :
    (l.foldl (accumulate actionRes) acc).2.toInt =
      acc.2.toInt + (tagged actionRes l).length := by
  induction l generalizing acc with
  | nil => simp [tagged]
  | cons tm rest ih =>
      rw [List.foldl_cons, accumulate]
      rw [tagged_cons] at hlength ⊢
      by_cases htag : tm.actionRes = actionRes
      · simp only [if_pos htag, List.length_cons] at hlength ⊢
        have hsucc := toInt_succ_of_lt hcount (by omega)
        rw [ih _ (by simp only; omega) (by simp only; omega)]
        simp only
        omega
      · simp only [if_neg htag] at hlength ⊢
        exact ih acc hcount hlength

/-- The value is the sum of their durations, if that is a `long`. -/
theorem foldl_accumulate_value (actionRes : Int32) (acc : Int64 × Int32)
    (hnonneg : ∀ tm ∈ l, 0 ≤ tm.nano.toInt) (hvalue : 0 ≤ acc.1.toInt)
    (htotal : acc.1.toInt + total actionRes l < 2 ^ 63) :
    (l.foldl (accumulate actionRes) acc).1.toInt =
      acc.1.toInt + total actionRes l := by
  induction l generalizing acc with
  | nil => simp [total, tagged]
  | cons tm rest ih =>
      have hrest : ∀ x ∈ rest, 0 ≤ x.nano.toInt :=
        fun x hx => hnonneg x (List.mem_cons_of_mem _ hx)
      have htm := hnonneg tm List.mem_cons_self
      have hrestTotal := total_nonneg actionRes hrest
      rw [List.foldl_cons, accumulate]
      rw [total_cons] at htotal ⊢
      by_cases htag : tm.actionRes = actionRes
      · simp only [if_pos htag] at htotal ⊢
        have hadd := toInt_add_of_lt hvalue htm (by omega)
        rw [ih _ hrest (by simp only; omega) (by simp only; omega)]
        simp only
        omega
      · simp only [if_neg htag] at htotal ⊢
        exact ih acc hrest hvalue htotal

theorem Exact.of_bounds (hnonneg : ∀ tm ∈ l, 0 ≤ tm.nano.toInt)
    (htotal : total actionRes l < 2 ^ 63)
    (hlength : ((tagged actionRes l).length : Int) < 2 ^ 31) : Exact actionRes l := by
  intro pre hpre
  obtain ⟨rest, rfl⟩ := hpre
  have hrest : 0 ≤ total actionRes rest :=
    total_nonneg actionRes fun tm htm => hnonneg tm (List.mem_append_right _ htm)
  rw [total_append] at htotal
  rw [tagged, List.filter_append, List.length_append] at hlength
  constructor
  · rw [foldl_accumulate_value actionRes (0, 0)
      (fun tm htm => hnonneg tm (List.mem_append_left _ htm)) (by simp) (by simp; omega)]
    simp
  · rw [foldl_accumulate_count actionRes (0, 0) (by simp) (by simp [tagged]; omega)]
    simp

/-- There is an average of any number of measures from one to an `int`. -/
theorem ofMeasures_isSome (htagged : tagged actionRes l ≠ [])
    (hlength : ((tagged actionRes l).length : Int) < 2 ^ 31) :
    ∃ tm, ofMeasures actionRes l = some tm := by
  have hcount := foldl_accumulate_count (l := l) actionRes (0, 0) (by simp)
    (by simp; omega)
  have hlen := List.length_pos_iff.2 htagged
  rcases hfold : l.foldl (accumulate actionRes) (0, 0) with ⟨value, count⟩
  rw [hfold] at hcount
  have hne : count ≠ 0 := by
    intro h
    rw [h] at hcount
    simp at hcount
    omega
  exact ⟨_, by simp only [ofMeasures, hfold, if_neg hne]; rfl⟩

/-- The average of an exact loop over at least one measure. -/
theorem ofMeasures_of_exact {tm : TimeMeasure} (hexact : Exact actionRes l)
    (hnonneg : ∀ tm ∈ l, 0 ≤ tm.nano.toInt)
    (haverage : ofMeasures actionRes l = some tm) :
    tm.msec.toInt =
      total actionRes l / ((tagged actionRes l).length * 1000000) := by
  obtain ⟨hvalue, hcount⟩ := hexact l (List.prefix_refl l)
  have htotal := total_nonneg actionRes hnonneg
  rw [ofMeasures] at haverage
  rcases hfold : l.foldl (accumulate actionRes) (0, 0) with ⟨value, count⟩
  rw [hfold] at hvalue hcount haverage
  simp only at hvalue hcount haverage
  split at haverage
  · cases haverage
  · cases haverage
    have hnano : (value / count.toInt64).toInt =
        total actionRes l / (tagged actionRes l).length := by
      rw [toInt_div_of_nonneg (by omega), Int32.toInt_toInt64, hvalue, hcount]
    have hpos : 0 ≤ (value / count.toInt64).toInt := by
      rw [hnano]
      exact Int.ediv_nonneg htotal (by omega)
    have hmillion : (1000000 : Int64).toInt = 1000000 := rfl
    rw [toMillis, toInt_div_of_nonneg hpos, hnano, hmillion,
      Int.ediv_ediv_of_nonneg (by omega)]

end

end TimeMeasure

end OrmBenchmark.Ref
