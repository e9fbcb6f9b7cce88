import Mathlib.Order.Monotone.Basic
import Mathlib.Algebra.BigOperators.Group.List.Basic
import Mathlib.Algebra.Order.Group.Int
import Mathlib.Algebra.Order.Group.Unbundled.Basic
import Mathlib.Algebra.Ring.Int.Defs

/-!
# Durations on one monotone clock

A clock that never goes back, read as wrapping 64-bit numbers. The difference
of two readings is the time between them as long as that is below half the
range, however often the readings wrapped. Intervals that follow each other on
the clock do not overlap, so their lengths add up to at most the time from the
start of the first to the end of the last: that is the bound that keeps a sum
of measured durations inside the range.
-/

namespace OrmBenchmark.Lib

/-- The length of the interval between two readings of a clock. -/
def gap {α : Type*} [Sub α] (t : Nat → α) (start stop : Nat) : α := t stop - t start

theorem gap_add_gap {α : Type*} [AddCommGroup α] {t : Nat → α} (a b c : Nat) :
    gap t a b + gap t b c = gap t a c := by
  rw [gap, gap, gap, add_comm, sub_add_sub_cancel]

section Gaps

variable {α : Type*} [AddCommGroup α] [LinearOrder α] [IsOrderedAddMonoid α]
variable {t : Nat → α} (hmono : Monotone t)
include hmono

theorem gap_nonneg {start stop : Nat} (h : start ≤ stop) : 0 ≤ gap t start stop :=
  sub_nonneg.2 (hmono h)

/-- Intervals in order sum up to at most the whole. -/
theorem sum_gaps_le (start stop : Nat → Nat)
    (hnext : ∀ i, stop i ≤ start (i + 1)) (n : Nat) :
    ((List.range (n + 1)).map fun i => gap t (start i) (stop i)).sum ≤
      gap t (start 0) (stop n) := by
  induction n with
  | zero => simp
  | succ n ih =>
      rw [List.range_succ, List.map_append, List.sum_append]
      have hbetween : 0 ≤ gap t (stop n) (start (n + 1)) := gap_nonneg hmono (hnext n)
      calc _ ≤ gap t (start 0) (stop n) + gap t (start (n + 1)) (stop (n + 1)) := by
            rw [List.map_singleton, List.sum_singleton]
            exact add_le_add_left ih _
        _ ≤ gap t (start 0) (stop n) + gap t (stop n) (start (n + 1)) +
              gap t (start (n + 1)) (stop (n + 1)) := by
            gcongr
            exact le_add_of_nonneg_right hbetween
        _ = gap t (start 0) (stop (n + 1)) := by
            rw [gap_add_gap, gap_add_gap]

end Gaps

/-! ## Readings that wrap -/

/-- What a 64-bit counter shows at a time. -/
def reading (time : Int) : Int64 := Int64.ofInt time

/-- The wrapped difference of two readings is the time between them. -/
theorem toInt_reading_sub {t : Nat → Int} {start stop : Nat}
    (hnonneg : 0 ≤ gap t start stop) (hspan : gap t start stop < 2 ^ 63) :
    (reading (t stop) - reading (t start)).toInt = gap t start stop := by
  rw [reading, reading, ← Int64.ofInt_sub, Int64.toInt_ofInt_of_le]
  · rfl
  · rw [← gap]
    omega
  · exact hspan

theorem toInt_add_of_lt {a b : Int64} (ha : 0 ≤ a.toInt) (hb : 0 ≤ b.toInt)
    (hsum : a.toInt + b.toInt < 2 ^ 63) : (a + b).toInt = a.toInt + b.toInt := by
  rw [Int64.toInt_add, Int.bmod_eq_of_le]
  · omega
  · omega

theorem toInt_succ_of_lt {n : Int32} (hn : 0 ≤ n.toInt)
    (hlt : n.toInt + 1 < 2 ^ 31) : (n + 1).toInt = n.toInt + 1 := by
  have hone : (1 : Int32).toInt = 1 := rfl
  rw [Int32.toInt_add, hone, Int.bmod_eq_of_le]
  · omega
  · omega

/-- Dividing an amount that is not negative rounds down. -/
theorem toInt_div_of_nonneg {a : Int64} (ha : 0 ≤ a.toInt) (b : Int64) :
    (a / b).toInt = a.toInt / b.toInt := by
  have hne : a ≠ Int64.minValue := by
    intro h
    rw [h] at ha
    exact absurd ha (by decide)
  rw [Int64.toInt_div_of_ne_left a b hne, Int.tdiv_eq_ediv_of_nonneg ha]

end OrmBenchmark.Lib
