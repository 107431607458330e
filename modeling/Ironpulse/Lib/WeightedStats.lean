import Mathlib.Algebra.BigOperators.Ring.Finset
import Mathlib.Algebra.Order.BigOperators.Ring.Finset
import Mathlib.Algebra.Order.Field.Basic
import Mathlib.Tactic.Ring

/-! # Weighted mean and variance of a growing family

The mean and the variance of finitely many values with weights that sum to one, and what becomes of
both when the weights are scaled down to make room for one more value.

* **`mean`**, **`spread`**: the weighted sum, and the weighted squares around a centre.
* **`spread_eq_add_sq`**: moving the centre away from the mean adds the square of the distance.
* **`mean_insert`**, **`spread_insert`**: one more value, with the older weights scaled. -/

namespace WeightedStats

open Finset

variable {ι K : Type*} [Field K] {s : Finset ι} {w w' x : ι → K} {a : K}

/-- The weighted sum of the values. -/
def mean (s : Finset ι) (w x : ι → K) : K := ∑ i ∈ s, w i * x i

/-- The weighted squares of the distances to a centre; around the mean it is the variance. -/
def spread (s : Finset ι) (w x : ι → K) (c : K) : K := ∑ i ∈ s, w i * (x i - c) ^ 2

/-- With weights that are not negative neither is the spread. -/
theorem spread_nonneg [LinearOrder K] [IsStrictOrderedRing K] (hw : ∀ i ∈ s, 0 ≤ w i) (c : K) :
    0 ≤ spread s w x c :=
  sum_nonneg fun i hi => mul_nonneg (hw i hi) (sq_nonneg _)

/-- **Re-centring.** The squares around any centre are those around the mean, and the square of the
distance between the two. -/
theorem spread_eq_add_sq (hw : ∑ i ∈ s, w i = 1) (c : K) :
    spread s w x c = spread s w x (mean s w x) + (mean s w x - c) ^ 2 := by
  set m := mean s w x with hm
  -- the deviations from the mean cancel
  have hcancel : ∑ i ∈ s, w i * (x i - m) = 0 := by
    have hsplit : ∑ i ∈ s, w i * (x i - m) = mean s w x - (∑ i ∈ s, w i) * m := by
      rw [mean, sum_mul, ← sum_sub_distrib]
      exact sum_congr rfl fun i _ => by ring
    rw [hsplit, hw, ← hm, one_mul, sub_self]
  have hterm : ∀ i ∈ s, w i * (x i - c) ^ 2 =
      w i * (x i - m) ^ 2 + 2 * (m - c) * (w i * (x i - m)) + w i * (m - c) ^ 2 :=
    fun i _ => by ring
  calc spread s w x c
      = spread s w x m + 2 * (m - c) * ∑ i ∈ s, w i * (x i - m) + (∑ i ∈ s, w i) * (m - c) ^ 2 := by
        rw [spread, sum_congr rfl hterm, sum_add_distrib, sum_add_distrib, ← mul_sum, ← sum_mul]
        rfl
    _ = spread s w x m + (m - c) ^ 2 := by
        rw [hcancel, hw]
        ring

/-! ## One more value

The older weights are scaled by `1 - a`, and the new value has the weight `a`. -/

section Insert

variable [DecidableEq ι] {i : ι}

/-- One more value of weight `a`, the others scaled by `1 - a`: the weights still sum to one. -/
theorem sum_weight_insert (hi : i ∉ s) (hnew : w' i = a) (hold : ∀ j ∈ s, w' j = (1 - a) * w j)
    (hw : ∑ j ∈ s, w j = 1) : ∑ j ∈ insert i s, w' j = 1 := by
  rw [sum_insert hi, hnew, sum_congr rfl hold, ← mul_sum, hw]
  ring

/-- The mean moves towards the new value. -/
theorem mean_insert (hi : i ∉ s) (hnew : w' i = a) (hold : ∀ j ∈ s, w' j = (1 - a) * w j) :
    mean (insert i s) w' x = mean s w x + a * (x i - mean s w x) := by
  have hsum : ∑ j ∈ s, w' j * x j = (1 - a) * mean s w x := by
    rw [mean, mul_sum]
    exact sum_congr rfl fun j hj => by rw [hold j hj, mul_assoc]
  rw [mean, sum_insert hi, hnew, hsum]
  ring

/-- The spread around a fixed centre takes the new value in the same way. -/
theorem spread_insert_around (hi : i ∉ s) (hnew : w' i = a)
    (hold : ∀ j ∈ s, w' j = (1 - a) * w j) (c : K) :
    spread (insert i s) w' x c = a * (x i - c) ^ 2 + (1 - a) * spread s w x c := by
  rw [spread, sum_insert hi, hnew, spread, mul_sum]
  congr 1
  exact sum_congr rfl fun j hj => by rw [hold j hj, mul_assoc]

/-- **The variance around the new mean** from the variance around the old one. -/
theorem spread_insert (hi : i ∉ s) (hnew : w' i = a) (hold : ∀ j ∈ s, w' j = (1 - a) * w j)
    (hw : ∑ j ∈ s, w j = 1) :
    spread (insert i s) w' x (mean (insert i s) w' x) =
      (1 - a) * (spread s w x (mean s w x) + a * (x i - mean s w x) ^ 2) := by
  rw [spread_insert_around hi hnew hold, spread_eq_add_sq hw, mean_insert hi hnew hold]
  ring

end Insert

end WeightedStats
