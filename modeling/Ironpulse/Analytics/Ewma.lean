import Ironpulse.Analytics.ExactArithmetic
import Ironpulse.Lib.WeightedStats
import Mathlib.Algebra.Order.Floor.Ring
import Mathlib.Data.Rat.Sqrt

/-! # What the moving estimates are, and when they vote

`include/ironpulse/analytics/strategies/ewma.hpp`, in exact arithmetic. The one-line update of the
variance is the recentring of a weighted variance; the warm-up is counted from the reciprocal of
`alpha`, which the constructor bounds from below.

* **`feed`**, **`flagged`**: the detector over a history of readings.
* **`weight`**, **`estimates_weighted`**: its estimates are the weighted mean and variance.
* **`flagged_after_jump`**: a jump after the warm-up is flagged, whatever the threshold.
* **`quiet_at_first_iff`**: the documented warm-up holds exactly from `alpha = 1e-3` on. -/

namespace Ironpulse.Analytics.EwmaDetector

open Finset (range)

/-! ## (1) A history of readings -/

section History

variable {F : Type} [Arithmetic F] (d : EwmaDetector F)

/-- An update keeps the smoothing factor. -/
@[simp] theorem update_alpha (value : F) : (d.update value).alpha_ = d.alpha_ := by
  unfold update
  split <;> rfl

/-- An update keeps the threshold. -/
@[simp] theorem update_threshold_sigma (value : F) :
    (d.update value).threshold_sigma_ = d.threshold_sigma_ := by
  unfold update
  split <;> rfl

/-- An update keeps the length of the warm-up. -/
@[simp] theorem update_warmup (value : F) : (d.update value).warmup_ = d.warmup_ := by
  unfold update
  split <;> rfl

/-- An update counts its sample. -/
@[simp] theorem update_samples (value : F) : (d.update value).samples_ = d.samples_ + 1 := by
  unfold update
  split <;> rfl

/-- After an update the estimates are initialized. -/
@[simp] theorem update_initialized (value : F) : (d.update value).initialized_ = true := by
  unfold update
  split
  · assumption
  · rfl

variable [SquareRoot F]

/-- The detector after a history of readings, oldest first. -/
def feed (history : List F) : EwmaDetector F :=
  history.foldl (fun d value => (d.observe value).2) d

/-- A reading is flagged after the ones before it. -/
def flagged (before : List F) (value : F) : Prop :=
  ((d.feed before).observe value).1.is_anomaly = true

/-- Feeding nothing leaves the detector as it is. -/
@[simp] theorem feed_nil : d.feed [] = d := rfl

/-- The last reading of a history updates what the readings before it have left. -/
theorem feed_concat (history : List F) (value : F) :
    d.feed (history ++ [value]) = (d.feed history).update value := by
  rw [feed, List.foldl_append]
  rfl

/-- The parameters stay, and the samples are counted modulo `2^64`. -/
theorem feed_parameters (history : List F) :
    (d.feed history).alpha_ = d.alpha_ ∧
      (d.feed history).threshold_sigma_ = d.threshold_sigma_ ∧
      (d.feed history).warmup_ = d.warmup_ ∧
      (d.feed history).samples_ = d.samples_ + UInt64.ofNat history.length := by
  induction history using List.reverseRecOn with
  | nil => exact ⟨rfl, rfl, rfl, (UInt64.add_zero _).symm⟩
  | append_singleton history value ih =>
      obtain ⟨halpha, hthreshold, hwarmup, hsamples⟩ := ih
      rw [feed_concat]
      refine ⟨by simpa, by simpa, by simpa, ?_⟩
      rw [update_samples, hsamples, List.length_append, List.length_singleton, UInt64.ofNat_add,
        ← UInt64.add_assoc]
      rfl

/-- One reading is enough to initialize the estimates. -/
theorem initialized_feed {history : List F} (h : history ≠ []) :
    (d.feed history).initialized_ = true := by
  induction history using List.reverseRecOn with
  | nil => exact absurd rfl h
  | append_singleton history value _ => rw [feed_concat, update_initialized]

/-- Nothing is flagged before the warm-up is over. -/
theorem warmup_le_of_flagged {before : List F} {value : F} (h : d.flagged before value)
    (hnew : d.samples_ = 0) : d.warmup_.toNat ≤ before.length := by
  obtain ⟨-, -, hwarmup, hsamples⟩ := d.feed_parameters before
  rw [flagged, observe] at h
  dsimp only at h
  split at h
  · rename_i hvotes
    have hle : (d.feed before).warmup_ ≤ (d.feed before).samples_ := hvotes.2.2
    rw [hwarmup, hsamples, hnew, UInt64.zero_add, UInt64.le_iff_toNat_le,
      UInt64.toNat_ofNat'] at hle
    exact hle.trans (Nat.mod_le _ _)
  · exact absurd h (by simp [no_result])

end History

/-! ## (2) The estimates as weighted statistics -/

section Weight

variable {K : Type} [Field K]

/-- The weight of reading `i` after readings `0` to `n`. -/
def weight (alpha : K) (n i : ℕ) : K :=
  if i = 0 then (1 - alpha) ^ n else alpha * (1 - alpha) ^ (n - i)

/-- The newest reading has weight `alpha`. -/
@[simp] theorem weight_self (alpha : K) (n : ℕ) : weight alpha (n + 1) (n + 1) = alpha := by
  simp [weight]

/-- An older reading loses weight. -/
theorem weight_succ (alpha : K) {n i : ℕ} (h : i ∈ range (n + 1)) :
    weight alpha (n + 1) i = (1 - alpha) * weight alpha n i := by
  have hi : i ≤ n := Nat.lt_succ_iff.mp (Finset.mem_range.mp h)
  unfold weight
  split
  · rw [pow_succ, mul_comm]
  · rw [Nat.sub_add_comm hi, pow_succ]
    ring

/-- **The weights of all readings sum to one**. -/
theorem sum_weight (alpha : K) (n : ℕ) : ∑ i ∈ range (n + 1), weight alpha n i = 1 := by
  induction n with
  | zero => simp [weight]
  | succ n ih =>
      rw [Finset.range_add_one]
      exact WeightedStats.sum_weight_insert Finset.notMem_range_self (weight_self alpha n)
        (fun i hi => weight_succ alpha hi) ih

/-- No weight is negative when `alpha` is between zero and one. -/
theorem weight_nonneg [LinearOrder K] [IsStrictOrderedRing K] {alpha : K} (h0 : 0 ≤ alpha)
    (h1 : alpha ≤ 1) (n i : ℕ) : 0 ≤ weight alpha n i := by
  have hrest : 0 ≤ 1 - alpha := sub_nonneg.mpr h1
  unfold weight
  split
  · exact pow_nonneg hrest n
  · exact mul_nonneg h0 (pow_nonneg hrest _)

end Weight

section Exact

variable {K : Type} [Field K] [LinearOrder K] [Arithmetic K] [LawfulArithmetic K]

/-- The first reading is the mean, with no variance. -/
theorem update_first {d : EwmaDetector K} (h : d.initialized_ = false) (value : K) :
    (d.update value).mean_ = value ∧ (d.update value).variance_ = 0 := by
  rw [update, h]
  exact ⟨rfl, LawfulArithmetic.zero_eq⟩

/-- **A later reading** moves the mean by `alpha` of its distance and mixes the squared distance
into the variance. -/
theorem update_estimates {d : EwmaDetector K} (h : d.initialized_ = true) (value : K) :
    (d.update value).mean_ = d.mean_ + d.alpha_ * (value - d.mean_) ∧
      (d.update value).variance_ =
        (1 - d.alpha_) * (d.variance_ + d.alpha_ * (value - d.mean_) ^ 2) := by
  rw [update, if_pos h]
  refine ⟨by simp, ?_⟩
  simp only [LawfulArithmetic.mul_eq, LawfulArithmetic.add_eq, LawfulArithmetic.sub_eq,
    LawfulArithmetic.one_eq]
  ring

variable [SquareRoot K]

/-- **The recursion computes the weighted statistics.** The update is the one of a weighted family
that makes room for one more value. -/
theorem feed_estimates (alpha threshold : K) (x : ℕ → K) (n : ℕ) :
    let d := (make alpha threshold).feed ((List.range (n + 1)).map x)
    d.mean_ = WeightedStats.mean (range (n + 1)) (weight alpha n) x ∧
      d.variance_ = WeightedStats.spread (range (n + 1)) (weight alpha n) x d.mean_ := by
  dsimp only
  induction n with
  | zero =>
      -- the first reading is the mean and has all the weight
      obtain ⟨hmean, hvariance⟩ := update_first (d := make alpha threshold) rfl (x 0)
      rw [show (List.range (0 + 1)).map x = [] ++ [x 0] from rfl, feed_concat, feed_nil, hmean,
        hvariance]
      simp [WeightedStats.mean, WeightedStats.spread, weight]
  | succ n ih =>
      -- every old weight shrinks by the same factor, and the new reading gets `alpha`
      have hnew : n + 1 ∉ range (n + 1) := Finset.notMem_range_self
      have hold : ∀ i ∈ range (n + 1), weight alpha (n + 1) i = (1 - alpha) * weight alpha n i :=
        fun i hi => weight_succ alpha hi
      have hinit : ((make alpha threshold).feed ((List.range (n + 1)).map x)).initialized_ = true :=
        initialized_feed _ (by simp)
      have halpha : ((make alpha threshold).feed ((List.range (n + 1)).map x)).alpha_ = alpha :=
        ((make alpha threshold).feed_parameters _).1
      obtain ⟨hmean, hvariance⟩ := update_estimates hinit (x (n + 1))
      rw [halpha, ih.1, ← WeightedStats.mean_insert hnew (weight_self alpha n) hold] at hmean
      rw [halpha, ih.2, ih.1, ← WeightedStats.spread_insert hnew (weight_self alpha n) hold
        (sum_weight alpha n)] at hvariance
      rw [List.range_succ, List.map_append, List.map_singleton, feed_concat, Finset.range_add_one,
        hmean]
      exact ⟨rfl, hvariance⟩

end Exact

/-- **The estimates are the weighted mean and the weighted variance of the readings**, so the
variance is never negative. -/
theorem estimates_weighted [SquareRoot Rat] {alpha : Rat} (threshold : Rat) (h0 : 0 < alpha)
    (h1 : alpha ≤ 1) (x : ℕ → Rat) (n : ℕ) :
    let d := (make alpha threshold).feed ((List.range (n + 1)).map x)
    d.mean_ = ∑ i ∈ range (n + 1), weight alpha n i * x i ∧
      d.variance_ = ∑ i ∈ range (n + 1), weight alpha n i * (x i - d.mean_) ^ 2 ∧
      0 ≤ d.variance_ := by
  obtain ⟨hmean, hvariance⟩ := feed_estimates alpha threshold x n
  refine ⟨hmean, hvariance, ?_⟩
  rw [hvariance]
  exact WeightedStats.spread_nonneg (fun i _ => weight_nonneg h0.le h1 n i) _

-- with the square root of the rational numbers that are squares, and the readings 0 and 2
/-- The weighted sums after two readings. -/
theorem estimates_weighted_two_readings :
    let x : ℕ → Rat := fun i => 2 * i
    let fed := @feed Rat _ (make (1 / 2) 3) ⟨Rat.sqrt⟩ ((List.range 2).map x)
    fed.mean_ = ∑ i ∈ range 2, weight (1 / 2) 1 i * x i ∧
      fed.variance_ = ∑ i ∈ range 2, weight (1 / 2) 1 i * (x i - fed.mean_) ^ 2 ∧
      0 ≤ fed.variance_ :=
  @estimates_weighted ⟨Rat.sqrt⟩ (1 / 2) 3 (by norm_num) (by norm_num) (fun i => 2 * i) 1

/-! ## (3) When the detector votes -/

section Votes

variable {alpha threshold : ℝ}

/-- What is flagged, once the warm-up is over. -/
theorem flagged_of_far {before : List ℝ} {value : ℝ}
    (hinit : ((make alpha threshold).feed before).initialized_ = true)
    (hwarm : (make alpha threshold).warmup_ ≤ UInt64.ofNat before.length)
    (hstddev : 1e-9 < √((make alpha threshold).feed before).variance_)
    (hfar : threshold < |value - ((make alpha threshold).feed before).mean_| /
      √((make alpha threshold).feed before).variance_) :
    (make alpha threshold).flagged before value := by
  obtain ⟨-, hthreshold, hwarmup, hsamples⟩ := (make alpha threshold).feed_parameters before
  have hvotes : ((make alpha threshold).feed before).samples_ ≥
      ((make alpha threshold).feed before).warmup_ := by
    rw [hsamples, hwarmup]
    exact hwarm.trans_eq (UInt64.zero_add _).symm
  -- the three conditions of `observe` hold, so the threshold decides
  rw [flagged, observe]
  dsimp only
  rw [if_pos ⟨hinit, by simpa using hstddev, hvotes⟩, sigma_result, hthreshold]
  simpa [make] using hfar

/-- The estimates stay at zero as long as the readings do. -/
theorem feed_zeros (alpha threshold : ℝ) (n : ℕ) :
    ((make alpha threshold).feed (List.replicate n 0)).mean_ = 0 ∧
      ((make alpha threshold).feed (List.replicate n 0)).variance_ = 0 := by
  induction n with
  | zero => exact ⟨rfl, rfl⟩
  | succ n ih =>
      rw [List.replicate_succ', feed_concat]
      cases hinit : ((make alpha threshold).feed (List.replicate n 0)).initialized_ with
      | false => exact update_first hinit 0
      | true =>
          obtain ⟨hmean, hvariance⟩ := update_estimates hinit 0
          rw [hmean, hvariance, ih.1, ih.2]
          simp

/-- A jump after `n` zeros. -/
theorem feed_jump (alpha threshold : ℝ) {n : ℕ} (hn : n ≠ 0) (jump : ℝ) :
    ((make alpha threshold).feed (List.replicate n 0 ++ [jump])).mean_ = alpha * jump ∧
      ((make alpha threshold).feed (List.replicate n 0 ++ [jump])).variance_ =
        (1 - alpha) * (alpha * jump ^ 2) := by
  have hinit : ((make alpha threshold).feed (List.replicate n 0)).initialized_ = true :=
    initialized_feed _ (by simpa using hn)
  have halpha : ((make alpha threshold).feed (List.replicate n 0)).alpha_ = alpha :=
    ((make alpha threshold).feed_parameters _).1
  obtain ⟨hmean, hvariance⟩ := update_estimates hinit jump
  obtain ⟨hmean0, hvariance0⟩ := feed_zeros alpha threshold n
  rw [feed_concat, hmean, hvariance, hmean0, hvariance0, halpha]
  constructor <;> ring

/-- The constructor bounds the warm-up. -/
theorem warmup_le (alpha : ℝ) : ⌈3 / Max.max alpha 1e-3⌉₊ ≤ 3000 := by
  rw [Nat.ceil_le, div_le_iff₀ (lt_max_of_lt_right (by norm_num))]
  calc (3 : ℝ) = (3000 : ℕ) * 1e-3 := by norm_num
    _ ≤ (3000 : ℕ) * Max.max alpha 1e-3 := by
        gcongr
        exact le_max_right _ _

/-- The warm-up of a detector is three over `alpha`, rounded up, with `alpha` at least `1e-3`. -/
theorem warmup_toNat (alpha threshold : ℝ) :
    (make alpha threshold).warmup_.toNat = ⌈3 / Max.max alpha 1e-3⌉₊ := by
  have hwarmup : (make alpha threshold).warmup_ = UInt64.ofNat ⌈3 / Max.max alpha 1e-3⌉₊ := by
    change UInt64.ofNat ⌈Arithmetic.div (Arithmetic.ofRat 3) (Analytics.max alpha _)⌉₊ = _
    simp [max_eq]
  rw [hwarmup, UInt64.toNat_ofNat_of_lt' ((warmup_le alpha).trans_lt (by decide))]

/-- **A jump after the warm-up is flagged** as soon as it is far enough away from the mean that it
has moved already. -/
theorem flagged_after_jump {n : ℕ} (hn : n ≠ 0) (hn' : n < 3000)
    (hwarm : ⌈3 / Max.max alpha 1e-3⌉₊ ≤ n + 1) {jump value : ℝ}
    (hvariance : 1 < (1 - alpha) * (alpha * jump ^ 2))
    (hfar : threshold < |value - alpha * jump| / √((1 - alpha) * (alpha * jump ^ 2))) :
    (make alpha threshold).flagged (List.replicate n 0 ++ [jump]) value := by
  obtain ⟨hmean, hvar⟩ := feed_jump alpha threshold hn jump
  apply flagged_of_far
  · exact initialized_feed _ (by simp)
  · rw [UInt64.le_iff_toNat_le, warmup_toNat, List.length_append, List.length_replicate,
      List.length_singleton, UInt64.toNat_ofNat_of_lt' (Nat.lt_of_le_of_lt hn' (by decide))]
    exact hwarm
  · rw [hvar]
    have hone : 1 < √((1 - alpha) * (alpha * jump ^ 2)) := Real.lt_sqrt_of_sq_lt (by simpa)
    exact lt_trans (by norm_num) hone
  · rw [hmean, hvar]
    exact hfar

/-- **The detector can fire** as long as the newest reading does not replace the mean altogether. -/
theorem exists_flagged (h0 : 0 < alpha) (h1 : alpha < 1) (threshold : ℝ) :
    ∃ jump value : ℝ, (make alpha threshold).flagged (List.replicate 2999 0 ++ [jump]) value := by
  have hrest : 0 < 1 - alpha := sub_pos.mpr h1
  -- the variance after this jump is larger than its reciprocal weights
  refine ⟨1 / (alpha * (1 - alpha)), _, flagged_after_jump (by decide) (by decide)
    (warmup_le alpha) ?_ (lt_far_value ?_ threshold)⟩
  · rw [show (1 - alpha) * (alpha * (1 / (alpha * (1 - alpha))) ^ 2) = 1 / (alpha * (1 - alpha)) by
      field_simp, one_lt_div (by positivity)]
    nlinarith
  · positivity

/-- With `alpha = 1` the newest reading replaces the mean, and the variance stays zero. -/
theorem variance_of_alpha_one (threshold : ℝ) (history : List ℝ) :
    ((make 1 threshold).feed history).variance_ = 0 := by
  induction history using List.reverseRecOn with
  | nil => rfl
  | append_singleton history value ih =>
      have halpha : ((make 1 threshold).feed history).alpha_ = 1 :=
        ((make 1 threshold).feed_parameters history).1
      rw [feed_concat]
      cases hinit : ((make 1 threshold).feed history).initialized_ with
      | false => exact (update_first hinit value).2
      | true => rw [(update_estimates hinit value).2, halpha, sub_self, zero_mul]

/-- With `alpha` one the variance stays zero and nothing is ever flagged. -/
theorem not_flagged_of_alpha_one (threshold : ℝ) (before : List ℝ) (value : ℝ) :
    ¬ (make 1 threshold).flagged before value := by
  rw [flagged, observe, variance_of_alpha_one]
  dsimp only
  rw [if_neg]
  · simp [no_result]
  · rintro ⟨-, hstddev, -⟩
    -- the guard against a zero deviation is never passed
    rw [sqrt_real, Real.sqrt_zero, LawfulArithmetic.lt_eq, decide_eq_true_eq,
      LawfulArithmetic.ofRat_eq] at hstddev
    norm_num at hstddev

/-- **The documented warm-up** of `⌈3 / alpha⌉` readings holds exactly for the values of `alpha` that
the constructor does not bound. -/
theorem quiet_at_first_iff (h0 : 0 < alpha) (threshold : ℝ) :
    (∀ before value, before.length < ⌈3 / alpha⌉₊ → ¬ (make alpha threshold).flagged before value) ↔
      1e-3 ≤ alpha := by
  constructor
  · intro hquiet
    by_contra hsmall
    -- a small `alpha`: the warm-up is capped, and a jump is flagged too early
    rw [not_le] at hsmall
    obtain ⟨jump, value, hflag⟩ := exists_flagged h0 (hsmall.trans (by norm_num)) threshold
    refine hquiet _ value ?_ hflag
    rw [List.length_append, List.length_replicate, List.length_singleton, Nat.lt_ceil,
      lt_div_iff₀ h0]
    push_cast
    linarith
  · -- a large `alpha`: the two lengths of the warm-up are one
    intro hlarge before value hbefore hflag
    have hwarm := warmup_le_of_flagged _ hflag rfl
    rw [warmup_toNat, max_eq_left hlarge] at hwarm
    exact absurd hbefore hwarm.not_gt

/-- For `alpha = 1/5` the detector is quiet for its first fifteen readings. -/
theorem quiet_at_first_iff_fifth :
    (∀ before value, before.length < ⌈3 / (1 / 5 : ℝ)⌉₊ →
      ¬ (make (1 / 5 : ℝ) 3).flagged before value) ↔ (1e-3 : ℝ) ≤ 1 / 5 :=
  quiet_at_first_iff (by norm_num) 3

/-- With `alpha = 1e-4` the documented warm-up is 30000 readings, and reading 3001 is flagged. -/
theorem flagged_during_warmup :
    let before : List ℝ := List.replicate 2999 0 ++ [1000]
    before.length < ⌈3 / (1e-4 : ℝ)⌉₊ ∧ (make (1e-4 : ℝ) 3).flagged before 1000 := by
  dsimp only
  have hsqrt : √((1 - 1e-4) * (1e-4 * 1000 ^ 2)) ≤ 10 := by
    rw [Real.sqrt_le_left (by norm_num)]
    norm_num
  have hpos : 0 < √((1 - 1e-4) * (1e-4 * 1000 ^ 2)) := Real.sqrt_pos.mpr (by norm_num)
  constructor
  · rw [List.length_append, List.length_replicate, List.length_singleton, Nat.lt_ceil]
    norm_num
  · apply flagged_after_jump (by decide) (by decide) (warmup_le _)
    · norm_num
    · rw [lt_div_iff₀ hpos]
      calc 3 * √((1 - 1e-4) * (1e-4 * 1000 ^ 2)) ≤ 3 * 10 := by gcongr
        _ < |1000 - 1e-4 * 1000| := by rw [abs_of_pos] <;> norm_num

end Votes

end Ironpulse.Analytics.EwmaDetector
