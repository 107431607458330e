import Ironpulse.Analytics.ExactArithmetic
import Mathlib.Algebra.Order.Floor.Ring
import Mathlib.Data.List.DropRight
import Mathlib.Data.Rat.Sqrt

/-! # What the rolling window holds

`ZScoreDetector` (`include/ironpulse/analytics/detector.hpp`). The window is the last readings and
nothing else, so two detectors that have seen the same ones go on alike.

* **`feed`**, **`results`**: the detector over a history of readings, and what it says about more.
* **`window_feed`**: the window is the end of the history.
* **`forgets`**: what was read before a full window no longer matters. -/

namespace Ironpulse.Analytics.ZScoreDetector

/-! ## (1) The window -/

/-- A full window loses its oldest reading. -/
theorem push_rtake {F : Type} {d : ZScoreDetector F} {history : List F}
    (h : d.window_ = history.rtake d.window_size_.toNat) (value : F) :
    d.push value = (history ++ [value]).rtake d.window_size_.toNat := by
  have hwindow : d.window_ ++ [value] =
      (history ++ [value]).drop (history.length - d.window_size_.toNat) := by
    rw [h, List.rtake.eq_1, List.drop_append_of_le_length (Nat.sub_le _ _)]
  unfold push
  dsimp only
  rw [hwindow, List.rtake.eq_1, List.length_drop, List.length_append, List.length_singleton]
  -- beyond the window size the oldest value goes
  split
  · rw [List.tail_drop]
    congr 1
    omega
  · congr 1
    omega

section History

variable {F : Type} [Arithmetic F] [SquareRoot F]

/-- The detector after a history of readings, oldest first. -/
def feed (d : ZScoreDetector F) (history : List F) : ZScoreDetector F :=
  history.foldl (fun d value => (d.observe value).2) d

/-- What the detector says about one reading after the other. -/
def results (d : ZScoreDetector F) : List F → List (AnomalyResult F)
  | [] => []
  | value :: later => (d.observe value).1 :: results (d.observe value).2 later

/-- A reading is flagged after the ones before it. -/
def flagged (d : ZScoreDetector F) (before : List F) (value : F) : Prop :=
  ((d.feed before).observe value).1.is_anomaly = true

/-- The window after one more reading: the reading joins it, and the oldest leaves it when it is
full. -/
theorem feed_concat (d : ZScoreDetector F) (history : List F) (value : F) :
    d.feed (history ++ [value]) = { d.feed history with window_ := (d.feed history).push value } := by
  rw [feed, List.foldl_append]
  rfl

/-- **The window is the end of the history**, and the parameters stay. -/
theorem feed_make (window_size : UInt64) (threshold_sigma : F) (history : List F) :
    (make window_size threshold_sigma).feed history =
      { make window_size threshold_sigma with window_ := history.rtake window_size.toNat } := by
  induction history using List.reverseRecOn with
  | nil =>
      rw [List.rtake_nil]
      rfl
  | append_singleton history value ih =>
      rw [feed_concat, ih]
      rw [push_rtake (d := { make window_size threshold_sigma with
        window_ := history.rtake window_size.toNat }) rfl value]
      rfl

/-- The readings of a full window alone decide the state. -/
theorem feed_append_of_le {window_size : UInt64} {common : List F}
    (h : window_size.toNat ≤ common.length) (threshold_sigma : F) (history : List F) :
    (make window_size threshold_sigma).feed (history ++ common) =
      { make window_size threshold_sigma with window_ := common.rtake window_size.toNat } := by
  rw [feed_make, List.rtake.eq_1, List.rtake.eq_1, List.length_append,
    Nat.add_sub_assoc h, List.drop_append]
  rw [List.drop_eq_nil_of_le (Nat.le_add_right _ _), List.nil_append, Nat.add_sub_cancel_left]

/-- **The detector forgets.** After two histories and the same full window of readings, everything
that follows is judged alike. -/
theorem forgets {window_size : UInt64} {common : List F} (h : window_size.toNat ≤ common.length)
    (threshold_sigma : F) (left right later : List F) :
    ((make window_size threshold_sigma).feed (left ++ common)).results later =
      ((make window_size threshold_sigma).feed (right ++ common)).results later := by
  rw [feed_append_of_le h, feed_append_of_le h]

end History

/-- Two histories that differ before a window of two readings end in the same detector. -/
theorem forgets_two_readings :
    let d : ZScoreDetector Rat := make 2 3
    @results Rat _ ⟨Rat.sqrt⟩ (@feed Rat _ ⟨Rat.sqrt⟩ d ([] ++ [1, 3])) [4, 9] =
      @results Rat _ ⟨Rat.sqrt⟩ (@feed Rat _ ⟨Rat.sqrt⟩ d ([7, 0, 8] ++ [1, 3])) [4, 9] :=
  @forgets Rat _ ⟨Rat.sqrt⟩ 2 [1, 3] (by decide) 3 [] [7, 0, 8] [4, 9]

/-! ## (2) When the detector votes -/

section Sums

variable {K : Type} [Field K] [LinearOrder K] [Arithmetic K] [LawfulArithmetic K]

/-- A loop that adds up is a sum. -/
theorem foldl_add_eq_sum (f : K → K) (values : List K) (start : K) :
    values.foldl (fun sum v => Arithmetic.add sum (f v)) start = start + (values.map f).sum := by
  induction values generalizing start with
  | nil => simp
  | cons v values ih => rw [List.foldl_cons, ih, LawfulArithmetic.add_eq, List.map_cons,
      List.sum_cons, add_assoc]

/-- The mean of the code is the mean of the window. -/
theorem compute_mean_eq (d : ZScoreDetector K) :
    d.compute_mean = d.window_.sum / d.window_.length := by
  have hsum := foldl_add_eq_sum id d.window_ Floating.zero
  simp only [id_eq, LawfulArithmetic.zero_eq, zero_add] at hsum
  simp [compute_mean, hsum]

/-- The deviation of the code is the square root of the mean squared distance. -/
theorem compute_stddev_eq [SquareRoot K] (d : ZScoreDetector K) (mean : K) :
    d.compute_stddev mean =
      SquareRoot.sqrt ((d.window_.map fun v => (v - mean) ^ 2).sum / (d.window_.length : K)) := by
  rw [compute_stddev, foldl_add_eq_sum]
  simp [pow_two]

end Sums

/-- The warm-up is at most a full window. -/
theorem warmup_le_window (window_size : UInt64) (threshold_sigma : ℝ) :
    (make window_size threshold_sigma).warmup_.toNat ≤ window_size.toNat := by
  rw [← UInt64.le_iff_toNat_le]
  change (if window_size ≤ Max.max 5 (window_size / 2) then window_size
    else Max.max 5 (window_size / 2)) ≤ window_size
  split
  · exact UInt64.le_refl _
  · rename_i h
    exact UInt64.le_of_lt (UInt64.not_le.mp h)

/-- A window of zeros that ends with a jump. -/
noncomputable def jump_window (window_size : ℕ) : List ℝ :=
  List.replicate (window_size - 1) 0 ++ [(window_size : ℝ) ^ 2]

/-- The window that jumps at its end has the full length. -/
theorem length_jump_window {n : ℕ} (h : 2 ≤ n) : (jump_window n).length = n := by
  rw [jump_window, List.length_append, List.length_replicate, List.length_singleton]
  omega

/-- The window that jumps at its end has mean `n`. -/
theorem sum_jump_window {n : ℕ} (h : 2 ≤ n) : (jump_window n).sum / n = n := by
  have hpos : (n : ℝ) ≠ 0 := by positivity
  rw [jump_window, List.sum_append, List.sum_replicate, List.sum_singleton, smul_zero, zero_add]
  field_simp

/-- The zeros alone make a large deviation. -/
theorem one_lt_deviation {n : ℕ} (h : 2 ≤ n) :
    (1 : ℝ) < ((jump_window n).map fun v => (v - (n : ℝ)) ^ 2).sum / (n : ℝ) := by
  have hn : (2 : ℝ) ≤ n := by exact_mod_cast h
  rw [jump_window, one_lt_div (by linarith), List.map_append, List.sum_append, List.map_replicate,
    List.sum_replicate, List.map_singleton, List.sum_singleton, nsmul_eq_mul,
    Nat.cast_sub (by omega)]
  calc (n : ℝ) < n ^ 2 := by nlinarith
    _ ≤ (n - 1) * n ^ 2 := le_mul_of_one_le_left (sq_nonneg _) (by linarith)
    _ = (n - (1 : ℕ)) * (0 - n) ^ 2 := by
        rw [Nat.cast_one]
        ring
    _ ≤ (n - (1 : ℕ)) * (0 - n) ^ 2 + (n ^ 2 - n) ^ 2 := le_add_of_nonneg_right (sq_nonneg _)

/-- **The detector can fire**, whatever the window and the threshold. -/
theorem exists_flagged {window_size : UInt64} (h : 2 ≤ window_size.toNat) (threshold_sigma : ℝ) :
    ∃ before value, (make window_size threshold_sigma).flagged before value := by
  set n := window_size.toNat with hn
  have hlength : (jump_window n).length = n := length_jump_window h
  have hwindow : (jump_window n).rtake n = jump_window n := by
    rw [List.rtake.eq_1, hlength, Nat.sub_self, List.drop_zero]
  set variance := ((jump_window n).map fun v => (v - (n : ℝ)) ^ 2).sum / (n : ℝ) with hvariance
  have hlarge : 1 < variance := one_lt_deviation h
  have hone : 1 < √variance := Real.lt_sqrt_of_sq_lt (by simpa using hlarge)
  -- a value that many deviations away from the mean is beyond every threshold
  refine ⟨jump_window n, n + √variance * (|threshold_sigma| + 1), ?_⟩
  have hvotes : n ≥ Max.max 2 (make window_size threshold_sigma).warmup_.toNat :=
    max_le h (warmup_le_window window_size threshold_sigma)
  rw [flagged, feed_make, ← hn, hwindow, observe]
  dsimp only
  rw [compute_mean_eq, compute_stddev_eq]
  dsimp only
  rw [hlength, sum_jump_window h, sqrt_real, ← hvariance, if_pos]
  · have hfar := lt_far_value (m := n) (zero_lt_one.trans hlarge) threshold_sigma
    simpa [sigma_result, make] using hfar
  · refine ⟨hvotes, ?_⟩
    simpa using lt_trans (by norm_num) hone

end Ironpulse.Analytics.ZScoreDetector
