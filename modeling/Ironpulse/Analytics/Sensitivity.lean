import Ironpulse.Analytics.Cusum
import Ironpulse.Analytics.Ewma
import Ironpulse.Analytics.ZScore

/-! # Which configured detectors can fire

`make_detector` (`include/ironpulse/analytics/detector_factory.hpp`) over real numbers, for every
configuration that `parse_detector` accepts.

* **`Detector.feed`**, **`Detector.flagged`**: a configured detector over a history of readings.
* **`can_fire_iff`**: all of them can fire except the moving estimates with `alpha = 1`. -/

namespace Ironpulse.Analytics

open Core (DetectorConfig parse_detector)

/-! ## (1) A configured detector -/

namespace Detector

variable {F : Type} [Arithmetic F] [SquareRoot F]

/-- The detector after a history of readings, oldest first. -/
def feed (d : Detector F) (history : List F) : Detector F :=
  history.foldl (fun d value => (AnomalyDetector.observe d value).2) d

/-- A reading is flagged after the ones before it. -/
def flagged (d : Detector F) (before : List F) (value : F) : Prop :=
  (AnomalyDetector.observe (d.feed before) value).1.is_anomaly = true

/-- A history fed to the sum type reaches the z-score detector inside. -/
theorem feed_zscore (d : ZScoreDetector F) (history : List F) :
    (zscore d).feed history = zscore (d.feed history) := by
  induction history generalizing d with
  | nil => rfl
  | cons value history ih => exact ih (d.observe value).2

/-- A history fed to the sum type reaches the EWMA detector inside. -/
theorem feed_ewma (d : EwmaDetector F) (history : List F) :
    (ewma d).feed history = ewma (d.feed history) := by
  induction history generalizing d with
  | nil => rfl
  | cons value history ih => exact ih (d.observe value).2

/-- A history fed to the sum type reaches the CUSUM detector inside. -/
theorem feed_cusum (d : CusumDetector F) (history : List F) :
    (cusum d).feed history = cusum (d.feed history) := by
  induction history generalizing d with
  | nil => rfl
  | cons value history ih => exact ih (d.observe value).2

/-- The sum type flags what its z-score detector flags. -/
theorem flagged_zscore (d : ZScoreDetector F) (before : List F) (value : F) :
    (zscore d).flagged before value ↔ d.flagged before value := by
  rw [flagged, feed_zscore]
  rfl

/-- The sum type flags what its EWMA detector flags. -/
theorem flagged_ewma (d : EwmaDetector F) (before : List F) (value : F) :
    (ewma d).flagged before value ↔ d.flagged before value := by
  rw [flagged, feed_ewma]
  rfl

/-- The sum type flags what its CUSUM detector flags. -/
theorem flagged_cusum (d : CusumDetector F) (before : List F) (value : F) :
    (cusum d).flagged before value ↔ d.flagged before value := by
  rw [flagged, feed_cusum]
  rfl

end Detector

/-! ## (2) What each type needs -/

/-- A reading is flagged when its score passes the threshold. -/
theorem CusumDetector.is_anomaly_observe {F : Type} [Arithmetic F] (d : CusumDetector F) (value : F) :
    (d.observe value).1.is_anomaly = Floating.lt d.threshold_ (d.observe value).1.score := by
  unfold observe
  dsimp only
  split <;> rfl

/-- The sum above the reference after one reading is at most the score. -/
theorem CusumDetector.excess_le_score (mean stddev slack threshold value : ℝ) :
    (value - mean) / Max.max stddev 1e-9 - slack ≤
      ((make mean stddev slack threshold).observe value).1.score := by
  have hscore : ((make mean stddev slack threshold).observe value).1.score =
      Max.max (Max.max 0 ((value - mean) / Max.max stddev 1e-9 - slack))
        (Max.max 0 (0 - (value - mean) / Max.max stddev 1e-9 - slack)) := by
    unfold observe
    dsimp only
    split <;> simp [make, max_eq]
  rw [hscore]
  exact (le_max_right _ _).trans (le_max_left _ _)

/-- One reading far above the reference exceeds the threshold. -/
theorem CusumDetector.exists_flagged (mean stddev slack threshold : ℝ) :
    ∃ value, (make mean stddev slack threshold).flagged [] value := by
  have hpos : 0 < Max.max stddev 1e-9 := lt_max_of_lt_right (by norm_num)
  refine ⟨mean + Max.max stddev 1e-9 * (slack + threshold + 1), ?_⟩
  have hle := excess_le_score mean stddev slack threshold
    (mean + Max.max stddev 1e-9 * (slack + threshold + 1))
  rw [add_sub_cancel_left, mul_div_cancel_left₀ _ hpos.ne'] at hle
  rw [flagged, feed_nil, is_anomaly_observe, LawfulArithmetic.lt_eq, decide_eq_true_eq]
  exact lt_of_lt_of_le (by simp only [make]; linarith) hle

/-- **The moving estimates can fire** exactly if they keep a part of the past. -/
theorem EwmaDetector.flagged_iff_ne_one {alpha : ℝ} (h0 : 0 < alpha) (h1 : alpha ≤ 1) (threshold : ℝ) :
    (∃ before value, (make alpha threshold).flagged before value) ↔ alpha ≠ 1 := by
  constructor
  · rintro ⟨before, value, hflag⟩ rfl
    exact not_flagged_of_alpha_one threshold before value hflag
  · intro hne
    obtain ⟨jump, value, hflag⟩ := exists_flagged h0 (lt_of_le_of_ne h1 hne) threshold
    exact ⟨_, value, hflag⟩

/-! ## (3) Every accepted configuration -/

/-- The detector of a configuration can flag a reading after some history. -/
def CanFire (cfg : DetectorConfig) : Prop :=
  ∃ detector, make_detector ℝ cfg = .ok detector ∧ ∃ before value, detector.flagged before value

/-- **An accepted detector can fire** unless it is one of moving estimates with `alpha = 1`. -/
theorem can_fire_iff {j : Core.Json} {path : String} {cfg : DetectorConfig}
    (h : parse_detector j path = .ok cfg) :
    CanFire cfg ↔ ¬ (cfg.type = "ewma" ∧ cfg.alpha = 1) := by
  have hvalid := Core.valid_of_parse_detector h
  have hmake : ∀ detector, make_detector ℝ cfg = .ok detector →
      (CanFire cfg ↔ ∃ before value, detector.flagged before value) := by
    intro detector hdetector
    simp [CanFire, hdetector]
  obtain htype | htype | htype := hvalid.type
  · -- a window of at least two readings lets a far value through
    have hcfg := hmake (.zscore (ZScoreDetector.make cfg.window cfg.threshold)) (by
      rw [make_detector, if_pos htype]; rfl)
    obtain ⟨before, value, hflag⟩ :=
      ZScoreDetector.exists_flagged (hvalid.window htype).1 (cfg.threshold : ℝ)
    refine iff_of_true (hcfg.mpr ⟨before, value, (Detector.flagged_zscore ..).mpr hflag⟩) ?_
    simp [htype]
  · have hcfg := hmake (.ewma (EwmaDetector.make cfg.alpha cfg.threshold)) (by
      rw [make_detector, if_neg (by simp [htype]), if_pos htype]; rfl)
    -- with `alpha` one the variance stays zero, so the score does
    obtain ⟨h0, h1⟩ := hvalid.alpha htype
    rw [hcfg]
    simp only [Detector.flagged_ewma, htype, true_and]
    rw [EwmaDetector.flagged_iff_ne_one (by exact_mod_cast h0) (by exact_mod_cast h1)]
    exact_mod_cast Iff.rfl
  · have hcfg := hmake (.cusum (CusumDetector.make cfg.mean cfg.stddev cfg.slack cfg.threshold)) (by
      rw [make_detector, if_neg (by simp [htype]), if_neg (by simp [htype]), if_pos htype]; rfl)
    -- a far enough reading passes the threshold at once
    obtain ⟨value, hflag⟩ := CusumDetector.exists_flagged cfg.mean cfg.stddev cfg.slack cfg.threshold
    refine iff_of_true (hcfg.mpr ⟨[], value, (Detector.flagged_cusum ..).mpr hflag⟩) ?_
    simp [htype]

/-- `{"type": "zscore"}`, with all the defaults. -/
theorem can_fire_iff_zscore :
    CanFire { type := "zscore" } ↔ ¬ (("zscore" : String) = "ewma" ∧ (0.2 : Rat) = 1) :=
  have hparse : parse_detector (.object [("type", .string "zscore")]) "detectors[0]" =
      .ok { type := "zscore" } := by decide +kernel
  can_fire_iff hparse

/-- `{"type": "ewma", "alpha": 1}` is accepted, and its detector never fires. -/
theorem silent_at_alpha_one :
    let j : Core.Json := .object [("type", .string "ewma"), ("alpha", .number_unsigned 1)]
    let cfg : DetectorConfig := { type := "ewma", alpha := 1 }
    parse_detector j "detectors[0]" = .ok cfg ∧ ¬ CanFire cfg := by
  refine ⟨by decide +kernel, ?_⟩
  rintro ⟨detector, hdetector, before, value, hflag⟩
  have hmake : make_detector ℝ { type := "ewma", alpha := 1 } =
      .ok (.ewma (EwmaDetector.make (1 : Rat) (3 : Rat))) := rfl
  rw [hmake] at hdetector
  cases hdetector
  rw [Detector.flagged_ewma, Rat.cast_one] at hflag
  exact EwmaDetector.not_flagged_of_alpha_one _ before value hflag

end Ironpulse.Analytics
