import Ironpulse.Analytics.Detectors
import Ironpulse.Lib.ClippedSum
import Mathlib.Algebra.Order.Ring.Rat

/-! # What the cumulative sums detect

`include/ironpulse/analytics/strategies/cusum.hpp`, in exact arithmetic. The detector carries two sums
and drops both when it flags a reading; read backwards, it looks for a stretch of readings that ends
now, begins after the last flagged one and deviates too much in total.

* **`feed`**, **`flagged`**, **`SinceFlagged`**: the detector over a history of readings.
* **`feed_eq_charted`**: its two sums are the clipped sums of the readings since the last flagged one.
* **`observe_definition`**: what it flags, and the score it returns. -/

namespace Ironpulse.Analytics.CusumDetector

open ClippedSum

/-! ## (1) A history of readings -/

section History

variable {F : Type} [Arithmetic F]

/-- The detector after a history of readings, oldest first. -/
def feed (d : CusumDetector F) (history : List F) : CusumDetector F :=
  history.foldl (fun d value => (d.observe value).2) d

/-- A reading is flagged after the ones before it. -/
def flagged (d : CusumDetector F) (before : List F) (value : F) : Prop :=
  ((d.feed before).observe value).1.is_anomaly = true

instance (d : CusumDetector F) (before : List F) (value : F) : Decidable (d.flagged before value) :=
  inferInstanceAs (Decidable (_ = true))

/-- The readings of a history since the last flagged one, or since the start if none is flagged. -/
def SinceFlagged (d : CusumDetector F) (history since : List F) : Prop :=
  ∃ old, history = old ++ since ∧
    (old = [] ∨ ∃ before value, old = before ++ [value] ∧ d.flagged before value) ∧
    ∀ between value later, since = between ++ value :: later → ¬ d.flagged (old ++ between) value

/-- Feeding nothing leaves the detector as it is. -/
@[simp] theorem feed_nil (d : CusumDetector F) : d.feed [] = d := rfl

/-- The last reading of a history is observed by what the readings before it have left. -/
theorem feed_concat (d : CusumDetector F) (history : List F) (value : F) :
    d.feed (history ++ [value]) = ((d.feed history).observe value).2 := by
  rw [feed, List.foldl_append]
  rfl

/-- Before the first reading nothing has happened since the last flag. -/
theorem sinceFlagged_nil {d : CusumDetector F} {since : List F} :
    d.SinceFlagged [] since ↔ since = [] := by
  constructor
  · rintro ⟨old, hsplit, -⟩
    exact (List.append_eq_nil_iff.mp hsplit.symm).2
  · rintro rfl
    refine ⟨[], rfl, .inl rfl, ?_⟩
    intro between value later h
    simp at h

/-- **One more reading** empties the stretch if it is flagged, and extends it otherwise. -/
theorem sinceFlagged_concat {d : CusumDetector F} {history since : List F} {value : F} :
    d.SinceFlagged (history ++ [value]) since ↔
      (d.flagged history value ∧ since = []) ∨
        (¬ d.flagged history value ∧ ∃ front, d.SinceFlagged history front ∧
          since = front ++ [value]) := by
  constructor
  · rintro ⟨old, hsplit, hold, hnone⟩
    rcases List.eq_nil_or_concat since with rfl | ⟨front, last, rfl⟩
    · -- the stretch is empty, so the history ends with the flagged reading
      rw [List.append_nil] at hsplit
      rcases hold with rfl | ⟨before, flag, rfl, hflag⟩
      · simp at hsplit
      · obtain ⟨rfl, hvalue⟩ := List.append_inj' hsplit rfl
        cases hvalue
        exact .inl ⟨hflag, rfl⟩
    · rw [List.concat_eq_append, ← List.append_assoc] at hsplit
      obtain ⟨rfl, hvalue⟩ := List.append_inj' hsplit rfl
      cases hvalue
      -- the last reading is not flagged, because it belongs to the stretch
      refine .inr ⟨hnone front value [] (by rw [List.concat_eq_append]), front,
        ⟨old, rfl, hold, ?_⟩, by rw [List.concat_eq_append]⟩
      rintro between other later rfl
      exact hnone between other (later ++ [value]) (by simp)
  · rintro (⟨hflag, rfl⟩ | ⟨hflag, front, ⟨old, rfl, hold, hnone⟩, rfl⟩)
    · refine ⟨history ++ [value], (List.append_nil _).symm, .inr ⟨history, value, rfl, hflag⟩, ?_⟩
      intro between other later h
      simp at h
    · refine ⟨old, List.append_assoc _ _ _, hold, ?_⟩
      intro between other later h
      -- the reading is the new one, or an earlier one of the stretch
      rcases List.eq_nil_or_concat later with rfl | ⟨later, last, rfl⟩
      · obtain ⟨rfl, hvalue⟩ := List.append_inj' h rfl
        cases hvalue
        exact hflag
      · rw [List.concat_eq_append, ← List.cons_append, ← List.append_assoc] at h
        exact hnone between other later (List.append_inj' h rfl).1

/-- A history has exactly one such stretch. -/
theorem existsUnique_sinceFlagged (d : CusumDetector F) (history : List F) :
    ∃! since, d.SinceFlagged history since := by
  induction history using List.reverseRecOn with
  | nil => exact ⟨[], sinceFlagged_nil.mpr rfl, fun since h => sinceFlagged_nil.mp h⟩
  | append_singleton history value ih =>
      obtain ⟨front, hfront, hunique⟩ := ih
      -- a flag empties the stretch
      by_cases hflag : d.flagged history value
      · refine ⟨[], sinceFlagged_concat.mpr (.inl ⟨hflag, rfl⟩), fun since h => ?_⟩
        rcases sinceFlagged_concat.mp h with ⟨-, rfl⟩ | ⟨hnot, -⟩
        · rfl
        · exact absurd hflag hnot
      · -- otherwise the value is the last one of the stretch so far
        refine ⟨front ++ [value], sinceFlagged_concat.mpr (.inr ⟨hflag, front, hfront, rfl⟩),
          fun since h => ?_⟩
        rcases sinceFlagged_concat.mp h with ⟨hyes, -⟩ | ⟨-, other, hother, rfl⟩
        · exact absurd hyes hflag
        · rw [hunique other hother]

end History

/-! ## (2) The two sums -/

/-- Over the rationals `max` of the code is the maximum. -/
theorem max_rat (a b : Rat) : Analytics.max a b = Max.max a b := by
  change (if decide (a < b) = true then b else a) = Max.max a b
  rw [max_def_lt]
  simp only [decide_eq_true_eq]

section Exact

variable (d : CusumDetector Rat)

/-- The deviation of a reading from the reference, in standard deviations. -/
def standardized (value : Rat) : Rat := (value - d.mean_) / d.stddev_

/-- What a reading adds to the sum of the readings above the reference. -/
def excess (value : Rat) : Rat := d.standardized value - d.slack_

/-- What a reading adds to the sum of the readings below it. -/
def deficit (value : Rat) : Rat := -d.standardized value - d.slack_

/-- The detector with the sums of a stretch of readings. -/
def charted (since : List Rat) : CusumDetector Rat :=
  { d with
    cumulative_high_ := clippedSum d.excess since
    cumulative_low_ := clippedSum d.deficit since }

/-- The larger of the two sums of a stretch. -/
def drive (since : List Rat) : Rat :=
  Max.max (clippedSum d.excess since) (clippedSum d.deficit since)

/-- **One step of the high sum**: the clipped sum of the excesses takes the new one in. -/
theorem high_step (since : List Rat) (value : Rat) :
    Analytics.max 0 ((d.charted since).cumulative_high_ + d.standardized value - d.slack_) =
      clippedSum d.excess (since ++ [value]) := by
  rw [max_rat, clippedSum_concat, excess, ← add_sub_assoc]
  rfl

/-- **One step of the low sum**, with the deficits in place of the excesses. -/
theorem low_step (since : List Rat) (value : Rat) :
    Analytics.max 0 ((d.charted since).cumulative_low_ - d.standardized value - d.slack_) =
      clippedSum d.deficit (since ++ [value]) := by
  rw [max_rat, clippedSum_concat, deficit, ← add_sub_assoc, ← sub_eq_add_neg]
  rfl

/-- The score of a reading is the larger sum of the stretch that it ends. -/
theorem score_charted (since : List Rat) (value : Rat) :
    ((d.charted since).observe value).1.score = d.drive (since ++ [value]) := by
  rw [drive, ← high_step, ← low_step, ← max_rat]
  unfold observe
  dsimp only
  split <;> rfl

/-- A reading is flagged when the larger of the two sums passes the threshold. -/
theorem is_anomaly_charted (since : List Rat) (value : Rat) :
    ((d.charted since).observe value).1.is_anomaly = true ↔
      d.threshold_ < d.drive (since ++ [value]) := by
  rw [← score_charted]
  unfold observe
  dsimp only
  split
  all_goals exact decide_eq_true_iff

/-- **A flagged reading empties the stretch.** -/
theorem observe_charted_flagged {since : List Rat} {value : Rat}
    (hflag : ((d.charted since).observe value).1.is_anomaly = true) :
    ((d.charted since).observe value).2 = d.charted [] := by
  unfold observe at hflag ⊢
  dsimp only at hflag ⊢
  split
  · rfl
  · rename_i hnot
    rw [if_neg hnot] at hflag
    exact absurd hflag hnot

/-- **Another reading joins the stretch.** -/
theorem observe_charted_unflagged {since : List Rat} {value : Rat}
    (hflag : ¬ ((d.charted since).observe value).1.is_anomaly = true) :
    ((d.charted since).observe value).2 = d.charted (since ++ [value]) := by
  conv_rhs => rw [charted, ← high_step, ← low_step]
  unfold observe at hflag ⊢
  dsimp only at hflag ⊢
  split
  · rename_i hyes
    rw [if_pos hyes] at hflag
    exact absurd hyes hflag
  · rfl

/-- **The detector carries the sums of the readings since the last flagged one**, whatever was
flagged before. -/
theorem feed_eq_charted {history since : List Rat}
    (hsince : (d.charted []).SinceFlagged history since) :
    (d.charted []).feed history = d.charted since := by
  induction history using List.reverseRecOn generalizing since with
  | nil => rw [sinceFlagged_nil.mp hsince, feed_nil]
  | append_singleton history value ih =>
      rw [feed_concat]
      rcases sinceFlagged_concat.mp hsince with ⟨hflag, rfl⟩ | ⟨hflag, front, hfront, rfl⟩
      · -- the sums of the stretch before the flagged reading no longer matter
        obtain ⟨front, hfront, -⟩ := existsUnique_sinceFlagged (d.charted []) history
        rw [flagged, ih hfront] at hflag
        rw [ih hfront, observe_charted_flagged d hflag]
      · rw [flagged, ih hfront] at hflag
        rw [ih hfront, observe_charted_unflagged d hflag]

/-- The larger sum of a stretch is the greatest sum over its suffixes, in either direction. -/
theorem isGreatest_drive (since : List Rat) :
    IsGreatest (suffixSums d.excess since ∪ suffixSums d.deficit since) (d.drive since) :=
  (isGreatest_clippedSum d.excess since).union (isGreatest_clippedSum d.deficit since)

end Exact

/-! ## (3) The definition -/

/-- The standard deviation of the configuration, where it is not below the smallest one allowed. -/
theorem make_eq_charted {stddev : Rat} (hstddev : 1e-9 ≤ stddev) (mean slack threshold : Rat) :
    make mean stddev slack threshold =
      charted ⟨mean, stddev, slack, threshold, 0, 0⟩ [] := by
  have hmax : Analytics.max stddev (Arithmetic.ofRat 1e-9) = stddev := by
    rw [max_rat]
    exact max_eq_left hstddev
  rw [make, hmax]
  rfl

/-- The sums of a stretch of readings that ends with the current one: in either direction, what the
readings deviate beyond the slack. -/
def stretchSums (mean stddev slack : Rat) (readings : List Rat) : Set Rat :=
  {v | ∃ suffix, suffix ≠ [] ∧ suffix <:+ readings ∧
    (v = (suffix.map fun x => (x - mean) / stddev - slack).sum ∨
      v = (suffix.map fun x => -((x - mean) / stddev) - slack).sum)}

/-- Only the empty suffix is no stretch, and its sum is zero. -/
theorem suffixSums_union_eq (mean stddev slack threshold : Rat) (readings : List Rat) :
    suffixSums (excess ⟨mean, stddev, slack, threshold, 0, 0⟩) readings ∪
        suffixSums (deficit ⟨mean, stddev, slack, threshold, 0, 0⟩) readings =
      {0} ∪ stretchSums mean stddev slack readings := by
  ext v
  constructor
  · rintro (⟨suffix, hsuffix, rfl⟩ | ⟨suffix, hsuffix, rfl⟩)
    all_goals rcases eq_or_ne suffix [] with rfl | hne
    · exact .inl rfl
    · exact .inr ⟨suffix, hne, hsuffix, .inl rfl⟩
    · exact .inl rfl
    · exact .inr ⟨suffix, hne, hsuffix, .inr rfl⟩
  · rintro (rfl | ⟨suffix, -, hsuffix, rfl | rfl⟩)
    · exact .inl ⟨[], List.nil_suffix, rfl⟩
    · exact .inl ⟨suffix, hsuffix, rfl⟩
    · exact .inr ⟨suffix, hsuffix, rfl⟩

/-- **The recursion computes its definition.** The stretch since the last flagged reading is unique;
the current reading is flagged exactly if some part of the stretch that ends with it deviates by more
than the threshold in total, and the score is the greatest of these sums and zero. -/
theorem observe_definition (mean stddev slack threshold : Rat) (hstddev : 1e-9 ≤ stddev)
    (hthreshold : 0 < threshold) (history : List Rat) (value : Rat) :
    (∃! since, (make mean stddev slack threshold).SinceFlagged history since) ∧
      ∀ since, (make mean stddev slack threshold).SinceFlagged history since →
        let result := (((make mean stddev slack threshold).feed history).observe value).1
        (result.is_anomaly = true ↔
            ∃ v ∈ stretchSums mean stddev slack (since ++ [value]), threshold < v) ∧
          IsGreatest ({0} ∪ stretchSums mean stddev slack (since ++ [value])) result.score := by
  refine ⟨existsUnique_sinceFlagged _ history, fun since hsince => ?_⟩
  rw [make_eq_charted hstddev] at hsince ⊢
  rw [feed_eq_charted _ hsince]
  have hgreatest := isGreatest_drive ⟨mean, stddev, slack, threshold, 0, 0⟩ (since ++ [value])
  rw [suffixSums_union_eq] at hgreatest
  constructor
  · rw [is_anomaly_charted]
    change threshold < _ ↔ _
    rw [lt_isLUB_iff hgreatest.isLUB]
    constructor
    · rintro ⟨v, rfl | hv, hlt⟩
      · -- zero, the sum of no readings, is below the threshold
        exact absurd hlt hthreshold.not_gt
      · exact ⟨v, hv, hlt⟩
    · rintro ⟨v, hv, hlt⟩
      exact ⟨v, .inr hv, hlt⟩
  · rw [score_charted]
    exact hgreatest

/-- The second of four equal readings is flagged, and the fourth again with the sum of the last two. -/
theorem observe_definition_four :
    (make (10 : Rat) 2 0.5 4).SinceFlagged [16, 16, 16] [16] ∧
      (∃ v ∈ stretchSums 10 2 0.5 [16, 16], 4 < v) ∧
      IsGreatest ({0} ∪ stretchSums 10 2 0.5 [16, 16]) 5 := by
  have hsince : (make (10 : Rat) 2 0.5 4).SinceFlagged [16, 16, 16] [16] := by
    have hflag : (make (10 : Rat) 2 0.5 4).flagged [16] 16 := by decide +kernel
    have hnot : ¬ (make (10 : Rat) 2 0.5 4).flagged [16, 16] 16 := by decide +kernel
    exact sinceFlagged_concat.mpr
      (.inr ⟨hnot, [], sinceFlagged_concat.mpr (.inl ⟨hflag, rfl⟩), rfl⟩)
  obtain ⟨-, h⟩ := observe_definition 10 2 0.5 4 (by decide +kernel) (by decide) [16, 16, 16] 16
  obtain ⟨hflag, hscore⟩ := h [16] hsince
  have hfive : (((make (10 : Rat) 2 0.5 4).feed [16, 16, 16]).observe 16).1.score = 5 := by
    decide +kernel
  rw [hfive] at hscore
  exact ⟨hsince, hflag.mp (by decide +kernel), hscore⟩

end Ironpulse.Analytics.CusumDetector
