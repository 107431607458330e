import Ironpulse.Ingest.Calendar
import Ironpulse.Lib.FixedWidth
import Mathlib.Algebra.Group.Int.Defs

/-! # The order of segment names

The comment on `segment_stem` (`src/ingest/segment.cpp`) promises names that sort chronologically.
The fields of a calendar time have fixed widths as long as the year has four digits, so the names
are ordered as the fields are, before the running number is reached.

* **`printable_gmtime`**, **`stamp_lt`**: the time stamps up to the end of the year 9999.
* **`segment_stem_lt`**: a later segment has a later name. -/

namespace Ironpulse.Ingest

/-! ## (1) The time stamps -/

section Names

variable {x y : List Char}

/-- The fields have the widths that the name gives them. -/
structure Tm.Printable (utc : Tm) : Prop where
  year : 0 ≤ utc.year ∧ utc.year < 10 ^ 4
  month : 0 ≤ utc.month ∧ utc.month < 10 ^ 2
  day : 0 ≤ utc.day ∧ utc.day < 10 ^ 2
  hour : 0 ≤ utc.hour ∧ utc.hour < 10 ^ 2
  minute : 0 ≤ utc.minute ∧ utc.minute < 10 ^ 2
  second : 0 ≤ utc.second ∧ utc.second < 10 ^ 2

/-- **The fields fit up to the end of the year 9999**, whose last second is the bound. -/
theorem printable_gmtime {s : Int} (hnonneg : 0 ≤ s) (hle : s ≤ 253402300799) :
    (gmtime s).Printable := by
  have hfirst : (gmtime 0).year = 1970 := by decide
  have hlast : (gmtime 253402300799).year = 9999 := by decide
  -- the year of a second grows with its day, so the two ends bound it
  have hyear : (gmtime 0).year ≤ (gmtime s).year ∧
      (gmtime s).year ≤ (gmtime 253402300799).year := by
    constructor
    · obtain hday | hday : 0 / 86400 < s / 86400 ∨ 0 / 86400 = s / 86400 := by omega
      · have hlt := gmtime_date_lt hday
        omega
      · exact Int.le_of_eq (gmtime_date_eq hday).1
    · obtain hday | hday : s / 86400 < 253402300799 / 86400 ∨ s / 86400 = 253402300799 / 86400 := by
        omega
      · have hlt := gmtime_date_lt hday
        omega
      · exact Int.le_of_eq (gmtime_date_eq hday).1
  obtain ⟨hmonth, hday⟩ := gmtime_month_day_bounds s
  refine ⟨by omega, by omega, by omega, ?_, ?_, ?_⟩
  · rw [gmtime_hour]
    omega
  · rw [gmtime_minute]
    omega
  · rw [gmtime_second]
    omega

/-- The first padded number that differs decides. -/
theorem zero_padded_int_lt {width : Nat} {m n : Int} (hwidth : 0 < width)
    (hm : 0 ≤ m ∧ m < 10 ^ width) (hn : 0 ≤ n ∧ n < 10 ^ width) (h : m < n ∨ m = n ∧ x < y) :
    zero_padded_int width m ++ x < zero_padded_int width n ++ y := by
  obtain ⟨a, rfl⟩ := Int.eq_ofNat_of_zero_le hm.1
  obtain ⟨b, rfl⟩ := Int.eq_ofNat_of_zero_le hn.1
  rw [zero_padded_int, zero_padded_int, if_neg (Int.not_lt.mpr hm.1), if_neg (Int.not_lt.mpr hn.1),
    Int.natAbs_natCast, Int.natAbs_natCast]
  refine FixedWidth.field_lt hwidth (by exact_mod_cast hm.2) (by exact_mod_cast hn.2) ?_
  exact h.imp Int.ofNat_lt.mp fun heq => ⟨Int.ofNat.inj heq.1, heq.2⟩

/-- **The time stamps are in the order of their fields**, whatever is behind them. -/
theorem stamp_lt {u v : Tm} (hu : u.Printable) (hv : v.Printable) (h : u.fields < v.fields) :
    stamp u ++ x < stamp v ++ y := by
  simp only [Tm.fields, List.cons_lt_cons_iff] at h
  simp only [stamp, List.append_assoc, List.cons_append]
  refine zero_padded_int_lt (by decide) hu.year hv.year (h.imp_right fun h => ⟨h.1, ?_⟩)
  refine zero_padded_int_lt (by decide) hu.month hv.month (h.2.imp_right fun h => ⟨h.1, ?_⟩)
  refine zero_padded_int_lt (by decide) hu.day hv.day (h.2.imp_right fun h => ⟨h.1, ?_⟩)
  refine List.cons_lt_cons_self.mpr ?_
  refine zero_padded_int_lt (by decide) hu.hour hv.hour (h.2.imp_right fun h => ⟨h.1, ?_⟩)
  refine zero_padded_int_lt (by decide) hu.minute hv.minute (h.2.imp_right fun h => ⟨h.1, ?_⟩)
  exact zero_padded_int_lt (by decide) hu.second hv.second
    (h.2.imp_right fun h => absurd h.2 List.not_lex_nil)

/-- The characters of a name. -/
theorem toList_segment_stem {created_ms : Int64} (h : 0 ≤ created_ms.toInt) (sequence : Nat) :
    (segment_stem created_ms sequence).toList =
      "telemetry-".toList ++ (stamp (gmtime (created_ms.toInt / 1000)) ++
        '-' :: (zero_padded_int 3 (created_ms.toInt % 1000) ++
          ("Z-".toList ++ zero_padded 6 sequence))) := by
  have hthousand : (1000 : Int64).toInt = 1000 := rfl
  have hdiv : (created_ms / 1000).toInt = created_ms.toInt / 1000 := by
    rw [Int64.toInt_div_of_ne_right _ _ (by decide), hthousand, Int.tdiv_eq_ediv_of_nonneg h]
  have hmod : (created_ms % 1000).toInt = created_ms.toInt % 1000 := by
    rw [Int64.toInt_mod, hthousand, Int.tmod_eq_emod_of_nonneg h]
  rw [segment_stem, hdiv, hmod]
  simp only [String.toList_append, String.toList_ofList, List.append_assoc, List.cons_append]

/-- Of two segments the later one has the larger characters, whatever is behind the names. -/
theorem toList_segment_stem_lt {c d : Int64} (hnonneg : 0 ≤ c.toInt) (hlt : c < d)
    (hmax : d.toInt ≤ 253402300799999) (m n : Nat) (x y : List Char) :
    (segment_stem c m).toList ++ x < (segment_stem d n).toList ++ y := by
  have hlt' := Int64.lt_iff_toInt_lt.mp hlt
  rw [toList_segment_stem hnonneg, toList_segment_stem (by omega)]
  simp only [List.append_assoc, List.cons_append]
  apply List.append_left_lt
  obtain hsecond | hsecond :
      c.toInt / 1000 < d.toInt / 1000 ∨ c.toInt / 1000 = d.toInt / 1000 := by omega
  · exact stamp_lt (printable_gmtime (by omega) (by omega)) (printable_gmtime (by omega) (by omega))
      (gmtime_lt hsecond)
  · -- Within one second the stamps agree and the milliseconds decide.
    rw [hsecond]
    apply List.append_left_lt
    rw [List.cons_lt_cons_self]
    exact zero_padded_int_lt (by decide) (by omega) (by omega) (.inl (by omega))

/-- **Segment names sort by creation time.** Of two segments created at different milliseconds from
1970 to the end of the year 9999 the earlier one has the smaller name, whatever their running
numbers; the same holds of the names with the extension. -/
theorem segment_stem_lt (c d : Int64) (hnonneg : 0 ≤ c.toInt) (hlt : c < d)
    (hmax : d.toInt ≤ 253402300799999) (m n : Nat) :
    segment_stem c m < segment_stem d n ∧ final_name c m < final_name d n := by
  constructor
  · have h := toList_segment_stem_lt hnonneg hlt hmax m n [] []
    rw [List.append_nil, List.append_nil] at h
    exact String.lt_iff.mpr h
  · have h := toList_segment_stem_lt hnonneg hlt hmax m n kSegmentExtension.toList
      kSegmentExtension.toList
    rw [← String.toList_append, ← String.toList_append] at h
    exact String.lt_iff.mpr h

/-- The last millisecond before the leap day of 2000 and the first one of it, where the first writer
had reached a running number of seven digits and the second one starts anew. -/
theorem segment_stem_lt_leap_day :
    segment_stem 951782399999 1000000 < segment_stem 951782400000 1 ∧
      final_name 951782399999 1000000 < final_name 951782400000 1 :=
  segment_stem_lt 951782399999 951782400000 (by decide) (by decide) (by decide) 1000000 1

end Names

end Ironpulse.Ingest
