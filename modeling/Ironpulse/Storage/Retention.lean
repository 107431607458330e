import Ironpulse.Core.ConfigRanges
import Ironpulse.Storage.Pruning

/-! # Retention of the write-ahead log

`main` prunes the log with the loaded retention period (`src/main.cpp`): the hours become
milliseconds at the call and nanoseconds when they are subtracted from the clock, each time in a
signed 64-bit count.

* **`read_all_prune_older_than`**: what a successful pruning leaves of a sensor's records.
* **`KeepsRetained`**: nothing inside the retention period is dropped and nothing wraps.
* **`keepsRetained_iff`**: when it holds of a loaded configuration. -/

namespace Ironpulse.Storage

open ByteCodec Core

/-! ## (1) What pruning leaves -/

namespace WalWriter

/-- **What a successful pruning leaves**: of every log file the records from the cutoff on, those
that were still buffered included. -/
theorem read_all_prune_older_than (w : WalWriter) (now : TimePoint) (max_age : Milliseconds)
    {name : String} (hname : extension name = ".wal") :
    read_all (w.prune_older_than {} now max_age).1.files name =
      (read_all (w.flush_all Io.success).files name).filter
        (·.timestamp_ms ≥ cutoff_ms now max_age) := by
  rw [read_all_prune_older_than_under w {} now max_age (ne_tmp_of_extension hname), pruned_success]
  split
  · rfl
  · -- there is no such file
    rename_i hmem
    have hkeys : name ∉ (w.flush_all Io.success).files.keys := fun h =>
      hmem (List.mem_filter.mpr ⟨h, decide_eq_true hname⟩)
    have hnone : read_all (w.flush_all Io.success).files name = [] := by
      rw [read_all, Files.content_of_not_mem hkeys]
      rfl
    exact hnone.trans (by rw [hnone, List.filter_nil])

end WalWriter

open WalWriter

/-! ## (2) The retention period -/

/-- The age that `main` passes to `prune_older_than`: `std::chrono::hours` of the configured number,
converted to milliseconds at the call. -/
def retention_age (retention_hours : UInt32) : Milliseconds :=
  hours_to_milliseconds (Int64.ofNat retention_hours.toNat)

/-- A record inside the retention period, in exact integers. -/
def Retained (retention_hours : UInt32) (now : TimePoint) (record : WalRecord) : Prop :=
  now.toInt / 1000000 - retention_hours.toNat * 3600000 ≤ record.timestamp_ms.toInt

instance (retention_hours : UInt32) (now : TimePoint) :
    DecidablePred (Retained retention_hours now) :=
  fun record => inferInstanceAs
    (Decidable (now.toInt / 1000000 - retention_hours.toNat * 3600000 ≤ record.timestamp_ms.toInt))

/-- **Retention never deletes a record inside the retention period**: no conversion or subtraction
on the way to the cutoff wraps, and pruning any writer's directory keeps, in every log file, every
record inside the period, in order. -/
structure KeepsRetained (retention_hours : UInt32) (now : TimePoint) : Prop where
  hours_fit : (retention_age retention_hours).toInt = retention_hours.toNat * 3600000
  age_fits : (milliseconds_to_nanoseconds (retention_age retention_hours)).toInt =
    (retention_age retention_hours).toInt * 1000000
  cutoff_fits : (now - milliseconds_to_nanoseconds (retention_age retention_hours)).toInt =
    now.toInt - (milliseconds_to_nanoseconds (retention_age retention_hours)).toInt
  keeps : ∀ (w : WalWriter) (name : String), extension name = ".wal" →
    (read_all (w.prune_older_than {} now (retention_age retention_hours)).1.files name).filter
        (Retained retention_hours now) =
      (read_all (w.flush_all Io.success).files name).filter (Retained retention_hours now)

variable {hours : UInt32} {now : TimePoint}

/-- Hours never wrap as milliseconds. -/
theorem toInt_retention_age (hours : UInt32) :
    (retention_age hours).toInt = hours.toNat * 3600000 := by
  have hlt := UInt32.toNat_lt hours
  have hcast : (Int64.ofNat hours.toNat).toInt = hours.toNat := Int64.toInt_ofNat_of_lt (by omega)
  have hfactor : (3600000 : Int64).toInt = 3600000 := by decide
  rw [retention_age, hours_to_milliseconds, toInt_mul_of_fits, hcast, hfactor]
  · rw [hcast, hfactor]
    omega
  · rw [hcast, hfactor]
    omega

/-- **The age fits in nanoseconds up to 2562047 hours**, about 292 years. -/
theorem age_fits_iff (hours : UInt32) :
    (milliseconds_to_nanoseconds (retention_age hours)).toInt =
        (retention_age hours).toInt * 1000000 ↔ hours.toNat ≤ 2562047 := by
  have hfactor : (1000000 : Int64).toInt = 1000000 := by decide
  have hage := toInt_retention_age hours
  constructor
  · -- a wrapped product is out of the range of `Int64`, where the exact one is not
    intro h
    have hlt := Int64.toInt_lt (milliseconds_to_nanoseconds (retention_age hours))
    omega
  · intro h
    rw [milliseconds_to_nanoseconds, toInt_mul_of_fits, hfactor]
    · rw [hfactor]
      omega
    · rw [hfactor]
      omega

/-- The cutoff of a period that fits: the difference in nanoseconds, truncated toward zero. -/
theorem toInt_cutoff_ms (hhours : hours.toNat ≤ 2562047) (hnow : 0 ≤ now.toInt) :
    (cutoff_ms now (retention_age hours)).toInt =
      (now.toInt - hours.toNat * 3600000 * 1000000).tdiv 1000000 := by
  have hage := (age_fits_iff hours).mpr hhours
  have hms := toInt_retention_age hours
  have hlt := Int64.toInt_lt now
  rw [cutoff_ms, toInt_duration_cast_milliseconds, toInt_sub_of_fits, hage, hms]
  · rw [hage, hms]
    omega
  · rw [hage, hms]
    omega

/-- A cutoff at or after 1970 is the exact one; before 1970 truncation moves it up to the next
millisecond unless the clock reads a whole one. -/
theorem cutoff_exact_iff (hhours : hours.toNat ≤ 2562047) (hnow : 0 ≤ now.toInt) :
    (cutoff_ms now (retention_age hours)).toInt ≤
        now.toInt / 1000000 - hours.toNat * 3600000 ↔
      now.toInt % 1000000 = 0 ∨ (hours.toNat * 3600000 * 1000000 : Int) ≤ now.toInt := by
  rw [toInt_cutoff_ms hhours hnow]
  by_cases hle : (hours.toNat * 3600000 * 1000000 : Int) ≤ now.toInt
  · rw [Int.tdiv_eq_ediv_of_nonneg (by omega)]
    omega
  · have hneg : (now.toInt - hours.toNat * 3600000 * 1000000).tdiv 1000000 =
        -((hours.toNat * 3600000 * 1000000 - now.toInt) / 1000000) := by
      rw [← Int.neg_sub, Int.neg_tdiv, Int.tdiv_eq_ediv_of_nonneg (by omega)]
    rw [hneg]
    omega

/-- A cutoff that is not above the exact one keeps every record inside the period. -/
theorem keeps_of_cutoff_le (h : (cutoff_ms now (retention_age hours)).toInt ≤
      now.toInt / 1000000 - hours.toNat * 3600000) (w : WalWriter) {name : String}
    (hname : extension name = ".wal") :
    (read_all (w.prune_older_than {} now (retention_age hours)).1.files name).filter
        (Retained hours now) =
      (read_all (w.flush_all Io.success).files name).filter (Retained hours now) := by
  rw [read_all_prune_older_than w now _ hname, List.filter_filter]
  apply List.filter_congr
  intro record _
  have hkept : Retained hours now record →
      record.timestamp_ms ≥ cutoff_ms now (retention_age hours) := by
    -- a record that must be kept is not older than the cutoff
    intro hretained
    exact Int64.le_iff_toInt_le.mpr (h.trans hretained)
  by_cases hretained : Retained hours now record
  · simp [hretained, hkept hretained]
  · simp [hretained]

/-- The directory of a writer that holds one record. -/
def oneRecord (record : WalRecord) : WalWriter :=
  { files := AList.insert "sensor.wal" (walRecord.encodeAll [record]) ∅ }

/-- A record that was appended and flushed is read back. -/
theorem read_all_oneRecord (record : WalRecord) :
    read_all ((oneRecord record).flush_all Io.success).files "sensor.wal" = [record] := by
  have hflush : ((oneRecord record).flush_all Io.success).files =
      AList.insert "sensor.wal" (walRecord.encodeAll [record]) ∅ := rfl
  rw [read_all, hflush, Files.content_insert, walRecord.decodeAll_encodeAll]

/-- **A record inside the period must not lie before the cutoff**: one that does is deleted. -/
theorem cutoff_le_of_keeps (h : KeepsRetained hours now) {record : WalRecord}
    (hretained : Retained hours now record) :
    cutoff_ms now (retention_age hours) ≤ record.timestamp_ms := by
  have hkeeps := h.keeps (oneRecord record) "sensor.wal" (by decide)
  rw [read_all_prune_older_than _ _ _ (by decide), read_all_oneRecord] at hkeeps
  by_contra hlt
  have hdropped : [record].filter (·.timestamp_ms ≥ cutoff_ms now (retention_age hours)) = [] := by
    rw [List.filter_singleton, decide_eq_false hlt]
    rfl
  rw [hdropped, List.filter_nil, List.filter_singleton, decide_eq_true hretained] at hkeeps
  cases hkeeps

/-- **When retention keeps what it promises**: the period fits in 64-bit nanoseconds, and the cutoff
is not before 1970 unless the clock reads a whole millisecond. -/
theorem keepsRetained_iff_hours (hnow : 0 ≤ now.toInt) :
    KeepsRetained hours now ↔ hours.toNat ≤ 2562047 ∧
      (now.toInt % 1000000 = 0 ∨ (hours.toNat * 3600000 * 1000000 : Int) ≤ now.toInt) := by
  constructor
  · intro h
    have hhours := (age_fits_iff hours).mp h.age_fits
    refine ⟨hhours, (cutoff_exact_iff hhours hnow).mp ?_⟩
    have hlt := Int64.toInt_lt now
    -- the oldest record inside the period
    let oldest : WalRecord :=
      { timestamp_ms := Int64.ofInt (now.toInt / 1000000 - hours.toNat * 3600000), value := 0 }
    have holdest : oldest.timestamp_ms.toInt = now.toInt / 1000000 - hours.toNat * 3600000 :=
      Int64.toInt_ofInt_of_le (by omega) (by omega)
    have hretained : Retained hours now oldest := holdest.ge
    have hcutoff := cutoff_le_of_keeps h hretained
    rw [Int64.le_iff_toInt_le, holdest] at hcutoff
    exact hcutoff
  · rintro ⟨hhours, hwhole⟩
    have hage := (age_fits_iff hours).mpr hhours
    have hms := toInt_retention_age hours
    have hlt := Int64.toInt_lt now
    exact
      { hours_fit := hms
        age_fits := hage
        cutoff_fits := toInt_sub_of_fits (by rw [hage, hms]; omega) (by rw [hage, hms]; omega)
        keeps := fun w name hname =>
          keeps_of_cutoff_le ((cutoff_exact_iff hhours hnow).mpr hwhole) w hname }

/-! ## (3) Which configurations keep it -/

/-- The environment's retention period, if it sets one that parses and fits 32 bits, fits in
nanoseconds. -/
def OverrideFits (getenv : Environment) : Prop :=
  ∀ parsed : UInt64, (getenv.env "IRONPULSE_RETENTION_HOURS").bind stoull = some parsed →
    parsed.toNat ≤ 2562047 ∨ 2 ^ 32 ≤ parsed.toNat

/-- The document's range is safe, so a loaded period fits exactly if the environment's does. -/
theorem loaded_hours_fit_iff {json_parse : String → Except JsonError Json} {getenv : Environment}
    {json_text : String} {cfg : AppConfig}
    (hload : load_from_string json_parse getenv json_text = .ok cfg) :
    cfg.retention_hours.toNat ≤ 2562047 ↔ OverrideFits getenv := by
  obtain ⟨hours, ⟨-, hhours⟩, hcfg⟩ := retention_hours_of_load hload
  have hwithin : cfg.retention_hours.toNat ≤ 2562047 ↔
      OverrideWithin getenv "IRONPULSE_RETENTION_HOURS" 2562047 := by
    rw [hcfg]
    exact parse_or_le_iff_overrideWithin (hhours.trans (by decide))
  rw [hwithin]
  constructor
  · intro h parsed hparsed
    by_cases hfits : parsed.toNat < 2 ^ 32
    · exact .inl (h parsed hparsed hfits)
    · exact .inr (Nat.le_of_not_lt hfits)
  · intro h parsed hparsed hfits
    exact (h parsed hparsed).resolve_right (Nat.not_le_of_lt hfits)

/-- **Retention of a loaded configuration.** For every document and environment that load, at every
time from 1970 on, pruning keeps every record inside the retention period without wrapping
if and only if the environment does not set a period that overflows 64-bit nanoseconds, and the
cutoff is not before 1970 unless the clock reads a whole millisecond. -/
theorem keepsRetained_iff (json_parse : String → Except JsonError Json) (getenv : Environment)
    (json_text : String) (cfg : AppConfig) (now : TimePoint)
    (hload : load_from_string json_parse getenv json_text = .ok cfg) (hnow : 0 ≤ now.toInt) :
    KeepsRetained cfg.retention_hours now ↔ OverrideFits getenv ∧
      (now.toInt % 1000000 = 0 ∨
        (cfg.retention_hours.toNat * 3600000 * 1000000 : Int) ≤ now.toInt) := by
  rw [keepsRetained_iff_hours hnow, loaded_hours_fit_iff hload]

/-- One week of retention on 14 November 2023 keeps what it promises. -/
theorem keepsRetained_week :
    KeepsRetained 168 1700000000000000000 :=
  (keepsRetained_iff emptyDocument (overriding "IRONPULSE_RETENTION_HOURS" "168") "{}"
    { retention_hours := 168 } 1700000000000000000 (by decide) (by decide)).mpr
    ⟨by
      intro parsed hparsed
      have h168 : stoull "168" = some 168 := by decide
      exact .inl (by cases h168.symm.trans hparsed; decide), .inl (by decide)⟩

/-- **An override of 5124095 hours wipes the log**: the age wraps to a negative number of
nanoseconds, so that the cutoff lies in the future. -/
theorem retention_override_wraps :
    ¬ ∀ (json_parse : String → Except JsonError Json) (getenv : Environment) (json_text : String)
        (cfg : AppConfig) (now : TimePoint),
      load_from_string json_parse getenv json_text = .ok cfg → 0 ≤ now.toInt →
        now.toInt < 7258118400000000000 → KeepsRetained cfg.retention_hours now := by
  intro h
  have hkeeps := h emptyDocument (overriding "IRONPULSE_RETENTION_HOURS" "5124095") "{}"
    { retention_hours := 5124095 } 1700000000000000000 (by decide) (by decide) (by decide)
  -- a record of this very moment lies before the cutoff
  let record : WalRecord := { timestamp_ms := 1700000000000, value := 0 }
  have hretained : Retained 5124095 1700000000000000000 record := by decide
  have hcutoff := cutoff_le_of_keeps hkeeps hretained
  revert hcutoff
  decide

end Ironpulse.Storage
