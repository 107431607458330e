import Mathlib.Data.List.Perm.Subperm
import Ironpulse.Storage.Files

/-! # Names of segment files

`segment_stem` (`src/ingest/segment.cpp`): a segment is named by its creation time in UTC and the
writer's running number, as in `telemetry-20261002T104311-123Z-000001`.

* **`gmtime`**: the UTC fields of a time in the proleptic Gregorian calendar.
* **`segment_stem`**, and **`segment_stem_inj`**: two numbers never give one name.
* **`next_sequence`**: the search for a number whose names are free, and `next_sequence_fresh`. -/

namespace Ironpulse.Ingest

open Storage

/-! ## (1) Calendar time -/

/-- The fields of a `std::tm` that the name uses, the year and the month as they are written. -/
structure Tm where
  year : Int
  month : Int
  day : Int
  hour : Int
  minute : Int
  second : Int
  deriving DecidableEq

/-- `gmtime_r`. Years are counted from March, so that the leap day is the last one of its year: 400
of them are 146097 days, and five months from March on are 153 days. -/
def gmtime (seconds : Int) : Tm :=
  let days := seconds / 86400 + 719468
  let time := seconds % 86400
  let day_of_era := days % 146097
  let year_of_era :=
    (day_of_era - day_of_era / 1460 + day_of_era / 36524 - day_of_era / 146096) / 365
  let day_of_year := day_of_era - (365 * year_of_era + year_of_era / 4 - year_of_era / 100)
  let month := (5 * day_of_year + 2) / 153
  { year := year_of_era + 400 * (days / 146097) + if month < 10 then 0 else 1
    month := if month < 10 then month + 3 else month - 9
    day := day_of_year - (153 * month + 2) / 5 + 1
    hour := time / 3600
    minute := time % 3600 / 60
    second := time % 60 }

example : gmtime 1790937791 = ⟨2026, 10, 2, 10, 43, 11⟩ ∧ gmtime (-1) = ⟨1969, 12, 31, 23, 59, 59⟩ ∧
    gmtime 951782400 = ⟨2000, 2, 29, 0, 0, 0⟩ := by decide

/-! ## (2) The name -/

/-- `%0*llu`: the decimal digits, zero-padded. -/
def zero_padded (width n : Nat) : List Char := (Nat.toDigits 10 n).leftpad width '0'

/-- `%0*d`: the sign counts. -/
def zero_padded_int (width : Nat) (n : Int) : List Char :=
  if n < 0 then '-' :: zero_padded (width - 1) n.natAbs else zero_padded width n.natAbs

/-- `strftime` with `%Y%m%dT%H%M%S`. -/
def stamp (utc : Tm) : List Char :=
  zero_padded_int 4 utc.year ++ zero_padded_int 2 utc.month ++ zero_padded_int 2 utc.day ++
    'T' :: zero_padded_int 2 utc.hour ++ zero_padded_int 2 utc.minute ++
      zero_padded_int 2 utc.second

/-- `segment_stem`: the time of creation in UTC and a running number. -/
def segment_stem (created_ms : Int64) (sequence : Nat) : String :=
  let utc := gmtime (created_ms / 1000).toInt
  "telemetry-" ++ String.ofList (stamp utc ++ '-' :: zero_padded_int 3 (created_ms % 1000).toInt) ++
    "Z-" ++ String.ofList (zero_padded 6 sequence)

example : segment_stem 1790937791123 1 = "telemetry-20261002T104311-123Z-000001" := by
  decide +kernel

/-- `kSegmentExtension`. -/
def kSegmentExtension : String := ".ipseg"

/-- `kPartialSuffix`. -/
def kPartialSuffix : String := ".part"

/-- The name of the finished segment and of the one being written. -/
def final_name (created_ms : Int64) (sequence : Nat) : String :=
  segment_stem created_ms sequence ++ kSegmentExtension

/-- The name under which a segment is written. -/
def partial_name (created_ms : Int64) (sequence : Nat) : String :=
  final_name created_ms sequence ++ kPartialSuffix

/-- Padded numbers of one width tell the number. -/
theorem zero_padded_inj {width m n : Nat} (h : zero_padded width m = zero_padded width n) :
    m = n := by
  have hvalue : ∀ k, Nat.ofDigitChars 10 (zero_padded width k) 0 = k := by
    intro k
    rw [zero_padded, List.leftpad, Nat.ofDigitChars_append, Nat.ofDigitChars_replicate_zero,
      Nat.mul_zero, Nat.ofDigitChars_ten_toDigits]
  rw [← hvalue m, ← hvalue n, h]

/-- **Two numbers never give one name.** -/
theorem segment_stem_inj {created_ms : Int64} {m n : Nat}
    (h : segment_stem created_ms m = segment_stem created_ms n) : m = n := by
  unfold segment_stem at h
  have hdigits := (String.append_right_inj _).mp h
  exact zero_padded_inj (String.ofList_inj.mp hdigits)

/-- A finished segment and one being written never share a name. -/
theorem final_name_ne_partial_name {created_ms : Int64} {m n : Nat} :
    final_name created_ms m ≠ partial_name created_ms n := by
  intro h
  have hlast := congrArg (fun name : String => name.toList.getLast?) h
  simp [final_name, partial_name, kSegmentExtension, kPartialSuffix] at hlast

/-! ## (3) The search for a free name -/

/-- One of the two names of a segment exists. -/
def NameTaken (files : Files) (created_ms : Int64) (sequence : Nat) : Prop :=
  final_name created_ms sequence ∈ files ∨ partial_name created_ms sequence ∈ files

instance (files : Files) (created_ms : Int64) (sequence : Nat) :
    Decidable (NameTaken files created_ms sequence) :=
  inferInstanceAs (Decidable (_ ∨ _))

/-- The loop that counts on from `sequence` until both names are free. Every taken number has a file
of its own, so the number of files is fuel enough. -/
def next_sequence (files : Files) (created_ms : Int64) : Nat → Nat → Nat
  | 0, sequence => sequence + 1
  | fuel + 1, sequence =>
      if NameTaken files created_ms (sequence + 1) then
        next_sequence files created_ms fuel (sequence + 1)
      else sequence + 1

/-- Where the loop stops: at a free number, or after taken ones only. -/
theorem next_sequence_spec (files : Files) (created_ms : Int64) (fuel sequence : Nat) :
    ¬ NameTaken files created_ms (next_sequence files created_ms fuel sequence) ∨
      next_sequence files created_ms fuel sequence = sequence + fuel + 1 ∧
        ∀ k < fuel, NameTaken files created_ms (sequence + 1 + k) := by
  induction fuel generalizing sequence with
  | zero => exact .inr ⟨rfl, fun k hk => absurd hk (Nat.not_lt_zero k)⟩
  | succ fuel ih =>
      rw [next_sequence]
      split
      · -- the name is taken: the search goes on with the next number
        rename_i htaken
        rcases ih (sequence + 1) with hfree | ⟨hend, hall⟩
        · exact .inl hfree
        · refine .inr ⟨by omega, fun k hk => ?_⟩
          cases k with
          | zero => exact htaken
          | succ k =>
              rw [show sequence + 1 + (k + 1) = sequence + 1 + 1 + k by omega]
              exact hall k (by omega)
      · rename_i hfree
        exact .inl hfree

/-- A name that is taken, one for each taken number. -/
def takenName (files : Files) (created_ms : Int64) (sequence : Nat) : String :=
  if final_name created_ms sequence ∈ files then final_name created_ms sequence
  else partial_name created_ms sequence

/-- A name that is taken is in the directory. -/
theorem takenName_mem {files : Files} {created_ms : Int64} {sequence : Nat}
    (h : NameTaken files created_ms sequence) :
    takenName files created_ms sequence ∈ files.keys := by
  unfold takenName
  split
  · rename_i hfinal
    exact hfinal
  · rename_i hfinal
    exact h.resolve_left hfinal

/-- The names for different running numbers are different. -/
theorem takenName_inj {files : Files} {created_ms : Int64} {m n : Nat}
    (h : takenName files created_ms m = takenName files created_ms n) : m = n := by
  unfold takenName at h
  split at h <;> split at h
  · exact segment_stem_inj ((String.append_left_inj _).mp h)
  · exact absurd h final_name_ne_partial_name
  · exact absurd h.symm final_name_ne_partial_name
  · exact segment_stem_inj ((String.append_left_inj _).mp ((String.append_left_inj _).mp h))

/-- **The search finds a free number**: there are more numbers than files. -/
theorem next_sequence_fresh (files : Files) (created_ms : Int64) (sequence : Nat) :
    ¬ NameTaken files created_ms
      (next_sequence files created_ms files.keys.length sequence) := by
  rcases next_sequence_spec files created_ms files.keys.length sequence with hfree | ⟨hend, hall⟩
  · exact hfree
  · intro htaken
    rw [hend] at htaken
    have hmem : ∀ k < files.keys.length + 1,
        takenName files created_ms (sequence + 1 + k) ∈ files.keys := by
      intro k hk
      rcases Nat.lt_succ_iff_lt_or_eq.mp hk with hlt | rfl
      · exact takenName_mem (hall k hlt)
      · rw [show sequence + 1 + files.keys.length = sequence + files.keys.length + 1 by omega]
        exact takenName_mem htaken
    -- more names taken than the directory has files
    let names := (List.range (files.keys.length + 1)).map fun k =>
      takenName files created_ms (sequence + 1 + k)
    have hnodup : names.Nodup :=
      List.nodup_range.map fun a b hab => Nat.add_left_cancel (takenName_inj hab)
    have hsub : names ⊆ files.keys := by
      intro name hname
      obtain ⟨k, hk, rfl⟩ := List.mem_map.mp hname
      exact hmem k (List.mem_range.mp hk)
    have hlength := (hnodup.subperm hsub).length_le
    rw [List.length_map, List.length_range] at hlength
    omega

end Ironpulse.Ingest
