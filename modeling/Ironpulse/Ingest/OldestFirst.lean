import Ironpulse.Ingest.SegmentWriting

/-! # Deleting the oldest segments

The limit on the directory deletes finished segments in the order of their names, which begin with the
creation time, so a rotation, which makes room for one more segment, spares the segment that it has
just finished.

* **`OldestFirst`**: the shortest prefix of the names that makes the rest fit is gone, and nothing
  else.
* **`lookup_enforce_total_limit`**: the newest segment is spared if it and the reserve fit the limit.
* **`oldest_first`**: this is what `enforce_total_limit` and a rotation of `write_batch` do. -/

namespace Ironpulse.Ingest

open Storage

namespace SegmentWriter

variable {w : SegmentWriter}

/-! ## (1) The shortest prefix -/

/-- **The oldest segments are gone, and no more than needed**: `names` are the finished segments in
the order of their names; the first `k` of them have been deleted and nothing else has changed. Fewer
would not have been enough, and these are, unless they are all. -/
structure OldestFirst (w w' : SegmentWriter) (reserve : Nat) (names : List String) (k : Nat) :
    Prop where
  perm : names.Perm (w.files.keys.filter is_finished_segment)
  sorted : names.Pairwise (· < ·)
  same : w' = { w with files := w'.files, segments_deleted_ := w.segments_deleted_ + k }
  deleted : Deleted (fun left => w.segment_bytes_ + left + reserve ≤
    w.options_.max_total_bytes.toNat) names w.files w'.files k

/-- **The limit deletes the oldest segments first**, and no more than needed, where nothing wraps. -/
theorem oldestFirst_enforce_total_limit (hlimit : w.options_.max_total_bytes ≠ 0) {reserve : UInt64}
    (hfits : w.segment_bytes_ + finishedBytes w.files + reserve.toNat < 2 ^ 64) :
    ∃ names k, OldestFirst w (w.enforce_total_limit reserve) reserve.toNat names k := by
  obtain ⟨files', k, heq, hdeleted⟩ := enforce_total_limit_spec hlimit reserve
  refine ⟨_, k, finishedByName_perm w.files, pairwise_finishedByName w.files, ?_, ?_⟩
  · rw [heq]
  · rw [heq]
    refine hdeleted.congr fun j => ?_
    -- what is left is not more than there was
    have hle : totalBytes w.files ((finishedByName w.files).drop j) ≤ finishedBytes w.files :=
      bytesWithout_le w.files j
    exact ofNat_add_le_iff (by omega)

/-! ## (2) The newest segment -/

/-- **The newest segment is spared** if it and the reserve fit the limit together, even where the
total wraps: when its turn comes, it is all that is left. -/
theorem lookup_enforce_total_limit {reserve : UInt64} {name : String} (hbytes : w.segment_bytes_ = 0)
    (hnewest : ∀ other ∈ w.files.keys, is_finished_segment other = true → other ≤ name)
    (hfits : (w.files.content name).length + reserve.toNat ≤ w.options_.max_total_bytes.toNat) :
    (w.enforce_total_limit reserve).files.lookup name = w.files.lookup name := by
  by_cases hlimit : w.options_.max_total_bytes = 0
  · rw [enforce_total_limit_of_unlimited hlimit]
  obtain ⟨files', k, heq, hdeleted⟩ := enforce_total_limit_spec hlimit reserve
  rw [heq]
  dsimp only
  rw [hdeleted.lookup, if_neg]
  intro hmem
  obtain ⟨i, hi, hname⟩ := List.mem_iff_getElem.mp hmem
  rw [List.length_take, Nat.lt_min] at hi
  rw [List.getElem_take] at hname
  -- no segment is newer, so this is the last one
  have hlast : (finishedByName w.files).drop (i + 1) = [] := by
    by_contra hne
    have hlt : i + 1 < (finishedByName w.files).length := by
      have hpos := List.length_pos_iff.mpr hne
      rw [List.length_drop] at hpos
      omega
    have hnewer := List.pairwise_iff_getElem.mp (pairwise_finishedByName w.files) i (i + 1) hi.2 hlt
      (Nat.lt_succ_self i)
    obtain ⟨hkey, hcounts⟩ := List.mem_filter.mp
      ((finishedByName_perm w.files).mem_iff.mp (List.getElem_mem hlt))
    rw [hname] at hnewer
    exact absurd hnewer (not_lt.mpr (hnewest _ hkey hcounts))
  refine hdeleted.needed i hi.1 ?_
  rw [List.drop_eq_getElem_cons hi.2, hlast, hname, totalBytes_cons, totalBytes, List.map_nil,
    List.sum_nil, Nat.add_zero, hbytes, Nat.zero_add]
  have hlt := UInt64.toNat_lt w.options_.max_total_bytes
  exact (ofNat_add_le_iff (by omega)).mpr hfits

/-! ## (3) Rotations -/

/-- Closing a segment leaves files with other names alone. -/
theorem lookup_finish_segment_of_ne {name : String} (hpart : name ≠ w.partial_path_)
    (hfinal : name ≠ w.final_path_) (renamed : Bool) :
    (w.finish_segment renamed).files.lookup name = w.files.lookup name := by
  unfold finish_segment
  split
  · cases renamed with
    | true => exact Files.lookup_rename_of_ne hpart hfinal
    | false => rfl
  · rfl

/-- So does writing to it. -/
theorem lookup_flushed_of_ne {name : String} (hpart : name ≠ w.partial_path_)
    (outcome : FlushOutcome) (bytes : List UInt8) :
    AList.lookup name (w.flushed outcome bytes) = w.files.lookup name := by
  cases outcome with
  | flushed => exact AList.lookup_insert_ne hpart
  | failed written => exact AList.lookup_insert_ne hpart

/-- **A new segment gets names of its own**: the files that exist are left alone, also by what is
written to the segment afterwards. -/
theorem lookup_open_segment {name : String} (hname : name ∈ w.files) (created : Int64)
    (io : SegmentIo) :
    (w.open_segment created io).1.files.lookup name = w.files.lookup name ∧
      name ≠ (w.open_segment created io).1.partial_path_ ∧
      name ≠ (w.open_segment created io).1.final_path_ := by
  obtain ⟨hfinal, hpart⟩ := not_or.mp (next_sequence_fresh w.files created w.sequence_)
  have hpart' : name ≠ partial_name created
      (next_sequence w.files created w.files.keys.length w.sequence_) := by
    rintro rfl
    exact hpart hname
  have hfinal' : name ≠ final_name created
      (next_sequence w.files created w.files.keys.length w.sequence_) := by
    rintro rfl
    exact hfinal hname
  have hfronted : (w.fronted created io).files.lookup name = w.files.lookup name :=
    (lookup_flushed_of_ne (w := w.begun created) hpart' io.header _).trans
      (AList.lookup_insert_ne hpart')
  cases hcreated : io.created with
  | false =>
      -- without a file there is nothing to write to
      unfold open_segment
      dsimp only
      rw [if_pos (by rw [hcreated]; decide)]
      exact ⟨rfl, hpart', hfinal'⟩
  | true =>
      cases hheader : io.header with
      | flushed =>
          rw [open_segment_of_flushed hcreated hheader]
          exact ⟨hfronted, hpart', hfinal'⟩
      | failed written =>
          -- the segment is sealed at once, under its own names
          obtain ⟨what, hfailed⟩ := open_segment_of_failed (w := w) hcreated hheader created
          have hpaths : ((w.fronted created io).finish_segment io.sealed).partial_path_ =
                (w.fronted created io).partial_path_ ∧
              ((w.fronted created io).finish_segment io.sealed).final_path_ =
                (w.fronted created io).final_path_ := ⟨rfl, rfl⟩
          rw [hfailed]
          dsimp only
          rw [lookup_finish_segment_of_ne hpart' hfinal', hpaths.1, hpaths.2]
          exact ⟨hfronted, hpart', hfinal'⟩

/-- What is appended to the open segment leaves other files alone, also if it has to be sealed. -/
theorem lookup_append_batch {name : String} (hpart : name ≠ w.partial_path_)
    (hfinal : name ≠ w.final_path_) (io : SegmentIo) (batch : List UInt8) :
    (w.append_batch io batch).1.files.lookup name = w.files.lookup name := by
  cases hio : io.batch with
  | flushed =>
      rw [append_batch_of_flushed hio]
      exact lookup_flushed_of_ne hpart io.batch batch
  | failed written =>
      obtain ⟨what, hfailed⟩ := append_batch_of_failed (w := w) hio batch
      rw [hfailed]
      exact (lookup_finish_segment_of_ne (w := w.appended io batch) hpart hfinal io.sealed).trans
        (lookup_flushed_of_ne hpart io.batch batch)

/-- **A rotation keeps the segment that it finishes**: when the open segment, which is not larger
than allowed and has the last name of all, has been finished, its file is still there after the call,
however the new segment fares. -/
theorem lookup_write_batch {created : Int64} {io : SegmentIo} {batch bytes : List UInt8}
    (hout : w.out_ = true) (hfull : w.full batch)
    (hlimit : 2 * w.options_.max_segment_bytes.toNat ≤ w.options_.max_total_bytes.toNat)
    (hfinished : (w.finish_segment io.finished).files.lookup w.final_path_ = some bytes)
    (hsize : bytes.length ≤ w.options_.max_segment_bytes.toNat)
    (hnewest : ∀ other ∈ (w.finish_segment io.finished).files.keys,
      is_finished_segment other = true → other ≤ w.final_path_) :
    (w.write_batch created io batch).1.files.lookup w.final_path_ = some bytes := by
  have hoptions := (sameSetup_finish_segment w io.finished).1
  have hbytes : (w.finish_segment io.finished).segment_bytes_ = 0 := by
    rw [finish_segment, if_pos hout]
  have hcontent : (w.finish_segment io.finished).files.content w.final_path_ = bytes := by
    rw [Files.content, hfinished, Option.getD_some]
  -- nothing else counts than the finished segments
  have hkept : (w.cleared io).files.lookup w.final_path_ = some bytes := by
    have hlookup := @lookup_enforce_total_limit (w.finish_segment io.finished)
      w.options_.max_segment_bytes w.final_path_ hbytes hnewest (by rw [hcontent, hoptions]; omega)
    exact hlookup.trans hfinished
  have hmem : w.final_path_ ∈ (w.cleared io).files := by
    rw [← AList.lookup_isSome, hkept, Option.isSome_some]
  obtain ⟨hopened, hpart, hfinal⟩ := lookup_open_segment hmem created io
  unfold write_batch
  rw [open_for_eq, if_neg fun hroom => hroom.2 hfull]
  rcases hresult : (w.cleared io).open_segment created io with ⟨opened, what | ⟨⟩⟩
  · rw [hresult] at hopened
    exact hopened.trans hkept
  · -- the batch goes to the new segment
    rw [hresult] at hopened hpart hfinal
    exact (lookup_append_batch hpart hfinal io batch).trans (hopened.trans hkept)

/-! ## (4) Oldest first -/

/-- **The limit on the directory**: as long as the segments and the reserve add up in 64 bits, the
oldest segments are deleted and no more than needed. A rotation keeps the segment that it finishes, if
the limit is twice the size of a segment. -/
theorem oldest_first :
    (∀ (w : SegmentWriter) (reserve : UInt64), w.options_.max_total_bytes ≠ 0 →
        w.segment_bytes_ + finishedBytes w.files + reserve.toNat < 2 ^ 64 →
        ∃ names k, OldestFirst w (w.enforce_total_limit reserve) reserve.toNat names k) ∧
      ∀ (w : SegmentWriter) (created : Int64) (io : SegmentIo) (batch bytes : List UInt8),
        w.out_ = true →
        w.segment_bytes_ + batch.length > w.options_.max_segment_bytes.toNat →
        2 * w.options_.max_segment_bytes.toNat ≤ w.options_.max_total_bytes.toNat →
        (w.finish_segment io.finished).files.lookup w.final_path_ = some bytes →
        bytes.length ≤ w.options_.max_segment_bytes.toNat →
        (∀ other ∈ (w.finish_segment io.finished).files.keys,
          is_finished_segment other = true → other ≤ w.final_path_) →
        (w.write_batch created io batch).1.files.lookup w.final_path_ = some bytes :=
  ⟨fun _ _ hlimit hfits => oldestFirst_enforce_total_limit hlimit hfits,
    fun _ _ _ _ _ hout hfull hlimit hfinished hsize hnewest =>
      lookup_write_batch hout hfull hlimit hfinished hsize hnewest⟩

/-- A writer without an open segment in a directory with a limit. -/
def limitedTo (max_total_bytes : UInt64) (files : Files) : SegmentWriter where
  options_ := { max_total_bytes }
  tag_table_ := []
  files

/-- Two segments of which the limit leaves one. -/
theorem oldest_first_two_segments :
    ∃ names k, OldestFirst
      (limitedTo 5 (((∅ : Files).insert "telemetry-2.ipseg" [1, 2]).insert "telemetry-1.ipseg" [3]))
      ((limitedTo 5
        (((∅ : Files).insert "telemetry-2.ipseg" [1, 2]).insert "telemetry-1.ipseg" [3])
        ).enforce_total_limit 3) 3 names k :=
  oldest_first.1 _ 3 (by decide) (by decide)

/-- **A reserve that makes the sum wrap** deletes nothing, though no deletion could make room for it:
the limit is 1000 bytes, and there is one segment of one byte. -/
theorem not_oldestFirst_wrapped :
    ¬ ∃ names k, OldestFirst (limitedTo 1000 ((∅ : Files).insert "telemetry-1.ipseg" [0]))
      ((limitedTo 1000 ((∅ : Files).insert "telemetry-1.ipseg" [0])).enforce_total_limit
        0xFFFFFFFFFFFFFFFF) (0xFFFFFFFFFFFFFFFF : UInt64).toNat names k := by
  rintro ⟨names, k, h⟩
  have hperm := h.perm
  have hone : ((limitedTo 1000 ((∅ : Files).insert "telemetry-1.ipseg" [0])).files.keys.filter
      is_finished_segment) = ["telemetry-1.ipseg"] := by decide
  rw [hone, List.perm_singleton] at hperm
  subst hperm
  have hreserve : (0xFFFFFFFFFFFFFFFF : UInt64).toNat = 2 ^ 64 - 1 := rfl
  have hlimit : (limitedTo 1000 ((∅ : Files).insert "telemetry-1.ipseg" [0])
      ).options_.max_total_bytes.toNat = 1000 := rfl
  rcases h.deleted.enough with hall | hfits
  · -- the segment would have to be gone
    have hlookup := h.deleted.lookup "telemetry-1.ipseg"
    rw [hall, if_pos (by decide)] at hlookup
    unfold enforce_total_limit at hlookup
    rw [if_neg (by decide), hone] at hlookup
    dsimp only at hlookup
    rw [List.mergeSort_singleton] at hlookup
    revert hlookup
    decide
  · rw [hreserve, hlimit] at hfits
    omega

end SegmentWriter

end Ironpulse.Ingest
