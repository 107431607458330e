import Mathlib.Algebra.BigOperators.Group.List.Basic
import Mathlib.Algebra.Group.Nat.Defs
import Mathlib.Data.String.Basic
import Ironpulse.Ingest.Segment

/-! # The limit on the export directory

`enforce_total_limit` (`src/ingest/segment.cpp`) deletes finished segments in the order of their names
until the rest, the open segment and a reserve fit the limit. It sums in `std::uint64_t`, so that a
directory of `2 ^ 64` bytes and more can look smaller than it is.

* **`finishedBytes`**, **`totalBytes`**: the bytes of the finished segments, and of some of them.
* **`Deleted`**: the shortest prefix of the names that makes the rest fit is gone, and nothing else.
* **`enforce_total_limit_spec`**: what the function deletes, in 64 bits and without any assumption.
* **`CountsRight`**: the 64-bit total tells that the limit is kept; so it does below `2 ^ 64`. -/

namespace Ironpulse.Ingest

open Storage

/-! ## (1) The bytes of the finished segments -/

/-- The bytes of all `telemetry-*.ipseg` files. -/
def finishedBytes (files : Files) : Nat :=
  ((files.keys.filter is_finished_segment).map fun name => (files.content name).length).sum

/-- What one file adds to them. -/
def countedBytes (files : Files) (name : String) : Nat :=
  if is_finished_segment name then (files.content name).length else 0

/-- The bytes of all segments as a sum over the whole directory. -/
theorem finishedBytes_eq_sum (files : Files) :
    finishedBytes files = (files.keys.map (countedBytes files)).sum := by
  -- the names that do not count contribute zero
  have hsplit := List.sum_map_ite (fun name => is_finished_segment name = true)
    (fun name => (files.content name).length) (fun _ => 0) files.keys
  rw [List.map_const', List.sum_replicate, Nat.nsmul_eq_mul, Nat.mul_zero, Nat.add_zero] at hsplit
  rw [finishedBytes, show countedBytes files = fun name =>
    if is_finished_segment name = true then (files.content name).length else 0 from rfl, hsplit]
  simp only [Bool.decide_eq_true]

/-- Two directories that agree on the files with some names. -/
theorem sum_countedBytes_congr {files files' : Files} {names : List String}
    (h : ∀ name ∈ names, files.content name = files'.content name) :
    (names.map (countedBytes files)).sum = (names.map (countedBytes files')).sum := by
  have hmap : names.map (countedBytes files) = names.map (countedBytes files') := by
    apply List.map_congr_left
    intro name hname
    rw [countedBytes, countedBytes, h name hname]
  rw [hmap]

/-- **Deleting a file** frees what it added. -/
theorem finishedBytes_erase (files : Files) (name : String) :
    countedBytes files name + finishedBytes (files.erase name) = finishedBytes files := by
  have hkept : ∀ other ∈ files.keys.erase name,
      Files.content (files.erase name) other = files.content other := by
    intro other hother
    exact Files.content_erase_of_ne (files.keys_nodup.mem_erase_iff.mp hother).1
  rw [finishedBytes_eq_sum, finishedBytes_eq_sum, AList.keys_erase, sum_countedBytes_congr hkept]
  by_cases hmem : name ∈ files.keys
  · exact List.sum_map_erase _ hmem
  · -- there is no such file, and nothing is deleted
    rw [List.erase_of_not_mem hmem, countedBytes, Files.content_of_not_mem hmem, List.length_nil,
      ite_self, Nat.zero_add]

/-- **Writing a file** replaces what it added. -/
theorem finishedBytes_insert (files : Files) (name : String) (bytes : List UInt8) :
    finishedBytes (files.insert name bytes) =
      (if is_finished_segment name then bytes.length else 0) +
        finishedBytes (files.erase name) := by
  have hkept : ∀ other ∈ files.keys.erase name,
      Files.content (files.insert name bytes) other = Files.content (files.erase name) other := by
    intro other hother
    have hne : other ≠ name := (files.keys_nodup.mem_erase_iff.mp hother).1
    rw [Files.content_insert_of_ne hne, Files.content_erase_of_ne hne]
  rw [finishedBytes_eq_sum, finishedBytes_eq_sum, AList.keys_insert, AList.keys_erase,
    List.map_cons, List.sum_cons, sum_countedBytes_congr hkept, countedBytes,
    Files.content_insert]

/-- A file under another name does not count. -/
theorem finishedBytes_insert_of_not {files : Files} {name : String}
    (h : is_finished_segment name = false) (bytes : List UInt8) :
    finishedBytes (files.insert name bytes) = finishedBytes files := by
  have hcounted : countedBytes files name = 0 := by
    rw [countedBytes, h]
    rfl
  rw [finishedBytes_insert, h, ← finishedBytes_erase files name, hcounted]
  rfl

/-- Deleting a file frees bytes or none. -/
theorem finishedBytes_erase_le (files : Files) (name : String) :
    finishedBytes (files.erase name) ≤ finishedBytes files :=
  Nat.le_of_add_left_le (Nat.le_of_eq (finishedBytes_erase files name))

/-- **Renaming a file** adds its bytes at most. -/
theorem finishedBytes_rename_le (files : Files) (name new_name : String) :
    finishedBytes (files.rename name new_name) ≤
      finishedBytes files + (files.content name).length := by
  unfold Files.rename
  cases hlookup : files.lookup name with
  | none => exact Nat.le_add_right _ _
  | some bytes =>
      -- the file may replace another one, which makes the sum smaller
      have hcontent : files.content name = bytes := by
        rw [Files.content, hlookup, Option.getD_some]
      have herase := (finishedBytes_erase_le (files.erase name) new_name).trans
        (finishedBytes_erase_le files name)
      rw [hcontent]
      dsimp only
      rw [finishedBytes_insert]
      split
      · omega
      · omega

/-- The bytes of some files. -/
def totalBytes (files : Files) (names : List String) : Nat :=
  (names.map fun name => (files.content name).length).sum

/-- The bytes of a list of files are those of the first one and of the rest. -/
@[simp] theorem totalBytes_cons (files : Files) (name : String) (names : List String) :
    totalBytes files (name :: names) = (files.content name).length + totalBytes files names := rfl

/-- Deleting a file leaves the bytes of others. -/
theorem totalBytes_erase {files : Files} {name : String} {names : List String}
    (h : name ∉ names) : totalBytes (files.erase name) names = totalBytes files names := by
  unfold totalBytes
  congr 1
  refine List.map_congr_left fun other hother => ?_
  have hne : other ≠ name := by
    rintro rfl
    exact h hother
  rw [Files.content_erase_of_ne hne]

/-- The finished segments in the order of their names. -/
def finishedByName (files : Files) : List String :=
  (files.keys.filter is_finished_segment).mergeSort

/-- Sorting neither adds nor drops a segment. -/
theorem finishedByName_perm (files : Files) :
    (finishedByName files).Perm (files.keys.filter is_finished_segment) :=
  List.mergeSort_perm _ _

/-- A name stands for one file. -/
theorem nodup_finishedByName (files : Files) : (finishedByName files).Nodup :=
  (finishedByName_perm files).nodup_iff.mpr (files.keys_nodup.filter _)

/-- The names are sorted. -/
theorem pairwise_finishedByName (files : Files) : (finishedByName files).Pairwise (· < ·) := by
  have hle := @List.pairwise_mergeSort String (fun a b => decide (a ≤ b))
    (fun a b c hab hbc => by simpa using (of_decide_eq_true hab).trans (of_decide_eq_true hbc))
    (fun a b => by simpa using le_total a b) (files.keys.filter is_finished_segment)
  exact (hle.and (nodup_finishedByName files)).imp fun h =>
    lt_of_le_of_ne (of_decide_eq_true h.1) h.2

/-- In whatever order the finished segments are summed up. -/
theorem totalBytes_finishedByName (files : Files) :
    totalBytes files (finishedByName files) = finishedBytes files :=
  ((finishedByName_perm files).map _).sum_eq

/-- The bytes that are left of the finished segments without the `k` oldest ones. -/
def bytesWithout (files : Files) (k : Nat) : Nat :=
  totalBytes files ((finishedByName files).drop k)

/-- They are not more than all. -/
theorem bytesWithout_le (files : Files) (k : Nat) : bytesWithout files k ≤ finishedBytes files := by
  have hsplit : totalBytes files ((finishedByName files).take k ++ (finishedByName files).drop k) =
      totalBytes files ((finishedByName files).take k) + bytesWithout files k := by
    rw [totalBytes, List.map_append, List.sum_append]
    rfl
  rw [List.take_append_drop, totalBytes_finishedByName] at hsplit
  exact Nat.le_of_add_left_le hsplit.ge

/-! ## (2) What the loop deletes -/

/-- **What is left of a directory** after the first `k` of some files have been deleted: fewer would
not have been enough, and these are, unless they are all. `fits` says of the bytes that are left of
these files whether they are few enough. -/
structure Deleted (fits : Nat → Prop) (names : List String) (files files' : Files) (k : Nat) :
    Prop where
  bound : k ≤ names.length
  lookup : ∀ name, files'.lookup name = if name ∈ names.take k then none else files.lookup name
  needed : ∀ j < k, ¬ fits (totalBytes files (names.drop j))
  enough : k = names.length ∨ fits (totalBytes files (names.drop k))

/-- Another way to say what fits. -/
theorem Deleted.congr {fits fits' : Nat → Prop} {names : List String} {files files' : Files} {k : Nat}
    (h : Deleted fits names files files' k)
    (hfits : ∀ j, fits (totalBytes files (names.drop j)) ↔ fits' (totalBytes files (names.drop j))) :
    Deleted fits' names files files' k :=
  ⟨h.bound, h.lookup, fun j hj => mt (hfits j).mpr (h.needed j hj), h.enough.imp id (hfits k).mp⟩

/-- The oldest file goes, and the rest of the loop deletes from the others. -/
theorem Deleted.cons {fits : Nat → Prop} {name : String} {rest : List String} {files files' : Files}
    {k : Nat} (hfresh : name ∉ rest) (hlarge : ¬ fits (totalBytes files (name :: rest)))
    (h : Deleted fits rest (files.erase name) files' k) :
    Deleted fits (name :: rest) files files' (k + 1) := by
  -- the name that is deleted does not stand twice in the list
  have hrest : ∀ j, totalBytes (files.erase name) (rest.drop j) = totalBytes files (rest.drop j) :=
    fun j => totalBytes_erase fun hmem => hfresh (List.mem_of_mem_drop hmem)
  refine ⟨Nat.succ_le_succ h.bound, fun other => ?_, fun j hj => ?_, ?_⟩
  · rw [h.lookup, List.take_succ_cons]
    by_cases hother : other = name
    · subst hother
      rw [if_pos List.mem_cons_self, AList.lookup_erase, ite_self]
    · rw [AList.lookup_erase_ne hother]
      simp only [List.mem_cons, hother, false_or]
  · -- for the first deletion the total was too large, for a later one by hypothesis
    cases j with
    | zero => exact hlarge
    | succ j =>
        have hneeded := h.needed j (Nat.lt_of_succ_lt_succ hj)
        rwa [hrest] at hneeded
  · refine h.enough.imp (congrArg Nat.succ) fun henough => ?_
    rwa [hrest] at henough

/-- **What the loop deletes**: names from the front, as long as the 64-bit sum does not fit. -/
theorem deleted_delete_segments (limit reserve : UInt64) (base : Nat) {names : List String}
    (hnodup : names.Nodup) (files : Files) (deleted : Nat) :
    ∃ files' k, delete_segments limit reserve names
        (UInt64.ofNat (base + totalBytes files names)) (files, deleted) = (files', deleted + k) ∧
      Deleted (fun left => UInt64.ofNat (base + left) + reserve ≤ limit) names files files' k := by
  induction names generalizing files deleted with
  | nil =>
      refine ⟨files, 0, rfl, Nat.le_refl 0, fun name => ?_, fun j hj => absurd hj j.not_lt_zero,
        .inl rfl⟩
      rw [List.take_nil, if_neg List.not_mem_nil]
  | cons name rest ih =>
      obtain ⟨hfresh, hnodup⟩ := List.nodup_cons.mp hnodup
      rw [delete_segments]
      split
      · -- the rest fits, and nothing more is deleted
        rename_i hfits
        refine ⟨files, 0, rfl, Nat.zero_le _, fun other => ?_, fun j hj => absurd hj j.not_lt_zero,
          .inr hfits⟩
        rw [List.take_zero, if_neg List.not_mem_nil]
      · rename_i hlarge
        obtain ⟨files', k, heq, hdeleted⟩ := ih hnodup (files.erase name) (deleted + 1)
        -- the total stays exact but for multiples of `2 ^ 64`
        have htotal : UInt64.ofNat (base + totalBytes files (name :: rest)) -
            UInt64.ofNat (files.content name).length =
              UInt64.ofNat (base + totalBytes (files.erase name) rest) := by
          rw [totalBytes_cons, totalBytes_erase hfresh, Nat.add_left_comm, UInt64.ofNat_add,
            UInt64.add_comm, UInt64.add_sub_cancel]
        refine ⟨files', k + 1, ?_, hdeleted.cons hfresh hlarge⟩
        rw [htotal, heq, Nat.add_assoc, Nat.add_comm 1 k]

/-- **The finished segments that are left** are those that were not deleted. -/
theorem Deleted.finishedBytes_eq {fits : Nat → Prop} {files files' : Files} {k : Nat}
    (h : Deleted fits (finishedByName files) files files' k) :
    finishedBytes files' = bytesWithout files k := by
  have hnodup := nodup_finishedByName files
  rw [← List.take_append_drop k (finishedByName files), List.nodup_append] at hnodup
  obtain ⟨-, hdrop, hdisjoint⟩ := hnodup
  have hkept : ∀ name ∈ (finishedByName files).drop k, name ∉ (finishedByName files).take k :=
    fun name hname hmem => hdisjoint name hmem name hname rfl
  -- what is still there are the names that were not deleted
  have hperm : (files'.keys.filter is_finished_segment).Perm ((finishedByName files).drop k) := by
    refine (List.perm_ext_iff_of_nodup (files'.keys_nodup.filter _) hdrop).mpr fun name => ?_
    have hmem : name ∈ finishedByName files ↔
        name ∈ files.keys ∧ is_finished_segment name = true := by
      rw [(finishedByName_perm files).mem_iff, List.mem_filter]
    have hsplit : name ∈ finishedByName files ↔ name ∈ (finishedByName files).take k ∨
        name ∈ (finishedByName files).drop k := by
      rw [← List.mem_append, List.take_append_drop]
    have hkeys : name ∈ files'.keys ↔
        name ∉ (finishedByName files).take k ∧ name ∈ files.keys := by
      rw [← AList.mem_keys, ← AList.mem_keys, ← AList.lookup_isSome, ← AList.lookup_isSome,
        h.lookup]
      split
      · rename_i htaken
        simp [htaken]
      · rename_i hleft
        simp [hleft]
    rw [List.mem_filter, hkeys]
    constructor
    · rintro ⟨⟨hleft, hkey⟩, hcounts⟩
      exact (hsplit.mp (hmem.mpr ⟨hkey, hcounts⟩)).resolve_left hleft
    · intro hname
      obtain ⟨hkey, hcounts⟩ := hmem.mp (hsplit.mpr (.inr hname))
      exact ⟨⟨hkept name hname, hkey⟩, hcounts⟩
  have hcontent : ∀ name ∈ (finishedByName files).drop k,
      files'.content name = files.content name := by
    intro name hname
    rw [Files.content, h.lookup, if_neg (hkept name hname), Files.content]
  -- and their files have not changed
  have hsizes : ((finishedByName files).drop k).map (fun name => (files'.content name).length) =
      ((finishedByName files).drop k).map fun name => (files.content name).length :=
    List.map_congr_left fun name hname => by rw [hcontent name hname]
  rw [finishedBytes, (hperm.map _).sum_eq, hsizes]
  rfl

/-! ## (3) The function -/

namespace SegmentWriter

variable {w : SegmentWriter}

/-- The total is that of the directory, modulo `2 ^ 64`. -/
theorem foldl_add_content (files : Files) (names : List String) (n : Nat) :
    names.foldl (fun total name => total + UInt64.ofNat (files.content name).length)
      (UInt64.ofNat n) = UInt64.ofNat (n + totalBytes files names) := by
  induction names generalizing n with
  | nil => rfl
  | cons name names ih =>
      rw [List.foldl_cons, ← UInt64.ofNat_add, ih, totalBytes_cons, Nat.add_assoc]

/-- The total is summed up before the names are sorted. -/
theorem total_eq (files : Files) (n : Nat) :
    (files.keys.filter is_finished_segment).foldl
      (fun total name => total + UInt64.ofNat (files.content name).length) (UInt64.ofNat n) =
        UInt64.ofNat (n + totalBytes files (finishedByName files)) := by
  rw [foldl_add_content, totalBytes_finishedByName]
  rfl

/-- **What the limit deletes**: the oldest segments, and no more than the 64-bit total asks for. -/
theorem enforce_total_limit_spec (hlimit : w.options_.max_total_bytes ≠ 0) (reserve : UInt64) :
    ∃ files' k, w.enforce_total_limit reserve =
        { w with files := files', segments_deleted_ := w.segments_deleted_ + k } ∧
      Deleted (fun left => UInt64.ofNat (w.segment_bytes_ + left) + reserve ≤
        w.options_.max_total_bytes) (finishedByName w.files) w.files files' k := by
  obtain ⟨files', k, heq, hdeleted⟩ := deleted_delete_segments w.options_.max_total_bytes reserve
    w.segment_bytes_ (nodup_finishedByName w.files) w.files w.segments_deleted_
  refine ⟨files', k, ?_, hdeleted⟩
  rw [← total_eq] at heq
  unfold enforce_total_limit
  rw [if_neg hlimit]
  exact congrArg (fun acc : Files × Nat =>
    ({ w with files := acc.1, segments_deleted_ := acc.2 } : SegmentWriter)) heq

/-- Without a limit nothing is deleted. -/
theorem enforce_total_limit_of_unlimited (h : w.options_.max_total_bytes = 0) (reserve : UInt64) :
    w.enforce_total_limit reserve = w := if_pos h

/-- Only the files and the count of deleted segments change. -/
theorem enforce_total_limit_eq (w : SegmentWriter) (reserve : UInt64) :
    ∃ files deleted, w.enforce_total_limit reserve =
      { w with files := files, segments_deleted_ := deleted } := by
  unfold enforce_total_limit
  split
  · exact ⟨w.files, w.segments_deleted_, rfl⟩
  · exact ⟨_, _, rfl⟩

/-- Below `2 ^ 64` the 64-bit sum is the sum. -/
theorem ofNat_add_le_iff {n : Nat} {reserve limit : UInt64} (hfits : n + reserve.toNat < 2 ^ 64) :
    UInt64.ofNat n + reserve ≤ limit ↔ n + reserve.toNat ≤ limit.toNat := by
  rw [UInt64.le_iff_toNat_le, UInt64.toNat_add, UInt64.toNat_ofNat']
  omega

/-- Nothing happens while everything fits. -/
theorem enforce_total_limit_of_fits {reserve : UInt64}
    (h : w.segment_bytes_ + finishedBytes w.files + reserve.toNat ≤
      w.options_.max_total_bytes.toNat) : w.enforce_total_limit reserve = w := by
  unfold enforce_total_limit
  split
  · rfl
  · have hguard : UInt64.ofNat (w.segment_bytes_ + finishedBytes w.files) + reserve ≤
        w.options_.max_total_bytes := (ofNat_add_le_iff (h.trans_lt (UInt64.toNat_lt _))).mpr h
    -- the first comparison of the loop stops it, with nothing deleted
    have hstop : ∀ names total (acc : Files × Nat),
        total + reserve ≤ w.options_.max_total_bytes →
          delete_segments w.options_.max_total_bytes reserve names total acc = acc := by
      intro names total acc hfits
      cases names with
      | nil => rfl
      | cons name rest => rw [delete_segments, if_pos hfits]
    dsimp only
    rw [total_eq, totalBytes_finishedByName, hstop _ _ _ hguard]

/-- **The limit is kept**, if the open segment and the reserve fit by themselves and no sum wraps. -/
theorem finishedBytes_enforce_total_limit (hlimit : w.options_.max_total_bytes ≠ 0)
    {reserve : UInt64}
    (hfits : w.segment_bytes_ + finishedBytes w.files + reserve.toNat < 2 ^ 64)
    (h : w.segment_bytes_ + reserve.toNat ≤ w.options_.max_total_bytes.toNat) :
    w.segment_bytes_ + finishedBytes (w.enforce_total_limit reserve).files + reserve.toNat ≤
      w.options_.max_total_bytes.toNat := by
  obtain ⟨files', k, heq, hdeleted⟩ := enforce_total_limit_spec hlimit reserve
  have hle := bytesWithout_le w.files k
  rw [heq]
  dsimp only
  rw [hdeleted.finishedBytes_eq]
  rcases hdeleted.enough with hall | henough
  · -- no finished segment is left
    have hnone : bytesWithout w.files k = 0 := by
      rw [bytesWithout, hall, List.drop_length]
      rfl
    rw [hnone]
    exact h
  · exact (ofNat_add_le_iff (by omega)).mp henough

end SegmentWriter

/-! ## (4) Totals of more than 64 bits -/

/-- **The 64-bit total tells that the limit is kept**: of the totals that are left without the `k`
oldest segments, the first one that is within the limit modulo `2 ^ 64` is within it. -/
def CountsRight (limit : UInt64) (files : Files) : Prop :=
  ∀ k ≤ (finishedByName files).length,
    (∀ j < k, limit < UInt64.ofNat (bytesWithout files j)) →
      UInt64.ofNat (bytesWithout files k) ≤ limit → bytesWithout files k ≤ limit.toNat

/-- Below `2 ^ 64` bytes nothing wraps. -/
theorem countsRight_of_lt {files : Files} (h : finishedBytes files < 2 ^ 64) (limit : UInt64) :
    CountsRight limit files := by
  intro k _ _ hle
  have hlt := (bytesWithout_le files k).trans_lt h
  rwa [UInt64.le_iff_toNat_le, UInt64.toNat_ofNat_of_lt' hlt] at hle

/-- **When applying the limit keeps it**, without an open segment and without a reserve. -/
theorem SegmentWriter.finishedBytes_enforce_total_limit_le_iff {w : SegmentWriter}
    (hlimit : w.options_.max_total_bytes ≠ 0) (hbytes : w.segment_bytes_ = 0) :
    finishedBytes (w.enforce_total_limit 0).files ≤ w.options_.max_total_bytes.toNat ↔
      CountsRight w.options_.max_total_bytes w.files := by
  obtain ⟨files', k, heq, hdeleted⟩ := enforce_total_limit_spec hlimit 0
  have hguard : ∀ j, ¬ UInt64.ofNat (w.segment_bytes_ + bytesWithout w.files j) + 0 ≤
      w.options_.max_total_bytes ↔
        w.options_.max_total_bytes < UInt64.ofNat (bytesWithout w.files j) := by
    intro j
    rw [hbytes, Nat.zero_add, UInt64.add_zero, UInt64.not_le]
  have hneeded : ∀ j < k, w.options_.max_total_bytes < UInt64.ofNat (bytesWithout w.files j) :=
    fun j hj => (hguard j).mp (hdeleted.needed j hj)
  -- nothing at all is within every limit
  have henough : UInt64.ofNat (bytesWithout w.files k) ≤ w.options_.max_total_bytes := by
    rcases hdeleted.enough with hall | henough
    · have hnone : bytesWithout w.files k = 0 := by
        rw [bytesWithout, hall, List.drop_length]
        rfl
      rw [hnone, UInt64.le_iff_toNat_le]
      exact Nat.zero_le _
    · rw [← UInt64.not_lt]
      exact fun hlt => (hguard k).mpr hlt henough
  rw [heq]
  dsimp only
  rw [hdeleted.finishedBytes_eq]
  constructor
  · intro hle j _ hbefore hj
    -- the first total within the limit is the one at which the loop stops
    rcases Nat.lt_trichotomy j k with hlt | rfl | hgt
    · exact absurd hj (UInt64.not_le.mpr (hneeded j hlt))
    · exact hle
    · exact absurd henough (UInt64.not_le.mpr (hbefore k hgt))
  · intro hcounts
    exact hcounts k hdeleted.bound hneeded henough

end Ironpulse.Ingest
