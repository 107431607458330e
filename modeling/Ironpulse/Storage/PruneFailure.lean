import Ironpulse.Storage.Pruning

/-! # Pruning under write errors

`prune_older_than` checks the stream of a temporary before the stream is closed. What the stream still
buffers is written when it closes, and an error of that write is not seen: the rename then replaces a
log by a temporary that misses some of its end.

* **`PruneAtomic`**: every log holds what it held or what is young enough of it, and the count is that
  of the records removed.
* **`pruneAtomic_iff`**: when this is so. -/

namespace Ironpulse.Storage

open ByteCodec Core

namespace WalWriter

variable {cutoff : Milliseconds} {io : PruneIo}

/-- **Pruning is atomic**: every file but the temporaries, and so the log of every sensor, holds what
it held after the buffers were flushed or what is young enough of it, and the number of records
removed is returned. -/
structure PruneAtomic (w : WalWriter) (io : PruneIo) (now : TimePoint) (max_age : Milliseconds) :
    Prop where
  whole_or_pruned : ∀ name, (∀ entry, name ≠ entry ++ ".tmp") →
    read_all (w.prune_older_than io now max_age).1.files name =
        read_all (w.flush_all io.flush).files name ∨
      read_all (w.prune_older_than io now max_age).1.files name =
        (read_all (w.flush_all io.flush).files name).filter
          (·.timestamp_ms ≥ cutoff_ms now max_age)
  count : (w.prune_older_than io now max_age).2 +
      ((logFiles (w.flush_all io.flush).files).map fun name =>
        (read_all (w.prune_older_than io now max_age).1.files name).length).sum =
    ((logFiles (w.flush_all io.flush).files).map fun name =>
      (read_all (w.flush_all io.flush).files name).length).sum

/-- A rewritten log that replaces the old one loses nothing when its stream is closed. -/
def KeptAtClose (io : PruneIo) (cutoff : Milliseconds) (name : String)
    (records : List WalRecord) : Prop :=
  let kept := records.filter (·.timestamp_ms ≥ cutoff)
  kept.length ≠ records.length → io.renamed name = true →
    ∀ bytes, io.tmp name = .lostAtClose bytes → (walRecord.encodeAll kept).length ≤ bytes

variable {name : String} {records : List WalRecord}

/-- A pruned file is as it was or has exactly the records that are young enough, and the count says
which. -/
theorem pruned_of_keptAtClose (h : KeptAtClose io cutoff name records) :
    (pruned io cutoff name records = records ∨
        pruned io cutoff name records = records.filter (·.timestamp_ms ≥ cutoff)) ∧
      counted io cutoff name records + (pruned io cutoff name records).length =
        records.length := by
  have hle := List.length_filter_le (·.timestamp_ms ≥ cutoff) records
  unfold pruned counted
  dsimp only
  by_cases hsame : (records.filter (·.timestamp_ms ≥ cutoff)).length = records.length
  · rw [if_pos (.inl hsame), hsame, Nat.sub_self, ite_self, Nat.zero_add]
    exact ⟨.inl rfl, rfl⟩
  · cases hrenamed : io.renamed name with
    | false =>
        rw [if_pos (.inr rfl), if_pos (.inl rfl), Nat.zero_add]
        exact ⟨.inl rfl, rfl⟩
    | true =>
        rw [if_neg (not_or.mpr ⟨hsame, Bool.noConfusion⟩)]
        cases htmp : io.tmp name with
        | written =>
            refine ⟨.inr rfl, ?_⟩
            rw [if_neg (by decide)]
            exact Nat.sub_add_cancel hle
        | failed =>
            rw [if_pos (.inr rfl), Nat.zero_add]
            exact ⟨.inl rfl, rfl⟩
        | lostAtClose bytes =>
            -- the only outcome that the rename does not see
            have hall := h hsame hrenamed bytes htmp
            rw [length_encodeAll_records] at hall
            dsimp only
            rw [List.take_of_length_le (by omega), if_neg (by simp)]
            exact ⟨.inr rfl, Nat.sub_add_cancel hle⟩

/-- **What is lost at the close is missed**: the log holds fewer records than are young enough. -/
theorem pruned_of_not_keptAtClose (h : ¬ KeptAtClose io cutoff name records) :
    pruned io cutoff name records ≠ records ∧
      pruned io cutoff name records ≠ records.filter (·.timestamp_ms ≥ cutoff) := by
  have hle := List.length_filter_le (·.timestamp_ms ≥ cutoff) records
  simp only [KeptAtClose, Classical.not_imp, not_forall] at h
  obtain ⟨hsame, hrenamed, bytes, htmp, hshort⟩ := h
  rw [length_encodeAll_records] at hshort
  -- the rewrite is in place, cut short of the records that the filter keeps
  have hpruned : pruned io cutoff name records =
      (records.filter (·.timestamp_ms ≥ cutoff)).take (bytes / 16) := by
    unfold pruned
    dsimp only
    rw [if_neg (not_or.mpr ⟨hsame, by rw [hrenamed]; decide⟩), htmp]
  have hfewer : (pruned io cutoff name records).length <
      (records.filter (·.timestamp_ms ≥ cutoff)).length := by
    rw [hpruned, List.length_take]
    omega
  constructor
  · -- not the log as it was: the filter alone cannot make it shorter than the cut does
    intro heq
    rw [heq] at hfewer
    omega
  · -- not the pruned log either: some record that should stay is missing
    intro heq
    rw [heq] at hfewer
    omega

/-- **When pruning is atomic under write errors**: exactly if no rewritten log that replaces an old
one loses bytes when its stream is closed. -/
theorem pruneAtomic_iff (w : WalWriter) (io : PruneIo) (now : TimePoint) (max_age : Milliseconds) :
    PruneAtomic w io now max_age ↔
      ∀ name ∈ logFiles (w.flush_all io.flush).files,
        KeptAtClose io (cutoff_ms now max_age) name
          (read_all (w.flush_all io.flush).files name) := by
  constructor
  · intro h name hname
    -- a log that fails the condition is neither whole nor pruned, and the read shows it
    by_contra hlost
    obtain ⟨hwhole, hyoung⟩ := pruned_of_not_keptAtClose hlost
    have hread := read_all_prune_older_than_under w io now max_age (ne_tmp_of_mem_logFiles hname)
    rw [if_pos hname] at hread
    rcases h.whole_or_pruned name (ne_tmp_of_mem_logFiles hname) with heq | heq
    · exact hwhole (hread.symm.trans heq)
    · exact hyoung (hread.symm.trans heq)
  · intro h
    constructor
    · intro name htmp
      rw [read_all_prune_older_than_under w io now max_age htmp]
      split
      · rename_i hname
        exact (pruned_of_keptAtClose (h name hname)).1
      · exact .inl rfl
    · have hcount := @counted_foldl_prune_file (cutoff_ms now max_age) io
        (w.flush_all io.flush).files.keys (w.flush_all io.flush).files.keys_nodup
        ((w.flush_all io.flush).files, 0)
      -- the count adds up over the directory, one log at a time
      have hreturned : (w.prune_older_than io now max_age).2 =
          ((logFiles (w.flush_all io.flush).files).map fun name =>
            counted io (cutoff_ms now max_age) name
              (read_all (w.flush_all io.flush).files name)).sum := hcount.trans (Nat.zero_add _)
      rw [hreturned, ← List.sum_map_add]
      congr 1
      refine List.map_congr_left fun name hname => ?_
      rw [read_all_prune_older_than_under w io now max_age (ne_tmp_of_mem_logFiles hname),
        if_pos hname]
      exact (pruned_of_keptAtClose (h name hname)).2

/-- A log with an old and a young record. -/
def oldAndYoung : WalWriter where
  files := (∅ : Files).insert "winding_temp.wal"
    (walRecord.encodeAll
      [{ timestamp_ms := 0, value := 1 }, { timestamp_ms := 1700000000000, value := 2 }])

/-- A pruning whose buffered bytes cannot be written when the temporary is closed. -/
def closeFails : PruneIo where
  tmp _ := .lostAtClose 0

/-- **A log is lost with its temporary**: the young record is gone and is not counted. -/
theorem not_pruneAtomic_closeFails :
    ¬ PruneAtomic oldAndYoung closeFails 1700000001000000000 3600000 := by
  intro h
  have hname : ∀ entry, "winding_temp.wal" ≠ entry ++ ".tmp" := by
    rintro entry heq
    exact extension_tmp entry (heq ▸ (by decide : extension "winding_temp.wal" = ".wal"))
  rcases h.whole_or_pruned "winding_temp.wal" hname with heq | heq
  · revert heq
    decide
  · revert heq
    decide

end WalWriter

end Ironpulse.Storage
