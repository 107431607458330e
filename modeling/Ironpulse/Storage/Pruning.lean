import Ironpulse.Storage.Wal
import Mathlib.Algebra.BigOperators.Group.List.Basic

/-! # Pruning a directory of logs

`WalWriter::prune_older_than` rewrites one directory entry after the other, each through a temporary
beside it. Entries are distinct and a temporary is no log, so every log fares as if it were pruned
alone.

* **`pruned`**, **`counted`**: what becomes of the records of one log, whatever its writes do.
* **`foldl_prune_file`**: a file after the pruning of several entries.
* **`read_all_prune_older_than_under`**: what a pruning leaves of a file. -/

namespace Ironpulse.Storage

open ByteCodec Core

/-- The temporary of a log file is not a log file. -/
theorem extension_tmp (name : String) : extension (name ++ ".tmp") ≠ ".wal" := by
  have hchars : (name ++ ".tmp").toList = name.toList ++ ['.', 't', 'm', 'p'] := by
    rw [String.toList_append]
    rfl
  have hsuffix : ((name ++ ".tmp").toList.reverse.takeWhile (· ≠ '.')).reverse =
      ['t', 'm', 'p'] := by
    rw [hchars, List.reverse_append]
    rfl
  unfold extension
  dsimp only
  rw [hsuffix]
  split
  · decide
  · decide

/-- A log file is not a temporary file. -/
theorem ne_tmp_of_extension {name : String} (hname : extension name = ".wal") :
    ∀ entry, name ≠ entry ++ ".tmp" := by
  rintro entry rfl
  exact extension_tmp entry hname

namespace WalWriter

variable {files : Files} {removed : Nat} {cutoff : Milliseconds} {io : PruneIo}

/-! ## (1) One file -/

/-- The records that pruning leaves in a log file. -/
def pruned (io : PruneIo) (cutoff : Milliseconds) (name : String) (records : List WalRecord) :
    List WalRecord :=
  let kept := records.filter (·.timestamp_ms ≥ cutoff)
  if kept.length = records.length ∨ io.renamed name = false then records
  else
    match io.tmp name with
    | .written => kept
    | .failed => records
    | .lostAtClose bytes => kept.take (bytes / 16)

/-- The records that pruning counts as removed from a log file. -/
def counted (io : PruneIo) (cutoff : Milliseconds) (name : String) (records : List WalRecord) :
    Nat :=
  if io.renamed name = false ∨ io.tmp name = .failed then 0
  else records.length - (records.filter (·.timestamp_ms ≥ cutoff)).length

/-- Without errors, the records from the cutoff on are left. -/
theorem pruned_success (name : String) (records : List WalRecord) :
    pruned {} cutoff name records = records.filter (·.timestamp_ms ≥ cutoff) := by
  unfold pruned
  dsimp only
  split
  · rename_i hsame
    have hlength := hsame.resolve_right (by decide)
    exact (List.filter_eq_self.mpr (List.length_filter_eq_length_iff.mp hlength)).symm
  · rfl

/-- Records take 16 bytes each. -/
theorem length_encodeAll_records (records : List WalRecord) :
    (walRecord.encodeAll records).length = records.length * 16 :=
  walRecord.length_encodeAll records

/-- Of encoded records cut anywhere the whole ones are read. -/
theorem decodeAll_take_encodeAll (records : List WalRecord) (n : Nat) :
    walRecord.decodeAll ((walRecord.encodeAll records).take n) = records.take (n / 16) := by
  have hread := walRecord.decodeAll_of_prefix (List.take_prefix n (walRecord.encodeAll records))
  have hwidth : walRecord.width = 16 := rfl
  rw [hread, List.length_take, length_encodeAll_records, hwidth]
  by_cases hall : n ≤ records.length * 16
  · rw [Nat.min_eq_left hall]
  · rw [Nat.min_eq_right (by omega), Nat.mul_div_cancel _ (by decide), List.take_length,
      List.take_of_length_le (by omega)]

/-- Other files than the pruned one and its temporary keep their bytes. -/
theorem content_prune_file_of_ne {name other : String} (htmp : other ≠ name ++ ".tmp")
    (h : other ≠ name) :
    (prune_file io cutoff (files, removed) name).1.content other = files.content other := by
  unfold prune_file
  dsimp only
  split
  · rfl
  · split
    · rfl
    · split
      · exact Files.content_erase_of_ne htmp
      · split
        · exact (Files.content_insert_of_ne h).trans (Files.content_erase_of_ne htmp)
        · exact Files.content_insert_of_ne htmp

/-- **What pruning a log file does to it**, whatever becomes of its temporary. -/
theorem read_all_prune_file {name : String} (hname : extension name = ".wal") :
    read_all (prune_file io cutoff (files, removed) name).1 name =
      pruned io cutoff name (read_all files name) := by
  have htmp := ne_tmp_of_extension hname name
  unfold prune_file pruned
  dsimp only
  rw [if_neg (not_not_intro hname)]
  by_cases hsame : ((read_all files name).filter (·.timestamp_ms ≥ cutoff)).length =
      (read_all files name).length
  · rw [if_pos hsame, if_pos (.inl hsame)]
  · rw [if_neg hsame]
    cases hrenamed : io.renamed name with
    | false =>
        rw [if_pos (.inr rfl)]
        -- only the temporary changes
        cases io.tmp name with
        | written => exact congrArg _ (Files.content_insert_of_ne htmp)
        | failed => exact congrArg _ (Files.content_erase_of_ne htmp)
        | lostAtClose bytes => exact congrArg _ (Files.content_insert_of_ne htmp)
    | true =>
        rw [if_neg (not_or.mpr ⟨hsame, Bool.noConfusion⟩)]
        cases io.tmp name with
        | written =>
            dsimp only
            rw [if_pos rfl, read_all, Files.content_insert, walRecord.decodeAll_encodeAll]
        | failed => exact congrArg _ (Files.content_erase_of_ne htmp)
        | lostAtClose bytes =>
            dsimp only
            rw [if_pos rfl, read_all, Files.content_insert, decodeAll_take_encodeAll]

/-- Another directory entry is left alone. -/
theorem prune_file_of_extension_ne {name : String} (hname : extension name ≠ ".wal") :
    prune_file io cutoff (files, removed) name = (files, removed) := by
  unfold prune_file
  exact if_pos hname

/-- Pruning a file counts the records it removes. -/
theorem counted_prune_file {name : String} (hname : extension name = ".wal") :
    (prune_file io cutoff (files, removed) name).2 =
      removed + counted io cutoff name (read_all files name) := by
  unfold prune_file counted
  dsimp only
  rw [if_neg (not_not_intro hname)]
  by_cases hsame : ((read_all files name).filter (·.timestamp_ms ≥ cutoff)).length =
      (read_all files name).length
  · -- nothing is too old: the file is left alone and nothing counted
    rw [if_pos hsame, hsame, Nat.sub_self, ite_self]
    rfl
  · rw [if_neg hsame]
    -- something is: it counts unless the rewrite or the rename fails
    cases io.renamed name with
    | false =>
        rw [if_pos (.inl rfl)]
        cases io.tmp name <;> rfl
    | true => cases io.tmp name <;> rfl

/-! ## (2) A directory -/

/-- **What pruning distinct entries does to a file** that is not a temporary is what pruning its own
entry does; `view` is what is looked at of its bytes. -/
theorem foldl_prune_file {α : Type} {name : String} {view : List UInt8 → α} {after : α → α}
    (htmp : ∀ entry, name ≠ entry ++ ".tmp")
    (hafter : ∀ files removed, view ((prune_file io cutoff (files, removed) name).1.content name) =
      after (view (files.content name)))
    (entries : List String) (hnodup : entries.Nodup) (state : Files × Nat) :
    view ((entries.foldl (prune_file io cutoff) state).1.content name) =
      if name ∈ entries then after (view (state.1.content name))
      else view (state.1.content name) := by
  induction entries generalizing state with
  | nil => rw [List.foldl_nil, if_neg List.not_mem_nil]
  | cons entry entries ih =>
      obtain ⟨hfresh, hnodup⟩ := List.nodup_cons.mp hnodup
      obtain ⟨files, removed⟩ := state
      rw [List.foldl_cons, ih hnodup]
      by_cases h : name = entry
      · subst h
        -- the file's own turn: no later entry is the same file
        rw [if_neg hfresh, if_pos List.mem_cons_self, hafter]
      · rw [content_prune_file_of_ne (htmp entry) h]
        -- another entry's turn leaves this file alone
        simp only [List.mem_cons, h, false_or]

/-- The log files of a directory. -/
def logFiles (files : Files) : List String := files.keys.filter (extension · = ".wal")

/-- None of the log files is a temporary file. -/
theorem ne_tmp_of_mem_logFiles {name : String} (h : name ∈ logFiles files) :
    ∀ entry, name ≠ entry ++ ".tmp" :=
  ne_tmp_of_extension (of_decide_eq_true (List.mem_filter.mp h).2)

/-- What a pruning leaves of a file that is not a temporary. -/
theorem read_all_prune_older_than_under (w : WalWriter) (io : PruneIo) (now : TimePoint)
    (max_age : Milliseconds) {name : String} (htmp : ∀ entry, name ≠ entry ++ ".tmp") :
    read_all (w.prune_older_than io now max_age).1.files name =
      if name ∈ logFiles (w.flush_all io.flush).files then
        pruned io (cutoff_ms now max_age) name (read_all (w.flush_all io.flush).files name)
      else read_all (w.flush_all io.flush).files name := by
  have hmem : name ∈ logFiles (w.flush_all io.flush).files ↔
      name ∈ (w.flush_all io.flush).files.keys ∧ extension name = ".wal" := by
    rw [logFiles, List.mem_filter, decide_eq_true_iff]
  by_cases hname : extension name = ".wal"
  · have hfold := @foldl_prune_file (cutoff_ms now max_age) io _ name walRecord.decodeAll _ htmp
      (fun _ _ => read_all_prune_file hname) _
      (w.flush_all io.flush).files.keys_nodup ((w.flush_all io.flush).files, 0)
    exact hfold.trans (if_congr (hmem.trans (and_iff_left hname)).symm rfl rfl)
  · rw [if_neg fun h => hname (hmem.mp h).2]
    -- a file that is no log is left alone at its own turn, too
    have hskip := @foldl_prune_file (cutoff_ms now max_age) io _ name walRecord.decodeAll id htmp
      (fun _ _ => by rw [prune_file_of_extension_ne hname]; rfl) _
      (w.flush_all io.flush).files.keys_nodup ((w.flush_all io.flush).files, 0)
    exact hskip.trans (ite_self _)

/-- The number that pruning distinct entries returns: of every log, the records counted as removed. -/
theorem counted_foldl_prune_file (entries : List String) (hnodup : entries.Nodup)
    (state : Files × Nat) :
    (entries.foldl (prune_file io cutoff) state).2 =
      state.2 + ((entries.filter (extension · = ".wal")).map fun entry =>
        counted io cutoff entry (read_all state.1 entry)).sum := by
  induction entries generalizing state with
  | nil => rfl
  | cons entry entries ih =>
      obtain ⟨hfresh, hnodup⟩ := List.nodup_cons.mp hnodup
      obtain ⟨files, removed⟩ := state
      rw [List.foldl_cons, ih hnodup]
      by_cases hentry : extension entry = ".wal"
      · -- pruning the first file leaves the others as they are
        have hothers : ((entries.filter (extension · = ".wal")).map fun other =>
              counted io cutoff other
                (read_all (prune_file io cutoff (files, removed) entry).1 other)) =
            (entries.filter (extension · = ".wal")).map fun other =>
              counted io cutoff other (read_all files other) := by
          refine List.map_congr_left fun other hother => ?_
          obtain ⟨hmem, hwal⟩ := List.mem_filter.mp hother
          have hne : other ≠ entry := by
            rintro rfl
            exact hfresh hmem
          rw [read_all, content_prune_file_of_ne
            (ne_tmp_of_extension (of_decide_eq_true hwal) entry) hne, read_all]
        rw [hothers, counted_prune_file hentry, List.filter_cons_of_pos (by simpa using hentry),
          List.map_cons, List.sum_cons, Nat.add_assoc]
      · rw [prune_file_of_extension_ne hentry, List.filter_cons_of_neg (by simpa using hentry)]

end WalWriter

end Ironpulse.Storage
