import Mathlib.Algebra.BigOperators.Group.Finset.Basic
import Ironpulse.Core.Config
import Ironpulse.Storage.Retention

/-! # The write-ahead log is a faithful log of each sensor

* **`Logged`, `survivors`**: what a sensor's log should hold after any calls, in exact integers.
* **`Represents`**: a writer whose files and buffers hold these logs, kept by every call.
* **`read_since_eq_survivors`**: what a writer returns and removes after any calls. -/

namespace Ironpulse.Storage

open ByteCodec Core

/-! ## (1) What should be logged -/

/-- A logged record: milliseconds since the epoch and the 64 bits of a `double`. -/
@[ext] structure Logged where
  ms : Int
  value : UInt64
  deriving DecidableEq

/-- What a record on disk says. -/
def WalRecord.logged (record : WalRecord) : Logged := ⟨record.timestamp_ms.toInt, record.value⟩

/-- Nanoseconds truncated to milliseconds. -/
def truncate_ms (ns : Int) : Int := ns.tdiv 1000000

/-- Truncated nanoseconds fit when the nanoseconds do. -/
theorem truncate_ms_fits {ns : Int} (hlo : -2 ^ 63 ≤ ns) (hhi : ns < 2 ^ 63) :
    -2 ^ 63 ≤ truncate_ms ns * 1000000 ∧ truncate_ms ns * 1000000 < 2 ^ 63 := by
  unfold truncate_ms
  by_cases hns : 0 ≤ ns
  · rw [Int.tdiv_eq_ediv_of_nonneg hns]
    omega
  · have hneg : ns.tdiv 1000000 = -(-ns / 1000000) := by
      rw [← Int.tdiv_eq_ediv_of_nonneg (by omega : 0 ≤ -ns), Int.neg_tdiv, Int.neg_neg]
    rw [hneg]
    omega

/-- A call on a writer, `prune_older_than` with the time at which it runs. -/
inductive Call where
  | append (sensor_id : String) (value : UInt64) (timestamp : TimePoint)
  | flush_all
  | read_since (sensor_id : String) (since : TimePoint)
  | prune_older_than (now : TimePoint) (max_age : Milliseconds)
  deriving DecidableEq

/-- The cutoff of a pruning. -/
def exact_cutoff (now : TimePoint) (max_age : Milliseconds) : Int :=
  truncate_ms (now.toInt - max_age.toInt * 1000000)

/-- The call is a pruning whose cutoff the record lies before. -/
def Call.Drops (entry : Logged) : Call → Prop
  | .prune_older_than now max_age => entry.ms < exact_cutoff now max_age
  | _ => False

instance (entry : Logged) : DecidablePred (Call.Drops entry)
  | .append _ _ _ | .flush_all | .read_since _ _ => inferInstanceAs (Decidable False)
  | .prune_older_than now max_age =>
      inferInstanceAs (Decidable (entry.ms < exact_cutoff now max_age))

/-- The records that were appended for a sensor and that no later pruning dropped, in order. -/
def survivors (sensor_id : String) : List Call → List Logged
  | [] => []
  | .append id value timestamp :: calls =>
      let entry : Logged := ⟨truncate_ms timestamp.toInt, value⟩
      if id = sensor_id ∧ ∀ call ∈ calls, ¬ call.Drops entry then
        entry :: survivors sensor_id calls
      else survivors sensor_id calls
  | _ :: calls => survivors sensor_id calls

/-- The sensors that a call names are among `sensors`. -/
def Call.Uses (sensors : List String) : Call → Prop
  | .append id _ _ | .read_since id _ => id ∈ sensors
  | .flush_all | .prune_older_than _ _ => True

/-- The age and the cutoff of a pruning are within 64-bit nanoseconds. -/
def Call.InRange : Call → Prop
  | .prune_older_than now max_age =>
      (-2 ^ 63 ≤ max_age.toInt * 1000000 ∧ max_age.toInt * 1000000 < 2 ^ 63) ∧
        -2 ^ 63 ≤ now.toInt - max_age.toInt * 1000000 ∧
        now.toInt - max_age.toInt * 1000000 < 2 ^ 63
  | _ => True

section Survivors

variable {sensor_id : String} {calls : List Call}

/-- One more call: the survivors that it does not drop, and what it appends. -/
theorem survivors_concat (call : Call) :
    survivors sensor_id (calls ++ [call]) =
      (survivors sensor_id calls).filter (fun entry => ¬ call.Drops entry) ++
        survivors sensor_id [call] := by
  induction calls with
  | nil => rfl
  | cons first calls ih =>
      cases first with
      -- the first append survives the longer list when no call of it drops the entry
      | append id value timestamp =>
          let entry : Logged := ⟨truncate_ms timestamp.toInt, value⟩
          have hmem : (id = sensor_id ∧ ∀ c ∈ calls ++ [call], ¬ c.Drops entry) ↔
              (id = sensor_id ∧ ∀ c ∈ calls, ¬ c.Drops entry) ∧ ¬ call.Drops entry := by
            rw [List.forall_mem_append, List.forall_mem_singleton, and_assoc]
          rw [List.cons_append, survivors, survivors, ih]
          by_cases hkept : id = sensor_id ∧ ∀ c ∈ calls, ¬ c.Drops entry
          · -- it survived so far: the new call decides
            rw [if_pos hkept]
            by_cases hcall : call.Drops entry
            · rw [if_neg fun h => (hmem.mp h).2 hcall,
                List.filter_cons_of_neg (by rwa [decide_eq_true_iff, not_not])]
            · rw [if_pos (hmem.mpr ⟨hkept, hcall⟩),
                List.filter_cons_of_pos (by rwa [decide_eq_true_iff]), List.cons_append]
          · -- it had been dropped already
            rw [if_neg hkept, if_neg fun h => hkept (hmem.mp h).1]
      | flush_all => exact ih
      | read_since id since => exact ih
      | prune_older_than now max_age => exact ih

/-- An append puts a record behind the log of its sensor. -/
theorem survivors_concat_append (id : String) (value : UInt64) (timestamp : TimePoint) :
    survivors sensor_id (calls ++ [.append id value timestamp]) =
      if id = sensor_id then
        survivors sensor_id calls ++ [⟨truncate_ms timestamp.toInt, value⟩]
      else survivors sensor_id calls := by
  rw [survivors_concat]
  by_cases hid : id = sensor_id
  · simp [survivors, Call.Drops, hid]
  · simp [survivors, Call.Drops, hid]

/-- Flushing loses no record. -/
@[simp] theorem survivors_concat_flush_all :
    survivors sensor_id (calls ++ [.flush_all]) = survivors sensor_id calls := by
  rw [survivors_concat]
  simp [survivors, Call.Drops]

/-- Reading loses no record. -/
@[simp] theorem survivors_concat_read_since (id : String) (since : TimePoint) :
    survivors sensor_id (calls ++ [.read_since id since]) = survivors sensor_id calls := by
  rw [survivors_concat]
  simp [survivors, Call.Drops]

/-- **A pruning drops exactly the records before its cutoff.** -/
theorem survivors_concat_prune (now : TimePoint) (max_age : Milliseconds) :
    survivors sensor_id (calls ++ [.prune_older_than now max_age]) =
      (survivors sensor_id calls).filter fun entry => exact_cutoff now max_age ≤ entry.ms := by
  rw [survivors_concat]
  simp [survivors, Call.Drops]

/-- A surviving record has the timestamp of some call, so it fits 64-bit nanoseconds. -/
theorem exists_of_mem_survivors {entry : Logged} (h : entry ∈ survivors sensor_id calls) :
    ∃ timestamp : TimePoint, entry.ms = truncate_ms timestamp.toInt := by
  induction calls with
  | nil => cases h
  | cons call calls ih =>
      cases call with
      | append id value timestamp =>
          rw [survivors] at h
          split at h
          · rcases List.mem_cons.mp h with rfl | h
            · exact ⟨timestamp, rfl⟩
            · exact ih h
          · exact ih h
      | flush_all => exact ih h
      | read_since id since => exact ih h
      | prune_older_than now max_age => exact ih h

end Survivors

/-! ## (2) Files of whole records -/

/-- A sensor's file has the extension of a log file unless its name is empty. -/
theorem extension_file_for {sensor_id : String} (h : sensor_id ≠ "") :
    extension (file_for sensor_id) = ".wal" := by
  have hchars : (file_for sensor_id).toList = sensor_id.toList ++ ['.', 'w', 'a', 'l'] := by
    rw [file_for, String.toList_append]
    rfl
  -- the part behind the last dot, read from the end of the name
  have hsuffix : ((file_for sensor_id).toList.reverse.takeWhile (· ≠ '.')).reverse =
      ['w', 'a', 'l'] := by
    rw [hchars, List.reverse_append]
    rfl
  have hpos : 0 < sensor_id.toList.length := by
    rw [List.length_pos_iff]
    exact fun hnil => h (String.toList_inj.mp hnil)
  have hlength : (file_for sensor_id).toList.length = sensor_id.toList.length + 4 := by
    rw [hchars, List.length_append]
    rfl
  unfold extension
  dsimp only
  rw [hsuffix, if_neg]
  rintro (hdots | hshort)
  · -- the two exceptions of `extension` are names of at most three characters
    rw [hdots] at hlength
    have htwo : (String.toList "..").length = 2 := rfl
    omega
  · have hthree : ['w', 'a', 'l'].length = 3 := rfl
    omega

namespace WalWriter

variable {files : Files} {removed : Nat} {cutoff : Milliseconds}

/-- The bytes that a pruning leaves of a file. -/
def kept_bytes (cutoff : Milliseconds) (name : String) (bytes : List UInt8) : List UInt8 :=
  if extension name ≠ ".wal" then bytes
  else
    let records := walRecord.decodeAll bytes
    let kept := records.filter (·.timestamp_ms ≥ cutoff)
    if kept.length = records.length then bytes else walRecord.encodeAll kept

/-- Nothing is kept of an empty file. -/
@[simp] theorem kept_bytes_nil (cutoff : Milliseconds) (name : String) :
    kept_bytes cutoff name [] = [] := by
  unfold kept_bytes
  split
  · rfl
  · exact if_pos rfl

/-- Of a log file of whole records, the records from the cutoff on. -/
theorem kept_bytes_encodeAll {name : String} (hname : extension name = ".wal")
    (records : List WalRecord) :
    kept_bytes cutoff name (walRecord.encodeAll records) =
      walRecord.encodeAll (records.filter (·.timestamp_ms ≥ cutoff)) := by
  unfold kept_bytes
  dsimp only
  rw [if_neg (not_not_intro hname), walRecord.decodeAll_encodeAll]
  split
  · rename_i hlength
    rw [List.filter_eq_self.mpr (List.length_filter_eq_length_iff.mp hlength)]
  · rfl

/-- A pruned file keeps the bytes of the records that are young enough. -/
theorem content_prune_file (name : String) :
    (prune_file {} cutoff (files, removed) name).1.content name =
      kept_bytes cutoff name (files.content name) := by
  unfold prune_file kept_bytes
  dsimp only [read_all]
  split
  · rfl
  · split
    · rfl
    · rw [if_pos rfl, Files.content_insert]

/-- Each record is either removed or kept. -/
theorem countP_add_length_filter (records : List WalRecord) (cutoff : Milliseconds) :
    records.countP (·.timestamp_ms < cutoff) +
      (records.filter (·.timestamp_ms ≥ cutoff)).length = records.length := by
  have hdropped : (fun r : WalRecord => decide (r.timestamp_ms < cutoff)) =
      fun r => decide (¬ decide (r.timestamp_ms ≥ cutoff) = true) := by
    funext r
    rw [decide_eq_decide, decide_eq_true_iff]
    exact Int64.not_le.symm
  rw [hdropped, ← List.countP_eq_length_filter, Nat.add_comm]
  exact (List.length_eq_countP_add_countP _).symm

/-- Without errors, the records before the cutoff are counted. -/
theorem counted_success (name : String) (records : List WalRecord) :
    counted {} cutoff name records = records.countP (·.timestamp_ms < cutoff) := by
  have hsplit := countP_add_length_filter records cutoff
  have hall : counted {} cutoff name records =
      records.length - (records.filter (·.timestamp_ms ≥ cutoff)).length :=
    if_neg (by rintro (h | h) <;> cases h)
  omega

/-- Pruning makes no new log file. -/
theorem keys_prune_file {name other : String}
    (h : other ∈ (prune_file {} cutoff (files, removed) name).1.keys) :
    other = name ∨ other ∈ files.keys := by
  unfold prune_file at h
  dsimp only at h
  split at h
  · exact .inr h
  · split at h
    · exact .inr h
    · rw [if_pos rfl, AList.keys_insert, AList.keys_erase] at h
      rcases List.mem_cons.mp h with rfl | h
      · exact .inl rfl
      · exact .inr (List.mem_of_mem_erase (List.mem_of_mem_erase h))

/-- Pruning some directory entries creates no other file. -/
theorem keys_foldl_prune_file {entries : List String} {state : Files × Nat} {other : String}
    (h : other ∈ (entries.foldl (prune_file {} cutoff) state).1.keys) :
    other ∈ entries ∨ other ∈ state.1.keys := by
  induction entries generalizing state with
  | nil => exact .inr h
  | cons entry entries ih =>
      rcases ih h with hmem | hmem
      · exact .inl (List.mem_cons_of_mem _ hmem)
      · rcases keys_prune_file hmem with rfl | hmem
        · exact .inl List.mem_cons_self
        · exact .inr hmem

/-- The number of records that pruning some log files removes. -/
theorem removed_foldl_prune_file (entries : List String) (hnodup : entries.Nodup)
    (hentries : ∀ entry ∈ entries, extension entry = ".wal") (state : Files × Nat) :
    (entries.foldl (prune_file {} cutoff) state).2 =
      state.2 + (entries.map fun entry =>
        (read_all state.1 entry).countP (·.timestamp_ms < cutoff)).sum := by
  have hlogs : entries.filter (extension · = ".wal") = entries :=
    List.filter_eq_self.mpr fun entry hentry => decide_eq_true (hentries entry hentry)
  rw [counted_foldl_prune_file entries hnodup, hlogs]
  simp only [counted_success]

/-- The file of a sensor is not a temporary. -/
theorem file_for_ne_tmp (sensor_id name : String) : file_for sensor_id ≠ name ++ ".tmp" := by
  intro h
  have hlast := congrArg (fun s : String => s.toList.getLast?) h
  simp only [file_for, String.toList_append] at hlast
  rw [List.getLast?_append, List.getLast?_append] at hlast
  have hwal : (".wal" : String).toList.getLast? = some 'l' := by decide
  have htmp : (".tmp" : String).toList.getLast? = some 'p' := by decide
  rw [hwal, htmp, Option.some_or, Option.some_or, Option.some.injEq] at hlast
  revert hlast
  decide

/-- **A pruning in terms of what is recorded**: the buffer is flushed and the file rewritten. -/
theorem recorded_prune_older_than (w : WalWriter) (now : TimePoint) (max_age : Milliseconds)
    (s : String) :
    (w.prune_older_than {} now max_age).1.recorded s =
      kept_bytes (cutoff_ms now max_age) (file_for s) (w.recorded s) := by
  have hbuffer : (w.prune_older_than {} now max_age).1.buffer s = [] :=
    buffer_flush_all Io.success s
  have hflushed : (w.flush_all Io.success).files.content (file_for s) = w.recorded s := by
    rw [← recorded_of_buffer_nil (buffer_flush_all Io.success s), recorded_flush_all]
  have hfold := @foldl_prune_file (cutoff_ms now max_age) {} _ (file_for s) id _
    (file_for_ne_tmp s) (fun _ _ => content_prune_file (file_for s)) _
    (w.flush_all Io.success).files.keys_nodup ((w.flush_all Io.success).files, 0)
  simp only [id] at hfold
  rw [recorded_of_buffer_nil hbuffer, ← hflushed]
  refine hfold.trans ?_
  -- the log is pruned if it is there; a sensor without a log has nothing recorded
  by_cases hmem : file_for s ∈ (w.flush_all Io.success).files.keys
  · exact if_pos hmem
  · rw [if_neg hmem, Files.content_of_not_mem hmem, kept_bytes_nil]

end WalWriter

/-! ## (3) The writer refines the log -/

open WalWriter

/-- A writer whose files and buffers hold the logs of `sensors`, and nothing else. -/
structure Represents (sensors : List String) (log : String → List Logged) (w : WalWriter) :
    Prop where
  recorded : ∀ s ∈ sensors, ∃ records : List WalRecord,
    w.recorded s = walRecord.encodeAll records ∧ records.map WalRecord.logged = log s
  files : ∀ name ∈ w.files.keys, ∃ s ∈ sensors, name = file_for s
  pending : ∀ s ∈ w.pending_.keys, s ∈ sensors

namespace WalWriter

/-- The effect of a call, with all file operations succeeding. -/
def call (w : WalWriter) : Call → WalWriter
  | .append sensor_id value timestamp => w.append Io.success sensor_id value timestamp
  | .flush_all => w.flush_all Io.success
  | .read_since sensor_id since => (w.read_since Io.success sensor_id since).1
  | .prune_older_than now max_age => (w.prune_older_than {} now max_age).1

/-- A new writer on an empty directory. -/
def create (flush_batch_size : Nat) : WalWriter where
  files := ∅
  flush_batch_size_ := flush_batch_size

end WalWriter

section Refinement

variable {sensors : List String} {log : String → List Logged} {w : WalWriter}

/-- A new writer represents empty logs. -/
theorem represents_create (sensors : List String) (flush_batch_size : Nat) :
    Represents sensors (fun _ => []) (create flush_batch_size) where
  recorded := fun _ _ => ⟨[], rfl, rfl⟩
  files := fun _ h => absurd h List.not_mem_nil
  pending := fun _ h => absurd h List.not_mem_nil

/-- A flush represents the same logs. -/
theorem represents_flush_locked (h : Represents sensors log w) {a : String} (ha : a ∈ sensors) :
    Represents sensors log (w.flush_locked Io.success a) where
  recorded := by
    intro s hs
    rw [recorded_flush_locked]
    exact h.recorded s hs
  files := by
    intro name hname
    rw [flush_locked, Io.success, Files.append, AList.keys_insert] at hname
    rcases List.mem_cons.mp hname with rfl | hname
    · exact ⟨a, ha, rfl⟩
    · exact h.files name (List.mem_of_mem_erase hname)
  pending := by
    intro s hs
    rw [flush_locked, AList.keys_insert] at hs
    rcases List.mem_cons.mp hs with rfl | hs
    · exact ha
    · exact h.pending s (List.mem_of_mem_erase hs)

/-- So does a flush that looks first whether anything is pending. -/
theorem represents_flush_pending (h : Represents sensors log w) {a : String} (ha : a ∈ sensors) :
    Represents sensors log (w.flush_pending Io.success a) := by
  unfold flush_pending
  split
  · exact h
  · exact represents_flush_locked h ha

/-- Flushing all sensors represents the same logs. -/
theorem represents_flush_all (h : Represents sensors log w) :
    Represents sensors log (w.flush_all Io.success) := by
  have hfold : ∀ names : List String, (∀ a ∈ names, a ∈ sensors) →
      ∀ w : WalWriter, Represents sensors log w →
        Represents sensors log (names.foldl (fun w a => w.flush_pending Io.success a) w) := by
    intro names
    induction names with
    | nil => exact fun _ _ hw => hw
    | cons a names ih =>
        intro hnames w hw
        obtain ⟨ha, hnames⟩ := List.forall_mem_cons.mp hnames
        exact ih hnames _ (represents_flush_pending hw ha)
  exact hfold _ h.pending w h

/-- **An append** puts a record behind the log of its sensor. -/
theorem represents_append (h : Represents sensors log w) {a : String} (ha : a ∈ sensors)
    (value : UInt64) (timestamp : TimePoint) :
    Represents sensors
      (fun s => if a = s then log s ++ [⟨truncate_ms timestamp.toInt, value⟩] else log s)
      (w.append Io.success a value timestamp) where
  recorded := by
    intro s hs
    obtain ⟨records, hrecorded, hlog⟩ := h.recorded s hs
    rw [recorded_append, hrecorded]
    by_cases hsa : a = s
    · subst hsa
      refine ⟨records ++ [⟨duration_cast_milliseconds timestamp, value⟩], ?_, ?_⟩
      · rw [if_pos rfl, walRecord.encodeAll_append, walRecord.encodeAll_cons,
          walRecord.encodeAll_nil, List.append_nil]
      · rw [if_pos rfl, List.map_append, hlog, List.map_singleton, WalRecord.logged,
          toInt_duration_cast_milliseconds]
        rfl
    · rw [if_neg hsa, if_neg (Ne.symm hsa)]
      exact ⟨records, rfl, hlog⟩
  files := by
    -- only a flush writes a file, and it is the one of the sensor
    intro name hname
    unfold append at hname
    dsimp only at hname
    split at hname
    · rw [flush_locked, Io.success, Files.append, AList.keys_insert] at hname
      rcases List.mem_cons.mp hname with rfl | hname
      · exact ⟨a, ha, rfl⟩
      · exact h.files name (List.mem_of_mem_erase hname)
    · exact h.files name hname
  pending := by
    have hinsert : ∀ (pending : AList fun _ : String => List WalRecord) records s,
        (∀ s ∈ pending.keys, s ∈ sensors) → s ∈ (pending.insert a records).keys → s ∈ sensors := by
      intro pending records s hpending hs
      rw [AList.keys_insert] at hs
      rcases List.mem_cons.mp hs with rfl | hs
      · exact ha
      · exact hpending s (List.mem_of_mem_erase hs)
    intro s hs
    unfold append at hs
    dsimp only at hs
    split at hs
    · exact hinsert _ _ s (fun s hs => hinsert _ _ s h.pending hs) hs
    · exact hinsert _ _ s h.pending hs

/-- A flushed sensor's file holds its log. -/
theorem content_of_represents (h : Represents sensors log w) {s : String} (hs : s ∈ sensors)
    (hbuffer : w.buffer s = []) : ∃ records : List WalRecord,
      w.files.content (file_for s) = walRecord.encodeAll records ∧
        records.map WalRecord.logged = log s := by
  obtain ⟨records, hrecorded, hlog⟩ := h.recorded s hs
  rw [recorded_of_buffer_nil hbuffer] at hrecorded
  exact ⟨records, hrecorded, hlog⟩

/-- **What is read**: the log from the requested millisecond on. -/
theorem read_since_of_represents (h : Represents sensors log w) {s : String} (hs : s ∈ sensors)
    (hfits : ∀ entry ∈ log s, ∃ timestamp : TimePoint, entry.ms = truncate_ms timestamp.toInt)
    (since : TimePoint) :
    (w.read_since Io.success s since).2.map (fun sample => (sample.1.toInt, sample.2)) =
      ((log s).filter (truncate_ms since.toInt ≤ ·.ms)).map
        fun entry => (entry.ms * 1000000, entry.value) := by
  have hbuffer : (w.flush_pending Io.success s).buffer s = [] := by
    rw [buffer_flush_pending, if_pos rfl]
  -- reading flushes first, so the file holds the whole log
  obtain ⟨records, hcontent, hlog⟩ :=
    content_of_represents (represents_flush_pending h hs) hs hbuffer
  have hsince : ∀ r : WalRecord, decide (r.timestamp_ms ≥ duration_cast_milliseconds since) =
      decide (truncate_ms since.toInt ≤ r.logged.ms) := by
    intro r
    rw [decide_eq_decide, ge_iff_le, Int64.le_iff_toInt_le, toInt_duration_cast_milliseconds]
    rfl
  -- in this range no product wraps, so the time comes back exactly
  have hexact : ∀ r ∈ records, ((milliseconds_to_nanoseconds r.timestamp_ms).toInt, r.value) =
      (r.logged.ms * 1000000, r.logged.value) := by
    intro r hr
    obtain ⟨timestamp, hms⟩ := hfits r.logged (hlog ▸ List.mem_map_of_mem hr)
    have hms' : r.timestamp_ms.toInt = truncate_ms timestamp.toInt := hms
    have hfactor : (1000000 : Int64).toInt = 1000000 := by decide
    have hfits := truncate_ms_fits (Int64.le_toInt timestamp) (Int64.toInt_lt timestamp)
    rw [milliseconds_to_nanoseconds, toInt_mul_of_fits, hfactor]
    · rfl
    · rw [hfactor, hms']
      exact hfits.1
    · rw [hfactor, hms']
      exact hfits.2
  rw [read_since, read_all, hcontent, walRecord.decodeAll_encodeAll, ← hlog, List.filter_map,
    List.map_map, List.map_map, List.filter_congr fun r _ => hsince r]
  exact List.map_congr_left fun r hr => hexact r (List.mem_of_mem_filter hr)

/-- The cutoff that the code computes is the exact one. -/
theorem toInt_cutoff_of_inRange {now : TimePoint} {max_age : Milliseconds}
    (h : (Call.prune_older_than now max_age).InRange) :
    (cutoff_ms now max_age).toInt = exact_cutoff now max_age := by
  obtain ⟨⟨hlo, hhi⟩, hlo', hhi'⟩ := h
  have hfactor : (1000000 : Int64).toInt = 1000000 := by decide
  have hage : (milliseconds_to_nanoseconds max_age).toInt = max_age.toInt * 1000000 := by
    rw [milliseconds_to_nanoseconds, toInt_mul_of_fits, hfactor]
    · rwa [hfactor]
    · rwa [hfactor]
  rw [cutoff_ms, toInt_duration_cast_milliseconds, toInt_sub_of_fits, hage]
  · rfl
  · rwa [hage]
  · rwa [hage]

/-- **Pruning** keeps the records that are young enough in each log. -/
theorem represents_prune (h : Represents sensors log w) (hids : ∀ s ∈ sensors, s ≠ "")
    {now : TimePoint} {max_age : Milliseconds}
    (hrange : (Call.prune_older_than now max_age).InRange) :
    Represents sensors (fun s => (log s).filter (exact_cutoff now max_age ≤ ·.ms))
      (w.prune_older_than {} now max_age).1 where
  recorded := by
    intro s hs
    obtain ⟨records, hrecorded, hlog⟩ := h.recorded s hs
    refine ⟨records.filter (·.timestamp_ms ≥ cutoff_ms now max_age), ?_, ?_⟩
    · -- the file and the buffer together hold the records of the filter
      rw [recorded_prune_older_than, hrecorded,
        kept_bytes_encodeAll (extension_file_for (hids s hs))]
    · rw [← hlog, List.filter_map]
      congr 1
      refine List.filter_congr fun r _ => ?_
      rw [Function.comp_apply, decide_eq_decide, ge_iff_le, Int64.le_iff_toInt_le,
        toInt_cutoff_of_inRange hrange]
      rfl
  files := by
    intro name hname
    rcases keys_foldl_prune_file hname with hmem | hmem
    · exact (represents_flush_all h).files name hmem
    · exact (represents_flush_all h).files name hmem
  pending := (represents_flush_all h).pending

/-- **What a pruning returns**: the number of records before the cutoff, over all sensors. -/
theorem removed_of_represents (h : Represents sensors log w) (hnodup : sensors.Nodup)
    (hids : ∀ s ∈ sensors, s ≠ "") {now : TimePoint} {max_age : Milliseconds}
    (hrange : (Call.prune_older_than now max_age).InRange) :
    (w.prune_older_than {} now max_age).2 =
      (sensors.map fun s => (log s).countP (·.ms < exact_cutoff now max_age)).sum := by
  let flushed := (w.flush_all Io.success).files
  let dropped : String → Nat := fun name =>
    (read_all flushed name).countP (·.timestamp_ms < cutoff_ms now max_age)
  have hflushed := represents_flush_all h
  have hcount : (w.prune_older_than {} now max_age).2 = (flushed.keys.map dropped).sum := by
    have hextension : ∀ entry ∈ flushed.keys, extension entry = ".wal" := by
      intro entry hentry
      obtain ⟨s, hs, rfl⟩ := hflushed.files entry hentry
      exact extension_file_for (hids s hs)
    exact (removed_foldl_prune_file _ flushed.keys_nodup hextension _).trans (Nat.zero_add _)
  have hfiles : (sensors.map file_for).Nodup :=
    hnodup.map fun s t heq => file_for_inj.mp heq
  -- a sensor without a file has nothing to drop
  have hsum : (flushed.keys.map dropped).sum = ((sensors.map file_for).map dropped).sum := by
    rw [← List.sum_toFinset dropped flushed.keys_nodup, ← List.sum_toFinset dropped hfiles]
    refine Finset.sum_subset ?_ ?_
    · intro name hname
      obtain ⟨s, hs, rfl⟩ := hflushed.files name (List.mem_toFinset.mp hname)
      exact List.mem_toFinset.mpr (List.mem_map_of_mem hs)
    · intro name _ hname
      have hnone : read_all flushed name = [] := by
        rw [read_all, Files.content_of_not_mem fun hmem => hname (List.mem_toFinset.mpr hmem)]
        rfl
      change (read_all flushed name).countP _ = 0
      rw [hnone, List.countP_nil]
  rw [hcount, hsum, List.map_map]
  congr 1
  refine List.map_congr_left fun s hs => ?_
  obtain ⟨records, hcontent, hlog⟩ :=
    content_of_represents hflushed hs (buffer_flush_all Io.success s)
  have hread : read_all flushed (file_for s) = records := by
    rw [read_all, hcontent, walRecord.decodeAll_encodeAll]
  change (read_all flushed (file_for s)).countP _ = _
  rw [hread, ← hlog, List.countP_map]
  refine List.countP_congr fun r _ => ?_
  rw [decide_eq_true_iff, Function.comp_apply, decide_eq_true_iff, Int64.lt_iff_toInt_lt,
    toInt_cutoff_of_inRange hrange]
  rfl

/-- **Every call keeps the logs.** -/
theorem represents_call (hids : ∀ s ∈ sensors, s ≠ "") {calls : List Call} {call : Call}
    (h : Represents sensors (survivors · calls) w) (huses : call.Uses sensors)
    (hrange : call.InRange) :
    Represents sensors (survivors · (calls ++ [call])) (w.call call) := by
  cases call with
  | append id value timestamp =>
      simp only [survivors_concat_append]
      exact represents_append h huses value timestamp
  | flush_all =>
      simp only [survivors_concat_flush_all]
      exact represents_flush_all h
  | read_since id since =>
      simp only [survivors_concat_read_since]
      exact represents_flush_pending h huses
  | prune_older_than now max_age =>
      simp only [survivors_concat_prune]
      exact represents_prune h hids hrange

/-- **After any calls** the writer represents the survivors. -/
theorem represents_calls (hids : ∀ s ∈ sensors, s ≠ "") (flush_batch_size : Nat)
    (calls : List Call) (hcalls : ∀ call ∈ calls, call.Uses sensors ∧ call.InRange) :
    Represents sensors (survivors · calls) (calls.foldl call (create flush_batch_size)) := by
  induction calls using List.reverseRecOn with
  | nil => exact represents_create sensors flush_batch_size
  | append_singleton calls call ih =>
      rw [List.forall_mem_append, List.forall_mem_singleton] at hcalls
      rw [List.foldl_concat]
      exact represents_call hids (ih hcalls.1) hcalls.2.1 hcalls.2.2

end Refinement

/-- **The writer is a faithful log of each sensor.** After any calls for some sensors on an empty
directory, `read_since` returns the survivors of its sensor from the requested millisecond on, in
order, and a pruning drops the survivors before its cutoff and returns their number. -/
theorem read_since_eq_survivors (flush_batch_size : Nat) {sensors : List String}
    (hnodup : sensors.Nodup) (hvalid : ∀ s ∈ sensors, is_valid_id s = true) (calls : List Call)
    (hcalls : ∀ call ∈ calls, call.Uses sensors ∧ call.InRange) :
    (∀ s ∈ sensors, ∀ since,
      ((calls.foldl call (create flush_batch_size)).read_since Io.success s since).2.map
          (fun sample => (sample.1.toInt, sample.2)) =
        ((survivors s calls).filter (truncate_ms since.toInt ≤ ·.ms)).map
          fun entry => (entry.ms * 1000000, entry.value)) ∧
      ∀ now max_age, (Call.prune_older_than now max_age).InRange →
        ((calls.foldl call (create flush_batch_size)).prune_older_than {} now max_age).2 =
            (sensors.map fun s =>
              (survivors s calls).countP (·.ms < exact_cutoff now max_age)).sum ∧
          ∀ s ∈ sensors, survivors s (calls ++ [.prune_older_than now max_age]) =
            (survivors s calls).filter (exact_cutoff now max_age ≤ ·.ms) := by
  -- a valid id is not empty, so its file has the extension of a log
  have hids : ∀ s ∈ sensors, s ≠ "" := by
    rintro s hs rfl
    exact absurd (hvalid "" hs) (by decide)
  have hrep := represents_calls hids flush_batch_size calls hcalls
  refine ⟨fun s hs since => ?_, fun now max_age hrange => ⟨?_, fun s _ => ?_⟩⟩
  · exact read_since_of_represents hrep hs (fun entry => exists_of_mem_survivors) since
  · exact removed_of_represents hrep hnodup hids hrange
  · exact survivors_concat_prune now max_age

/-- Two sensors, one with a record two days old and one with a record thirty hours old. -/
def twoSensors : List Call :=
  [.append "a" 1 1700000000000000000, .append "a" 2 1700169200000000000,
    .append "b" 3 1700064800000000000]

/-- Pruning to one day, with everything still buffered, removes one record of each. -/
theorem read_since_eq_survivors_twoSensors :
    ((twoSensors.foldl call (create 100)).prune_older_than {} 1700172800000000000 86400000).2 =
      2 := by
  have huses : ∀ call ∈ twoSensors, call.Uses ["a", "b"] ∧ call.InRange := by
    simp [twoSensors, Call.Uses, Call.InRange]
  rw [((@read_since_eq_survivors 100 ["a", "b"] (by decide) (by decide) twoSensors huses).2
    1700172800000000000 86400000 ⟨by decide, by decide⟩).1]
  decide

end Ironpulse.Storage
