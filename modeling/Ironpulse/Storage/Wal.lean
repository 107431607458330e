import Ironpulse.Core.Chrono
import Ironpulse.Lib.ByteCodec
import Ironpulse.Storage.Files

/-! # The write-ahead log of the sensors

`WalWriter` and `WalReader` (`include/ironpulse/storage/wal_writer.hpp`): one file per sensor, a
buffer of records per sensor that is flushed by count or on demand, and retention pruning by
rewriting each file through a temporary one. Every operation that writes a file takes the outcome of
writing each file during the call.

* **`walRecord`**: the 16 bytes of a record, as a codec.
* **`WalWriter.append`, `flush_all`, `read_since`, `prune_older_than`**: the operations.
* **`recorded`**: what a sensor's file and buffer hold together, which a successful flush keeps. -/

namespace Ironpulse.Storage

open ByteCodec Core

/-! ## (1) Records -/

/-- On-disk record: a timestamp and the 64 bits of a `double`. -/
structure WalRecord where
  timestamp_ms : Int64
  value : UInt64
  deriving DecidableEq

/-- A record's fields as two 64-bit numbers. -/
def WalRecord.equiv : WalRecord ≃ UInt64 × UInt64 where
  toFun r := (r.timestamp_ms.toUInt64, r.value)
  invFun x := { timestamp_ms := x.1.toInt64, value := x.2 }
  left_inv _ := rfl
  right_inv _ := rfl

/-- A record is 16 bytes: both fields in little-endian memory order. -/
def walRecord : RecordCodec WalRecord :=
  (RecordCodec.uint64.pair RecordCodec.uint64).ofEquiv WalRecord.equiv

/-- `WalReader::read_all`: the whole records at the start of a sensor's file. -/
def read_all (files : Files) (name : String) : List WalRecord :=
  walRecord.decodeAll (files.content name)

/-! ## (2) The writer -/

/-- A `WalWriter` and the directory that it writes to. -/
structure WalWriter where
  files : Files
  flush_batch_size_ : Nat := 32
  pending_ : AList fun _ : String => List WalRecord := ∅

/-- The outcome of writing each file during one call. -/
abbrev Io := String → WriteOutcome

/-- Every write succeeds. -/
def Io.success : Io := fun _ => .ok

/-- How rewriting a file through its temporary ends. -/
inductive TmpOutcome where
  | written
  /-- Opening or writing the temporary fails visibly. -/
  | failed
  /-- Buffered bytes are lost when the stream closes: only the first `kept` reach the file. -/
  | lostAtClose (kept : Nat)
  deriving DecidableEq

/-- The outcomes of the file operations of one pruning. -/
structure PruneIo where
  flush : Io := Io.success
  tmp : String → TmpOutcome := fun _ => .written
  renamed : String → Bool := fun _ => true

/-- The file of a sensor. -/
def file_for (sensor_id : String) : String := sensor_id ++ ".wal"

/-- Sensors have different files. -/
theorem file_for_inj {a b : String} : file_for a = file_for b ↔ a = b := by
  constructor
  · intro h
    have hlist := congrArg String.toList h
    simp only [file_for, String.toList_append] at hlist
    exact String.toList_inj.mp (List.append_cancel_right hlist)
  · rintro rfl
    rfl

namespace WalWriter

variable (w : WalWriter)

/-- The records of a sensor that wait to be flushed. -/
def buffer (sensor_id : String) : List WalRecord := (w.pending_.lookup sensor_id).getD []

/-- `flush_locked`: writes the buffer behind the file's end and clears it, whatever the outcome. -/
def flush_locked (io : Io) (sensor_id : String) : WalWriter :=
  { w with
    files := w.files.append (io (file_for sensor_id)) (file_for sensor_id)
      (walRecord.encodeAll (w.buffer sensor_id))
    pending_ := w.pending_.insert sensor_id [] }

/-- `append`. -/
def append (io : Io) (sensor_id : String) (value : UInt64) (timestamp : TimePoint) : WalWriter :=
  let ms := duration_cast_milliseconds timestamp
  let buffer := w.buffer sensor_id ++ [{ timestamp_ms := ms, value := value }]
  let buffered := { w with pending_ := w.pending_.insert sensor_id buffer }
  if buffer.length ≥ w.flush_batch_size_ then buffered.flush_locked io sensor_id else buffered

/-- The flush of one sensor inside `flush_all`, `read_since` and `prune_older_than`: an empty buffer
is left alone. -/
def flush_pending (io : Io) (sensor_id : String) : WalWriter :=
  if (w.buffer sensor_id).isEmpty then w else w.flush_locked io sensor_id

/-- `flush_all`: goes through the sensors that have a buffer. -/
def flush_all (io : Io) : WalWriter :=
  w.pending_.keys.foldl (fun w sensor_id => w.flush_pending io sensor_id) w

/-- `read_since`: flushes the sensor's buffer, then keeps the records at or after `since`. -/
def read_since (io : Io) (sensor_id : String) (since : TimePoint) :
    WalWriter × List (TimePoint × UInt64) :=
  let flushed := w.flush_pending io sensor_id
  let since_ms := duration_cast_milliseconds since
  let records := (read_all flushed.files (file_for sensor_id)).filter (·.timestamp_ms ≥ since_ms)
  (flushed, records.map fun r => (milliseconds_to_nanoseconds r.timestamp_ms, r.value))

/-- The cutoff of `prune_older_than`, computed in 64-bit nanoseconds. -/
def cutoff_ms (now : TimePoint) (max_age : Milliseconds) : Milliseconds :=
  duration_cast_milliseconds (now - milliseconds_to_nanoseconds max_age)

/-- What pruning does to one directory entry: `files` and `removed` before and after it. -/
def prune_file (io : PruneIo) (cutoff : Milliseconds) (state : Files × Nat) (name : String) :
    Files × Nat :=
  let (files, removed) := state
  if extension name ≠ ".wal" then state
  else
    let records := read_all files name
    let kept := records.filter (·.timestamp_ms ≥ cutoff)
    if kept.length = records.length then state
    else
      let tmp := name ++ ".tmp"
      let written :=
        match io.tmp name with
        | .written => some (walRecord.encodeAll kept)
        | .failed => none
        | .lostAtClose bytes => some ((walRecord.encodeAll kept).take bytes)
      match written with
      | none => (files.erase tmp, removed)
      | some bytes =>
          if io.renamed name then
            ((files.erase tmp).insert name bytes, removed + (records.length - kept.length))
          else (files.insert tmp bytes, removed)

/-- `prune_older_than`: flushes every buffer, then rewrites every `.wal` file without the records
before the cutoff; also returns the number of records removed. -/
def prune_older_than (io : PruneIo) (now : TimePoint) (max_age : Milliseconds) : WalWriter × Nat :=
  let flushed := w.flush_all io.flush
  let (files, removed) :=
    flushed.files.keys.foldl (prune_file io (cutoff_ms now max_age)) (flushed.files, 0)
  ({ flushed with files := files }, removed)

/-! ## (3) What a sensor has recorded -/

/-- The bytes of a sensor's file followed by those of its buffer. -/
def recorded (sensor_id : String) : List UInt8 :=
  w.files.content (file_for sensor_id) ++ walRecord.encodeAll (w.buffer sensor_id)

variable {w}

/-- A sensor without an entry has nothing buffered. -/
theorem buffer_of_not_mem {s : String} (h : s ∉ w.pending_.keys) : w.buffer s = [] := by
  rw [buffer, AList.lookup_eq_none.mpr fun hmem => h (AList.mem_keys.mp hmem), Option.getD_none]

/-- The buffer of a sensor is what was put there last. -/
theorem buffer_insert (a : String) (records : List WalRecord) (s : String) :
    ({ w with pending_ := w.pending_.insert a records } : WalWriter).buffer s =
      if s = a then records else w.buffer s := by
  by_cases h : s = a
  · subst h
    rw [if_pos rfl, buffer, AList.lookup_insert, Option.getD_some]
  · rw [if_neg h, buffer, AList.lookup_insert_ne h, buffer]

/-- A sensor with nothing buffered has all its records in its file. -/
theorem recorded_of_buffer_nil {s : String} (h : w.buffer s = []) :
    w.recorded s = w.files.content (file_for s) := by
  rw [recorded, h, walRecord.encodeAll_nil, List.append_nil]

/-- A flush empties the buffer. -/
@[simp] theorem buffer_flush_locked (io : Io) (a : String) :
    (w.flush_locked io a).buffer a = [] := by
  simp [buffer, flush_locked]

/-- A flush leaves the other buffers alone. -/
theorem buffer_flush_locked_of_ne {io : Io} {a s : String} (h : s ≠ a) :
    (w.flush_locked io a).buffer s = w.buffer s := by
  simp [buffer, flush_locked, AList.lookup_insert_ne h]

/-- **A successful flush moves the buffer behind the file's end**, and leaves other sensors alone. -/
theorem recorded_flush_locked (a s : String) :
    (w.flush_locked Io.success a).recorded s = w.recorded s := by
  by_cases h : s = a
  · subst h
    rw [recorded_of_buffer_nil (buffer_flush_locked _ _)]
    exact Files.content_append_ok _ _ _
  · have hfile : file_for s ≠ file_for a := fun hfor => h (file_for_inj.mp hfor)
    rw [recorded, recorded, buffer_flush_locked_of_ne h]
    congr 1
    exact Files.content_append_of_ne hfile

/-- A flush records the same bytes. -/
theorem recorded_flush_pending (a s : String) :
    (w.flush_pending Io.success a).recorded s = w.recorded s := by
  unfold flush_pending
  split
  · rfl
  · exact recorded_flush_locked a s

/-- Flushing empties the sensor's own buffer and no buffer gains anything. -/
theorem buffer_flush_pending (io : Io) (a s : String) :
    (w.flush_pending io a).buffer s = if s = a then [] else w.buffer s := by
  unfold flush_pending
  by_cases h : s = a
  · subst h
    rw [if_pos rfl]
    split
    · rename_i hempty
      exact List.isEmpty_iff.mp hempty
    · exact buffer_flush_locked io s
  · rw [if_neg h]
    split
    · rfl
    · exact buffer_flush_locked_of_ne h

/-- Several flushes record the same bytes. -/
theorem recorded_foldl_flush_pending (names : List String) (s : String) :
    (names.foldl (fun w a => w.flush_pending Io.success a) w).recorded s = w.recorded s := by
  induction names generalizing w with
  | nil => rfl
  | cons a names ih => rw [List.foldl_cons, ih, recorded_flush_pending]

/-- Several flushes empty the buffers of their sensors. -/
theorem buffer_foldl_flush_pending (io : Io) (names : List String) (s : String) :
    (names.foldl (fun w a => w.flush_pending io a) w).buffer s =
      if s ∈ names then [] else w.buffer s := by
  induction names generalizing w with
  | nil => rw [List.foldl_nil, if_neg List.not_mem_nil]
  | cons a names ih =>
      rw [List.foldl_cons, ih, buffer_flush_pending]
      by_cases hmem : s ∈ names
      · rw [if_pos hmem, if_pos (List.mem_cons_of_mem a hmem)]
      · rw [if_neg hmem]
        simp only [List.mem_cons, hmem, or_false]

/-- Flushing all sensors records the same bytes. -/
@[simp] theorem recorded_flush_all (s : String) :
    (w.flush_all Io.success).recorded s = w.recorded s :=
  recorded_foldl_flush_pending _ s

/-- After `flush_all` nothing is buffered. -/
@[simp] theorem buffer_flush_all (io : Io) (s : String) : (w.flush_all io).buffer s = [] := by
  unfold flush_all
  rw [buffer_foldl_flush_pending]
  split
  · rfl
  · rename_i hmem
    exact buffer_of_not_mem hmem

/-- **A successful `append` records one record more for its sensor**, and nothing for others. -/
theorem recorded_append (a : String) (value : UInt64) (timestamp : TimePoint) (s : String) :
    (w.append Io.success a value timestamp).recorded s =
      if s = a then w.recorded s ++
        walRecord.encode { timestamp_ms := duration_cast_milliseconds timestamp, value := value }
      else w.recorded s := by
  have hbuffered : ∀ records : List WalRecord,
      ({ w with pending_ := w.pending_.insert a records } : WalWriter).recorded s =
        w.files.content (file_for s) ++
          walRecord.encodeAll (if s = a then records else w.buffer s) := by
    intro records
    rw [recorded, buffer_insert]
  unfold append
  dsimp only
  -- written through or buffered, the record counts as recorded
  rw [apply_ite (recorded · s), recorded_flush_locked, ite_self, hbuffered]
  by_cases h : s = a
  · subst h
    simp [recorded]
  · rw [if_neg h, if_neg h, recorded]

/-- An `append` for another sensor leaves a sensor's buffer alone. -/
theorem buffer_append_of_ne {io : Io} {a s : String} {value : UInt64} {timestamp : TimePoint}
    (h : s ≠ a) : (w.append io a value timestamp).buffer s = w.buffer s := by
  have hinsert : ∀ records : List WalRecord,
      ({ w with pending_ := w.pending_.insert a records } : WalWriter).buffer s = w.buffer s := by
    intro records
    rw [buffer_insert, if_neg h]
  unfold append
  dsimp only
  split
  · rw [buffer_flush_locked_of_ne h, hinsert]
  · exact hinsert _

/-- Reading records the same bytes. -/
theorem recorded_read_since (a : String) (since : TimePoint) (s : String) :
    (w.read_since Io.success a since).1.recorded s = w.recorded s :=
  recorded_flush_pending a s

end WalWriter

end Ironpulse.Storage
