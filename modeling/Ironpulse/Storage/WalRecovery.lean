import Ironpulse.Storage.Wal

/-! # Recovery of the write-ahead log from a torn tail

After a crash a sensor's file holds a byte prefix of the records that were written to it. A new
writer appends behind the last byte, wherever the prefix was cut, and the reader takes 16 bytes at a
time from the start of the file.

* **`runOps`**: any sequence of `append`, `flush_all` and `read_since` calls for any sensors.
* **`recorded_runOps`**: what such a sequence adds to a sensor's file and buffer.
* **`recover`**: a new writer on a directory with a torn file, after any calls.
* **`read_all_after_torn_tail_iff`**: when the reader returns the whole records of the prefix
  followed by the appended ones. -/

namespace Ironpulse.Storage

open ByteCodec Core

namespace WalWriter

/-- A call on a writer, with all file operations succeeding. -/
inductive Op where
  | append (sensor_id : String) (value : UInt64) (timestamp : TimePoint)
  | flush_all
  | read_since (sensor_id : String) (since : TimePoint)
  deriving DecidableEq

/-- The effect of a call. -/
def apply (w : WalWriter) : Op → WalWriter
  | .append sensor_id value timestamp => w.append Io.success sensor_id value timestamp
  | .flush_all => w.flush_all Io.success
  | .read_since sensor_id since => (w.read_since Io.success sensor_id since).1

/-- The effect of a sequence of calls. -/
def runOps (w : WalWriter) (ops : List Op) : WalWriter := ops.foldl apply w

/-- The records that a sequence of calls appends for a sensor, with their stored timestamps. -/
def appended (sensor_id : String) : List Op → List WalRecord
  | [] => []
  | .append id value timestamp :: ops =>
      if id = sensor_id then
        { timestamp_ms := duration_cast_milliseconds timestamp, value := value } ::
          appended sensor_id ops
      else appended sensor_id ops
  | .flush_all :: ops => appended sensor_id ops
  | .read_since _ _ :: ops => appended sensor_id ops

/-- **A sequence of successful calls records exactly what it appends.** -/
theorem recorded_runOps (w : WalWriter) (ops : List Op) (s : String) :
    (w.runOps ops).recorded s = w.recorded s ++ walRecord.encodeAll (appended s ops) := by
  induction ops generalizing w with
  | nil => rw [runOps, List.foldl_nil, appended, walRecord.encodeAll_nil, List.append_nil]
  | cons op ops ih =>
      have hstep : (w.runOps (op :: ops)).recorded s =
          (w.apply op).recorded s ++ walRecord.encodeAll (appended s ops) := ih (w.apply op)
      rw [hstep]
      cases op with
      | append id value timestamp =>
          rw [apply, recorded_append, appended]
          by_cases h : id = s
          · subst h
            rw [if_pos rfl, if_pos rfl, walRecord.encodeAll_cons, List.append_assoc]
          · rw [if_neg h, if_neg (Ne.symm h)]
      | flush_all => rw [apply, recorded_flush_all, appended]
      | read_since id since => rw [apply, recorded_read_since, appended]

/-- A new writer on a directory in which a crash left `bytes` in a sensor's file. -/
def afterCrash (files : Files) (flush_batch_size : Nat) (sensor_id : String)
    (bytes : List UInt8) : WalWriter :=
  { files := files.insert (file_for sensor_id) bytes, flush_batch_size_ := flush_batch_size }

/-- What is recorded after a crash is what the crash left in the file. -/
theorem recorded_afterCrash (files : Files) (flush_batch_size : Nat) (s : String)
    (bytes : List UInt8) : (afterCrash files flush_batch_size s bytes).recorded s = bytes :=
  (recorded_of_buffer_nil rfl).trans (Files.content_insert _ _ _)

/-- A crash leaves `bytes` in a sensor's file; the new writer runs any calls and a last
`flush_all`. -/
def recover (files : Files) (flush_batch_size : Nat) (sensor_id : String) (bytes : List UInt8)
    (ops : List Op) : WalWriter :=
  ((afterCrash files flush_batch_size sensor_id bytes).runOps ops).flush_all Io.success

/-- After recovery the sensor's file holds the torn file followed by the appended records. -/
theorem content_recover (files : Files) (flush_batch_size : Nat) (s : String)
    (bytes : List UInt8) (ops : List Op) :
    (recover files flush_batch_size s bytes ops).files.content (file_for s) =
      bytes ++ walRecord.encodeAll (appended s ops) := by
  rw [recover, ← recorded_of_buffer_nil (buffer_flush_all Io.success s), recorded_flush_all,
    recorded_runOps, recorded_afterCrash]

end WalWriter

open WalWriter

/-- The first `cut` bytes of a file of records. -/
def cutFile (records : List WalRecord) (cut : Nat) : List UInt8 :=
  (walRecord.encodeAll records).take cut

/-- **What the reader returns after recovery**: the whole records of the cut file, then what the torn
bytes and the appended records decode to together. -/
theorem read_all_recover (files : Files) (flush_batch_size : Nat) (s : String)
    (R : List WalRecord) (cut : Nat) (ops : List Op) :
    read_all (recover files flush_batch_size s (cutFile R cut) ops).files (file_for s) =
      R.take ((cutFile R cut).length / 16) ++
        walRecord.decodeAll
          (walRecord.torn (cutFile R cut) ++ walRecord.encodeAll (appended s ops)) := by
  have hprefix : cutFile R cut <+: walRecord.encodeAll R := List.take_prefix _ _
  have hwhole : walRecord.decodeAll (cutFile R cut) = R.take ((cutFile R cut).length / 16) :=
    walRecord.decodeAll_of_prefix hprefix
  rw [read_all, content_recover, walRecord.decodeAll_append, hwhole]

/-- A cut between two records is always recovered from. -/
theorem read_all_after_whole_records (files : Files) (flush_batch_size : Nat) (s : String)
    (R : List WalRecord) (k : Nat) (ops : List Op) :
    read_all (recover files flush_batch_size s (cutFile R (16 * k)) ops).files (file_for s) =
      R.take ((cutFile R (16 * k)).length / 16) ++ appended s ops := by
  have htorn : walRecord.torn (cutFile R (16 * k)) = [] := by
    have hlen : (walRecord.encodeAll R).length = R.length * 16 := walRecord.length_encodeAll R
    apply walRecord.torn_of_dvd
    show 16 ∣ (cutFile R (16 * k)).length
    rw [cutFile, List.length_take, hlen]
    omega
  rw [read_all_recover, htorn, List.nil_append, walRecord.decodeAll_encodeAll]

/-- **Recovery from a torn tail.** A crash leaves the first `cut` bytes of the records `R` in a
sensor's file; a new writer on the directory runs any calls and a last `flush_all`. The reader then
returns the whole records of the cut file followed by the appended ones if and only if the bytes of
the appended records are a prefix of the torn bytes followed by these bytes. -/
theorem read_all_after_torn_tail_iff (files : Files) (flush_batch_size : Nat) (s : String)
    (R : List WalRecord) (cut : Nat) (ops : List Op) :
    read_all (recover files flush_batch_size s (cutFile R cut) ops).files (file_for s) =
        R.take ((cutFile R cut).length / 16) ++ appended s ops ↔
      walRecord.encodeAll (appended s ops) <+:
        walRecord.torn (cutFile R cut) ++ walRecord.encodeAll (appended s ops) := by
  rw [read_all_recover, List.append_right_inj]
  exact walRecord.decodeAll_append_encodeAll_iff (walRecord.length_torn_lt _) _

/-- One record was written and cut after 5 bytes; then one more is appended. -/
def tornRecord : WalRecord := { timestamp_ms := 1700000000000, value := 0x3FF0000000000000 }

/-- The call of the new writer after the crash. -/
def tornAppend : List Op := [.append "winding_temp" 0x4000000000000000 1700000001000000000]

/-- **A torn tail corrupts what is appended behind it.** With the file cut 5 bytes into its only
record, the reader does not return the record that the new writer appended. -/
theorem read_all_after_torn_tail_fails :
    ¬ ∀ (files : Files) (flush_batch_size : Nat) (s : String) (R : List WalRecord) (cut : Nat)
        (ops : List Op),
      read_all (recover files flush_batch_size s (cutFile R cut) ops).files (file_for s) =
        R.take ((cutFile R cut).length / 16) ++ appended s ops := by
  intro h
  have hread := h ∅ 32 "winding_temp" [tornRecord] 5 tornAppend
  rw [read_all_recover] at hread
  have heq := List.append_cancel_left hread
  rw [walRecord.decodeAll_append_encodeAll_iff (walRecord.length_torn_lt _)] at heq
  revert heq
  decide

end Ironpulse.Storage
