import Mathlib.Data.List.Perm.Subperm
import Ironpulse.Lib.StepMachine
import Ironpulse.Storage.WalRecovery

/-! # Flushes that fail

Opening or writing a sensor's file can fail, and `flush_locked` clears the buffer whatever became of
its bytes. This file follows runs of `append`, `flush_all` and `read_since` in which every write can
fail.

* **`Session`**: a writer together with every record that it ever held.
* **`content_call_under`**, **`buffer_call_under`**: what one call hands to a file, and what it leaves
  in the buffer.
* **`losesNothing_of_flushesInFull`**: no record is lost while every flush is written in full. -/

namespace Ironpulse.Storage

open ByteCodec Core StepMachine

namespace WalWriter

/-! ## (1) Calls under failures -/

/-- The effect of a call whose writes end as `io` says. -/
def call_under (w : WalWriter) (io : Io) : Op → WalWriter
  | .append sensor_id value timestamp => w.append io sensor_id value timestamp
  | .flush_all => w.flush_all io
  | .read_since sensor_id since => (w.read_since io sensor_id since).1

/-- The records that a call hands to a sensor's file. -/
def flushed (w : WalWriter) (sensor_id : String) : Op → List WalRecord
  | .append id value timestamp =>
      let buffer := w.buffer sensor_id ++ appended sensor_id [.append id value timestamp]
      if id = sensor_id ∧ buffer.length ≥ w.flush_batch_size_ then buffer else []
  | .flush_all => w.buffer sensor_id
  | .read_since id _ => if id = sensor_id then w.buffer sensor_id else []

variable {w : WalWriter}

/-- A flush puts what it could write of the buffer behind the sensor's own file. -/
theorem content_flush_locked (io : Io) (a s : String) :
    (w.flush_locked io a).files.content (file_for s) =
      w.files.content (file_for s) ++
        if s = a then (io (file_for s)).written (walRecord.encodeAll (w.buffer s)) else [] := by
  by_cases h : s = a
  · subst h
    rw [if_pos rfl]
    exact Files.content_append _ _ _ _
  · rw [if_neg h, List.append_nil]
    exact Files.content_append_of_ne fun hfor => h (file_for_inj.mp hfor)

/-- So does a flush that looks first whether anything is pending. -/
theorem content_flush_pending (io : Io) (a s : String) :
    (w.flush_pending io a).files.content (file_for s) =
      w.files.content (file_for s) ++
        if s = a then (io (file_for s)).written (walRecord.encodeAll (w.buffer s)) else [] := by
  unfold flush_pending
  split
  · -- an empty buffer is not flushed, and nothing would be written
    rename_i hempty
    by_cases h : s = a
    · subst h
      rw [if_pos rfl, List.isEmpty_iff.mp hempty, walRecord.encodeAll_nil,
        WriteOutcome.written_nil, List.append_nil]
    · rw [if_neg h, List.append_nil]
  · exact content_flush_locked io a s

/-- Flushing several sensors writes each one's buffer once. -/
theorem content_foldl_flush_pending (io : Io) {names : List String} (hnodup : names.Nodup)
    (s : String) :
    (names.foldl (fun w a => w.flush_pending io a) w).files.content (file_for s) =
      w.files.content (file_for s) ++
        if s ∈ names then (io (file_for s)).written (walRecord.encodeAll (w.buffer s)) else [] := by
  induction names generalizing w with
  | nil => rw [List.foldl_nil, if_neg List.not_mem_nil, List.append_nil]
  | cons a names ih =>
      obtain ⟨hfresh, hrest⟩ := List.nodup_cons.mp hnodup
      rw [List.foldl_cons, ih hrest, content_flush_pending, buffer_flush_pending]
      by_cases h : s = a
      · -- the later flushes are those of other sensors
        subst h
        rw [if_pos rfl, if_pos rfl, if_neg hfresh, if_pos List.mem_cons_self, List.append_nil]
      · rw [if_neg h, if_neg h, List.append_nil]
        simp only [List.mem_cons, h, false_or]

/-- Flushing all sensors writes each one's buffer. -/
theorem content_flush_all (io : Io) (s : String) :
    (w.flush_all io).files.content (file_for s) =
      w.files.content (file_for s) ++
        (io (file_for s)).written (walRecord.encodeAll (w.buffer s)) := by
  unfold flush_all
  rw [content_foldl_flush_pending io w.pending_.keys_nodup]
  split
  · rfl
  · rename_i hmem
    rw [buffer_of_not_mem hmem, walRecord.encodeAll_nil, WriteOutcome.written_nil]

/-- An append flushes the buffer when it is full. -/
theorem flushed_append_self (a : String) (value : UInt64) (timestamp : TimePoint) :
    w.flushed a (.append a value timestamp) =
      let buffer := w.buffer a ++
        [{ timestamp_ms := duration_cast_milliseconds timestamp, value := value }]
      if buffer.length ≥ w.flush_batch_size_ then buffer else [] := by
  rw [flushed, appended, if_pos rfl, appended]
  simp only [true_and]

/-- An append flushes no other sensor. -/
theorem flushed_append_of_ne {a s : String} (h : s ≠ a) (value : UInt64) (timestamp : TimePoint) :
    w.flushed s (.append a value timestamp) = [] :=
  if_neg fun hself => h hself.1.symm

/-- What an append writes is what it flushes. -/
theorem content_append (io : Io) (a : String) (value : UInt64) (timestamp : TimePoint)
    (s : String) :
    (w.append io a value timestamp).files.content (file_for s) =
      w.files.content (file_for s) ++
        (io (file_for s)).written
          (walRecord.encodeAll (w.flushed s (.append a value timestamp))) := by
  unfold append
  dsimp only
  by_cases h : s = a
  · subst h
    rw [flushed_append_self]
    split
    · -- the record fills the buffer
      rename_i hfull
      rw [content_flush_locked, if_pos rfl, buffer_insert, if_pos rfl]
      dsimp only
      rw [if_pos hfull]
    · rename_i hroom
      dsimp only
      rw [if_neg hroom, walRecord.encodeAll_nil, WriteOutcome.written_nil, List.append_nil]
  · rw [flushed_append_of_ne h, walRecord.encodeAll_nil, WriteOutcome.written_nil, List.append_nil]
    split
    · rw [content_flush_locked, if_neg h, List.append_nil]
    · rfl

/-- **What a call adds to a sensor's file**: as much of the records that it hands over as is
written. -/
theorem content_call_under (io : Io) (op : Op) (s : String) :
    (w.call_under io op).files.content (file_for s) =
      w.files.content (file_for s) ++
        (io (file_for s)).written (walRecord.encodeAll (w.flushed s op)) := by
  cases op with
  | append id value timestamp => exact content_append io id value timestamp s
  | flush_all => exact content_flush_all io s
  | read_since id since =>
      refine (content_flush_pending io id s).trans ?_
      by_cases h : s = id
      · rw [flushed, if_pos h, if_pos h.symm]
      · rw [flushed, if_neg h, if_neg (Ne.symm h), walRecord.encodeAll_nil,
          WriteOutcome.written_nil]

/-- **A call hands over what leaves the buffer**, whatever becomes of it. -/
theorem buffer_call_under (io : Io) (op : Op) (s : String) :
    w.flushed s op ++ (w.call_under io op).buffer s = w.buffer s ++ appended s [op] := by
  cases op with
  | append id value timestamp =>
      unfold call_under append
      dsimp only
      by_cases h : s = id
      · subst h
        rw [flushed_append_self, appended, if_pos rfl, appended]
        dsimp only
        split
        · -- the flush clears the buffer without looking at the outcome of the write
          rw [buffer_flush_locked, List.append_nil]
        · rw [buffer_insert, if_pos rfl, List.nil_append]
      · rw [flushed_append_of_ne h, appended, if_neg (Ne.symm h), appended, List.append_nil,
          List.nil_append]
        split
        · rw [buffer_flush_locked_of_ne h, buffer_insert, if_neg h]
        · rw [buffer_insert, if_neg h]
  | flush_all =>
      rw [flushed, call_under, buffer_flush_all, appended]
      rfl
  | read_since id since =>
      rw [flushed, call_under, appended, appended, List.append_nil]
      refine (congrArg _ (buffer_flush_pending io id s)).trans ?_
      by_cases h : s = id
      · rw [if_pos h, if_pos h.symm, List.append_nil]
      · rw [if_neg h, if_neg (Ne.symm h), List.nil_append]

end WalWriter

/-! ## (2) Runs -/

/-- A writer together with the records that each sensor had in its file and its buffer at the start
and all that were appended since. -/
structure Session where
  writer : WalWriter
  ever : String → List WalRecord

namespace Session

open WalWriter

/-- A session with nothing appended yet. -/
def start (w : WalWriter) : Session where
  writer := w
  ever sensor_id := read_all w.files (file_for sensor_id) ++ w.buffer sensor_id

/-- A call whose writes end as the second component says. -/
def step (s : Session) (call : Op × Io) : Option Session :=
  some
    { writer := s.writer.call_under call.2 call.1
      ever := fun sensor_id => s.ever sensor_id ++ appended sensor_id [call.1] }

/-- Every record, as often as it was appended, is in its sensor's file, where the reader finds it, or
still in the buffer. -/
def LosesNothing (s : Session) : Prop :=
  ∀ sensor_id, (s.ever sensor_id).Subperm
    (read_all s.writer.files (file_for sensor_id) ++ s.writer.buffer sensor_id)

/-- Every record that the call hands to a file is written in full, behind whole records. -/
def FlushesInFull (s : Session) (call : Op × Io) : Prop :=
  ∀ sensor_id, s.writer.flushed sensor_id call.1 ≠ [] →
    (call.2 (file_for sensor_id)).written
        (walRecord.encodeAll (s.writer.flushed sensor_id call.1)) =
      walRecord.encodeAll (s.writer.flushed sensor_id call.1) ∧
    walRecord.width ∣ (s.writer.files.content (file_for sensor_id)).length

/-- The file and the buffer hold the records in the order in which they were appended. -/
def Intact (s : Session) : Prop :=
  ∀ sensor_id, read_all s.writer.files (file_for sensor_id) ++ s.writer.buffer sensor_id =
    s.ever sensor_id

/-- Every sensor's file holds whole records. -/
def Whole (w : WalWriter) : Prop :=
  ∀ sensor_id, walRecord.width ∣ (w.files.content (file_for sensor_id)).length

variable {s t : Session} {call : Op × Io}

/-- **Flushes in full keep every record.** -/
theorem Intact.step (h : Intact s) (hfull : FlushesInFull s call) (hstep : step s call = some t) :
    Intact t := by
  obtain rfl := Option.some.inj hstep
  intro sensor_id
  have hbuffer := @buffer_call_under s.writer call.2 call.1 sensor_id
  dsimp only
  rw [read_all, content_call_under, ← h sensor_id, List.append_assoc, ← hbuffer,
    ← List.append_assoc]
  congr 1
  by_cases hnil : s.writer.flushed sensor_id call.1 = []
  · rw [hnil, walRecord.encodeAll_nil, WriteOutcome.written_nil, List.append_nil, List.append_nil]
    rfl
  · -- what is written in full behind whole records is read back
    obtain ⟨hwritten, hwhole⟩ := hfull sensor_id hnil
    rw [hwritten, walRecord.decodeAll_append_of_dvd hwhole, walRecord.decodeAll_encodeAll]
    rfl

/-- Flushes in full leave whole records. -/
theorem Whole.step (h : Whole s.writer) (hfull : FlushesInFull s call)
    (hstep : Session.step s call = some t) : Whole t.writer := by
  obtain rfl := Option.some.inj hstep
  intro sensor_id
  dsimp only
  rw [content_call_under, List.length_append]
  by_cases hnil : s.writer.flushed sensor_id call.1 = []
  · rw [hnil, walRecord.encodeAll_nil, WriteOutcome.written_nil, List.length_nil, Nat.add_zero]
    exact h sensor_id
  · rw [(hfull sensor_id hnil).1, walRecord.length_encodeAll]
    exact Nat.dvd_add (h sensor_id) (Nat.dvd_mul_left ..)

/-- A write that is not in full falls short. -/
theorem length_written_lt {outcome : WriteOutcome} {bytes : List UInt8}
    (h : outcome.written bytes ≠ bytes) : (outcome.written bytes).length < bytes.length := by
  cases outcome with
  | ok => exact absurd rfl h
  | openFailed => exact List.length_pos_iff.mpr (Ne.symm h)
  | writeFailed written =>
      rw [WriteOutcome.written, List.length_take]
      by_contra hlong
      exact h (List.take_of_length_le (by omega))

/-- **A flush that falls short loses a record**: the file and the buffer are left with fewer records
than there were. -/
theorem not_losesNothing_of_short (h : Intact s) (hwhole : Whole s.writer)
    (hshort : ¬ FlushesInFull s call) (hstep : step s call = some t) : ¬ LosesNothing t := by
  obtain rfl := Option.some.inj hstep
  obtain ⟨sensor_id, hlost⟩ := not_forall.mp hshort
  have hlost := (Classical.not_imp.mp hlost).2
  intro hkeeps
  have hcount := (hkeeps sensor_id).length_le
  have hbuffer := congrArg List.length (@buffer_call_under s.writer call.2 call.1 sensor_id)
  have hever := congrArg List.length (h sensor_id)
  have hbytes := @length_written_lt (call.2 (file_for sensor_id))
    (walRecord.encodeAll (s.writer.flushed sensor_id call.1)) fun hwritten =>
      hlost ⟨hwritten, hwhole sensor_id⟩
  dsimp only at hcount
  -- fewer bytes than those of the records handed over hold fewer records
  rw [read_all, content_call_under, walRecord.decodeAll_append_of_dvd (hwhole sensor_id)] at hcount
  rw [walRecord.length_encodeAll] at hbytes
  have hfewer := Nat.div_lt_of_lt_mul ((Nat.mul_comm .. : _ * walRecord.width = _) ▸ hbytes)
  simp only [List.length_append, walRecord.length_decodeAll, read_all] at hcount hbuffer hever
  omega

/-- **No record is lost while every flush is written in full.** A run whose every call writes what it
hands over keeps every record in its file or its buffer; from files of whole records, no other run
does. -/
theorem losesNothing_of_flushesInFull (w : WalWriter) (calls : List (Op × Io)) :
    (RunMeets step FlushesInFull (start w) calls → AlongRun step LosesNothing (start w) calls) ∧
      (Whole w → AlongRun step LosesNothing (start w) calls →
        RunMeets step FlushesInFull (start w) calls) := by
  have hkeeps : ∀ {s}, Intact s → LosesNothing s := by
    intro s h sensor_id
    rw [h sensor_id]
  have hstart : Intact (start w) := fun _ => rfl
  refine ⟨fun hmeets => alongRun_of_runMeets hkeeps Intact.step hstart hmeets, fun hwhole hkept => ?_⟩
  -- along the run the files hold whole records, behind which a flush in full is read back
  have hiff := @alongRun_iff_runMeets _ _ step FlushesInFull
    (fun s => Intact s ∧ Whole s.writer) LosesNothing (fun h => hkeeps h.1)
    (fun h hfull hstep => ⟨h.1.step hfull hstep, h.2.step hfull hstep⟩)
    (fun h hshort hstep => not_losesNothing_of_short h.1 h.2 hshort hstep)
    (start w) calls ⟨hstart, hwhole⟩
  exact hiff.mp hkept

/-- A writer that flushes every record at once, and one call. -/
def unbuffered : WalWriter where
  files := ∅
  flush_batch_size_ := 1

/-- One reading of the sensor. -/
def oneAppend : Op := .append "winding_temp" 0x4000000000000000 1700000001000000000

/-- The write that reaches the file keeps the record. -/
theorem losesNothing_oneAppend :
    AlongRun step LosesNothing (start unbuffered) [(oneAppend, Io.success)] := by
  refine (losesNothing_of_flushesInFull unbuffered [(oneAppend, Io.success)]).1 fun t _ => ⟨?_, ?_⟩
  · exact fun _ _ => ⟨rfl, Nat.dvd_zero _⟩
  · exact runMeets_nil

/-- **The record is lost when its file cannot be opened**: it is neither in the file nor in the
buffer. -/
theorem not_losesNothing_openFailed :
    ¬ AlongRun step LosesNothing (start unbuffered) [(oneAppend, fun _ => .openFailed)] := by
  intro h
  have hkeeps := h _ _ List.prefix_rfl rfl "winding_temp"
  exact absurd hkeeps.length_le (by decide)

end Session

end Ironpulse.Storage
