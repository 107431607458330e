import Ironpulse.Storage.SensorLog

/-! # What still waits in memory

* **`writeThrough`**: a writer that writes every record at once, for comparison.
* **`unflushed`**: the records that were appended for a sensor since its last flush.
* **`content_eq_writeThrough_iff`**: when nothing of a sensor waits in memory. -/

namespace Ironpulse.Storage

open ByteCodec Core

namespace WalWriter

variable {w : WalWriter} {s : String}

/-! ## (1) What calls record -/

/-- What a call makes of the bytes recorded for a sensor. -/
def recordedAfter (s : String) (bytes : List UInt8) : Call → List UInt8
  | .append id value timestamp =>
      if s = id then
        bytes ++ walRecord.encode
          { timestamp_ms := duration_cast_milliseconds timestamp, value := value }
      else bytes
  | .flush_all | .read_since _ _ => bytes
  | .prune_older_than now max_age => kept_bytes (cutoff_ms now max_age) (file_for s) bytes

/-- A call makes of the recorded bytes what it should. -/
theorem recorded_call (w : WalWriter) (c : Call) (s : String) :
    (w.call c).recorded s = recordedAfter s (w.recorded s) c := by
  cases c with
  | append id value timestamp => exact recorded_append id value timestamp s
  | flush_all => exact recorded_flush_all s
  | read_since id since => exact recorded_read_since id since s
  | prune_older_than now max_age => exact recorded_prune_older_than w now max_age s

/-- Calls make of the recorded bytes what they should, one after the other. -/
theorem recorded_calls (w : WalWriter) (calls : List Call) (s : String) :
    (calls.foldl call w).recorded s = calls.foldl (recordedAfter s) (w.recorded s) := by
  induction calls generalizing w with
  | nil => rfl
  | cons c calls ih => rw [List.foldl_cons, List.foldl_cons, ih, recorded_call]

/-! ## (2) What calls leave in memory -/

/-- One call more: how many records of a sensor were appended since its last flush. -/
def unflushedAfter (s : String) (n : Nat) : Call → Nat
  | .append id _ _ => if s = id then n + 1 else n
  | .read_since id _ => if s = id then 0 else n
  | .flush_all | .prune_older_than _ _ => 0

/-- The records that were appended for a sensor since a call flushed it on demand. -/
def unflushed (s : String) (calls : List Call) : Nat := calls.foldl (unflushedAfter s) 0

/-- Where nothing of a sensor is appended behind a `flush_all`, nothing of it is unflushed. -/
theorem unflushed_of_quiet {s : String} {calls rest : List Call}
    (h : ∀ value timestamp, .append s value timestamp ∉ rest) :
    unflushed s (calls ++ .flush_all :: rest) = 0 := by
  rw [unflushed, List.foldl_append, List.foldl_cons, unflushedAfter]
  -- from the flush on the count stays zero
  induction rest with
  | nil => rfl
  | cons c rest ih =>
      have hzero : unflushedAfter s 0 c = 0 := by
        cases c with
        | append id value timestamp =>
            refine if_neg fun hid => ?_
            subst hid
            exact h value timestamp List.mem_cons_self
        | flush_all => rfl
        | read_since id since => exact ite_self 0
        | prune_older_than now max_age => rfl
      rw [List.foldl_cons, hzero]
      exact ih fun value timestamp hmem => h value timestamp (List.mem_cons_of_mem _ hmem)

/-- A flush keeps the size of a batch. -/
@[simp] theorem flush_batch_size_flush_locked (io : Io) (a : String) :
    (w.flush_locked io a).flush_batch_size_ = w.flush_batch_size_ := rfl

/-- Several flushes keep the size of a batch. -/
theorem flush_batch_size_foldl_flush_pending (io : Io) (names : List String) (w : WalWriter) :
    (names.foldl (fun w a => w.flush_pending io a) w).flush_batch_size_ =
      w.flush_batch_size_ := by
  induction names generalizing w with
  | nil => rfl
  | cons a names ih =>
      rw [List.foldl_cons, ih, flush_pending]
      split <;> rfl

/-- No call changes the size of a batch. -/
@[simp] theorem flush_batch_size_call (c : Call) :
    (w.call c).flush_batch_size_ = w.flush_batch_size_ := by
  cases c with
  | append id value timestamp =>
      change (w.append Io.success id value timestamp).flush_batch_size_ = _
      unfold append
      dsimp only
      split <;> rfl
  | flush_all => exact flush_batch_size_foldl_flush_pending _ _ w
  | read_since id since =>
      change (w.flush_pending Io.success id).flush_batch_size_ = _
      unfold flush_pending
      split <;> rfl
  | prune_older_than now max_age => exact flush_batch_size_foldl_flush_pending _ _ w

/-- An append of the sensor itself flushes when the batch is full. -/
theorem length_buffer_append (io : Io) (value : UInt64) (timestamp : TimePoint) :
    ((w.append io s value timestamp).buffer s).length =
      if (w.buffer s).length + 1 ≥ w.flush_batch_size_ then 0 else (w.buffer s).length + 1 := by
  unfold append
  dsimp only
  rw [List.length_append, List.length_singleton]
  split
  · rw [buffer_flush_locked, List.length_nil]
  · rw [buffer, AList.lookup_insert, Option.getD_some, List.length_append, List.length_singleton]

/-- Counting modulo a batch: the batch is full exactly when the next count is a multiple of it. -/
theorem succ_mod_eq_ite (n : Nat) {b : Nat} (hb : 0 < b) :
    (n + 1) % b = if n % b + 1 ≥ b then 0 else n % b + 1 := by
  have hlt := Nat.mod_lt n hb
  rw [← Nat.mod_add_mod]
  by_cases hfull : n % b + 1 ≥ b
  · have heq : n % b + 1 = b := by omega
    rw [if_pos hfull, heq, Nat.mod_self]
  · rw [if_neg hfull, Nat.mod_eq_of_lt (by omega)]

/-- **A sensor's buffer** holds what was appended since its last flush, modulo the batch. -/
theorem length_buffer_calls (hbatch : 0 < w.flush_batch_size_) (hnil : w.buffer s = [])
    (calls : List Call) :
    ((calls.foldl call w).buffer s).length = unflushed s calls % w.flush_batch_size_ := by
  have hsize : ∀ calls : List Call, (calls.foldl call w).flush_batch_size_ =
      w.flush_batch_size_ := by
    intro calls
    induction calls using List.reverseRecOn with
    | nil => rfl
    | append_singleton calls c ih => rw [List.foldl_concat, flush_batch_size_call, ih]
  induction calls using List.reverseRecOn with
  | nil => rw [List.foldl_nil, hnil, List.length_nil, unflushed, List.foldl_nil, Nat.zero_mod]
  | append_singleton calls c ih =>
      have hsize := hsize calls
      rw [List.foldl_concat, unflushed, List.foldl_concat]
      rw [unflushed] at ih
      generalize calls.foldl call w = v at ih hsize ⊢
      generalize calls.foldl (unflushedAfter s) 0 = n at ih ⊢
      cases c with
      | append id value timestamp =>
          change ((v.append Io.success id value timestamp).buffer s).length = _
          rw [unflushedAfter]
          -- only appends to this sensor count, and a full batch empties its buffer
          by_cases hid : s = id
          · subst hid
            rw [length_buffer_append, if_pos rfl, ih, hsize]
            exact (succ_mod_eq_ite n hbatch).symm
          · rw [buffer_append_of_ne hid, if_neg hid, ih]
      | flush_all =>
          change ((v.flush_all Io.success).buffer s).length = _
          rw [buffer_flush_all, List.length_nil, unflushedAfter, Nat.zero_mod]
      | read_since id since =>
          change ((v.flush_pending Io.success id).buffer s).length = _
          rw [buffer_flush_pending, unflushedAfter]
          split
          · rw [List.length_nil, Nat.zero_mod]
          · exact ih
      | prune_older_than now max_age =>
          change ((v.flush_all Io.success).buffer s).length = _
          rw [buffer_flush_all, List.length_nil, unflushedAfter, Nat.zero_mod]

/-! ## (3) Comparison with a writer that buffers nothing -/

/-- A writer that writes every record at once. -/
def writeThrough (files : Files) : WalWriter where
  files := files
  flush_batch_size_ := 1

/-- **A writer that buffers nothing** has in its files what the calls should record. -/
theorem content_writeThrough (files : Files) (calls : List Call) (s : String) :
    (calls.foldl call (writeThrough files)).files.content (file_for s) =
      calls.foldl (recordedAfter s) (files.content (file_for s)) := by
  have hbuffer : (calls.foldl call (writeThrough files)).buffer s = [] := by
    rw [← List.length_eq_zero_iff, length_buffer_calls Nat.one_pos rfl]
    exact Nat.mod_one _
  rw [← recorded_of_buffer_nil hbuffer, recorded_calls, recorded_of_buffer_nil rfl]
  rfl

/-- **When nothing of a sensor waits in memory**: its file is the same as if every record had been
written at once, if and only if the number of records appended since its last flush is a multiple of
the batch. -/
theorem content_eq_writeThrough_iff (files : Files) {flush_batch_size : Nat}
    (hbatch : 0 < flush_batch_size) (calls : List Call) (s : String) :
    (calls.foldl call { files := files, flush_batch_size_ := flush_batch_size }).files.content
          (file_for s) =
        (calls.foldl call (writeThrough files)).files.content (file_for s) ↔
      flush_batch_size ∣ unflushed s calls := by
  let start : WalWriter := { files := files, flush_batch_size_ := flush_batch_size }
  have hlength := @length_buffer_calls start s hbatch rfl calls
  have hrecorded : (calls.foldl call start).recorded s =
      (calls.foldl call (writeThrough files)).files.content (file_for s) := by
    rw [content_writeThrough, recorded_calls, recorded_of_buffer_nil rfl]
  -- the file falls short by the buffer, so both agree when the buffer is empty
  rw [Nat.dvd_iff_mod_eq_zero, ← hrecorded]
  change _ = _ ++ _ ↔ unflushed s calls % start.flush_batch_size_ = 0
  rw [List.self_eq_append_right, ← hlength, List.length_eq_zero_iff]
  constructor
  · intro h
    have hzero := congrArg List.length h
    rw [walRecord.length_encodeAll] at hzero
    exact List.eq_nil_of_length_eq_zero ((Nat.mul_eq_zero.mp hzero).resolve_right (by decide))
  · intro h
    rw [h, walRecord.encodeAll_nil]

end WalWriter

end Ironpulse.Storage
