import Ironpulse.Ingest.Segment
import Ironpulse.Lib.StepMachine

/-! # Reading a segment of any content

The two loops of `read_segment` (`src/ingest/segment.cpp`) on a file of arbitrary bytes: the loop
over the batches and, inside it, the search for the next batch header after a damaged one.

* **`peek_of_length`**: what the header of a batch decides.
* **`Reader`**, **`step`**: the loops, one round at a time.
* **`Inv`**: what every round keeps.
* **`read_segment_sound`**: the reader returns, and only verified batches are delivered. -/

namespace Ironpulse.Ingest

open ByteCodec Core Storage StepMachine

/-! ## (1) Reading a batch header -/

/-- Inside the file a read returns what was asked for. -/
theorem length_read_at {file : List UInt8} {offset n : Nat} (h : offset + n ≤ file.length) :
    (read_at file offset n).length = n := by
  rw [read_at, List.length_take, List.length_drop]
  omega

/-- A read inside the front does not see what is behind it. -/
theorem read_at_append_of_le {front rest : List UInt8} {offset n : Nat}
    (h : offset + n ≤ front.length) : read_at (front ++ rest) offset n = read_at front offset n := by
  rw [read_at, read_at, List.drop_append_of_le_length (by omega),
    List.take_append_of_le_length (by rw [List.length_drop]; omega)]

/-- A read behind the front does not see the front. -/
theorem read_at_append_right (front rest : List UInt8) (offset n : Nat) :
    read_at (front ++ rest) (front.length + offset) n = read_at rest offset n := by
  rw [read_at, read_at, ← List.drop_drop, List.drop_left]

/-- The rest of a read is a read further on. -/
theorem drop_read_at (file : List UInt8) (pos size n : Nat) :
    (read_at file pos size).drop n = read_at file (pos + n) (size - n) := by
  rw [read_at, read_at, List.drop_take, List.drop_drop]

/-- The front of a read is a shorter read. -/
theorem take_read_at (file : List UInt8) (pos : Nat) {size n : Nat} (h : n ≤ size) :
    (read_at file pos size).take n = read_at file pos n := by
  rw [read_at, read_at, List.take_take, Nat.min_eq_left h]

/-- A read never returns more than was asked for. -/
theorem length_read_at_le (file : List UInt8) (pos size : Nat) :
    (read_at file pos size).length ≤ size := List.length_take_le _ _

/-- The batch header at an offset. -/
def header_at (file : List UInt8) (pos : Nat) : BatchHeader :=
  batchHeader.decode (read_at file pos 16)

/-- The magic number of a header is its first four bytes. -/
theorem magic_header_at (file : List UInt8) (pos : Nat) :
    (header_at file pos).magic = RecordCodec.uint32.decode (read_at file pos 4) := by
  rw [← take_read_at file pos (by decide : 4 ≤ 16)]
  rfl

/-- The reader accepts the magic and the version of a batch. -/
def BatchHeader.known (header : BatchHeader) : Prop :=
  header.magic = kMagic ∧ header.version = kVersion

instance (header : BatchHeader) : Decidable header.known := inferInstanceAs (Decidable (_ ∧ _))

/-- **What `peek` makes of the 16 bytes of a header**: whether it is known and, if so, how long the
batch is. -/
theorem peek_of_length {data : List UInt8} (hlength : data.length = 16) :
    (((peek data).status = .bad_magic ∨ (peek data).status = .unsupported_version) ↔
        ¬ (batchHeader.decode data).known) ∧
      ((batchHeader.decode data).known →
        (peek data).header = batchHeader.decode data ∧
          (peek data).batch_bytes.toNat = 16 + (batchHeader.decode data).count.toNat * 24) := by
  have htake : data.take 16 = data := List.take_of_length_le (Nat.le_of_eq hlength)
  unfold peek BatchHeader.known
  rw [if_neg (Nat.not_lt.mpr (Nat.le_of_eq hlength.symm)), htake]
  dsimp only
  by_cases hmagic : (batchHeader.decode data).magic = kMagic
  · rw [if_neg (not_not.mpr hmagic)]
    by_cases hversion : (batchHeader.decode data).version = kVersion
    · rw [if_neg (not_not.mpr hversion)]
      -- a known header: what is left to check is whether the batch is complete
      refine ⟨?_, fun _ => ⟨rfl, toNat_required_buffer_size_count _⟩⟩
      simp only [hmagic, hversion, and_self, not_true_eq_false, iff_false]
      split <;> simp
    · rw [if_pos hversion]
      simp [hversion]
  · rw [if_pos hmagic]
    simp [hmagic]

/-- What `peek` makes of the header at an offset. -/
theorem peek_read_at {file : List UInt8} {pos : Nat} (h : pos + 16 ≤ file.length) :
    (((peek (read_at file pos 16)).status = .bad_magic ∨
        (peek (read_at file pos 16)).status = .unsupported_version) ↔
        ¬ (header_at file pos).known) ∧
      ((header_at file pos).known →
        (peek (read_at file pos 16)).header = header_at file pos ∧
          (peek (read_at file pos 16)).batch_bytes.toNat =
            16 + (header_at file pos).count.toNat * 24) :=
  peek_of_length (length_read_at h)

/-! ## (2) One round of the loop over the batches -/

section Rounds

variable {file : List UInt8} {pos : Nat}

/-- At the end of the file reading ends. -/
theorem read_batches_of_end (h : ¬ pos < file.length) (fuel : Nat) (result : SegmentReadResult) :
    read_batches file fuel pos result = result := by
  cases fuel with
  | zero => rfl
  | succ fuel => rw [read_batches, if_pos h]

/-- Less than a header at the end is a truncated tail. -/
theorem read_batches_of_short (h : pos < file.length) (hshort : file.length - pos < 16)
    (fuel : Nat) (result : SegmentReadResult) :
    read_batches file (fuel + 1) pos result = { result with truncated_tail := true } := by
  rw [read_batches, if_neg (not_not.mpr h), if_pos hshort]

/-- An unknown header counts as damaged, and the search for the next one begins. -/
theorem read_batches_of_unknown (hinside : pos + 16 ≤ file.length)
    (hunknown : ¬ (header_at file pos).known) (fuel : Nat) (result : SegmentReadResult) :
    read_batches file (fuel + 1) pos result =
      read_batches file fuel (resync file file.length (pos + 8))
        { result with corrupt_batches := result.corrupt_batches + 1 } := by
  rw [read_batches, if_neg (by omega), if_neg (by omega)]
  dsimp only
  rw [if_pos ((peek_read_at hinside).1.mpr hunknown)]

/-- A known header decides about its whole batch. -/
theorem read_batches_of_known (hinside : pos + 16 ≤ file.length)
    (hknown : (header_at file pos).known) (fuel : Nat) (result : SegmentReadResult) :
    read_batches file (fuel + 1) pos result =
      let batch_bytes := 16 + (header_at file pos).count.toNat * 24
      let payload := read_at file (pos + 16) ((header_at file pos).count.toNat * 24)
      if pos + batch_bytes > file.length then { result with truncated_tail := true }
      else if crc32c payload = (header_at file pos).payload_crc32c then
        read_batches file fuel (pos + batch_bytes)
          { result with
            batches := result.batches + 1
            samples := result.samples + (telemetrySample.decodeAll payload).length
            delivered := result.delivered ++ [⟨pos, telemetrySample.decodeAll payload⟩] }
      else
        read_batches file fuel (pos + batch_bytes)
          { result with corrupt_batches := result.corrupt_batches + 1 } := by
  obtain ⟨hstatus, hpeek⟩ := peek_read_at hinside
  obtain ⟨hheader, hbytes⟩ := hpeek hknown
  rw [read_batches, if_neg (by omega), if_neg (by omega)]
  dsimp only
  -- a batch that is cut off is reported as a truncated tail by the caller
  rw [if_neg (fun hbad => hstatus.mp hbad hknown), hbytes, hheader, Nat.add_sub_cancel_left]

end Rounds

/-! ## (3) The loops as a machine -/

/-- Where the reader is. -/
inductive Cursor where
  /-- In front of the loop over the batches. -/
  | batch (pos : Nat)
  /-- In front of the loop that looks for a batch header. -/
  | resync (pos : Nat)
  | done
  deriving DecidableEq

/-- The offset, until the reader returns. -/
def Cursor.pos : Cursor → Option Nat
  | .batch pos | .resync pos => some pos
  | .done => none

/-- The reader after the tag table: where it is, the result so far, the calls of `samples.resize`
with the offset of their batch, and the sums of offsets that it has computed. -/
structure Reader where
  cursor : Cursor
  result : SegmentReadResult
  resizes : List (Nat × Nat) := []
  offsets : List Nat := []

namespace Reader

/-- A round of the loop that looks for a batch header, or its end. -/
def resync_round (file : List UInt8) (r : Reader) (pos : Nat) : Reader :=
  if pos + 16 ≤ file.length then
    if RecordCodec.uint32.decode (read_at file pos 4) = kMagic then
      { r with cursor := .batch pos, offsets := r.offsets ++ [pos + 16] }
    else { r with cursor := .resync (pos + 8), offsets := r.offsets ++ [pos + 16, pos + 8] }
  else { r with cursor := .batch pos, offsets := r.offsets ++ [pos + 16] }

/-- A round of the loop over the batches, as far as a loop inside it, or its end. -/
def batch_round (file : List UInt8) (r : Reader) (pos : Nat) : Reader :=
  if ¬ pos < file.length then { r with cursor := .done }
  else if file.length - pos < 16 then
    { r with cursor := .done, result := { r.result with truncated_tail := true } }
  else
    let peeked := peek (read_at file pos 16)
    if peeked.status = .bad_magic ∨ peeked.status = .unsupported_version then
      { r with
        cursor := .resync (pos + 8)
        result := { r.result with corrupt_batches := r.result.corrupt_batches + 1 }
        offsets := r.offsets ++ [pos + 8] }
    else
      let batch_bytes := peeked.batch_bytes.toNat
      if pos + batch_bytes > file.length then
        { r with
          cursor := .done
          result := { r.result with truncated_tail := true }
          offsets := r.offsets ++ [pos + batch_bytes] }
      else
        let payload := read_at file (pos + 16) (batch_bytes - 16)
        let samples := telemetrySample.decodeAll payload
        { cursor := .batch (pos + batch_bytes)
          result :=
            if crc32c payload = peeked.header.payload_crc32c then
              { r.result with
                batches := r.result.batches + 1
                samples := r.result.samples + samples.length
                delivered := r.result.delivered ++ [⟨pos, samples⟩] }
            else { r.result with corrupt_batches := r.result.corrupt_batches + 1 }
          resizes := r.resizes ++ [(pos, peeked.header.count.toNat)]
          offsets := r.offsets ++ [pos + 16, pos + batch_bytes] }

/-- One round; none once the reader has returned. -/
def step (file : List UInt8) (r : Reader) (_ : Unit) : Option Reader :=
  match r.cursor with
  | .batch pos => some (r.batch_round file pos)
  | .resync pos => some (r.resync_round file pos)
  | .done => none

/-! ## (4) What every round keeps -/

end Reader

/-- The header of a segment file. -/
def segment_header (file : List UInt8) : SegmentHeader := segmentHeader.decode (read_at file 0 32)

/-- The tag table of a segment file. -/
def table_at (file : List UInt8) : List UInt8 :=
  read_at file 32 (segment_header file).tag_table_bytes.toNat

/-- Where the tag table ends. -/
def table_end (file : List UInt8) : Nat := 32 + (segment_header file).tag_table_bytes.toNat

/-- The bytes of a delivered batch. -/
def Delivery.bytes (d : Delivery) : Nat := 16 + d.samples.length * 24

/-- What a delivered batch was in the file. -/
structure Delivery.Sound (file : List UInt8) (d : Delivery) : Prop where
  aligned : 8 ∣ d.offset
  after_table : table_end file ≤ d.offset
  inside : d.offset + d.bytes ≤ file.length
  magic : (header_at file d.offset).magic = kMagic
  version : (header_at file d.offset).version = kVersion
  count : (header_at file d.offset).count.toNat = d.samples.length
  crc : crc32c (read_at file (d.offset + 16) (d.samples.length * 24)) =
    (header_at file d.offset).payload_crc32c
  samples : d.samples =
    telemetrySample.decodeAll (read_at file (d.offset + 16) (d.samples.length * 24))

namespace Reader

/-- **What every round keeps.** -/
structure Inv (file : List UInt8) (r : Reader) : Prop where
  pos : ∀ pos ∈ r.cursor.pos, 8 ∣ pos ∧ table_end file ≤ pos ∧ pos ≤ file.length + 8
  sound : ∀ d ∈ r.result.delivered, d.Sound file
  behind : ∀ pos ∈ r.cursor.pos, ∀ d ∈ r.result.delivered, d.offset + d.bytes ≤ pos
  ordered : r.result.delivered.Pairwise fun d e => d.offset + d.bytes ≤ e.offset
  batches : r.result.batches = r.result.delivered.length
  samples : r.result.samples = (r.result.delivered.map fun d => d.samples.length).sum
  error : r.result.error = ""
  resizes : ∀ resize ∈ r.resizes, resize.1 + 16 + resize.2 * 24 ≤ file.length
  offsets : ∀ offset ∈ r.offsets, offset ≤ file.length + 2 ^ 37

variable {file : List UInt8} {r : Reader}

/-- A round that delivers nothing and does not go back. -/
theorem Inv.move (h : Inv file r) {r' : Reader}
    (hdelivered : r'.result.delivered = r.result.delivered)
    (hbatches : r'.result.batches = r.result.batches)
    (hsamples : r'.result.samples = r.result.samples) (herror : r'.result.error = r.result.error)
    (hpos : ∀ pos' ∈ r'.cursor.pos, ∃ pos ∈ r.cursor.pos,
      pos ≤ pos' ∧ 8 ∣ pos' ∧ pos' ≤ file.length + 8)
    (hresizes : ∀ resize ∈ r'.resizes, resize.1 + 16 + resize.2 * 24 ≤ file.length)
    (hoffsets : ∀ offset ∈ r'.offsets, offset ≤ file.length + 2 ^ 37) : Inv file r' := by
  refine ⟨fun pos' hpos' => ?_, ?_, fun pos' hpos' => ?_, ?_, ?_, ?_, herror.trans h.error,
    hresizes, hoffsets⟩
  · -- the cursor has moved forwards in steps of eight bytes
    obtain ⟨pos, hmem, hle, haligned, hhi⟩ := hpos pos' hpos'
    obtain ⟨-, hlo, -⟩ := h.pos pos hmem
    exact ⟨haligned, hlo.trans hle, hhi⟩
  · rw [hdelivered]
    exact h.sound
  · obtain ⟨pos, hmem, hle, -⟩ := hpos pos' hpos'
    rw [hdelivered]
    intro d hd
    exact (h.behind pos hmem d hd).trans hle
  · rw [hdelivered]
    exact h.ordered
  · rw [hbatches, hdelivered, h.batches]
  · rw [hsamples, hdelivered, h.samples]

/-- A round that delivers the batch at its offset and goes on behind it. -/
theorem Inv.deliver (h : Inv file r) {d : Delivery} (hmem : d.offset ∈ r.cursor.pos)
    (hsound : d.Sound file) {r' : Reader}
    (hdelivered : r'.result.delivered = r.result.delivered ++ [d])
    (hbatches : r'.result.batches = r.result.batches + 1)
    (hsamples : r'.result.samples = r.result.samples + d.samples.length)
    (herror : r'.result.error = r.result.error) (hcursor : r'.cursor = .batch (d.offset + d.bytes))
    (hresizes : ∀ resize ∈ r'.resizes, resize.1 + 16 + resize.2 * 24 ≤ file.length)
    (hoffsets : ∀ offset ∈ r'.offsets, offset ≤ file.length + 2 ^ 37) : Inv file r' := by
  obtain ⟨haligned, htable, hhi⟩ := h.pos _ hmem
  have hinside := hsound.inside
  have hbehind := h.behind _ hmem
  refine ⟨?_, ?_, ?_, ?_, ?_, ?_, herror.trans h.error, hresizes, hoffsets⟩
  · -- the reader goes on behind the delivered batch, which is a multiple of eight bytes long
    rw [hcursor]
    rintro pos' ⟨⟩
    refine ⟨?_, by omega, by omega⟩
    rw [Delivery.bytes]
    omega
  · rw [hdelivered]
    intro e he
    rcases List.mem_append.mp he with hold | hlast
    · exact h.sound e hold
    · rw [List.mem_singleton.mp hlast]
      exact hsound
  · -- the batches before it end where the delivered one begins
    rw [hcursor, hdelivered]
    rintro pos' ⟨⟩ e he
    rcases List.mem_append.mp he with hold | hlast
    · exact (hbehind e hold).trans (Nat.le_add_right _ _)
    · rw [List.mem_singleton.mp hlast]
  · rw [hdelivered, List.pairwise_append]
    refine ⟨h.ordered, List.pairwise_singleton _ _, fun e he e' he' => ?_⟩
    rw [List.mem_singleton.mp he']
    exact hbehind e he
  · rw [hbatches, hdelivered, h.batches, List.length_append, List.length_singleton]
  · rw [hsamples, hdelivered, h.samples, List.map_append, List.sum_append, List.map_singleton,
      List.sum_singleton]

/-- **A round of the search** for the next header keeps the reader's invariant. -/
theorem inv_resync_round {pos : Nat} (h : Inv file r) (hcursor : r.cursor = .resync pos) :
    Inv file (r.resync_round file pos) := by
  have hmem : pos ∈ r.cursor.pos := by
    rw [hcursor]
    rfl
  obtain ⟨haligned, -, hhi⟩ := h.pos pos hmem
  -- both places where the search can go on
  have hstay : ∀ pos' ∈ (Cursor.batch pos).pos, ∃ pos ∈ r.cursor.pos,
      pos ≤ pos' ∧ 8 ∣ pos' ∧ pos' ≤ file.length + 8 := by
    rintro pos' ⟨⟩
    exact ⟨pos, hmem, le_rfl, haligned, hhi⟩
  have hoffset : ∀ {new : List Nat}, (∀ offset ∈ new, offset ≤ pos + 16) →
      ∀ offset ∈ r.offsets ++ new, offset ≤ file.length + 2 ^ 37 := by
    intro new hnew offset hoffset
    rcases List.mem_append.mp hoffset with hold | hlast
    · exact h.offsets offset hold
    · have := hnew offset hlast
      omega
  unfold resync_round
  split
  · split
    · exact h.move rfl rfl rfl rfl hstay h.resizes (hoffset (by simp))
    · refine h.move rfl rfl rfl rfl ?_ h.resizes (hoffset (by simp))
      rintro pos' ⟨⟩
      exact ⟨pos, hmem, by omega, by omega, by omega⟩
  · exact h.move rfl rfl rfl rfl hstay h.resizes (hoffset (by simp))

/-- The batch at an offset is delivered when its checksum is right. -/
theorem sound_delivery {pos : Nat} (haligned : 8 ∣ pos) (htable : table_end file ≤ pos)
    (hknown : (header_at file pos).known)
    (hinside : pos + (16 + (header_at file pos).count.toNat * 24) ≤ file.length)
    (hcrc : crc32c (read_at file (pos + 16) ((header_at file pos).count.toNat * 24)) =
      (header_at file pos).payload_crc32c) :
    Delivery.Sound file ⟨pos, telemetrySample.decodeAll
      (read_at file (pos + 16) ((header_at file pos).count.toNat * 24))⟩ ∧
    (telemetrySample.decodeAll
      (read_at file (pos + 16) ((header_at file pos).count.toNat * 24))).length =
        (header_at file pos).count.toNat := by
  -- as many samples as the header counts fit into its payload
  have hlength : (telemetrySample.decodeAll
      (read_at file (pos + 16) ((header_at file pos).count.toNat * 24))).length =
        (header_at file pos).count.toNat := by
    rw [telemetrySample.length_decodeAll, length_read_at (by omega), width_telemetrySample,
      Nat.mul_div_cancel _ (by decide)]
  refine ⟨⟨haligned, htable, ?_, hknown.1, hknown.2, hlength.symm, ?_, ?_⟩, hlength⟩
  · rw [Delivery.bytes, hlength]
    exact hinside
  · rw [hlength]
    exact hcrc
  · rw [hlength]

/-- **A round at a header** keeps the reader's invariant. -/
theorem inv_batch_round {pos : Nat} (h : Inv file r) (hcursor : r.cursor = .batch pos) :
    Inv file (r.batch_round file pos) := by
  have hmem : pos ∈ r.cursor.pos := by
    rw [hcursor]
    rfl
  obtain ⟨haligned, htable, hhi⟩ := h.pos pos hmem
  have hdone : ∀ pos' ∈ Cursor.done.pos, ∃ pos ∈ r.cursor.pos,
      pos ≤ pos' ∧ 8 ∣ pos' ∧ pos' ≤ file.length + 8 := by
    intro pos' hpos'
    cases hpos'
  have hoffset : ∀ {new : List Nat}, (∀ offset ∈ new, offset ≤ file.length + 2 ^ 37) →
      ∀ offset ∈ r.offsets ++ new, offset ≤ file.length + 2 ^ 37 := by
    intro new hnew offset hoffset
    rcases List.mem_append.mp hoffset with hold | hlast
    · exact h.offsets offset hold
    · exact hnew offset hlast
  unfold batch_round
  by_cases hlt : pos < file.length
  · rw [if_neg (not_not.mpr hlt)]
    by_cases hshort : file.length - pos < 16
    · -- no room for a header: the reader stops
      rw [if_pos hshort]
      exact h.move rfl rfl rfl rfl hdone h.resizes h.offsets
    · rw [if_neg hshort]
      obtain ⟨hstatus, hpeek⟩ := peek_read_at (by omega : pos + 16 ≤ file.length)
      dsimp only
      by_cases hknown : (header_at file pos).known
      · obtain ⟨hheader, hbytes⟩ := hpeek hknown
        have hcount := (header_at file pos).count.toNat_lt
        rw [if_neg (fun hbad => hstatus.mp hbad hknown), hbytes, hheader, Nat.add_sub_cancel_left]
        split
        · -- the batch would end behind the file; the offset that says so is bounded
          refine h.move rfl rfl rfl rfl hdone h.resizes (hoffset ?_)
          intro offset hoffset
          rw [List.mem_singleton.mp hoffset]
          omega
        · -- the samples are in the file, so the resize for them is bounded by it
          rename_i hinside
          have hnext : ∀ pos' ∈
              (Cursor.batch (pos + (16 + (header_at file pos).count.toNat * 24))).pos,
              ∃ pos ∈ r.cursor.pos, pos ≤ pos' ∧ 8 ∣ pos' ∧ pos' ≤ file.length + 8 := by
            rintro pos' ⟨⟩
            exact ⟨pos, hmem, by omega, by omega, by omega⟩
          have hresizes : ∀ resize ∈ r.resizes ++ [(pos, (header_at file pos).count.toNat)],
              resize.1 + 16 + resize.2 * 24 ≤ file.length := by
            intro resize hresize
            rcases List.mem_append.mp hresize with hold | hlast
            · exact h.resizes resize hold
            · rw [List.mem_singleton.mp hlast]
              dsimp only
              omega
          have hoffsets : ∀ offset ∈ r.offsets ++
              [pos + 16, pos + (16 + (header_at file pos).count.toNat * 24)],
              offset ≤ file.length + 2 ^ 37 := by
            refine hoffset fun offset hoffset => ?_
            simp only [List.mem_cons, List.not_mem_nil, or_false] at hoffset
            omega
          by_cases hcrc : crc32c (read_at file (pos + 16) ((header_at file pos).count.toNat * 24)) =
              (header_at file pos).payload_crc32c
          · -- the batch is delivered; it lies behind the earlier ones and in front of the rest
            obtain ⟨hsound, hlength⟩ := sound_delivery haligned htable hknown (by omega) hcrc
            rw [if_pos hcrc]
            refine h.deliver hmem hsound rfl rfl rfl rfl ?_ hresizes hoffsets
            rw [Delivery.bytes, hlength]
          · rw [if_neg hcrc]
            exact h.move rfl rfl rfl rfl hnext hresizes hoffsets
      · -- no header: the search goes on eight bytes later
        rw [if_pos (hstatus.mpr hknown)]
        refine h.move rfl rfl rfl rfl ?_ h.resizes (hoffset ?_)
        · rintro pos' ⟨⟩
          exact ⟨pos, hmem, by omega, by omega, by omega⟩
        · intro offset hoffset
          rw [List.mem_singleton.mp hoffset]
          omega
  · rw [if_pos hlt]
    exact h.move rfl rfl rfl rfl hdone h.resizes h.offsets

/-- **Every round keeps the invariant.** -/
theorem inv_step {t : Reader} (h : Inv file r) (hstep : step file r () = some t) : Inv file t := by
  unfold step at hstep
  split at hstep
  · rename_i hcursor
    rw [← Option.some.inj hstep]
    exact inv_batch_round h hcursor
  · rename_i hcursor
    rw [← Option.some.inj hstep]
    exact inv_resync_round h hcursor
  · cases hstep

/-! ## (5) The reader returns -/

/-- How many rounds are left at most. -/
def rounds_left (file : List UInt8) (r : Reader) : Nat :=
  match r.cursor with
  | .batch pos => file.length - pos + 1
  | .resync pos => file.length - pos + 2
  | .done => 0

/-- Every round lowers what is left of the file. -/
theorem rounds_left_step {t : Reader} (hstep : step file r () = some t) :
    rounds_left file t < rounds_left file r := by
  unfold step at hstep
  split at hstep
  · rename_i pos hcursor
    rw [← Option.some.inj hstep, rounds_left.eq_def file r, hcursor]
    -- a round at a header goes on by at least eight bytes or ends
    unfold batch_round
    by_cases hlt : pos < file.length
    · rw [if_neg (not_not.mpr hlt)]
      by_cases hshort : file.length - pos < 16
      · rw [if_pos hshort]
        exact Nat.succ_pos _
      · rw [if_neg hshort]
        obtain ⟨hstatus, hpeek⟩ := peek_read_at (by omega : pos + 16 ≤ file.length)
        dsimp only
        by_cases hknown : (header_at file pos).known
        · rw [if_neg (fun hbad => hstatus.mp hbad hknown), (hpeek hknown).2]
          split
          · exact Nat.succ_pos _
          · change file.length - (pos + (16 + _)) + 1 < file.length - pos + 1
            omega
        · rw [if_pos (hstatus.mpr hknown)]
          change file.length - (pos + 8) + 2 < file.length - pos + 1
          omega
    · rw [if_pos hlt]
      exact Nat.succ_pos _
  · rename_i pos hcursor
    rw [← Option.some.inj hstep, rounds_left.eq_def file r, hcursor]
    -- a round of the search goes on by eight bytes or hands the place to the header's round
    unfold resync_round
    split
    · split
      · exact Nat.lt_succ_self _
      · change file.length - (pos + 8) + 2 < file.length - pos + 2
        omega
    · exact Nat.lt_succ_self _
  · cases hstep

/-- The search never goes back. -/
theorem le_resync (file : List UInt8) (fuel pos : Nat) : pos ≤ resync file fuel pos := by
  induction fuel generalizing pos with
  | zero => exact le_rfl
  | succ fuel ih =>
      rw [resync]
      split
      · split
        · exact le_rfl
        · exact (Nat.le_add_right pos 8).trans (ih (pos + 8))
      · exact le_rfl

/-- At a header the reader's next step is a round of the loop. -/
theorem step_batch (file : List UInt8) {pos : Nat} (hcursor : r.cursor = .batch pos) :
    step file r () = some (r.batch_round file pos) := by
  rw [step, hcursor]

/-- In a search the reader's next step is a round of the search. -/
theorem step_resync (file : List UInt8) {pos : Nat} (hcursor : r.cursor = .resync pos) :
    step file r () = some (r.resync_round file pos) := by
  rw [step, hcursor]

/-- The search for a batch header ends where `resync` says, given fuel for the rest of the file. -/
theorem reachable_resync {fuel pos : Nat} (hfuel : file.length ≤ pos + fuel * 8)
    (hcursor : r.cursor = .resync pos) :
    ∃ t, Reachable (step file) r t ∧ t.cursor = .batch (resync file fuel pos) ∧
      t.result = r.result := by
  induction fuel generalizing pos r with
  | zero =>
      have hround := step_resync file hcursor
      refine ⟨_, .of_step hround, ?_⟩
      -- without fuel the place is at the end of the file
      rw [resync_round, if_neg (by omega)]
      exact ⟨rfl, rfl⟩
  | succ fuel ih =>
      have hround := step_resync file hcursor
      rw [resync]
      by_cases hinside : pos + 16 ≤ file.length
      · rw [if_pos hinside]
        by_cases hmagic : RecordCodec.uint32.decode (read_at file pos 4) = kMagic
        · rw [if_pos hmagic]
          refine ⟨_, .of_step hround, ?_⟩
          rw [resync_round, if_pos hinside, if_pos hmagic]
          exact ⟨rfl, rfl⟩
        · -- one step of eight bytes, and the rest of the search from there
          rw [if_neg hmagic]
          rw [resync_round, if_pos hinside, if_neg hmagic] at hround
          obtain ⟨next, hround, hnext, hsame⟩ : ∃ next, step file r () = some next ∧
              next.cursor = .resync (pos + 8) ∧ next.result = r.result := ⟨_, hround, rfl, rfl⟩
          have hlater : file.length ≤ pos + 8 + fuel * 8 := by omega
          obtain ⟨t, hreach, ht, hresult⟩ := ih hlater hnext
          exact ⟨t, (Reachable.of_step hround).trans hreach, ht, hresult.trans hsame⟩
      · rw [if_neg hinside]
        refine ⟨_, .of_step hround, ?_⟩
        rw [resync_round, if_neg hinside]
        exact ⟨rfl, rfl⟩

/-- **The loop over the batches ends with the result of `read_batches`**, given fuel for the rest of
the file. -/
theorem reachable_read_batches {fuel pos : Nat} (hfuel : file.length ≤ pos + fuel * 8)
    (hcursor : r.cursor = .batch pos) :
    ∃ t, Reachable (step file) r t ∧ t.cursor = .done ∧
      t.result = read_batches file fuel pos r.result := by
  induction fuel generalizing pos r with
  | zero =>
      refine ⟨_, .of_step (step_batch file hcursor), ?_⟩
      rw [batch_round, if_pos (by omega)]
      exact ⟨rfl, rfl⟩
  | succ fuel ih =>
      have hround := step_batch file hcursor
      rw [read_batches]
      unfold batch_round at hround
      by_cases hlt : pos < file.length
      · rw [if_neg (not_not.mpr hlt)] at hround ⊢
        by_cases hshort : file.length - pos < 16
        · rw [if_pos hshort] at hround ⊢
          exact ⟨_, .of_step hround, rfl, rfl⟩
        · rw [if_neg hshort] at hround ⊢
          dsimp only at hround ⊢
          by_cases hbad : (peek (read_at file pos 16)).status = .bad_magic ∨
              (peek (read_at file pos 16)).status = .unsupported_version
          · -- the search for the next header, then the loop from there on
            rw [if_pos hbad] at hround ⊢
            obtain ⟨next, hround, hnext, hlost⟩ : ∃ next, step file r () = some next ∧
                next.cursor = .resync (pos + 8) ∧ next.result =
                  { r.result with corrupt_batches := r.result.corrupt_batches + 1 } :=
              ⟨_, hround, rfl, rfl⟩
            have hsearched : file.length ≤ pos + 8 + file.length * 8 := by omega
            obtain ⟨u, hsearch, hu, hresult⟩ := reachable_resync hsearched hnext
            have hbehind := le_resync file file.length (pos + 8)
            have hlater : file.length ≤ resync file file.length (pos + 8) + fuel * 8 := by omega
            obtain ⟨t, hrest, ht, hresult'⟩ := ih hlater hu
            rw [hresult, hlost] at hresult'
            exact ⟨t, ((Reachable.of_step hround).trans hsearch).trans hrest, ht, hresult'⟩
          · rw [if_neg hbad] at hround ⊢
            by_cases hlong : pos + (peek (read_at file pos 16)).batch_bytes.toNat > file.length
            · rw [if_pos hlong] at hround ⊢
              exact ⟨_, .of_step hround, rfl, rfl⟩
            · rw [if_neg hlong] at hround ⊢
              obtain ⟨hstatus, hpeek⟩ := peek_read_at (by omega : pos + 16 ≤ file.length)
              have hbytes := (hpeek (not_not.mp (fun hne => hbad (hstatus.mpr hne)))).2
              have hlater : file.length ≤
                  pos + (peek (read_at file pos 16)).batch_bytes.toNat + fuel * 8 := by
                omega
              have hrest : ∀ next, step file r () = some next →
                  next.cursor = .batch (pos + (peek (read_at file pos 16)).batch_bytes.toNat) →
                  ∃ t, Reachable (step file) r t ∧ t.cursor = .done ∧ t.result = read_batches file
                    fuel (pos + (peek (read_at file pos 16)).batch_bytes.toNat) next.result := by
                intro next hround hnext
                obtain ⟨t, hreach, ht⟩ := ih hlater hnext
                exact ⟨t, (Reachable.of_step hround).trans hreach, ht⟩
              obtain ⟨t, hreach, ht, hresult⟩ := hrest _ hround rfl
              refine ⟨t, hreach, ht, hresult.trans ?_⟩
              dsimp only
              split
              · rfl
              · rfl
      · rw [if_pos hlt] at hround ⊢
        exact ⟨_, .of_step hround, rfl, rfl⟩

end Reader

/-! ## (6) Any file -/

/-- A malformed tag table has a message. -/
theorem decode_tag_table_error_ne {json : JsonLibrary} {text : List UInt8} {what : String}
    (h : decode_tag_table json text = .error what) : what ≠ "" := by
  unfold decode_tag_table at h
  dsimp only at h
  rw [Except.mapError.eq_def] at h
  split at h
  · rw [← Except.error.inj h]
    simp
  · cases h

/-- What the reader accepts as the front of a segment. -/
structure FrontAccepted (json : JsonLibrary) (file : List UInt8) (tags : List TagInfo) : Prop where
  header : 32 ≤ file.length
  magic : (segment_header file).magic = kSegmentMagic
  version : (segment_header file).version = kSegmentVersion
  table : table_end file ≤ file.length
  crc : crc32c (table_at file) = (segment_header file).tag_table_crc32c
  tags : decode_tag_table json (table_at file) = .ok tags

/-- **The front of a file** is refused with a message, or the loop over the batches begins behind
the tag table. -/
theorem read_segment_cases (json : JsonLibrary) (path : String) (file : List UInt8) :
    (∃ what, what ≠ "" ∧ read_segment json path (some file) = { error := what }) ∨
      ∃ tags, FrontAccepted json file tags ∧ read_segment json path (some file) =
        read_batches file file.length (align8 (table_end file))
          { tags := tags, created_ms := (segment_header file).created_ms } := by
  -- the checks of the front, in the order of the code
  unfold read_segment
  dsimp only
  split
  · exact .inl ⟨_, by decide, rfl⟩
  · rename_i hheader
    split
    · exact .inl ⟨_, by decide, rfl⟩
    · rename_i hmagic
      split
      · exact .inl ⟨_, by simp, rfl⟩
      · rename_i hversion
        split
        · exact .inl ⟨_, by decide, rfl⟩
        · rename_i htable
          split
          · exact .inl ⟨_, by decide, rfl⟩
          · rename_i hcrc
            split
            · rename_i what hdecode
              exact .inl ⟨what, decode_tag_table_error_ne hdecode, rfl⟩
            · rename_i tags hdecode
              -- the table is as long as the header says
              have hend : 32 + (table_at file).length = table_end file := by
                rw [table_at, length_read_at (Nat.not_lt.mp htable :
                  32 + (segment_header file).tag_table_bytes.toNat ≤ file.length), table_end]
              refine .inr ⟨tags, ⟨Nat.not_lt.mp hheader, not_not.mp hmagic, not_not.mp hversion,
                Nat.not_lt.mp htable, not_not.mp hcrc, hdecode⟩, ?_⟩
              rw [← hend]
              rfl

/-- An accepted front is read. -/
theorem read_segment_of_accepted {json : JsonLibrary} {file : List UInt8} {tags : List TagInfo}
    (h : FrontAccepted json file tags) (path : String) :
    read_segment json path (some file) = read_batches file file.length (align8 (table_end file))
      { tags := tags, created_ms := (segment_header file).created_ms } := by
  have hend : 32 + (table_at file).length = table_end file := by
    rw [table_at, length_read_at (h.table : 32 + (segment_header file).tag_table_bytes.toNat ≤ _),
      table_end]
  -- every check of the front is passed
  have hmagic : ¬ (segmentHeader.decode (read_at file 0 32)).magic ≠ kSegmentMagic :=
    not_not.mpr h.magic
  have hversion : ¬ (segmentHeader.decode (read_at file 0 32)).version ≠ kSegmentVersion :=
    not_not.mpr h.version
  have htable : ¬ 32 + (segmentHeader.decode (read_at file 0 32)).tag_table_bytes.toNat >
      file.length := Nat.not_lt.mpr h.table
  have hcrc : ¬ crc32c (read_at file 32
      (segmentHeader.decode (read_at file 0 32)).tag_table_bytes.toNat) ≠
        (segmentHeader.decode (read_at file 0 32)).tag_table_crc32c := not_not.mpr h.crc
  have htags : decode_tag_table json (read_at file 32
      (segmentHeader.decode (read_at file 0 32)).tag_table_bytes.toNat) = .ok tags := h.tags
  rw [read_segment]
  dsimp only
  rw [if_neg (Nat.not_lt.mpr h.header), if_neg hmagic, if_neg hversion, if_neg htable, if_neg hcrc,
    htags, ← hend]
  rfl

/-- The reader behind an accepted tag table. -/
def Reader.start (file : List UInt8) (tags : List TagInfo) : Reader where
  cursor := .batch (align8 (table_end file))
  result := { tags := tags, created_ms := (segment_header file).created_ms }

/-- Behind an accepted front the reader starts with its invariant. -/
theorem Reader.inv_start {json : JsonLibrary} {file : List UInt8} {tags : List TagInfo}
    (h : FrontAccepted json file tags) : Reader.Inv file (Reader.start file tags) := by
  have htable := h.table
  -- the reader starts behind the table, with nothing delivered
  refine ⟨?_, ?_, ?_, ?_, rfl, rfl, rfl, ?_, ?_⟩
  · rintro pos ⟨⟩
    rw [align8]
    omega
  · intro d hd
    cases hd
  · intro pos _ d hd
    cases hd
  · exact List.Pairwise.nil
  · intro resize hresize
    cases hresize
  · intro offset hoffset
    cases hoffset

/-- **The reader is sound and terminates on any file.** It refuses the front of the file and
delivers nothing, or its loops end after at most as many rounds as the file has bytes. Then every
delivered batch is a verified byte range of the file behind the tag table, the ranges are in order
and disjoint, the counts are those of the deliveries, no resize goes beyond the rest of the file,
and no offset that the loops compute is far behind its end: none wraps at `2 ^ 64`. -/
theorem read_segment_sound (json : JsonLibrary) (path : String) (file : List UInt8) :
    let result := read_segment json path (some file)
    (result.error ≠ "" → result.delivered = []) ∧
      (result.error = "" → ∃ tags rounds reader,
        rounds.length ≤ file.length ∧
          run (Reader.step file) (Reader.start file tags) rounds = some reader ∧
          Reader.step file reader () = none ∧ reader.result = result ∧
          (∀ resize ∈ reader.resizes, resize.1 + 16 + resize.2 * 24 ≤ file.length) ∧
          ∀ offset ∈ reader.offsets, offset ≤ file.length + 2 ^ 37) ∧
      (∀ d ∈ result.delivered, d.Sound file) ∧
      (result.delivered.Pairwise fun d e => d.offset + d.bytes ≤ e.offset) ∧
      result.batches = result.delivered.length ∧
      result.samples = (result.delivered.map fun d => d.samples.length).sum := by
  rcases read_segment_cases json path file with ⟨what, hwhat, hread⟩ | ⟨tags, hfront, hread⟩
  · -- a rejected front delivers nothing
    rw [hread]
    refine ⟨fun _ => rfl, fun hnone => absurd hnone hwhat, ?_, List.Pairwise.nil, rfl, rfl⟩
    intro d hd
    cases hd
  · -- behind an accepted front the rounds of the reader compute the same result
    obtain ⟨reader, ⟨rounds, hrun⟩, hdone, hresult⟩ :=
      Reader.reachable_read_batches (r := Reader.start file tags)
        (by omega : file.length ≤ align8 (table_end file) + file.length * 8) rfl
    have hinv : Reader.Inv file reader :=
      run_invariant (fun hinv hstep => Reader.inv_step hinv hstep) (Reader.inv_start hfront) hrun
    have hrounds : rounds.length + Reader.rounds_left file reader ≤
        Reader.rounds_left file (Reader.start file tags) := by
      refine length_add_measure_le_of_run ?_ (Reader.inv_start hfront) hrun
      exact fun hinv hstep => ⟨Reader.inv_step hinv hstep, Reader.rounds_left_step hstep⟩
    have hstart : Reader.rounds_left file (Reader.start file tags) =
        file.length - align8 (table_end file) + 1 := rfl
    have hfar : 32 ≤ align8 (table_end file) := by
      rw [align8, table_end]
      omega
    have hlong := hfront.header
    rw [hread]
    change reader.result = read_batches file file.length (align8 (table_end file))
      { tags := tags, created_ms := (segment_header file).created_ms } at hresult
    rw [← hresult]
    refine ⟨fun hne => absurd hinv.error hne, fun _ => ⟨tags, rounds, reader, by omega, hrun, ?_,
      rfl, hinv.resizes, hinv.offsets⟩, hinv.sound, hinv.ordered, hinv.batches, hinv.samples⟩
    rw [Reader.step, hdone]

end Ironpulse.Ingest
