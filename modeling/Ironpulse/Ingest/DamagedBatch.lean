import Ironpulse.Ingest.SegmentRoundTrip

/-! # A damaged batch costs only itself

A complete segment in which the bytes of one batch have been changed: its payload, so that the
checksum no longer matches, or the magic or the version in its header. Behind a header that it does
not know, the reader looks for the next one in steps of eight bytes.

* **`resync_eq`**: where the search for the next header ends.
* **`Damaged`**: what can have happened to a batch.
* **`read_batches_damaged`**: the reader goes on behind the damaged batch.
* **`read_segment_damaged`**: every other batch is delivered. -/

namespace Ironpulse.Ingest

open ByteCodec Core Storage

/-! ## (1) The search for the next header -/

/-- The four bytes at an offset are the magic of a batch. -/
def magic_at (file : List UInt8) (pos : Nat) : Prop :=
  RecordCodec.uint32.decode (read_at file pos 4) = kMagic

instance (file : List UInt8) (pos : Nat) : Decidable (magic_at file pos) :=
  inferInstanceAs (Decidable (_ = _))

/-- **Where the search ends**: at the first place, counted in steps of eight bytes, that has the
magic or is too close to the end for a header. -/
theorem resync_eq {file : List UInt8} {steps : Nat} :
    ∀ {fuel pos : Nat}, steps ≤ fuel →
      (∀ j < steps, pos + 8 * j + 16 ≤ file.length ∧ ¬ magic_at file (pos + 8 * j)) →
      (pos + 8 * steps + 16 ≤ file.length → magic_at file (pos + 8 * steps)) →
      resync file fuel pos = pos + 8 * steps := by
  -- along the words that the search passes over
  induction steps with
  | zero =>
      intro fuel pos _ _ hstop
      cases fuel with
      | zero => rfl
      | succ fuel =>
          rw [resync]
          by_cases hinside : pos + 16 ≤ file.length
          · have hmagic : RecordCodec.uint32.decode (read_at file pos 4) = kMagic := hstop hinside
            rw [if_pos hinside, if_pos hmagic]
            rfl
          · rw [if_neg hinside]
            rfl
  | succ steps ih =>
      intro fuel pos hfuel hpassed hstop
      cases fuel with
      -- the search goes on in steps of eight bytes
      | zero => exact absurd hfuel (Nat.not_succ_le_zero _)
      | succ fuel =>
          obtain ⟨hinside, hmagic⟩ : pos + 16 ≤ file.length ∧
              ¬ RecordCodec.uint32.decode (read_at file pos 4) = kMagic :=
            hpassed 0 (Nat.succ_pos _)
          have hnext : pos + 8 * (steps + 1) = pos + 8 + 8 * steps := by ring
          rw [resync, if_pos hinside, if_neg hmagic, hnext]
          refine ih (Nat.le_of_succ_le_succ hfuel) (fun j hj => ?_) ?_
          · have hlater := hpassed (j + 1) (Nat.succ_lt_succ hj)
            rwa [show pos + 8 * (j + 1) = pos + 8 + 8 * j by ring] at hlater
          · rwa [hnext] at hstop

/-! ## (2) Damage -/

/-- What can have happened to the bytes of a batch. -/
inductive Damaged (samples : List TelemetrySample) : List UInt8 → Prop
  /-- The payload no longer matches the checksum. -/
  | payload (payload : List UInt8) (length : payload.length = samples.length * 24)
      (crc : crc32c payload ≠ (headerOf samples).payload_crc32c) :
      Damaged samples (batchHeader.encode (headerOf samples) ++ payload)
  /-- The magic or the version is wrong, and nothing in the rest looks like a batch. -/
  | identification (magic : UInt32) (version : UInt16) (wrong : magic ≠ kMagic ∨ version ≠ kVersion)
      (rest : ∀ j, 0 < j → 8 * j < (encodedBatch samples).length →
        ¬ magic_at (batchHeader.encode { headerOf samples with magic, version } ++
          telemetrySample.encodeAll samples) (8 * j)) :
      Damaged samples (batchHeader.encode { headerOf samples with magic, version } ++
        telemetrySample.encodeAll samples)

/-- Damage keeps the size of the batch. -/
theorem Damaged.length {samples : List TelemetrySample} {bytes : List UInt8}
    (h : Damaged samples bytes) : bytes.length = (encodedBatch samples).length := by
  have hheader : ∀ header, (batchHeader.encode header).length = 16 := batchHeader.length_encode
  cases h with
  | payload payload hlength hcrc =>
      rw [List.length_append, hheader, hlength, length_encodedBatch]
  | identification magic version hwrong hrest =>
      rw [List.length_append, hheader, encodedBatch, List.length_append, hheader]

/-- A complete batch begins with the magic. -/
theorem magic_at_encodedBatch (before rest : List UInt8) (samples : List TelemetrySample) :
    magic_at (before ++ (encodedBatch samples ++ rest)) before.length := by
  have hheader := header_at_append before (telemetrySample.encodeAll samples ++ rest)
    (headerOf samples)
  rw [magic_at, encodedBatch, List.append_assoc, ← magic_header_at, hheader]
  rfl

/-! ## (3) Reading behind the damage -/

/-- No place in the rest of the batch has the magic, also in the file. -/
theorem not_magic_at_append {bytes : List UInt8} {offset : Nat}
    (hinside : offset + 4 ≤ bytes.length) (h : ¬ magic_at bytes offset)
    (before rest : List UInt8) :
    ¬ magic_at (before ++ (bytes ++ rest)) (before.length + offset) := by
  rwa [magic_at, read_at_append_right, read_at_append_of_le hinside]

/-- **The reader goes on behind an unknown header.** The search finds the next batch; if none
follows, it ends too close to the end of the file, which looks like a truncated tail. -/
theorem read_batches_unidentified {samples : List TelemetrySample} {magic : UInt32}
    {version : UInt16} (hwrong : magic ≠ kMagic ∨ version ≠ kVersion) {bytes : List UInt8}
    (hbytes : bytes = batchHeader.encode { headerOf samples with magic, version } ++
      telemetrySample.encodeAll samples)
    (hrest : ∀ j, 0 < j → 8 * j < bytes.length → ¬ magic_at bytes (8 * j)) (before : List UInt8)
    (after : List (List TelemetrySample)) {fuel : Nat}
    (hfuel : (before ++ (bytes ++ after.flatMap encodedBatch)).length ≤ before.length + fuel * 8)
    (result : SegmentReadResult) :
    ∃ fuel', (before ++ (bytes ++ after.flatMap encodedBatch)).length ≤
        (before ++ bytes).length + fuel' * 8 ∧
      read_batches (before ++ (bytes ++ after.flatMap encodedBatch)) fuel before.length result =
        read_batches (before ++ (bytes ++ after.flatMap encodedBatch)) fuel'
          (before ++ bytes).length
          { result with
            corrupt_batches := result.corrupt_batches + 1
            truncated_tail := result.truncated_tail || after.isEmpty } := by
  have hsize : bytes.length = 16 + samples.length * 24 := by
    rw [hbytes, List.length_append, batchHeader.length_encode, telemetrySample.length_encodeAll,
      width_batchHeader, width_telemetrySample]
  have hbehind : (before ++ bytes).length = before.length + bytes.length := List.length_append
  have hlength : (before ++ (bytes ++ after.flatMap encodedBatch)).length =
      before.length + (bytes.length + (after.flatMap encodedBatch).length) := by
    rw [List.length_append, List.length_append]
  have hheader : header_at (before ++ (bytes ++ after.flatMap encodedBatch)) before.length =
      { headerOf samples with magic, version } := by
    rw [hbytes, List.append_assoc]
    exact header_at_append ..
  have hunknown : ¬ (header_at (before ++ (bytes ++ after.flatMap encodedBatch))
      before.length).known := by
    rw [hheader]
    rintro ⟨hmagic, hversion⟩
    exact hwrong.elim (fun hne => hne hmagic) fun hne => hne hversion
  have hpassed : ∀ j, 8 * j + 8 < bytes.length →
      ¬ magic_at (before ++ (bytes ++ after.flatMap encodedBatch)) (before.length + 8 + 8 * j) := by
    intro j hlt
    have hplace : before.length + 8 + 8 * j = before.length + 8 * (j + 1) := by ring
    rw [hplace]
    exact not_magic_at_append (by omega) (hrest (j + 1) (Nat.succ_pos j) (by omega)) before _
  cases fuel with
  | zero => omega
  | succ fuel =>
      rw [read_batches_of_unknown (by omega) hunknown]
      cases after with
      | nil =>
          -- nothing follows: the search stops eight bytes in front of the end
          rw [List.flatMap_nil, List.append_nil] at hlength hfuel hpassed ⊢
          rw [List.length_nil] at hlength
          cases fuel with
          | zero => omega
          | succ fuel =>
              refine ⟨fuel + 1, by omega, ?_⟩
              have hsearch : resync (before ++ bytes) (before ++ bytes).length
                  (before.length + 8) = before.length + 8 + 8 * (samples.length * 3) := by
                refine resync_eq (by omega) (fun j hj => ⟨by omega, ?_⟩) (by omega)
                exact hpassed j (by omega)
              rw [hsearch, read_batches_of_short (by omega) (by omega),
                read_batches_of_end (by omega), List.isEmpty_nil, Bool.or_true]
      | cons next after =>
          -- the search stops at the next batch
          have hnext := length_encodedBatch next
          have hmagic :=
            magic_at_encodedBatch (before ++ bytes) (after.flatMap encodedBatch) next
          rw [List.append_assoc, ← List.flatMap_cons] at hmagic
          have hplace : before.length + 8 + 8 * (samples.length * 3 + 1) =
              (before ++ bytes).length := by omega
          have hfollows : 16 ≤ ((next :: after).flatMap encodedBatch).length := by
            rw [List.flatMap_cons, List.length_append]
            omega
          refine ⟨fuel, by omega, ?_⟩
          rw [resync_eq (by omega) (fun j hj => ⟨by omega, hpassed j (by omega)⟩)
            fun _ => hplace.symm ▸ hmagic, hplace, List.isEmpty_cons, Bool.or_false]

/-- **The reader goes on behind a damaged batch.** If its identification was damaged and no batch
follows, the search ends too close to the end of the file, which looks like a truncated tail. -/
theorem read_batches_damaged {samples : List TelemetrySample} (hcount : samples.length < 2 ^ 32)
    {bytes : List UInt8} (h : Damaged samples bytes) (before : List UInt8)
    (after : List (List TelemetrySample)) {fuel : Nat}
    (hfuel : (before ++ (bytes ++ after.flatMap encodedBatch)).length ≤ before.length + fuel * 8)
    (result : SegmentReadResult) :
    ∃ fuel' truncated, (before ++ (bytes ++ after.flatMap encodedBatch)).length ≤
        (before ++ bytes).length + fuel' * 8 ∧
      read_batches (before ++ (bytes ++ after.flatMap encodedBatch)) fuel before.length result =
        read_batches (before ++ (bytes ++ after.flatMap encodedBatch)) fuel'
          (before ++ bytes).length
          { result with
            corrupt_batches := result.corrupt_batches + 1, truncated_tail := truncated } := by
  have hsize : bytes.length = 16 + samples.length * 24 := h.length.trans (length_encodedBatch _)
  have hbehind : (before ++ bytes).length = before.length + bytes.length := List.length_append
  have hlength : (before ++ (bytes ++ after.flatMap encodedBatch)).length =
      before.length + (bytes.length + (after.flatMap encodedBatch).length) := by
    rw [List.length_append, List.length_append]
  cases fuel with
  | zero => omega
  | succ fuel =>
      cases h with
      -- a damaged payload costs its own batch, and the reader goes on behind it
      | payload payload hpayload hcrc =>
          refine ⟨fuel, result.truncated_tail, by omega, ?_⟩
          rw [hbehind, hsize, List.append_assoc, read_batches_payload hcount hpayload, if_neg hcrc]
      -- under a damaged header the reader searches for the next magic number
      | identification magic version hwrong hrest =>
          have hlong : (batchHeader.encode { headerOf samples with magic, version } ++
              telemetrySample.encodeAll samples).length = (encodedBatch samples).length :=
            hsize.trans (length_encodedBatch samples).symm
          obtain ⟨fuel', hfuel', hread⟩ := read_batches_unidentified hwrong rfl
            (fun j hpos hlt => hrest j hpos (hlong ▸ hlt)) before after hfuel result
          exact ⟨fuel', _, hfuel', hread⟩

/-- **A damaged batch costs only itself.** Every other batch of the segment is delivered from its
place, in order and unchanged, the damaged one is not, and the damage is counted once. -/
theorem read_segment_damaged {json : JsonLibrary} {front : List UInt8} {tags : List TagInfo}
    {created : Int64} (hfront : SegmentFront json front tags created)
    {before after : List (List TelemetrySample)} {samples : List TelemetrySample}
    (hcount : ∀ batch ∈ before ++ samples :: after, batch.length < 2 ^ 32) {bytes : List UInt8}
    (hdamaged : Damaged samples bytes) (path : String) :
    ∃ truncated, read_segment json path (some (front ++ before.flatMap encodedBatch ++ bytes ++
        after.flatMap encodedBatch)) =
      { tags := tags
        created_ms := created
        batches := before.length + after.length
        samples := before.flatten.length + after.flatten.length
        corrupt_batches := 1
        truncated_tail := truncated
        error := ""
        delivered := deliveriesFrom front.length before ++
          deliveriesFrom (front ++ before.flatMap encodedBatch ++ bytes).length after } := by
  have hbefore : ∀ batch ∈ before, batch.length < 2 ^ 32 := fun batch hbatch =>
    hcount batch (List.mem_append_left _ hbatch)
  have hsamples : samples.length < 2 ^ 32 :=
    hcount samples (List.mem_append_right _ List.mem_cons_self)
  have hafter : ∀ batch ∈ after, batch.length < 2 ^ 32 := fun batch hbatch =>
    hcount batch (List.mem_append_right _ (List.mem_cons_of_mem _ hbatch))
  generalize hfile : front ++ before.flatMap encodedBatch ++ bytes ++ after.flatMap encodedBatch =
    file
  -- the file, split in front of the damage and behind it
  have hsplit : file = front ++ before.flatMap encodedBatch ++
      (bytes ++ after.flatMap encodedBatch) := by
    rw [← hfile, List.append_assoc]
  have hsplit' : file = front ++ before.flatMap encodedBatch ++ bytes ++
      (after.flatMap encodedBatch ++ []) := by
    rw [← hfile, List.append_nil]
  obtain ⟨fuel, hfuel, hread⟩ := read_segment_of_batches hfront hbefore
    (bytes ++ after.flatMap encodedBatch) path
  rw [← hsplit] at hread
  obtain ⟨fuel', truncated, hfuel', hread'⟩ := read_batches_damaged hsamples hdamaged
    (front ++ before.flatMap encodedBatch) after hfuel
    (({ tags := tags, created_ms := created } : SegmentReadResult).deliver front.length before)
  rw [← hsplit] at hread'
  rw [← hsplit, hsplit'] at hfuel'
  obtain ⟨fuel'', -, hread''⟩ := read_batches_complete hafter
    (front ++ before.flatMap encodedBatch ++ bytes) [] hfuel' _
  rw [← hsplit'] at hread''
  refine ⟨truncated, ?_⟩
  have hend : file.length =
      (front ++ before.flatMap encodedBatch ++ bytes ++ after.flatMap encodedBatch).length := by
    rw [hfile]
  rw [hread, hread', hread'', read_batches_of_end (by omega)]
  simp only [SegmentReadResult.deliver, Nat.zero_add, List.nil_append]

/-- A batch with the version before this one between two others. -/
theorem read_segment_damaged_version :
    ∃ truncated, read_segment (tableLibrary []) "old.ipseg"
        (some ((SegmentWriter.make (tableLibrary []) {} [] ∅).prefixBytes 0 ++
          [oneSample].flatMap encodedBatch ++
          (batchHeader.encode { headerOf oneSample with magic := kMagic, version := 1 } ++
            telemetrySample.encodeAll oneSample) ++ [[], oneSample].flatMap encodedBatch)) =
      { tags := [], batches := 3, samples := 2, corrupt_batches := 1, truncated_tail := truncated
        delivered := [⟨72, oneSample⟩, ⟨152, []⟩, ⟨168, oneSample⟩] } := by
  have hfront : SegmentFront (tableLibrary [])
      ((SegmentWriter.make (tableLibrary []) {} [] ∅).prefixBytes 0) [] 0 :=
    SegmentWriter.segmentFront_prefixBytes rfl (by decide +kernel) (parse_tableLibrary []) 0
  have hdamaged : Damaged oneSample
      (batchHeader.encode { headerOf oneSample with magic := kMagic, version := 1 } ++
        telemetrySample.encodeAll oneSample) := by
    -- the words of the sample are no magic number
    refine .identification kMagic 1 (.inr (by decide)) fun j hpos hlt => ?_
    have hlength : (encodedBatch oneSample).length = 40 := length_encodedBatch oneSample
    have hj : j = 1 ∨ j = 2 ∨ j = 3 ∨ j = 4 := by omega
    rcases hj with rfl | rfl | rfl | rfl <;> decide +kernel
  have hcount : ∀ batch ∈ [oneSample] ++ oneSample :: [[], oneSample], batch.length < 2 ^ 32 := by
    decide
  obtain ⟨truncated, hread⟩ := read_segment_damaged hfront hcount hdamaged "old.ipseg"
  have hlength : ((SegmentWriter.make (tableLibrary []) {} [] ∅).prefixBytes 0).length = 72 := by
    rw [SegmentWriter.length_prefixBytes]
    decide +kernel
  have hone : (encodedBatch oneSample).length = 40 := length_encodedBatch oneSample
  have hnone : (encodedBatch []).length = 16 := length_encodedBatch []
  refine ⟨truncated, hread.trans ?_⟩
  rw [List.length_append, List.length_append, hlength, hdamaged.length, List.flatMap_singleton,
    hone, deliveriesFrom, deliveriesFrom, deliveriesFrom, deliveriesFrom, deliveriesFrom, hnone]
  rfl

end Ironpulse.Ingest
