import Ironpulse.Ingest.DamagedBatch

/-! # What a damaged batch header costs

Nothing protects the header of a batch. A wrong magic or version is noticed, and the reader looks for
the next batch; behind the last one it reports a truncated tail instead. A wrong count is believed:
the reader goes on where it says that the batch ends.

* **`truncated_tail_unidentified_iff`**: when damage to a magic or a version looks like truncation.
* **`scan`**, **`delivered_read_batches`**: which batches are delivered from an offset on.
* **`Skippable`**: bytes that the reader passes over without losing the batch behind them.
* **`delivers_others_iff`**: when a wrong count costs only its own batch. -/

namespace Ironpulse.Ingest

open ByteCodec Core Storage

/-! ## (1) A wrong magic or version -/

/-- What the reader makes of a segment with one unknown batch header. -/
theorem read_segment_unidentified {json : JsonLibrary} {front : List UInt8} {tags : List TagInfo}
    {created : Int64} (hfront : SegmentFront json front tags created)
    {before after : List (List TelemetrySample)} {samples : List TelemetrySample}
    (hcount : ∀ batch ∈ before ++ samples :: after, batch.length < 2 ^ 32) {magic : UInt32}
    {version : UInt16} (hwrong : magic ≠ kMagic ∨ version ≠ kVersion) {bytes : List UInt8}
    (hbytes : bytes = batchHeader.encode { headerOf samples with magic, version } ++
      telemetrySample.encodeAll samples)
    (hrest : ∀ j, 0 < j → 8 * j < bytes.length → ¬ magic_at bytes (8 * j)) (path : String) :
    (read_segment json path (some (front ++ before.flatMap encodedBatch ++
      (bytes ++ after.flatMap encodedBatch)))).truncated_tail = after.isEmpty := by
  have hbefore : ∀ batch ∈ before, batch.length < 2 ^ 32 := fun batch hbatch =>
    hcount batch (List.mem_append_left _ hbatch)
  have hafter : ∀ batch ∈ after, batch.length < 2 ^ 32 := fun batch hbatch =>
    hcount batch (List.mem_append_right _ (List.mem_cons_of_mem _ hbatch))
  obtain ⟨fuel, hfuel, hread⟩ := read_segment_of_batches hfront hbefore
    (bytes ++ after.flatMap encodedBatch) path
  obtain ⟨fuel', hfuel', hread'⟩ := read_batches_unidentified hwrong hbytes hrest
    (front ++ before.flatMap encodedBatch) after hfuel
    (({ tags := tags, created_ms := created } : SegmentReadResult).deliver front.length before)
  rw [hread, hread']
  -- behind the damage every batch is complete
  have hsplit : front ++ before.flatMap encodedBatch ++ (bytes ++ after.flatMap encodedBatch) =
      front ++ before.flatMap encodedBatch ++ bytes ++ (after.flatMap encodedBatch ++ []) := by
    rw [List.append_nil, List.append_assoc _ bytes]
  rw [hsplit] at hfuel' ⊢
  obtain ⟨fuel'', -, hread''⟩ := read_batches_complete hafter
    (front ++ before.flatMap encodedBatch ++ bytes) [] hfuel' _
  rw [hread'', List.append_nil, read_batches_of_end (Nat.lt_irrefl _)]
  exact Bool.false_or _

/-- **When a wrong magic or version looks like truncation**: exactly in the last batch. The search
for the next header stops eight bytes in front of the end of the file, where no header fits. -/
theorem truncated_tail_unidentified_iff {json : JsonLibrary} {front : List UInt8}
    {tags : List TagInfo} {created : Int64} (hfront : SegmentFront json front tags created)
    {before after : List (List TelemetrySample)} {samples : List TelemetrySample}
    (hcount : ∀ batch ∈ before ++ samples :: after, batch.length < 2 ^ 32) {magic : UInt32}
    {version : UInt16} (hwrong : magic ≠ kMagic ∨ version ≠ kVersion) {bytes : List UInt8}
    (hbytes : bytes = batchHeader.encode { headerOf samples with magic, version } ++
      telemetrySample.encodeAll samples)
    (hrest : ∀ j, 0 < j → 8 * j < bytes.length → ¬ magic_at bytes (8 * j)) (path : String) :
    (read_segment json path (some (front ++ before.flatMap encodedBatch ++
      (bytes ++ after.flatMap encodedBatch)))).truncated_tail = false ↔ after ≠ [] := by
  rw [read_segment_unidentified hfront hcount hwrong hbytes hrest path, List.isEmpty_eq_false_iff]

/-- The front of a segment without tags. -/
def untaggedFront : List UInt8 := (SegmentWriter.make (tableLibrary []) {} [] ∅).prefixBytes 0

/-- The front of a segment without tags. -/
theorem segmentFront_untaggedFront : SegmentFront (tableLibrary []) untaggedFront [] 0 :=
  SegmentWriter.segmentFront_prefixBytes rfl (by decide +kernel) (parse_tableLibrary []) 0

/-- An empty batch with the version before this one. -/
def oldEmptyBatch : List UInt8 :=
  batchHeader.encode { headerOf [] with magic := kMagic, version := 1 } ++
    telemetrySample.encodeAll []

/-- Behind its first bytes an empty batch shows no magic number. -/
theorem not_magic_at_oldEmptyBatch :
    ∀ j, 0 < j → 8 * j < oldEmptyBatch.length → ¬ magic_at oldEmptyBatch (8 * j) := by
  intro j hpos hlt
  have hlength : oldEmptyBatch.length = 16 := batchHeader.length_encode _
  obtain rfl : j = 1 := by omega
  decide +kernel

/-- In front of another batch it does not look like truncation. -/
theorem truncated_tail_old_version_first :
    (read_segment (tableLibrary []) "old.ipseg" (some (untaggedFront ++
      [oneSample].flatMap encodedBatch ++ (oldEmptyBatch ++ [oneSample].flatMap encodedBatch)))
        ).truncated_tail = false :=
  (@truncated_tail_unidentified_iff _ _ _ _ segmentFront_untaggedFront [oneSample] [oneSample] []
    (by decide) kMagic 1 (.inr (by decide)) _ rfl not_magic_at_oldEmptyBatch "old.ipseg").mpr
    (List.cons_ne_nil _ _)

/-- **A wrong version in the last batch is reported as a truncated tail.** -/
theorem truncated_tail_old_version_last :
    ¬ ∀ {json : JsonLibrary} {front : List UInt8} {tags : List TagInfo} {created : Int64}
        {before after : List (List TelemetrySample)} {samples : List TelemetrySample}
        {magic : UInt32} {version : UInt16} {bytes : List UInt8} (path : String),
      SegmentFront json front tags created →
      (∀ batch ∈ before ++ samples :: after, batch.length < 2 ^ 32) →
      magic ≠ kMagic ∨ version ≠ kVersion →
      bytes = batchHeader.encode { headerOf samples with magic, version } ++
        telemetrySample.encodeAll samples →
      (∀ j, 0 < j → 8 * j < bytes.length → ¬ magic_at bytes (8 * j)) →
      (read_segment json path (some (front ++ before.flatMap encodedBatch ++
        (bytes ++ after.flatMap encodedBatch)))).truncated_tail = false := by
  intro h
  have hfalse := @h _ _ _ _ [] [] [] kMagic 1 oldEmptyBatch "old.ipseg" segmentFront_untaggedFront
    (by decide) (.inr (by decide)) rfl not_magic_at_oldEmptyBatch
  have htrue := @read_segment_unidentified _ _ _ _ segmentFront_untaggedFront [] [] []
    (by decide) kMagic 1 (.inr (by decide)) _ rfl not_magic_at_oldEmptyBatch "old.ipseg"
  exact absurd (hfalse.symm.trans htrue) (by decide)

/-! ## (2) What is delivered from an offset on -/

/-- **The batches that are delivered from an offset on.** Where no batch header stands the reader
goes on eight bytes behind, otherwise behind the batch. -/
def scan (file : List UInt8) (pos : Nat) : List Delivery :=
  if pos + 16 > file.length then []
  else if ¬ (header_at file pos).known then scan file (pos + 8)
  else
    let payload_bytes := (header_at file pos).count.toNat * 24
    let payload := read_at file (pos + 16) payload_bytes
    if pos + (16 + payload_bytes) > file.length then []
    else
      (if crc32c payload = (header_at file pos).payload_crc32c then
        [⟨pos, telemetrySample.decodeAll payload⟩] else []) ++ scan file (pos + (16 + payload_bytes))
termination_by file.length - pos
decreasing_by all_goals omega

section Scan

variable {file : List UInt8} {pos : Nat}

/-- The search ends where no header fits any more. -/
theorem scan_of_end (h : pos + 16 > file.length) : scan file pos = [] := by
  rw [scan, if_pos h]

/-- Over what is no known header the search goes on eight bytes further. -/
theorem scan_of_unknown (hinside : pos + 16 ≤ file.length) (h : ¬ (header_at file pos).known) :
    scan file pos = scan file (pos + 8) := by
  rw [scan, if_neg (by omega), if_pos h]

/-- Over a known header whose batch fits the search goes on behind the batch. -/
theorem scan_of_known (hinside : pos + 16 ≤ file.length) (h : (header_at file pos).known)
    (hfits : pos + (16 + (header_at file pos).count.toNat * 24) ≤ file.length) :
    ∃ found : List Delivery, (∀ d ∈ found, d.offset = pos) ∧
      scan file pos = found ++ scan file (pos + (16 + (header_at file pos).count.toNat * 24)) := by
  rw [scan, if_neg (by omega), if_neg (not_not_intro h)]
  dsimp only
  rw [if_neg (by omega)]
  refine ⟨_, fun d hd => ?_, rfl⟩
  split at hd
  · rw [List.mem_singleton.mp hd]
  · cases hd

/-- The search ends at a header whose batch does not fit. -/
theorem scan_of_long (hinside : pos + 16 ≤ file.length) (h : (header_at file pos).known)
    (hlong : pos + (16 + (header_at file pos).count.toNat * 24) > file.length) :
    scan file pos = [] := by
  rw [scan, if_neg (by omega), if_neg (not_not_intro h)]
  exact if_pos hlong

/-- The search for the next header delivers nothing: without the magic no header is known. -/
theorem scan_resync (file : List UInt8) (fuel pos : Nat) :
    scan file (resync file fuel pos) = scan file pos := by
  induction fuel generalizing pos with
  | zero => rfl
  | succ fuel ih =>
      rw [resync]
      -- the search skips only positions without the magic, which the scan skips as well
      by_cases hinside : pos + 16 ≤ file.length
      · rw [if_pos hinside]
        split
        · rfl
        · rename_i hmagic
          have hunknown : ¬ (header_at file pos).known := fun hknown =>
            hmagic ((magic_header_at file pos).symm.trans hknown.1)
          rw [ih, scan_of_unknown hinside hunknown]
      · rw [if_neg hinside]

/-- **The reader delivers what the scan finds**, behind what it has delivered before. -/
theorem delivered_read_batches {fuel : Nat} (hfuel : file.length ≤ pos + fuel * 8)
    (result : SegmentReadResult) :
    (read_batches file fuel pos result).delivered = result.delivered ++ scan file pos := by
  -- one round of the reader is one step of the scan, whatever it finds
  induction fuel generalizing pos result with
  | zero => rw [read_batches_of_end (by omega), scan_of_end (by omega), List.append_nil]
  | succ fuel ih =>
      by_cases hinside : pos + 16 ≤ file.length
      · by_cases hknown : (header_at file pos).known
        · have hshort : ¬ pos + 16 > file.length := Nat.not_lt.mpr hinside
          rw [read_batches_of_known hinside hknown, scan, if_neg hshort,
            if_neg (not_not_intro hknown)]
          dsimp only
          by_cases hlong : pos + (16 + (header_at file pos).count.toNat * 24) > file.length
          · -- the batch does not fit: both end here
            rw [if_pos hlong, if_pos hlong, List.append_nil]
          · have hlater : file.length ≤
                pos + (16 + (header_at file pos).count.toNat * 24) + fuel * 8 := by omega
            rw [if_neg hlong, if_neg hlong]
            -- a batch that fits is delivered if its checksum is right; the place behind it is the
            -- same
            by_cases hcrc : crc32c (read_at file (pos + 16) ((header_at file pos).count.toNat * 24)) =
                (header_at file pos).payload_crc32c
            · rw [if_pos hcrc, if_pos hcrc, ih hlater, List.append_assoc]
            · rw [if_neg hcrc, if_neg hcrc, ih hlater, List.nil_append]
        · -- behind an unknown header the search passes only what the scan passes too
          have hbehind := Reader.le_resync file file.length (pos + 8)
          rw [read_batches_of_unknown hinside hknown, ih (by omega), scan_resync,
            scan_of_unknown hinside hknown]
      · rw [scan_of_end (by omega), List.append_nil]
        by_cases hend : pos < file.length
        · rw [read_batches_of_short hend (by omega)]
        · rw [read_batches_of_end hend]

/-- The scan never goes back. -/
theorem le_offset_of_mem_scan {d : Delivery} (h : d ∈ scan file pos) : pos ≤ d.offset := by
  induction hleft : file.length - pos using Nat.strong_induction_on generalizing pos with
  | _ left ih =>
      by_cases hinside : pos + 16 ≤ file.length
      · by_cases hknown : (header_at file pos).known
        · -- a batch that fits is delivered here or later, one that does not ends the scan
          by_cases hfits : pos + (16 + (header_at file pos).count.toNat * 24) ≤ file.length
          · obtain ⟨found, hfound, hscan⟩ := scan_of_known hinside hknown hfits
            rw [hscan] at h
            rcases List.mem_append.mp h with hhere | hlater
            · exact (hfound d hhere).ge
            · exact (Nat.le_add_right _ _).trans (ih _ (by omega) hlater rfl)
          · rw [scan_of_long hinside hknown (by omega)] at h
            cases h
        · rw [scan_of_unknown hinside hknown] at h
          exact (Nat.le_add_right _ _).trans (ih _ (by omega) h rfl)
      · rw [scan_of_end (by omega)] at h
        cases h

end Scan

/-- The scan finds complete batches that stand back to back. -/
theorem scan_complete {batches : List (List TelemetrySample)}
    (hcount : ∀ samples ∈ batches, samples.length < 2 ^ 32) (before : List UInt8) :
    scan (before ++ batches.flatMap encodedBatch) before.length =
      deliveriesFrom before.length batches := by
  have hall : ∀ n m : Nat, n ≤ m + n * 8 := by omega
  obtain ⟨fuel, -, hread⟩ := read_batches_complete hcount before [] (hall _ _) {}
  rw [List.append_nil, read_batches_of_end (Nat.lt_irrefl _)] at hread
  have hdelivered := congrArg SegmentReadResult.delivered hread
  rw [delivered_read_batches (hall _ _)] at hdelivered
  exact hdelivered

/-! ## (3) Bytes without batches that reach too far -/

/-- Eight bytes that begin with the magic and the version of a batch. -/
def BeginsBatch (word : List UInt8) : Prop :=
  RecordCodec.uint32.decode (word.take 4) = kMagic ∧
    RecordCodec.uint16.decode ((word.drop 4).take 2) = kVersion

instance (word : List UInt8) : Decidable (BeginsBatch word) := inferInstanceAs (Decidable (_ ∧ _))

/-- **Bytes that the reader passes over**: words of eight bytes that do not begin a batch, and whole
batches. A header that announces more samples than follow is not among them. -/
inductive Skippable : List UInt8 → Prop where
  | nil : Skippable []
  | word {word rest : List UInt8} (hlength : word.length = 8) (hunknown : ¬ BeginsBatch word)
      (hrest : Skippable rest) : Skippable (word ++ rest)
  | batch {header : BatchHeader} {payload rest : List UInt8} (hknown : header.known)
      (hlength : payload.length = header.count.toNat * 24) (hrest : Skippable rest) :
      Skippable (batchHeader.encode header ++ payload ++ rest)

/-- The first eight bytes decide whether a header is known. -/
theorem known_header_at_iff (file : List UInt8) (pos : Nat) :
    (header_at file pos).known ↔ BeginsBatch (read_at file pos 8) := by
  have hmagic := magic_header_at file pos
  have hversion : (header_at file pos).version =
      RecordCodec.uint16.decode (((read_at file pos 16).drop 4).take 2) := rfl
  rw [drop_read_at, take_read_at file _ (by decide)] at hversion
  rw [BatchHeader.known, BeginsBatch, hmagic, hversion, take_read_at file pos (by decide),
    drop_read_at, take_read_at file _ (by decide)]

/-- A word in front of something. -/
theorem known_header_at_append {before word rest : List UInt8} (hlength : word.length = 8) :
    (header_at (before ++ (word ++ rest)) before.length).known ↔ BeginsBatch word := by
  rw [known_header_at_iff, read_at_append rfl hlength.symm]

/-- **Behind skippable bytes the scan goes on.** -/
theorem scan_of_skippable {bytes : List UInt8} (h : Skippable bytes) (before : List UInt8)
    {rest : List UInt8} (hrest : 16 ≤ rest.length) :
    ∃ found, scan (before ++ (bytes ++ rest)) before.length =
      found ++ scan (before ++ (bytes ++ rest)) (before ++ bytes).length := by
  induction h generalizing before with
  | nil => exact ⟨[], by rw [List.append_nil]; rfl⟩
  -- an unknown word: the scan goes on behind it
  | @word word bytes hlength hunknown _ ih =>
      obtain ⟨found, hfound⟩ := ih (before ++ word)
      have hplace : before.length + 8 = (before ++ word).length := by
        rw [List.length_append, hlength]
      have hsplit : before ++ (word ++ bytes ++ rest) = before ++ word ++ (bytes ++ rest) := by
        simp only [List.append_assoc]
      have hhere : ¬ (header_at (before ++ (word ++ bytes ++ rest)) before.length).known := by
        rw [List.append_assoc word, known_header_at_append hlength]
        exact hunknown
      refine ⟨found, ?_⟩
      rw [scan_of_unknown (by simp only [List.length_append]; omega) hhere, hplace, hsplit, hfound,
        List.append_assoc before word bytes]
  -- a batch with a known header: the scan goes on behind its payload
  | @batch header payload bytes hknown hlength _ ih =>
      obtain ⟨found, hfound⟩ := ih (before ++ (batchHeader.encode header ++ payload))
      have hheader : (batchHeader.encode header).length = 16 := batchHeader.length_encode header
      have hplace : before.length + (16 + header.count.toNat * 24) =
          (before ++ (batchHeader.encode header ++ payload)).length := by
        rw [List.length_append, List.length_append, hheader, hlength]
      have hsplit : before ++ (batchHeader.encode header ++ payload ++ bytes ++ rest) =
          before ++ (batchHeader.encode header ++ payload) ++ (bytes ++ rest) := by
        simp only [List.append_assoc]
      have hhere : header_at (before ++ (batchHeader.encode header ++ payload ++ bytes ++ rest))
          before.length = header := by
        simp only [List.append_assoc]
        exact header_at_append ..
      obtain ⟨first, -, hfirst⟩ := @scan_of_known
        (before ++ (batchHeader.encode header ++ payload ++ bytes ++ rest)) before.length
        (by simp only [List.length_append]; omega) (by rw [hhere]; exact hknown)
        (by rw [hhere]; simp only [List.length_append]; omega)
      refine ⟨first ++ found, ?_⟩
      rw [hfirst, hhere, hplace, hsplit, hfound, List.append_assoc first,
        List.append_assoc before (batchHeader.encode header ++ payload) bytes]

/-- The header that is read at the start of some bytes is what they begin with. -/
theorem encode_header_at_append {bytes : List UInt8} (before rest : List UInt8)
    (hlong : 16 ≤ bytes.length) :
    batchHeader.encode (header_at (before ++ (bytes ++ rest)) before.length) = bytes.take 16 := by
  have hwidth : (bytes.take 16).length = batchHeader.width := by
    rw [List.length_take, width_batchHeader, Nat.min_eq_left hlong]
  rw [header_at, read_at, List.drop_left, List.take_append_of_le_length hlong,
    batchHeader.encode_decode _ hwidth]

/-- **Only behind skippable bytes does the scan find a batch**: a header among them that announces
more samples than follow takes the reader past the place where it begins. -/
theorem skippable_of_mem_scan {bytes : List UInt8} (before : List UInt8) {rest : List UInt8}
    (hwords : 8 ∣ bytes.length) (hrest : 16 ≤ rest.length) {d : Delivery}
    (hd : d ∈ scan (before ++ (bytes ++ rest)) before.length)
    (hplace : d.offset = (before ++ bytes).length) : Skippable bytes := by
  induction hlength : bytes.length using Nat.strong_induction_on generalizing before bytes with
  | _ length ih =>
      subst hlength
      rw [List.length_append] at hplace
      have hfile : (before ++ (bytes ++ rest)).length =
          before.length + (bytes.length + rest.length) := by
        rw [List.length_append, List.length_append]
      by_cases hnil : bytes = []
      · rw [hnil]
        exact .nil
      have hpos : 0 < bytes.length := List.length_pos_iff.mpr hnil
      have hword : 8 ≤ bytes.length := Nat.le_of_dvd hpos hwords
      -- what the scan finds behind the first `n` bytes, it finds behind the rest of them
      have hlater : ∀ n, 0 < n → n ≤ bytes.length → 8 ∣ n →
          d ∈ scan (before ++ (bytes ++ rest)) (before.length + n) → Skippable (bytes.drop n) := by
        intro n hn hle hdvd hmem
        have htake : (before ++ bytes.take n).length = before.length + n := by
          rw [List.length_append, List.length_take, Nat.min_eq_left hle]
        have hdrop : (bytes.drop n).length = bytes.length - n := List.length_drop
        have hsplit : before ++ (bytes ++ rest) =
            before ++ bytes.take n ++ (bytes.drop n ++ rest) := by
          rw [List.append_assoc before, ← List.append_assoc (bytes.take n), List.take_append_drop]
        rw [hsplit, ← htake] at hmem
        refine ih _ (by omega) (before ++ bytes.take n) (hdrop ▸ Nat.dvd_sub hwords hdvd) hmem ?_ rfl
        rw [List.length_append, htake, hdrop]
        omega
      by_cases hknown : (header_at (before ++ (bytes ++ rest)) before.length).known
      · by_cases hlong : before.length +
            (16 + (header_at (before ++ (bytes ++ rest)) before.length).count.toNat * 24) >
              (before ++ (bytes ++ rest)).length
        · -- the batch is longer than the file, and the scan ends
          rw [scan_of_long (by omega) hknown hlong] at hd
          cases hd
        · obtain ⟨found, hfound, hscan⟩ := scan_of_known (by omega) hknown (Nat.le_of_not_lt hlong)
          rw [hscan] at hd
          rcases List.mem_append.mp hd with hhere | hbehind
          · -- a batch at this place is not the one behind the bytes
            have hoffset := hfound d hhere
            omega
          · -- the batch that is found lies behind the samples that this header announces
            have hle := le_offset_of_mem_scan hbehind
            have hrest := hlater
              (16 + (header_at (before ++ (bytes ++ rest)) before.length).count.toNat * 24)
              (by omega) (by omega) (by omega) hbehind
            have hfront := encode_header_at_append before rest (by omega : 16 ≤ bytes.length)
            generalize header_at (before ++ (bytes ++ rest)) before.length = header at *
            have hbytes : bytes = batchHeader.encode header ++
                (bytes.drop 16).take (header.count.toNat * 24) ++
                  bytes.drop (16 + header.count.toNat * 24) := by
              rw [hfront, List.append_assoc, ← List.drop_drop, List.take_append_drop,
                List.take_append_drop]
            rw [hbytes]
            refine .batch hknown ?_ hrest
            rw [List.length_take, List.length_drop]
            omega
      · -- no header begins here, and the scan goes on eight bytes later
        rw [scan_of_unknown (by omega) hknown] at hd
        have hrest := hlater 8 (by decide) hword (Nat.dvd_refl 8) hd
        have hfirst : (bytes.take 8).length = 8 := by
          rw [List.length_take]
          omega
        rw [← List.take_append_drop 8 bytes, List.append_assoc, known_header_at_append hfirst]
          at hknown
        rw [← List.take_append_drop 8 bytes]
        exact .word hfirst hknown hrest

/-! ## (4) A wrong count -/

/-- A batch with a count in its header that may not be its own. -/
def recountedBatch (samples : List TelemetrySample) (count : UInt32) : List UInt8 :=
  batchHeader.encode { headerOf samples with count } ++ telemetrySample.encodeAll samples

/-- The sample bytes of a batch behind those that a count takes. -/
def leftover (samples : List TelemetrySample) (count : UInt32) : List UInt8 :=
  (telemetrySample.encodeAll samples).drop (count.toNat * 24)

/-- **The damage costs only its own batch**: every other one is delivered from its place. -/
def DeliversOthers (json : JsonLibrary) (path : String) (front : List UInt8)
    (before : List (List TelemetrySample)) (bytes : List UInt8)
    (after : List (List TelemetrySample)) : Prop :=
  ∀ d ∈ deliveriesFrom front.length before ++
      deliveriesFrom (front ++ before.flatMap encodedBatch ++ bytes).length after,
    d ∈ (read_segment json path (some (front ++ before.flatMap encodedBatch ++
      (bytes ++ after.flatMap encodedBatch)))).delivered

/-- A batch with a wrong count is as long as with the right one. -/
theorem length_recountedBatch (samples : List TelemetrySample) (count : UInt32) :
    (recountedBatch samples count).length = 16 + samples.length * 24 := by
  rw [recountedBatch, List.length_append, batchHeader.length_encode,
    telemetrySample.length_encodeAll, width_batchHeader, width_telemetrySample]

/-- A smaller count ends the batch in front of the leftover bytes. -/
theorem recountedBatch_eq {samples : List TelemetrySample} {count : UInt32}
    (hle : count.toNat ≤ samples.length) :
    ∃ taken, recountedBatch samples count = taken ++ leftover samples count ∧
      taken.length = 16 + count.toNat * 24 := by
  refine ⟨batchHeader.encode { headerOf samples with count } ++
    (telemetrySample.encodeAll samples).take (count.toNat * 24), ?_, ?_⟩
  · rw [recountedBatch, leftover, List.append_assoc, List.take_append_drop]
  · rw [List.length_append, batchHeader.length_encode, width_batchHeader, List.length_take,
      telemetrySample.length_encodeAll, width_telemetrySample]
    omega

/-- The batches delivered lie between the offset and the end of the last one. -/
theorem offset_lt_of_mem_deliveriesFrom {batches : List (List TelemetrySample)} {offset : Nat}
    {d : Delivery} (h : d ∈ deliveriesFrom offset batches) :
    d.offset < offset + (batches.flatMap encodedBatch).length := by
  induction batches generalizing offset with
  | nil => cases h
  | cons samples batches ih =>
      have hlength := length_encodedBatch samples
      rw [List.flatMap_cons, List.length_append]
      rcases List.mem_cons.mp h with rfl | hlater
      · dsimp only
        omega
      · have hlt := ih hlater
        omega

section Recounted

variable {json : JsonLibrary} {front : List UInt8} {tags : List TagInfo} {created : Int64}
  {before after : List (List TelemetrySample)} {samples : List TelemetrySample} {count : UInt32}
  {path : String}

/-- What is delivered of a segment with any bytes behind some complete batches. -/
theorem delivered_read_segment (hfront : SegmentFront json front tags created)
    (hbefore : ∀ batch ∈ before, batch.length < 2 ^ 32) (rest : List UInt8) (path : String) :
    (read_segment json path (some (front ++ before.flatMap encodedBatch ++ rest))).delivered =
      deliveriesFrom front.length before ++ scan (front ++ before.flatMap encodedBatch ++ rest)
        (front ++ before.flatMap encodedBatch).length := by
  obtain ⟨fuel, hfuel, hread⟩ := read_segment_of_batches hfront hbefore rest path
  rw [hread, delivered_read_batches hfuel]
  rfl

/-- The reader believes the wrong count. -/
theorem header_at_recountedBatch (start rest : List UInt8) (samples : List TelemetrySample)
    (count : UInt32) :
    header_at (start ++ (recountedBatch samples count ++ rest)) start.length =
        { headerOf samples with count } ∧
      start.length + 16 ≤ (start ++ (recountedBatch samples count ++ rest)).length := by
  constructor
  · rw [recountedBatch, List.append_assoc]
    exact header_at_append ..
  · rw [List.length_append, List.length_append, length_recountedBatch]
    omega

/-- The scan goes on where the wrong count says that the batch ends, if the file is so long. -/
theorem scan_recountedBatch {start rest : List UInt8}
    (hfits : start.length + (16 + count.toNat * 24) ≤
      (start ++ (recountedBatch samples count ++ rest)).length) :
    ∃ found : List Delivery, (∀ d ∈ found, d.offset = start.length) ∧
      scan (start ++ (recountedBatch samples count ++ rest)) start.length = found ++
        scan (start ++ (recountedBatch samples count ++ rest))
          (start.length + (16 + count.toNat * 24)) := by
  obtain ⟨hheader, hinside⟩ := header_at_recountedBatch start rest samples count
  obtain ⟨found, hfound, hscan⟩ := scan_of_known hinside (by rw [hheader]; exact ⟨rfl, rfl⟩)
    (by rw [hheader]; exact hfits)
  rw [hheader] at hscan
  exact ⟨found, hfound, hscan⟩

/-- Otherwise it ends. -/
theorem scan_recountedBatch_of_long {start rest : List UInt8}
    (hlong : start.length + (16 + count.toNat * 24) >
      (start ++ (recountedBatch samples count ++ rest)).length) :
    scan (start ++ (recountedBatch samples count ++ rest)) start.length = [] := by
  obtain ⟨hheader, hinside⟩ := header_at_recountedBatch start rest samples count
  exact scan_of_long hinside (by rw [hheader]; exact ⟨rfl, rfl⟩) (by rw [hheader]; exact hlong)

/-- **What a batch behind the damage needs**: the wrong count is too small, and the reader passes
over the leftover bytes. -/
theorem skippable_leftover_of_delivered (hfront : SegmentFront json front tags created)
    (hbefore : ∀ batch ∈ before, batch.length < 2 ^ 32) (hsamples : samples.length < 2 ^ 32)
    (hwrong : count ≠ (headerOf samples).count) {next : List TelemetrySample}
    (h : DeliversOthers json path front before (recountedBatch samples count) (next :: after)) :
    count.toNat < samples.length ∧ Skippable (leftover samples count) := by
  have hbytes := length_recountedBatch samples count
  generalize hstart : front ++ before.flatMap encodedBatch = start at *
  have hplace : (start ++ recountedBatch samples count).length =
      start.length + (16 + samples.length * 24) := by
    rw [List.length_append, hbytes]
  have hrest : 16 ≤ ((next :: after).flatMap encodedBatch).length := by
    rw [List.flatMap_cons, List.length_append, length_encodedBatch]
    omega
  -- the first batch behind the damage
  have hnext := h ⟨(start ++ recountedBatch samples count).length, next⟩
    (List.mem_append_right _ (hstart ▸ List.mem_cons_self))
  rw [delivered_read_segment hfront hbefore, hstart] at hnext
  rcases List.mem_append.mp hnext with hearlier | hscan
  · have hlt := offset_lt_of_mem_deliveriesFrom hearlier
    rw [← List.length_append, hstart, hplace] at hlt
    dsimp only at hlt
    omega
  · by_cases hfits : start.length + (16 + count.toNat * 24) ≤
        (start ++ (recountedBatch samples count ++ (next :: after).flatMap encodedBatch)).length
    · obtain ⟨found, hfound, hgoes⟩ := scan_recountedBatch hfits
      rw [hgoes] at hscan
      rcases List.mem_append.mp hscan with hhere | hbehind
      · have hoffset := hfound _ hhere
        dsimp only at hoffset
        omega
      · have hle := le_offset_of_mem_scan hbehind
        have hne : count.toNat ≠ samples.length := by
          rw [← toNat_headerOf_count hsamples]
          exact fun heq => hwrong (UInt32.toNat_inj.mp heq)
        have hlt : count.toNat < samples.length := by
          dsimp only at hle
          omega
        obtain ⟨taken, htaken, hlength⟩ := recountedBatch_eq hlt.le
        have hleft : (leftover samples count).length = (samples.length - count.toNat) * 24 := by
          rw [leftover, List.length_drop, telemetrySample.length_encodeAll, width_telemetrySample]
          omega
        have hfile : start ++ (recountedBatch samples count ++ (next :: after).flatMap encodedBatch) =
            start ++ taken ++ (leftover samples count ++ (next :: after).flatMap encodedBatch) := by
          rw [htaken, List.append_assoc, List.append_assoc]
        rw [hfile, ← hlength, ← List.length_append] at hbehind
        refine ⟨hlt, skippable_of_mem_scan (start ++ taken) (by omega) hrest hbehind ?_⟩
        rw [List.append_assoc, ← htaken]
    · rw [scan_recountedBatch_of_long (Nat.lt_of_not_le hfits)] at hscan
      cases hscan

/-- **When a wrong count costs only its own batch**: when that batch is the last one, or when the
count is too small and among the sample bytes behind it no batch header announces more samples than
are left. A larger count takes the reader past the start of the next batch. -/
theorem delivers_others_iff (hfront : SegmentFront json front tags created)
    (hcount : ∀ batch ∈ before ++ samples :: after, batch.length < 2 ^ 32)
    (hwrong : count ≠ (headerOf samples).count) (path : String) :
    DeliversOthers json path front before (recountedBatch samples count) after ↔
      after = [] ∨ count.toNat < samples.length ∧ Skippable (leftover samples count) := by
  have hbefore : ∀ batch ∈ before, batch.length < 2 ^ 32 := fun batch hbatch =>
    hcount batch (List.mem_append_left _ hbatch)
  have hsamples : samples.length < 2 ^ 32 :=
    hcount samples (List.mem_append_right _ List.mem_cons_self)
  have hafter : ∀ batch ∈ after, batch.length < 2 ^ 32 := fun batch hbatch =>
    hcount batch (List.mem_append_right _ (List.mem_cons_of_mem _ hbatch))
  constructor
  · intro h
    cases after with
    | nil => exact .inl rfl
    | cons next after =>
        exact .inr (skippable_leftover_of_delivered hfront hbefore hsamples hwrong h)
  · intro h d hd
    rw [delivered_read_segment hfront hbefore]
    rcases List.mem_append.mp hd with hearlier | hlater
    · exact List.mem_append_left _ hearlier
    refine List.mem_append_right _ ?_
    cases after with
    | nil => cases hlater
    | cons next after =>
        obtain ⟨hlt, hskip⟩ := h.resolve_left (List.cons_ne_nil _ _)
        -- only the length of what stands in front matters
        generalize front ++ before.flatMap encodedBatch = start at *
        -- behind what is left over there is at least a header
        have hrest : 16 ≤ ((next :: after).flatMap encodedBatch).length := by
          rw [List.flatMap_cons, List.length_append, length_encodedBatch]
          omega
        obtain ⟨taken, htaken, hlength⟩ := recountedBatch_eq hlt.le
        have hbytes := length_recountedBatch samples count
        have hfile : start ++ (recountedBatch samples count ++ (next :: after).flatMap encodedBatch) =
            start ++ taken ++ (leftover samples count ++ (next :: after).flatMap encodedBatch) := by
          rw [htaken, List.append_assoc, List.append_assoc]
        have hend : start ++ taken ++ leftover samples count =
            start ++ recountedBatch samples count := by
          rw [htaken, List.append_assoc]
        have hfits : start.length + (16 + count.toNat * 24) ≤
            (start ++ (recountedBatch samples count ++
              (next :: after).flatMap encodedBatch)).length := by
          rw [List.length_append, List.length_append, hbytes]
          omega
        -- the scan takes the batch with its wrong count, what is left over, and then the rest
        obtain ⟨found, -, hgoes⟩ := scan_recountedBatch hfits
        obtain ⟨skipped, hskipped⟩ := scan_of_skippable hskip (start ++ taken) hrest
        have hcomplete := scan_complete hafter (start ++ recountedBatch samples count)
        rw [hgoes, ← hlength, ← List.length_append, hfile, hskipped, hend, ← hfile,
          ← List.append_assoc start, hcomplete]
        exact List.mem_append_right _ (List.mem_append_right _ hlater)

end Recounted

/-- What a count too small by one leaves over of two batches is skipped. -/
theorem skippable_leftover_oneSample : Skippable (leftover (oneSample ++ oneSample) 1) := by
  have hwords : leftover (oneSample ++ oneSample) 1 =
      [5, 0, 0, 0, 0, 0, 0, 0] ++ ([7, 0, 0, 0, 0, 0, 0, 0] ++ ([1, 0, 0, 0, 0, 0, 0, 0] ++ [])) :=
    rfl
  rw [hwords]
  exact .word rfl (by decide) (.word rfl (by decide) (.word rfl (by decide) .nil))

/-- A batch of two samples that says it has one. -/
theorem delivers_others_smaller_count :
    DeliversOthers (tableLibrary []) "count.ipseg" untaggedFront [oneSample]
      (recountedBatch (oneSample ++ oneSample) 1) [[]] :=
  (delivers_others_iff segmentFront_untaggedFront (by decide) (by decide) "count.ipseg").mpr
    (.inr ⟨by decide, skippable_leftover_oneSample⟩)

/-- **A count that is too large costs the next batch as well.** -/
theorem not_delivers_others_larger_count :
    ¬ ∀ {json : JsonLibrary} {front : List UInt8} {tags : List TagInfo} {created : Int64}
        {before after : List (List TelemetrySample)} {samples : List TelemetrySample}
        {count : UInt32} (path : String), SegmentFront json front tags created →
      (∀ batch ∈ before ++ samples :: after, batch.length < 2 ^ 32) →
      count ≠ (headerOf samples).count →
      DeliversOthers json path front before (recountedBatch samples count) after := by
  intro h
  have hothers := @h _ _ _ _ [] [[]] oneSample 2 "count.ipseg" segmentFront_untaggedFront
    (by decide) (by decide)
  have hsmaller := skippable_leftover_of_delivered segmentFront_untaggedFront (by decide) (by decide)
    (by decide) hothers
  exact absurd hsmaller.1 (by decide)

end Ironpulse.Ingest
