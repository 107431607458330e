import Ironpulse.Ingest.SegmentReader
import Ironpulse.Ingest.SegmentRoundTrip

/-! # The reader in Python

`tools/export_reader/read_segment.py`: a second reader of export segments, with a loop of its own
and a CRC-32C over unbounded integers.

* **`crc32c`**, **`read_segment`**: the functions of the script.
* **`toNat_crc32c`**: both checksums are the same.
* **`verified_readings_resync`**: where this loop moves on by eight bytes, the other one searches.
* **`readers_agree`**: on every file that both accept, they deliver the same readings. -/

namespace Ironpulse.ExportReader

open ByteCodec Core Ingest Ingest.Reader

/-! ## (1) CRC-32C -/

/-- One bit of the division. -/
def crc32c_bit (crc : Nat) : Nat :=
  if crc &&& 1 ≠ 0 then (crc >>> 1) ^^^ 0x82F63B78 else crc >>> 1

/-- `_crc32c_table`. -/
def crc32c_table : List Nat := (List.range 256).map fun i => Nat.iterate crc32c_bit 8 i

/-- One byte of the division, by table. -/
def crc32c_byte (crc : Nat) (byte : UInt8) : Nat :=
  crc32c_table.getD ((crc ^^^ byte.toNat) &&& 0xFF) 0 ^^^ (crc >>> 8)

/-- `crc32c` of the script, in unbounded integers. -/
def crc32c (data : List UInt8) : Nat := data.foldl crc32c_byte 0xFFFFFFFF ^^^ 0xFFFFFFFF

/-! ## (2) Records -/

/-- A little-endian number, as `struct` reads it. -/
def unpack_uint (data : List UInt8) (pos size : Nat) : Nat := natOfBytes ((data.drop pos).take size)

/-- What the script reads of a segment header. -/
structure SegmentHeader where
  magic : Nat
  version : Nat
  table_len : Nat
  table_crc : Nat

/-- `SEGMENT_HEADER.unpack_from(data, 0)`, in the format `<IHHqIIQ`. -/
def unpack_segment_header (data : List UInt8) : SegmentHeader where
  magic := unpack_uint data 0 4
  version := unpack_uint data 4 2
  table_len := unpack_uint data 16 4
  table_crc := unpack_uint data 20 4

/-- What the script reads of a batch header. -/
structure BatchHeader where
  magic : Nat
  version : Nat
  count : Nat
  payload_crc : Nat

/-- `BATCH_HEADER.unpack_from(data, pos)`, in the format `<IHHII`. -/
def unpack_batch_header (data : List UInt8) (pos : Nat) : BatchHeader where
  magic := unpack_uint data pos 4
  version := unpack_uint data (pos + 4) 2
  count := unpack_uint data (pos + 8) 4
  payload_crc := unpack_uint data (pos + 12) 4

/-- A sample; the value is the 64 bits of a `float`. -/
structure Sample where
  ts : Nat
  value : Nat
  tag_id : Nat
  quality : Nat

/-- A sample in the format `<QdIB3x`. -/
def unpack_sample (data : List UInt8) (pos : Nat) : Sample where
  ts := unpack_uint data pos 8
  value := unpack_uint data (pos + 8) 8
  tag_id := unpack_uint data (pos + 16) 4
  quality := unpack_uint data (pos + 20) 1

/-- `SAMPLE.iter_unpack`. -/
def iter_unpack (payload : List UInt8) : List Sample :=
  (List.range (payload.length / 24)).map fun i => unpack_sample payload (i * 24)

/-- `SEGMENT_MAGIC`. -/
def SEGMENT_MAGIC : Nat := 0x47535049

/-- `BATCH_MAGIC`. -/
def BATCH_MAGIC : Nat := 0x434C5041

/-! ## (3) The reader -/

/-- What the reader yields: the tag is what the dictionary has for the sample's tag id. -/
structure Reading (τ : Type*) where
  ts : Nat
  tag : τ
  value : Nat
  quality : Nat
  deriving DecidableEq

/-- How the reader fails. -/
inductive Failure where
  /-- `struct.error`: the file is shorter than a segment header. -/
  | struct_error
  | value_error (message : String)
  /-- The tag table is no JSON text of the expected form. -/
  | table_error
  deriving DecidableEq

variable {τ : Type*}

/-- The reading of a sample; `tags` answers for every tag id, also for one that is not in the
table. -/
def readingOf (tags : Nat → τ) (sample : Sample) : Reading τ :=
  { ts := sample.ts, tag := tags sample.tag_id, value := sample.value, quality := sample.quality }

/-- The loop over the batches. -/
def verified_readings (tags : Nat → τ) (data : List UInt8) (pos : Nat) : List (Reading τ) :=
  if pos + 16 ≤ data.length then
    let header := unpack_batch_header data pos
    if header.magic ≠ BATCH_MAGIC ∨ header.version ≠ 2 then verified_readings tags data (pos + 8)
    else
      let start := pos + 16
      let stop := start + header.count * 24
      if stop > data.length then []
      else
        let payload := (data.drop start).take (stop - start)
        (if crc32c payload = header.payload_crc then (iter_unpack payload).map (readingOf tags)
          else []) ++ verified_readings tags data stop
  else []
termination_by data.length - pos

/-- `read_segment`. `load_tags` makes the dictionary from the tag table, unless the table is
malformed. -/
def read_segment (load_tags : List UInt8 → Option (Nat → τ)) (data : List UInt8) :
    Except Failure (List (Reading τ)) :=
  if data.length < 32 then .error .struct_error
  else
    let header := unpack_segment_header data
    if header.magic ≠ SEGMENT_MAGIC ∨ header.version ≠ 1 then
      .error (.value_error "not an Ironpulse export segment (or a newer version)")
    else
      let table := (data.drop 32).take header.table_len
      if crc32c table ≠ header.table_crc then .error (.value_error "tag table is damaged")
      else
        match load_tags table with
        | none => .error .table_error
        | some tags => .ok (verified_readings tags data ((32 + header.table_len + 7) / 8 * 8))

/-! ## (4) Both read the same numbers -/

/-- One step of the checksum in 32 bits and in unbounded integers. -/
theorem toNat_crc32c_bit (crc : UInt32) :
    (Ingest.crc32c_bit crc).toNat = crc32c_bit crc.toNat := by
  have hodd : crc &&& 1 ≠ 0 ↔ crc.toNat &&& 1 ≠ 0 := by
    rw [ne_eq, ← UInt32.toNat_inj, UInt32.toNat_and]
    rfl
  unfold Ingest.crc32c_bit crc32c_bit
  by_cases h : crc &&& 1 ≠ 0
  · rw [if_pos h, if_pos (hodd.mp h), UInt32.toNat_xor, UInt32.toNat_shiftRight]
    rfl
  · rw [if_neg h, if_neg (fun hne => h (hodd.mpr hne)), UInt32.toNat_shiftRight]
    rfl

/-- Several steps of the checksum in 32 bits and in unbounded integers. -/
theorem toNat_iterate_crc32c_bit (n : Nat) (crc : UInt32) :
    (Nat.iterate Ingest.crc32c_bit n crc).toNat = Nat.iterate crc32c_bit n crc.toNat := by
  induction n generalizing crc with
  | zero => rfl
  | succ n ih => rw [Function.iterate_succ_apply, Function.iterate_succ_apply, ih, toNat_crc32c_bit]

/-- Both tables hold the same remainders. -/
theorem toNat_crc32cTable {i : Nat} (h : i < 256) :
    (kCrc32cTable.getD i 0).toNat = crc32c_table.getD i 0 := by
  have hleft : kCrc32cTable.getD i 0 = Nat.iterate Ingest.crc32c_bit 8 (UInt32.ofNat i) := by
    simp [kCrc32cTable, make_crc32c_table, h]
  have hright : crc32c_table.getD i 0 = Nat.iterate crc32c_bit 8 i := by
    simp [crc32c_table, h]
  have hi : (UInt32.ofNat i).toNat = i := by
    rw [UInt32.toNat_ofNat']
    omega
  rw [hleft, hright, toNat_iterate_crc32c_bit, hi]

/-- A byte of the checksum in 32 bits and in unbounded integers. -/
theorem toNat_crc32c_byte (crc : UInt32) (byte : UInt8) :
    (Ingest.crc32c_byte crc byte).toNat = crc32c_byte crc.toNat byte := by
  have hindex : ((crc ^^^ byte.toUInt32) &&& 0xFF).toNat = (crc.toNat ^^^ byte.toNat) &&& 0xFF := by
    rw [UInt32.toNat_and, UInt32.toNat_xor, UInt8.toNat_toUInt32]
    rfl
  have hlt : (crc.toNat ^^^ byte.toNat) &&& 0xFF < 256 :=
    Nat.lt_succ_of_le Nat.and_le_right
  rw [Ingest.crc32c_byte, crc32c_byte, UInt32.toNat_xor, hindex, toNat_crc32cTable hlt,
    UInt32.toNat_shiftRight]
  rfl

/-- **Both checksums are the same.** -/
theorem toNat_crc32c (data : List UInt8) : (Ingest.crc32c data).toNat = crc32c data := by
  have hfold : ∀ crc : UInt32, (data.foldl Ingest.crc32c_byte crc).toNat =
      data.foldl crc32c_byte crc.toNat := by
    induction data with
    | nil => exact fun _ => rfl
    | cons byte data ih =>
        intro crc
        rw [List.foldl_cons, List.foldl_cons, ih, toNat_crc32c_byte]
  rw [Ingest.crc32c, crc32c_software, crc32c, UInt32.toNat_xor, hfold]
  rfl

/-- **Both read the same segment header.** -/
theorem unpack_segment_header_eq (file : List UInt8) :
    unpack_segment_header file =
      { magic := (segment_header file).magic.toNat
        version := (segment_header file).version.toNat
        table_len := (segment_header file).tag_table_bytes.toNat
        table_crc := (segment_header file).tag_table_crc32c.toNat } := by
  -- each field is read by both at the same offset of the header
  have hmagic : (segment_header file).magic =
      RecordCodec.uint32.decode ((read_at file 0 32).take 4) := rfl
  have hversion : (segment_header file).version =
      RecordCodec.uint16.decode (((read_at file 0 32).drop 4).take 2) := rfl
  have hlen : (segment_header file).tag_table_bytes = RecordCodec.uint32.decode
      (((((read_at file 0 32).drop 4).drop 2).drop 2 |>.drop 8).take 4) := rfl
  have hcrc : (segment_header file).tag_table_crc32c = RecordCodec.uint32.decode
      ((((((read_at file 0 32).drop 4).drop 2).drop 2 |>.drop 8).drop 4).take 4) := rfl
  simp (disch := decide) only [take_read_at, drop_read_at, Nat.reduceAdd, Nat.reduceSub]
    at hmagic hversion hlen hcrc
  -- and both read it with the same byte order
  rw [unpack_segment_header, hmagic, hversion, hlen, hcrc,
    RecordCodec.toNat_uint32_decode (length_read_at_le _ _ 4),
    RecordCodec.toNat_uint16_decode (length_read_at_le _ _ 2),
    RecordCodec.toNat_uint32_decode (length_read_at_le _ _ 4),
    RecordCodec.toNat_uint32_decode (length_read_at_le _ _ 4)]
  rfl

/-- **Both read the same batch header.** -/
theorem unpack_batch_header_eq (file : List UInt8) (pos : Nat) :
    unpack_batch_header file pos =
      { magic := (header_at file pos).magic.toNat, version := (header_at file pos).version.toNat
        count := (header_at file pos).count.toNat
        payload_crc := (header_at file pos).payload_crc32c.toNat } := by
  -- each field is read by both at the same offset of the header
  have hmagic : (header_at file pos).magic =
      RecordCodec.uint32.decode ((read_at file pos 16).take 4) := rfl
  have hversion : (header_at file pos).version =
      RecordCodec.uint16.decode (((read_at file pos 16).drop 4).take 2) := rfl
  have hcount : (header_at file pos).count =
      RecordCodec.uint32.decode ((((read_at file pos 16).drop 4).drop 2 |>.drop 2).take 4) := rfl
  have hcrc : (header_at file pos).payload_crc32c =
      RecordCodec.uint32.decode ((((read_at file pos 16).drop 4).drop 2 |>.drop 2).drop 4) := rfl
  simp (disch := decide) only [take_read_at, drop_read_at, Nat.add_assoc, Nat.reduceAdd,
    Nat.reduceSub] at hmagic hversion hcount hcrc
  rw [unpack_batch_header, hmagic, hversion, hcount, hcrc,
    RecordCodec.toNat_uint32_decode (length_read_at_le _ _ 4),
    RecordCodec.toNat_uint16_decode (length_read_at_le _ _ 2),
    RecordCodec.toNat_uint32_decode (length_read_at_le _ _ 4),
    RecordCodec.toNat_uint32_decode (length_read_at_le _ _ 4)]
  rfl

/-- **Both read the same sample.** -/
theorem unpack_sample_eq (data : List UInt8) (pos : Nat) :
    unpack_sample data pos =
      { ts := (telemetrySample.decode (read_at data pos 24)).timestamp_ms.toNat
        value := (telemetrySample.decode (read_at data pos 24)).value.toNat
        tag_id := (telemetrySample.decode (read_at data pos 24)).tag_id.toNat
        quality := (telemetrySample.decode (read_at data pos 24)).quality.toNat } := by
  -- each field is read by both at the same offset of the sample
  have hts : (telemetrySample.decode (read_at data pos 24)).timestamp_ms =
      RecordCodec.uint64.decode ((read_at data pos 24).take 8) := rfl
  have hvalue : (telemetrySample.decode (read_at data pos 24)).value =
      RecordCodec.uint64.decode (((read_at data pos 24).drop 8).take 8) := rfl
  have htag : (telemetrySample.decode (read_at data pos 24)).tag_id =
      RecordCodec.uint32.decode ((((read_at data pos 24).drop 8).drop 8).take 4) := rfl
  have hquality : (telemetrySample.decode (read_at data pos 24)).quality =
      RecordCodec.uint8.decode (((((read_at data pos 24).drop 8).drop 8).drop 4).take 1) := rfl
  simp (disch := decide) only [take_read_at, drop_read_at, Nat.add_assoc, Nat.reduceAdd,
    Nat.reduceSub] at hts hvalue htag hquality
  rw [unpack_sample, hts, hvalue, htag, hquality,
    RecordCodec.toNat_uint64_decode (length_read_at_le _ _ 8),
    RecordCodec.toNat_uint64_decode (length_read_at_le _ _ 8),
    RecordCodec.toNat_uint32_decode (length_read_at_le _ _ 4),
    RecordCodec.toNat_uint8_decode (length_read_at_le _ _ 1)]
  rfl

/-! ## (5) Both loops deliver the same readings -/

/-- What a delivered sample is to the script. -/
def reading (tags : Nat → τ) (sample : TelemetrySample) : Reading τ :=
  { ts := sample.timestamp_ms.toNat, tag := tags sample.tag_id.toNat
    value := sample.value.toNat, quality := sample.quality.toNat }

/-- A payload has the same samples. -/
theorem iter_unpack_eq (tags : Nat → τ) (payload : List UInt8) :
    (iter_unpack payload).map (readingOf tags) =
      (telemetrySample.decodeAll payload).map (reading tags) := by
  rw [iter_unpack, telemetrySample.decodeAll_eq_map_range, width_telemetrySample, List.map_map,
    List.map_map]
  refine List.map_congr_left fun i _ => ?_
  rw [Function.comp_apply, Function.comp_apply, unpack_sample_eq]
  rfl

section Loops

variable (tags : Nat → τ) {file : List UInt8} {pos : Nat}

/-- The script and the reader of the library take the same headers for unknown ones. -/
theorem unknown_iff :
    ((unpack_batch_header file pos).magic ≠ BATCH_MAGIC ∨
      (unpack_batch_header file pos).version ≠ 2) ↔ ¬ (header_at file pos).known := by
  have hmagic : (header_at file pos).magic.toNat = BATCH_MAGIC ↔
      (header_at file pos).magic = kMagic := by
    rw [show BATCH_MAGIC = kMagic.toNat from rfl, UInt32.toNat_inj]
  have hversion : (header_at file pos).version.toNat = 2 ↔
      (header_at file pos).version = kVersion := by
    rw [show 2 = kVersion.toNat from rfl, UInt16.toNat_inj]
  rw [unpack_batch_header_eq, BatchHeader.known, not_and_or, ne_eq, ne_eq, hmagic, hversion]

/-- Past the last whole header nothing is read. -/
theorem verified_readings_of_short (h : ¬ pos + 16 ≤ file.length) :
    verified_readings tags file pos = [] := by
  rw [verified_readings, if_neg h]

/-- An unknown header costs eight bytes. -/
theorem verified_readings_of_unknown (hinside : pos + 16 ≤ file.length)
    (h : ¬ (header_at file pos).known) :
    verified_readings tags file pos = verified_readings tags file (pos + 8) := by
  rw [verified_readings, if_pos hinside]
  dsimp only
  rw [if_pos (unknown_iff.mpr h)]

/-- A known header decides about its whole batch. -/
theorem verified_readings_of_known (hinside : pos + 16 ≤ file.length)
    (h : (header_at file pos).known) :
    verified_readings tags file pos =
      if pos + (16 + (header_at file pos).count.toNat * 24) > file.length then []
      else
        (if Ingest.crc32c (read_at file (pos + 16) ((header_at file pos).count.toNat * 24)) =
            (header_at file pos).payload_crc32c then
          (telemetrySample.decodeAll
            (read_at file (pos + 16) ((header_at file pos).count.toNat * 24))).map (reading tags)
          else []) ++
        verified_readings tags file (pos + (16 + (header_at file pos).count.toNat * 24)) := by
  rw [verified_readings, if_pos hinside]
  dsimp only
  rw [if_neg (fun hne => unknown_iff.mp hne h), unpack_batch_header_eq, ← Nat.add_assoc,
    Nat.add_sub_cancel_left, iter_unpack_eq, ← toNat_crc32c]
  simp only [UInt32.toNat_inj]
  rfl

/-- **The search of the other reader** skips what this one skips eight bytes at a time. -/
theorem verified_readings_resync (fuel : Nat) :
    verified_readings tags file (resync file fuel pos) = verified_readings tags file pos := by
  induction fuel generalizing pos with
  | zero => rfl
  | succ fuel ih =>
      rw [resync]
      by_cases hinside : pos + 16 ≤ file.length
      · rw [if_pos hinside]
        by_cases hmagic : RecordCodec.uint32.decode (read_at file pos 4) = kMagic
        · rw [if_pos hmagic]
        · rw [if_neg hmagic, ih]
          -- at a position without the magic neither reader finds a batch
          have hunknown : ¬ (header_at file pos).known := by
            intro hknown
            exact hmagic ((magic_header_at file pos).symm.trans hknown.1)
          rw [verified_readings_of_unknown tags hinside hunknown]
      · rw [if_neg hinside]

/-- **Both loops deliver the same readings**, given fuel for the rest of the file. -/
theorem readings_read_batches {fuel : Nat} (hfuel : file.length ≤ pos + fuel * 8)
    (result : SegmentReadResult) :
    ((read_batches file fuel pos result).delivered.flatMap Delivery.samples).map (reading tags) =
      (result.delivered.flatMap Delivery.samples).map (reading tags) ++
        verified_readings tags file pos := by
  induction fuel generalizing pos result with
  | zero =>
      rw [read_batches, verified_readings_of_short tags (by omega), List.append_nil]
  | succ fuel ih =>
      by_cases hinside : pos + 16 ≤ file.length
      · by_cases hknown : (header_at file pos).known
        · rw [read_batches_of_known hinside hknown, verified_readings_of_known tags hinside hknown]
          dsimp only
          split
          · rw [List.append_nil]
          · split
            · -- delivered by both
              rw [ih (by omega), List.flatMap_append, List.map_append, List.append_assoc,
                List.flatMap_singleton]
            · rw [ih (by omega), List.nil_append]
        · -- both look for the next header
          have hbehind := le_resync file file.length (pos + 8)
          rw [read_batches_of_unknown hinside hknown, ih (by omega), verified_readings_resync,
            verified_readings_of_unknown tags hinside hknown]
      · rw [verified_readings_of_short tags hinside, List.append_nil]
        by_cases hlt : pos < file.length
        · rw [read_batches_of_short hlt (by omega)]
        · rw [read_batches_of_end hlt]

end Loops

/-- **The readers agree on every file that both accept.** The script yields exactly the samples of
the delivered batches, in order, each with what its dictionary has for the sample's tag id. -/
theorem readers_agree {json : JsonLibrary} {path : String} {file : List UInt8}
    {load_tags : List UInt8 → Option (Nat → τ)} {readings : List (Reading τ)}
    (haccepted : (Ingest.read_segment json path (some file)).error = "")
    (hyielded : read_segment load_tags file = .ok readings) :
    ∃ tags, load_tags (table_at file) = some tags ∧ readings =
      ((Ingest.read_segment json path (some file)).delivered.flatMap Delivery.samples).map
        (reading tags) := by
  rcases read_segment_cases json path file with ⟨what, hwhat, hread⟩ | ⟨tags', hfront, hread⟩
  · -- a file that `read_segment` of the daemon refuses is not accepted
    rw [hread] at haccepted
    exact absurd haccepted hwhat
  · rw [read_segment, unpack_segment_header_eq] at hyielded
    -- the checks of the script in its order: length, magic and version, CRC, the table
    dsimp only at hyielded
    split at hyielded
    · cases hyielded
    · split at hyielded
      · cases hyielded
      · split at hyielded
        · cases hyielded
        · split at hyielded
          · cases hyielded
          · rename_i tags hload
            refine ⟨tags, hload, ?_⟩
            rw [hread, readings_read_batches tags (by omega), List.flatMap_nil, List.map_nil,
              List.nil_append]
            exact (Except.ok.inj hyielded).symm

/-- The script accepts what the reader accepts, if its dictionary can be built. -/
theorem exists_readings_of_accepted {json : JsonLibrary} {path : String} {file : List UInt8}
    {load_tags : List UInt8 → Option (Nat → τ)} {tags : Nat → τ}
    (haccepted : (Ingest.read_segment json path (some file)).error = "")
    (hload : load_tags (table_at file) = some tags) :
    ∃ readings, read_segment load_tags file = .ok readings := by
  rcases read_segment_cases json path file with ⟨what, hwhat, hread⟩ | ⟨_, hfront, -⟩
  · rw [hread] at haccepted
    exact absurd haccepted hwhat
  · -- the daemon has checked the same fields of the header
    have hmagic : (segment_header file).magic.toNat = SEGMENT_MAGIC := by
      rw [hfront.magic]
      rfl
    have hversion : (segment_header file).version.toNat = 1 := by
      rw [hfront.version]
      rfl
    have hcrc : crc32c ((file.drop 32).take (segment_header file).tag_table_bytes.toNat) =
        (segment_header file).tag_table_crc32c.toNat := by
      rw [← toNat_crc32c, ← hfront.crc]
      rfl
    have hload' : load_tags ((file.drop 32).take (segment_header file).tag_table_bytes.toNat) =
        some tags := hload
    rw [read_segment, unpack_segment_header_eq]
    dsimp only
    rw [if_neg (Nat.not_lt.mpr hfront.header),
      if_neg (not_or.mpr ⟨not_not.mpr hmagic, not_not.mpr hversion⟩), if_neg (not_not.mpr hcrc),
      hload']
    exact ⟨_, rfl⟩

/-- A segment with eight bytes of garbage in front of its only batch, and without tags. -/
def garbageFirst : List UInt8 :=
  (SegmentWriter.make (tableLibrary []) {} [] ∅).prefixBytes 0 ++ List.replicate 8 255 ++
    encodedBatch [{ timestamp_ms := 5, value := 7, tag_id := 1 }]

/-- What `tags.get` answers without tags. -/
def unknownTag (tag_id : Nat) : String := "tag_" ++ toString tag_id

/-- The dictionary of an empty tag table. -/
def noTags (text : List UInt8) : Option (Nat → String) :=
  if text = encode_tag_table (tableLibrary []) [] then some unknownTag else none

/-- The reader skips the garbage and delivers the batch. -/
theorem read_segment_garbageFirst :
    (Ingest.read_segment (tableLibrary []) "" (some garbageFirst)).error = "" ∧
      (Ingest.read_segment (tableLibrary []) "" (some garbageFirst)).delivered =
        [⟨80, [{ timestamp_ms := 5, value := 7, tag_id := 1 }]⟩] := by
  have hfront : SegmentFront (tableLibrary [])
      ((SegmentWriter.make (tableLibrary []) {} [] ∅).prefixBytes 0) [] 0 :=
    SegmentWriter.segmentFront_prefixBytes rfl (by decide +kernel) (parse_tableLibrary []) 0
  have hlength : garbageFirst.length = 119 + 1 := by decide +kernel
  have hpos : ((SegmentWriter.make (tableLibrary []) {} [] ∅).prefixBytes 0).length = 72 := by
    decide +kernel
  have hbefore : ((SegmentWriter.make (tableLibrary []) {} [] ∅).prefixBytes 0 ++
      List.replicate 8 255).length = 80 := by
    rw [List.length_append, hpos, List.length_replicate]
  have hresync : resync garbageFirst garbageFirst.length (72 + 8) = 80 := by decide +kernel
  have hread : Ingest.read_segment (tableLibrary []) "" (some garbageFirst) =
      read_batches garbageFirst garbageFirst.length 72 { tags := [], created_ms := 0 } := by
    rw [garbageFirst, List.append_assoc, read_segment_of_front hfront, hpos]
  -- the garbage is an unknown header, and the search for the next one ends behind it
  rw [hread, hlength, read_batches_of_unknown (by rw [hlength]; decide) (by decide +kernel), hresync,
    ← hbefore]
  have hcount : [({ timestamp_ms := 5, value := 7, tag_id := 1 } : TelemetrySample)].length <
      2 ^ 32 := by decide
  have hbatch := read_batches_encodedBatch hcount
    ((SegmentWriter.make (tableLibrary []) {} [] ∅).prefixBytes 0 ++ List.replicate 8 255) [] 118
  rw [List.append_nil] at hbatch
  rw [garbageFirst, hbatch, read_batches_of_end]
  · rw [hbefore]
    exact ⟨rfl, rfl⟩
  · rw [List.length_append]
    exact Nat.lt_irrefl _

/-- Both readers find the batch behind the garbage. -/
theorem readers_agree_garbageFirst :
    read_segment noTags garbageFirst = .ok [⟨5, "tag_1", 7, 0⟩] := by
  have hload : noTags (table_at garbageFirst) = some unknownTag := if_pos (by decide +kernel)
  obtain ⟨haccepted, hdelivered⟩ := read_segment_garbageFirst
  obtain ⟨readings, hyielded⟩ := exists_readings_of_accepted haccepted hload
  obtain ⟨tags, htags, hreadings⟩ := readers_agree haccepted hyielded
  rw [hload, Option.some.injEq] at htags
  rw [hyielded, hreadings, ← htags, hdelivered]
  rfl

end Ironpulse.ExportReader
