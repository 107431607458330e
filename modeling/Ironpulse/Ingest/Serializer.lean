import Ironpulse.Lib.ByteCodec

/-! # Batches of samples and their encoding

`include/ironpulse/ingest/serializer.hpp`: a batch is a 16-byte header followed by samples of 24
bytes, both in little-endian memory order. The header counts the samples in 32 bits and carries a
CRC-32C of their bytes.

* **`serialize`**, **`peek`**, **`decode_copy`**: the encoder and the decoder.
* **`serialize_of_fits`**, **`serialize_of_too_many`**: what the encoder accepts and refuses.
* **`decode_copy_encoded`**: decoding undoes encoding. -/

namespace Ironpulse.Ingest

open ByteCodec

/-! ## (1) Samples and headers -/

/-- One reading in the export stream. The value is the 64 bits of a `double`. -/
structure TelemetrySample where
  timestamp_ms : UInt64
  value : UInt64
  tag_id : UInt32
  quality : UInt8 := 0
  reserved : UInt8 × UInt8 × UInt8 := (0, 0, 0)
  deriving DecidableEq

/-- A sample's fields in memory order. -/
def TelemetrySample.equiv :
    TelemetrySample ≃ UInt64 × UInt64 × UInt32 × UInt8 × UInt8 × UInt8 × UInt8 where
  toFun s := (s.timestamp_ms, s.value, s.tag_id, s.quality, s.reserved)
  invFun x :=
    { timestamp_ms := x.1, value := x.2.1, tag_id := x.2.2.1, quality := x.2.2.2.1
      reserved := x.2.2.2.2 }
  left_inv _ := rfl
  right_inv _ := rfl

/-- The 24 bytes of a sample. -/
def telemetrySample : RecordCodec TelemetrySample :=
  (RecordCodec.uint64.pair <| RecordCodec.uint64.pair <| RecordCodec.uint32.pair <|
    RecordCodec.uint8.pair <| RecordCodec.uint8.pair <| RecordCodec.uint8.pair
      RecordCodec.uint8).ofEquiv TelemetrySample.equiv

/-- Prefix of every batch. -/
structure BatchHeader where
  magic : UInt32 := 0
  version : UInt16 := 0
  flags : UInt16 := 0
  count : UInt32 := 0
  payload_crc32c : UInt32 := 0
  deriving DecidableEq

/-- A header's fields in memory order. -/
def BatchHeader.equiv : BatchHeader ≃ UInt32 × UInt16 × UInt16 × UInt32 × UInt32 where
  toFun h := (h.magic, h.version, h.flags, h.count, h.payload_crc32c)
  invFun x :=
    { magic := x.1, version := x.2.1, flags := x.2.2.1, count := x.2.2.2.1
      payload_crc32c := x.2.2.2.2 }
  left_inv _ := rfl
  right_inv _ := rfl

/-- The 16 bytes of a batch header. -/
def batchHeader : RecordCodec BatchHeader :=
  (RecordCodec.uint32.pair <| RecordCodec.uint16.pair <| RecordCodec.uint16.pair <|
    RecordCodec.uint32.pair RecordCodec.uint32).ofEquiv BatchHeader.equiv

/-- `sizeof(TelemetrySample)`. -/
@[simp] theorem width_telemetrySample : telemetrySample.width = 24 := rfl

/-- `sizeof(BatchHeader)`. -/
@[simp] theorem width_batchHeader : batchHeader.width = 16 := rfl

/-! ## (2) CRC-32C -/

/-- The reflected polynomial. -/
def kCrc32cPolynomial : UInt32 := 0x82F63B78

/-- One bit of the division. -/
def crc32c_bit (crc : UInt32) : UInt32 :=
  if crc &&& 1 ≠ 0 then (crc >>> 1) ^^^ kCrc32cPolynomial else crc >>> 1

/-- `make_crc32c_table`: eight bits of division for every byte. -/
def make_crc32c_table : Array UInt32 :=
  (Array.range 256).map fun i => Nat.iterate crc32c_bit 8 (UInt32.ofNat i)

/-- `kCrc32cTable`, computed when the program is compiled. -/
def kCrc32cTable : Array UInt32 := make_crc32c_table

/-- One byte of the division, by table. -/
def crc32c_byte (crc : UInt32) (byte : UInt8) : UInt32 :=
  kCrc32cTable.getD ((crc ^^^ byte.toUInt32) &&& 0xFF).toNat 0 ^^^ (crc >>> 8)

/-- `crc32c_software`: one table look-up for each byte. -/
def crc32c_software (data : List UInt8) : UInt32 :=
  data.foldl crc32c_byte 0xFFFFFFFF ^^^ 0xFFFFFFFF

/-- `crc32c`, by the table. -/
def crc32c (data : List UInt8) : UInt32 := crc32c_software data

/-! ## (3) Encoding and decoding -/

/-- Why a buffer could not be decoded as a batch. -/
inductive DecodeStatus where
  | ok
  | too_short
  | bad_magic
  | unsupported_version
  | truncated
  | crc_mismatch
  | misaligned
  deriving DecidableEq

/-- The bytes `APLC` read as a number. -/
def kMagic : UInt32 := 0x434C5041

/-- `kVersion`. -/
def kVersion : UInt16 := 2

/-- `required_buffer_size`, modulo `2 ^ 64`. -/
def required_buffer_size (sample_count : UInt64) : UInt64 := 16 + sample_count * 24

/-- The header of a batch. -/
def headerOf (samples : List TelemetrySample) : BatchHeader :=
  { magic := kMagic, version := kVersion, flags := 0
    count := (UInt64.ofNat samples.length).toUInt32
    payload_crc32c := crc32c (telemetrySample.encodeAll samples) }

/-- An encoded batch. -/
def encodedBatch (samples : List TelemetrySample) : List UInt8 :=
  batchHeader.encode (headerOf samples) ++ telemetrySample.encodeAll samples

/-- `serialize`: the bytes written at the front of a buffer of `out_size` bytes, as many as it
returns; none if the buffer is too small or the samples do not fit the header's count. -/
def serialize (samples : List TelemetrySample) (out_size : UInt64) : List UInt8 :=
  let size := UInt64.ofNat samples.length
  if out_size < required_buffer_size size ∨ size > 0xFFFFFFFF then [] else encodedBatch samples

/-- What `peek` reads: a status, the header and the size of the batch, which keep the caller's
initial values where the data is too short for them. -/
structure Peek where
  status : DecodeStatus
  header : BatchHeader := {}
  batch_bytes : UInt64 := 0
  deriving DecidableEq

/-- `peek`: the header at the start of `data`. -/
def peek (data : List UInt8) : Peek :=
  if data.length < 16 then { status := .too_short }
  else
    let header := batchHeader.decode (data.take 16)
    if header.magic ≠ kMagic then { status := .bad_magic, header }
    else if header.version ≠ kVersion then { status := .unsupported_version, header }
    else
      let batch_bytes := required_buffer_size header.count.toUInt64
      { status := if data.length < batch_bytes.toNat then .truncated else .ok
        header, batch_bytes }

/-- `decode_copy`: the status, and `out` with the samples of the batch at the start of `data`. -/
def decode_copy (data : List UInt8) (out : List TelemetrySample) :
    DecodeStatus × List TelemetrySample :=
  let peeked := peek data
  if peeked.status ≠ .ok then (peeked.status, out)
  else
    let payload := (data.drop 16).take (peeked.batch_bytes.toNat - 16)
    if crc32c payload ≠ peeked.header.payload_crc32c then (.crc_mismatch, out)
    else (.ok, out ++ telemetrySample.decodeAll payload)

/-! ## (4) Decoding undoes encoding -/

/-- A 32-bit count never wraps the buffer size. -/
theorem toNat_required_buffer_size {n : Nat} (h : n < 2 ^ 32) :
    (required_buffer_size (UInt64.ofNat n)).toNat = 16 + n * 24 := by
  rw [required_buffer_size, UInt64.toNat_add, UInt64.toNat_mul, UInt64.toNat_ofNat']
  have h16 : (16 : UInt64).toNat = 16 := rfl
  have h24 : (24 : UInt64).toNat = 24 := rfl
  rw [h16, h24]
  omega

/-- The size that a header announces. -/
theorem toNat_required_buffer_size_count (count : UInt32) :
    (required_buffer_size count.toUInt64).toNat = 16 + count.toNat * 24 := by
  have hcount : count.toUInt64 = UInt64.ofNat count.toNat := by
    apply UInt64.toNat_inj.mp
    have hlt := count.toNat_lt
    rw [UInt32.toNat_toUInt64, UInt64.toNat_ofNat']
    omega
  rw [hcount, toNat_required_buffer_size count.toNat_lt]

/-- An encoded batch is its header and 24 bytes for each sample. -/
theorem length_encodedBatch (samples : List TelemetrySample) :
    (encodedBatch samples).length = 16 + samples.length * 24 := by
  rw [encodedBatch, List.length_append, batchHeader.length_encode,
    telemetrySample.length_encodeAll, width_batchHeader, width_telemetrySample]

/-- **What the encoder accepts**: a count that fits in 32 bits and a buffer that is large enough. -/
theorem serialize_of_fits {samples : List TelemetrySample} {out_size : UInt64}
    (hcount : samples.length < 2 ^ 32) (hout : 16 + samples.length * 24 ≤ out_size.toNat) :
    serialize samples out_size = encodedBatch samples := by
  have hsize : ¬ UInt64.ofNat samples.length > 0xFFFFFFFF := by
    rw [gt_iff_lt, UInt64.lt_iff_toNat_lt, UInt64.toNat_ofNat']
    have : (0xFFFFFFFF : UInt64).toNat = 2 ^ 32 - 1 := rfl
    omega
  have hfits : ¬ out_size < required_buffer_size (UInt64.ofNat samples.length) := by
    rw [UInt64.lt_iff_toNat_lt, toNat_required_buffer_size hcount]
    omega
  exact if_neg (not_or.mpr ⟨hfits, hsize⟩)

/-- **What the encoder refuses**: a count beyond 32 bits gives no bytes. -/
theorem serialize_of_too_many {samples : List TelemetrySample} {out_size : UInt64}
    (hlow : 2 ^ 32 ≤ samples.length) (hhigh : samples.length < 2 ^ 64) :
    serialize samples out_size = [] := by
  have hsize : UInt64.ofNat samples.length > 0xFFFFFFFF := by
    rw [gt_iff_lt, UInt64.lt_iff_toNat_lt, UInt64.toNat_ofNat']
    have : (0xFFFFFFFF : UInt64).toNat = 2 ^ 32 - 1 := rfl
    omega
  exact if_pos (.inr hsize)

/-- The header's count of a batch that fits. -/
theorem toNat_count_headerOf {samples : List TelemetrySample} (hcount : samples.length < 2 ^ 32) :
    (headerOf samples).count.toUInt64 = UInt64.ofNat samples.length := by
  apply UInt64.toNat_inj.mp
  rw [headerOf, UInt32.toNat_toUInt64, UInt64.toNat_toUInt32, UInt64.toNat_ofNat']
  omega

/-- The header of an encoded batch is read back. -/
theorem peek_encoded {samples : List TelemetrySample} (hcount : samples.length < 2 ^ 32)
    (rest : List UInt8) :
    peek (encodedBatch samples ++ rest) =
      { status := .ok, header := headerOf samples
        batch_bytes := required_buffer_size (UInt64.ofNat samples.length) } := by
  have hlength : (batchHeader.encode (headerOf samples)).length = 16 :=
    batchHeader.length_encode _
  have hbatch := length_encodedBatch samples
  have hread : batchHeader.decode ((encodedBatch samples ++ rest).take 16) = headerOf samples := by
    rw [encodedBatch, List.append_assoc, List.take_left' hlength, batchHeader.decode_encode]
  have hlong : ¬ (encodedBatch samples ++ rest).length < 16 := by
    rw [List.length_append]
    omega
  -- the whole batch is there, so none of the checks fails
  have hwhole : ¬ (encodedBatch samples ++ rest).length <
      (required_buffer_size (UInt64.ofNat samples.length)).toNat := by
    rw [toNat_required_buffer_size hcount, List.length_append]
    omega
  unfold peek
  rw [if_neg hlong, hread]
  dsimp only
  rw [toNat_count_headerOf hcount, if_neg hwhole]
  rfl

/-- **Decoding undoes encoding**, whatever follows the batch. -/
theorem decode_copy_encoded {samples : List TelemetrySample} (hcount : samples.length < 2 ^ 32)
    (rest : List UInt8) (out : List TelemetrySample) :
    decode_copy (encodedBatch samples ++ rest) out = (.ok, out ++ samples) := by
  have hlength : (batchHeader.encode (headerOf samples)).length = 16 :=
    batchHeader.length_encode _
  have hpayload : (telemetrySample.encodeAll samples).length = samples.length * 24 :=
    telemetrySample.length_encodeAll samples
  unfold decode_copy
  rw [peek_encoded hcount rest]
  dsimp only
  rw [toNat_required_buffer_size hcount, encodedBatch, List.append_assoc, List.drop_left' hlength,
    Nat.add_sub_cancel_left, List.take_left' hpayload, if_neg (by decide), headerOf,
    if_neg (by simp), telemetrySample.decodeAll_encodeAll]

end Ironpulse.Ingest
