import Ironpulse.Ingest.Serializer

/-! # Encoding and decoding a batch are inverse

`include/ironpulse/ingest/serializer.hpp` has two encoders, into a buffer of the caller and into one
of its own, and two decoders, one that copies the samples and one that returns a view of them.

* **`serialize_into`**, **`serialize_allocating`**, **`decode_view`**: the operations besides
  `decode_copy`.
* **`batch_status`**, **`decode_copy_eq`**, **`decode_view_eq`**: both decoders make the same check of the
  bytes.
* **`decode_copy_serialize`**, **`serialize_decode_copy`**: decoding undoes encoding, and encoding
  undoes decoding but for the flags.
* **`batch_codec`**: all of it together with what the operations leave untouched. -/

namespace Ironpulse.Ingest

open ByteCodec

/-! ## (1) The operations -/

/-- `serialize` into a caller's buffer: what it returns, and the buffer afterwards. -/
def serialize_into (samples : List TelemetrySample) (out : List UInt8) : UInt64 × List UInt8 :=
  let written := serialize samples (UInt64.ofNat out.length)
  (UInt64.ofNat written.length, written ++ out.drop written.length)

/-- `serialize`, the allocating overload: a buffer of the required size, filled with zeros before the
batch is written into it. -/
def serialize_allocating (samples : List TelemetrySample) : List UInt8 :=
  let buffer := List.replicate (required_buffer_size (UInt64.ofNat samples.length)).toNat 0
  (serialize_into samples buffer).2

/-- A `span` of samples: where it begins and what is read through it. -/
structure SampleSpan where
  address : UInt64 := 0
  samples : List TelemetrySample := []
  deriving DecidableEq

/-- `decode_view`, for bytes at an address: the status, and what `samples` is afterwards. -/
def decode_view (address : UInt64) (data : List UInt8) (samples : SampleSpan) :
    DecodeStatus × SampleSpan :=
  let peeked := peek data
  if peeked.status ≠ .ok then (peeked.status, samples)
  else
    let payload := (data.drop 16).take (peeked.batch_bytes.toNat - 16)
    if crc32c payload ≠ peeked.header.payload_crc32c then (.crc_mismatch, samples)
    else if (address + 16) % 8 ≠ 0 then (.misaligned, samples)
    else (.ok, { address := address + 16, samples := telemetrySample.decodeAll payload })

/-! ## (2) The check that both decoders make -/

/-- The bytes of the samples that the header announces. -/
def payload_of (data : List UInt8) : List UInt8 :=
  (data.drop 16).take ((peek data).batch_bytes.toNat - 16)

/-- What is wrong with a batch wherever it lies. -/
def batch_status (data : List UInt8) : DecodeStatus :=
  if (peek data).status ≠ .ok then (peek data).status
  else if crc32c (payload_of data) ≠ (peek data).header.payload_crc32c then .crc_mismatch
  else .ok

/-- **What copying decodes**: a batch that passes the checks is appended, and nothing else happens.
-/
theorem decode_copy_eq (data : List UInt8) (out : List TelemetrySample) :
    decode_copy data out =
      if batch_status data = .ok then (.ok, out ++ telemetrySample.decodeAll (payload_of data))
      else (batch_status data, out) := by
  unfold decode_copy batch_status
  dsimp only
  by_cases hpeek : (peek data).status ≠ .ok
  · rw [if_pos hpeek, if_pos hpeek, if_neg hpeek]
  · rw [if_neg hpeek, if_neg hpeek, ← payload_of]
    by_cases hcrc : crc32c (payload_of data) ≠ (peek data).header.payload_crc32c
    · rw [if_pos hcrc, if_pos hcrc, if_neg (by decide)]
    · rw [if_neg hcrc, if_neg hcrc, if_pos rfl]

/-- **What a view shows**: a batch that passes the checks and lies aligned. -/
theorem decode_view_eq (address : UInt64) (data : List UInt8) (samples : SampleSpan) :
    decode_view address data samples =
      if batch_status data ≠ .ok then (batch_status data, samples)
      else if (address + 16) % 8 ≠ 0 then (.misaligned, samples)
      else (.ok, ⟨address + 16, telemetrySample.decodeAll (payload_of data)⟩) := by
  unfold decode_view batch_status
  dsimp only
  by_cases hpeek : (peek data).status ≠ .ok
  · rw [if_pos hpeek, if_pos hpeek, if_pos hpeek]
  · rw [if_neg hpeek, if_neg hpeek, ← payload_of]
    by_cases hcrc : crc32c (payload_of data) ≠ (peek data).header.payload_crc32c
    · rw [if_pos hcrc, if_pos hcrc, if_pos (by decide)]
    · rw [if_neg hcrc, if_neg hcrc, if_neg (not_not_intro rfl)]

/-- Copying reports the status of the batch. -/
theorem status_decode_copy (data : List UInt8) (out : List TelemetrySample) :
    (decode_copy data out).1 = batch_status data := by
  rw [decode_copy_eq]
  split
  · rename_i hok
    exact hok.symm
  · rfl

/-- **What `peek` accepts**: the magic and the version, and as many bytes as the header announces. -/
theorem peek_of_ok {data : List UInt8} {header : BatchHeader}
    (hheader : header = batchHeader.decode (data.take 16)) (h : (peek data).status = .ok) :
    header.magic = kMagic ∧ header.version = kVersion ∧
      16 + header.count.toNat * 24 ≤ data.length ∧
      peek data =
        { status := .ok, header, batch_bytes := required_buffer_size header.count.toUInt64 } := by
  unfold peek at h ⊢
  rw [← hheader] at h ⊢
  dsimp only at h ⊢
  split_ifs at h ⊢ with hshort hmagic hversion hcut
  rw [toNat_required_buffer_size_count] at hcut
  exact ⟨not_not.mp hmagic, not_not.mp hversion, Nat.not_lt.mp hcut, rfl⟩

/-- A batch that both decoders accept: a header of this version before all the samples that it
counts, with their checksum. -/
structure Whole (data : List UInt8) (header : BatchHeader) : Prop where
  header_eq : header = batchHeader.decode (data.take 16)
  magic : header.magic = kMagic
  version : header.version = kVersion
  length : 16 + header.count.toNat * 24 ≤ data.length
  batch_bytes : (peek data).batch_bytes.toNat = 16 + header.count.toNat * 24
  payload_crc32c : header.payload_crc32c = crc32c (payload_of data)

/-- A batch that passes the checks is whole. -/
theorem whole_of_batch_status {data : List UInt8} (h : batch_status data = .ok) :
    Whole data (batchHeader.decode (data.take 16)) := by
  have hpeek : (peek data).status = .ok := by
    by_contra hpeek
    rw [batch_status, if_pos hpeek] at h
    exact hpeek h
  have hcrc : crc32c (payload_of data) = (peek data).header.payload_crc32c := by
    by_contra hcrc
    rw [batch_status, if_neg (not_not_intro hpeek), if_pos hcrc] at h
    cases h
  obtain ⟨hmagic, hversion, hlength, heq⟩ := peek_of_ok rfl hpeek
  rw [heq] at hcrc
  refine ⟨rfl, hmagic, hversion, hlength, ?_, hcrc.symm⟩
  rw [heq, toNat_required_buffer_size_count]

/-- The payload of a whole batch is as long as its count says. -/
theorem Whole.length_payload {data : List UInt8} {header : BatchHeader} (h : Whole data header) :
    (payload_of data).length = header.count.toNat * 24 := by
  have hlength := h.length
  rw [payload_of, h.batch_bytes, List.length_take, List.length_drop]
  omega

/-- The bytes of a batch are its header's and its samples'. -/
theorem Whole.take_batch_bytes {data : List UInt8} {header : BatchHeader} (h : Whole data header) :
    data.take (peek data).batch_bytes.toNat = data.take 16 ++ payload_of data := by
  rw [payload_of, h.batch_bytes, Nat.add_sub_cancel_left, List.take_add]

/-! ## (3) The two are inverse -/

/-- A batch of fewer than `2 ^ 32` samples fits into the buffer of its required size. -/
theorem serialize_into_of_fits {samples : List TelemetrySample} {out : List UInt8}
    (hcount : samples.length < 2 ^ 32) (hout : 16 + samples.length * 24 ≤ out.length)
    (hsize : out.length < 2 ^ 64) :
    (serialize_into samples out).2 =
      encodedBatch samples ++ out.drop (16 + samples.length * 24) := by
  have hfits : 16 + samples.length * 24 ≤ (UInt64.ofNat out.length).toNat := by
    rwa [UInt64.toNat_ofNat_of_lt' hsize]
  rw [serialize_into, serialize_of_fits hcount hfits]
  dsimp only
  rw [length_encodedBatch]

/-- Without a fixed buffer every batch is encoded in full. -/
theorem serialize_allocating_eq {samples : List TelemetrySample} (hcount : samples.length < 2 ^ 32) :
    serialize_allocating samples = encodedBatch samples := by
  unfold serialize_allocating
  dsimp only
  rw [toNat_required_buffer_size hcount, serialize_into_of_fits hcount (List.length_replicate).ge
    (by rw [List.length_replicate]; omega), List.drop_replicate, Nat.sub_self,
    List.replicate_zero, List.append_nil]

/-- **Decoding undoes encoding**, whatever follows the batch and whatever the output holds. -/
theorem decode_copy_serialize {samples : List TelemetrySample} (hcount : samples.length < 2 ^ 32)
    (rest : List UInt8) (out : List TelemetrySample) :
    decode_copy (serialize_allocating samples ++ rest) out = (.ok, out ++ samples) := by
  rw [serialize_allocating_eq hcount, decode_copy_encoded hcount]

/-- The bytes of a batch with the flags, bytes 6 and 7, cleared. -/
def clear_flags (batch : List UInt8) : List UInt8 := batch.take 6 ++ [0, 0] ++ batch.drop 8

/-- Clearing the flags replaces bytes six and seven of a header. -/
theorem clear_flags_append {front flags : List UInt8} (hfront : front.length = 6)
    (hflags : flags.length = 2) (rest : List UInt8) :
    clear_flags (front ++ (flags ++ rest)) = front ++ ([0, 0] ++ rest) := by
  have hlength : (front ++ flags).length = 8 := by rw [List.length_append, hfront, hflags]
  rw [clear_flags, List.take_left' hfront, ← List.append_assoc front flags, List.drop_left' hlength,
    List.append_assoc]

/-- The header without its flags encodes to the bytes with the flags cleared. -/
theorem encode_clear_flags (header : BatchHeader) (payload : List UInt8) :
    batchHeader.encode { header with flags := 0 } ++ payload =
      clear_flags (batchHeader.encode header ++ payload) := by
  have hfields : ∀ h : BatchHeader, batchHeader.encode h ++ payload =
      (littleEndian 4 h.magic.toNat ++ littleEndian 2 h.version.toNat) ++
        (littleEndian 2 h.flags.toNat ++ (littleEndian 4 h.count.toNat ++
          littleEndian 4 h.payload_crc32c.toNat ++ payload)) := by
    intro h
    simp only [List.append_assoc]
    rfl
  have hcleared : littleEndian 2 (0 : UInt16).toNat = [0, 0] := by decide
  rw [hfields, hfields, clear_flags_append _ (length_littleEndian 2 _), ← hcleared]
  · rw [List.length_append, length_littleEndian, length_littleEndian]

/-- **Encoding undoes decoding** but for the flags: the samples that were appended encode to the bytes
they were read from. -/
theorem serialize_decode_copy {data : List UInt8} {out : List TelemetrySample}
    (h : (decode_copy data out).1 = .ok) :
    ∃ samples, (decode_copy data out).2 = out ++ samples ∧
      serialize_allocating samples =
        clear_flags (data.take (peek data).batch_bytes.toNat) := by
  rw [status_decode_copy] at h
  have hwhole := whole_of_batch_status h
  have hlength := hwhole.length
  have hpayload := hwhole.length_payload
  rw [decode_copy_eq, if_pos h]
  refine ⟨_, rfl, ?_⟩
  -- the payload is whole samples, as many as the header counts
  have hencode : telemetrySample.encodeAll (telemetrySample.decodeAll (payload_of data)) =
      payload_of data := by
    apply telemetrySample.encodeAll_decodeAll_of_dvd
    rw [hpayload]
    exact Nat.dvd_mul_left ..
  have hsamples : (telemetrySample.decodeAll (payload_of data)).length =
      (batchHeader.decode (data.take 16)).count.toNat := by
    rw [telemetrySample.length_decodeAll, hpayload, width_telemetrySample,
      Nat.mul_div_cancel _ (by decide)]
  have hcount := UInt32.toNat_lt (batchHeader.decode (data.take 16)).count
  have hheader : headerOf (telemetrySample.decodeAll (payload_of data)) =
      { batchHeader.decode (data.take 16) with flags := 0 } := by
    rw [headerOf, hencode, hsamples, ← hwhole.magic, ← hwhole.version, ← hwhole.payload_crc32c]
    congr 1
    apply UInt32.toNat_inj.mp
    rw [UInt64.toNat_toUInt32, UInt64.toNat_ofNat']
    omega
  have hfront : batchHeader.encode (batchHeader.decode (data.take 16)) = data.take 16 := by
    apply batchHeader.encode_decode
    rw [List.length_take, width_batchHeader]
    omega
  rw [serialize_allocating_eq (by omega), encodedBatch, hencode, hheader, encode_clear_flags,
    hfront, hwhole.take_batch_bytes]

/-! ## (4) What is left untouched -/

/-- **A buffer that is too small** is left as it is, and nothing is returned. -/
theorem serialize_into_of_small {samples : List TelemetrySample} {out : List UInt8}
    (hsize : samples.length < 2 ^ 64) (hsmall : out.length < 16 + samples.length * 24) :
    serialize_into samples out = (0, out) := by
  have hnone : serialize samples (UInt64.ofNat out.length) = [] := by
    by_cases hcount : samples.length < 2 ^ 32
    · -- the size does not wrap, and the buffer is compared with it
      apply if_pos
      left
      rw [UInt64.lt_iff_toNat_lt, toNat_required_buffer_size hcount,
        UInt64.toNat_ofNat_of_lt' (by have : UInt64.size = 2 ^ 64 := rfl; omega)]
      exact hsmall
    · exact serialize_of_too_many (Nat.not_lt.mp hcount) hsize
  rw [serialize_into, hnone]
  rfl

/-- A failed copy appends nothing. -/
theorem decode_copy_of_not_ok {data : List UInt8} {out : List TelemetrySample}
    (h : (decode_copy data out).1 ≠ .ok) : (decode_copy data out).2 = out := by
  rw [status_decode_copy] at h
  rw [decode_copy_eq, if_neg h]

/-- A failed view leaves the span as it was. -/
theorem decode_view_of_not_ok {address : UInt64} {data : List UInt8} {samples : SampleSpan}
    (h : (decode_view address data samples).1 ≠ .ok) :
    (decode_view address data samples).2 = samples := by
  rw [decode_view_eq] at h ⊢
  split_ifs at h ⊢ with hstatus halign
  · rfl
  · rfl
  · exact absurd rfl h

/-- **The decoders differ in the alignment only.** -/
theorem status_decode_view (address : UInt64) (data : List UInt8) (samples : SampleSpan)
    (out : List TelemetrySample) :
    (decode_view address data samples).1 = .misaligned ∨
      (decode_view address data samples).1 = (decode_copy data out).1 := by
  rw [status_decode_copy, decode_view_eq]
  split_ifs with hstatus halign
  · exact .inr rfl
  · exact .inl rfl
  · exact .inr (not_not.mp hstatus).symm

/-- **The encoders and the decoders of a batch**: decoding undoes encoding and the other way round but
for the flags, a buffer that is too small and the outputs of a failed decoding are left as they are,
and the two decoders differ in the alignment only. -/
theorem batch_codec :
    (∀ (samples out : List TelemetrySample) (rest : List UInt8), samples.length < 2 ^ 32 →
        decode_copy (serialize_allocating samples ++ rest) out = (.ok, out ++ samples)) ∧
      (∀ (data : List UInt8) (out : List TelemetrySample), (decode_copy data out).1 = .ok →
        ∃ samples, (decode_copy data out).2 = out ++ samples ∧
          serialize_allocating samples =
            clear_flags (data.take (peek data).batch_bytes.toNat)) ∧
      (∀ (samples : List TelemetrySample) (out : List UInt8), samples.length < 2 ^ 64 →
        out.length < 16 + samples.length * 24 → serialize_into samples out = (0, out)) ∧
      (∀ (data : List UInt8) (out : List TelemetrySample), (decode_copy data out).1 ≠ .ok →
        (decode_copy data out).2 = out) ∧
      (∀ (address : UInt64) (data : List UInt8) (view : SampleSpan),
        (decode_view address data view).1 ≠ .ok → (decode_view address data view).2 = view) ∧
      ∀ (address : UInt64) (data : List UInt8) (view : SampleSpan) (out : List TelemetrySample),
        (decode_view address data view).1 = .misaligned ∨
          (decode_view address data view).1 = (decode_copy data out).1 :=
  ⟨fun _ out rest hcount => decode_copy_serialize hcount rest out,
    fun _ _ h => serialize_decode_copy h,
    fun _ _ hsize hsmall => serialize_into_of_small hsize hsmall,
    fun _ _ h => decode_copy_of_not_ok h,
    fun _ _ _ h => decode_view_of_not_ok h,
    status_decode_view⟩

/-- A batch of one sample, followed by another byte and appended to what is there. -/
theorem batch_codec_one :
    decode_copy (serialize_allocating [{ timestamp_ms := 5, value := 7, tag_id := 1 }] ++ [9])
        [{ timestamp_ms := 4, value := 6, tag_id := 0 }] =
      (.ok, [{ timestamp_ms := 4, value := 6, tag_id := 0 },
        { timestamp_ms := 5, value := 7, tag_id := 1 }]) :=
  batch_codec.1 [{ timestamp_ms := 5, value := 7, tag_id := 1 }]
    [{ timestamp_ms := 4, value := 6, tag_id := 0 }] [9] (by decide)

end Ironpulse.Ingest
