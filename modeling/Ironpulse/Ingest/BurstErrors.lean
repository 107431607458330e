import Ironpulse.Ingest.BatchDecoding
import Ironpulse.Ingest.Crc32c

/-! # Short bursts of errors

A checksum of 32 bits cannot tell all batches apart, but it tells those apart that differ in at most
four consecutive bytes: what is absorbed there is as long as the register, and absorbing the same
bytes afterwards keeps two registers apart.

* **`crc32c_burst`**: byte strings that differ in four consecutive bytes have different checksums.
* **`Burst`**, **`decode_burst`**: both decoders report a batch with such damage and leave their
  output alone. -/

namespace Ironpulse.Ingest

open ByteCodec ReflectedCrc

/-! ## (1) Checksums -/

/-- **At most four bytes are never confused.** -/
theorem absorb_injective_data {crc : UInt32} {a b : List UInt8} (hlength : a.length = b.length)
    (hshort : a.length ≤ 4) (h : absorb crc a = absorb crc b) : a = b := by
  have ha := natOfBytes_lt a
  have hb := natOfBytes_lt b
  have hpow : ∀ n, 256 ^ n = 2 ^ (8 * n) := fun n => (pow_mul 2 8 n).symm
  rw [hpow] at ha hb
  rw [absorb, absorb, bitsOfBytes_eq_lowBits, bitsOfBytes_eq_lowBits, ← hlength] at h
  rw [← hlength] at hb
  -- the bits of at most four bytes are no more than the register has
  have hnum := feedAll_lowBits_injective polynomial msb_polynomial (by omega) ha hb _ h
  rw [← littleEndian_natOfBytes hlength, hnum, littleEndian_natOfBytes rfl]

/-- **Registers that differ stay apart** while the same bytes are absorbed. -/
theorem absorb_injective_register {r s : UInt32} {data : List UInt8}
    (h : absorb r data = absorb s data) : r = s :=
  UInt32.toBitVec_inj.mp (feedAll_injective polynomial msb_polynomial (bitsOfBytes data) h)

/-- **Every short burst changes the checksum**, wherever it is. -/
theorem crc32c_burst {a b : List UInt8} (before after : List UInt8) (hlength : a.length = b.length)
    (hshort : a.length ≤ 4) (hne : a ≠ b) :
    crc32c (before ++ (a ++ after)) ≠ crc32c (before ++ (b ++ after)) := by
  intro h
  rw [crc32c, crc32c, crc32c_software_eq, crc32c_software_eq, UInt32.xor_left_inj] at h
  have habsorb : absorb 0xFFFFFFFF (before ++ (a ++ after)) =
      absorb 0xFFFFFFFF (before ++ (b ++ after)) := congrArg UInt32.toBitVec h
  simp only [absorb_append] at habsorb
  -- what follows the burst keeps the registers apart
  have hburst := congrArg UInt32.toBitVec (absorb_injective_register habsorb)
  exact hne (absorb_injective_data hlength hshort hburst)

/-! ## (2) Batches -/

/-- Bits of at most four consecutive payload bytes of a batch are changed, at least one of them. -/
structure Burst (batch damaged : List UInt8) : Prop where
  length_eq : damaged.length = batch.length
  window : ∃ start, 16 ≤ start ∧ ∀ i, i < start ∨ start + 4 ≤ i → damaged[i]? = batch[i]?
  changed : damaged ≠ batch

/-- The bytes before the burst, in it and after it. -/
theorem Burst.split {batch damaged : List UInt8} (h : Burst batch damaged) :
    ∃ before a b after, 16 ≤ before.length ∧ a.length = b.length ∧ a.length ≤ 4 ∧ a ≠ b ∧
      batch = before ++ (a ++ after) ∧ damaged = before ++ (b ++ after) := by
  obtain ⟨start, hstart, hsame⟩ := h.window
  have hlength := h.length_eq
  have hparts : ∀ bytes : List UInt8,
      bytes = bytes.take start ++ ((bytes.drop start).take 4 ++ bytes.drop (start + 4)) := by
    intro bytes
    rw [← List.drop_drop, List.take_append_drop, List.take_append_drop]
  have hbefore : damaged.take start = batch.take start := by
    apply List.ext_getElem?
    intro i
    rw [List.getElem?_take, List.getElem?_take]
    split
    · rename_i hi
      exact hsame i (.inl hi)
    · rfl
  have hafter : damaged.drop (start + 4) = batch.drop (start + 4) := by
    apply List.ext_getElem?
    intro i
    rw [List.getElem?_drop, List.getElem?_drop]
    exact hsame _ (.inr (Nat.le_add_right ..))
  -- outside the four bytes nothing differs, so something does inside
  have hne : (batch.drop start).take 4 ≠ (damaged.drop start).take 4 := by
    intro heq
    apply h.changed
    rw [hparts batch, hparts damaged, hbefore, heq, hafter]
  have hinside : start < batch.length := by
    by_contra hout
    rw [List.drop_eq_nil_of_le (by omega), List.drop_eq_nil_of_le (by omega)] at hne
    exact hne rfl
  refine ⟨batch.take start, (batch.drop start).take 4, (damaged.drop start).take 4,
    batch.drop (start + 4), ?_, ?_, List.length_take_le .., hne, hparts batch, ?_⟩
  · rw [List.length_take]
    omega
  · rw [List.length_take, List.length_take, List.length_drop, List.length_drop, hlength]
  · conv_lhs => rw [hparts damaged, hbefore, hafter]

/-- `peek` sees the header and the length only. -/
theorem peek_congr {data data' : List UInt8} (hheader : data.take 16 = data'.take 16)
    (hlength : data.length = data'.length) : peek data = peek data' := by
  unfold peek
  rw [hheader, hlength]

/-- **Damage to the payload that changes the checksum** is found. -/
theorem batch_status_of_damaged {samples : List TelemetrySample} (hcount : samples.length < 2 ^ 32)
    {payload : List UInt8} (hlength : payload.length = samples.length * 24)
    (hcrc : crc32c payload ≠ crc32c (telemetrySample.encodeAll samples)) (rest : List UInt8) :
    batch_status (batchHeader.encode (headerOf samples) ++ payload ++ rest) = .crc_mismatch := by
  have hheader : (batchHeader.encode (headerOf samples)).length = 16 :=
    batchHeader.length_encode _
  -- the header is undamaged, so the status hangs on the checksum alone
  have hpeek : peek (batchHeader.encode (headerOf samples) ++ payload ++ rest) =
      { status := .ok, header := headerOf samples
        batch_bytes := required_buffer_size (UInt64.ofNat samples.length) } := by
    rw [← peek_encoded hcount rest]
    apply peek_congr
    · rw [encodedBatch, List.append_assoc, List.append_assoc, List.take_left' hheader,
        List.take_left' hheader]
    · rw [List.length_append, List.length_append, List.length_append, length_encodedBatch, hlength,
        hheader]
  have hpayload : payload_of (batchHeader.encode (headerOf samples) ++ payload ++ rest) =
      payload := by
    rw [payload_of, hpeek]
    dsimp only
    rw [toNat_required_buffer_size hcount, List.append_assoc, List.drop_left' hheader,
      Nat.add_sub_cancel_left, List.take_left' hlength]
  rw [batch_status, hpayload, hpeek, if_neg (not_not_intro rfl), if_pos]
  exact hcrc

/-- **A burst of at most four bytes in the payload is found** by both decoders, whatever follows the
batch, and their outputs are left as they are. A batch without samples has no payload to damage. -/
theorem decode_burst {samples : List TelemetrySample} {out_size : UInt64}
    (hcount : samples.length < 2 ^ 32) (hout : 16 + samples.length * 24 ≤ out_size.toNat)
    {damaged : List UInt8} (hburst : Burst (serialize samples out_size) damaged)
    (rest : List UInt8) (out : List TelemetrySample) (address : UInt64) (view : SampleSpan) :
    decode_copy (damaged ++ rest) out = (.crc_mismatch, out) ∧
      decode_view address (damaged ++ rest) view = (.crc_mismatch, view) := by
  rw [serialize_of_fits hcount hout] at hburst
  obtain ⟨before, a, b, after, hbefore, hlength, hshort, hne, hbatch, rfl⟩ := hburst.split
  have hheader : (batchHeader.encode (headerOf samples)).length = 16 :=
    batchHeader.length_encode _
  -- the burst lies behind the header
  have hfront : batchHeader.encode (headerOf samples) ++ before.drop 16 = before := by
    have htake := congrArg (List.take 16) hbatch
    rw [encodedBatch, List.take_left' hheader, List.take_append_of_le_length hbefore] at htake
    rw [htake, List.take_append_drop]
  have hpayload : telemetrySample.encodeAll samples = before.drop 16 ++ (a ++ after) := by
    have hdrop := congrArg (List.drop 16) hbatch
    rwa [encodedBatch, List.drop_left' hheader, List.drop_append_of_le_length hbefore] at hdrop
  have hsize : (before.drop 16 ++ (b ++ after)).length = samples.length * 24 := by
    rw [← width_telemetrySample, ← telemetrySample.length_encodeAll, hpayload]
    simp only [List.length_append, hlength]
  have hcrc : crc32c (before.drop 16 ++ (b ++ after)) ≠
      crc32c (telemetrySample.encodeAll samples) := by
    rw [hpayload]
    exact (crc32c_burst (before.drop 16) after hlength hshort hne).symm
  have hstatus : batch_status (before ++ (b ++ after) ++ rest) = .crc_mismatch := by
    have h := batch_status_of_damaged hcount hsize hcrc rest
    rwa [← List.append_assoc, hfront] at h
  rw [decode_copy_eq, decode_view_eq, hstatus]
  exact ⟨if_neg (by decide), if_pos (by decide)⟩

/-- The highest bit of a batch's last byte is flipped. -/
theorem decode_burst_last_bit :
    decode_copy ((serialize [{ timestamp_ms := 5, value := 7, tag_id := 1 }] 40).set 39 0x80 ++ [])
      [] = (.crc_mismatch, []) := by
  let samples : List TelemetrySample := [{ timestamp_ms := 5, value := 7, tag_id := 1 }]
  have hfits := @serialize_of_fits samples 40 (by decide) (by decide)
  have hburst : Burst (serialize samples 40) ((serialize samples 40).set 39 0x80) := by
    refine ⟨List.length_set, ⟨39, by decide, ?_⟩, ?_⟩
    · intro i hi
      exact List.getElem?_set_ne (by omega)
    · intro hsame
      have hlast := congrArg (·[39]?) hsame
      rw [hfits] at hlast
      exact absurd hlast (by decide +kernel)
  exact (decode_burst (by decide) (by decide) hburst [] [] 0 {}).1

end Ironpulse.Ingest
