import Ironpulse.Ingest.Serializer
import Ironpulse.Lib.ReflectedCrc

/-! # Three ways to a CRC-32C

`include/ironpulse/ingest/serializer.hpp` computes the checksum of a batch with the CRC32 instructions
where the processor has them and by table elsewhere, so that a batch written on one machine verifies
on any other.

* **`crc32c_bitwise`**: the definition, bit by bit.
* **`Sse42`**, **`Sse42.Specified`**: a processor with the instructions, and what its manual says of
  them.
* **`crc32c_sse42`**: eight bytes at a time, then byte by byte.
* **`crc32c_agree`**: all three agree on every byte string. -/

namespace Ironpulse.Ingest

open ByteCodec ReflectedCrc

/-! ## (1) The checksum bit by bit and by instruction -/

/-- CRC-32C by its definition: the bits of the bytes, least significant first, are added to a
register of ones and shifted out; the register is complemented at the end. -/
def crc32c_bitwise (data : List UInt8) : UInt32 :=
  (bitsOfBytes data).foldl (fun crc bit => crc32c_bit (crc ^^^ if bit then 1 else 0)) 0xFFFFFFFF ^^^
    0xFFFFFFFF

/-- The two instructions of a processor with SSE 4.2. -/
structure Sse42 where
  mm_crc32_u8 : UInt32 → UInt8 → UInt32
  mm_crc32_u64 : UInt64 → UInt64 → UInt64

/-- The operation of the CRC32 instruction, as its manual has it, for a source of `n` bits: the
source and the destination are reflected and shifted into place, their sum is divided by the
polynomial `0x11EDC6F41`, whose leading bit is understood, and the remainder is reflected. -/
def crc32Operation {n : Nat} (dest : BitVec 32) (src : BitVec n) : BitVec 32 :=
  let temp1 := src.reverse
  let temp2 := dest.reverse
  let temp3 := temp1.setWidth (n + 32) <<< 32
  let temp4 := temp2.setWidth (n + 32) <<< n
  let temp5 := temp3 ^^^ temp4
  let temp6 := mod2 0x1EDC6F41#32 temp5
  temp6.reverse

/-- A processor whose instructions do what the manual says, in the low 32 bits. -/
structure Sse42.Specified (cpu : Sse42) : Prop where
  u8 : ∀ crc byte,
    (cpu.mm_crc32_u8 crc byte).toBitVec = crc32Operation crc.toBitVec byte.toBitVec
  u64 : ∀ crc chunk,
    (cpu.mm_crc32_u64 crc chunk).toUInt32.toBitVec =
      crc32Operation crc.toUInt32.toBitVec chunk.toBitVec

/-- The loop over whole words of eight bytes: the register and the bytes that are left. -/
def crc32c_words (cpu : Sse42) (crc : UInt64) (data : List UInt8) : UInt64 × List UInt8 :=
  if data.length < 8 then (crc, data)
  else
    let chunk := RecordCodec.uint64.decode (data.take 8)
    crc32c_words cpu (cpu.mm_crc32_u64 crc chunk) (data.drop 8)
termination_by data.length

/-- `crc32c_sse42`: eight bytes at a time, then byte by byte. -/
def crc32c_sse42 (cpu : Sse42) (data : List UInt8) : UInt32 :=
  let (crc, rest) := crc32c_words cpu 0xFFFFFFFF data
  rest.foldl cpu.mm_crc32_u8 crc.toUInt32 ^^^ 0xFFFFFFFF

/-! ## (2) The register

Every way of absorbing bytes is measured by one: feeding their bits to a register of 32 bits. -/

/-- The reflected polynomial as a word. Its highest bit, the constant term, is set. -/
def polynomial : BitVec 32 := kCrc32cPolynomial.toBitVec

/-- The reflected polynomial has its highest bit set. -/
theorem msb_polynomial : polynomial.msb = true := rfl

/-- The manual gives the polynomial the other way round. -/
theorem reverse_manual_polynomial : (0x1EDC6F41#32).reverse = polynomial := by decide +kernel

/-- The register after some bytes. -/
def absorb (crc : UInt32) (data : List UInt8) : BitVec 32 :=
  feedAll polynomial crc.toBitVec (bitsOfBytes data)

/-- One step of the table's loop is a step of the reflected division. -/
theorem toBitVec_crc32c_bit (crc : UInt32) :
    (crc32c_bit crc).toBitVec = step polynomial crc.toBitVec := by
  have hlow : crc &&& 1 ≠ 0 ↔ crc.toBitVec.getLsbD 0 = true := by
    have hone : (1 : UInt32).toNat = 1 := rfl
    rw [Ne, ← UInt32.toNat_inj, UInt32.toNat_and, hone, Nat.and_one_is_mod, UInt32.toNat_zero,
      BitVec.getLsbD, Nat.testBit_zero, decide_eq_true_iff]
    show ¬ crc.toNat % 2 = 0 ↔ crc.toNat % 2 = 1
    omega
  unfold crc32c_bit step
  by_cases hbit : crc &&& 1 ≠ 0
  · rw [if_pos hbit, if_pos (hlow.mp hbit)]
    rfl
  · rw [if_neg hbit, if_neg (mt hlow.mpr hbit)]
    rfl

/-- Several steps of the loop are several steps of the division. -/
theorem toBitVec_iterate_crc32c_bit (n : Nat) (crc : UInt32) :
    (Nat.iterate crc32c_bit n crc).toBitVec = steps polynomial n crc.toBitVec := by
  induction n generalizing crc with
  | zero => rfl
  | succ n ih => rw [Function.iterate_succ_apply, ih, toBitVec_crc32c_bit, steps_succ]

/-- Two pieces of data are absorbed one after the other. -/
theorem absorb_append (crc : UInt32) (data more : List UInt8) :
    absorb crc (data ++ more) = absorb (.ofBitVec (absorb crc data)) more := by
  rw [absorb, bitsOfBytes_append, feedAll_append]
  rfl

/-! ## (3) By definition and by table -/

/-- **The definition absorbs the bytes.** -/
theorem crc32c_bitwise_eq (data : List UInt8) :
    crc32c_bitwise data = .ofBitVec (absorb 0xFFFFFFFF data) ^^^ 0xFFFFFFFF := by
  have hfold : ∀ (bits : List Bool) (crc : UInt32),
      bits.foldl (fun crc bit => crc32c_bit (crc ^^^ if bit then 1 else 0)) crc =
        .ofBitVec (feedAll polynomial crc.toBitVec bits) := by
    intro bits
    induction bits with
    | nil => exact fun _ => rfl
    | cons bit bits ih =>
        intro crc
        -- one bit of the loop is one bit fed into the register
        have hbit : (crc32c_bit (crc ^^^ if bit then 1 else 0)).toBitVec =
            feed polynomial crc.toBitVec bit := by
          rw [toBitVec_crc32c_bit, UInt32.toBitVec_xor, feed]
          cases bit <;> rfl
        rw [List.foldl_cons, ih, hbit]
        rfl
  rw [crc32c_bitwise, hfold]
  rfl

/-- An entry of the table is its index, shifted through eight steps. -/
theorem kCrc32cTable_getD {i : Nat} (hi : i < 256) :
    kCrc32cTable.getD i 0 = Nat.iterate crc32c_bit 8 (UInt32.ofNat i) := by
  simp [kCrc32cTable, make_crc32c_table, Array.getD, hi]

/-- **A table look-up absorbs a byte.** -/
theorem toBitVec_crc32c_byte (crc : UInt32) (byte : UInt8) :
    (crc32c_byte crc byte).toBitVec = absorb crc [byte] := by
  have hbyte := byte.toNat_lt
  have hindex : ((crc ^^^ byte.toUInt32) &&& 0xFF).toNat < 256 := by
    rw [UInt32.toNat_and]
    exact Nat.and_lt_two_pow _ (by decide : (0xFF : UInt32).toNat < 2 ^ 8)
  have hword : byte.toUInt32.toBitVec = BitVec.ofNat 32 byte.toNat := by
    apply BitVec.eq_of_toNat_eq
    rw [BitVec.toNat_ofNat, Nat.mod_eq_of_lt (by omega)]
    exact UInt8.toNat_toUInt32 byte
  -- the byte is below the bits that are only shifted
  have hshift : (crc.toBitVec ^^^ BitVec.ofNat 32 byte.toNat) >>> 8 = crc.toBitVec >>> 8 := by
    apply BitVec.eq_of_toNat_eq
    rw [BitVec.toNat_ushiftRight, BitVec.toNat_xor, BitVec.toNat_ofNat,
      Nat.mod_eq_of_lt (by omega), Nat.shiftRight_xor_distrib,
      Nat.shiftRight_eq_zero byte.toNat 8 hbyte, Nat.xor_zero, BitVec.toNat_ushiftRight]
  have hfeed : absorb crc [byte] = steps polynomial 8 (crc.toBitVec ^^^ .ofNat 32 byte.toNat) := by
    rw [steps_xor_ofNat polynomial (by decide) hbyte, absorb, bitsOfBytes, List.flatMap_singleton]
  rw [crc32c_byte, UInt32.toBitVec_xor, kCrc32cTable_getD hindex, toBitVec_iterate_crc32c_bit,
    hfeed, steps_eq_low_xor_high polynomial (by decide) (crc.toBitVec ^^^ _), hshift,
    UInt32.ofNat_toNat, ← hword]
  rfl

/-- **The loop over the bytes** absorbs them all. -/
theorem foldl_crc32c_byte (data : List UInt8) (crc : UInt32) :
    data.foldl crc32c_byte crc = .ofBitVec (absorb crc data) := by
  induction data generalizing crc with
  | nil => rfl
  | cons byte data ih =>
      rw [List.foldl_cons, ih, ← List.singleton_append, absorb_append, ← toBitVec_crc32c_byte]

/-- **The table absorbs the bytes.** -/
theorem crc32c_software_eq (data : List UInt8) :
    crc32c_software data = .ofBitVec (absorb 0xFFFFFFFF data) ^^^ 0xFFFFFFFF := by
  rw [crc32c_software, foldl_crc32c_byte]

/-! ## (4) By instruction -/

/-- **The instruction feeds the bits of its source**: the division of the reflected words is the
reflected register. -/
theorem crc32Operation_eq {n : Nat} (dest : BitVec 32) (src : BitVec n) :
    crc32Operation dest src = feedAll polynomial dest (lowBits n src.toNat) := by
  have hsum : (src.reverse.setWidth (n + 32) <<< 32 ^^^
      dest.reverse.setWidth (n + 32) <<< n).reverse.toNat = src.toNat ^^^ dest.toNat := by
    rw [reverse_xor, reverse_setWidth_shiftLeft rfl, reverse_setWidth_shiftLeft (Nat.add_comm ..),
      BitVec.toNat_xor, BitVec.toNat_setWidth_of_le (by omega),
      BitVec.toNat_setWidth_of_le (by omega)]
  unfold crc32Operation
  dsimp only
  rw [reverse_mod2, hsum, reverse_manual_polynomial,
    pushAll_lowBits_xor polynomial msb_polynomial src.isLt]

section Instructions

variable {cpu : Sse42}

/-- The instruction for one byte absorbs it. -/
theorem toBitVec_mm_crc32_u8 (hcpu : cpu.Specified) (crc : UInt32) (byte : UInt8) :
    (cpu.mm_crc32_u8 crc byte).toBitVec = absorb crc [byte] := by
  rw [hcpu.u8, crc32Operation_eq, absorb, bitsOfBytes, List.flatMap_singleton]
  rfl

/-- The instruction for eight bytes absorbs them in their order. -/
theorem toBitVec_mm_crc32_u64 (hcpu : cpu.Specified) (crc : UInt64) {bytes : List UInt8}
    (h : bytes.length = 8) :
    (cpu.mm_crc32_u64 crc (RecordCodec.uint64.decode bytes)).toUInt32.toBitVec =
      absorb crc.toUInt32 bytes := by
  rw [hcpu.u64, crc32Operation_eq, absorb, bitsOfBytes_eq_lowBits, h,
    ← RecordCodec.toNat_uint64_decode h.le]
  rfl

/-- The instruction for one byte, repeated, absorbs all bytes. -/
theorem foldl_mm_crc32_u8 (hcpu : cpu.Specified) (data : List UInt8) (crc : UInt32) :
    data.foldl cpu.mm_crc32_u8 crc = .ofBitVec (absorb crc data) := by
  induction data generalizing crc with
  | nil => rfl
  | cons byte data ih =>
      rw [List.foldl_cons, ih, ← List.singleton_append, absorb_append, ← toBitVec_mm_crc32_u8 hcpu]

/-- **The loop over words** absorbs what it consumes: the bytes that are left still have to be
absorbed. -/
theorem absorb_crc32c_words (hcpu : cpu.Specified) (crc : UInt64) (data : List UInt8) :
    absorb (crc32c_words cpu crc data).1.toUInt32 (crc32c_words cpu crc data).2 =
      absorb crc.toUInt32 data := by
  fun_induction crc32c_words cpu crc data with
  | case1 crc data hshort => rfl
  | case2 crc data hlong chunk ih =>
      have hchunk : (data.take 8).length = 8 := by
        rw [List.length_take]
        omega
      rw [ih]
      conv_rhs => rw [← List.take_append_drop 8 data, absorb_append,
        ← toBitVec_mm_crc32_u64 hcpu crc hchunk]

/-- **The instructions absorb the bytes.** -/
theorem crc32c_sse42_eq (hcpu : cpu.Specified) (data : List UInt8) :
    crc32c_sse42 cpu data = .ofBitVec (absorb 0xFFFFFFFF data) ^^^ 0xFFFFFFFF := by
  unfold crc32c_sse42
  dsimp only
  rw [foldl_mm_crc32_u8 hcpu, absorb_crc32c_words hcpu]
  rfl

end Instructions

/-! ## (5) Agreement -/

/-- **All three ways agree** on every byte string: by instruction, on a processor that does what its
manual says, by table, and by the definition. -/
theorem crc32c_agree {cpu : Sse42} (hcpu : cpu.Specified) (data : List UInt8) :
    crc32c_sse42 cpu data = crc32c_bitwise data ∧ crc32c_software data = crc32c_bitwise data := by
  rw [crc32c_sse42_eq hcpu, crc32c_software_eq, crc32c_bitwise_eq]
  exact ⟨rfl, rfl⟩

/-- The processor of the manual. -/
def Sse42.ofManual : Sse42 where
  mm_crc32_u8 crc byte := .ofBitVec (crc32Operation crc.toBitVec byte.toBitVec)
  mm_crc32_u64 crc chunk :=
    .ofBitVec ((crc32Operation crc.toUInt32.toBitVec chunk.toBitVec).setWidth 64)

/-- The operation of the manual meets its own specification. -/
theorem Sse42.ofManual_specified : Sse42.ofManual.Specified where
  u8 _ _ := rfl
  u64 crc chunk := by
    rw [UInt64.toBitVec_toUInt32]
    exact BitVec.setWidth_setWidth_of_le _ (by decide)

/-- The check value of CRC-32C, by instruction. -/
theorem crc32c_agree_check :
    crc32c_sse42 Sse42.ofManual [0x31, 0x32, 0x33, 0x34, 0x35, 0x36, 0x37, 0x38, 0x39] =
      0xE3069283 := by
  rw [(crc32c_agree Sse42.ofManual_specified _).1]
  decide +kernel

end Ironpulse.Ingest
