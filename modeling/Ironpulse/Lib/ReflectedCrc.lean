import Mathlib.Algebra.Group.Nat.Defs
import Mathlib.Logic.Function.Iterate
import Ironpulse.Lib.ByteCodec

/-! # Cyclic redundancy checks with a reflected register

A register of `w` bits that is shifted towards its low end, with a feedback polynomial that is added
whenever a one falls out. Bits are fed at the low end, one by one or many at a time.

* **`step`**, **`step_xor`**, **`step_injective`**: one shift is linear, and injective if the
  polynomial has a constant term.
* **`feedAll`**, **`steps_xor_ofNat`**: feeding bits one by one or as one word.
* **`feedAll_lowBits_injective`**: as many bits as the register has are never confused.
* **`mod2`**, **`reverse_mod2`**: the remainder of a division of polynomials over two elements is the
  reflected register after the same bits. -/

namespace ReflectedCrc

open ByteCodec

variable {w : Nat} (poly : BitVec w)

/-! ## (1) The register -/

/-- One shift of the register. -/
def step (reg : BitVec w) : BitVec w :=
  if reg.getLsbD 0 then (reg >>> 1) ^^^ poly else reg >>> 1

/-- Some shifts of the register. -/
def steps (n : Nat) (reg : BitVec w) : BitVec w := (step poly)^[n] reg

/-- No step leaves the register as it is. -/
@[simp] theorem steps_zero (reg : BitVec w) : steps poly 0 reg = reg := rfl

/-- The first step, and then the others. -/
theorem steps_succ (n : Nat) (reg : BitVec w) :
    steps poly (n + 1) reg = steps poly n (step poly reg) := rfl

/-- The last step, after the others. -/
theorem steps_succ' (n : Nat) (reg : BitVec w) :
    steps poly (n + 1) reg = step poly (steps poly n reg) :=
  Function.iterate_succ_apply' _ _ _

/-- **A shift is linear.** -/
theorem step_xor (a b : BitVec w) : step poly (a ^^^ b) = step poly a ^^^ step poly b := by
  -- two reductions cancel each other
  have hcancel : ∀ x y : BitVec w, x ^^^ poly ^^^ (y ^^^ poly) = x ^^^ y := by
    intro x y
    rw [BitVec.xor_assoc, BitVec.xor_comm y, ← BitVec.xor_assoc poly, BitVec.xor_self,
      BitVec.zero_xor]
  unfold step
  rw [BitVec.getLsbD_xor, BitVec.ushiftRight_xor_distrib]
  cases a.getLsbD 0 with
  | false =>
      cases b.getLsbD 0 with
      | false => rfl
      | true =>
          rw [if_pos rfl, if_neg Bool.false_ne_true]
          exact BitVec.xor_assoc ..
  | true =>
      cases b.getLsbD 0 with
      | false =>
          rw [if_pos rfl, if_neg Bool.false_ne_true]
          exact (BitVec.xor_assoc ..).trans
            ((congrArg _ (BitVec.xor_comm ..)).trans (BitVec.xor_assoc ..).symm)
      | true => exact (hcancel _ _).symm

/-- Steps are linear. -/
theorem steps_xor (n : Nat) (a b : BitVec w) :
    steps poly n (a ^^^ b) = steps poly n a ^^^ steps poly n b := by
  induction n generalizing a b with
  | zero => rfl
  | succ n ih => rw [steps_succ, step_xor, ih, steps_succ, steps_succ]

/-- A register of zeros stays zero. -/
@[simp] theorem step_zero : step poly 0 = 0 := by
  have h := step_xor poly 0 0
  rwa [BitVec.xor_self, BitVec.xor_self] at h

/-- A register of zeros stays zero for any number of steps. -/
@[simp] theorem steps_of_zero (n : Nat) : steps poly n 0 = 0 := by
  induction n with
  | zero => rfl
  | succ n ih => rw [steps_succ, step_zero, ih]

/-- Without a one at the low end nothing is fed back. -/
theorem step_of_even {reg : BitVec w} (h : reg.getLsbD 0 = false) : step poly reg = reg >>> 1 := by
  rw [step, h, if_neg Bool.false_ne_true]

/-- **What is shifted up comes back**, if nothing falls out at the high end. -/
theorem step_shiftLeft {reg : BitVec w} (h : reg.msb = false) : step poly (reg <<< 1) = reg := by
  have heven : (reg <<< 1).getLsbD 0 = false := by simp
  rw [step_of_even poly heven]
  apply BitVec.eq_of_getLsbD_eq
  intro i hi
  rw [BitVec.getLsbD_ushiftRight, BitVec.getLsbD_shiftLeft]
  by_cases hlast : i + 1 < w
  · simp [Nat.add_comm 1 i, hlast]
  · -- the highest bit is the one that the shift loses
    have hi' : i = w - 1 := by omega
    rw [BitVec.msb_eq_getLsbD_last] at h
    simp [hi', h]

/-- **What is shifted up by some bits comes back**, if nothing falls out at the high end. -/
theorem steps_shiftLeft {reg : BitVec w} {n : Nat} (hn : n ≤ w) (h : reg.toNat < 2 ^ (w - n)) :
    steps poly n (reg <<< n) = reg := by
  induction n with
  | zero => exact BitVec.shiftLeft_zero _
  | succ n ih =>
      have hpow : 2 ^ (w - n) = 2 * 2 ^ (w - (n + 1)) := by
        rw [← pow_succ', Nat.sub_succ', Nat.sub_add_cancel (by omega)]
      have hmsb : (reg <<< n).msb = false := by
        rw [BitVec.msb_eq_getLsbD_last, BitVec.getLsbD_shiftLeft, BitVec.getLsbD,
          Nat.sub_right_comm, Nat.testBit_lt_two_pow (by rwa [Nat.sub_sub]), Bool.and_false]
      rw [steps_succ, BitVec.shiftLeft_add, step_shiftLeft poly hmsb, ih (by omega) (by omega)]

/-- A register is its low bits and the others, which are shifted up. -/
theorem eq_low_xor_high (n : Nat) (reg : BitVec w) :
    reg = (reg &&& BitVec.ofNat w (2 ^ n - 1)) ^^^ reg >>> n <<< n := by
  apply BitVec.eq_of_getLsbD_eq
  intro i hi
  rw [BitVec.getLsbD_xor, BitVec.getLsbD_and, BitVec.getLsbD_ofNat, BitVec.getLsbD_shiftLeft,
    BitVec.getLsbD_ushiftRight, Nat.testBit_two_pow_sub_one, decide_eq_true hi]
  by_cases hlow : i < n
  · simp [hlow]
  · simp [hlow, Nat.add_sub_cancel' (Nat.not_lt.mp hlow)]

/-- **Only the low bits feed back**: some shifts of the register are those of its low bits, added to
the others. This is why a table over the low bits is enough. -/
theorem steps_eq_low_xor_high {n : Nat} (hn : n ≤ w) (reg : BitVec w) :
    steps poly n reg = steps poly n (reg &&& BitVec.ofNat w (2 ^ n - 1)) ^^^ reg >>> n := by
  have hhigh : (reg >>> n).toNat < 2 ^ (w - n) := by
    rw [BitVec.toNat_ushiftRight, Nat.shiftRight_eq_div_pow, Nat.div_lt_iff_lt_mul
      (Nat.two_pow_pos n), ← pow_add, Nat.sub_add_cancel hn]
    exact reg.isLt
  conv_lhs => rw [eq_low_xor_high n reg]
  rw [steps_xor, steps_shiftLeft poly hn hhigh]

/-- **A shift is injective**, if the polynomial has a constant term, which is its highest bit here:
the highest bit of the result says what has fallen out. -/
theorem step_injective (hpoly : poly.msb = true) : Function.Injective (step poly) := by
  have hkernel : ∀ reg : BitVec w, step poly reg = 0#w → reg = 0#w := by
    intro reg hreg
    unfold step at hreg
    split at hreg
    · -- the feedback would have to cancel the highest bit
      have hmsb := congrArg BitVec.msb hreg
      rw [BitVec.msb_xor, BitVec.msb_ushiftRight, hpoly] at hmsb
      simp at hmsb
    · rename_i heven
      apply BitVec.eq_of_getLsbD_eq
      intro i hi
      rw [BitVec.getLsbD_zero]
      cases i with
      | zero => exact Bool.eq_false_iff.mpr heven
      | succ i =>
          have hbit := congrArg (BitVec.getLsbD · i) hreg
          rwa [BitVec.getLsbD_ushiftRight, BitVec.getLsbD_zero, Nat.add_comm] at hbit
  intro a b hab
  have hzero := hkernel (a ^^^ b) (by rw [step_xor, hab, BitVec.xor_self])
  rwa [BitVec.xor_eq_zero_iff] at hzero

/-- Steps lose nothing when the polynomial has its highest bit set. -/
theorem steps_injective (hpoly : poly.msb = true) (n : Nat) :
    Function.Injective (steps poly n) := (step_injective poly hpoly).iterate n

/-! ## (2) Bits and bytes, least significant first -/

/-- The `n` low bits of a number. -/
def lowBits (n v : Nat) : List Bool := (List.range n).map v.testBit

/-- No bits of a number. -/
@[simp] theorem lowBits_zero (v : Nat) : lowBits 0 v = [] := rfl

/-- The lowest bit, and then those of half the number. -/
theorem lowBits_succ (n v : Nat) : lowBits (n + 1) v = v.testBit 0 :: lowBits n (v / 2) := by
  rw [lowBits, List.range_succ_eq_map, List.map_cons, List.map_map]
  congr 1
  exact List.map_congr_left fun i _ => Nat.testBit_succ v i

/-- The bits of a number in two parts. -/
theorem lowBits_add (m n v : Nat) : lowBits (m + n) v = lowBits m v ++ lowBits n (v / 2 ^ m) := by
  rw [lowBits, List.range_add, List.map_append, List.map_map]
  congr 1
  refine List.map_congr_left fun i _ => ?_
  rw [Function.comp_apply, Nat.testBit_div_two_pow, Nat.add_comm]

/-- The bits of zero. -/
theorem lowBits_of_zero (n : Nat) : lowBits n 0 = List.replicate n false := by
  rw [lowBits, List.eq_replicate_iff]
  simp

/-- A small number has only zeros above its bits. -/
theorem lowBits_add_of_lt {m v : Nat} (n : Nat) (h : v < 2 ^ m) :
    lowBits (m + n) v = lowBits m v ++ List.replicate n false := by
  rw [lowBits_add, Nat.div_eq_of_lt h, lowBits_of_zero]

/-- Low bits do not see the higher ones. -/
theorem lowBits_mod (m v : Nat) : lowBits m (v % 2 ^ m) = lowBits m v := by
  refine List.map_congr_left fun i hi => ?_
  rw [Nat.testBit_mod_two_pow, decide_eq_true (List.mem_range.mp hi), Bool.true_and]

/-- The bits of a byte string, each byte's least significant bit first. -/
def bitsOfBytes (bytes : List UInt8) : List Bool := bytes.flatMap fun byte => lowBits 8 byte.toNat

/-- **A byte string's bits are those of the number it spells.** -/
theorem bitsOfBytes_eq_lowBits (bytes : List UInt8) :
    bitsOfBytes bytes = lowBits (8 * bytes.length) (natOfBytes bytes) := by
  induction bytes with
  | nil => rfl
  | cons byte bytes ih =>
      have hbyte := byte.toNat_lt
      have hlow : (byte.toNat + 256 * natOfBytes bytes) % 2 ^ 8 = byte.toNat := by omega
      have hhigh : (byte.toNat + 256 * natOfBytes bytes) / 2 ^ 8 = natOfBytes bytes := by omega
      rw [bitsOfBytes, List.flatMap_cons, ← bitsOfBytes, ih, natOfBytes_cons, List.length_cons,
        Nat.mul_succ, Nat.add_comm (8 * bytes.length), lowBits_add, hhigh,
        ← lowBits_mod 8 (byte.toNat + _), hlow]

/-- The bits of two byte strings one behind the other. -/
@[simp] theorem bitsOfBytes_append (bytes more : List UInt8) :
    bitsOfBytes (bytes ++ more) = bitsOfBytes bytes ++ bitsOfBytes more :=
  List.flatMap_append

/-! ## (3) Feeding bits

A bit either is added at the low end and shifted out at once, or is shifted in at the high end. Both
are a shift after which a fixed word is added if the bit is a one. -/

/-- A bit as a word. -/
def word (w : Nat) (bit : Bool) : BitVec w := BitVec.ofNat w bit.toNat

/-- A bit added at the low end and shifted out. -/
def feed (reg : BitVec w) (bit : Bool) : BitVec w := step poly (reg ^^^ word w bit)

/-- A bit shifted in at the high end. -/
def push (reg : BitVec w) (bit : Bool) : BitVec w := step poly reg ^^^ word w bit <<< (w - 1)

/-- Bits fed one after the other. -/
def feedAll (reg : BitVec w) (bits : List Bool) : BitVec w := bits.foldl (feed poly) reg

/-- Bits pushed one after the other. -/
def pushAll (reg : BitVec w) (bits : List Bool) : BitVec w := bits.foldl (push poly) reg

/-- A bit that is not set is the zero word. -/
@[simp] theorem word_false : word w false = 0#w := rfl

/-- The word of a sum is the sum of the words. -/
theorem word_xor (a b : Bool) : word w (a ^^ b) = word w a ^^^ word w b := by
  cases a with
  | false => rw [Bool.false_xor, word_false, BitVec.zero_xor]
  | true =>
      cases b with
      | false => rw [Bool.xor_false, word_false, BitVec.xor_zero]
      | true => rw [Bool.xor_self, word_false, BitVec.xor_self]

/-- Feeding a zero is a step. -/
theorem feed_false (reg : BitVec w) : feed poly reg false = step poly reg := by
  rw [feed, word_false, BitVec.xor_zero]

/-- Pushing a zero is a step. -/
theorem push_false (reg : BitVec w) : push poly reg false = step poly reg := by
  rw [push, word_false, BitVec.zero_shiftLeft, BitVec.xor_zero]

/-- Feeding is linear. -/
theorem feed_xor (r s : BitVec w) (a b : Bool) :
    feed poly (r ^^^ s) (a ^^ b) = feed poly r a ^^^ feed poly s b := by
  rw [feed, word_xor, feed, feed, ← step_xor]
  congr 1
  ac_rfl

/-- Pushing is linear. -/
theorem push_xor (r s : BitVec w) (a b : Bool) :
    push poly (r ^^^ s) (a ^^ b) = push poly r a ^^^ push poly s b := by
  rw [push, push, push, step_xor, word_xor, BitVec.shiftLeft_xor_distrib]
  ac_rfl

section Linear

variable {f : BitVec w → Bool → BitVec w}

/-- **What absorbs one bit linearly absorbs many linearly.** -/
theorem foldl_xor (hf : ∀ r s a b, f (r ^^^ s) (a ^^ b) = f r a ^^^ f s b) {ι : Type*}
    (r s : BitVec w) (indices : List ι) (a b : ι → Bool) :
    (indices.map fun i => a i ^^ b i).foldl f (r ^^^ s) =
      (indices.map a).foldl f r ^^^ (indices.map b).foldl f s := by
  induction indices generalizing r s with
  | nil => rfl
  | cons i indices ih =>
      rw [List.map_cons, List.foldl_cons, hf, ih]
      rfl

/-- Zeros are steps, however they are taken in. -/
theorem foldl_replicate_false (hf : ∀ r, f r false = step poly r) (n : Nat) (r : BitVec w) :
    (List.replicate n false).foldl f r = steps poly n r := by
  induction n generalizing r with
  | zero => rfl
  | succ n ih => rw [List.replicate_succ, List.foldl_cons, hf, ih, steps_succ]

/-- The bits of a sum. -/
theorem foldl_lowBits_xor (hf : ∀ r s a b, f (r ^^^ s) (a ^^ b) = f r a ^^^ f s b) (n u v : Nat)
    (r s : BitVec w) :
    (lowBits n (u ^^^ v)).foldl f (r ^^^ s) =
      (lowBits n u).foldl f r ^^^ (lowBits n v).foldl f s := by
  rw [lowBits, lowBits, lowBits, ← foldl_xor hf]
  congr 1
  exact List.map_congr_left fun i _ => Nat.testBit_xor u v i

end Linear

/-- Bits in two parts are fed one part after the other. -/
@[simp] theorem feedAll_append (reg : BitVec w) (bits more : List Bool) :
    feedAll poly reg (bits ++ more) = feedAll poly (feedAll poly reg bits) more :=
  List.foldl_append

/-- Bits in two parts are pushed one part after the other. -/
@[simp] theorem pushAll_append (reg : BitVec w) (bits more : List Bool) :
    pushAll poly reg (bits ++ more) = pushAll poly (pushAll poly reg bits) more :=
  List.foldl_append

/-- Feeding zeros shifts. -/
theorem feedAll_zeros (n : Nat) (reg : BitVec w) :
    feedAll poly reg (List.replicate n false) = steps poly n reg :=
  foldl_replicate_false poly (feed_false poly) n reg

/-- Pushing zeros shifts. -/
theorem pushAll_zeros (n : Nat) (reg : BitVec w) :
    pushAll poly reg (List.replicate n false) = steps poly n reg :=
  foldl_replicate_false poly (push_false poly) n reg

/-! ## (4) Many bits at a time -/

/-- A number split into its lowest bit and the others. -/
theorem ofNat_eq_word_xor {v : Nat} :
    BitVec.ofNat w v = word w (v.testBit 0) ^^^ BitVec.ofNat w (v / 2) <<< 1 := by
  apply BitVec.eq_of_getLsbD_eq
  intro i hi
  rw [BitVec.getLsbD_xor, BitVec.getLsbD_shiftLeft, BitVec.getLsbD_ofNat, BitVec.getLsbD_ofNat,
    word, BitVec.getLsbD_ofNat, decide_eq_true hi]
  -- bit 0 is the word's, every other bit is that of the half, moved up
  cases i with
  | zero => cases v.testBit 0 <;> rfl
  | succ i =>
      have hword : (v.testBit 0).toNat.testBit (i + 1) = false := by
        rw [Nat.testBit_succ]
        cases v.testBit 0 <;> exact Nat.zero_testBit i
      have hlow : i < w := by omega
      rw [hword, Nat.testBit_succ]
      simp [hlow]

/-- **Bits fed one by one or as one word**: adding a number to the register and shifting it out is
feeding its bits. -/
theorem steps_xor_ofNat {n v : Nat} (hn : n ≤ w) (hv : v < 2 ^ n) (reg : BitVec w) :
    steps poly n (reg ^^^ BitVec.ofNat w v) = feedAll poly reg (lowBits n v) := by
  -- bit by bit, the lowest one first
  induction n generalizing v reg with
  | zero =>
      have hzero : v = 0 := by simpa using hv
      rw [hzero, BitVec.xor_zero]
      rfl
  | succ n ih =>
      have hhalf : v / 2 < 2 ^ n := by
        rw [pow_succ] at hv
        omega
      have hpow : 2 ^ n < 2 ^ w := Nat.pow_lt_pow_right (by decide) hn
      -- what is left after the lowest bit does not reach the highest degree yet
      have hlow : (BitVec.ofNat w (v / 2)).msb = false := by
        rw [BitVec.msb_eq_false_iff_two_mul_lt, BitVec.toNat_ofNat]
        have hle : 2 ^ (n + 1) ≤ 2 ^ w := Nat.pow_le_pow_right (by decide) hn
        rw [pow_succ] at hle
        rw [Nat.mod_eq_of_lt (by omega)]
        omega
      rw [steps_succ, ofNat_eq_word_xor, ← BitVec.xor_assoc, step_xor, step_shiftLeft poly hlow,
        ih (by omega) hhalf, lowBits_succ]
      rfl

/-- **As many bits as the register has are never confused.** -/
theorem feedAll_lowBits_injective (hpoly : poly.msb = true) {n u v : Nat} (hn : n ≤ w)
    (hu : u < 2 ^ n) (hv : v < 2 ^ n) (reg : BitVec w)
    (h : feedAll poly reg (lowBits n u) = feedAll poly reg (lowBits n v)) : u = v := by
  rw [← steps_xor_ofNat poly hn hu, ← steps_xor_ofNat poly hn hv] at h
  have hword := (BitVec.xor_right_inj reg).mp (steps_injective poly hpoly n h)
  have hpow : 2 ^ n ≤ 2 ^ w := Nat.pow_le_pow_right (by decide) hn
  have hnum := congrArg BitVec.toNat hword
  rwa [BitVec.toNat_ofNat, BitVec.toNat_ofNat, Nat.mod_eq_of_lt (by omega),
    Nat.mod_eq_of_lt (by omega)] at hnum

/-- **Registers that differ still differ after the same bits.** -/
theorem feedAll_injective (hpoly : poly.msb = true) (bits : List Bool) :
    Function.Injective fun reg => feedAll poly reg bits := by
  induction bits with
  | nil => exact fun _ _ h => h
  | cons bit bits ih =>
      intro a b hab
      have hstep := step_injective poly hpoly (ih hab)
      exact (BitVec.xor_left_inj _).mp hstep

/-- The word of a bit has no other bits. -/
theorem getLsbD_word {bit : Bool} {i : Nat} (hi : 0 < i) : (word w bit).getLsbD i = false := by
  rw [word, BitVec.getLsbD_ofNat, Nat.testBit_lt_two_pow, Bool.and_false]
  have hbit := bit.toNat_le
  have hpow : 2 ^ 1 ≤ 2 ^ i := Nat.pow_le_pow_right (by decide) hi
  omega

/-- A bit shifted in at the high end is fed `w` shifts later. -/
theorem steps_word_high (bit : Bool) :
    steps poly w (word w bit <<< (w - 1)) = step poly (word w bit) := by
  cases w with
  | zero => exact Subsingleton.elim _ _
  | succ n =>
      have hbit := bit.toNat_le
      have hlow : (word (n + 1) bit).toNat < 2 ^ (n + 1 - n) := by
        rw [word, BitVec.toNat_ofNat, Nat.add_sub_cancel_left]
        exact (Nat.mod_le _ _).trans_lt (by omega)
      rw [steps_succ', Nat.add_sub_cancel, steps_shiftLeft poly n.le_succ hlow]

/-- **Bits pushed in at the high end count `w` shifts later.** -/
theorem steps_pushAll (reg : BitVec w) (bits : List Bool) :
    steps poly w (pushAll poly reg bits) = feedAll poly (steps poly w reg) bits := by
  induction bits generalizing reg with
  | nil => rfl
  | cons bit bits ih =>
      have hpush : steps poly w (push poly reg bit) = feed poly (steps poly w reg) bit := by
        rw [push, steps_xor, steps_word_high, ← steps_succ, steps_succ', ← step_xor, feed]
      rw [pushAll, List.foldl_cons, ← pushAll, ih, hpush]
      rfl

/-- A word pushed into an empty register is in it. -/
theorem pushAll_lowBits (hpoly : poly.msb = true) {c : Nat} (hc : c < 2 ^ w) :
    pushAll poly 0#w (lowBits w c) = BitVec.ofNat w c := by
  apply steps_injective poly hpoly w
  have h := steps_xor_ofNat poly le_rfl hc 0#w
  rw [BitVec.zero_xor] at h
  rw [h, steps_pushAll]
  congr 1
  exact steps_of_zero poly w

/-- **The division of a register and new bits**: pushing their sum, and as many zeros as the register
has bits, into an empty register is feeding the new bits to that register. -/
theorem pushAll_lowBits_xor (hpoly : poly.msb = true) {n v : Nat} (hv : v < 2 ^ n)
    (reg : BitVec w) :
    pushAll poly 0#w (lowBits (n + w) (v ^^^ reg.toNat)) = feedAll poly reg (lowBits n v) := by
  -- the register is pushed as it is and then shifted `n` times
  have hreg : pushAll poly 0#w (lowBits (n + w) reg.toNat) = steps poly n reg := by
    rw [Nat.add_comm, lowBits_add_of_lt n reg.isLt, pushAll_append,
      pushAll_lowBits poly hpoly reg.isLt, BitVec.ofNat_toNat, BitVec.setWidth_eq, pushAll_zeros]
  have hnew : pushAll poly 0#w (lowBits (n + w) v) = feedAll poly 0#w (lowBits n v) := by
    rw [lowBits_add_of_lt w hv, pushAll_append, pushAll_zeros, steps_pushAll]
    congr 1
    exact steps_of_zero poly w
  have hpush := foldl_lowBits_xor (push_xor poly) (n + w) v reg.toNat 0#w 0#w
  have hfeed := foldl_lowBits_xor (feed_xor poly) n v 0 0#w reg
  rw [BitVec.xor_zero, ← pushAll, ← pushAll, ← pushAll, hreg, hnew] at hpush
  rw [BitVec.zero_xor, Nat.xor_zero, lowBits_of_zero, ← feedAll, ← feedAll, ← feedAll,
    feedAll_zeros] at hfeed
  rw [hpush, hfeed]

/-! ## (5) Remainders of polynomials over two elements

A word is the polynomial whose coefficients are its bits. The divisor has degree `w`; its leading
coefficient is understood and `poly` holds the others. -/

section Remainder

variable {n : Nat}

/-- The coefficients of a word, from the highest degree on. -/
def coefficients (x : BitVec n) : List Bool := (List.range n).map x.getMsbD

/-- A step of long division: the next coefficient is brought down, and the divisor is subtracted if
the remainder has reached its degree. -/
def bringDown (reg : BitVec w) (bit : Bool) : BitVec w :=
  if reg.msb then reg <<< 1 ^^^ word w bit ^^^ poly else reg <<< 1 ^^^ word w bit

/-- The remainder of a division of polynomials. -/
def mod2 (x : BitVec n) : BitVec w := (coefficients x).foldl (bringDown poly) 0#w

/-- The coefficients of a word are the bits of its reverse. -/
theorem coefficients_eq_lowBits (x : BitVec n) : coefficients x = lowBits n x.reverse.toNat :=
  List.map_congr_left fun _ _ => BitVec.getLsbD_reverse.symm

/-- Reversing is linear. -/
theorem reverse_xor (a b : BitVec w) : (a ^^^ b).reverse = a.reverse ^^^ b.reverse := by
  apply BitVec.eq_of_getLsbD_eq
  intro i hi
  rw [BitVec.getLsbD_xor, BitVec.getLsbD_reverse, BitVec.getLsbD_reverse, BitVec.getLsbD_reverse,
    BitVec.getMsbD_xor]

/-- Reversing turns a shift around. -/
theorem reverse_shiftLeft (a : BitVec w) : (a <<< 1).reverse = a.reverse >>> 1 := by
  apply BitVec.eq_of_getLsbD_eq
  intro i hi
  rw [BitVec.getLsbD_reverse, BitVec.getLsbD_ushiftRight, BitVec.getLsbD_reverse,
    BitVec.getMsbD_shiftLeft, Nat.add_comm]

/-- The word of a bit, reversed, has it at the other end. -/
theorem reverse_word (bit : Bool) : (word w bit).reverse = word w bit <<< (w - 1) := by
  apply BitVec.eq_of_getLsbD_eq
  intro i hi
  rw [BitVec.getLsbD_reverse, BitVec.getLsbD_shiftLeft, BitVec.getMsbD_eq_getLsbD]
  by_cases hlast : i = w - 1
  · simp [hlast]
  · have hlow : i < w - 1 := by omega
    rw [getLsbD_word (by omega)]
    simp [hlow]

/-- A reflected word moved to the high end. -/
theorem reverse_setWidth_shiftLeft {m k : Nat} (hk : m + k = n) (x : BitVec m) :
    ((x.reverse.setWidth n) <<< k).reverse = x.setWidth n := by
  apply BitVec.eq_of_getLsbD_eq
  intro i hi
  rw [BitVec.getLsbD_reverse, BitVec.getMsbD_shiftLeft, BitVec.getMsbD_eq_getLsbD,
    BitVec.getLsbD_setWidth, BitVec.getLsbD_setWidth, BitVec.getLsbD_reverse,
    BitVec.getMsbD_eq_getLsbD]
  -- the low `m` bits survive both reversals, the others are zero on both sides
  by_cases hlow : i < m
  · have hback : m - 1 - (n - 1 - (i + k)) = i := by omega
    rw [hback]
    have h1 : i + k < n := by omega
    have h2 : n - 1 - (i + k) < m := by omega
    have h3 : n - 1 - (i + k) < n := by omega
    simp [h1, h2, h3, hi]
  · have hhigh : ¬ i + k < n := by omega
    rw [BitVec.getLsbD_of_ge x i (by omega)]
    simp [hhigh]

/-- Long division read from the other end. -/
theorem reverse_bringDown (reg : BitVec w) (bit : Bool) :
    (bringDown poly reg bit).reverse = push poly.reverse reg.reverse bit := by
  have hlow : reg.reverse.getLsbD 0 = reg.msb := by
    rw [BitVec.getLsbD_reverse, BitVec.msb]
  unfold bringDown push step
  rw [hlow]
  cases reg.msb with
  | false =>
      rw [if_neg Bool.false_ne_true, if_neg Bool.false_ne_true, reverse_xor, reverse_shiftLeft,
        reverse_word]
  | true =>
      rw [if_pos rfl, if_pos rfl, reverse_xor, reverse_xor, reverse_shiftLeft, reverse_word]
      ac_rfl

/-- **The remainder is the reflected register** after the coefficients have been pushed in. -/
theorem reverse_mod2 (x : BitVec n) :
    (mod2 poly x).reverse = pushAll poly.reverse 0#w (lowBits n x.reverse.toNat) := by
  have hfold : ∀ (bits : List Bool) (reg : BitVec w),
      (bits.foldl (bringDown poly) reg).reverse = pushAll poly.reverse reg.reverse bits := by
    intro bits
    induction bits with
    | nil => exact fun _ => rfl
    | cons bit bits ih =>
        intro reg
        rw [List.foldl_cons, ih, reverse_bringDown]
        rfl
  rw [mod2, hfold, coefficients_eq_lowBits]
  congr 1
  exact BitVec.reverse_eq_zero_iff.mpr rfl

end Remainder

end ReflectedCrc
