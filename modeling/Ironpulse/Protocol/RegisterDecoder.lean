import Ironpulse.Core.Config
import Mathlib.Data.List.Perm.Basic

/-! # Planning register reads and decoding their answers

`src/protocol/register_decoder.cpp`: the sensors of a device are grouped into blocks of neighbouring
registers, each read with one request, and a sensor's value is cut out of its block's answer.

* **`plan_reads`**: the blocks, for each register table a sweep over the sensors by address.
* **`decode_raw`**: one or two registers as a number.
* **`extract_value`**: a sensor's engineering value from its block's answer. -/

namespace Ironpulse.Protocol

open Core (RegisterType DataType WordOrder SensorConfig register_count Double)

/-! ## (1) Planning -/

/-- One read request that covers one or more sensors. -/
structure ReadBlock where
  register_type : RegisterType := .holding
  start_address : UInt16 := 0
  quantity : UInt16 := 0
  /-- Indices into the device's sensor list. -/
  sensor_indices : List Nat := []
  deriving DecidableEq

/-- `std::sort` by a key: the elements in the order of their keys. Elements with equal keys may end
up in any order. -/
structure StdSort where
  sort : (Nat → Nat) → List Nat → List Nat
  perm : ∀ key l, (sort key l).Perm l
  sorted : ∀ key l, (sort key l).Pairwise fun a b => key a ≤ key b

/-- A sort that keeps equal keys in their order. -/
def StdSort.stable : StdSort where
  sort key l := l.mergeSort fun a b => decide (key a ≤ key b)
  perm _ l := List.mergeSort_perm l _
  sorted key l := by
    have h := @List.pairwise_mergeSort Nat (fun a b => decide (key a ≤ key b))
      (fun a b c hab hbc => by
        rw [decide_eq_true_iff] at hab hbc ⊢
        exact Nat.le_trans hab hbc)
      (fun a b => by
        rw [Bool.or_eq_true, decide_eq_true_iff, decide_eq_true_iff]
        exact le_total _ _) l
    exact h.imp fun hab => of_decide_eq_true hab

/-- `sensors[index]`, for an index in range. -/
def sensor_at (sensors : List SensorConfig) (index : Nat) : SensorConfig := sensors.getD index {}

/-- The unused registers between the end of a block and the next sensor's first one. -/
def gap_after (block_end first : Nat) : Nat :=
  if first > block_end then first - block_end else 0

/-- One sensor of the sweep: it joins the open block, or closes it and opens its own. -/
def plan_step (sensors : List SensorConfig) (max_quantity max_gap : UInt16) (type : RegisterType)
    (state : List ReadBlock × Option ReadBlock) (index : Nat) :
    List ReadBlock × Option ReadBlock :=
  let sensor := sensor_at sensors index
  let first := sensor.address.toNat
  let stop := first + (register_count sensor.data_type).toNat
  let fresh : ReadBlock := ⟨type, sensor.address, UInt16.ofNat (stop - first), [index]⟩
  match state.2 with
  | none => (state.1, some fresh)
  | some current =>
      let start := current.start_address.toNat
      let block_end := start + current.quantity.toNat
      let gap := gap_after block_end first
      let merged_end := max block_end stop
      if gap ≤ max_gap.toNat ∧ merged_end - start ≤ max_quantity.toNat then
        (state.1, some { current with
          quantity := UInt16.ofNat (merged_end - start)
          sensor_indices := current.sensor_indices ++ [index] })
      else (state.1 ++ [current], some fresh)

/-- The sweep over the sensors of one register table. -/
def plan_type (sensors : List SensorConfig) (max_quantity max_gap : UInt16) (type : RegisterType)
    (order : List Nat) : List ReadBlock :=
  let state := order.foldl (plan_step sensors max_quantity max_gap type) ([], none)
  state.1 ++ state.2.toList

/-- The sensors of one register table. -/
def indices_of_type (sensors : List SensorConfig) (type : RegisterType) : List Nat :=
  (List.range sensors.length).filter fun i => (sensor_at sensors i).register_type = type

/-- `plan_reads`: first the holding registers, then the input registers. -/
def plan_reads (S : StdSort) (sensors : List SensorConfig) (max_quantity : UInt16 := 125)
    (max_gap : UInt16 := 8) : List ReadBlock :=
  [RegisterType.holding, .input].flatMap fun type =>
    plan_type sensors max_quantity max_gap type
      (S.sort (fun i => (sensor_at sensors i).address.toNat) (indices_of_type sensors type))

/-! ## (2) Decoding -/

/-- `std::bit_cast<float>` of 32 bits, exactly. -/
def float_of_bits (bits : UInt32) : Double :=
  let exponent := ((bits >>> 23) &&& 0xFF).toNat
  let mantissa := (bits &&& 0x7FFFFF).toNat
  let negative := decide (bits &&& 0x80000000 ≠ 0)
  let sign : Rat := if negative then -1 else 1
  if exponent = 255 then if mantissa = 0 then .infinite negative else .nan
  else if exponent = 0 then .finite (sign * mantissa / 2 ^ 149)
  else .finite (sign * ((2 ^ 23 + mantissa) * 2 ^ exponent) / 2 ^ 150)

/-- One or two registers as the given type. All these numbers are doubles, so nothing is rounded.
The callers pass as many registers as the type takes. -/
def decode_raw (registers : List UInt16) (type : DataType) (order : WordOrder) : Double :=
  let first := registers.getD 0 0
  let second := registers.getD 1 0
  let high := if order = .big then first else second
  let low := if order = .big then second else first
  let bits : UInt32 := (high.toUInt32 <<< 16) ||| low.toUInt32
  match type with
  | .uint16 => .finite (first.toNat : Int)
  | .int16 => .finite first.toInt16.toInt
  | .uint32 => .finite (bits.toNat : Int)
  | .int32 => .finite bits.toInt32.toInt
  | .float32 => float_of_bits bits

/-- `std::isfinite`. -/
def isfinite : Double → Bool
  | .finite _ => true
  | _ => false

/-- `raw * scale + offset` in the arithmetic of `double`, which rounds. -/
abbrev Scaling := Double → Rat → Rat → Double

/-- A raw value as an engineering value, none if that is not a finite number. -/
def engineering_value (scaling : Scaling) (raw : Double) (sensor : SensorConfig) : Option Double :=
  let value := scaling raw sensor.scale sensor.offset
  if isfinite value then some value else none

/-- `extract_value`: the sensor's registers within the block, decoded and scaled. -/
def extract_value (scaling : Scaling) (block : ReadBlock) (registers : List UInt16)
    (sensor : SensorConfig) : Option Double :=
  let offset := sensor.address.toNat - block.start_address.toNat
  let count := (register_count sensor.data_type).toNat
  if sensor.address < block.start_address ∨ offset + count > registers.length then none
  else
    engineering_value scaling
      (decode_raw ((registers.drop offset).take count) sensor.data_type sensor.word_order) sensor

/-- 1.0 as two registers, high word first or last. -/
example : decode_raw [0x3F80, 0] .float32 .big = .finite 1 ∧
    decode_raw [0, 0x3F80] .float32 .little = .finite 1 := by decide +kernel

end Ironpulse.Protocol
