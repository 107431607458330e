import Ironpulse.Protocol.RegisterDecoder

/-! # Batched polling reads what single reads would

The sweep of `plan_type` keeps, for the blocks that it closed and the open one, that every block
covers the registers of its sensors, and that the sensors come out in the order in which they went
in.

* **`Covers`**: a block that can be read and contains its sensors' registers.
* **`SweepInv`**: the sweep's invariant, with `sweepInv_step` and `sweepInv_foldl`.
* **`batched_eq_single`**: the values cut out of the blocks are those of single reads. -/

namespace Ironpulse.Protocol

open Core (RegisterType DataType WordOrder SensorConfig register_count Double)

/-! ## (1) The sweep -/

/-- The first register of a sensor. -/
def firstRegister (sensors : List SensorConfig) (i : Nat) : Nat :=
  (sensor_at sensors i).address.toNat

/-- The number of registers of a sensor. -/
def registerCount (sensors : List SensorConfig) (i : Nat) : Nat :=
  (register_count (sensor_at sensors i).data_type).toNat

/-- The block can be read with one request, of at most `bound` registers of its table, and contains
the registers of all its sensors. -/
structure Covers (sensors : List SensorConfig) (bound : Nat) (block : ReadBlock) : Prop where
  nonempty : 1 ≤ block.quantity.toNat
  bounded : block.quantity.toNat ≤ bound
  in_table : block.start_address.toNat + block.quantity.toNat ≤ 65536
  sensors : ∀ i ∈ block.sensor_indices, (sensor_at sensors i).register_type = block.register_type ∧
    block.start_address.toNat ≤ firstRegister sensors i ∧
    firstRegister sensors i + registerCount sensors i ≤
      block.start_address.toNat + block.quantity.toNat

/-- After the sensors `done`, before the sensors `rest`. -/
structure SweepInv (sensors : List SensorConfig) (bound : Nat) (done rest : List Nat)
    (state : List ReadBlock × Option ReadBlock) : Prop where
  indices : state.1.flatMap ReadBlock.sensor_indices ++
    state.2.toList.flatMap ReadBlock.sensor_indices = done
  covers : ∀ block ∈ state.1 ++ state.2.toList, Covers sensors bound block
  ahead : ∀ block ∈ state.2, ∀ j ∈ rest, block.start_address.toNat ≤ firstRegister sensors j

section Sweep

variable {sensors : List SensorConfig} {max_quantity max_gap : UInt16} {type : RegisterType}
  {bound : Nat} {done rest : List Nat} {state : List ReadBlock × Option ReadBlock} {index : Nat}

/-- A sensor has one or two registers. -/
theorem registerCount_bounds (sensors : List SensorConfig) (i : Nat) :
    1 ≤ registerCount sensors i ∧ registerCount sensors i ≤ 2 := by
  unfold registerCount
  cases (sensor_at sensors i).data_type <;> decide

/-- A register address fits 16 bits. -/
theorem toNat_ofNat_of_le {n : Nat} (h : n ≤ 65535) : (UInt16.ofNat n).toNat = n :=
  UInt16.toNat_ofNat_of_lt' (show n < 65536 by omega)

/-- The block that a sensor opens. -/
def freshBlock (sensors : List SensorConfig) (type : RegisterType) (index : Nat) : ReadBlock :=
  ⟨type, (sensor_at sensors index).address, UInt16.ofNat (registerCount sensors index), [index]⟩

/-- A block that has just been opened covers its sensor within the bound. -/
theorem covers_fresh (hbound : 2 ≤ bound) (htype : (sensor_at sensors index).register_type = type)
    (hfits : firstRegister sensors index + registerCount sensors index ≤ 65536) :
    Covers sensors bound (freshBlock sensors type index) := by
  obtain ⟨hpos, hle⟩ := registerCount_bounds sensors index
  have hquantity : (freshBlock sensors type index).quantity.toNat = registerCount sensors index :=
    toNat_ofNat_of_le (by omega)
  constructor
  · omega
  · omega
  · rw [hquantity]
    exact hfits
  · intro i hi
    rw [List.mem_singleton.mp hi, hquantity]
    exact ⟨htype, le_rfl, le_rfl⟩

/-- A block that takes in one more sensor. -/
def mergedBlock (sensors : List SensorConfig) (current : ReadBlock) (index : Nat) : ReadBlock :=
  { current with
    quantity := UInt16.ofNat (max (current.start_address.toNat + current.quantity.toNat)
      (firstRegister sensors index + registerCount sensors index) - current.start_address.toNat)
    sensor_indices := current.sensor_indices ++ [index] }

/-- A block that a sensor joins covers it too. -/
theorem covers_merged {current : ReadBlock} (hcurrent : Covers sensors bound current)
    (htype : (sensor_at sensors index).register_type = current.register_type)
    (hfits : firstRegister sensors index + registerCount sensors index ≤ 65536)
    (hahead : current.start_address.toNat ≤ firstRegister sensors index)
    (hbound : bound ≤ 65535)
    (hquantity : max (current.start_address.toNat + current.quantity.toNat)
      (firstRegister sensors index + registerCount sensors index) -
        current.start_address.toNat ≤ bound) :
    Covers sensors bound (mergedBlock sensors current index) := by
  have htable := hcurrent.in_table
  have hpos := hcurrent.nonempty
  -- the merged quantity fits 16 bits
  have hmerged : (mergedBlock sensors current index).quantity.toNat =
      max (current.start_address.toNat + current.quantity.toNat)
        (firstRegister sensors index + registerCount sensors index) -
          current.start_address.toNat := toNat_ofNat_of_le (by omega)
  have hstart : (mergedBlock sensors current index).start_address = current.start_address := rfl
  constructor
  · omega
  · omega
  · rw [hmerged, hstart]
    omega
  · intro i hi
    rw [hmerged, hstart]
    -- the old sensors lie before the new end, and so does the new one
    rcases List.mem_append.mp hi with hold | hnew
    · obtain ⟨htype', hle, hend⟩ := hcurrent.sensors i hold
      exact ⟨htype', hle, by omega⟩
    · rw [List.mem_singleton.mp hnew]
      exact ⟨htype, hahead, by omega⟩

/-- The condition of the sweep: the gap to the open block is small, and the block with the sensor is
not too long. -/
def Joins (sensors : List SensorConfig) (max_quantity max_gap : UInt16) (current : ReadBlock)
    (index : Nat) : Prop :=
  gap_after (current.start_address.toNat + current.quantity.toNat) (firstRegister sensors index) ≤
      max_gap.toNat ∧
    max (current.start_address.toNat + current.quantity.toNat)
      (firstRegister sensors index + registerCount sensors index) -
        current.start_address.toNat ≤ max_quantity.toNat

/-- What one sensor does to the sweep. -/
theorem plan_step_cases (state : List ReadBlock × Option ReadBlock) (index : Nat) :
    (state.2 = none ∧ plan_step sensors max_quantity max_gap type state index =
        (state.1, some (freshBlock sensors type index))) ∨
      ∃ current, state.2 = some current ∧
        ((Joins sensors max_quantity max_gap current index ∧
          plan_step sensors max_quantity max_gap type state index =
            (state.1, some (mergedBlock sensors current index))) ∨
        (¬ Joins sensors max_quantity max_gap current index ∧
          plan_step sensors max_quantity max_gap type state index =
            (state.1 ++ [current], some (freshBlock sensors type index)))) := by
  -- the code subtracts the start again to get the quantity
  have hfresh : (⟨type, (sensor_at sensors index).address,
      UInt16.ofNat (firstRegister sensors index + registerCount sensors index -
        firstRegister sensors index), [index]⟩ : ReadBlock) = freshBlock sensors type index := by
    rw [freshBlock, Nat.add_sub_cancel_left]
  obtain ⟨blocks, open_⟩ := state
  cases open_ with
  -- without an open block the sensor opens one
  | none =>
      left
      rw [← hfresh]
      exact ⟨rfl, rfl⟩
  | some current =>
      refine .inr ⟨current, rfl, ?_⟩
      rw [← hfresh]
      unfold plan_step
      dsimp only
      split
      · rename_i hjoin
        exact .inl ⟨hjoin, rfl⟩
      · rename_i hjoin
        exact .inr ⟨hjoin, rfl⟩

/-- Every open block is of the table that is swept. -/
def OpenType (type : RegisterType) (state : List ReadBlock × Option ReadBlock) : Prop :=
  ∀ block ∈ state.2, block.register_type = type

/-- **One sensor keeps the sweep's invariant.** -/
theorem sweepInv_step (hbound : 2 ≤ bound) (hmax : max_quantity.toNat ≤ bound)
    (hbound' : bound ≤ 65535) (htype : (sensor_at sensors index).register_type = type)
    (hfits : firstRegister sensors index + registerCount sensors index ≤ 65536)
    (hsorted : ∀ j ∈ rest, firstRegister sensors index ≤ firstRegister sensors j)
    (hopen : OpenType type state) (h : SweepInv sensors bound done (index :: rest) state) :
    SweepInv sensors bound (done ++ [index]) rest
        (plan_step sensors max_quantity max_gap type state index) ∧
      OpenType type (plan_step sensors max_quantity max_gap type state index) := by
  have hindices := h.indices
  have hcovers := h.covers
  rcases @plan_step_cases sensors max_quantity max_gap type state index with
    ⟨hnone, hstep⟩ | ⟨current, hsome, ⟨hjoins, hstep⟩ | ⟨-, hstep⟩⟩
  · -- the first sensor of the table
    rw [hstep]
    rw [hnone] at hindices hcovers
    refine ⟨⟨?_, ?_, ?_⟩, ?_⟩
    · rw [← hindices]
      simp [freshBlock]
    · intro block hblock
      rcases List.mem_append.mp hblock with hold | hnew
      · exact hcovers block (List.mem_append_left _ hold)
      · rw [List.mem_singleton.mp hnew]
        exact covers_fresh hbound htype hfits
    · rintro block ⟨⟩ j hj
      exact hsorted j hj
    · rintro block ⟨⟩
      rfl
  · -- the sensor joins the open block
    rw [hstep]
    rw [hsome] at hindices hcovers
    have hcurrent := hcovers current (List.mem_append_right _ (List.mem_singleton_self _))
    have hahead := h.ahead current hsome
    refine ⟨⟨?_, ?_, ?_⟩, ?_⟩
    · rw [← hindices]
      simp [mergedBlock]
    · intro block hblock
      rcases List.mem_append.mp hblock with hold | hnew
      · exact hcovers block (List.mem_append_left _ hold)
      · rw [List.mem_singleton.mp hnew]
        exact covers_merged hcurrent (htype.trans (hopen current hsome).symm) hfits
          (hahead index List.mem_cons_self) hbound' (Nat.le_trans hjoins.2 hmax)
    · rintro block ⟨⟩ j hj
      exact hahead j (List.mem_cons_of_mem _ hj)
    · rintro block ⟨⟩
      exact hopen current hsome
  · -- the open block is closed
    rw [hstep]
    rw [hsome] at hindices hcovers
    refine ⟨⟨?_, ?_, ?_⟩, ?_⟩
    · rw [← hindices]
      simp [freshBlock]
    · intro block hblock
      rcases List.mem_append.mp hblock with hold | hnew
      · exact hcovers block hold
      · rw [List.mem_singleton.mp hnew]
        exact covers_fresh hbound htype hfits
    · rintro block ⟨⟩ j hj
      exact hsorted j hj
    · rintro block ⟨⟩
      rfl

/-- **The whole sweep keeps it**, over sensors of one table in the order of their addresses. -/
theorem sweepInv_foldl (hbound : 2 ≤ bound) (hmax : max_quantity.toNat ≤ bound)
    (hbound' : bound ≤ 65535)
    (htype : ∀ i ∈ rest, (sensor_at sensors i).register_type = type)
    (hfits : ∀ i ∈ rest, firstRegister sensors i + registerCount sensors i ≤ 65536)
    (hsorted : rest.Pairwise fun i j => firstRegister sensors i ≤ firstRegister sensors j)
    (hopen : OpenType type state) (h : SweepInv sensors bound done rest state) :
    SweepInv sensors bound (done ++ rest) []
      (rest.foldl (plan_step sensors max_quantity max_gap type) state) := by
  induction rest generalizing done state with
  | nil => rwa [List.append_nil]
  | cons index rest ih =>
      obtain ⟨htype', htypes⟩ := List.forall_mem_cons.mp htype
      obtain ⟨hfits', hfits⟩ := List.forall_mem_cons.mp hfits
      obtain ⟨hsorted', hsorted⟩ := List.pairwise_cons.mp hsorted
      obtain ⟨hstep, hopen'⟩ : SweepInv sensors bound (done ++ [index]) rest
          (plan_step sensors max_quantity max_gap type state index) ∧ _ :=
        sweepInv_step hbound hmax hbound' htype' hfits' hsorted' hopen h
      rw [List.append_cons]
      exact ih htypes hfits hsorted hopen' hstep

/-- The blocks of one table cover their sensors and hold every sensor of the table once. -/
theorem plan_type_spec (hbound : 2 ≤ bound) (hmax : max_quantity.toNat ≤ bound)
    (hbound' : bound ≤ 65535) {order : List Nat}
    (htype : ∀ i ∈ order, (sensor_at sensors i).register_type = type)
    (hfits : ∀ i ∈ order, firstRegister sensors i + registerCount sensors i ≤ 65536)
    (hsorted : order.Pairwise fun i j => firstRegister sensors i ≤ firstRegister sensors j) :
    (plan_type sensors max_quantity max_gap type order).flatMap ReadBlock.sensor_indices = order ∧
      ∀ block ∈ plan_type sensors max_quantity max_gap type order, Covers sensors bound block := by
  -- before the loop nothing is covered and no block is open
  have hstart : SweepInv sensors bound [] order ([], none) :=
    ⟨rfl, fun _ hblock => absurd hblock List.not_mem_nil,
      fun _ hblock => absurd hblock (Option.not_mem_none _)⟩
  have hend : SweepInv sensors bound ([] ++ order) []
      (order.foldl (plan_step sensors max_quantity max_gap type) ([], none)) :=
    sweepInv_foldl hbound hmax hbound' htype hfits hsorted
      (fun _ hblock => absurd hblock (Option.not_mem_none _)) hstart
  refine ⟨?_, hend.covers⟩
  rw [plan_type, List.flatMap_append]
  exact hend.indices

end Sweep

/-! ## (2) The plan -/

section Plan

variable {S : StdSort} {sensors : List SensorConfig}

/-- The sensors of a type. -/
theorem mem_indices_of_type {type : RegisterType} {i : Nat} :
    i ∈ indices_of_type sensors type ↔
      i < sensors.length ∧ (sensor_at sensors i).register_type = type := by
  rw [indices_of_type, List.mem_filter, List.mem_range, decide_eq_true_iff]

/-- The sensors of the two tables are all sensors. -/
theorem indices_perm : (indices_of_type sensors .holding ++ indices_of_type sensors .input).Perm
    (List.range sensors.length) := by
  have hcompl : indices_of_type sensors .input = (List.range sensors.length).filter
      (fun i => !decide ((sensor_at sensors i).register_type = .holding)) := by
    refine List.filter_congr fun i _ => ?_
    cases (sensor_at sensors i).register_type <;> rfl
  rw [hcompl, indices_of_type]
  exact List.filter_append_perm _ _

/-- Every sensor lies in its table, as the configuration's parser checks. -/
def InTable (sensors : List SensorConfig) : Prop :=
  ∀ sensor ∈ sensors, sensor.address.toNat + (register_count sensor.data_type).toNat ≤ 65536

instance (sensors : List SensorConfig) : Decidable (InTable sensors) :=
  inferInstanceAs (Decidable (∀ sensor ∈ sensors,
    sensor.address.toNat + (register_count sensor.data_type).toNat ≤ 65536))

/-- The registers of a sensor lie inside the table. -/
theorem InTable.fits (h : InTable sensors) {i : Nat} (hi : i < sensors.length) :
    firstRegister sensors i + registerCount sensors i ≤ 65536 := by
  have hget : sensor_at sensors i = sensors[i] := by
    rw [sensor_at, List.getD_eq_getElem?_getD, List.getElem?_eq_getElem hi, Option.getD_some]
  rw [firstRegister, registerCount, hget]
  exact h _ (List.getElem_mem hi)

/-- **The plan's blocks cover their sensors, and every sensor is in exactly one place.** -/
theorem plan_reads_spec {max_quantity max_gap : UInt16} {bound : Nat} (hbound : 2 ≤ bound)
    (hmax : max_quantity.toNat ≤ bound) (hbound' : bound ≤ 65535) (h : InTable sensors) :
    ((plan_reads S sensors max_quantity max_gap).flatMap ReadBlock.sensor_indices).Perm
        (List.range sensors.length) ∧
      ∀ block ∈ plan_reads S sensors max_quantity max_gap, Covers sensors bound block := by
  have hspec : ∀ type : RegisterType, _ := fun type =>
    @plan_type_spec sensors max_quantity max_gap type bound hbound hmax hbound'
      (S.sort (firstRegister sensors) (indices_of_type sensors type))
      (fun i hi => (mem_indices_of_type.mp ((S.perm _ _).mem_iff.mp hi)).2)
      (fun i hi => h.fits (mem_indices_of_type.mp ((S.perm _ _).mem_iff.mp hi)).1)
      (S.sorted _ _)
  -- first the holding registers, then the input registers
  have hplan : plan_reads S sensors max_quantity max_gap =
      plan_type sensors max_quantity max_gap .holding
          (S.sort (firstRegister sensors) (indices_of_type sensors .holding)) ++
        plan_type sensors max_quantity max_gap .input
          (S.sort (firstRegister sensors) (indices_of_type sensors .input)) := by
    rw [plan_reads, List.flatMap_cons, List.flatMap_cons, List.flatMap_nil, List.append_nil]
    rfl
  rw [hplan]
  constructor
  · rw [List.flatMap_append, (hspec .holding).1, (hspec .input).1]
    exact ((S.perm _ _).append (S.perm _ _)).trans indices_perm
  · intro block hblock
    rcases List.mem_append.mp hblock with hholding | hinput
    · exact (hspec .holding).2 block hholding
    · exact (hspec .input).2 block hinput

end Plan

/-! ## (3) Values -/

/-- The content of a device's register tables. -/
abbrev RegisterTables := RegisterType → UInt16 → UInt16

/-- `count` registers of a table from `first` on. -/
def read_table (tables : RegisterTables) (type : RegisterType) (first count : Nat) : List UInt16 :=
  (List.range count).map fun k => tables type (UInt16.ofNat (first + k))

/-- The device's answer to a block's request. -/
def read_block (tables : RegisterTables) (block : ReadBlock) : List UInt16 :=
  read_table tables block.register_type block.start_address.toNat block.quantity.toNat

/-- A sensor read on its own. -/
def single_value (scaling : Scaling) (tables : RegisterTables) (sensor : SensorConfig) :
    Option Double :=
  engineering_value scaling
    (decode_raw (read_table tables sensor.register_type sensor.address.toNat
      (register_count sensor.data_type).toNat) sensor.data_type sensor.word_order) sensor

/-- The values of a polling cycle: each block is read, and each of its sensors is cut out. -/
def batched_values (scaling : Scaling) (tables : RegisterTables) (sensors : List SensorConfig)
    (blocks : List ReadBlock) : List (Nat × Option Double) :=
  blocks.flatMap fun block => block.sensor_indices.map fun i =>
    (i, extract_value scaling block (read_block tables block) (sensor_at sensors i))

/-- A part of a table's registers. -/
theorem take_drop_read_table (tables : RegisterTables) (type : RegisterType)
    {first count offset n : Nat} (h : offset + n ≤ count) :
    ((read_table tables type first count).drop offset).take n =
      read_table tables type (first + offset) n := by
  apply List.ext_getElem
  · simp only [read_table, List.length_take, List.length_drop, List.length_map, List.length_range]
    omega
  · intro i hi hi'
    simp only [read_table, List.getElem_take, List.getElem_drop, List.getElem_map,
      List.getElem_range, Nat.add_assoc]

/-- **A sensor's value from its block is its own value.** -/
theorem extract_value_eq_single {scaling : Scaling} {tables : RegisterTables}
    {sensors : List SensorConfig} {bound i : Nat} {block : ReadBlock}
    (h : Covers sensors bound block) (hi : i ∈ block.sensor_indices) :
    extract_value scaling block (read_block tables block) (sensor_at sensors i) =
      single_value scaling tables (sensor_at sensors i) := by
  obtain ⟨htype, hle, hend⟩ := h.sensors i hi
  unfold firstRegister registerCount at *
  -- the answer has as many registers as were asked for
  have hlength : (read_block tables block).length = block.quantity.toNat := by
    rw [read_block, read_table, List.length_map, List.length_range]
  have hinside : ¬ ((sensor_at sensors i).address < block.start_address ∨
      (sensor_at sensors i).address.toNat - block.start_address.toNat +
        (register_count (sensor_at sensors i).data_type).toNat >
          (read_block tables block).length) := by
    rw [UInt16.lt_iff_toNat_lt, hlength]
    omega
  -- the sensor's part of the block is its part of the table
  have hpart : ((read_block tables block).drop
      ((sensor_at sensors i).address.toNat - block.start_address.toNat)).take
        (register_count (sensor_at sensors i).data_type).toNat =
      read_table tables (sensor_at sensors i).register_type (sensor_at sensors i).address.toNat
        (register_count (sensor_at sensors i).data_type).toNat := by
    rw [read_block, take_drop_read_table _ _ (by omega), htype]
    congr 1
    omega
  rw [extract_value, if_neg hinside, hpart, single_value]

/-- **Batched polling reads what single reads would**: with the default limits every block is a
legal request, and the values are, in some order, exactly one for each sensor, its own. -/
theorem batched_eq_single (S : StdSort) (scaling : Scaling) (tables : RegisterTables)
    {sensors : List SensorConfig} (h : InTable sensors) :
    (∀ block ∈ plan_reads S sensors, 1 ≤ block.quantity.toNat ∧ block.quantity.toNat ≤ 125 ∧
        block.start_address.toNat + block.quantity.toNat ≤ 65536) ∧
      (batched_values scaling tables sensors (plan_reads S sensors)).Perm
        ((List.range sensors.length).map fun i =>
          (i, single_value scaling tables (sensor_at sensors i))) := by
  obtain ⟨hperm, hcovers⟩ := @plan_reads_spec S sensors 125 8 125 (by decide) (by decide)
    (by decide) h
  refine ⟨fun block hblock => ?_, ?_⟩
  · have hblock' := hcovers block hblock
    exact ⟨hblock'.nonempty, hblock'.bounded, hblock'.in_table⟩
  · -- each value is the same as for a read of its own
    have hvalues : batched_values scaling tables sensors (plan_reads S sensors) =
        ((plan_reads S sensors).flatMap ReadBlock.sensor_indices).map fun i =>
          (i, single_value scaling tables (sensor_at sensors i)) := by
      rw [batched_values, List.map_flatMap]
      refine List.flatMap_congr fun block hblock => List.map_congr_left fun i hi => ?_
      rw [extract_value_eq_single (hcovers block hblock) hi]
    rw [hvalues]
    exact hperm.map _

/-- Arithmetic without rounding. -/
def exactScaling : Scaling
  | .finite raw, scale, offset => .finite (raw * scale + offset)
  | raw, _, _ => raw

/-- Two sensors at the upper end of a table and one in the other, on a device full of zeros. -/
def edgeSensors : List SensorConfig :=
  [{ address := 65534, data_type := .uint32 }, { address := 65535 }, { register_type := .input }]

/-- A plan with sensors at both ends of the table. -/
theorem batched_eq_single_edge :
    (batched_values exactScaling (fun _ _ => 0) edgeSensors
      (plan_reads .stable edgeSensors)).length = 3 := by
  have hin : InTable edgeSensors := by decide
  rw [(batched_eq_single .stable exactScaling (fun _ _ => 0) hin).2.length_eq]
  rfl

end Ironpulse.Protocol
