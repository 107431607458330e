import Ironpulse.Lib.SpanCover
import Ironpulse.Protocol.ReadPlan

/-! # The read plan has the fewest requests

A group of sensors that one request can serve is a tile of their registers, so the sweep of
`plan_type` builds tiles, and it opens a new one only for a sensor that is apart from the first
sensors of all earlier ones.

* **`Request`**, **`ValidPlan`**: a group that one request serves, and a plan of such groups.
* **`GreedyInv`**: the blocks are tiles whose first sensors are pairwise apart, with
  `greedyInv_step` and `greedyInv_foldl`.
* **`plan_reads_fewest`**: the plan is valid, and no partition into such groups is smaller. -/

namespace Ironpulse.Protocol

open Core (RegisterType SensorConfig)
open SpanCover

/-! ## (1) Requests and plans -/

/-- The end of a sensor's registers. -/
def endRegister (sensors : List SensorConfig) (i : Nat) : Nat :=
  firstRegister sensors i + registerCount sensors i

/-- The end of a block's registers. -/
def ReadBlock.stop (block : ReadBlock) : Nat := block.start_address.toNat + block.quantity.toNat

/-- One request, for the registers of a table from `first` to `stop`, serves the sensors `members`:
they are all of the table and fill the range, which is not too long and has no long unused run. -/
structure Request (sensors : List SensorConfig) (max_quantity max_gap : UInt16)
    (type : RegisterType) (first stop : Nat) (members : List Nat) : Prop where
  of_type : ∀ i ∈ members, (sensor_at sensors i).register_type = type
  tile : Tile (firstRegister sensors) (endRegister sensors) max_quantity.toNat max_gap.toNat
    first stop members

/-- The blocks' requests serve every sensor exactly once. -/
structure ValidPlan (sensors : List SensorConfig) (max_quantity max_gap : UInt16)
    (blocks : List ReadBlock) : Prop where
  once : (blocks.flatMap ReadBlock.sensor_indices).Perm (List.range sensors.length)
  quantity : ∀ block ∈ blocks, 1 ≤ block.quantity.toNat ∧ block.quantity ≤ max_quantity
  requests : ∀ block ∈ blocks, Request sensors max_quantity max_gap block.register_type
    block.start_address.toNat block.stop block.sensor_indices

section Sweep

variable {sensors : List SensorConfig} {max_quantity max_gap : UInt16} {type : RegisterType}
  {order done rest : List Nat} {state : List ReadBlock × Option ReadBlock} {index : Nat}
  {blocks : List ReadBlock} {block current : ReadBlock}

/-- A sensor has at least one register. -/
theorem firstRegister_lt_endRegister (sensors : List SensorConfig) (i : Nat) :
    firstRegister sensors i < endRegister sensors i := by
  have := (registerCount_bounds sensors i).1
  unfold endRegister
  omega

/-- The block's sensors fill its range, which starts with the first of them. -/
structure BlockTile (sensors : List SensorConfig) (max_quantity max_gap : UInt16)
    (block : ReadBlock) : Prop where
  tile : Tile (firstRegister sensors) (endRegister sensors) max_quantity.toNat max_gap.toNat
    block.start_address.toNat block.stop block.sensor_indices
  head : ∃ i tail, block.sensor_indices = i :: tail ∧
    firstRegister sensors i = block.start_address.toNat

/-- The sensor that opened the block. -/
def ReadBlock.head (block : ReadBlock) : Nat := block.sensor_indices.headD 0

/-- The first sensor of a block is one of its sensors. -/
theorem BlockTile.head_mem (h : BlockTile sensors max_quantity max_gap block) :
    block.head ∈ block.sensor_indices := by
  obtain ⟨i, tail, hindices, -⟩ := h.head
  rw [ReadBlock.head, hindices]
  exact List.mem_cons_self

/-- A block starts at the first register of its first sensor. -/
theorem BlockTile.firstRegister_head (h : BlockTile sensors max_quantity max_gap block) :
    firstRegister sensors block.head = block.start_address.toNat := by
  obtain ⟨i, tail, hindices, hfirst⟩ := h.head
  rw [ReadBlock.head, hindices]
  exact hfirst

/-- A block that has just been opened covers its one sensor. -/
theorem blockTile_fresh (hmax : 2 ≤ max_quantity.toNat) :
    (freshBlock sensors type index).stop = endRegister sensors index ∧
      BlockTile sensors max_quantity max_gap (freshBlock sensors type index) := by
  have hcount := registerCount_bounds sensors index
  have hstop : (freshBlock sensors type index).stop = endRegister sensors index := by
    rw [ReadBlock.stop, freshBlock, toNat_ofNat_of_le (by omega)]
    rfl
  refine ⟨hstop, ?_, ⟨index, [], rfl, rfl⟩⟩
  rw [hstop]
  apply Tile.single
  unfold endRegister
  omega

/-- **A block that a sensor joins** covers that sensor too. -/
theorem blockTile_merged (h : BlockTile sensors max_quantity max_gap current)
    (hjoins : Joins sensors max_quantity max_gap current index)
    (hahead : current.start_address.toNat ≤ firstRegister sensors index) :
    (mergedBlock sensors current index).stop = max current.stop (endRegister sensors index) ∧
      BlockTile sensors max_quantity max_gap (mergedBlock sensors current index) := by
  obtain ⟨hgap, hquantity⟩ := hjoins
  have hmax := max_quantity.toNat_lt
  have hle : current.start_address.toNat ≤ current.stop := Nat.le_add_right _ _
  have hstop : (mergedBlock sensors current index).stop =
      max current.stop (endRegister sensors index) := by
    have hstart : (mergedBlock sensors current index).start_address = current.start_address := rfl
    -- the merged block ends where the later of the two does
    have hmerged : (mergedBlock sensors current index).quantity.toNat =
        max (current.start_address.toNat + current.quantity.toNat)
          (firstRegister sensors index + registerCount sensors index) -
            current.start_address.toNat := toNat_ofNat_of_le (by omega)
    rw [ReadBlock.stop, hstart, hmerged]
    unfold ReadBlock.stop endRegister
    omega
  refine ⟨hstop, ?_, ?_⟩
  · rw [hstop]
    refine h.tile.insert (fun i _ => firstRegister_lt_endRegister sensors i) hahead ?_ ?_
    · -- a small gap in the code is a small gap between the registers
      unfold gap_after at hgap
      unfold ReadBlock.stop
      split at hgap
      · omega
      · omega
    · unfold ReadBlock.stop endRegister
      omega
  · obtain ⟨i, tail, hindices, hfirst⟩ := h.head
    exact ⟨i, tail ++ [index], by rw [mergedBlock, hindices, List.cons_append], hfirst⟩

/-- **A sensor that does not join is apart from every sensor that starts with or before the open
block**, because of the length or of the gap, and it ends behind the block. -/
theorem apart_of_not_joins (hnot : ¬ Joins sensors max_quantity max_gap current index)
    (hshort : current.stop ≤ current.start_address.toNat + max_quantity.toNat)
    (hdone : ∀ i ∈ done, endRegister sensors i ≤ current.stop)
    (hrest : ∀ j ∈ index :: rest, firstRegister sensors index ≤ firstRegister sensors j) :
    current.stop ≤ endRegister sensors index ∧
      ∀ i ∈ done, firstRegister sensors i ≤ current.start_address.toNat →
        Apart (firstRegister sensors) (endRegister sensors) max_quantity.toNat max_gap.toNat
          (done ++ index :: rest) i index := by
  have hindex := firstRegister_lt_endRegister sensors index
  by_cases hgap : current.stop + max_gap.toNat < firstRegister sensors index
  · refine ⟨by omega, fun i hi _ => .inr ⟨current.stop, hdone i hi, hgap, ?_⟩⟩
    intro z hz
    rcases List.mem_append.mp hz with hz | hz
    · exact .inl (hdone z hz)
    · exact .inr (by have := hrest z hz; omega)
  · -- the gap is small, so the block would have become too long
    have hlong : current.start_address.toNat + max_quantity.toNat < endRegister sensors index := by
      by_contra hle
      apply hnot
      constructor
      · unfold gap_after
        unfold ReadBlock.stop at hgap
        split
        · omega
        · omega
      · unfold endRegister at hle
        unfold ReadBlock.stop at hshort
        omega
    exact ⟨by omega, fun i _ hfirst => .inl (by omega)⟩

/-! ## (2) The sweep opens blocks only where it has to -/

/-- The blocks of the sweep, the open one last. -/
def sweptBlocks (state : List ReadBlock × Option ReadBlock) : List ReadBlock :=
  state.1 ++ state.2.toList

/-- After the sensors `done`, before the sensors `rest`: the blocks are tiles of sensors of `done`,
their heads are pairwise apart, and nothing lies behind the open block. -/
structure GreedyInv (sensors : List SensorConfig) (max_quantity max_gap : UInt16)
    (done rest : List Nat) (state : List ReadBlock × Option ReadBlock) : Prop where
  opened : state.2 = none → state.1 = [] ∧ done = []
  tiles : ∀ block ∈ sweptBlocks state, BlockTile sensors max_quantity max_gap block
  members : ∀ block ∈ sweptBlocks state, ∀ i ∈ block.sensor_indices, i ∈ done
  apart : (sweptBlocks state).Pairwise fun block block' =>
    Apart (firstRegister sensors) (endRegister sensors) max_quantity.toNat max_gap.toNat
      (done ++ rest) block.head block'.head
  frontier : ∀ current ∈ state.2, ∀ i ∈ done, endRegister sensors i ≤ current.stop
  ahead : ∀ current ∈ state.2, ∀ j ∈ rest, current.start_address.toNat ≤ firstRegister sensors j
  before : ∀ current ∈ state.2, ∀ block ∈ sweptBlocks state,
    block.start_address.toNat ≤ current.start_address.toNat

/-- The first sensor of the table opens the first block. -/
theorem greedyInv_first (hmax : 2 ≤ max_quantity.toNat)
    (hsorted : ∀ j ∈ rest, firstRegister sensors index ≤ firstRegister sensors j)
    (h : GreedyInv sensors max_quantity max_gap done (index :: rest) (blocks, none)) :
    GreedyInv sensors max_quantity max_gap (done ++ [index]) rest
      (blocks, some (freshBlock sensors type index)) := by
  obtain ⟨hstop, hfresh⟩ := @blockTile_fresh sensors max_quantity max_gap type index hmax
  -- there was no open block, so nothing was closed before either
  obtain ⟨hblocks, rfl⟩ := h.opened rfl
  obtain rfl : blocks = [] := hblocks
  constructor
  · intro hopen
    exact absurd hopen (Option.some_ne_none _)
  · intro block hblock
    rw [List.mem_singleton.mp hblock]
    exact hfresh
  · intro block hblock i hi
    rw [List.mem_singleton.mp hblock] at hi
    exact hi
  · exact List.pairwise_singleton _ _
  · rintro _ ⟨⟩ i hi
    rw [hstop, List.mem_singleton.mp hi]
  · rintro _ ⟨⟩ j hj
    exact hsorted j hj
  · rintro _ ⟨⟩ block hblock
    rw [List.mem_singleton.mp hblock]

/-- A sensor that joins the open block changes neither the heads nor the number of blocks. -/
theorem greedyInv_joined
    (hjoins : Joins sensors max_quantity max_gap current index)
    (h : GreedyInv sensors max_quantity max_gap done (index :: rest) (blocks, some current)) :
    GreedyInv sensors max_quantity max_gap (done ++ [index]) rest
      (blocks, some (mergedBlock sensors current index)) := by
  have hmem : current ∈ sweptBlocks (blocks, some current) :=
    List.mem_append_right _ (List.mem_singleton_self _)
  have hcurrent := h.tiles current hmem
  obtain ⟨hstop, hmerged⟩ :=
    blockTile_merged hcurrent hjoins (h.ahead current rfl index List.mem_cons_self)
  have hhead : (mergedBlock sensors current index).head = current.head := by
    obtain ⟨i, tail, hindices, -⟩ := hcurrent.head
    rw [ReadBlock.head, ReadBlock.head, mergedBlock, hindices]
    rfl
  constructor
  · intro hopen
    exact absurd hopen (Option.some_ne_none _)
  · intro block hblock
    rcases List.mem_append.mp hblock with hold | hnew
    · exact h.tiles block (List.mem_append_left _ hold)
    · rw [List.mem_singleton.mp hnew]
      exact hmerged
  · intro block hblock i hi
    rcases List.mem_append.mp hblock with hold | hnew
    · exact List.mem_append_left _ (h.members block (List.mem_append_left _ hold) i hi)
    · rw [List.mem_singleton.mp hnew] at hi
      rcases List.mem_append.mp hi with hi | hi
      · exact List.mem_append_left _ (h.members current hmem i hi)
      · exact List.mem_append_right _ hi
  · -- the head of the merged block is the one of the open block, which was apart from the others
    have hapart := h.apart
    rw [List.append_cons] at hapart
    obtain ⟨hblocks, -, hlast⟩ := List.pairwise_append.mp hapart
    refine List.pairwise_append.mpr ⟨hblocks, List.pairwise_singleton _ _, ?_⟩
    intro block hblock block' hblock'
    rw [List.mem_singleton.mp hblock', hhead]
    exact hlast block hblock current (List.mem_singleton_self _)
  · rintro _ ⟨⟩ i hi
    rw [hstop]
    rcases List.mem_append.mp hi with hi | hi
    · have := h.frontier current rfl i hi
      omega
    · rw [List.mem_singleton.mp hi]
      omega
  · rintro _ ⟨⟩ j hj
    exact h.ahead current rfl j (List.mem_cons_of_mem _ hj)
  · rintro _ ⟨⟩ block hblock
    rcases List.mem_append.mp hblock with hold | hnew
    · exact h.before current rfl block (List.mem_append_left _ hold)
    · rw [List.mem_singleton.mp hnew]

/-- A sensor that does not join closes the open block, and is apart from all heads. -/
theorem greedyInv_closed (hmax : 2 ≤ max_quantity.toNat)
    (hsorted : ∀ j ∈ rest, firstRegister sensors index ≤ firstRegister sensors j)
    (hnot : ¬ Joins sensors max_quantity max_gap current index)
    (h : GreedyInv sensors max_quantity max_gap done (index :: rest) (blocks, some current)) :
    GreedyInv sensors max_quantity max_gap (done ++ [index]) rest
      (blocks ++ [current], some (freshBlock sensors type index)) := by
  obtain ⟨hstop, hfresh⟩ := @blockTile_fresh sensors max_quantity max_gap type index hmax
  have hsorted' : ∀ j ∈ index :: rest, firstRegister sensors index ≤ firstRegister sensors j :=
    List.forall_mem_cons.mpr ⟨Nat.le_refl _, hsorted⟩
  have hmem : current ∈ sweptBlocks (blocks, some current) :=
    List.mem_append_right _ (List.mem_singleton_self _)
  -- A sensor that does not join is too far behind every head for one block with it.
  obtain ⟨hbehind, hapart⟩ :=
    apart_of_not_joins hnot (h.tiles current hmem).tile.short (h.frontier current rfl) hsorted'
  have hswept : sweptBlocks (blocks ++ [current], some (freshBlock sensors type index)) =
      sweptBlocks (blocks, some current) ++ [freshBlock sensors type index] := rfl
  constructor
  · intro hopen
    exact absurd hopen (Option.some_ne_none _)
  · rw [hswept]
    intro block hblock
    rcases List.mem_append.mp hblock with hold | hnew
    · exact h.tiles block hold
    · rw [List.mem_singleton.mp hnew]
      exact hfresh
  · rw [hswept]
    intro block hblock i hi
    rcases List.mem_append.mp hblock with hold | hnew
    · exact List.mem_append_left _ (h.members block hold i hi)
    · rw [List.mem_singleton.mp hnew] at hi
      exact List.mem_append_right _ hi
  · rw [hswept, ← List.append_cons]
    refine List.pairwise_append.mpr ⟨h.apart, List.pairwise_singleton _ _, ?_⟩
    intro block hblock block' hblock'
    rw [List.mem_singleton.mp hblock']
    have htile := h.tiles block hblock
    apply hapart block.head (h.members block hblock _ htile.head_mem)
    rw [htile.firstRegister_head]
    exact h.before current rfl block hblock
  · rintro _ ⟨⟩ i hi
    rw [hstop]
    rcases List.mem_append.mp hi with hi | hi
    · exact Nat.le_trans (h.frontier current rfl i hi) hbehind
    · rw [List.mem_singleton.mp hi]
  · rintro _ ⟨⟩ j hj
    exact hsorted j hj
  · rw [hswept]
    rintro _ ⟨⟩ block hblock
    have hfirst : current.start_address.toNat ≤ firstRegister sensors index :=
      h.ahead current rfl index List.mem_cons_self
    rcases List.mem_append.mp hblock with hold | hnew
    · exact Nat.le_trans (h.before current rfl block hold) hfirst
    · rw [List.mem_singleton.mp hnew]

/-- **One sensor keeps the invariant.** -/
theorem greedyInv_step (hmax : 2 ≤ max_quantity.toNat)
    (hsorted : ∀ j ∈ rest, firstRegister sensors index ≤ firstRegister sensors j)
    (h : GreedyInv sensors max_quantity max_gap done (index :: rest) state) :
    GreedyInv sensors max_quantity max_gap (done ++ [index]) rest
      (plan_step sensors max_quantity max_gap type state index) := by
  obtain ⟨blocks, open_⟩ := state
  -- the three cases of the loop body: the first sensor, one that joins, one that opens a block
  rcases @plan_step_cases sensors max_quantity max_gap type (blocks, open_) index with
    ⟨hnone, hstep⟩ | ⟨current, hsome, ⟨hjoins, hstep⟩ | ⟨hnot, hstep⟩⟩
  · obtain rfl : open_ = none := hnone
    rw [hstep]
    exact greedyInv_first hmax hsorted h
  · obtain rfl : open_ = some current := hsome
    rw [hstep]
    exact greedyInv_joined hjoins h
  · obtain rfl : open_ = some current := hsome
    rw [hstep]
    exact greedyInv_closed hmax hsorted hnot h

/-- **The whole sweep keeps it**, over sensors in the order of their addresses. -/
theorem greedyInv_foldl (hmax : 2 ≤ max_quantity.toNat)
    (hsorted : rest.Pairwise fun i j => firstRegister sensors i ≤ firstRegister sensors j)
    (h : GreedyInv sensors max_quantity max_gap done rest state) :
    GreedyInv sensors max_quantity max_gap (done ++ rest) []
      (rest.foldl (plan_step sensors max_quantity max_gap type) state) := by
  induction rest generalizing done state with
  | nil => rwa [List.append_nil]
  | cons index rest ih =>
      obtain ⟨hindex, hrest⟩ := List.pairwise_cons.mp hsorted
      rw [List.append_cons]
      exact ih hrest (greedyInv_step hmax hindex h)

/-- The blocks of one table are tiles whose heads are pairwise apart. -/
theorem plan_type_greedy (hmax : 2 ≤ max_quantity.toNat)
    (hsorted : order.Pairwise fun i j => firstRegister sensors i ≤ firstRegister sensors j) :
    (∀ block ∈ plan_type sensors max_quantity max_gap type order,
        BlockTile sensors max_quantity max_gap block ∧ ∀ i ∈ block.sensor_indices, i ∈ order) ∧
      (plan_type sensors max_quantity max_gap type order).Pairwise fun block block' =>
        Apart (firstRegister sensors) (endRegister sensors) max_quantity.toNat max_gap.toNat
          order block.head block'.head := by
  -- at the start nothing is covered and no block is open
  have hstart : GreedyInv sensors max_quantity max_gap [] order ([], none) := by
    constructor
    · exact fun _ => ⟨rfl, rfl⟩
    · exact fun _ hblock => absurd hblock List.not_mem_nil
    · exact fun _ hblock => absurd hblock List.not_mem_nil
    · exact List.Pairwise.nil
    · exact fun _ hcurrent => absurd hcurrent (Option.not_mem_none _)
    · exact fun _ hcurrent => absurd hcurrent (Option.not_mem_none _)
    · exact fun _ hcurrent => absurd hcurrent (Option.not_mem_none _)
  have hend := @greedyInv_foldl sensors max_quantity max_gap type [] order ([], none) hmax hsorted
    hstart
  have hapart := hend.apart
  rw [List.append_nil, List.nil_append] at hapart
  exact ⟨fun block hblock => ⟨hend.tiles block hblock, hend.members block hblock⟩, hapart⟩

end Sweep

/-! ## (3) The plan -/

section Plan

variable {S : StdSort} {sensors : List SensorConfig} {max_quantity max_gap : UInt16}
  {type : RegisterType}

/-- The sweep's sensors of one table, in the order of their addresses. -/
def sortedOf (S : StdSort) (sensors : List SensorConfig) (type : RegisterType) : List Nat :=
  S.sort (firstRegister sensors) (indices_of_type sensors type)

/-- The sorted list of a type has the sensors of that type. -/
theorem mem_sortedOf {i : Nat} : i ∈ sortedOf S sensors type ↔
    i < sensors.length ∧ (sensor_at sensors i).register_type = type :=
  (S.perm _ _).mem_iff.trans mem_indices_of_type

/-- The plan is that of the holding registers and then that of the input registers. -/
theorem plan_reads_eq : plan_reads S sensors max_quantity max_gap =
    plan_type sensors max_quantity max_gap .holding (sortedOf S sensors .holding) ++
      plan_type sensors max_quantity max_gap .input (sortedOf S sensors .input) := by
  rw [plan_reads, List.flatMap_cons, List.flatMap_cons, List.flatMap_nil, List.append_nil]
  rfl

/-- No request serves the heads of both blocks. -/
def Separate (sensors : List SensorConfig) (max_quantity max_gap : UInt16)
    (block block' : ReadBlock) : Prop :=
  ∀ type first stop members, (∀ i ∈ members, i < sensors.length) →
    Request sensors max_quantity max_gap type first stop members →
      block.head ∈ members → block'.head ∉ members

/-- **The blocks of one table are separate**: their heads are apart. -/
theorem plan_type_separate (hmax : 2 ≤ max_quantity.toNat) :
    (plan_type sensors max_quantity max_gap type (sortedOf S sensors type)).Pairwise
      (Separate sensors max_quantity max_gap) := by
  obtain ⟨htiles, hapart⟩ : _ ∧ (plan_type sensors max_quantity max_gap type
      (sortedOf S sensors type)).Pairwise _ := plan_type_greedy hmax
    (S.sorted (firstRegister sensors) (indices_of_type sensors type))
  refine hapart.imp_of_mem fun {block block'} hblock _ hheads => ?_
  intro type' first stop members hin hreq hhead
  obtain ⟨htile, hmembers⟩ := htiles block hblock
  have htype := (mem_sortedOf.mp (hmembers _ htile.head_mem)).2
  refine hheads.not_mem hreq.tile (fun i hi => ?_)
    (fun i _ => firstRegister_lt_endRegister sensors i) hhead
  -- the request is for the table of the head
  have htype' := (hreq.of_type _ hhead).symm.trans htype
  exact mem_sortedOf.mpr ⟨hin i hi, (hreq.of_type i hi).trans htype'⟩

/-- The blocks of the two tables are separate. -/
theorem plan_reads_separate (hmax : 2 ≤ max_quantity.toNat) :
    (plan_reads S sensors max_quantity max_gap).Pairwise
      (Separate sensors max_quantity max_gap) := by
  rw [plan_reads_eq]
  refine List.pairwise_append.mpr ⟨plan_type_separate hmax, plan_type_separate hmax, ?_⟩
  intro block hblock block' hblock' type first stop members _ hreq hhead hhead'
  -- the sensors of a block have the type its pass ran over
  have htype : ∀ {type : RegisterType} {block : ReadBlock},
      block ∈ plan_type sensors max_quantity max_gap type (sortedOf S sensors type) →
        (sensor_at sensors block.head).register_type = type := by
    intro type block hblock
    obtain ⟨htile, hmembers⟩ := (plan_type_greedy hmax
      (S.sorted (firstRegister sensors) (indices_of_type sensors type))).1 block hblock
    exact (mem_sortedOf.mp (hmembers _ htile.head_mem)).2
  -- so no request can hold the heads of a holding and of an input block
  have hholding := (hreq.of_type _ hhead).symm.trans (htype hblock)
  have hinput := (hreq.of_type _ hhead').symm.trans (htype hblock')
  exact absurd (hholding.symm.trans hinput) (by decide)

/-- The blocks of the plan are tiles. -/
theorem plan_reads_tiles (hmax : 2 ≤ max_quantity.toNat) :
    ∀ block ∈ plan_reads S sensors max_quantity max_gap,
      BlockTile sensors max_quantity max_gap block := by
  rw [plan_reads_eq]
  intro block hblock
  rcases List.mem_append.mp hblock with hblock | hblock
  · exact ((plan_type_greedy hmax (S.sorted _ _)).1 block hblock).1
  · exact ((plan_type_greedy hmax (S.sorted _ _)).1 block hblock).1

/-- **The plan of the code is valid**. -/
theorem plan_reads_valid (h : InTable sensors) (hmax : 2 ≤ max_quantity.toNat) :
    ValidPlan sensors max_quantity max_gap (plan_reads S sensors max_quantity max_gap) := by
  obtain ⟨hperm, hcovers⟩ := @plan_reads_spec S sensors max_quantity max_gap max_quantity.toNat
    hmax (Nat.le_refl _) (Nat.le_of_lt_succ max_quantity.toNat_lt) h
  refine ⟨hperm, fun block hblock => ?_, fun block hblock => ⟨?_, ?_⟩⟩
  · exact ⟨(hcovers block hblock).nonempty,
      UInt16.le_iff_toNat_le.mpr (hcovers block hblock).bounded⟩
  · exact fun i hi => ((hcovers block hblock).sensors i hi).1
  · exact (plan_reads_tiles hmax block hblock).tile

/-- **`plan_reads` returns a valid plan with the fewest requests**: every partition of the sensors
into groups that one request can serve has at least as many groups. -/
theorem plan_reads_fewest (S : StdSort) {sensors : List SensorConfig}
    {max_quantity max_gap : UInt16} (h : InTable sensors) (hmax : 2 ≤ max_quantity.toNat) :
    ValidPlan sensors max_quantity max_gap (plan_reads S sensors max_quantity max_gap) ∧
      ∀ groups : List (List Nat), groups.flatten.Perm (List.range sensors.length) →
        (∀ members ∈ groups, ∃ type first stop,
          Request sensors max_quantity max_gap type first stop members) →
        (plan_reads S sensors max_quantity max_gap).length ≤ groups.length := by
  have hvalid := @plan_reads_valid S sensors max_quantity max_gap h hmax
  refine ⟨hvalid, fun groups hperm hrequests => ?_⟩
  have hin : ∀ members ∈ groups, ∀ i ∈ members, i < sensors.length := by
    intro members hmembers i hi
    exact List.mem_range.mp (hperm.mem_iff.mp (List.mem_flatten.mpr ⟨members, hmembers, hi⟩))
  rw [← List.length_map ReadBlock.head]
  apply length_le_of_pairwise_apart
  · -- every head is a sensor, so it is in a group
    intro i hi
    obtain ⟨block, hblock, rfl⟩ := List.mem_map.mp hi
    have hhead := (plan_reads_tiles hmax block hblock).head_mem
    have hsensor := hvalid.once.mem_iff.mp (List.mem_flatMap.mpr ⟨block, hblock, hhead⟩)
    exact List.mem_flatten.mp (hperm.mem_iff.mpr hsensor)
  · refine List.pairwise_map.mpr ((plan_reads_separate hmax).imp fun {block block'} hsep => ?_)
    intro members hmembers
    obtain ⟨type, first, stop, hreq⟩ := hrequests members hmembers
    exact hsep type first stop members (hin members hmembers) hreq

/-- With a limit of four registers and no gap, two sensors at the upper end of a table share a
request, and the sensor of the other table has its own. -/
theorem plan_reads_fewest_edge :
    (plan_reads .stable edgeSensors 4 0).length ≤ [[0, 1], [2]].length := by
  have hin : InTable edgeSensors := by decide
  have hpair : Request edgeSensors 4 0 .holding 65534 65536 [0, 1] :=
    ⟨by decide, (Tile.single (x := 0) (by decide)).insert (x := 1)
      (fun i _ => firstRegister_lt_endRegister edgeSensors i) (by decide) (by decide) (by decide)⟩
  have hsingle : Request edgeSensors 4 0 .input 0 1 [2] :=
    ⟨by decide, Tile.single (x := 2) (by decide)⟩
  apply (plan_reads_fewest .stable hin (by decide)).2
  · decide
  · intro members hmembers
    -- the two requests of the partition are admissible
    rcases List.mem_cons.mp hmembers with rfl | hmembers
    · exact ⟨_, _, _, hpair⟩
    · rw [List.mem_singleton.mp hmembers]
      exact ⟨_, _, _, hsingle⟩

end Plan

end Ironpulse.Protocol
