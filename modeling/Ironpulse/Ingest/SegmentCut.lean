import Ironpulse.Ingest.SegmentRoundTrip

/-! # Segments that were cut off

A crash or a failed write leaves the first bytes of a segment. The reader recognises the cut wherever
it falls: inside a header, inside the samples or between two batches.

* **`TornBatch`**, **`read_batches_torn`**: the part of a batch in front of the cut.
* **`Boundary`**: the offsets at which a batch begins or the segment ends.
* **`read_segment_cut`**: what is read of the first bytes of a segment. -/

namespace Ironpulse.Ingest

open ByteCodec Core Storage

/-! ## (1) Reading what a failed write left -/

/-- A part of an encoded batch, not all of it. -/
def TornBatch (bytes : List UInt8) : Prop :=
  ∃ samples : List TelemetrySample, samples.length < 2 ^ 32 ∧ bytes <+: encodedBatch samples ∧
    bytes ≠ encodedBatch samples

/-- Nothing at all is a torn batch. -/
theorem tornBatch_nil : TornBatch [] := by
  -- even an empty batch has a header
  refine ⟨[], by decide, List.nil_prefix, fun heq => ?_⟩
  have hlength := congrArg List.length heq
  rw [length_encodedBatch] at hlength
  exact absurd hlength (by decide)

/-- The first bytes of a batch. -/
theorem tornBatch_take {samples : List TelemetrySample} (hcount : samples.length < 2 ^ 32) {n : Nat}
    (hlt : n < (encodedBatch samples).length) : TornBatch ((encodedBatch samples).take n) := by
  refine ⟨samples, hcount, List.take_prefix _ _, fun heq => ?_⟩
  have hlength := congrArg List.length heq
  rw [List.length_take] at hlength
  omega

/-- A strict part of a list is shorter. -/
theorem length_lt_of_torn {bytes whole : List UInt8} (h : bytes <+: whole) (hne : bytes ≠ whole) :
    bytes.length < whole.length :=
  Nat.lt_of_le_of_ne h.length_le fun heq => hne (h.eq_of_length heq)

/-- **A torn batch is recognised**, unless nothing is left of it: it has fewer bytes than a header,
or its header says that more follow. -/
theorem read_batches_torn {tail : List UInt8} (htail : TornBatch tail) (before : List UInt8)
    {fuel : Nat} (hfuel : (before ++ tail).length ≤ before.length + fuel * 8)
    (result : SegmentReadResult) :
    read_batches (before ++ tail) fuel before.length result =
      { result with truncated_tail := result.truncated_tail || !tail.isEmpty } := by
  obtain ⟨samples, hcount, hpart, hne⟩ := htail
  have hlt := length_lt_of_torn hpart hne
  rw [length_encodedBatch] at hlt
  have hlength : (before ++ tail).length = before.length + tail.length := List.length_append
  by_cases hnil : tail = []
  · subst hnil
    rw [List.append_nil, read_batches_of_end (Nat.lt_irrefl _), List.isEmpty_nil, Bool.not_true,
      Bool.or_false]
  have hpos : 0 < tail.length := List.length_pos_iff.mpr hnil
  have hsome : tail.isEmpty = false := by rwa [List.isEmpty_eq_false_iff]
  rw [hsome, Bool.not_false, Bool.or_true]
  cases fuel with
  | zero => omega
  | succ fuel =>
      by_cases hshort : (before ++ tail).length - before.length < 16
      · rw [read_batches_of_short (by omega) hshort]
      · -- the header is complete
        obtain ⟨rest, hrest⟩ := hpart
        have hheader : (batchHeader.encode (headerOf samples)).length = 16 :=
          batchHeader.length_encode _
        have htail : tail = batchHeader.encode (headerOf samples) ++ tail.drop 16 := by
          have htake := congrArg (List.take 16) hrest
          rw [List.take_append_of_le_length (by omega), encodedBatch, ← hheader,
            List.take_left] at htake
          rw [← htake, hheader, List.take_append_drop]
        have hread := header_at_append before (tail.drop 16) (headerOf samples)
        rw [← htail] at hread
        have hknown : (header_at (before ++ tail) before.length).known := by
          rw [hread]
          exact ⟨rfl, rfl⟩
        rw [read_batches_of_known (by omega) hknown]
        dsimp only
        rw [hread, toNat_headerOf_count hcount, if_pos (by omega)]

/-! ## (2) Where batches begin -/

/-- The offsets at which a batch begins or the last one ends. -/
def Boundary (offset : Nat) (batches : List (List TelemetrySample)) (cut : Nat) : Prop :=
  ∃ k ≤ batches.length, cut = offset + ((batches.take k).flatMap encodedBatch).length

/-- Without batches the only boundary is the end of the front. -/
theorem boundary_nil {offset cut : Nat} : Boundary offset [] cut ↔ cut = offset := by
  constructor
  · rintro ⟨k, -, hcut⟩
    rwa [List.take_nil, List.flatMap_nil, List.length_nil, Nat.add_zero] at hcut
  · rintro rfl
    exact ⟨0, Nat.le_refl _, rfl⟩

/-- The first batch begins here, and behind it the others do. -/
theorem boundary_cons {offset cut : Nat} {samples : List TelemetrySample}
    {batches : List (List TelemetrySample)} :
    Boundary offset (samples :: batches) cut ↔
      cut = offset ∨ Boundary (offset + (encodedBatch samples).length) batches cut := by
  constructor
  · -- the cut lies behind no batch, or behind at least the first
    rintro ⟨k, hk, hcut⟩
    cases k with
    | zero => exact .inl hcut
    | succ k =>
        rw [List.take_succ_cons, List.flatMap_cons, List.length_append, ← Nat.add_assoc] at hcut
        exact .inr ⟨k, Nat.le_of_succ_le_succ hk, hcut⟩
  · rintro (rfl | ⟨k, hk, hcut⟩)
    · exact ⟨0, Nat.zero_le _, rfl⟩
    · refine ⟨k + 1, Nat.succ_le_succ hk, ?_⟩
      rw [List.take_succ_cons, List.flatMap_cons, List.length_append, ← Nat.add_assoc]
      exact hcut

/-- No batch begins in front of the first one. -/
theorem Boundary.le {offset cut : Nat} {batches : List (List TelemetrySample)}
    (h : Boundary offset batches cut) : offset ≤ cut := by
  obtain ⟨k, -, rfl⟩ := h
  exact Nat.le_add_right _ _

/-- Batches are delivered from the front on. -/
theorem le_offset_of_mem_deliveriesFrom {batches : List (List TelemetrySample)} {offset : Nat}
    {d : Delivery} (h : d ∈ deliveriesFrom offset batches) : offset ≤ d.offset := by
  induction batches generalizing offset with
  | nil => cases h
  | cons samples batches ih =>
      rcases List.mem_cons.mp h with rfl | hlater
      · exact Nat.le_refl _
      · exact (Nat.le_add_right _ _).trans (ih hlater)

/-- The bytes of a batch delivered from its place. -/
theorem bytes_delivery (offset : Nat) (samples : List TelemetrySample) :
    (⟨offset, samples⟩ : Delivery).bytes = (encodedBatch samples).length :=
  (length_encodedBatch samples).symm

/-! ## (3) Reading the first bytes of a segment -/

/-- Of the batches from a cut one on, none ends in front of the cut. -/
theorem filter_deliveriesFrom_eq_nil {samples : List TelemetrySample}
    (batches : List (List TelemetrySample)) (offset : Nat) {n : Nat}
    (hlt : n < (encodedBatch samples).length) :
    (deliveriesFrom offset (samples :: batches)).filter
      (fun d => d.offset + d.bytes ≤ offset + n) = [] := by
  have hbytes := bytes_delivery offset samples
  rw [List.filter_eq_nil_iff]
  intro d hd hfits
  rw [decide_eq_true_iff] at hfits
  -- neither the first batch nor a later one ends before the cut
  rcases List.mem_cons.mp hd with rfl | hlater
  · rw [hbytes] at hfits
    dsimp only at hfits
    omega
  · have hle := le_offset_of_mem_deliveriesFrom hlater
    omega

/-- **The batches in front of a cut**, one after the other; the one that the cut falls into is not
delivered, and it is the only reason to report a truncated tail. -/
theorem read_batches_cut {batches : List (List TelemetrySample)}
    (hcount : ∀ samples ∈ batches, samples.length < 2 ^ 32) (before : List UInt8) {n fuel : Nat}
    (hn : n ≤ (batches.flatMap encodedBatch).length)
    (hfuel : (before ++ (batches.flatMap encodedBatch).take n).length ≤ before.length + fuel * 8)
    (result : SegmentReadResult) :
    let read := read_batches (before ++ (batches.flatMap encodedBatch).take n) fuel before.length
      result
    read.delivered = result.delivered ++ (deliveriesFrom before.length batches).filter
        (fun d => d.offset + d.bytes ≤ before.length + n) ∧
      read.error = result.error ∧ read.corrupt_batches = result.corrupt_batches ∧
      (read.truncated_tail = true ↔ result.truncated_tail = true ∨
        ¬ Boundary before.length batches (before.length + n)) := by
  induction batches generalizing before n fuel result with
  | nil =>
      obtain rfl : n = 0 := Nat.le_zero.mp hn
      dsimp only
      rw [List.flatMap_nil, List.take_nil, List.append_nil, read_batches_of_end (Nat.lt_irrefl _)]
      refine ⟨(List.append_nil _).symm, rfl, rfl, ?_⟩
      simp only [boundary_nil, Nat.add_zero, not_true_eq_false, or_false]
  | cons samples batches ih =>
      have hsamples := hcount samples List.mem_cons_self
      rw [List.flatMap_cons] at hn hfuel ⊢
      by_cases hlt : n < (encodedBatch samples).length
      · -- the cut falls into this batch, or in front of it
        have htorn := tornBatch_take hsamples hlt
        have hnil : ((encodedBatch samples).take n).isEmpty = decide (n = 0) := by
          rw [Bool.eq_iff_iff, List.isEmpty_iff, decide_eq_true_iff, List.take_eq_nil_iff]
          exact or_iff_left (List.ne_nil_of_length_pos (Nat.zero_lt_of_lt hlt))
        rw [List.take_append_of_le_length hlt.le] at hfuel ⊢
        dsimp only
        rw [read_batches_torn htorn before hfuel, hnil,
          filter_deliveriesFrom_eq_nil batches before.length hlt]
        refine ⟨(List.append_nil _).symm, rfl, rfl, ?_⟩
        have hlater : ¬ Boundary (before.length + (encodedBatch samples).length) batches
            (before.length + n) := fun h => by
          have hle := h.le
          omega
        rw [boundary_cons, or_iff_left hlater]
        simp
      · -- the whole batch is there
        have hle : (encodedBatch samples).length ≤ n := Nat.le_of_not_lt hlt
        have hlength := length_encodedBatch samples
        have hplace : before.length + n = (before ++ encodedBatch samples).length +
            (n - (encodedBatch samples).length) := by
          rw [List.length_append]
          omega
        rw [List.take_append, List.take_of_length_le hle] at hfuel ⊢
        cases fuel with
        | zero =>
            rw [List.length_append, List.length_append] at hfuel
            omega
        | succ fuel =>
            dsimp only
            rw [read_batches_encodedBatch hsamples, ← List.append_assoc, ← List.length_append]
            have hn' : n - (encodedBatch samples).length ≤ (batches.flatMap encodedBatch).length := by
              rw [List.length_append] at hn
              omega
            have hfuel' : (before ++ encodedBatch samples ++
                (batches.flatMap encodedBatch).take (n - (encodedBatch samples).length)).length ≤
                (before ++ encodedBatch samples).length + fuel * 8 := by
              rw [List.length_append, List.length_append] at hfuel
              rw [List.length_append, List.length_append]
              omega
            obtain ⟨hdelivered, herror, hcorrupt, htruncated⟩ :=
              ih (fun batch hbatch => hcount batch (List.mem_cons_of_mem _ hbatch))
                (before ++ encodedBatch samples) hn' hfuel'
                { result with
                  batches := result.batches + 1
                  samples := result.samples + samples.length
                  delivered := result.delivered ++ [⟨before.length, samples⟩] }
            rw [← hplace] at hdelivered htruncated
            refine ⟨?_, herror, hcorrupt, ?_⟩
            · rw [hdelivered, deliveriesFrom, List.filter_cons_of_pos, List.append_assoc,
                List.length_append]
              · rfl
              · rw [decide_eq_true_iff, bytes_delivery]
                exact Nat.add_le_add_left hle _
            · rw [htruncated, boundary_cons, List.length_append]
              have hne : before.length + n ≠ before.length := by omega
              rw [or_iff_right hne]

/-- **Truncation is recognised exactly.** Of the first bytes of a complete segment, cut anywhere at
or behind the start of its first batch, the reader delivers exactly the batches that end in front of
the cut, without an error or a damaged batch, and it reports a truncated tail if and only if the cut
is not between two batches. -/
theorem read_segment_cut {json : JsonLibrary} {front : List UInt8} {tags : List TagInfo}
    {created : Int64} (hfront : SegmentFront json front tags created)
    {batches : List (List TelemetrySample)}
    (hcount : ∀ samples ∈ batches, samples.length < 2 ^ 32) {cut : Nat} (hlo : front.length ≤ cut)
    (hhi : cut ≤ (front ++ batches.flatMap encodedBatch).length) (path : String) :
    let read := read_segment json path (some ((front ++ batches.flatMap encodedBatch).take cut))
    read.delivered =
        (deliveriesFrom front.length batches).filter (fun d => d.offset + d.bytes ≤ cut) ∧
      read.error = "" ∧ read.corrupt_batches = 0 ∧
      (read.truncated_tail = true ↔ ¬ Boundary front.length batches cut) := by
  obtain ⟨n, rfl⟩ := Nat.exists_eq_add_of_le hlo
  have hn : n ≤ (batches.flatMap encodedBatch).length := by
    rw [List.length_append] at hhi
    exact Nat.le_of_add_le_add_left hhi
  -- a cut behind the front cuts the batches
  have htake : (front ++ batches.flatMap encodedBatch).take (front.length + n) =
      front ++ (batches.flatMap encodedBatch).take n := by
    rw [List.take_append, List.take_of_length_le hlo, Nat.add_sub_cancel_left]
  dsimp only
  rw [htake, read_segment_of_front hfront]
  obtain ⟨hdelivered, herror, hcorrupt, htruncated⟩ := read_batches_cut hcount front hn
    (Nat.le_add_left_of_le (Nat.le_mul_of_pos_right _ (by decide)))
    { tags := tags, created_ms := created }
  exact ⟨hdelivered, herror, hcorrupt, htruncated.trans (or_iff_right Bool.false_ne_true)⟩

/-- A segment of two batches, cut ten bytes in front of its end. -/
theorem read_segment_cut_two :
    let read := read_segment (tableLibrary []) "cut.ipseg"
      (some (((SegmentWriter.make (tableLibrary []) {} [] ∅).prefixBytes 0 ++
        [oneSample, oneSample].flatMap encodedBatch).take 142))
    read.delivered = [⟨72, oneSample⟩] ∧ read.truncated_tail = true := by
  have hfront : SegmentFront (tableLibrary [])
      ((SegmentWriter.make (tableLibrary []) {} [] ∅).prefixBytes 0) [] 0 :=
    SegmentWriter.segmentFront_prefixBytes rfl (by decide +kernel) (parse_tableLibrary []) 0
  have hlength : ((SegmentWriter.make (tableLibrary []) {} [] ∅).prefixBytes 0).length = 72 := by
    rw [SegmentWriter.length_prefixBytes]
    decide +kernel
  have hone : (encodedBatch oneSample).length = 40 := length_encodedBatch oneSample
  -- the second batch is cut after 30 of its 40 bytes
  have htwo : ([oneSample, oneSample].flatMap encodedBatch).length = 80 := by
    rw [List.flatMap_cons, List.flatMap_singleton, List.length_append, hone]
  obtain ⟨hdelivered, -, -, htruncated⟩ := @read_segment_cut _ _ _ _ hfront
    [oneSample, oneSample] (by decide) 142 (by omega) (by rw [List.length_append]; omega) "cut.ipseg"
  rw [hlength] at hdelivered htruncated
  refine ⟨hdelivered.trans ?_, htruncated.mpr fun hcut => ?_⟩
  · rw [deliveriesFrom, deliveriesFrom, deliveriesFrom, hone]
    rfl
  · rw [boundary_cons, boundary_cons, boundary_nil, hone] at hcut
    omega

end Ironpulse.Ingest
