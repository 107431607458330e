import Ironpulse.Ingest.SegmentReader

/-! # Segments are read back

What the writer puts into a segment comes back from the reader, provided that the tag table's size
fits the 32-bit field of the header; a larger table makes the segment unreadable.

* **`decode_tag_table_encode`**: the tag table comes back if parsing undoes dumping.
* **`read_batches_complete`**: batches back to back, whatever stands before and behind them.
* **`read_segment_written`**, **`read_segment_of_large_table`**: reading a complete segment. -/

namespace Ironpulse.Ingest

open ByteCodec Core Storage

/-! ## (1) The tag table -/

/-- A tag is read back from its JSON object. -/
theorem decode_tag_tag_object (tag : TagInfo) : decode_tag (tag_object tag) = .ok tag := by
  show Except.ok { tag with id := tag.id.toUInt64.toUInt32 } = _
  rw [UInt32.toUInt32_toUInt64]

/-- Tags are read back from their JSON objects. -/
theorem mapM_decode_tag (tags : List TagInfo) :
    (tags.map tag_object).mapM decode_tag = .ok tags := by
  induction tags with
  | nil => rfl
  | cons tag tags ih =>
      rw [List.map_cons, List.mapM_cons, decode_tag_tag_object, ih]
      rfl

/-- The tag table comes back if parsing undoes dumping. -/
theorem decode_tag_table_encode {json : JsonLibrary} {tags : List TagInfo}
    (hparse : json.parse (encode_tag_table json tags) = .ok (tag_table tags)) :
    decode_tag_table json (encode_tag_table json tags) = .ok tags := by
  have hdoc : (tag_table tags).at_key "tags" = .ok (.array (tags.map tag_object)) := rfl
  unfold decode_tag_table
  rw [hparse]
  show Except.mapError _ ((tag_table tags).at_key "tags" >>= fun tags =>
    tags.elements.mapM decode_tag) = _
  rw [hdoc]
  show Except.mapError _ ((tags.map tag_object).mapM decode_tag) = _
  rw [mapM_decode_tag]
  rfl

/-- A text that does not parse is no tag table. -/
theorem decode_tag_table_of_error {json : JsonLibrary} {text : List UInt8} {what : String}
    (hparse : json.parse text = .error what) :
    decode_tag_table json text = .error ("malformed tag table: " ++ what) := by
  unfold decode_tag_table
  rw [hparse]
  rfl

/-- A library that parses the text of one tag table. -/
def tableLibrary (tags : List TagInfo) : JsonLibrary where
  dump_float := fun _ => "0.0".toList
  parse text :=
    if text = (tag_table tags).dump fun _ => "0.0".toList then .ok (tag_table tags)
    else .error "[json.exception.parse_error.101] parse error: unexpected end of input"

/-- The library parses the text of the tag table. -/
theorem parse_tableLibrary (tags : List TagInfo) :
    (tableLibrary tags).parse (encode_tag_table (tableLibrary tags) tags) = .ok (tag_table tags) :=
  if_pos rfl

/-- It parses nothing else. -/
theorem parse_tableLibrary_of_ne {tags : List TagInfo} {text : List UInt8}
    (hne : text ≠ encode_tag_table (tableLibrary tags) tags) :
    ∃ what, (tableLibrary tags).parse text = .error what :=
  ⟨_, if_neg hne⟩

/-- Every element of an array takes at least one character. -/
theorem length_le_length_dumpElements (dump_float : Double → List Char) (tags : List TagInfo) :
    tags.length ≤ (Json.dumpElements dump_float (tags.map tag_object)).length := by
  -- every object takes at least its opening brace
  have hpos : ∀ tag, 1 ≤ (Json.dumpChars dump_float (tag_object tag)).length := by
    intro tag
    rw [tag_object, Json.dumpChars, List.cons_append, List.length_cons]
    exact Nat.le_add_left 1 _
  induction tags with
  | nil => exact Nat.le_refl 0
  | cons tag tags ih =>
      have hfirst := hpos tag
      cases tags with
      | nil => exact hfirst
      | cons next tags =>
          rw [List.map_cons, List.map_cons, Json.dumpElements]
          · simp only [List.map_cons, List.length_cons, List.length_append] at ih ⊢
            omega
          · exact fun h => by cases h

/-- The tag table has at least a byte for every tag. -/
theorem length_le_length_encode_tag_table (json : JsonLibrary) (tags : List TagInfo) :
    tags.length ≤ (encode_tag_table json tags).length := by
  have helements := length_le_length_dumpElements json.dump_float tags
  have hutf8 := length_le_length_utf8 (Json.dumpChars json.dump_float (tag_table tags))
  have htable : (Json.dumpElements json.dump_float (tags.map tag_object)).length ≤
      (Json.dumpChars json.dump_float (tag_table tags)).length := by
    simp only [tag_table, Json.dumpChars, Json.dumpItems, List.length_append, List.length_cons]
    omega
  exact helements.trans (htable.trans hutf8)

/-- A tag's name stands in the table. -/
theorem length_name_le_length_encode_tag_table (json : JsonLibrary) (tag : TagInfo) :
    tag.name.length ≤ (encode_tag_table json [tag]).length := by
  have hname := length_le_length_dump_string tag.name
  have hutf8 := length_le_length_utf8 (Json.dumpChars json.dump_float (tag_table [tag]))
  have htable : (dump_string tag.name).length ≤
      (Json.dumpChars json.dump_float (tag_table [tag])).length := by
    simp only [tag_table, tag_object, Json.dumpChars, Json.dumpItems, Json.dumpElements,
      List.map_cons, List.map_nil, List.length_append, List.length_cons]
    omega
  exact hname.trans (htable.trans hutf8)

/-- Without sensors the tag table is short. -/
theorem length_encode_tag_table_nil (json : JsonLibrary) :
    (encode_tag_table json []).length = 39 := rfl

/-! ## (2) Reading batches -/

/-- A batch of one sample. -/
def oneSample : List TelemetrySample := [{ timestamp_ms := 5, value := 7, tag_id := 1 }]

/-- Reading what stands at an offset. -/
theorem read_at_append {before bytes rest : List UInt8} {offset n : Nat}
    (hoffset : offset = before.length) (hn : n = bytes.length) :
    read_at (before ++ (bytes ++ rest)) offset n = bytes := by
  rw [read_at, hoffset, hn, List.drop_left, List.take_left]

/-- The header of the batch at an offset. -/
theorem header_at_append (before rest : List UInt8) (header : BatchHeader) :
    header_at (before ++ (batchHeader.encode header ++ rest)) before.length = header := by
  have hlength : 16 = (batchHeader.encode header).length := (batchHeader.length_encode header).symm
  rw [header_at, read_at_append rfl hlength, batchHeader.decode_encode]

/-- The count in the header of a batch that fits. -/
theorem toNat_headerOf_count {samples : List TelemetrySample} (hcount : samples.length < 2 ^ 32) :
    (headerOf samples).count.toNat = samples.length := by
  have h := congrArg UInt64.toNat (toNat_count_headerOf hcount)
  rw [UInt32.toNat_toUInt64, UInt64.toNat_ofNat'] at h
  omega

/-- **A header in front of a payload of the size that it says**: the checksum decides. -/
theorem read_batches_payload {samples : List TelemetrySample} (hcount : samples.length < 2 ^ 32)
    {payload : List UInt8} (hpayload : payload.length = samples.length * 24)
    (before rest : List UInt8) (fuel : Nat) (result : SegmentReadResult) :
    read_batches (before ++ (batchHeader.encode (headerOf samples) ++ (payload ++ rest)))
        (fuel + 1) before.length result =
      read_batches (before ++ (batchHeader.encode (headerOf samples) ++ (payload ++ rest))) fuel
        (before.length + (16 + samples.length * 24))
        (if crc32c payload = (headerOf samples).payload_crc32c then
          { result with
            batches := result.batches + 1
            samples := result.samples + (telemetrySample.decodeAll payload).length
            delivered :=
              result.delivered ++ [⟨before.length, telemetrySample.decodeAll payload⟩] }
        else { result with corrupt_batches := result.corrupt_batches + 1 }) := by
  have hheader : (batchHeader.encode (headerOf samples)).length = 16 := batchHeader.length_encode _
  -- the reader sees the encoded header, and the payload behind it
  have hread := header_at_append before (payload ++ rest) (headerOf samples)
  have hbytes : read_at (before ++ (batchHeader.encode (headerOf samples) ++ (payload ++ rest)))
      (before.length + 16) (samples.length * 24) = payload := by
    rw [← List.append_assoc]
    exact read_at_append (by rw [List.length_append, hheader]) hpayload.symm
  have hlength : (before ++ (batchHeader.encode (headerOf samples) ++ (payload ++ rest))).length =
      before.length + (16 + (samples.length * 24 + rest.length)) := by
    rw [List.length_append, List.length_append, List.length_append, hheader, hpayload]
  have hknown : (header_at (before ++ (batchHeader.encode (headerOf samples) ++ (payload ++ rest)))
      before.length).known := by
    rw [hread]
    exact ⟨rfl, rfl⟩
  rw [read_batches_of_known (by omega) hknown]
  dsimp only
  rw [hread, toNat_headerOf_count hcount, hbytes, if_neg (by omega)]
  split
  · -- the checksum decides
    rfl
  · rfl

/-- **One batch**: the reader delivers it and goes on behind it. -/
theorem read_batches_encodedBatch {samples : List TelemetrySample}
    (hcount : samples.length < 2 ^ 32) (before rest : List UInt8) (fuel : Nat)
    (result : SegmentReadResult) :
    read_batches (before ++ (encodedBatch samples ++ rest)) (fuel + 1) before.length result =
      read_batches (before ++ (encodedBatch samples ++ rest)) fuel
        (before.length + (encodedBatch samples).length)
        { result with
          batches := result.batches + 1
          samples := result.samples + samples.length
          delivered := result.delivered ++ [⟨before.length, samples⟩] } := by
  have hcrc : crc32c (telemetrySample.encodeAll samples) = (headerOf samples).payload_crc32c := rfl
  rw [length_encodedBatch, encodedBatch, List.append_assoc,
    read_batches_payload hcount (telemetrySample.length_encodeAll samples), if_pos hcrc,
    telemetrySample.decodeAll_encodeAll]

/-- The deliveries of batches that stand back to back from an offset on. -/
def deliveriesFrom (offset : Nat) : List (List TelemetrySample) → List Delivery
  | [] => []
  | samples :: rest =>
      ⟨offset, samples⟩ :: deliveriesFrom (offset + (encodedBatch samples).length) rest

/-- Each batch is delivered with its own samples. -/
@[simp] theorem map_samples_deliveriesFrom (offset : Nat) (batches : List (List TelemetrySample)) :
    (deliveriesFrom offset batches).map Delivery.samples = batches := by
  induction batches generalizing offset with
  | nil => rfl
  | cons samples rest ih => rw [deliveriesFrom, List.map_cons, ih]

/-- A result after some more deliveries. -/
def SegmentReadResult.deliver (result : SegmentReadResult) (offset : Nat)
    (batches : List (List TelemetrySample)) : SegmentReadResult :=
  { result with
    batches := result.batches + batches.length
    samples := result.samples + batches.flatten.length
    delivered := result.delivered ++ deliveriesFrom offset batches }

/-- Delivering nothing leaves the result as it is. -/
@[simp] theorem deliver_nil (result : SegmentReadResult) (offset : Nat) :
    result.deliver offset [] = result := by
  simp [SegmentReadResult.deliver, deliveriesFrom]

/-- Delivering batches delivers the first one and then the rest. -/
theorem deliver_cons (result : SegmentReadResult) (offset : Nat) (samples : List TelemetrySample)
    (rest : List (List TelemetrySample)) :
    result.deliver offset (samples :: rest) =
      ({ result with
        batches := result.batches + 1
        samples := result.samples + samples.length
        delivered := result.delivered ++ [⟨offset, samples⟩] } : SegmentReadResult).deliver
          (offset + (encodedBatch samples).length) rest := by
  simp [SegmentReadResult.deliver, deliveriesFrom, Nat.add_assoc, Nat.add_comm 1]

/-- **Batches back to back**, whatever stands before and behind them. -/
theorem read_batches_complete {batches : List (List TelemetrySample)}
    (hcount : ∀ samples ∈ batches, samples.length < 2 ^ 32) (before rest : List UInt8) {fuel : Nat}
    (hfuel : (before ++ (batches.flatMap encodedBatch ++ rest)).length ≤ before.length + fuel * 8)
    (result : SegmentReadResult) :
    ∃ fuel', (before ++ (batches.flatMap encodedBatch ++ rest)).length ≤
        (before ++ batches.flatMap encodedBatch).length + fuel' * 8 ∧
      read_batches (before ++ (batches.flatMap encodedBatch ++ rest)) fuel before.length result =
        read_batches (before ++ (batches.flatMap encodedBatch ++ rest)) fuel'
          (before ++ batches.flatMap encodedBatch).length
          (result.deliver before.length batches) := by
  -- batch by batch; each takes one round
  induction batches generalizing before fuel result with
  | nil =>
      refine ⟨fuel, ?_, ?_⟩
      · rw [List.flatMap_nil, List.append_nil]
        exact hfuel
      · rw [deliver_nil, List.flatMap_nil, List.append_nil]
  | cons samples batches ih =>
      have hlength := length_encodedBatch samples
      cases fuel with
      | zero =>
          rw [List.length_append, List.length_append, List.flatMap_cons, List.length_append] at hfuel
          omega
      | succ fuel =>
          rw [List.flatMap_cons, List.append_assoc] at hfuel ⊢
          rw [read_batches_encodedBatch (hcount samples List.mem_cons_self), deliver_cons]
          have hregroup : ∀ bytes : List UInt8, before ++ (encodedBatch samples ++ bytes) =
              before ++ encodedBatch samples ++ bytes := fun bytes => (List.append_assoc ..).symm
          have hbehind : (before ++ encodedBatch samples).length =
              before.length + (encodedBatch samples).length := List.length_append
          rw [hregroup] at hfuel ⊢
          rw [hregroup, ← hbehind]
          refine ih (fun batch hbatch => hcount batch (List.mem_cons_of_mem _ hbatch)) _ ?_ _
          omega

/-! ## (3) Reading a segment -/

/-- What stands in front of the batches of a complete segment: a header and a tag table that the
reader accepts, padded to a multiple of eight. -/
structure SegmentFront (json : JsonLibrary) (front : List UInt8) (tags : List TagInfo)
    (created : Int64) : Prop where
  accepted : FrontAccepted json front tags
  length : front.length = align8 (table_end front)
  created : (segment_header front).created_ms = created

/-- The reader begins behind the front, whatever follows it. -/
theorem read_segment_of_front {json : JsonLibrary} {front : List UInt8} {tags : List TagInfo}
    {created : Int64} (h : SegmentFront json front tags created) (rest : List UInt8)
    (path : String) :
    read_segment json path (some (front ++ rest)) =
      read_batches (front ++ rest) (front ++ rest).length front.length
        { tags := tags, created_ms := created } := by
  -- the checks of the front look at nothing behind it
  have hheader : segment_header (front ++ rest) = segment_header front := by
    rw [segment_header, segment_header, read_at_append_of_le (by have := h.accepted.header; omega)]
  have hend : table_end (front ++ rest) = table_end front := by
    rw [table_end, table_end, hheader]
  have htable : table_at (front ++ rest) = table_at front := by
    rw [table_at, table_at, hheader, read_at_append_of_le h.accepted.table]
  have hlength : (front ++ rest).length = front.length + rest.length := List.length_append
  have hinside := h.accepted.table
  have hlong := h.accepted.header
  have haccepted : FrontAccepted json (front ++ rest) tags := by
    refine ⟨by omega, ?_, ?_, by omega, ?_, ?_⟩
    · rw [hheader]
      exact h.accepted.magic
    · rw [hheader]
      exact h.accepted.version
    · rw [htable, hheader]
      exact h.accepted.crc
    · rw [htable]
      exact h.accepted.tags
  rw [read_segment_of_accepted haccepted, hend, ← h.length, hheader, h.created]

/-- The complete batches behind the front are read first, whatever follows them. -/
theorem read_segment_of_batches {json : JsonLibrary} {front : List UInt8} {tags : List TagInfo}
    {created : Int64} (h : SegmentFront json front tags created)
    {batches : List (List TelemetrySample)}
    (hcount : ∀ samples ∈ batches, samples.length < 2 ^ 32) (rest : List UInt8) (path : String) :
    ∃ fuel, (front ++ batches.flatMap encodedBatch ++ rest).length ≤
        (front ++ batches.flatMap encodedBatch).length + fuel * 8 ∧
      read_segment json path (some (front ++ batches.flatMap encodedBatch ++ rest)) =
        read_batches (front ++ batches.flatMap encodedBatch ++ rest) fuel
          (front ++ batches.flatMap encodedBatch).length
          (({ tags := tags, created_ms := created } : SegmentReadResult).deliver front.length
            batches) := by
  -- each round takes eight bytes or more, so the length of the file is fuel enough
  have hall : ∀ n m : Nat, n ≤ m + n * 8 := by omega
  obtain ⟨fuel, hfuel, hread⟩ := read_batches_complete hcount front rest (hall _ _)
    { tags := tags, created_ms := created }
  rw [List.append_assoc, read_segment_of_front h]
  exact ⟨fuel, hfuel, hread⟩

/-- **A complete segment is read back**: its batches, in order and undamaged. -/
theorem read_segment_complete {json : JsonLibrary} {front : List UInt8} {tags : List TagInfo}
    {created : Int64} (h : SegmentFront json front tags created)
    {batches : List (List TelemetrySample)}
    (hcount : ∀ samples ∈ batches, samples.length < 2 ^ 32) (path : String) :
    read_segment json path (some (front ++ batches.flatMap encodedBatch)) =
      ({ tags := tags, created_ms := created } : SegmentReadResult).deliver front.length
        batches := by
  have hfuel : (front ++ (batches.flatMap encodedBatch ++ [])).length ≤
      front.length + (front ++ (batches.flatMap encodedBatch ++ [])).length * 8 := by omega
  obtain ⟨fuel, -, hread⟩ := read_batches_complete hcount front [] hfuel
    { tags := tags, created_ms := created }
  rw [List.append_nil] at hread
  rw [read_segment_of_front h, hread, read_batches_of_end (Nat.lt_irrefl _)]

namespace SegmentWriter

variable {w : SegmentWriter}

/-- Alignment never goes back. -/
theorem le_align8 (n : Nat) : n ≤ align8 n := by
  rw [align8]
  omega

/-- The batches start on a multiple of eight. -/
theorem length_prefixBytes (created : Int64) :
    (w.prefixBytes created).length = align8 (32 + w.tag_table_.length) := by
  have hlength : (segmentHeader.encode (w.headerOf created)).length = 32 :=
    segmentHeader.length_encode _
  have hle := le_align8 (32 + w.tag_table_.length)
  rw [prefixBytes, List.length_append, List.length_append, hlength, List.length_replicate]
  omega

/-- The file of a segment with the given batches. -/
def segmentBytes (w : SegmentWriter) (created : Int64) (batches : List (List UInt8)) :
    List UInt8 :=
  w.prefixBytes created ++ batches.flatten

/-- The file as the reader sees it: header, table, and the rest. -/
theorem segmentBytes_eq (created : Int64) (batches : List (List UInt8)) :
    ∃ rest, w.segmentBytes created batches =
      [] ++ (segmentHeader.encode (w.headerOf created) ++ (w.tag_table_ ++ rest)) := by
  refine ⟨List.replicate (align8 (32 + w.tag_table_.length) - (32 + w.tag_table_.length)) 0 ++
    batches.flatten, ?_⟩
  rw [segmentBytes, prefixBytes, List.nil_append, List.append_assoc, List.append_assoc]

/-- What the reader makes of the front of a file that the writer began. -/
theorem read_segment_front (json : JsonLibrary) (path : String) (created : Int64)
    (batches : List (List UInt8)) :
    read_segment json path (some (w.segmentBytes created batches)) =
      let table := w.tag_table_.take (w.tag_table_.length % 2 ^ 32)
      if crc32c table ≠ crc32c w.tag_table_ then { error := "tag table is damaged" }
      else
        match decode_tag_table json table with
        | .error what => { error := what }
        | .ok tags =>
            read_batches (w.segmentBytes created batches)
              (w.segmentBytes created batches).length (align8 (32 + table.length))
              { tags := tags, created_ms := created } := by
  obtain ⟨rest, hfile⟩ := w.segmentBytes_eq created batches
  have hheader : (segmentHeader.encode (w.headerOf created)).length = 32 :=
    segmentHeader.length_encode _
  have hread : read_at (w.segmentBytes created batches) 0 32 =
      segmentHeader.encode (w.headerOf created) := by
    rw [hfile]
    exact read_at_append rfl hheader.symm
  -- the header has room for 32 bits of the table's length
  have hsize : (w.headerOf created).tag_table_bytes.toNat = w.tag_table_.length % 2 ^ 32 :=
    UInt32.toNat_ofNat'
  have hmod := Nat.mod_le w.tag_table_.length (2 ^ 32)
  have htable : read_at (w.segmentBytes created batches) 32 (w.tag_table_.length % 2 ^ 32) =
      w.tag_table_.take (w.tag_table_.length % 2 ^ 32) := by
    rw [hfile, List.nil_append, read_at, List.drop_left' hheader,
      List.take_append_of_le_length hmod]
  have hlength : (w.segmentBytes created batches).length =
      32 + (w.tag_table_.length + rest.length) := by
    rw [hfile, List.nil_append, List.length_append, List.length_append, hheader]
  unfold read_segment
  dsimp only
  rw [if_neg (by omega), hread, segmentHeader.decode_encode, hsize, htable,
    if_neg (fun hne => hne rfl), if_neg (fun hne => hne rfl), if_neg (by omega)]
  rfl

/-- The writer begins a segment with a front that the reader accepts. -/
theorem segmentFront_prefixBytes {json : JsonLibrary} {tags : List TagInfo}
    (htable : w.tag_table_ = encode_tag_table json tags) (hsize : w.tag_table_.length < 2 ^ 32)
    (hparse : json.parse (encode_tag_table json tags) = .ok (tag_table tags)) (created : Int64) :
    SegmentFront json (w.prefixBytes created) tags created := by
  obtain ⟨rest, hfile⟩ := w.segmentBytes_eq created []
  rw [segmentBytes, List.flatten_nil, List.append_nil] at hfile
  have hheader : (segmentHeader.encode (w.headerOf created)).length = 32 :=
    segmentHeader.length_encode _
  have hlength := w.length_prefixBytes created
  have hle := le_align8 (32 + w.tag_table_.length)
  have hread : segment_header (w.prefixBytes created) = w.headerOf created := by
    rw [segment_header, hfile, read_at_append List.length_nil.symm hheader.symm,
      segmentHeader.decode_encode]
  -- a table that fits its length field is read in full
  have hbytes : (segment_header (w.prefixBytes created)).tag_table_bytes.toNat =
      w.tag_table_.length := by
    rw [hread]
    exact UInt32.toNat_ofNat_of_lt' hsize
  have hend : table_end (w.prefixBytes created) = 32 + w.tag_table_.length := by
    rw [table_end, hbytes]
  have htext : table_at (w.prefixBytes created) = w.tag_table_ := by
    rw [table_at, hbytes, hfile, List.nil_append]
    exact read_at_append hheader.symm rfl
  refine ⟨⟨by omega, ?_, ?_, by omega, ?_, ?_⟩, ?_, ?_⟩
  · rw [hread]
    rfl
  · rw [hread]
    rfl
  · rw [htext, hread]
    rfl
  · rw [htext, htable]
    exact decode_tag_table_encode hparse
  · rw [hend, hlength]
  · rw [hread]
    rfl

/-- **A complete segment is read back**: its tags and its batches, in order and undamaged. -/
theorem read_segment_written {json : JsonLibrary} {tags : List TagInfo}
    (htable : w.tag_table_ = encode_tag_table json tags) (hsize : w.tag_table_.length < 2 ^ 32)
    (hparse : json.parse (encode_tag_table json tags) = .ok (tag_table tags))
    (batches : List (List TelemetrySample))
    (hcount : ∀ samples ∈ batches, samples.length < 2 ^ 32) (path : String) (created : Int64) :
    ∃ deliveries, deliveries.map Delivery.samples = batches ∧
      read_segment json path (some (w.segmentBytes created (batches.map encodedBatch))) =
        { tags := tags, created_ms := created, batches := batches.length
          samples := batches.flatten.length, delivered := deliveries } := by
  refine ⟨_, map_samples_deliveriesFrom (w.prefixBytes created).length batches, ?_⟩
  have hread := read_segment_complete (segmentFront_prefixBytes htable hsize hparse created) hcount
    path
  rw [SegmentReadResult.deliver, Nat.zero_add, Nat.zero_add, List.nil_append] at hread
  exact hread

/-- **A tag table beyond the header's size field makes the segment unreadable**: the reader takes a
part of the table, which is no JSON text. -/
theorem read_segment_of_large_table {json : JsonLibrary} (hsize : 2 ^ 32 ≤ w.tag_table_.length)
    (hpart : ∀ text, text <+: w.tag_table_ → text ≠ w.tag_table_ →
      ∃ what, json.parse text = .error what)
    (path : String) (created : Int64) (batches : List (List UInt8)) :
    (read_segment json path (some (w.segmentBytes created batches))).delivered = [] := by
  -- the length field holds the length modulo `2 ^ 32`, so the reader sees a part of the table
  have hne : w.tag_table_.take (w.tag_table_.length % 2 ^ 32) ≠ w.tag_table_ := by
    intro heq
    have hlength := congrArg List.length heq
    rw [List.length_take] at hlength
    omega
  obtain ⟨what, hparse⟩ := hpart _ (List.take_prefix _ _) hne
  rw [w.read_segment_front]
  dsimp only
  split
  · rfl
  · rw [decode_tag_table_of_error hparse]

end SegmentWriter

end Ironpulse.Ingest
