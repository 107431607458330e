import Ironpulse.Core.JsonText
import Ironpulse.Ingest.SegmentName
import Ironpulse.Ingest.Serializer

/-! # Export segments

`src/ingest/segment.cpp`: a segment file is a 32-byte header, the tag table as JSON, zeros up to a
multiple of eight and encoded batches back to back. It is written under a partial name and renamed
when it is finished. Byte counts and offsets are those of one file, far below `2 ^ 63`; the total over
a directory is summed in 64 bits. The outcome of every file operation is an argument.

* **`encode_tag_table`**, **`decode_tag_table`**: what a tag id stands for.
* **`SegmentWriter`**: `make`, `write_batch`, `close`, with rotation and the limit on the directory.
* **`read_segment`**: the reader, which skips damaged batches. -/

namespace Ironpulse.Ingest

open ByteCodec Core Storage

/-! ## (1) The tag table -/

/-- What a tag id stands for. -/
structure TagInfo where
  id : UInt32 := 0
  sensor_id : String := ""
  device_id : String := ""
  name : String := ""
  unit : String := ""
  deriving DecidableEq

/-- A tag as an object, in key order. -/
def tag_object (tag : TagInfo) : Json :=
  .object [("device", .string tag.device_id), ("id", .number_unsigned tag.id.toUInt64),
    ("name", .string tag.name), ("sensor", .string tag.sensor_id), ("unit", .string tag.unit)]

/-- The tag table as a JSON value. -/
def tag_table (tags : List TagInfo) : Json :=
  .object [("format", .string "ironpulse-export"), ("tags", .array (tags.map tag_object))]

/-- `encode_tag_table`: the tags as JSON text. -/
def encode_tag_table (json : JsonLibrary) (tags : List TagInfo) : List UInt8 :=
  (tag_table tags).dump json.dump_float

/-- A tag from an element of the table. -/
def decode_tag (item : Json) : Except String TagInfo := do
  let id ← (← item.at_key "id").get_uint32
  let sensor_id ← (← item.at_key "sensor").get_string_value
  let device_id ← item.value_string "device" ""
  let name ← item.value_string "name" ""
  let unit ← item.value_string "unit" ""
  return { id, sensor_id, device_id, name, unit }

/-- `decode_tag_table`, with the error text of a malformed table. -/
def decode_tag_table (json : JsonLibrary) (json_text : List UInt8) :
    Except String (List TagInfo) :=
  let decoded : Except String (List TagInfo) := do
    let doc ← json.parse json_text
    (← doc.at_key "tags").elements.mapM decode_tag
  decoded.mapError ("malformed tag table: " ++ ·)

/-! ## (2) The file header -/

/-- `SegmentHeader`. -/
structure SegmentHeader where
  magic : UInt32
  version : UInt16
  flags : UInt16
  created_ms : Int64
  tag_table_bytes : UInt32
  tag_table_crc32c : UInt32
  reserved : UInt64
  deriving DecidableEq

/-- A header's fields in memory order. -/
def SegmentHeader.equiv :
    SegmentHeader ≃ UInt32 × UInt16 × UInt16 × UInt64 × UInt32 × UInt32 × UInt64 where
  toFun h := (h.magic, h.version, h.flags, h.created_ms.toUInt64, h.tag_table_bytes,
    h.tag_table_crc32c, h.reserved)
  invFun x :=
    { magic := x.1, version := x.2.1, flags := x.2.2.1, created_ms := x.2.2.2.1.toInt64
      tag_table_bytes := x.2.2.2.2.1, tag_table_crc32c := x.2.2.2.2.2.1
      reserved := x.2.2.2.2.2.2 }
  left_inv h := by simp
  right_inv x := by simp

/-- The 32 bytes of a segment header. -/
def segmentHeader : RecordCodec SegmentHeader :=
  (RecordCodec.uint32.pair <| RecordCodec.uint16.pair <| RecordCodec.uint16.pair <|
    RecordCodec.uint64.pair <| RecordCodec.uint32.pair <| RecordCodec.uint32.pair
      RecordCodec.uint64).ofEquiv SegmentHeader.equiv

/-- `sizeof(SegmentHeader)`. -/
@[simp] theorem width_segmentHeader : segmentHeader.width = 32 := rfl

/-- The bytes `IPSG` read as a number. -/
def kSegmentMagic : UInt32 := 0x47535049

/-- `kSegmentVersion`. -/
def kSegmentVersion : UInt16 := 1

/-- `align8`: the next multiple of eight. -/
def align8 (n : Nat) : Nat := (n + 7) / 8 * 8

/-! ## (3) The writer -/

/-- `SegmentWriterOptions`. -/
structure SegmentWriterOptions where
  directory : String := "export"
  max_segment_bytes : UInt64 := 67108864
  max_total_bytes : UInt64 := 0
  deriving DecidableEq

/-- The writer, the files of its directory, and the final names of the segments that it has created,
in this order. Paths are names in the directory. -/
structure SegmentWriter where
  options_ : SegmentWriterOptions
  tag_table_ : List UInt8
  /-- `out_.is_open()`. -/
  out_ : Bool := false
  partial_path_ : String := ""
  final_path_ : String := ""
  segment_bytes_ : Nat := 0
  sequence_ : Nat := 0
  recovered_ : Nat := 0
  bytes_written_ : Nat := 0
  segments_completed_ : Nat := 0
  segments_deleted_ : Nat := 0
  files : Files
  created : List String := []

/-- How the file operations of one `write_batch` end. -/
structure SegmentIo where
  /-- The full segment could be renamed. -/
  finished : Bool := true
  /-- The new segment could be created. -/
  created : Bool := true
  header : FlushOutcome := .flushed
  batch : FlushOutcome := .flushed
  /-- The segment whose write failed could be renamed. -/
  sealed : Bool := true
  deriving DecidableEq

/-- `directory / name` as text. -/
def path_text (directory name : String) : String :=
  if directory = "" ∨ directory.toList.getLast? = some '/' then directory ++ name
  else directory ++ "/" ++ name

/-- A finished segment by its name. -/
def is_finished_segment (name : String) : Bool :=
  "telemetry-".toList.isPrefixOf name.toList && extension name = kSegmentExtension

/-- Finishes the `*.part` files that a crash left over: the files, and how many there were. -/
def recover_parts (files : Files) : Files × Nat :=
  files.keys.foldl (fun recovered name =>
    if (kSegmentExtension ++ kPartialSuffix).toList.isSuffixOf name.toList then
      let finished := String.ofList (name.toList.take (name.length - kPartialSuffix.length))
      (recovered.1.rename name finished, recovered.2 + 1)
    else recovered) (files, 0)

/-- The loop of `enforce_total_limit`: deletes segments, the oldest first, until `total` bytes and the
reserve fit the limit. The sums are those of `std::uint64_t`, which wrap. -/
def delete_segments (limit reserve : UInt64) : List String → UInt64 → Files × Nat → Files × Nat
  | [], _, acc => acc
  | name :: rest, total, (files, deleted) =>
      if total + reserve ≤ limit then (files, deleted)
      else
        delete_segments limit reserve rest (total - UInt64.ofNat (files.content name).length)
          (files.erase name, deleted + 1)

namespace SegmentWriter

variable (w : SegmentWriter)

/-- `enforce_total_limit`: the total is summed up while the directory is listed, before the segments
are sorted. Names start with the creation time, so name order is age order. -/
def enforce_total_limit (reserve : UInt64) : SegmentWriter :=
  if w.options_.max_total_bytes = 0 then w
  else
    let finished := w.files.keys.filter is_finished_segment
    let total := finished.foldl
      (fun total name => total + UInt64.ofNat (w.files.content name).length)
      (UInt64.ofNat w.segment_bytes_)
    let (files, deleted) := delete_segments w.options_.max_total_bytes reserve finished.mergeSort
      total (w.files, w.segments_deleted_)
    { w with files := files, segments_deleted_ := deleted }

/-- The constructor. -/
def make (json : JsonLibrary) (options : SegmentWriterOptions) (tags : List TagInfo)
    (files : Files) : SegmentWriter :=
  let (files, recovered) := recover_parts files
  enforce_total_limit
    { options_ := options, tag_table_ := encode_tag_table json tags, recovered_ := recovered
      files := files } 0

/-- `finish_segment`, which does not notice that the rename failed. -/
def finish_segment (renamed : Bool) : SegmentWriter :=
  if w.out_ then
    { w with
      out_ := false
      files := if renamed then w.files.rename w.partial_path_ w.final_path_ else w.files
      segments_completed_ := w.segments_completed_ + 1
      segment_bytes_ := 0 }
  else w

/-- `close`. -/
def close : SegmentWriter := w.finish_segment true

/-- The header of a segment. The cast takes the table's size modulo `2 ^ 32`. -/
def headerOf (created : Int64) : SegmentHeader :=
  { magic := kSegmentMagic, version := kSegmentVersion, flags := 0, created_ms := created
    tag_table_bytes := UInt32.ofNat w.tag_table_.length
    tag_table_crc32c := crc32c w.tag_table_
    reserved := 0 }

/-- What stands in front of the batches: header, tag table and padding. -/
def prefixBytes (created : Int64) : List UInt8 :=
  let unpadded := 32 + w.tag_table_.length
  segmentHeader.encode (w.headerOf created) ++ w.tag_table_ ++
    List.replicate (align8 unpadded - unpadded) 0

/-- `out_.write` and `out_.flush`: what reaches the open file. -/
def flushed (outcome : FlushOutcome) (bytes : List UInt8) : Files :=
  match outcome with
  | .flushed => w.files.insert w.partial_path_ (w.files.content w.partial_path_ ++ bytes)
  | .failed written =>
      w.files.insert w.partial_path_ (w.files.content w.partial_path_ ++ bytes.take written)

/-- `open_segment` at the time `created`. -/
def open_segment (created : Int64) (io : SegmentIo) : SegmentWriter × Except String Unit :=
  let sequence := next_sequence w.files created w.files.keys.length w.sequence_
  let w := { w with
    sequence_ := sequence
    final_path_ := final_name created sequence
    partial_path_ := partial_name created sequence }
  if ¬ io.created then
    (w, .error ("cannot create export segment " ++ path_text w.options_.directory w.partial_path_))
  else
    let w := { w with
      out_ := true
      files := w.files.insert w.partial_path_ []
      created := w.created ++ [w.final_path_] }
    let bytes := w.prefixBytes created
    let w := { w with files := w.flushed io.header bytes }
    match io.header with
    | .failed _ =>
        (w.finish_segment io.sealed, .error ("cannot write export segment header to " ++
          path_text w.options_.directory w.partial_path_))
    | .flushed =>
        ({ w with
          segment_bytes_ := bytes.length, bytes_written_ := w.bytes_written_ + bytes.length },
          .ok ())

/-- Makes sure that a segment with room for the batch is open, as far as batches fit at all. -/
def open_for (created : Int64) (io : SegmentIo) (batch : List UInt8) :
    SegmentWriter × Except String Unit :=
  let max_segment_bytes := w.options_.max_segment_bytes
  if ¬ w.out_ then (w.enforce_total_limit max_segment_bytes).open_segment created io
  else if w.segment_bytes_ + batch.length > max_segment_bytes.toNat then
    ((w.finish_segment io.finished).enforce_total_limit max_segment_bytes).open_segment created io
  else (w, .ok ())

/-- Appends a batch to the open segment. A failed write ends the segment. -/
def append_batch (io : SegmentIo) (batch : List UInt8) : SegmentWriter × Except String Unit :=
  let written := { w with files := w.flushed io.batch batch }
  match io.batch with
  | .failed _ =>
      (written.finish_segment io.sealed, .error ("write to export segment " ++
        path_text w.options_.directory w.final_path_ ++ " failed"))
  | .flushed =>
      ({ written with
        segment_bytes_ := w.segment_bytes_ + batch.length
        bytes_written_ := w.bytes_written_ + batch.length }, .ok ())

/-- `write_batch`; `created` is what the clock shows if a segment is opened. -/
def write_batch (created : Int64) (io : SegmentIo) (batch : List UInt8) :
    SegmentWriter × Except String Unit :=
  match w.open_for created io batch with
  | (w, .error what) => (w, .error what)
  | (w, .ok ()) => w.append_batch io batch

end SegmentWriter

/-! ## (4) The reader -/

/-- A batch handed to the visitor: where it starts in the file, and its samples. -/
structure Delivery where
  offset : Nat
  samples : List TelemetrySample
  deriving DecidableEq

/-- The result of reading a segment, and the calls of the visitor; each also gets the tags. -/
structure SegmentReadResult where
  tags : List TagInfo := []
  created_ms : Int64 := 0
  batches : Nat := 0
  samples : Nat := 0
  corrupt_batches : Nat := 0
  truncated_tail : Bool := false
  error : String := ""
  delivered : List Delivery := []
  deriving DecidableEq

/-- The bytes that `read_at` reads. -/
def read_at (file : List UInt8) (offset bytes : Nat) : List UInt8 := (file.drop offset).take bytes

/-- The search for the next batch header, in steps of eight bytes. -/
def resync (file : List UInt8) : Nat → Nat → Nat
  | 0, pos => pos
  | fuel + 1, pos =>
      if pos + 16 ≤ file.length then
        if RecordCodec.uint32.decode (read_at file pos 4) = kMagic then pos
        else resync file fuel (pos + 8)
      else pos

/-- The loop over the batches. Every round moves on by at least eight bytes, so the file's length is
fuel enough. -/
def read_batches (file : List UInt8) : Nat → Nat → SegmentReadResult → SegmentReadResult
  | 0, _, result => result
  | fuel + 1, pos, result =>
      if ¬ pos < file.length then result
      else if file.length - pos < 16 then { result with truncated_tail := true }
      else
        let peeked := peek (read_at file pos 16)
        if peeked.status = .bad_magic ∨ peeked.status = .unsupported_version then
          read_batches file fuel (resync file file.length (pos + 8))
            { result with corrupt_batches := result.corrupt_batches + 1 }
        else
          let batch_bytes := peeked.batch_bytes.toNat
          if pos + batch_bytes > file.length then { result with truncated_tail := true }
          else
            let payload := read_at file (pos + 16) (batch_bytes - 16)
            let samples := telemetrySample.decodeAll payload
            if crc32c payload = peeked.header.payload_crc32c then
              read_batches file fuel (pos + batch_bytes)
                { result with
                  batches := result.batches + 1
                  samples := result.samples + samples.length
                  delivered := result.delivered ++ [⟨pos, samples⟩] }
            else
              read_batches file fuel (pos + batch_bytes)
                { result with corrupt_batches := result.corrupt_batches + 1 }

/-- `read_segment` of the file at `path`, with its bytes if it can be opened. -/
def read_segment (json : JsonLibrary) (path : String) (file : Option (List UInt8)) :
    SegmentReadResult :=
  match file with
  | none => { error := "cannot open " ++ path }
  | some file =>
      if file.length < 32 then { error := "file is too short to be a segment" }
      else
        let header := segmentHeader.decode (read_at file 0 32)
        if header.magic ≠ kSegmentMagic then
          { error := "not an Ironpulse export segment (bad magic)" }
        else if header.version ≠ kSegmentVersion then
          { error := "unsupported segment version " ++ toString header.version }
        else if 32 + header.tag_table_bytes.toNat > file.length then
          { error := "tag table extends past the end of the file" }
        else
          let table := read_at file 32 header.tag_table_bytes.toNat
          if crc32c table ≠ header.tag_table_crc32c then { error := "tag table is damaged" }
          else
            match decode_tag_table json table with
            | .error what => { error := what }
            | .ok tags =>
                read_batches file file.length (align8 (32 + table.length))
                  { tags := tags, created_ms := header.created_ms }

end Ironpulse.Ingest
