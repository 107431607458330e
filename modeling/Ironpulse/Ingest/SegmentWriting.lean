import Ironpulse.Ingest.SegmentDirectory
import Ironpulse.Ingest.SegmentLimit

/-! # What `write_batch` does to the segments

One call of `SegmentWriter::write_batch` (`src/ingest/segment.cpp`) goes through a few file operations.
Here are the states between them, for all that is said of a writer at any moment, and what is known of
the segments of a writer without a limit on its directory.

* **`write_batch_states`**, **`run_states`**: the writer after every file operation.
* **`SegmentsInv`**: the segment files of a writer, whatever stands in them.
* **`WriterInv`**: every segment file holds its front and its batches, completely. -/

namespace Ironpulse.Ingest

open Core Storage

namespace SegmentWriter

variable {w : SegmentWriter}

/-! ## (1) Options and tags -/

/-- What the batches of a segment follow depends on the tag table alone. -/
theorem prefixBytes_congr {w' : SegmentWriter} (h : w'.tag_table_ = w.tag_table_) :
    w'.prefixBytes = w.prefixBytes := by
  funext created
  rw [prefixBytes, prefixBytes, headerOf, headerOf, h]

/-- The options and the tag table of two writers are the same. -/
def SameSetup (w w' : SegmentWriter) : Prop :=
  w'.options_ = w.options_ ∧ w'.tag_table_ = w.tag_table_

/-- Closing a segment keeps them. -/
theorem sameSetup_finish_segment (w : SegmentWriter) (renamed : Bool) :
    w.SameSetup (w.finish_segment renamed) := by
  unfold finish_segment
  split
  · exact ⟨rfl, rfl⟩
  · exact ⟨rfl, rfl⟩

/-- So does the limit on the directory. -/
theorem sameSetup_enforce_total_limit (w : SegmentWriter) (reserve : UInt64) :
    w.SameSetup (w.enforce_total_limit reserve) := by
  obtain ⟨files, deleted, heq⟩ := enforce_total_limit_eq w reserve
  rw [heq]
  exact ⟨rfl, rfl⟩

/-- The constructor encodes the tag table once. -/
theorem tag_table_make (json : JsonLibrary) (options : SegmentWriterOptions) (tags : List TagInfo)
    (files : Files) : (make json options tags files).tag_table_ = encode_tag_table json tags := by
  unfold make
  exact (sameSetup_enforce_total_limit _ _).2

/-- So does opening a segment, however that ends. -/
theorem sameSetup_open_segment (w : SegmentWriter) (created : Int64) (io : SegmentIo) :
    w.SameSetup (w.open_segment created io).1 := by
  cases hcreated : io.created with
  | false =>
      -- the constructor of the stream may throw, and so may the flush of the header
      obtain ⟨w', what, hopen, -, -, -, hoptions, htable, -⟩ :=
        open_segment_of_not_created (w := w) hcreated created
      rw [hopen]
      exact ⟨hoptions, htable⟩
  | true =>
      cases hheader : io.header with
      | flushed =>
          rw [open_segment_of_flushed hcreated hheader]
          exact ⟨rfl, rfl⟩
      | failed written =>
          obtain ⟨what, hopen⟩ := open_segment_of_failed (w := w) hcreated hheader created
          rw [hopen]
          exact sameSetup_finish_segment (w.fronted created io) io.sealed

/-- So does writing a batch to the open segment. -/
theorem sameSetup_append_batch (w : SegmentWriter) (io : SegmentIo) (batch : List UInt8) :
    w.SameSetup (w.append_batch io batch).1 := by
  cases hbatch : io.batch with
  | flushed =>
      rw [append_batch_of_flushed hbatch]
      exact ⟨rfl, rfl⟩
  | failed written =>
      obtain ⟨what, happend⟩ := append_batch_of_failed (w := w) hbatch batch
      rw [happend]
      exact sameSetup_finish_segment (w.appended io batch) io.sealed

/-! ## (2) The states of a call -/

/-- The open segment has no room for a batch. -/
def full (w : SegmentWriter) (batch : List UInt8) : Prop :=
  w.segment_bytes_ + batch.length > w.options_.max_segment_bytes.toNat

instance (w : SegmentWriter) (batch : List UInt8) : Decidable (w.full batch) :=
  inferInstanceAs (Decidable (_ > _))

/-- The writer once the open segment has been closed, if there is one, and the limit applied. -/
def cleared (w : SegmentWriter) (io : SegmentIo) : SegmentWriter :=
  (w.finish_segment io.finished).enforce_total_limit w.options_.max_segment_bytes

/-- **A segment is opened** unless one is open and has room for the batch. -/
theorem open_for_eq (w : SegmentWriter) (created : Int64) (io : SegmentIo) (batch : List UInt8) :
    w.open_for created io batch =
      if w.out_ ∧ ¬ w.full batch then (w, .ok ())
      else (w.cleared io).open_segment created io := by
  unfold open_for cleared full
  by_cases hout : w.out_ = true
  · by_cases hfull : w.segment_bytes_ + batch.length > w.options_.max_segment_bytes.toNat
    · simp only [hout, hfull, not_true_eq_false, and_false, if_true, if_false]
    · simp only [hout, hfull, not_true_eq_false, not_false_eq_true, and_self, if_true, if_false]
  · -- there is nothing to close
    have hclosed : w.finish_segment io.finished = w := by
      rw [finish_segment, if_neg hout]
    simp only [hout, hclosed, false_and, not_false_eq_true, Bool.false_eq_true, if_true, if_false]

/-- **Every call keeps the options and the tags**, however its file operations end. -/
theorem sameSetup_write_batch (w : SegmentWriter) (created : Int64) (io : SegmentIo)
    (batch : List UInt8) : w.SameSetup (w.write_batch created io batch).1 := by
  -- neither finishing, deleting nor opening changes the options or the tag table
  have hcleared : w.SameSetup (w.cleared io) := by
    obtain ⟨hoptions, htable⟩ := sameSetup_finish_segment w io.finished
    obtain ⟨hoptions', htable'⟩ :=
      sameSetup_enforce_total_limit (w.finish_segment io.finished) w.options_.max_segment_bytes
    exact ⟨hoptions'.trans hoptions, htable'.trans htable⟩
  have hopened : w.SameSetup (w.open_for created io batch).1 := by
    rw [open_for_eq]
    split
    · exact ⟨rfl, rfl⟩
    · obtain ⟨hoptions, htable⟩ := sameSetup_open_segment (w.cleared io) created io
      exact ⟨hoptions.trans hcleared.1, htable.trans hcleared.2⟩
  unfold write_batch
  rcases hopen : w.open_for created io batch with ⟨w', what | ⟨⟩⟩
  · rw [hopen] at hopened
    exact hopened
  · rw [hopen] at hopened
    obtain ⟨hoptions, htable⟩ := sameSetup_append_batch w' io batch
    exact ⟨hoptions.trans hopened.1, htable.trans hopened.2⟩

/-- **The writer after every file operation of `write_batch`**, where all of them succeed. -/
def write_batch_states (w : SegmentWriter) (created : Int64) (batch : List UInt8) :
    List SegmentWriter :=
  (if w.out_ ∧ ¬ w.full batch then []
    else
      [w.finish_segment true, w.cleared {}, (w.cleared {}).begun created,
        (w.cleared {}).fronted created {}]) ++
    [(w.write_batch created {} batch).1]

/-- A call of a function of the writer. -/
inductive WriterCall where
  | write_batch (created : Int64) (samples : List TelemetrySample)
  | close
  deriving DecidableEq

/-- The writer after a call whose file operations succeed. -/
def after (w : SegmentWriter) : WriterCall → SegmentWriter
  | .write_batch created samples => (w.write_batch created {} (encodedBatch samples)).1
  | .close => w.close

/-- The writer after every file operation of a call. -/
def call_states (w : SegmentWriter) : WriterCall → List SegmentWriter
  | .write_batch created samples => w.write_batch_states created (encodedBatch samples)
  | .close => [w.close]

/-- The last of these states is the one that the next call finds. -/
theorem getLast?_call_states (w : SegmentWriter) (call : WriterCall) :
    (w.call_states call).getLast? = some (w.after call) := by
  cases call with
  | write_batch created samples => exact List.getLast?_concat
  | close => rfl

/-- **The states of a run**: the writer after every file operation of its calls. -/
def run_states (w : SegmentWriter) : List WriterCall → List SegmentWriter
  | [] => []
  | call :: calls => w.call_states call ++ run_states (w.after call) calls

/-! ## (3) The segments of a writer -/

/-- **The segment files of a writer without a limit**: nothing of them is ever deleted. -/
structure SegmentsInv (others : Files) (front : Int64 → List UInt8) (w : SegmentWriter)
    (done : List SegFile) (current : Option SegFile) : Prop where
  files : WriterFiles others w done current
  same_front : w.prefixBytes = front
  unlimited : w.options_.max_total_bytes = 0

variable {others : Files} {front : Int64 → List UInt8} {done : List SegFile}
  {current : Option SegFile}

/-- A new writer has begun no segment. -/
theorem segmentsInv_make (json : JsonLibrary) {options : SegmentWriterOptions}
    (hlimit : options.max_total_bytes = 0) (tags : List TagInfo) (files : Files) :
    SegmentsInv (make json options tags files).files (make json options tags files).prefixBytes
      (make json options tags files) [] none := by
  unfold make
  dsimp only
  rw [enforce_total_limit_of_unlimited hlimit]
  exact ⟨writerFiles_start rfl rfl, rfl, hlimit⟩

/-- A writer with the same setup, and what its files are. -/
theorem SegmentsInv.of_sameSetup {w' : SegmentWriter} {done' : List SegFile}
    {current' : Option SegFile} (h : SegmentsInv others front w done current)
    (hsetup : w.SameSetup w') (hfiles : WriterFiles others w' done' current') :
    SegmentsInv others front w' done' current' :=
  ⟨hfiles, (prefixBytes_congr hsetup.2).trans h.same_front, by rw [hsetup.1]; exact h.unlimited⟩

/-- The counters are not in the invariant. -/
theorem SegmentsInv.counted (h : SegmentsInv others front w done current)
    (segment_bytes_ bytes_written_ : Nat) :
    SegmentsInv others front { w with segment_bytes_, bytes_written_ } done current :=
  ⟨⟨h.files.created, h.files.files, h.files.is_open, h.files.paths⟩, h.same_front, h.unlimited⟩

/-- Closing the open segment, whether or not it could be renamed. -/
theorem SegmentsInv.finish_segment (h : SegmentsInv others front w done current) (renamed : Bool) :
    SegmentsInv others front (w.finish_segment renamed)
      (done ++ current.toList.map fun f => { f with finished := renamed }) none :=
  h.of_sameSetup (sameSetup_finish_segment w renamed) (h.files.finish_segment renamed)

/-- Making room for a segment only closes the open one. -/
theorem SegmentsInv.cleared (h : SegmentsInv others front w done current) (io : SegmentIo) :
    SegmentsInv others front (w.cleared io)
      (done ++ current.toList.map fun f => { f with finished := io.finished }) none := by
  have hfinish := h.finish_segment io.finished
  rw [SegmentWriter.cleared, enforce_total_limit_of_unlimited hfinish.unlimited]
  exact hfinish

/-- A new segment with the front, or a part of it. -/
theorem SegmentsInv.fronted (h : SegmentsInv others front w done none) (created : Int64)
    (io : SegmentIo) :
    ∃ stem written, written <+: front created ∧ (io.header = .flushed → written = front created) ∧
      SegmentsInv others front (w.fronted created io) done (some ⟨stem, false, written⟩) := by
  obtain ⟨stem, written, hprefix, hall, hfiles⟩ := h.files.fronted created io
  rw [h.same_front] at hprefix hall
  exact ⟨stem, written, hprefix, hall, h.of_sameSetup ⟨rfl, rfl⟩ hfiles⟩

/-- The open segment with a batch, or a part of it. -/
theorem SegmentsInv.appended {f : SegFile} (h : SegmentsInv others front w done (some f))
    (io : SegmentIo) (batch : List UInt8) :
    ∃ written, written <+: batch ∧ (io.batch = .flushed → written = batch) ∧
      SegmentsInv others front (w.appended io batch) done
        (some { f with bytes := f.bytes ++ written }) := by
  obtain ⟨written, hprefix, hall, hfiles⟩ := h.files.appended io batch
  exact ⟨written, hprefix, hall, h.of_sameSetup ⟨rfl, rfl⟩ hfiles⟩

/-! ## (4) Complete segments -/

/-- A complete segment: its name, its creation time and its batches. -/
structure Written where
  stem : String
  created : Int64
  batches : List (List UInt8)

/-- The file of a complete segment, with what stands in front of its batches. -/
def Written.file (front : Int64 → List UInt8) (finished : Bool) (s : Written) : SegFile :=
  ⟨s.stem, finished, front s.created ++ s.batches.flatten⟩

/-- **What the writer keeps** while file operations succeed: the finished segments and the one being
written are in their files, completely. -/
def WriterInv (others : Files) (front : Int64 → List UInt8) (w : SegmentWriter)
    (done : List Written) (current : Option Written) : Prop :=
  SegmentsInv others front w (done.map (Written.file front true))
    (current.map (Written.file front false))

/-- The batches of a writer, in order. -/
def batchesOf (done : List Written) (current : Option Written) : List (List UInt8) :=
  (done ++ current.toList).flatMap Written.batches

variable {done : List Written} {current : Option Written}

/-- **Finishing the open segment** renames it, completely. -/
theorem WriterInv.finish_segment (h : WriterInv others front w done current) :
    WriterInv others front (w.finish_segment true) (done ++ current.toList) none := by
  have hfinish := SegmentsInv.finish_segment h true
  unfold WriterInv
  rw [List.map_append]
  cases current with
  | none => exact hfinish
  | some s => exact hfinish

/-- Without a limit nothing else is done to make room for the next one. -/
theorem WriterInv.cleared (h : WriterInv others front w done current) :
    w.cleared {} = w.finish_segment true :=
  enforce_total_limit_of_unlimited h.finish_segment.unlimited _

/-- **Opening a segment** when none is open: it has a front and no batches. -/
theorem WriterInv.open_segment (h : WriterInv others front w done none) (created : Int64) :
    ∃ w' stem, w.open_segment created {} = (w', .ok ()) ∧
      WriterInv others front w' done (some ⟨stem, created, []⟩) := by
  obtain ⟨stem, written, -, hall, hfiles⟩ := SegmentsInv.fronted h created {}
  have hfile : Written.file front false ⟨stem, created, []⟩ = ⟨stem, false, written⟩ := by
    rw [Written.file, List.flatten_nil, List.append_nil, hall rfl]
  refine ⟨_, stem, open_segment_of_flushed rfl rfl created, ?_⟩
  rw [WriterInv, Option.map_some, hfile]
  exact hfiles.counted _ _

/-- **Appending to the open segment.** -/
theorem WriterInv.append_batch {s : Written} (h : WriterInv others front w done (some s))
    (batch : List UInt8) :
    ∃ w', w.append_batch {} batch = (w', .ok ()) ∧
      WriterInv others front w' done (some { s with batches := s.batches ++ [batch] }) := by
  obtain ⟨written, -, hall, hfiles⟩ := SegmentsInv.appended h {} batch
  have hfile : Written.file front false { s with batches := s.batches ++ [batch] } =
      { Written.file front false s with
        bytes := (Written.file front false s).bytes ++ written } := by
    rw [Written.file, List.flatten_append, List.flatten_singleton, hall rfl, ← List.append_assoc]
    rfl
  refine ⟨_, append_batch_of_flushed rfl _, ?_⟩
  rw [WriterInv, Option.map_some, hfile]
  exact hfiles.counted _ _

/-- **A segment with room for the batch**, as far as batches fit at all. -/
theorem WriterInv.open_for (h : WriterInv others front w done current) (created : Int64)
    (batch : List UInt8) :
    ∃ w' done' s, w.open_for created {} batch = (w', .ok ()) ∧
      WriterInv others front w' done' (some s) ∧
      batchesOf done' (some s) = batchesOf done current := by
  rw [open_for_eq]
  split
  · -- the open segment has room
    rename_i hroom
    have hopen := h.files.is_open
    rw [Option.isSome_map, hroom.1] at hopen
    obtain ⟨s, rfl⟩ := Option.isSome_iff_exists.mp hopen.symm
    exact ⟨w, done, s, rfl, h, rfl⟩
  · rw [h.cleared]
    obtain ⟨w', stem, hopen, hinv⟩ := h.finish_segment.open_segment created
    exact ⟨w', _, _, hopen, hinv, by simp [batchesOf]⟩

/-- **Every batch ends up in a segment**: the open one, or the next. -/
theorem WriterInv.write_batch (h : WriterInv others front w done current) (created : Int64)
    (batch : List UInt8) :
    ∃ w' done' s, w.write_batch created {} batch = (w', .ok ()) ∧
      WriterInv others front w' done' (some s) ∧
      batchesOf done' (some s) = batchesOf done current ++ [batch] := by
  obtain ⟨w₁, done₁, s, hopen, hinv, hbatches⟩ := h.open_for created batch
  obtain ⟨w₂, happend, hinv₂⟩ := hinv.append_batch batch
  refine ⟨w₂, done₁, _, ?_, hinv₂, ?_⟩
  · rw [SegmentWriter.write_batch, hopen]
    exact happend
  · rw [← hbatches]
    simp [batchesOf]

/-- A finished segment is in its file. -/
theorem WriterInv.lookup_done (h : WriterInv others front w done current) {s : Written}
    (hs : s ∈ done) :
    w.files.lookup (s.stem ++ kSegmentExtension) = some (front s.created ++ s.batches.flatten) :=
  h.files.files.lookup (Written.file front true s)
    (List.mem_append_left _ (List.mem_map_of_mem hs))

/-- The names of the segments once all are finished. -/
theorem WriterInv.created_eq (h : WriterInv others front w done none) :
    w.created = done.map fun s => s.stem ++ kSegmentExtension := by
  have hcreated := h.files.created
  rw [Option.map_none, Option.toList_none, List.append_nil, List.map_map] at hcreated
  exact hcreated

end SegmentWriter

end Ironpulse.Ingest
