import Ironpulse.Ingest.SegmentCut
import Ironpulse.Ingest.SegmentRotation

/-! # Batches survive crashes

Opening a segment, writing to it and flushing it can fail, a failed write leaves any part of its
bytes, and the process can die between any two of these operations or inside one. What
`write_batch` has acknowledged had been flushed, so that a new writer on the directory finds it, in
files under their partial or their final names.

* **`Survives`**: acknowledged attempts are delivered, the others at most once, all in order.
* **`Recoverable`**: what a segment file can hold, and which batches the reader delivers from it.
* **`AttemptInv`**: the segments of a writer, however its calls ended.
* **`crashed`**: the writer at the moment of a crash.
* **`durable_iff`**: acknowledged batches survive exactly if the tag table fits its size field. -/

namespace Ironpulse.Ingest

open ByteCodec Core Storage

/-! ## (1) What may get lost -/

/-- **Attempts and what is delivered of them**, in order: an acknowledged attempt is delivered once,
another one at most once, and there is nothing else. -/
inductive Survives {α : Type} : List (α × Bool) → List α → Prop where
  | nil : Survives [] []
  | kept {a : α} (acknowledged : Bool) {attempts : List (α × Bool)} {delivered : List α} :
      Survives attempts delivered → Survives ((a, acknowledged) :: attempts) (a :: delivered)
  | lost {a : α} {attempts : List (α × Bool)} {delivered : List α} :
      Survives attempts delivered → Survives ((a, false) :: attempts) delivered

/-- Attempts in two parts, and what is delivered of each. -/
theorem Survives.append {α : Type} {attempts attempts' : List (α × Bool)}
    {delivered delivered' : List α} (h : Survives attempts delivered)
    (h' : Survives attempts' delivered') :
    Survives (attempts ++ attempts') (delivered ++ delivered') := by
  induction h with
  | nil => exact h'
  | kept acknowledged _ ih => exact .kept acknowledged ih
  | lost _ ih => exact .lost ih

/-- An attempt whose outcome nobody has seen. -/
theorem Survives.forget {α : Type} {a : α} {acknowledged : Bool} {delivered : List α}
    (h : Survives [(a, acknowledged)] delivered) : Survives [(a, false)] delivered := by
  cases h with
  | kept acknowledged hrest =>
      cases hrest
      exact .kept false .nil
  | lost hrest =>
      cases hrest
      exact .lost .nil

/-! ## (2) Reading what a failed write left -/

/-- **A torn front delivers nothing**: it is refused, or it ends inside the padding. -/
theorem delivered_read_segment_torn_front {json : JsonLibrary} {front bytes : List UInt8}
    {tags : List TagInfo} {created : Int64} (h : SegmentFront json front tags created)
    (hpart : bytes <+: front) (hne : bytes ≠ front) (path : String) :
    (read_segment json path (some bytes)).delivered = [] := by
  have hlt := length_lt_of_torn hpart hne
  rcases read_segment_cases json path bytes with ⟨what, -, hread⟩ | ⟨tags', haccepted, hread⟩
  · rw [hread]
  · -- the header is the whole one, so that the batches would begin behind the end of the file
    obtain ⟨rest, rfl⟩ := hpart
    have hheader : segment_header (bytes ++ rest) = segment_header bytes := by
      rw [segment_header, segment_header,
        read_at_append_of_le (by have := haccepted.header; omega)]
    have hend : (bytes ++ rest).length = align8 (table_end bytes) := by
      rw [h.length, table_end, table_end, hheader]
    rw [hread, read_batches_of_end (by omega)]

/-- **What a segment file can hold**, and the batches that can be read from it: a part of the front,
or the front, complete batches and a part of another one. -/
inductive Recoverable (front : Int64 → List UInt8) :
    List UInt8 → List (List TelemetrySample) → Prop where
  | front (created : Int64) {bytes : List UInt8} (hpart : bytes <+: front created)
      (hne : bytes ≠ front created) : Recoverable front bytes []
  | batches (created : Int64) {batches : List (List TelemetrySample)} {tail : List UInt8}
      (hcount : ∀ samples ∈ batches, samples.length < 2 ^ 32) (htail : TornBatch tail) :
      Recoverable front (front created ++ (batches.flatMap encodedBatch ++ tail)) batches

/-- **The reader delivers exactly the recoverable batches.** -/
theorem Recoverable.delivered {json : JsonLibrary} {front : Int64 → List UInt8}
    {tags : List TagInfo} (hfront : ∀ created, SegmentFront json (front created) tags created)
    {bytes : List UInt8} {batches : List (List TelemetrySample)}
    (h : Recoverable front bytes batches) (path : String) :
    (read_segment json path (some bytes)).delivered.map Delivery.samples = batches := by
  cases h with
  | front created hpart hne =>
      rw [delivered_read_segment_torn_front (hfront created) hpart hne]
      rfl
  | @batches created batches tail hcount htail =>
      -- the reader goes over the complete batches and stops at the torn one
      rw [read_segment_of_front (hfront created)]
      obtain ⟨fuel, hfuel, hread⟩ := read_batches_complete hcount (front created) tail
        (Nat.le_add_left_of_le (Nat.le_mul_of_pos_right _ (by decide)))
        { tags := tags, created_ms := created }
      rw [← List.append_assoc] at hfuel
      rw [hread, ← List.append_assoc, read_batches_torn htail _ hfuel]
      exact map_samples_deliveriesFrom _ _

/-- Complete batches behind a front. -/
theorem Recoverable.of_complete {front : Int64 → List UInt8} (created : Int64)
    {batches : List (List TelemetrySample)}
    (hcount : ∀ samples ∈ batches, samples.length < 2 ^ 32) :
    Recoverable front (front created ++ batches.flatMap encodedBatch) batches := by
  have h := @Recoverable.batches front created _ _ hcount tornBatch_nil
  rwa [List.append_nil] at h

/-- Any part of a front. -/
theorem Recoverable.of_front {front : Int64 → List UInt8} {created : Int64} {bytes : List UInt8}
    (hpart : bytes <+: front created) : Recoverable front bytes [] := by
  by_cases hall : bytes = front created
  · -- a complete front without batches
    have h := @Recoverable.of_complete front created []
      fun samples hsamples => absurd hsamples List.not_mem_nil
    rwa [List.flatMap_nil, List.append_nil, ← hall] at h
  · exact .front created hpart hall

/-! ## (3) The segments of a writer -/

namespace SegmentWriter

/-- A segment file, and the batches that can be read from it. -/
structure Kept where
  file : SegFile
  batches : List (List TelemetrySample)

/-- The file is closed, and renamed if that succeeded. -/
def Kept.seal (renamed : Bool) (s : Kept) : Kept :=
  { s with file := { s.file with finished := renamed } }

/-- The file holds the front and complete batches, nothing else. -/
def Kept.Complete (front : Int64 → List UInt8) (s : Kept) : Prop :=
  ∃ created, s.file.bytes = front created ++ s.batches.flatMap encodedBatch ∧
    ∀ samples ∈ s.batches, samples.length < 2 ^ 32

/-- **The segments of a writer at any moment**: the reader will find known batches in each. -/
structure AttemptInv (others : Files) (front : Int64 → List UInt8) (w : SegmentWriter)
    (done : List Kept) (current : Option Kept) : Prop
    extends SegmentsInv others front w (done.map Kept.file) (current.map Kept.file) where
  recoverable : ∀ s ∈ done ++ current.toList, Recoverable front s.file.bytes s.batches

/-- The batches of some segments, in order. -/
def keptIn (done : List Kept) (current : Option Kept) : List (List TelemetrySample) :=
  (done ++ current.toList).flatMap Kept.batches

variable {others : Files} {front : Int64 → List UInt8} {w : SegmentWriter} {done : List Kept}
  {current : Option Kept}

/-- A writer whose open segment has been closed, whether or not it could be renamed. -/
theorem AttemptInv.sealed {w' : SegmentWriter} (h : AttemptInv others front w done current)
    (renamed : Bool) (hclosed : SegmentsInv others front w'
      (done.map Kept.file ++ (current.map Kept.file).toList.map fun f =>
        { f with finished := renamed }) none) :
    ∃ done', AttemptInv others front w' done' none ∧ keptIn done' none = keptIn done current := by
  -- the file that was open is finished now, under either name
  refine ⟨done ++ current.toList.map (Kept.seal renamed), ⟨?_, ?_⟩, ?_⟩
  · rw [List.map_append]
    cases current with
    | none => exact hclosed
    | some s => exact hclosed
  · intro s hs
    rw [Option.toList_none, List.append_nil] at hs
    rcases List.mem_append.mp hs with hdone | hlast
    · exact h.recoverable s (List.mem_append_left _ hdone)
    · obtain ⟨s, hcurrent, rfl⟩ := List.mem_map.mp hlast
      exact h.recoverable s (List.mem_append_right _ hcurrent)
  · cases current with
    | none => simp [keptIn]
    | some s => simp [keptIn, Kept.seal]

/-- Closing a segment loses nothing, even if it keeps its partial name. -/
theorem AttemptInv.finish_segment (h : AttemptInv others front w done current) (renamed : Bool) :
    ∃ done', AttemptInv others front (w.finish_segment renamed) done' none ∧
      keptIn done' none = keptIn done current :=
  h.sealed renamed (h.toSegmentsInv.finish_segment renamed)

/-- A new segment with the front, or a part of it. -/
theorem AttemptInv.fronted (h : AttemptInv others front w done none) (created : Int64)
    (io : SegmentIo) :
    ∃ s, AttemptInv others front (w.fronted created io) done (some s) ∧ s.batches = [] ∧
      (io.header = .flushed → s.Complete front) := by
  obtain ⟨stem, written, hpart, hall, hfiles⟩ := h.toSegmentsInv.fronted created io
  refine ⟨⟨⟨stem, false, written⟩, []⟩, ⟨hfiles, ?_⟩, rfl, fun hheader => ?_⟩
  · intro s hs
    rcases List.mem_append.mp hs with hdone | hnew
    · exact h.recoverable s (List.mem_append_left _ hdone)
    · rw [List.mem_singleton.mp hnew]
      exact .of_front hpart
  · refine ⟨created, ?_, fun samples hsamples => absurd hsamples List.not_mem_nil⟩
    rw [List.flatMap_nil, List.append_nil]
    exact hall hheader

/-- One more batch in the open segment, or a part of it. -/
theorem AttemptInv.appended {s : Kept} (h : AttemptInv others front w done (some s))
    (hcomplete : s.Complete front) (io : SegmentIo) {samples : List TelemetrySample}
    (hcount : samples.length < 2 ^ 32) :
    ∃ s' kept, AttemptInv others front (w.appended io (encodedBatch samples)) done (some s') ∧
      s'.batches = s.batches ++ kept ∧ (kept = [] ∨ kept = [samples]) ∧
      (io.batch = .flushed → kept = [samples] ∧ s'.Complete front) := by
  obtain ⟨created, hbytes, hcounts⟩ := hcomplete
  obtain ⟨written, hpart, hall, hfiles⟩ := h.toSegmentsInv.appended io (encodedBatch samples)
  have hfile : ∀ s' : Kept, s'.file = { s.file with bytes := s.file.bytes ++ written } →
      Recoverable front s'.file.bytes s'.batches →
      AttemptInv others front (w.appended io (encodedBatch samples)) done (some s') := by
    intro s' hsame hrecoverable
    refine ⟨?_, fun t ht => ?_⟩
    · rw [Option.map_some, hsame]
      exact hfiles
    · rcases List.mem_append.mp ht with hdone | hnew
      · exact h.recoverable t (List.mem_append_left _ hdone)
      · rw [List.mem_singleton.mp hnew]
        exact hrecoverable
  have hcounts' : ∀ batch ∈ s.batches ++ [samples], batch.length < 2 ^ 32 := by
    intro batch hbatch
    rcases List.mem_append.mp hbatch with hold | hnew
    · exact hcounts batch hold
    · rw [List.mem_singleton.mp hnew]
      exact hcount
  by_cases hwhole : written = encodedBatch samples
  · -- the batch is complete, whether or not the write succeeded
    have hnew : s.file.bytes ++ written =
        front created ++ (s.batches ++ [samples]).flatMap encodedBatch := by
      rw [hbytes, hwhole, List.flatMap_append, List.flatMap_singleton, List.append_assoc]
    refine ⟨⟨{ s.file with bytes := s.file.bytes ++ written }, s.batches ++ [samples]⟩, [samples],
      hfile _ rfl ?_, rfl, .inr rfl, fun _ => ⟨rfl, created, hnew, hcounts'⟩⟩
    dsimp only
    rw [hnew]
    exact .of_complete created hcounts'
  · refine ⟨⟨{ s.file with bytes := s.file.bytes ++ written }, s.batches⟩, [], hfile _ rfl ?_,
      (List.append_nil _).symm, .inl rfl, fun hflushed => absurd (hall hflushed) hwhole⟩
    dsimp only
    rw [hbytes, List.append_assoc]
    exact .batches created hcounts ⟨samples, hcount, hpart, hwhole⟩

/-! ## (4) One call -/

/-- What a call leaves between two others: the open segment ends with a complete batch. -/
def Between (others : Files) (front : Int64 → List UInt8) (w : SegmentWriter) (done : List Kept)
    (current : Option Kept) : Prop :=
  AttemptInv others front w done current ∧ ∀ s ∈ current, s.Complete front

/-- Without an open segment the directory lies between nothing and everything written. -/
theorem Between.of_none (h : AttemptInv others front w done none) :
    Between others front w done none :=
  ⟨h, fun s hs => absurd hs (by simp)⟩

/-- **Opening a segment**, however its file operations end. -/
theorem AttemptInv.open_segment (h : AttemptInv others front w done none) (created : Int64)
    (io : SegmentIo) :
    ∃ done' current, Between others front (w.open_segment created io).1 done' current ∧
      keptIn done' current = keptIn done none ∧
      ((w.open_segment created io).2 = .ok () → current.isSome) := by
  cases hcreated : io.created with
  | false =>
      -- only the names of the next segment have been chosen
      obtain ⟨w', what, hopen, hfiles, hcreated', hout, hoptions, htable, -⟩ :=
        open_segment_of_not_created (w := w) hcreated created
      rw [hopen]
      refine ⟨done, none, .of_none ⟨h.of_sameSetup ⟨hoptions, htable⟩ ?_, h.recoverable⟩, rfl,
        fun hok => ?_⟩
      · refine ⟨hcreated'.trans h.files.created, ?_, hout.trans h.files.is_open, ?_⟩
        · rw [hfiles]
          exact h.files.files
        · intro f hf
          cases hf
      · cases hok
  | true =>
      obtain ⟨s, hinv, hempty, hcomplete⟩ := h.fronted created io
      have hsame : keptIn done (some s) = keptIn done none := by simp [keptIn, hempty]
      cases hheader : io.header with
      | flushed =>
          rw [open_segment_of_flushed hcreated hheader created]
          refine ⟨done, some s, ⟨⟨hinv.counted _ _, hinv.recoverable⟩, fun t ht => ?_⟩, hsame,
            fun _ => rfl⟩
          cases ht
          exact hcomplete hheader
      | failed written =>
          -- the part of the front stays behind in a closed segment
          obtain ⟨what, hopen⟩ := open_segment_of_failed (w := w) hcreated hheader created
          obtain ⟨done', hinv', hkept⟩ := hinv.finish_segment io.sealed
          rw [hopen]
          refine ⟨done', none, .of_none hinv', hkept.trans hsame, fun hok => ?_⟩
          cases hok

/-- Making room for a segment loses nothing either. -/
theorem AttemptInv.cleared (h : AttemptInv others front w done current) (io : SegmentIo) :
    ∃ done', AttemptInv others front (w.cleared io) done' none ∧
      keptIn done' none = keptIn done current :=
  h.sealed io.finished (h.toSegmentsInv.cleared io)

/-- **A segment for the batch**, unless that fails. -/
theorem Between.open_for (h : Between others front w done current) (created : Int64)
    (io : SegmentIo) (batch : List UInt8) :
    ∃ done' current', Between others front (w.open_for created io batch).1 done' current' ∧
      keptIn done' current' = keptIn done current ∧
      ((w.open_for created io batch).2 = .ok () → current'.isSome) := by
  rw [open_for_eq]
  split
  · rename_i hroom
    -- there is room: the open segment is kept
    refine ⟨done, current, h, rfl, fun _ => ?_⟩
    have hopen := h.1.files.is_open
    rw [Option.isSome_map] at hopen
    exact hopen.symm.trans hroom.1
  · -- the old segment is finished, and another one may be opened
    obtain ⟨done₁, hinv, hkept⟩ := h.1.cleared io
    obtain ⟨done₂, current', hbetween, hkept', hsome⟩ := hinv.open_segment created io
    exact ⟨done₂, current', hbetween, hkept'.trans hkept, hsome⟩

/-- **Writing a batch** to the open segment, however that ends. -/
theorem AttemptInv.append_batch {s : Kept} (h : AttemptInv others front w done (some s))
    (hcomplete : s.Complete front) (io : SegmentIo) {samples : List TelemetrySample}
    (hcount : samples.length < 2 ^ 32) :
    ∃ done' current' kept,
      Between others front (w.append_batch io (encodedBatch samples)).1 done' current' ∧
      keptIn done' current' = keptIn done (some s) ++ kept ∧
      Survives [(samples, (w.append_batch io (encodedBatch samples)).2.isOk)] kept := by
  obtain ⟨s', kept, hinv, hbatches, hkept, hall⟩ := h.appended hcomplete io hcount
  have hsame : keptIn done (some s') = keptIn done (some s) ++ kept := by
    simp [keptIn, hbatches]
  cases hbatch : io.batch with
  | flushed =>
      obtain ⟨rfl, hcomplete'⟩ := hall hbatch
      rw [append_batch_of_flushed hbatch]
      refine ⟨done, some s', [samples], ⟨⟨hinv.counted _ _, hinv.recoverable⟩, fun t ht => ?_⟩,
        hsame, .kept true .nil⟩
      cases ht
      exact hcomplete'
  | failed written =>
      obtain ⟨what, happend⟩ := append_batch_of_failed (w := w) hbatch (encodedBatch samples)
      obtain ⟨done', hinv', hkept'⟩ := hinv.finish_segment io.sealed
      rw [happend]
      refine ⟨done', none, kept, .of_none hinv', hkept'.trans hsame, ?_⟩
      -- all of the batch may have reached the file before the failure
      obtain rfl | rfl := hkept
      · exact .lost .nil
      · exact .kept false .nil

/-- **One call**: an acknowledged batch has become the last one that can be read, one that was
refused may have. -/
theorem Between.write_batch (h : Between others front w done current) (created : Int64)
    (io : SegmentIo) {samples : List TelemetrySample} (hcount : samples.length < 2 ^ 32) :
    ∃ done' current' kept,
      Between others front (w.write_batch created io (encodedBatch samples)).1 done' current' ∧
      keptIn done' current' = keptIn done current ++ kept ∧
      Survives [(samples, (w.write_batch created io (encodedBatch samples)).2.isOk)] kept := by
  obtain ⟨done₁, current₁, hbetween, hsame, hsome⟩ := h.open_for created io (encodedBatch samples)
  unfold SegmentWriter.write_batch
  rcases hopen : w.open_for created io (encodedBatch samples) with ⟨w₁, what | ⟨⟩⟩
  · -- nothing of the batch has been written
    rw [hopen] at hbetween
    exact ⟨done₁, current₁, [], hbetween, hsame.trans (List.append_nil _).symm, .lost .nil⟩
  · rw [hopen] at hbetween hsome
    obtain ⟨s, rfl⟩ := Option.isSome_iff_exists.mp (hsome rfl)
    obtain ⟨done₂, current₂, kept, hbetween₂, hkept, hsurvives⟩ :=
      hbetween.1.append_batch (hbetween.2 s rfl) io hcount
    exact ⟨done₂, current₂, kept, hbetween₂, hkept.trans (congrArg (· ++ kept) hsame), hsurvives⟩

/-! ## (5) A crash inside a call -/

/-- How far a call has come when the process dies: before its first file operation, behind the
closing of a full segment, inside the front of a new one or inside the batch with so many bytes on
disk, or behind its last file operation. -/
inductive CrashPoint where
  | entered
  | cleared
  | front (written : Nat)
  | batch (written : Nat)
  | returning
  deriving DecidableEq

/-- **The writer at the moment of a crash** inside a call. The file operations before that ended as
`io` says; what had been flushed is there, and of what was being written any part. -/
def crashed (w : SegmentWriter) (created : Int64) (io : SegmentIo) (batch : List UInt8) :
    CrashPoint → SegmentWriter
  | .entered => w
  | .cleared => if w.out_ ∧ ¬ w.full batch then w else w.cleared io
  | .front written =>
      if w.out_ ∧ ¬ w.full batch then w
      else (w.cleared io).fronted created { io with header := .failed written }
  | .batch written =>
      match w.open_for created io batch with
      | (w, .error _) => w
      | (w, .ok ()) => w.appended { io with batch := .failed written } batch
  | .returning => (w.write_batch created io batch).1

/-- **A crash** leaves what can be read, and maybe the batch of the call. -/
theorem Between.crashed (h : Between others front w done current) (created : Int64)
    (io : SegmentIo) {samples : List TelemetrySample} (hcount : samples.length < 2 ^ 32)
    (point : CrashPoint) :
    ∃ done' current' kept,
      AttemptInv others front (w.crashed created io (encodedBatch samples) point) done' current' ∧
      keptIn done' current' = keptIn done current ++ kept ∧ Survives [(samples, false)] kept := by
  have hlost : Survives [(samples, false)] [] := .lost .nil
  have hsame : keptIn done current = keptIn done current ++ [] := (List.append_nil _).symm
  cases point with
  | entered => exact ⟨done, current, [], h.1, hsame, hlost⟩
  | cleared =>
      rw [SegmentWriter.crashed]
      split
      · exact ⟨done, current, [], h.1, hsame, hlost⟩
      · obtain ⟨done₁, hinv, hkept⟩ := h.1.cleared io
        exact ⟨done₁, none, [], hinv, hkept.trans hsame, hlost⟩
  | front written =>
      rw [SegmentWriter.crashed]
      split
      · exact ⟨done, current, [], h.1, hsame, hlost⟩
      · obtain ⟨done₁, hinv, hkept⟩ := h.1.cleared io
        -- a write that the crash cut short leaves what a failed one leaves
        obtain ⟨s, hinv', hempty, -⟩ := hinv.fronted created { io with header := .failed written }
        have hfront : keptIn done₁ (some s) = keptIn done₁ none := by simp [keptIn, hempty]
        exact ⟨done₁, some s, [], hinv', (hfront.trans hkept).trans hsame, hlost⟩
  | batch written =>
      obtain ⟨done₁, current₁, hbetween, hkept, hsome⟩ :=
        h.open_for created io (encodedBatch samples)
      rw [SegmentWriter.crashed]
      rcases hopen : w.open_for created io (encodedBatch samples) with ⟨w₁, what | ⟨⟩⟩
      · rw [hopen] at hbetween
        exact ⟨done₁, current₁, [], hbetween.1, hkept.trans hsame, hlost⟩
      · rw [hopen] at hbetween hsome
        obtain ⟨s, rfl⟩ := Option.isSome_iff_exists.mp (hsome rfl)
        obtain ⟨s', kept, hinv, hbatches, hcases, -⟩ :=
          hbetween.1.appended (hbetween.2 s rfl) { io with batch := .failed written } hcount
        refine ⟨done₁, some s', kept, hinv, ?_, ?_⟩
        · rw [← hkept]
          simp [keptIn, hbatches]
        · obtain rfl | rfl := hcases
          · exact hlost
          · exact .kept false .nil
  | returning =>
      obtain ⟨done', current', kept, hbetween, hkept, hsurvives⟩ :=
        h.write_batch created io hcount
      exact ⟨done', current', kept, hbetween.1, hkept, hsurvives.forget⟩

/-! ## (6) Runs -/

/-- A call of `write_batch`: what the clock shows, how its file operations end, and the batch. -/
structure Attempt where
  created : Int64
  io : SegmentIo
  samples : List TelemetrySample
  deriving DecidableEq

/-- `write_batch` of the samples of an attempt, encoded. -/
def attempt (w : SegmentWriter) (a : Attempt) : SegmentWriter × Except String Unit :=
  w.write_batch a.created a.io (encodedBatch a.samples)

/-- The writer after some calls. -/
def attempted (w : SegmentWriter) (attempts : List Attempt) : SegmentWriter :=
  attempts.foldl (fun w a => (w.attempt a).1) w

/-- The batches of some calls, and whether `write_batch` returned normally. -/
def acknowledged (w : SegmentWriter) : List Attempt → List (List TelemetrySample × Bool)
  | [] => []
  | a :: attempts => (a.samples, (w.attempt a).2.isOk) :: acknowledged (w.attempt a).1 attempts

/-- **A run of calls**, by induction on them. -/
theorem Between.attempted (h : Between others front w done current) {attempts : List Attempt}
    (hcount : ∀ a ∈ attempts, a.samples.length < 2 ^ 32) :
    ∃ done' current' kept, Between others front (w.attempted attempts) done' current' ∧
      keptIn done' current' = keptIn done current ++ kept ∧
      Survives (w.acknowledged attempts) kept := by
  induction attempts generalizing w done current with
  | nil => exact ⟨done, current, [], h, (List.append_nil _).symm, .nil⟩
  | cons a attempts ih =>
      obtain ⟨ha, hrest⟩ := List.forall_mem_cons.mp hcount
      obtain ⟨done₁, current₁, kept₁, h₁, hkept₁, hsurvives₁⟩ := h.write_batch a.created a.io ha
      obtain ⟨done₂, current₂, kept₂, h₂, hkept₂, hsurvives₂⟩ := ih h₁ hrest
      refine ⟨done₂, current₂, kept₁ ++ kept₂, h₂, ?_, hsurvives₁.append hsurvives₂⟩
      rw [hkept₂, hkept₁, List.append_assoc]

/-- The writer at a crash between two calls, or inside one more call. -/
def at_crash (w : SegmentWriter) (attempts : List Attempt) :
    Option (Attempt × CrashPoint) → SegmentWriter
  | none => w.attempted attempts
  | some (a, point) => (w.attempted attempts).crashed a.created a.io (encodedBatch a.samples) point

/-- The batches up to the crash; that of the interrupted call is not acknowledged. -/
def log_at_crash (w : SegmentWriter) (attempts : List Attempt)
    (crash : Option (Attempt × CrashPoint)) : List (List TelemetrySample × Bool) :=
  w.acknowledged attempts ++ (crash.map fun interrupted => (interrupted.1.samples, false)).toList

/-- **Up to a crash**: every file is recoverable, and their batches are those that survive. -/
theorem Between.at_crash (h : Between others front w done current) {attempts : List Attempt}
    {crash : Option (Attempt × CrashPoint)}
    (hcount : ∀ a ∈ attempts ++ (crash.map Prod.fst).toList, a.samples.length < 2 ^ 32) :
    ∃ done' current' kept, AttemptInv others front (w.at_crash attempts crash) done' current' ∧
      keptIn done' current' = keptIn done current ++ kept ∧
      Survives (w.log_at_crash attempts crash) kept := by
  obtain ⟨done₁, current₁, kept₁, h₁, hkept₁, hsurvives₁⟩ :=
    h.attempted fun a ha => hcount a (List.mem_append_left _ ha)
  -- without a crash the attempts are all there is
  rcases crash with none | ⟨a, point⟩
  · refine ⟨done₁, current₁, kept₁, h₁.1, hkept₁, ?_⟩
    rw [log_at_crash, Option.map_none, Option.toList_none, List.append_nil]
    exact hsurvives₁
  · -- the last attempt ends at the crash point
    have ha := hcount a (List.mem_append_right _ List.mem_cons_self)
    obtain ⟨done₂, current₂, kept₂, h₂, hkept₂, hsurvives₂⟩ := h₁.crashed a.created a.io ha point
    refine ⟨done₂, current₂, kept₁ ++ kept₂, h₂, ?_, hsurvives₁.append hsurvives₂⟩
    rw [hkept₂, hkept₁, List.append_assoc]

end SegmentWriter

/-! ## (7) The restart -/

/-- One file of the directory that the constructor goes through. -/
def recover_part (recovered : Files × Nat) (name : String) : Files × Nat :=
  if (kSegmentExtension ++ kPartialSuffix).toList.isSuffixOf name.toList then
    let finished := String.ofList (name.toList.take (name.length - kPartialSuffix.length))
    (recovered.1.rename name finished, recovered.2 + 1)
  else recovered

/-- Recovery goes through the files of the directory one by one. -/
theorem recover_parts_eq (files : Files) :
    recover_parts files = files.keys.foldl recover_part (files, 0) := rfl

/-- A name that is recovered is the partial name of a segment, and its new name the final one. -/
theorem recover_part_cases (recovered : Files × Nat) (name : String) :
    (∃ g : SegFile, name = g.part ∧
        (recover_part recovered name).1 = recovered.1.rename g.part g.final) ∨
      (∀ g : SegFile, name ≠ g.part) ∧ recover_part recovered name = recovered := by
  unfold recover_part
  split
  · -- the name ends in the suffix of partial files: the file gets its final name
    rename_i hsuffix
    obtain ⟨stem, hstem⟩ := List.isSuffixOf_iff_suffix.mp hsuffix
    let g : SegFile := ⟨String.ofList stem, false, []⟩
    have hname : name = g.part := by
      rw [← String.toList_inj, ← hstem, SegFile.part, String.append_assoc]
      conv_rhs => rw [String.toList_append, String.toList_ofList]
    have hfinal : String.ofList (name.toList.take (name.length - kPartialSuffix.length)) =
        g.final := by
      have happend : name = g.final ++ kPartialSuffix := hname
      rw [happend, String.length_append, Nat.add_sub_cancel, String.toList_append,
        ← String.length_toList, List.take_left, String.ofList_toList]
    refine .inl ⟨g, hname, ?_⟩
    dsimp only
    rw [hfinal, ← hname]
  · -- any other file stays
    rename_i hsuffix
    refine .inr ⟨fun g hname => hsuffix ?_, rfl⟩
    have hlist : g.part.toList = g.stem.toList ++ (kSegmentExtension ++ kPartialSuffix).toList := by
      rw [SegFile.part, String.append_assoc]
      exact String.toList_append
    rw [hname, hlist]
    exact List.isSuffixOf_iff_suffix.mpr (List.suffix_append _ _)

/-- A segment file under its final name, alone; or under its partial name, alone. -/
def FinishedIn (files : Files) (f : SegFile) : Prop :=
  files.lookup f.final = some f.bytes ∧ f.part ∉ files

/-- A segment file under its partial name, alone. -/
def PendingIn (files : Files) (f : SegFile) : Prop :=
  files.lookup f.part = some f.bytes ∧ f.final ∉ files

/-- A finished segment stays finished. -/
theorem FinishedIn.recover_part {recovered : Files × Nat} {f : SegFile}
    (h : FinishedIn recovered.1 f) (name : String) :
    FinishedIn (recover_part recovered name).1 f := by
  rcases recover_part_cases recovered name with ⟨g, -, hrename⟩ | ⟨-, hsame⟩
  · rw [hrename]
    by_cases hstem : g.stem = f.stem
    · -- there is no file with the partial name
      have hpart : g.part = f.part := by rw [SegFile.part, SegFile.part, hstem]
      have hnone : recovered.1.lookup g.part = none := by
        rw [hpart]
        exact AList.lookup_eq_none.mpr h.2
      rw [Files.rename, hnone]
      exact h
    · -- another segment has other names
      have hne : f.part ≠ g.part := fun heq => hstem (SegFile.stem_of_part heq).symm
      have hne' : f.final ≠ g.final := fun heq => hstem (SegFile.stem_of_final heq).symm
      refine ⟨?_, ?_⟩
      · rw [Files.lookup_rename_of_ne (SegFile.final_ne_part f g) hne']
        exact h.1
      · rw [← AList.lookup_eq_none, Files.lookup_rename_of_ne hne (SegFile.final_ne_part g f).symm,
          AList.lookup_eq_none]
        exact h.2
  · rw [hsame]
    exact h

/-- A segment with a partial name is finished when its turn comes. -/
theorem PendingIn.recover_part {recovered : Files × Nat} {f : SegFile}
    (h : PendingIn recovered.1 f) (name : String) :
    FinishedIn (recover_part recovered name).1 f ∨
      name ≠ f.part ∧ PendingIn (recover_part recovered name).1 f := by
  rcases recover_part_cases recovered name with ⟨g, hname, hrename⟩ | ⟨hother, hsame⟩
  · rw [hrename]
    by_cases hstem : g.stem = f.stem
    · have hpart : g.part = f.part := by rw [SegFile.part, SegFile.part, hstem]
      have hfinal : g.final = f.final := by rw [SegFile.final, SegFile.final, hstem]
      -- its turn has come
      left
      rw [hpart, hfinal, Files.rename, h.1]
      refine ⟨AList.lookup_insert _, ?_⟩
      rw [← AList.lookup_eq_none, AList.lookup_insert_ne (SegFile.final_ne_part f f).symm,
        AList.lookup_erase]
    · have hne : f.part ≠ g.part := fun heq => hstem (SegFile.stem_of_part heq).symm
      have hne' : f.final ≠ g.final := fun heq => hstem (SegFile.stem_of_final heq).symm
      refine .inr ⟨hname ▸ hne.symm, ?_, ?_⟩
      · rw [Files.lookup_rename_of_ne hne (SegFile.final_ne_part g f).symm]
        exact h.1
      · rw [← AList.lookup_eq_none, Files.lookup_rename_of_ne (SegFile.final_ne_part f g) hne',
          AList.lookup_eq_none]
        exact h.2
  · rw [hsame]
    exact .inr ⟨hother f, h⟩

/-- **The constructor finishes every segment**, by induction on the names that it goes through. -/
theorem finishedIn_foldl_recover_part {names : List String} {recovered : Files × Nat} {f : SegFile}
    (h : FinishedIn recovered.1 f ∨ PendingIn recovered.1 f ∧ f.part ∈ names) :
    FinishedIn (names.foldl recover_part recovered).1 f := by
  -- a pending segment is among the names that are still to come
  induction names generalizing recovered with
  | nil => exact h.resolve_right fun hpending => absurd hpending.2 List.not_mem_nil
  | cons name rest ih =>
      apply ih
      rcases h with hfinished | ⟨hpending, hmem⟩
      · exact .inl (hfinished.recover_part name)
      · rcases hpending.recover_part name with hfinished | ⟨hne, hpending'⟩
        · exact .inl hfinished
        · exact .inr ⟨hpending', (List.mem_cons.mp hmem).resolve_left hne.symm⟩

/-- A recovered file was there, or its partial name was. -/
theorem mem_foldl_recover_part {names : List String} {recovered : Files × Nat} {name : String}
    (h : name ∈ (names.foldl recover_part recovered).1) :
    name ∈ recovered.1 ∨ name ++ kPartialSuffix ∈ names := by
  induction names generalizing recovered with
  | nil => exact .inl h
  | cons first rest ih =>
      rcases ih h with hmem | hmem
      · rcases recover_part_cases recovered first with ⟨g, rfl, hrename⟩ | ⟨-, hsame⟩
        · by_cases hfinal : name = g.final
          · rw [hfinal]
            exact .inr List.mem_cons_self
          · -- only the new name can be a new one
            left
            rw [hrename, Files.rename] at hmem
            split at hmem
            · exact hmem
            · rw [AList.mem_insert, AList.mem_erase] at hmem
              exact (hmem.resolve_left hfinal).2
        · rw [hsame] at hmem
          exact .inl hmem
      · exact .inr (List.mem_cons_of_mem _ hmem)

/-- **Segment files after a restart** have their final names. -/
theorem DirectoryOf.finishedIn_recover_parts {others files : Files} {segs : List SegFile}
    (h : DirectoryOf others files segs) {f : SegFile} (hf : f ∈ segs) :
    FinishedIn (recover_parts files).1 f := by
  rw [recover_parts_eq]
  apply finishedIn_foldl_recover_part
  have hlookup := h.lookup f hf
  cases hfinished : f.finished with
  -- a finished segment is no partial file, and none has its stem
  | true =>
      rw [SegFile.name_of_finished hfinished] at hlookup
      refine .inl ⟨hlookup, ?_⟩
      rw [← AList.lookup_eq_none, h.rest f.part fun g hg heq => ?_, AList.lookup_eq_none]
      · exact (h.fresh f hf).2
      · have hstem := SegFile.stem_of_part_eq_name heq
        have hfg : f = g := List.inj_on_of_nodup_map h.stems hf hg hstem
        rw [← hfg, SegFile.name_of_finished hfinished] at heq
        exact SegFile.final_ne_part f f heq.symm
  -- an open one is renamed
  | false =>
      rw [SegFile.name_of_open hfinished] at hlookup
      refine .inr ⟨⟨hlookup, h.final_not_mem hf hfinished⟩, ?_⟩
      exact AList.lookup_isSome.mp (by rw [hlookup]; rfl)

/-- **The segments of a directory after a restart**: a finished file is one of them, or it was there
before, under one of its names. -/
theorem DirectoryOf.mem_finals_iff {others files : Files} {segs : List SegFile}
    (h : DirectoryOf others files segs) (name : String) :
    name ∈ segs.map SegFile.final ↔ SegmentWriter.is_ipseg name ∧ name ∈ (recover_parts files).1 ∧
      name ∉ others ∧ name ++ kPartialSuffix ∉ others := by
  constructor
  · intro hmem
    obtain ⟨f, hf, rfl⟩ := List.mem_map.mp hmem
    refine ⟨SegmentWriter.is_ipseg_final f, ?_, h.fresh f hf⟩
    exact AList.lookup_isSome.mp (by rw [(h.finishedIn_recover_parts hf).1]; rfl)
  · rintro ⟨hname, hmem, hfinal, hpart⟩
    -- a file that is not one of the others is a segment, under one of its names
    have hseg : ∀ file, file ∈ files → file ∉ others → ∃ f ∈ segs, file = f.name := by
      intro file hfile hnew
      by_contra hnone
      have hrest := h.rest file fun f hf heq => hnone ⟨f, hf, heq⟩
      rw [AList.lookup_eq_none.mpr hnew, AList.lookup_eq_none] at hrest
      exact hrest hfile
    rw [recover_parts_eq] at hmem
    rcases mem_foldl_recover_part hmem with hold | hrenamed
    · obtain ⟨f, hf, heq⟩ := hseg name hold hfinal
      cases hfinished : f.finished with
      | true =>
          rw [heq, SegFile.name_of_finished hfinished]
          exact List.mem_map_of_mem hf
      | false =>
          rw [heq, SegFile.name_of_open hfinished] at hname
          exact absurd hname (SegmentWriter.not_is_ipseg_part f)
    · -- its partial name was that of a segment, whose final name it is
      obtain ⟨f, hf, heq⟩ := hseg _ hrenamed hpart
      obtain ⟨stem, hstem⟩ := hname
      let g : SegFile := ⟨String.ofList stem, false, []⟩
      have hg : name = g.final := by
        rw [← String.toList_inj, ← hstem, SegFile.final]
        conv_rhs => rw [String.toList_append, String.toList_ofList]
      rw [hg] at heq
      have hsame : g.stem = f.stem := SegFile.stem_of_part_eq_name heq
      rw [hg, SegFile.final, hsame]
      exact List.mem_map_of_mem hf

/-! ## (8) Acknowledged batches -/

/-- The batches that the reader delivers from some files, in order. -/
def deliveredFrom (json : JsonLibrary) (directory : String) (files : Files)
    (names : List String) : List (List TelemetrySample) :=
  names.flatMap fun name =>
    (read_segment json (path_text directory name) (files.lookup name)).delivered.map
      Delivery.samples

namespace SegmentWriter

/-- **Acknowledged batches survive**: whatever the directory held, however the file operations of
any calls ended and wherever the process died, a new writer on the directory leaves finished
segments which are, beside older ones, those that had been created, and in this order the reader
delivers what was acknowledged. -/
def Durable (json : JsonLibrary) (tags : List TagInfo) : Prop :=
  ∀ (options options' : SegmentWriterOptions), options.max_total_bytes = 0 →
    options'.max_total_bytes = 0 →
    ∀ (files : Files) (attempts : List Attempt) (crash : Option (Attempt × CrashPoint))
      (tags' : List TagInfo),
      (∀ a ∈ attempts ++ (crash.map Prod.fst).toList, a.samples.length < 2 ^ 32) →
      let first := make json options tags files
      let dead := first.at_crash attempts crash
      let restarted := make json options' tags' dead.files
      (∀ name, name ∈ dead.created ↔ is_ipseg name ∧ name ∈ restarted.files ∧
        name ∉ first.files ∧ name ++ kPartialSuffix ∉ first.files) ∧
      dead.created.Nodup ∧
      Survives (first.log_at_crash attempts crash)
        (deliveredFrom json options'.directory restarted.files dead.created)

/-- Without a limit the constructor only recovers what an earlier writer left. -/
theorem files_make (json : JsonLibrary) {options : SegmentWriterOptions}
    (hlimit : options.max_total_bytes = 0) (tags : List TagInfo) (files : Files) :
    (make json options tags files).files = (recover_parts files).1 := by
  unfold make
  dsimp only
  rw [enforce_total_limit_of_unlimited hlimit]

/-- A new writer. -/
theorem between_make (json : JsonLibrary) {options : SegmentWriterOptions}
    (hlimit : options.max_total_bytes = 0) (tags : List TagInfo) (files : Files) :
    Between (make json options tags files).files (make json options tags files).prefixBytes
      (make json options tags files) [] none := by
  exact .of_none ⟨segmentsInv_make json hlimit tags files,
    fun s hs => absurd hs List.not_mem_nil⟩

variable {json : JsonLibrary} {tags : List TagInfo}

/-- With a table that fits, the invariant at the crash says what is read after the restart. -/
theorem durable_of_fits (hsize : (encode_tag_table json tags).length < 2 ^ 32)
    (hparse : json.parse (encode_tag_table json tags) = .ok (tag_table tags)) :
    Durable json tags := by
  intro options options' hlimit hlimit' files attempts crash tags' hcount first dead restarted
  obtain ⟨done, current, kept, hinv, hkept, hsurvives⟩ :=
    (between_make json hlimit tags files).at_crash hcount
  have htable : first.tag_table_ = encode_tag_table json tags := tag_table_make ..
  have hfront : ∀ created, SegmentFront json (first.prefixBytes created) tags created :=
    segmentFront_prefixBytes htable (by rw [htable]; exact hsize) hparse
  have hdirectory :
      DirectoryOf first.files dead.files ((done ++ current.toList).map Kept.file) := by
    have hfiles := hinv.files.files
    rw [List.map_append]
    cases current with
    | none => exact hfiles
    | some s => exact hfiles
  have hcreated : dead.created = ((done ++ current.toList).map Kept.file).map SegFile.final := by
    have hnames := hinv.files.created
    rw [List.map_append]
    cases current with
    | none => exact hnames
    | some s => exact hnames
  have hrestarted : restarted.files = (recover_parts dead.files).1 := files_make json hlimit' ..
  refine ⟨fun name => ?_, ?_, ?_⟩
  · rw [hcreated, hrestarted]
    exact hdirectory.mem_finals_iff name
  · rw [hcreated]
    exact hdirectory.finals_nodup
  · have hdelivered :
        deliveredFrom json options'.directory restarted.files dead.created = kept := by
      rw [deliveredFrom, hcreated, List.map_map, List.flatMap_map,
        show kept = keptIn done current from hkept.symm, keptIn]
      -- file by file: its bytes are under the final name, and recoverable
      refine List.flatMap_congr fun s hs => ?_
      have hfinished := hdirectory.finishedIn_recover_parts (List.mem_map_of_mem hs)
      rw [hrestarted, Function.comp_apply, hfinished.1]
      exact (hinv.recoverable s hs).delivered hfront _
    rw [hdelivered]
    exact hsurvives

/-- A batch without samples, written without any failure. -/
def emptyAttempt : Attempt := { created := 0, io := {}, samples := [] }

/-- **With an oversized tag table an acknowledged batch is lost.** -/
theorem not_durable_of_large_table (hsize : 2 ^ 32 ≤ (encode_tag_table json tags).length)
    (hpart : ∀ text, text <+: encode_tag_table json tags → text ≠ encode_tag_table json tags →
      ∃ what, json.parse text = .error what) : ¬ Durable json tags := by
  intro hall
  have hlimit : ({} : SegmentWriterOptions).max_total_bytes = 0 := rfl
  obtain ⟨-, -, hsurvives⟩ := hall {} {} hlimit hlimit ∅ [emptyAttempt] none [] (by decide)
  have htable : (make json {} tags ∅).tag_table_ = encode_tag_table json tags := tag_table_make ..
  set first := make json {} tags ∅
  have hstart : WriterInv first.files first.prefixBytes first [] none :=
    segmentsInv_make json hlimit tags ∅
  obtain ⟨w', done, s, hwrite, hinv, -⟩ := hstart.write_batch 0 (encodedBatch [])
  have hdead : first.at_crash [emptyAttempt] none = w' := congrArg Prod.fst hwrite
  have hlog : first.log_at_crash [emptyAttempt] none = [([], true)] :=
    congrArg (fun outcome : SegmentWriter × Except String Unit => [([], outcome.2.isOk)]) hwrite
  -- every segment has the unreadable front
  have hnothing : deliveredFrom json "export" (make json {} [] w'.files).files w'.created = [] := by
    rw [deliveredFrom, hinv.files.created, files_make json hlimit, List.flatMap_map,
      List.flatMap_eq_nil_iff]
    intro f hf
    rw [(hinv.files.files.finishedIn_recover_parts hf).1]
    obtain ⟨seg, hbytes⟩ : ∃ seg : Written,
        f.bytes = first.segmentBytes seg.created seg.batches := by
      rcases List.mem_append.mp hf with hdone | hopen
      · obtain ⟨seg, -, rfl⟩ := List.mem_map.mp hdone
        exact ⟨seg, rfl⟩
      · exact ⟨s, by rw [List.mem_singleton.mp hopen]; rfl⟩
    rw [hbytes, read_segment_of_large_table (by rw [htable]; exact hsize)
      (by rw [htable]; exact hpart)]
    rfl
  rw [hdead, hlog, hnothing] at hsurvives
  cases hsurvives

/-- **When acknowledged batches survive.** For every list of tags, acknowledged batches survive I/O
errors and crashes if and only if the encoded tag table has fewer than `2 ^ 32` bytes. The JSON
library's parser undoes `dump` on the tag table and refuses a part of it. -/
theorem durable_iff (json : JsonLibrary) (tags : List TagInfo)
    (hparse : json.parse (encode_tag_table json tags) = .ok (tag_table tags))
    (hpart : ∀ text, text <+: encode_tag_table json tags → text ≠ encode_tag_table json tags →
      ∃ what, json.parse text = .error what) :
    Durable json tags ↔ (encode_tag_table json tags).length < 2 ^ 32 := by
  constructor
  · intro hall
    by_contra hsize
    exact not_durable_of_large_table (Nat.not_lt.mp hsize) hpart hall
  · intro hsize
    exact durable_of_fits hsize hparse

/-- Acknowledged batches survive with the tags of one sensor. -/
theorem durable_oneTag :
    Durable (tableLibrary [{ id := 1, sensor_id := "a" }]) [{ id := 1, sensor_id := "a" }] :=
  (durable_iff _ _ (parse_tableLibrary _) fun _ _ hne => parse_tableLibrary_of_ne hne).mpr
    (by decide +kernel)

/-- A name of `2 ^ 32` characters makes the tag table too large. -/
theorem not_durable_of_long_name :
    ¬ ∀ (json : JsonLibrary) (tags : List TagInfo),
      json.parse (encode_tag_table json tags) = .ok (tag_table tags) → Durable json tags := by
  intro hall
  have hlost : ∀ tag : TagInfo, 2 ^ 32 ≤ tag.name.length →
      ¬ Durable (tableLibrary [tag]) [tag] := by
    intro tag hlong
    apply not_durable_of_large_table
    · exact hlong.trans (length_name_le_length_encode_tag_table _ tag)
    · exact fun _ _ hne => parse_tableLibrary_of_ne hne
  let name := String.ofList (List.replicate (2 ^ 32) 'a')
  refine hlost { id := 1, sensor_id := "a", name := name } ?_ (hall _ _ (parse_tableLibrary _))
  rw [String.length_ofList, List.length_replicate]

end SegmentWriter

end Ironpulse.Ingest
