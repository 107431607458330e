import Ironpulse.Core.ConfigRanges
import Ironpulse.Ingest.ExporterInvariant

/-! # The budget of the export directory

`max_total_bytes` limits the finished segments and the one being written together. Before it creates
a segment the writer deletes old ones until a whole segment fits beside the others, so that the
directory stays within the limit as long as no segment outgrows `max_segment_bytes`.

* **`diskBytes`**: what the limit counts.
* **`BudgetInv`**: room for a whole segment is reserved while one is open.
* **`diskBytes_make_le_iff`**: the constructor keeps the limit exactly if its 64-bit total is right.
* **`keepsBudget_iff`**: a loaded configuration keeps its budget exactly if the front of a segment
  and one full batch fit in a segment. -/

namespace Ironpulse.Ingest

open Core Storage

namespace SegmentWriter

variable {w : SegmentWriter}

/-! ## (1) What the limit counts -/

/-- **What the limit is about**: the finished segments and the one being written. -/
def diskBytes (w : SegmentWriter) : Nat :=
  finishedBytes w.files + if w.out_ then (w.files.content w.partial_path_).length else 0

/-! ## (2) Room for a whole segment -/

/-- **The budget of a writer**: while a segment is open, a whole one fits beside the finished ones,
and the open one is not larger. -/
structure BudgetInv (options : SegmentWriterOptions) (table : List UInt8) (w : SegmentWriter) :
    Prop where
  same_options : w.options_ = options
  same_table : w.tag_table_ = table
  reserved : finishedBytes w.files + (if w.out_ then options.max_segment_bytes.toNat else 0) ≤
    options.max_total_bytes.toNat
  opened : w.out_ = true → is_finished_segment w.partial_path_ = false ∧
    (w.files.content w.partial_path_).length = w.segment_bytes_ ∧
      w.segment_bytes_ ≤ options.max_segment_bytes.toNat
  closed : w.out_ = false → w.segment_bytes_ = 0

variable {options : SegmentWriterOptions} {table : List UInt8}

/-- The invariant keeps the limit. -/
theorem BudgetInv.diskBytes_le (h : BudgetInv options table w) :
    w.diskBytes ≤ options.max_total_bytes.toNat := by
  have hreserved := h.reserved
  unfold diskBytes
  split
  · rename_i hout
    obtain ⟨-, hlength, hle⟩ := h.opened hout
    rw [if_pos hout] at hreserved
    omega
  · rename_i hout
    rwa [if_neg hout] at hreserved

/-- Closing the open segment turns the reserve into a finished one. -/
theorem BudgetInv.finish_segment (h : BudgetInv options table w) :
    BudgetInv options table (w.finish_segment true) ∧ (w.finish_segment true).out_ = false := by
  unfold SegmentWriter.finish_segment
  split
  · rename_i hout
    obtain ⟨-, hlength, hle⟩ := h.opened hout
    have hreserved := h.reserved
    -- a rename replaces a file of the final name, so the sum cannot grow
    have hrename := finishedBytes_rename_le w.files w.partial_path_ w.final_path_
    rw [if_pos hout] at hreserved
    refine ⟨⟨h.same_options, h.same_table, ?_, fun hopen => absurd hopen Bool.false_ne_true,
      fun _ => rfl⟩, rfl⟩
    dsimp only
    rw [if_pos rfl, if_neg Bool.false_ne_true]
    omega
  · rename_i hout
    exact ⟨h, Bool.eq_false_iff.mpr hout⟩

/-- A segment that is being written has no final name. -/
theorem not_is_finished_segment_partial_name (created : Int64) (sequence : Nat) :
    is_finished_segment (partial_name created sequence) = false := by
  have hname : partial_name created sequence = String.ofList
      ((segment_stem created sequence ++ kSegmentExtension).toList ++ '.' :: "part".toList) := by
    rw [partial_name, final_name, ← String.toList_inj, String.toList_append, String.toList_ofList]
    rfl
  have hstem : (segment_stem created sequence ++ kSegmentExtension).toList ≠ [] := by
    rw [String.toList_append]
    exact List.append_ne_nil_of_right_ne_nil _ (by decide)
  rw [is_finished_segment, hname, extension_append hstem (by decide) (by decide),
    Bool.and_eq_false_iff]
  exact .inr (by decide)

/-- Flushing to a segment without its final name: the file grows, the finished ones do not. -/
theorem finishedBytes_flushed (h : is_finished_segment w.partial_path_ = false)
    (bytes : List UInt8) :
    finishedBytes (w.flushed .flushed bytes) = finishedBytes w.files ∧
      Files.content (w.flushed .flushed bytes) w.partial_path_ =
        w.files.content w.partial_path_ ++ bytes :=
  ⟨finishedBytes_insert_of_not h _, Files.content_insert _ _ _⟩

/-- The new file, empty and then with the front of the segment. -/
theorem diskBytes_fronted (w : SegmentWriter) (created : Int64) :
    (w.begun created).diskBytes = finishedBytes w.files ∧
      finishedBytes (w.fronted created {}).files = finishedBytes w.files ∧
      Files.content (w.fronted created {}).files (w.fronted created {}).partial_path_ =
        w.prefixBytes created := by
  have hname : is_finished_segment (w.begun created).partial_path_ = false :=
    not_is_finished_segment_partial_name _ _
  have hbegun : finishedBytes (w.begun created).files = finishedBytes w.files :=
    finishedBytes_insert_of_not hname []
  have hempty : (w.begun created).files.content (w.begun created).partial_path_ = [] :=
    -- only the partial file has grown, and the budget counts it by `segment_bytes_`
    Files.content_insert _ _ _
  obtain ⟨hsame, hgrown⟩ := finishedBytes_flushed hname (w.prefixBytes created)
  rw [hempty, List.nil_append] at hgrown
  refine ⟨?_, hsame.trans hbegun, hgrown⟩
  rw [diskBytes, hbegun, hempty, List.length_nil, ite_self, Nat.add_zero]

/-- **Making room for a segment**: a whole one fits beside what is left. -/
theorem BudgetInv.enforce_total_limit (h : BudgetInv options table w) (hout : w.out_ = false)
    (hlimit : options.max_total_bytes ≠ 0)
    (hroom : options.max_segment_bytes.toNat ≤ options.max_total_bytes.toNat)
    (hsum : options.max_total_bytes.toNat + options.max_segment_bytes.toNat < 2 ^ 64) :
    BudgetInv options table (w.enforce_total_limit options.max_segment_bytes) ∧
      (w.enforce_total_limit options.max_segment_bytes).out_ = false ∧
      finishedBytes (w.enforce_total_limit options.max_segment_bytes).files +
        options.max_segment_bytes.toNat ≤ options.max_total_bytes.toNat := by
  have hclosed := h.closed hout
  have hreserved := h.reserved
  rw [if_neg (by rw [hout]; decide), Nat.add_zero] at hreserved
  -- what is there is within the limit, so that the sum cannot wrap
  have hmade : w.segment_bytes_ +
      finishedBytes (w.enforce_total_limit options.max_segment_bytes).files +
        options.max_segment_bytes.toNat ≤ options.max_total_bytes.toNat := by
    rw [← h.same_options] at hlimit hroom hsum hreserved ⊢
    apply finishedBytes_enforce_total_limit hlimit
    · omega
    · omega
  rw [hclosed, Nat.zero_add] at hmade
  obtain ⟨files, deleted, heq⟩ := enforce_total_limit_eq w options.max_segment_bytes
  rw [heq] at hmade ⊢
  refine ⟨⟨h.same_options, h.same_table, ?_, fun hopen => ?_, fun _ => hclosed⟩, hout, hmade⟩
  · rw [if_neg (by rw [hout]; decide)]
    exact (Nat.le_add_right _ _).trans hmade
  · exact absurd (hout.symm.trans hopen) Bool.false_ne_true

/-- **A new segment** takes the room that was made for it. -/
theorem BudgetInv.open_segment (h : BudgetInv options table w)
    (hreserved : finishedBytes w.files + options.max_segment_bytes.toNat ≤
      options.max_total_bytes.toNat)
    (hfront : align8 (32 + table.length) ≤ options.max_segment_bytes.toNat) (created : Int64) :
    ∃ w', w.open_segment created {} = (w', .ok ()) ∧ BudgetInv options table w' ∧
      w'.out_ = true ∧ w'.segment_bytes_ = align8 (32 + table.length) := by
  obtain ⟨-, hsame, hcontent⟩ := diskBytes_fronted w created
  -- what is written first is the header and the table, padded
  have hlength : (w.prefixBytes created).length = align8 (32 + table.length) := by
    rw [w.length_prefixBytes, h.same_table]
  refine ⟨_, open_segment_of_flushed rfl rfl created, ⟨h.same_options, h.same_table, ?_,
    fun _ => ⟨not_is_finished_segment_partial_name _ _, ?_, ?_⟩, fun hout => ?_⟩, rfl, hlength⟩
  · show finishedBytes (w.fronted created {}).files + (if true = true then _ else 0) ≤ _
    rw [if_pos rfl, hsame]
    exact hreserved
  · exact congrArg List.length hcontent
  · dsimp only
    rw [hlength]
    exact hfront
  · cases hout

/-- **A batch that fits** keeps the segment within its size. -/
theorem BudgetInv.append_batch (h : BudgetInv options table w) (hout : w.out_ = true)
    {batch : List UInt8}
    (hfits : w.segment_bytes_ + batch.length ≤ options.max_segment_bytes.toNat) :
    ∃ w', w.append_batch {} batch = (w', .ok ()) ∧ BudgetInv options table w' := by
  obtain ⟨hname, hlength, -⟩ := h.opened hout
  obtain ⟨hsame, hgrown⟩ := finishedBytes_flushed hname batch
  refine ⟨_, append_batch_of_flushed rfl batch, ⟨h.same_options, h.same_table, ?_,
    fun _ => ⟨hname, ?_, hfits⟩, fun hclosed => absurd (hclosed.symm.trans hout) (by decide)⟩⟩
  · have hreserved := h.reserved
    rwa [← hsame] at hreserved
  · have hcontent := congrArg List.length hgrown
    rw [List.length_append, hlength] at hcontent
    exact hcontent

/-! ## (3) Runs within the budget -/

/-- **Options that suit the batches**: the limit has room for a segment, a segment has room for its
front and one batch of so many bytes, and the two limits add up in 64 bits. -/
structure Suits (options : SegmentWriterOptions) (table : List UInt8) (batch_bytes : Nat) :
    Prop where
  limited : options.max_total_bytes ≠ 0
  room : options.max_segment_bytes.toNat ≤ options.max_total_bytes.toNat
  sum : options.max_total_bytes.toNat + options.max_segment_bytes.toNat < 2 ^ 64
  batch : align8 (32 + table.length) + batch_bytes ≤ options.max_segment_bytes.toNat

variable {batch_bytes : Nat}

/-- **Opening a segment**, and the states on the way. -/
theorem BudgetInv.cleared (h : BudgetInv options table w) (hsuits : Suits options table batch_bytes)
    (created : Int64) :
    ∃ w', (w.cleared {}).open_segment created {} = (w', .ok ()) ∧ BudgetInv options table w' ∧
      w'.out_ = true ∧ w'.segment_bytes_ = align8 (32 + table.length) ∧
      ∀ s ∈ [w.finish_segment true, w.cleared {}, (w.cleared {}).begun created,
        (w.cleared {}).fronted created {}], s.diskBytes ≤ options.max_total_bytes.toNat := by
  obtain ⟨hfinish, hclosed⟩ := h.finish_segment
  obtain ⟨hinv, -, hreserved⟩ :=
    hfinish.enforce_total_limit hclosed hsuits.limited hsuits.room hsuits.sum
  have hcleared : w.cleared {} =
      (w.finish_segment true).enforce_total_limit options.max_segment_bytes := by
    rw [SegmentWriter.cleared, h.same_options]
  rw [hcleared]
  obtain ⟨w', hopen, hinv', hout', hbytes⟩ :=
    hinv.open_segment hreserved ((Nat.le_add_right _ _).trans hsuits.batch) created
  refine ⟨w', hopen, hinv', hout', hbytes, ?_⟩
  set limited := (w.finish_segment true).enforce_total_limit options.max_segment_bytes
  obtain ⟨hbegun, hsame, hcontent⟩ := diskBytes_fronted limited created
  intro s hs
  simp only [List.mem_cons, List.not_mem_nil, or_false] at hs
  obtain rfl | rfl | rfl | rfl := hs
  · exact hfinish.diskBytes_le
  · exact hinv.diskBytes_le
  · -- the new file is empty
    rw [hbegun]
    omega
  · -- the front is within the reserve
    have hlength : (limited.prefixBytes created).length = align8 (32 + table.length) := by
      rw [limited.length_prefixBytes, hinv.same_table]
    have hfront := (Nat.le_add_right _ _).trans hsuits.batch
    rw [diskBytes, hsame, hcontent, hlength]
    split
    · omega
    · omega

/-- A batch of a call has at most so many bytes. -/
def WriterCall.AtMost (batch_bytes : Nat) : WriterCall → Prop
  | .write_batch _ samples => (encodedBatch samples).length ≤ batch_bytes
  | .close => True

/-- **One more batch** keeps the budget in every state. -/
theorem BudgetInv.write_batch (h : BudgetInv options table w)
    (hsuits : Suits options table batch_bytes) (created : Int64) {batch : List UInt8}
    (hbatch : batch.length ≤ batch_bytes) :
    BudgetInv options table (w.write_batch created {} batch).1 ∧
      ∀ s ∈ w.write_batch_states created batch, s.diskBytes ≤ options.max_total_bytes.toNat := by
  have hfits := hsuits.batch
  unfold write_batch_states SegmentWriter.write_batch
  rw [open_for_eq]
  by_cases hroom : w.out_ ∧ ¬ w.full batch
  · -- the rotation test says that the batch fits
    have hle : w.segment_bytes_ + batch.length ≤ options.max_segment_bytes.toNat := by
      rw [← h.same_options]
      exact Nat.not_lt.mp hroom.2
    obtain ⟨w', happend, hinv⟩ := h.append_batch hroom.1 hle
    rw [if_pos hroom, if_pos hroom]
    dsimp only
    rw [happend]
    exact ⟨hinv, fun s hs => by rw [List.mem_singleton.mp hs]; exact hinv.diskBytes_le⟩
  · -- behind a new front it fits by assumption
    obtain ⟨w', hopen, hinv, hout, hbytes, hstates⟩ := h.cleared hsuits created
    have hle : w'.segment_bytes_ + batch.length ≤ options.max_segment_bytes.toNat := by omega
    obtain ⟨w'', happend, hinv'⟩ := hinv.append_batch hout hle
    rw [if_neg hroom, if_neg hroom, hopen]
    dsimp only
    rw [happend]
    refine ⟨hinv', fun s hs => ?_⟩
    rcases List.mem_append.mp hs with hs | hs
    · exact hstates s hs
    · rw [List.mem_singleton.mp hs]
      exact hinv'.diskBytes_le

/-- **One more call** keeps the budget in every state. -/
theorem BudgetInv.after (h : BudgetInv options table w) (hsuits : Suits options table batch_bytes)
    {call : WriterCall} (hcall : call.AtMost batch_bytes) :
    BudgetInv options table (w.after call) ∧
      ∀ s ∈ w.call_states call, s.diskBytes ≤ options.max_total_bytes.toNat := by
  cases call with
  | write_batch created samples => exact h.write_batch hsuits created hcall
  | close =>
      obtain ⟨hinv, -⟩ := h.finish_segment
      exact ⟨hinv, fun s hs => by rw [List.mem_singleton.mp hs]; exact hinv.diskBytes_le⟩

/-- **A whole run** keeps the budget in every state, by induction on its calls. -/
theorem BudgetInv.run (h : BudgetInv options table w) (hsuits : Suits options table batch_bytes)
    {calls : List WriterCall} (hcalls : ∀ call ∈ calls, call.AtMost batch_bytes) :
    ∀ s ∈ w :: w.run_states calls, s.diskBytes ≤ options.max_total_bytes.toNat := by
  refine List.forall_mem_cons.mpr ⟨h.diskBytes_le, ?_⟩
  induction calls generalizing w with
  | nil =>
      intro s hs
      cases hs
  | cons call calls ih =>
      obtain ⟨hcall, hrest⟩ := List.forall_mem_cons.mp hcalls
      obtain ⟨hinv, hstates⟩ := h.after hsuits hcall
      intro s hs
      rw [run_states, List.mem_append] at hs
      obtain hs | hs := hs
      · exact hstates s hs
      · exact ih hinv hrest s hs

/-- The constructor only changes the directory: it finishes the partial segments, then it applies the
limit. -/
theorem make_eq (json : JsonLibrary) (options : SegmentWriterOptions) (tags : List TagInfo)
    (files : Files) :
    ∃ left recovered deleted, make json options tags files =
      { options_ := options, tag_table_ := encode_tag_table json tags, recovered_ := recovered
        segments_deleted_ := deleted, files := left } := by
  unfold make
  obtain ⟨left, deleted, heq⟩ := enforce_total_limit_eq
    { options_ := options, tag_table_ := encode_tag_table json tags
      recovered_ := (recover_parts files).2, files := (recover_parts files).1 } 0
  exact ⟨left, _, deleted, heq⟩

/-- **When the constructor keeps the limit**: exactly if the 64-bit total of the directory is right. -/
theorem diskBytes_make_le_iff (json : JsonLibrary) (hlimit : options.max_total_bytes ≠ 0)
    (tags : List TagInfo) (files : Files) :
    (make json options tags files).diskBytes ≤ options.max_total_bytes.toNat ↔
      CountsRight options.max_total_bytes (recover_parts files).1 := by
  have hcounts := @finishedBytes_enforce_total_limit_le_iff
    { options_ := options, tag_table_ := encode_tag_table json tags
      recovered_ := (recover_parts files).2, files := (recover_parts files).1 } hlimit rfl
  have hdisk : (make json options tags files).diskBytes =
      finishedBytes (make json options tags files).files := by
    obtain ⟨left, recovered, deleted, heq⟩ := make_eq json options tags files
    rw [heq, diskBytes, if_neg Bool.false_ne_true, Nat.add_zero]
  rw [hdisk]
  exact hcounts

/-- The constructor applies the limit right away. -/
theorem budgetInv_make (json : JsonLibrary) (hlimit : options.max_total_bytes ≠ 0)
    (tags : List TagInfo) {files : Files}
    (hcounts : CountsRight options.max_total_bytes (recover_parts files).1) :
    BudgetInv options (encode_tag_table json tags) (make json options tags files) := by
  have hlimited := (diskBytes_make_le_iff json hlimit tags files).mpr hcounts
  obtain ⟨left, recovered, deleted, heq⟩ := make_eq json options tags files
  rw [heq, diskBytes] at hlimited
  rw [heq]
  exact ⟨rfl, rfl, hlimited, fun hout => absurd hout Bool.false_ne_true, fun _ => rfl⟩

/-! ## (4) A batch that is too large -/

/-- **The first batch** of a writer that has room for a segment is written behind a front, whatever
its size. -/
theorem diskBytes_first_batch (hout : w.out_ = false)
    (hfits : w.segment_bytes_ + finishedBytes w.files + w.options_.max_segment_bytes.toNat ≤
      w.options_.max_total_bytes.toNat) (created : Int64) (samples : List TelemetrySample) :
    (w.after (.write_batch created samples)).diskBytes =
      finishedBytes w.files +
        (align8 (32 + w.tag_table_.length) + (16 + samples.length * 24)) := by
  -- nothing was open and there is room, so a new segment is opened and no old one deleted
  have hopen : w.open_for created {} (encodedBatch samples) = w.open_segment created {} := by
    rw [open_for_eq, if_neg (by rw [hout]; exact fun h => absurd h.1 (by decide)),
      SegmentWriter.cleared, SegmentWriter.finish_segment, if_neg (by rw [hout]; decide),
      enforce_total_limit_of_fits hfits]
  rw [SegmentWriter.after, SegmentWriter.write_batch, hopen, open_segment_of_flushed rfl rfl]
  dsimp only
  rw [append_batch_of_flushed rfl]
  obtain ⟨-, hsame, hcontent⟩ := diskBytes_fronted w created
  -- the segment is still under its partial name, so it is not among the finished ones
  have hname : is_finished_segment (w.fronted created {}).partial_path_ = false :=
    not_is_finished_segment_partial_name _ _
  obtain ⟨hsame', hgrown⟩ := finishedBytes_flushed hname (encodedBatch samples)
  have hlength := congrArg List.length hgrown
  rw [hcontent, List.length_append, w.length_prefixBytes, length_encodedBatch] at hlength
  rw [hsame] at hsame'
  show finishedBytes ((w.fronted created {}).flushed .flushed (encodedBatch samples)) +
    (if true = true then (Files.content ((w.fronted created {}).flushed .flushed
      (encodedBatch samples)) (w.fronted created {}).partial_path_).length else 0) = _
  rw [if_pos rfl, hsame', hlength]

/-- A directory with one finished segment of so many bytes. -/
def oneSegment (bytes : Nat) : Files := AList.singleton "telemetry-.ipseg" (List.replicate bytes 0)

/-- A directory with one finished segment has its bytes. -/
theorem finishedBytes_oneSegment (bytes : Nat) : finishedBytes (oneSegment bytes) = bytes := by
  have hkeys : (oneSegment bytes).keys.filter is_finished_segment = ["telemetry-.ipseg"] := by
    rw [oneSegment, AList.keys_singleton]
    decide
  have hcontent : (oneSegment bytes).content "telemetry-.ipseg" = List.replicate bytes 0 := rfl
  rw [finishedBytes, hkeys, List.map_singleton, List.sum_singleton, hcontent,
    List.length_replicate]

/-- Recovery changes nothing in it. -/
theorem recover_parts_oneSegment (bytes : Nat) :
    recover_parts (oneSegment bytes) = (oneSegment bytes, 0) := by
  have hpart : ¬ (kSegmentExtension ++ kPartialSuffix).toList.isSuffixOf
      "telemetry-.ipseg".toList = true := by decide
  have hkeys : (oneSegment bytes).keys = ["telemetry-.ipseg"] := AList.keys_singleton _ _
  rw [recover_parts, hkeys, List.foldl_cons, List.foldl_nil, if_neg hpart]

/-- A writer starts with the directory as it is, where nothing is to be renamed or deleted. -/
theorem make_of_fits (json : JsonLibrary) {files : Files}
    (hrecover : recover_parts files = (files, 0))
    (hfits : finishedBytes files ≤ options.max_total_bytes.toNat) (tags : List TagInfo) :
    make json options tags files =
      { options_ := options, tag_table_ := encode_tag_table json tags, files := files } := by
  unfold make
  rw [hrecover]
  apply enforce_total_limit_of_fits
  simpa using hfits

end SegmentWriter

/-! ## (5) The budget of a loaded configuration -/

namespace ReadingExporter

open SegmentWriter

/-- A valid configuration makes an exporter with a new writer. -/
theorem exists_make {config : ExportConfig} (hvalid : config.Valid) (json : JsonLibrary)
    (tags : List TagInfo) (files : Files) :
    ∃ exporter, make json config tags files = .ok exporter := by
  obtain ⟨ingestor, hmake⟩ := Ingestor.exists_make (validate_ingestorOptions hvalid)
  unfold make
  rw [hmake]
  exact ⟨_, rfl⟩

/-- The writer that the exporter's constructor makes. -/
theorem writer_of_make {json : JsonLibrary} {config : ExportConfig} {tags : List TagInfo}
    {files : Files} {exporter : ReadingExporter}
    (h : make json config tags files = .ok exporter) :
    exporter.writer_ = SegmentWriter.make json (writerOptions config) tags files := by
  unfold make at h
  cases hmake : Ingestor.make (ingestorOptions config) with
  | error what =>
      rw [hmake] at h
      cases h
  | ok ingestor =>
      rw [hmake] at h
      cases h
      rfl

/-- `mb * 1024 * 1024` does not wrap. -/
theorem toNat_mebibytes (mb : UInt32) :
    (mb.toUInt64 * 1024 * 1024).toNat = mb.toNat * 1024 * 1024 := by
  have hlt := UInt32.toNat_lt mb
  have h1024 : (1024 : UInt64).toNat = 1024 := rfl
  rw [UInt64.toNat_mul, UInt64.toNat_mul, UInt32.toNat_toUInt64, h1024]
  omega

/-- **The budget** of an exporter that starts in a directory with the files `files`: from the end of
the constructor on the segments take no more than `max_total_mb`, as long as no batch has more than
`batch_size` samples. -/
def KeepsBudget (json : JsonLibrary) (cfg : AppConfig) (files : Files) : Prop :=
  ∀ exporter, make json cfg.export_config (tags_from_devices cfg.devices) files = .ok exporter →
    ∀ calls : List WriterCall,
      (∀ created samples, .write_batch created samples ∈ calls →
        samples.length ≤ cfg.export_config.batch_size.toNat) →
      ∀ w ∈ exporter.writer_ :: exporter.writer_.run_states calls,
        w.diskBytes ≤ cfg.export_config.max_total_mb.toNat * 1024 * 1024

/-- **The 64-bit total of the initial directory is right**, once its partial segments are finished. -/
def StartCountsRight (cfg : AppConfig) (files : Files) : Prop :=
  CountsRight (writerOptions cfg.export_config).max_total_bytes (recover_parts files).1

/-- The front of a segment and one batch of `batch_size` samples fit in `segment_max_mb`. -/
def FullBatchFits (json : JsonLibrary) (cfg : AppConfig) : Prop :=
  align8 (32 + (encode_tag_table json (tags_from_devices cfg.devices)).length) +
      (16 + cfg.export_config.batch_size.toNat * 24) ≤
    cfg.export_config.segment_max_mb.toNat * 1024 * 1024

instance (json : JsonLibrary) (cfg : AppConfig) : Decidable (FullBatchFits json cfg) :=
  inferInstanceAs (Decidable (_ ≤ _))

/-- What `validate` says about the two limits: twice a segment fits. -/
theorem room_of_valid {config : ExportConfig} (hvalid : config.Valid)
    (hlimit : config.max_total_mb ≠ 0) :
    (writerOptions config).max_total_bytes ≠ 0 ∧
      2 * (config.segment_max_mb.toNat * 1024 * 1024) ≤
        config.max_total_mb.toNat * 1024 * 1024 := by
  have hchecked := hvalid.checked
  simp only [validate_export, bind_eq_ok, require_eq_ok] at hchecked
  obtain ⟨_, -, _, -, _, -, _, hsegment, htwice⟩ := hchecked
  -- the configuration is checked in megabytes, the writer counts bytes
  have hpos : config.max_total_mb.toNat ≠ 0 := fun hzero => hlimit (UInt32.toNat_inj.mp hzero)
  refine ⟨fun hzero => ?_, ?_⟩
  · have hbytes := congrArg UInt64.toNat hzero
    rw [show (writerOptions config).max_total_bytes.toNat = _ from toNat_mebibytes _] at hbytes
    have h0 : (0 : UInt64).toNat = 0 := rfl
    omega
  · -- `validate_export` refuses a total below two segments
    have htwice' : ¬ config.max_total_mb.toNat < 2 * config.segment_max_mb.toNat :=
      fun hlt => htwice ⟨hlimit, hlt⟩
    omega

variable {json : JsonLibrary} {cfg : AppConfig}

/-- The exporter's writer begins with a total that is right, if it keeps the budget at all. -/
theorem startCountsRight_of_keepsBudget (hvalid : cfg.export_config.Valid)
    (hlimit : cfg.export_config.max_total_mb ≠ 0) {files : Files}
    (hkeeps : KeepsBudget json cfg files) : StartCountsRight cfg files := by
  obtain ⟨hlimited, -⟩ := room_of_valid hvalid hlimit
  obtain ⟨exporter, hmake⟩ := exists_make hvalid json (tags_from_devices cfg.devices) files
  have hstart := hkeeps exporter hmake [] (fun _ _ hcall => by cases hcall) exporter.writer_
    List.mem_cons_self
  rw [writer_of_make hmake, ← toNat_mebibytes] at hstart
  exact (diskBytes_make_le_iff json hlimited (tags_from_devices cfg.devices) files).mp hstart

/-- If a full batch fits, the invariant holds in every run. -/
theorem keepsBudget_of_fits (hvalid : cfg.export_config.Valid)
    (hlimit : cfg.export_config.max_total_mb ≠ 0) (hfits : FullBatchFits json cfg) {files : Files}
    (hcounts : StartCountsRight cfg files) : KeepsBudget json cfg files := by
  intro exporter hmake calls hcalls w hw
  obtain ⟨hlimited, hroom⟩ := room_of_valid hvalid hlimit
  have hsegment := toNat_mebibytes cfg.export_config.segment_max_mb
  have htotal := toNat_mebibytes cfg.export_config.max_total_mb
  have hlt := UInt32.toNat_lt cfg.export_config.max_total_mb
  have hlt' := UInt32.toNat_lt cfg.export_config.segment_max_mb
  -- the sections of the configuration bound both sizes far below 2^64 bytes
  have hsuits : Suits (writerOptions cfg.export_config)
      (encode_tag_table json (tags_from_devices cfg.devices))
      (16 + cfg.export_config.batch_size.toNat * 24) := by
    refine ⟨hlimited, ?_, ?_, ?_⟩
    · show (cfg.export_config.segment_max_mb.toUInt64 * 1024 * 1024).toNat ≤
        (cfg.export_config.max_total_mb.toUInt64 * 1024 * 1024).toNat
      omega
    · show (cfg.export_config.max_total_mb.toUInt64 * 1024 * 1024).toNat +
        (cfg.export_config.segment_max_mb.toUInt64 * 1024 * 1024).toNat < 2 ^ 64
      omega
    · exact hfits.trans_eq hsegment.symm
  have hatMost : ∀ call ∈ calls,
      call.AtMost (16 + cfg.export_config.batch_size.toNat * 24) := by
    intro call hcall
    cases call with
    | write_batch created samples =>
        have hle := hcalls created samples hcall
        rw [WriterCall.AtMost, length_encodedBatch]
        omega
    | close => trivial
  rw [writer_of_make hmake] at hw
  have hinv := budgetInv_make json hlimited (tags_from_devices cfg.devices) hcounts
  exact (hinv.run hsuits hatMost w hw).trans_eq htotal

/-- **A first batch that goes over the limit**, although a whole segment fits beside the files. -/
theorem not_keepsBudget_of_first_batch (hvalid : cfg.export_config.Valid) {files : Files}
    (hrecover : recover_parts files = (files, 0))
    (hroom : finishedBytes files + cfg.export_config.segment_max_mb.toNat * 1024 * 1024 ≤
      cfg.export_config.max_total_mb.toNat * 1024 * 1024)
    (hover : cfg.export_config.max_total_mb.toNat * 1024 * 1024 < finishedBytes files +
      (align8 (32 + (encode_tag_table json (tags_from_devices cfg.devices)).length) +
        (16 + cfg.export_config.batch_size.toNat * 24))) :
    ¬ KeepsBudget json cfg files := by
  intro hkeeps
  have hsegment := toNat_mebibytes cfg.export_config.segment_max_mb
  have htotal := toNat_mebibytes cfg.export_config.max_total_mb
  obtain ⟨exporter, hmake⟩ := exists_make hvalid json (tags_from_devices cfg.devices) files
  let samples : List TelemetrySample := List.replicate cfg.export_config.batch_size.toNat
    { timestamp_ms := 0, value := 0, tag_id := 1 }
  have hsamples : samples.length = cfg.export_config.batch_size.toNat := List.length_replicate
  have hwriter := writer_of_make hmake
  -- the constructor leaves the directory as it is, and so does the reserve for the first segment
  rw [make_of_fits json hrecover
    (((Nat.le_add_right _ _).trans hroom).trans_eq htotal.symm)] at hwriter
  have hfirst := @diskBytes_first_batch exporter.writer_ (by rw [hwriter])
    (by
      rw [hwriter]
      show 0 + finishedBytes files +
        (cfg.export_config.segment_max_mb.toUInt64 * 1024 * 1024).toNat ≤
        (cfg.export_config.max_total_mb.toUInt64 * 1024 * 1024).toNat
      omega) 0 samples
  have hle := hkeeps exporter hmake [.write_batch 0 samples] ?_
    (exporter.writer_.after (.write_batch 0 samples)) ?_
  · rw [hfirst, hsamples, hwriter] at hle
    exact absurd hover (Nat.not_lt_of_le hle)
  · intro created others hcall
    cases List.mem_singleton.mp hcall
    exact hsamples.le
  · rw [run_states, run_states, List.append_nil]
    exact List.mem_cons_of_mem _ (List.mem_of_getLast? (getLast?_call_states _ _))

/-- **When the disk budget holds**, for every configuration that loads with a limit. A directory in
which it holds is one whose 64-bit total is right; and it holds in all of these if and only if the
front of a segment and one full batch fit in `segment_max_mb`, the room that is reserved. -/
theorem keepsBudget_iff (json_parse : String → Except JsonError Json) (getenv : Environment)
    (json_text : String) (cfg : AppConfig)
    (hload : load_from_string json_parse getenv json_text = .ok cfg)
    (hlimit : cfg.export_config.max_total_mb ≠ 0) (json : JsonLibrary) :
    (∀ files, KeepsBudget json cfg files → StartCountsRight cfg files) ∧
      ((∀ files, StartCountsRight cfg files → KeepsBudget json cfg files) ↔
        FullBatchFits json cfg) := by
  have hvalid := export_valid_of_load hload
  refine ⟨fun files => startCountsRight_of_keepsBudget hvalid hlimit, fun hkeeps => ?_,
    fun hfits files hcounts => keepsBudget_of_fits hvalid hlimit hfits hcounts⟩
  by_contra hfits
  obtain ⟨-, hroom⟩ := room_of_valid hvalid hlimit
  -- finished segments fill the directory up to the reserve
  obtain ⟨finished, hfinished⟩ : ∃ n, n + cfg.export_config.segment_max_mb.toNat * 1024 * 1024 =
      cfg.export_config.max_total_mb.toNat * 1024 * 1024 :=
    ⟨_, Nat.sub_add_cancel (by omega)⟩
  have hbytes := finishedBytes_oneSegment finished
  have hlarge := Nat.lt_of_not_le hfits
  have hrecover := recover_parts_oneSegment finished
  have hcounts : StartCountsRight cfg (oneSegment finished) := by
    have hlt := UInt32.toNat_lt cfg.export_config.max_total_mb
    rw [StartCountsRight, hrecover]
    exact countsRight_of_lt (by rw [hbytes]; omega) _
  refine not_keepsBudget_of_first_batch hvalid hrecover ?_ ?_ (hkeeps _ hcounts)
  · rw [hbytes]
    exact hfinished.le
  · rw [hbytes, ← hfinished]
    exact Nat.add_lt_add_left hlarge finished

/-- The default configuration keeps its budget in a directory with a segment of a thousand bytes. -/
theorem keepsBudget_default : KeepsBudget (tableLibrary []) {} (oneSegment 1000) := by
  have hcounts : StartCountsRight {} (oneSegment 1000) := by
    rw [StartCountsRight, recover_parts_oneSegment]
    exact countsRight_of_lt (by rw [finishedBytes_oneSegment]; decide) _
  exact (keepsBudget_iff emptyDocument (fun _ => none) "{}" {} (by decide) (by decide)
    (tableLibrary [])).2.mpr (by decide +kernel) _ hcounts

/-- A document with batches of three megabytes, in segments of one megabyte and a budget of two. -/
def largeBatchDocument : String → Except JsonError Json := fun _ =>
  .ok (.object [("export", .object [("queue_capacity", .number_unsigned 131072),
    ("batch_size", .number_unsigned 131072), ("segment_max_mb", .number_unsigned 1),
    ("max_total_mb", .number_unsigned 2)])])

/-- A configuration in which one full batch is larger than a segment may be. -/
def largeBatchConfig : AppConfig :=
  { export_config :=
      { queue_capacity := 131072, batch_size := 131072, segment_max_mb := 1, max_total_mb := 2 } }

/-- **One full batch of such a configuration exceeds the budget** of an empty directory. -/
theorem not_keepsBudget_of_large_batch :
    ¬ ∀ (json_parse : String → Except JsonError Json) (getenv : Environment) (json_text : String)
        (cfg : AppConfig), load_from_string json_parse getenv json_text = .ok cfg →
      cfg.export_config.max_total_mb ≠ 0 →
        ∀ (json : JsonLibrary) (files : Files), KeepsBudget json cfg files := by
  intro h
  have hload : load_from_string largeBatchDocument (fun _ => none) "{}" = .ok largeBatchConfig := by
    decide
  have hempty : recover_parts ∅ = (∅, 0) := rfl
  refine not_keepsBudget_of_first_batch (export_valid_of_load hload) hempty ?_ ?_
    (h _ _ _ _ hload (by decide) (tableLibrary []) ∅)
  · decide
  · decide +kernel

end ReadingExporter

end Ironpulse.Ingest
