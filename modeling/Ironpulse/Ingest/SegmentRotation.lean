import Ironpulse.Ingest.SegmentWriting
import Mathlib.Data.List.Chain

/-! # Batches over several segments

A `SegmentWriter` begins a new segment when the open one has no room for a batch. With file
operations succeeding and no limit on the directory, every batch ends up whole in one of the files,
in order, and a file that has its final name is never written to again.

* **`Untouched`**: no finished file has been changed or removed.
* **`WriterInv.isChain_write_batch_states`**: the file operations of one call.
* **`history`**: the directory after every file operation of a run.
* **`rotation_round_trip`**: what the reader makes of the files of a run. -/

namespace Ironpulse.Ingest

open ByteCodec Core Storage

namespace SegmentWriter

variable {others : Files} {front : Int64 → List UInt8} {w : SegmentWriter} {done : List Written}
  {current : Option Written}

/-! ## (1) Finished files -/

/-- The name of a finished segment, `*.ipseg`. -/
def is_ipseg (name : String) : Prop := kSegmentExtension.toList <:+ name.toList

instance (name : String) : Decidable (is_ipseg name) :=
  inferInstanceAs (Decidable (_ <:+ _))

/-- A finished segment has the extension of segments. -/
theorem is_ipseg_final (f : SegFile) : is_ipseg f.final := by
  rw [is_ipseg, SegFile.final, String.toList_append]
  exact List.suffix_append _ _

/-- A segment that is still written has not. -/
theorem not_is_ipseg_part (f : SegFile) : ¬ is_ipseg f.part := by
  rintro ⟨rest, hrest⟩
  have hlast := congrArg List.getLast? hrest
  simp [SegFile.part, kSegmentExtension, kPartialSuffix] at hlast

/-- No finished file has been changed or removed. -/
def Untouched (files files' : Files) : Prop :=
  ∀ name bytes, is_ipseg name → files.lookup name = some bytes → files'.lookup name = some bytes

/-- What has not changed is untouched. -/
theorem Untouched.refl (files : Files) : Untouched files files := fun _ _ _ h => h

/-- What stays untouched twice stays untouched. -/
theorem Untouched.trans {a b c : Files} (hab : Untouched a b) (hbc : Untouched b c) :
    Untouched a c :=
  fun name bytes hname h => hbc name bytes hname (hab name bytes hname h)

/-- Writing to a file with a partial name. -/
theorem untouched_insert_part (files : Files) (f : SegFile) (bytes : List UInt8) :
    Untouched files (files.insert f.part bytes) := by
  intro name old hname hold
  have hne : name ≠ f.part := fun heq => not_is_ipseg_part f (heq ▸ hname)
  rwa [AList.lookup_insert_ne hne]

/-- Beginning a segment changes no finished file. -/
theorem untouched_begun (w : SegmentWriter) (created : Int64) :
    Untouched w.files (w.begun created).files :=
  untouched_insert_part w.files ⟨segment_stem created _, false, []⟩ []

/-- Flushing to the open segment. -/
theorem WriterFiles.untouched_flushed {done : List SegFile} {f : SegFile}
    (h : WriterFiles others w done (some f)) (outcome : FlushOutcome) (bytes : List UInt8) :
    Untouched w.files (w.flushed outcome bytes) := by
  obtain ⟨written, -, -, hfiles⟩ := h.flushed outcome bytes
  rw [hfiles, SegFile.name_of_open (h.paths f rfl).1]
  exact untouched_insert_part _ _ _

/-- Renaming the open segment: its final name is free. -/
theorem WriterFiles.untouched_finish_segment {done : List SegFile} {current : Option SegFile}
    (h : WriterFiles others w done current) : Untouched w.files (w.finish_segment true).files := by
  unfold SegmentWriter.finish_segment
  cases current with
  | none =>
      rw [if_neg (by rw [h.is_open]; decide)]
      exact Untouched.refl _
  | some f =>
      have hout : w.out_ = true := h.is_open
      rw [if_pos hout]
      dsimp only
      rw [if_pos rfl]
      obtain ⟨hopen, hfinal, hpart⟩ := h.paths f rfl
      have hmem : f ∈ done ++ (some f).toList := List.mem_append_right _ List.mem_cons_self
      have hfree := h.files.final_not_mem hmem hopen
      have hlookup := h.files.lookup f hmem
      rw [SegFile.name_of_open hopen] at hlookup
      rw [hfinal, hpart, Files.rename, hlookup]
      -- a renaming only adds a finished file, under a name that was free
      intro name bytes hname hold
      have hne : name ≠ f.final := by
        rintro rfl
        exact hfree (AList.lookup_isSome.mp (by rw [hold]; rfl))
      have hne' : name ≠ f.part := fun heq => not_is_ipseg_part f (heq ▸ hname)
      rwa [AList.lookup_insert_ne hne, AList.lookup_erase_ne hne']

/-! ## (2) One more batch -/

/-- Opening a segment touches no finished file. -/
theorem WriterInv.isChain_opening (h : WriterInv others front w done none) (created : Int64) :
    [w.files, (w.begun created).files, (w.fronted created {}).files].IsChain Untouched := by
  obtain ⟨stem, hbegun⟩ := h.files.begun created
  have hfronted := hbegun.untouched_flushed FlushOutcome.flushed (w.prefixBytes created)
  exact .cons_cons (untouched_begun w created) (.cons_cons hfronted (.singleton _))

/-- Appending to the open segment touches no finished file. -/
theorem WriterInv.untouched_append_batch {s : Written}
    (h : WriterInv others front w done (some s)) (batch : List UInt8) :
    Untouched w.files (w.append_batch {} batch).1.files := by
  rw [append_batch_of_flushed rfl]
  exact h.files.untouched_flushed _ _

/-- **No file operation of a call touches a finished file.** -/
theorem WriterInv.isChain_write_batch_states (h : WriterInv others front w done current)
    (created : Int64) (batch : List UInt8) :
    (w.files :: (w.write_batch_states created batch).map SegmentWriter.files).IsChain Untouched := by
  unfold write_batch_states SegmentWriter.write_batch
  rw [open_for_eq]
  split
  · -- the batch goes into the open segment
    rename_i hroom
    have hopen := h.files.is_open
    rw [Option.isSome_map, hroom.1] at hopen
    obtain ⟨s, rfl⟩ := Option.isSome_iff_exists.mp hopen.symm
    exact .cons_cons (h.untouched_append_batch batch) (.singleton _)
  · obtain ⟨w', stem, hopen, hinv⟩ := h.finish_segment.open_segment created
    have hfiles : w'.files = ((w.finish_segment true).fronted created {}).files := by
      rw [open_segment_of_flushed rfl rfl] at hopen
      rw [← (Prod.mk.inj hopen).1]
    have happend := hinv.untouched_append_batch batch
    rw [hfiles] at happend
    rw [h.cleared, hopen]
    -- closing, nothing to delete, the empty file, the front, the batch
    obtain ⟨hbegun, hrest⟩ := List.isChain_cons_cons.mp (h.finish_segment.isChain_opening created)
    obtain ⟨hfronted, -⟩ := List.isChain_cons_cons.mp hrest
    exact .cons_cons h.files.untouched_finish_segment (.cons_cons (Untouched.refl _)
      (.cons_cons hbegun (.cons_cons hfronted (.cons_cons happend (.singleton _)))))

/-! ## (3) Runs -/

/-- Calls of `write_batch`, each with the time at which it would open a segment. -/
abbrev Calls := List (Int64 × List TelemetrySample)

/-- The writer after some calls. -/
def write_batches (w : SegmentWriter) (calls : Calls) : SegmentWriter :=
  calls.foldl (fun w call => (w.write_batch call.1 {} (encodedBatch call.2)).1) w

/-- The outcomes of some calls. -/
def outcomes (w : SegmentWriter) : Calls → List (Except String Unit)
  | [] => []
  | (created, samples) :: calls =>
      (w.write_batch created {} (encodedBatch samples)).2 ::
        outcomes (w.write_batch created {} (encodedBatch samples)).1 calls

/-- The directory after every file operation of some calls and a final `close`. -/
def history (w : SegmentWriter) (calls : Calls) : List Files :=
  (w.run_states (calls.map (fun call => .write_batch call.1 call.2) ++ [.close])).map
    SegmentWriter.files

/-- **A run of calls and a final `close`**, by induction on the calls. -/
theorem WriterInv.write_batches (h : WriterInv others front w done current) (calls : Calls) :
    ∃ done', WriterInv others front (w.write_batches calls).close done' none ∧
      batchesOf done' none = batchesOf done current ++
        calls.map (fun call => encodedBatch call.2) ∧
      (∀ outcome ∈ w.outcomes calls, outcome = .ok ()) ∧
      (w.files :: w.history calls).IsChain Untouched := by
  induction calls generalizing w done current with
  | nil =>
      refine ⟨done ++ current.toList, h.finish_segment, ?_, ?_, ?_⟩
      · simp [batchesOf]
      · intro outcome houtcome
        cases houtcome
      · exact .cons_cons h.files.untouched_finish_segment (.singleton _)
  | cons call calls ih =>
      obtain ⟨created, samples⟩ := call
      obtain ⟨w', done', s, hwrite, hinv, hbatches⟩ := h.write_batch created (encodedBatch samples)
      obtain ⟨done'', hinv', hbatches', houtcomes, hchain'⟩ := ih hinv
      have hchain := h.isChain_write_batch_states created (encodedBatch samples)
      refine ⟨done'', ?_, ?_, ?_, ?_⟩
      · rw [SegmentWriter.write_batches, List.foldl_cons]
        dsimp only
        rw [hwrite]
        exact hinv'
      · rw [hbatches', hbatches, List.append_assoc]
        rfl
      · rw [outcomes, hwrite]
        rintro outcome houtcome
        rcases List.mem_cons.mp houtcome with rfl | hlater
        · rfl
        · exact houtcomes outcome hlater
      · -- the last state of the call is the one in which the rest begins
        have hhistory : w.history ((created, samples) :: calls) =
            (w.write_batch_states created (encodedBatch samples)).map SegmentWriter.files ++
              w'.history calls := by
          rw [history, history, List.map_cons, List.cons_append, run_states, List.map_append, after,
            hwrite]
          rfl
        have hlast : (w.files ::
            (w.write_batch_states created (encodedBatch samples)).map
              SegmentWriter.files).getLast? = some w'.files := by
          have hstates := w.getLast?_call_states (.write_batch created samples)
          rw [after, hwrite] at hstates
          rw [List.getLast?_cons, List.getLast?_map]
          exact congrArg (fun o => some ((Option.map SegmentWriter.files o).getD w.files)) hstates
        rw [hhistory, ← List.cons_append, List.isChain_append]
        obtain ⟨hnext, hlater⟩ := List.isChain_cons.mp hchain'
        refine ⟨hchain, hlater, ?_⟩
        intro last hmem
        rw [hlast, Option.mem_some] at hmem
        exact hmem ▸ hnext

end SegmentWriter

/-! ## (4) Reading the files of a run -/

/-- What the reader makes of a complete segment. -/
structure ReadsBack (json : JsonLibrary) (path : String) (file : Option (List UInt8))
    (tags : List TagInfo) (batches : List (List TelemetrySample)) : Prop where
  error : (read_segment json path file).error = ""
  undamaged : (read_segment json path file).corrupt_batches = 0
  complete : (read_segment json path file).truncated_tail = false
  tags : (read_segment json path file).tags = tags
  delivered : (read_segment json path file).delivered.map Delivery.samples = batches
  aligned : ∀ d ∈ (read_segment json path file).delivered, 8 ∣ d.offset

/-- Batches back to back keep the alignment of the first one. -/
theorem aligned_deliveriesFrom {offset : Nat} (h : 8 ∣ offset)
    (batches : List (List TelemetrySample)) :
    ∀ d ∈ deliveriesFrom offset batches, 8 ∣ d.offset := by
  induction batches generalizing offset with
  | nil =>
      intro d hd
      cases hd
  | cons samples rest ih =>
      intro d hd
      rcases List.mem_cons.mp hd with rfl | hlater
      · exact h
      · refine ih ?_ d hlater
        rw [length_encodedBatch]
        omega

/-- The reader makes of a complete segment what the writer put there. -/
theorem readsBack_complete {json : JsonLibrary} {front : List UInt8} {tags : List TagInfo}
    {created : Int64} (h : SegmentFront json front tags created)
    {batches : List (List TelemetrySample)}
    (hcount : ∀ samples ∈ batches, samples.length < 2 ^ 32) (path : String) :
    ReadsBack json path (some (front ++ batches.flatMap encodedBatch)) tags batches := by
  -- reading back gives what was written, and offsets are multiples of eight behind an aligned front
  have hread := read_segment_complete h hcount path
  have haligned : 8 ∣ front.length := by
    rw [h.length, align8]
    exact Nat.dvd_mul_left _ _
  constructor
  · rw [hread]
    rfl
  · rw [hread]
    rfl
  · rw [hread]
    rfl
  · rw [hread]
    rfl
  · rw [hread]
    exact map_samples_deliveriesFrom _ _
  · rw [hread]
    exact aligned_deliveriesFrom haligned _

/-- Elements that are spread over some lists, each under a function, come in groups. -/
theorem exists_groups {α β γ : Type} {f : β → γ} {g : α → List γ} {as : List α} {bs : List β}
    (h : as.flatMap g = bs.map f) :
    ∃ groups : List (α × List β), groups.map Prod.fst = as ∧
      (groups.map Prod.snd).flatten = bs ∧ ∀ group ∈ groups, g group.1 = group.2.map f := by
  induction as generalizing bs with
  | nil =>
      rw [List.flatMap_nil, eq_comm, List.map_eq_nil_iff] at h
      exact ⟨[], rfl, h.symm, fun group hgroup => by cases hgroup⟩
  | cons a as ih =>
      rw [List.flatMap_cons, eq_comm, List.map_eq_append_iff] at h
      obtain ⟨first, rest, rfl, hfirst, hrest⟩ := h
      obtain ⟨groups, rfl, rfl, hgroups⟩ := ih hrest.symm
      exact ⟨(a, first) :: groups, rfl, rfl,
        List.forall_mem_cons.mpr ⟨hfirst.symm, hgroups⟩⟩

/-- **The segment format with rotation.** Whatever batches are passed to `write_batch`, with file
operations succeeding, no limit on the directory and a tag table of fewer than `2 ^ 32` bytes: no
call fails, the files in creation order read back undamaged with the tags and with the batches, in
order and none split, and no file that has its final name is ever touched again. -/
theorem rotation_round_trip {json : JsonLibrary} {options : SegmentWriterOptions}
    (hlimit : options.max_total_bytes = 0) {tags : List TagInfo}
    (hsize : (encode_tag_table json tags).length < 2 ^ 32)
    (hparse : json.parse (encode_tag_table json tags) = .ok (tag_table tags)) (files : Files)
    {calls : SegmentWriter.Calls} (hcount : ∀ call ∈ calls, call.2.length < 2 ^ 32) :
    let w := SegmentWriter.make json options tags files
    let finished := (w.write_batches calls).close
    (∀ outcome ∈ w.outcomes calls, outcome = .ok ()) ∧
      (∃ segs : List (String × List (List TelemetrySample)),
        segs.map Prod.fst = finished.created ∧ finished.created.Nodup ∧
          (segs.map Prod.snd).flatten = calls.map Prod.snd ∧
          ∀ seg ∈ segs, SegmentWriter.is_ipseg seg.1 ∧
            ReadsBack json (path_text options.directory seg.1) (finished.files.lookup seg.1) tags
              seg.2) ∧
      (w.files :: w.history calls).Pairwise SegmentWriter.Untouched := by
  intro w finished
  have hstart : SegmentWriter.WriterInv w.files w.prefixBytes w [] none :=
    SegmentWriter.segmentsInv_make json hlimit tags files
  obtain ⟨done, hinv, hbatches, houtcomes, hchain⟩ := hstart.write_batches calls
  have htable : w.tag_table_ = encode_tag_table json tags := SegmentWriter.tag_table_make ..
  have hcreated := hinv.created_eq
  -- after `close` no segment is open: every one that was begun is finished
  have hdone : done.flatMap SegmentWriter.Written.batches =
      (calls.map Prod.snd).map encodedBatch := by
    rw [SegmentWriter.batchesOf, SegmentWriter.batchesOf, Option.toList_none, List.append_nil,
      List.append_nil, List.flatMap_nil, List.nil_append] at hbatches
    rw [hbatches, List.map_map]
    rfl
  obtain ⟨groups, rfl, hflatten, hgroups⟩ := exists_groups hdone
  refine ⟨houtcomes,
    ⟨groups.map fun group => (group.1.stem ++ kSegmentExtension, group.2), ?_, ?_, ?_, ?_⟩, ?_⟩
  · rw [hcreated, List.map_map, List.map_map]
    rfl
  · have hnodup := hinv.files.files.finals_nodup
    rwa [← hinv.files.created] at hnodup
  · rw [List.map_map, ← hflatten]
    rfl
  · intro seg hseg
    obtain ⟨group, hgroup, rfl⟩ := List.mem_map.mp hseg
    refine ⟨SegmentWriter.is_ipseg_final (group.1.file w.prefixBytes true), ?_⟩
    have hlookup := hinv.lookup_done (List.mem_map_of_mem hgroup)
    rw [hgroups group hgroup, ← List.flatMap_def] at hlookup
    have hfront := SegmentWriter.segmentFront_prefixBytes htable (by rw [htable]; exact hsize)
      hparse group.1.created
    dsimp only
    rw [hlookup]
    -- a batch of a segment is one of the calls, whose counts fit the header
    refine readsBack_complete hfront (fun samples hsamples => ?_) _
    have hmem : samples ∈ calls.map Prod.snd := by
      rw [← hflatten]
      exact List.mem_flatten_of_mem (List.mem_map_of_mem hgroup) hsamples
    obtain ⟨call, hcall, rfl⟩ := List.mem_map.mp hmem
    exact hcount call hcall
  · have : IsTrans Files SegmentWriter.Untouched := ⟨fun _ _ _ => SegmentWriter.Untouched.trans⟩
    exact List.isChain_iff_pairwise.mp hchain

/-- Segments with room for one batch of one sample. -/
def smallSegments : SegmentWriterOptions := { max_segment_bytes := 100 }

/-- Two batches with a sample and an empty one. -/
def threeCalls : SegmentWriter.Calls := [(0, oneSample), (1, oneSample), (2, [])]

/-- The three batches are read back from the segments of such a writer. -/
theorem rotation_round_trip_threeCalls :
    let finished := ((SegmentWriter.make (tableLibrary []) smallSegments [] ∅).write_batches
      threeCalls).close
    ∃ segs : List (String × List (List TelemetrySample)),
      segs.map Prod.fst = finished.created ∧ finished.created.Nodup ∧
        (segs.map Prod.snd).flatten = [oneSample, oneSample, []] ∧
        ∀ seg ∈ segs, SegmentWriter.is_ipseg seg.1 ∧
          ReadsBack (tableLibrary []) (path_text "export" seg.1) (finished.files.lookup seg.1) []
            seg.2 := by
  have hcount : ∀ call ∈ threeCalls, call.2.length < 2 ^ 32 := by decide
  have hsize : (encode_tag_table (tableLibrary []) []).length < 2 ^ 32 := by decide +kernel
  exact (rotation_round_trip rfl hsize (parse_tableLibrary []) ∅ hcount).2.1

end Ironpulse.Ingest
