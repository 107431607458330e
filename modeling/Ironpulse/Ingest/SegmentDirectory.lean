import Ironpulse.Ingest.SegmentRoundTrip

/-! # The directory of a writer

The segment files that a `SegmentWriter` has begun, in order, beside the files that were there
before: what creating a segment, writing to it and renaming it do to the directory, and from that
what the functions of the writer do, however their file operations end.

* **`SegFile`**: a segment file under its partial or its final name.
* **`DirectoryOf`**: a directory holds some segment files beside others.
* **`WriterFiles`**: the segment files of a writer, with the open one.
* **`WriterFiles.open_segment`**, **`.finish_segment`**, **`.append_batch`**: what the functions of
  the writer do to them. -/

namespace Ironpulse.Ingest

open ByteCodec Core Storage

/-! ## (1) Segment files -/

/-- A segment file: the common part of its two names, which of them it has, and its bytes. -/
structure SegFile where
  stem : String
  finished : Bool
  bytes : List UInt8

namespace SegFile

/-- The name of a finished segment. -/
def final (f : SegFile) : String := f.stem ++ kSegmentExtension

/-- The name of a segment that is still written. -/
def part (f : SegFile) : String := f.stem ++ kSegmentExtension ++ kPartialSuffix

/-- The name in the directory. -/
def name (f : SegFile) : String := if f.finished then f.final else f.part

/-- A finished segment has its final name. -/
theorem name_of_finished {f : SegFile} (h : f.finished = true) : f.name = f.final := if_pos h

/-- An open segment has its partial name. -/
theorem name_of_open {f : SegFile} (h : f.finished = false) : f.name = f.part :=
  if_neg (Bool.eq_false_iff.mp h)

/-- The final name of one segment is never the partial name of another. -/
theorem final_ne_part (f g : SegFile) : f.final ≠ g.part := by
  intro h
  have hlast := congrArg (fun name : String => name.toList.getLast?) h
  simp [final, part, kSegmentExtension, kPartialSuffix] at hlast

/-- The final name tells the stem. -/
theorem stem_of_final {f g : SegFile} (h : f.final = g.final) : f.stem = g.stem :=
  (String.append_left_inj _).mp h

/-- The partial name tells the stem. -/
theorem stem_of_part {f g : SegFile} (h : f.part = g.part) : f.stem = g.stem :=
  (String.append_left_inj _).mp ((String.append_left_inj _).mp h)

/-- A file with the final name of a segment has its stem. -/
theorem stem_of_final_eq_name {f g : SegFile} (h : f.final = g.name) : f.stem = g.stem := by
  unfold name at h
  split at h
  · exact stem_of_final h
  · exact absurd h (final_ne_part f g)

/-- A file with the partial name of a segment has its stem. -/
theorem stem_of_part_eq_name {f g : SegFile} (h : f.part = g.name) : f.stem = g.stem := by
  unfold name at h
  split at h
  · exact absurd h.symm (final_ne_part g f)
  · exact stem_of_part h

/-- Files of one name have one stem. -/
theorem stem_of_name {f g : SegFile} (h : f.name = g.name) : f.stem = g.stem := by
  by_cases hf : f.finished = true
  · exact stem_of_final_eq_name ((name_of_finished hf).symm.trans h)
  · exact stem_of_part_eq_name ((name_of_open (Bool.eq_false_iff.mpr hf)).symm.trans h)

end SegFile

/-! ## (2) Directories -/

/-- **A directory that holds segment files beside others**: their names are all different and free
in the others, and nothing else has changed there. -/
structure DirectoryOf (others files : Files) (segs : List SegFile) : Prop where
  stems : (segs.map SegFile.stem).Nodup
  fresh : ∀ f ∈ segs, f.final ∉ others ∧ f.part ∉ others
  lookup : ∀ f ∈ segs, files.lookup f.name = some f.bytes
  rest : ∀ name, (∀ f ∈ segs, name ≠ f.name) → files.lookup name = others.lookup name

namespace DirectoryOf

variable {others files files' : Files} {segs segs₁ segs₂ : List SegFile} {f f' : SegFile}

/-- Without segments the directory is what it was. -/
theorem nil (others : Files) : DirectoryOf others others [] := by
  refine ⟨List.nodup_nil, ?_, ?_, fun _ _ => rfl⟩
  · intro f hf
    cases hf
  · intro f hf
    cases hf

/-- Different segments have different final names. -/
theorem finals_nodup (h : DirectoryOf others files segs) : (segs.map SegFile.final).Nodup := by
  have hmap : segs.map SegFile.final =
      (segs.map SegFile.stem).map fun stem => stem ++ kSegmentExtension := by
    rw [List.map_map]
    rfl
  rw [hmap]
  exact h.stems.map fun _ _ => (String.append_left_inj _).mp

/-- None of the names of a new segment is one of the others'. -/
theorem stem_not_mem (h : DirectoryOf others files segs) {stem : String}
    (hfinal : stem ++ kSegmentExtension ∉ files)
    (hpart : stem ++ kSegmentExtension ++ kPartialSuffix ∉ files) :
    ∀ g ∈ segs, g.stem ≠ stem := by
  rintro g hg rfl
  have hmem : g.name ∈ files := AList.lookup_isSome.mp (by rw [h.lookup g hg]; rfl)
  unfold SegFile.name at hmem
  split at hmem
  · exact hfinal hmem
  · exact hpart hmem

/-- **A new segment.** -/
theorem add (h : DirectoryOf others files segs) {stem : String} (bytes : List UInt8)
    (hfinal : stem ++ kSegmentExtension ∉ files)
    (hpart : stem ++ kSegmentExtension ++ kPartialSuffix ∉ files) :
    DirectoryOf others (files.insert (stem ++ kSegmentExtension ++ kPartialSuffix) bytes)
      (segs ++ [⟨stem, false, bytes⟩]) := by
  have hstem := h.stem_not_mem hfinal hpart
  have hname : ∀ g ∈ segs, g.name ≠ stem ++ kSegmentExtension ++ kPartialSuffix := by
    intro g hg heq
    exact hstem g hg (SegFile.stem_of_part_eq_name (f := ⟨stem, false, bytes⟩) heq.symm).symm
  -- what is neither in the directory nor a segment was not there before
  have hothers : ∀ name, name ∉ files → (∀ g ∈ segs, name ≠ g.name) → name ∉ others := by
    intro name hfree hne
    rw [← AList.lookup_eq_none, ← h.rest name hne, AList.lookup_eq_none]
    exact hfree
  refine ⟨?_, ?_, ?_, ?_⟩
  · -- the stems stay distinct, as the new one is free under both of its names
    rw [List.map_append, List.map_singleton, List.nodup_append]
    refine ⟨h.stems, List.nodup_singleton _, ?_⟩
    rintro s hs t ht rfl
    obtain ⟨g, hg, hgs⟩ := List.mem_map.mp hs
    exact hstem g hg (hgs.trans (List.mem_singleton.mp ht))
  · intro g hg
    rcases List.mem_append.mp hg with hold | hnew
    · exact h.fresh g hold
    · rw [List.mem_singleton.mp hnew]
      refine ⟨hothers _ hfinal fun g hg heq => ?_, hothers _ hpart fun g hg heq => ?_⟩
      · exact hstem g hg (SegFile.stem_of_final_eq_name (f := ⟨stem, false, bytes⟩) heq).symm
      · exact hname g hg heq.symm
  · intro g hg
    -- the new file hides no other one
    rcases List.mem_append.mp hg with hold | hnew
    · rw [AList.lookup_insert_ne (hname g hold)]
      exact h.lookup g hold
    · rw [List.mem_singleton.mp hnew]
      exact AList.lookup_insert _
  · intro name hne
    have hpart : name ≠ stem ++ kSegmentExtension ++ kPartialSuffix :=
      hne _ (List.mem_append_right _ (List.mem_singleton_self _))
    rw [AList.lookup_insert_ne hpart]
    exact h.rest name fun g hg => hne g (List.mem_append_left _ hg)

/-- Another file in the place of one segment file, with one of its names. -/
theorem replace (h : DirectoryOf others files (segs₁ ++ f :: segs₂)) (hstem : f'.stem = f.stem)
    (hlookup : files'.lookup f'.name = some f'.bytes)
    (hgone : f.name ≠ f'.name → files'.lookup f.name = none)
    (hsame : ∀ name, name ≠ f.name → name ≠ f'.name → files'.lookup name = files.lookup name) :
    DirectoryOf others files' (segs₁ ++ f' :: segs₂) := by
  have hnodup := h.stems
  rw [List.map_append, List.map_cons, List.nodup_append] at hnodup
  obtain ⟨-, hcons, hdisjoint⟩ := hnodup
  have hfmem : f ∈ segs₁ ++ f :: segs₂ := List.mem_append_right _ List.mem_cons_self
  -- The stems differ, so what is said of `f` is said of no other segment.
  have hkept : ∀ g ∈ segs₁ ++ f' :: segs₂, g = f' ∨ g ∈ segs₁ ++ f :: segs₂ ∧ g.stem ≠ f.stem := by
    intro g hg
    rcases List.mem_append.mp hg with hfirst | hlater
    · refine .inr ⟨List.mem_append_left _ hfirst, ?_⟩
      exact hdisjoint _ (List.mem_map_of_mem hfirst) _ List.mem_cons_self
    · rcases List.mem_cons.mp hlater with rfl | hlast
      · exact .inl rfl
      · refine .inr ⟨List.mem_append_right _ (List.mem_cons_of_mem _ hlast), fun heq => ?_⟩
        exact (List.nodup_cons.mp hcons).1 (heq ▸ List.mem_map_of_mem hlast)
  have hnames : f'.final = f.final ∧ f'.part = f.part := by
    rw [SegFile.final, SegFile.final, SegFile.part, SegFile.part, hstem]
    exact ⟨rfl, rfl⟩
  refine ⟨?_, ?_, ?_, ?_⟩
  · have hmap : (segs₁ ++ f' :: segs₂).map SegFile.stem =
        (segs₁ ++ f :: segs₂).map SegFile.stem := by
      rw [List.map_append, List.map_append, List.map_cons, List.map_cons, hstem]
    rw [hmap]
    exact h.stems
  · intro g hg
    rcases hkept g hg with rfl | ⟨hold, -⟩
    · rw [hnames.1, hnames.2]
      exact h.fresh f hfmem
    · exact h.fresh g hold
  · intro g hg
    rcases hkept g hg with rfl | ⟨hold, hne⟩
    · exact hlookup
    · rw [hsame _ (fun heq => hne (SegFile.stem_of_name heq))
        fun heq => hne ((SegFile.stem_of_name heq).trans hstem)]
      exact h.lookup g hold
  · intro name hne
    have hne' := hne f' (List.mem_append_right _ List.mem_cons_self)
    by_cases hf : name = f.name
    · -- the old name of the segment is free, and it was none of the other files
      subst hf
      have hfree : f.name ∉ others := by
        unfold SegFile.name
        split
        · exact (h.fresh f hfmem).1
        · exact (h.fresh f hfmem).2
      rw [hgone hne', AList.lookup_eq_none.mpr hfree]
    · rw [hsame name hf hne']
      refine h.rest name fun g hg => ?_
      rcases List.mem_append.mp hg with hfirst | hlater
      · exact hne g (List.mem_append_left _ hfirst)
      · rcases List.mem_cons.mp hlater with rfl | hlast
        · exact hf
        · exact hne g (List.mem_append_right _ (List.mem_cons_of_mem _ hlast))

/-- **Writing** to a segment file. -/
theorem write (h : DirectoryOf others files (segs₁ ++ f :: segs₂)) (bytes : List UInt8) :
    DirectoryOf others (files.insert f.name bytes)
      (segs₁ ++ { f with bytes := bytes } :: segs₂) := by
  refine h.replace rfl (AList.lookup_insert _) (fun hne => absurd rfl hne) fun name hne _ => ?_
  exact AList.lookup_insert_ne hne

/-- The final name of an unfinished segment is free. -/
theorem final_not_mem (h : DirectoryOf others files segs) (hf : f ∈ segs)
    (hopen : f.finished = false) : f.final ∉ files := by
  rw [← AList.lookup_eq_none, h.rest f.final fun g hg heq => ?_, AList.lookup_eq_none]
  · exact (h.fresh f hf).1
  · have hstem := SegFile.stem_of_final_eq_name heq
    have hfg : f = g := List.inj_on_of_nodup_map h.stems hf hg hstem
    rw [← hfg, SegFile.name_of_open hopen] at heq
    exact SegFile.final_ne_part f f heq

/-- **Renaming** a segment file to its final name. -/
theorem rename (h : DirectoryOf others files (segs₁ ++ f :: segs₂)) (hopen : f.finished = false) :
    DirectoryOf others (files.rename f.part f.final)
      (segs₁ ++ { f with finished := true } :: segs₂) := by
  have hlookup := h.lookup f (List.mem_append_right _ List.mem_cons_self)
  rw [SegFile.name_of_open hopen] at hlookup
  have hrename : files.rename f.part f.final = (files.erase f.part).insert f.final f.bytes := by
    rw [Files.rename, hlookup]
  rw [hrename]
  refine h.replace rfl (AList.lookup_insert _) (fun _ => ?_) fun name hne hne' => ?_
  · rw [SegFile.name_of_open hopen, AList.lookup_insert_ne (SegFile.final_ne_part f f).symm,
      AList.lookup_erase]
  · have hfinal : name ≠ f.final := hne'
    rw [SegFile.name_of_open hopen] at hne
    rw [AList.lookup_insert_ne hfinal, AList.lookup_erase_ne hne]

end DirectoryOf

/-! ## (3) The writer -/

namespace SegmentWriter

/-- **The segment files of a writer**: those that it has closed and the open one. -/
structure WriterFiles (others : Files) (w : SegmentWriter) (done : List SegFile)
    (current : Option SegFile) : Prop where
  created : w.created = (done ++ current.toList).map SegFile.final
  files : DirectoryOf others w.files (done ++ current.toList)
  is_open : w.out_ = current.isSome
  paths : ∀ f ∈ current, f.finished = false ∧ w.final_path_ = f.final ∧ w.partial_path_ = f.part

variable {others : Files} {w : SegmentWriter} {done : List SegFile} {current : Option SegFile}

/-- A writer without segments. -/
theorem writerFiles_start (hcreated : w.created = []) (hout : w.out_ = false) :
    WriterFiles w.files w [] none := by
  refine ⟨hcreated, DirectoryOf.nil w.files, hout, ?_⟩
  intro f hf
  cases hf

/-- **Closing the open segment**, whether or not it could be renamed. -/
theorem WriterFiles.finish_segment (h : WriterFiles others w done current) (renamed : Bool) :
    WriterFiles others (w.finish_segment renamed)
      (done ++ current.toList.map fun f => { f with finished := renamed }) none := by
  have hout := h.is_open
  cases current with
  -- nothing was open, so nothing is renamed
  | none =>
      rw [Option.isSome_none] at hout
      rw [SegmentWriter.finish_segment, hout, if_neg (by decide), Option.toList_none, List.map_nil,
        List.append_nil]
      exact h
  | some f =>
      rw [Option.isSome_some] at hout
      obtain ⟨hopen, hfinal, hpart⟩ := h.paths f rfl
      rw [SegmentWriter.finish_segment, if_pos hout]
      refine ⟨?_, ?_, rfl, ?_⟩
      · have hcreated := h.created
        rw [Option.toList_some, List.map_append] at hcreated
        rw [Option.toList_none, List.append_nil, Option.toList_some, List.map_append]
        exact hcreated
      · rw [Option.toList_none, List.append_nil, Option.toList_some, List.map_singleton]
        cases renamed with
        -- the renaming failed: the segment stays under its partial name, closed
        | false =>
            have hsame : ({ f with finished := false } : SegFile) = f := by
              rw [← hopen]
            rw [hsame]
            exact h.files
        | true =>
            dsimp only
            rw [if_pos rfl, hfinal, hpart]
            exact h.files.rename hopen
      · intro g hg
        cases hg

/-- What is flushed to the open segment. -/
theorem WriterFiles.flushed {f : SegFile} (h : WriterFiles others w done (some f))
    (outcome : FlushOutcome) (bytes : List UInt8) :
    ∃ written, written <+: bytes ∧ (outcome = .flushed → written = bytes) ∧
      w.flushed outcome bytes = w.files.insert f.name (f.bytes ++ written) := by
  obtain ⟨hopen, hfinal, hpart⟩ := h.paths f rfl
  have hname : w.partial_path_ = f.name := hpart.trans (SegFile.name_of_open hopen).symm
  have hcontent : w.files.content w.partial_path_ = f.bytes := by
    rw [Files.content, hname, h.files.lookup f (List.mem_append_right _ List.mem_cons_self),
      Option.getD_some]
  -- the stream is closed with all its bytes or with a part of them
  cases outcome with
  | flushed =>
      refine ⟨bytes, List.prefix_rfl, fun _ => rfl, ?_⟩
      rw [SegmentWriter.flushed, hcontent, hname]
  | failed written =>
      refine ⟨bytes.take written, List.take_prefix _ _, fun hne => ?_, ?_⟩
      · cases hne
      · rw [SegmentWriter.flushed, hcontent, hname]

/-- More bytes in the open segment. -/
theorem WriterFiles.write {f : SegFile} (h : WriterFiles others w done (some f))
    (bytes : List UInt8) {w' : SegmentWriter} (hfiles : w'.files = w.files.insert f.name bytes)
    (hcreated : w'.created = w.created) (hout : w'.out_ = w.out_)
    (hfinal : w'.final_path_ = w.final_path_) (hpart : w'.partial_path_ = w.partial_path_) :
    WriterFiles others w' done (some { f with bytes := bytes }) := by
  refine ⟨?_, ?_, hout.trans h.is_open, ?_⟩
  · rw [hcreated, h.created, List.map_append, List.map_append]
    rfl
  · rw [hfiles]
    exact h.files.write bytes
  · rintro g ⟨⟩
    rw [hfinal, hpart]
    exact h.paths f rfl

/-! ## (4) Opening and appending -/

/-- The writer once the file of a new segment has been created. -/
def begun (w : SegmentWriter) (created : Int64) : SegmentWriter :=
  let sequence := next_sequence w.files created w.files.keys.length w.sequence_
  { w with
    sequence_ := sequence
    final_path_ := final_name created sequence
    partial_path_ := partial_name created sequence
    out_ := true
    files := w.files.insert (partial_name created sequence) []
    created := w.created ++ [final_name created sequence] }

/-- The new file, still empty. -/
theorem WriterFiles.begun (h : WriterFiles others w done none) (created : Int64) :
    ∃ stem, WriterFiles others (w.begun created) done (some ⟨stem, false, []⟩) := by
  have hfresh := next_sequence_fresh w.files created w.sequence_
  obtain ⟨hfinal, hpart⟩ := not_or.mp hfresh
  have hfiles := h.files
  rw [Option.toList_none, List.append_nil] at hfiles
  refine ⟨segment_stem created _, ?_, hfiles.add [] hfinal hpart, rfl, ?_⟩
  · have hcreated := h.created
    rw [Option.toList_none, List.append_nil] at hcreated
    rw [SegmentWriter.begun, hcreated, Option.toList_some, List.map_append]
    rfl
  · rintro f ⟨⟩
    exact ⟨rfl, rfl, rfl⟩

/-- The writer once the front of a new segment has been written, as far as it was. -/
def fronted (w : SegmentWriter) (created : Int64) (io : SegmentIo) : SegmentWriter :=
  { w.begun created with
    files := (w.begun created).flushed io.header (w.prefixBytes created) }

/-- Where the file cannot be created, opening fails and changes no file. -/
theorem open_segment_of_not_created {io : SegmentIo} (hio : io.created = false)
    (created : Int64) :
    ∃ w' what, w.open_segment created io = (w', .error what) ∧ w'.files = w.files ∧
      w'.created = w.created ∧ w'.out_ = w.out_ ∧ w'.options_ = w.options_ ∧
      w'.tag_table_ = w.tag_table_ ∧ w'.segment_bytes_ = w.segment_bytes_ := by
  rw [open_segment]
  dsimp only
  rw [if_pos (by rw [hio]; decide)]
  exact ⟨_, _, rfl, rfl, rfl, rfl, rfl, rfl, rfl⟩

/-- Where the front is flushed, the segment is open and as long as its front. -/
theorem open_segment_of_flushed {io : SegmentIo} (hio : io.created = true)
    (hheader : io.header = .flushed) (created : Int64) :
    w.open_segment created io =
      ({ w.fronted created io with
        segment_bytes_ := (w.prefixBytes created).length
        bytes_written_ := w.bytes_written_ + (w.prefixBytes created).length }, .ok ()) := by
  rw [open_segment, fronted, hheader]
  dsimp only
  rw [if_neg (by rw [hio]; decide)]
  rfl

/-- Where the front is not flushed, the segment is closed and the opening fails. -/
theorem open_segment_of_failed {io : SegmentIo} (hio : io.created = true) {written : Nat}
    (hheader : io.header = .failed written) (created : Int64) :
    ∃ what, w.open_segment created io =
      ((w.fronted created io).finish_segment io.sealed, .error what) := by
  rw [open_segment, fronted, hheader]
  dsimp only
  rw [if_neg (by rw [hio]; decide)]
  exact ⟨_, rfl⟩

/-- The new file with the front, or a part of it. -/
theorem WriterFiles.fronted (h : WriterFiles others w done none) (created : Int64)
    (io : SegmentIo) :
    ∃ stem written, written <+: w.prefixBytes created ∧
      (io.header = .flushed → written = w.prefixBytes created) ∧
      WriterFiles others (w.fronted created io) done (some ⟨stem, false, written⟩) := by
  obtain ⟨stem, hbegun⟩ := h.begun created
  obtain ⟨written, hprefix, hall, hfiles⟩ := hbegun.flushed io.header (w.prefixBytes created)
  rw [List.nil_append] at hfiles
  exact ⟨stem, written, hprefix, hall, hbegun.write written hfiles rfl rfl rfl rfl⟩

/-- The writer once a batch has been written to the open segment, as far as it was. -/
def appended (w : SegmentWriter) (io : SegmentIo) (batch : List UInt8) : SegmentWriter :=
  { w with files := w.flushed io.batch batch }

/-- A flushed batch stands at the end of the open segment. -/
theorem append_batch_of_flushed {io : SegmentIo} (hio : io.batch = .flushed)
    (batch : List UInt8) :
    w.append_batch io batch =
      ({ w.appended io batch with
        segment_bytes_ := w.segment_bytes_ + batch.length
        bytes_written_ := w.bytes_written_ + batch.length }, .ok ()) := by
  rw [append_batch, appended, hio]

/-- A batch that is not flushed closes the segment and fails. -/
theorem append_batch_of_failed {io : SegmentIo} {written : Nat} (hio : io.batch = .failed written)
    (batch : List UInt8) :
    ∃ what, w.append_batch io batch =
      ((w.appended io batch).finish_segment io.sealed, .error what) := by
  rw [append_batch, appended, hio]
  exact ⟨_, rfl⟩

/-- The open segment with the batch, or a part of it. -/
theorem WriterFiles.appended {f : SegFile} (h : WriterFiles others w done (some f))
    (io : SegmentIo) (batch : List UInt8) :
    ∃ written, written <+: batch ∧ (io.batch = .flushed → written = batch) ∧
      WriterFiles others (w.appended io batch) done
        (some { f with bytes := f.bytes ++ written }) := by
  obtain ⟨written, hprefix, hall, hfiles⟩ := h.flushed io.batch batch
  exact ⟨written, hprefix, hall, h.write _ hfiles rfl rfl rfl rfl⟩

end SegmentWriter

end Ironpulse.Ingest
