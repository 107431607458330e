import Ironpulse.Ingest.ExporterInvariant

/-! # Readings are exported exactly once

From `submit` to the segments on disk: what the segments give back is what the threads submitted, in
the order in which they held the mutex. The tag table's size stands in a 32-bit field that a larger
table overflows, and then no segment can be read.

* **`readBack`**: the samples of the segments, resolved through their own tag tables.
* **`readBack_written`**: what a writer's segments give back.
* **`exports_once_iff`**: readings come back exactly when the tag table fits its size field. -/

namespace Ironpulse.Ingest

open Core Storage StepMachine

/-! ## (1) Tags -/

/-- What a sample stands for where these are the tags: sensor, milliseconds and value. -/
def resolve (tags : List TagInfo) (sample : TelemetrySample) : Option String × UInt64 × UInt64 :=
  ((tags.find? fun tag => tag.id = sample.tag_id).map TagInfo.sensor_id, sample.timestamp_ms,
    sample.value)

/-- What a reading is to come back as. -/
def Reading.exported (reading : Reading) : Option String × UInt64 × UInt64 :=
  (some reading.sensor_id,
    UInt64.ofNat (max 0 (duration_cast_milliseconds reading.timestamp).toInt).toNat, reading.value)

/-- The exported timestamp is the reading's time in milliseconds, not below zero. -/
theorem timestamp_ms_eq (timestamp : TimePoint) :
    timestamp_ms timestamp =
      UInt64.ofNat (max 0 (duration_cast_milliseconds timestamp).toInt).toNat := by
  unfold timestamp_ms
  dsimp only
  split
  · -- a time before the epoch
    rename_i hneg
    have hneg' := Int64.lt_iff_toInt_lt.mp hneg
    have hmax : max 0 (duration_cast_milliseconds timestamp).toInt = 0 :=
      max_eq_left (le_of_lt hneg')
    rw [hmax]
    rfl
  · rename_i hnonneg
    have hle : 0 ≤ (duration_cast_milliseconds timestamp).toInt := by
      have hle' := Int64.not_lt.mp hnonneg
      exact Int64.le_iff_toInt_le.mp hle'
    rw [max_eq_right hle]
    apply UInt64.toNat_inj.mp
    have hcast : (duration_cast_milliseconds timestamp).toUInt64.toNat =
        (duration_cast_milliseconds timestamp).toInt.toNat :=
      Int64.toNat_toUInt64_of_le (Int64.le_iff_toInt_le.mpr hle)
    have hlt := Int64.toInt_lt (duration_cast_milliseconds timestamp)
    have hsize : UInt64.size = 2 ^ 64 := rfl
    rw [hcast, UInt64.toNat_ofNat_of_lt' (by omega)]

/-- **A sample is resolved to its reading** if no two tags share an id. -/
theorem resolve_sampleOf {tags : List TagInfo} (hids : (tags.map TagInfo.id).Nodup)
    {reading : Reading} {sample : TelemetrySample}
    (h : sampleOf (tags.map fun tag => (tag.sensor_id, tag.id)) reading = some sample) :
    resolve tags sample = reading.exported := by
  obtain ⟨id, hlookup, rfl⟩ := Option.map_eq_some_iff.mp h
  obtain ⟨before, after, heq, -⟩ := List.lookup_eq_some_iff.mp hlookup
  have hmem : (reading.sensor_id, id) ∈ tags.map fun tag => (tag.sensor_id, tag.id) := by
    rw [heq]
    exact List.mem_append_right _ List.mem_cons_self
  obtain ⟨tag, htag, hpair⟩ := List.mem_map.mp hmem
  obtain ⟨hsensor, rfl⟩ := Prod.mk.inj hpair
  -- the ids are distinct, so the search stops at this tag
  have hfind : (tags.find? fun other => other.id = tag.id) = some tag := by
    cases hfound : tags.find? fun other => other.id = tag.id with
    | none => exact absurd (List.find?_eq_none.mp hfound tag htag) (by simp)
    | some other =>
        have hid : other.id = tag.id := by simpa using List.find?_some hfound
        rw [List.inj_on_of_nodup_map hids (List.mem_of_find?_eq_some hfound) htag hid]
  rw [resolve, hfind, timestamp_ms_eq, Reading.exported, ← hsensor]
  rfl

/-- Tags are numbered from one. -/
theorem map_id_tags_from_devices (devices : List ModbusDeviceConfig) :
    (tags_from_devices devices).map TagInfo.id =
      (List.range (tags_from_devices devices).length).map fun i => UInt32.ofNat (i + 1) := by
  refine List.ext_getElem (by simp) fun i _ _ => ?_
  simp [tags_from_devices]

/-- **The ids of up to `2 ^ 32` tags are distinct**; of more than that the first comes again. -/
theorem nodup_id_tags_from_devices_iff {devices : List ModbusDeviceConfig} :
    ((tags_from_devices devices).map TagInfo.id).Nodup ↔
      (tags_from_devices devices).length ≤ 2 ^ 32 := by
  rw [map_id_tags_from_devices]
  constructor
  · intro hnodup
    by_contra hmany
    -- the id wraps to zero at the tag behind the last number
    have hwrap : UInt32.ofNat (0 + 1) = UInt32.ofNat (2 ^ 32 + 1) := by decide
    have hsame := List.inj_on_of_nodup_map hnodup (List.mem_range.mpr (by omega))
      (List.mem_range.mpr (Nat.lt_of_not_le hmany)) hwrap
    omega
  · intro hcount
    refine List.Nodup.map_on ?_ List.nodup_range
    intro i hi j hj heq
    have hnat := congrArg UInt32.toNat heq
    rw [List.mem_range] at hi hj
    rw [UInt32.toNat_ofNat', UInt32.toNat_ofNat'] at hnat
    omega

/-! ## (2) Reading the segments back -/

/-- The samples of the segments, in order, each resolved through the tag table of its segment. -/
def readBack (json : JsonLibrary) (directory : String) (files : Files) (names : List String) :
    List (Option String × UInt64 × UInt64) :=
  names.flatMap fun name =>
    let result := read_segment json (path_text directory name) (files.lookup name)
    result.delivered.flatMap fun delivery => delivery.samples.map (resolve result.tags)

section ReadBack

variable {json : JsonLibrary} {tags : List TagInfo} {w : SegmentWriter} {others : Files}
  {front : Int64 → List UInt8} {done : List SegmentWriter.Written} {directory : String}

/-- The reader goes over the complete segments of the writer. -/
theorem readBack_eq (h : SegmentWriter.WriterInv others front w done none) :
    readBack json directory w.files w.created = done.flatMap fun seg =>
      let result := read_segment json (path_text directory (seg.stem ++ kSegmentExtension))
        (some (w.segmentBytes seg.created seg.batches))
      result.delivered.flatMap fun delivery => delivery.samples.map (resolve result.tags) := by
  rw [readBack, h.created_eq, List.flatMap_map]
  refine List.flatMap_congr fun seg hseg => ?_
  rw [h.lookup_done hseg, SegmentWriter.segmentBytes, h.same_front]

/-- **What a writer's segments give back**: the samples of its batches, in order. -/
theorem readBack_written (h : SegmentWriter.WriterInv others front w done none)
    (htable : w.tag_table_ = encode_tag_table json tags) (hsize : w.tag_table_.length < 2 ^ 32)
    (hparse : json.parse (encode_tag_table json tags) = .ok (tag_table tags))
    (hbatches : ∀ bytes ∈ SegmentWriter.batchesOf done none, ∃ samples,
      bytes = encodedBatch samples ∧ samples.length < 2 ^ 32) :
    readBack json directory w.files w.created =
      (sentSamples (SegmentWriter.batchesOf done none)).map (resolve tags) := by
  rw [readBack_eq h, SegmentWriter.batchesOf, Option.toList_none, List.append_nil, sentSamples,
    List.flatMap_assoc, List.map_flatMap]
  refine List.flatMap_congr fun seg hseg => ?_
  -- the batches of the segment are the encodings of their decodings
  let decoded := seg.batches.map fun bytes => (decode_copy bytes []).2
  have hencoded : ∀ bytes ∈ seg.batches, ∃ samples, bytes = encodedBatch samples ∧
      (decode_copy bytes []).2 = samples ∧ samples.length < 2 ^ 32 := by
    intro bytes hbytes
    have hmem : bytes ∈ SegmentWriter.batchesOf done none := by
      rw [SegmentWriter.batchesOf, Option.toList_none, List.append_nil]
      exact List.mem_flatMap.mpr ⟨seg, hseg, hbytes⟩
    obtain ⟨samples, rfl, hcount⟩ := hbatches bytes hmem
    have hdecode := decode_copy_encoded hcount [] []
    rw [List.append_nil, List.nil_append] at hdecode
    exact ⟨samples, rfl, by rw [hdecode], hcount⟩
  have hmap : seg.batches = decoded.map encodedBatch := by
    rw [List.map_map]
    refine (List.map_id' seg.batches).symm.trans (List.map_congr_left fun bytes hbytes => ?_)
    obtain ⟨samples, hbytes', hdecode, -⟩ := hencoded bytes hbytes
    show bytes = encodedBatch (decode_copy bytes []).2
    rw [hdecode, ← hbytes']
  have hcount : ∀ samples ∈ decoded, samples.length < 2 ^ 32 := by
    intro samples hsamples
    obtain ⟨bytes, hbytes, rfl⟩ := List.mem_map.mp hsamples
    obtain ⟨samples, -, hdecode, hlt⟩ := hencoded bytes hbytes
    rw [hdecode]
    exact hlt
  obtain ⟨deliveries, hdeliveries, hread⟩ := SegmentWriter.read_segment_written htable hsize hparse
    decoded hcount (path_text directory (seg.stem ++ kSegmentExtension)) seg.created
  rw [← hmap] at hread
  rw [hread]
  show deliveries.flatMap (fun delivery => delivery.samples.map (resolve tags)) = _
  rw [← List.map_flatMap, List.flatMap_def, hdeliveries]
  rfl

/-- **Behind an oversized tag table nothing can be read.** -/
theorem readBack_of_large_table (h : SegmentWriter.WriterInv others front w done none)
    (hsize : 2 ^ 32 ≤ w.tag_table_.length)
    (hpart : ∀ text, text <+: w.tag_table_ → text ≠ w.tag_table_ →
      ∃ what, json.parse text = .error what) :
    readBack json directory w.files w.created = [] := by
  rw [readBack_eq h, List.flatMap_eq_nil_iff]
  intro seg _
  dsimp only
  rw [SegmentWriter.read_segment_of_large_table hsize hpart]
  rfl

end ReadBack

/-- What holds of two lists element by element. -/
theorem map_eq_map_of_map_some {α β γ : Type} {f : β → Option α} {g : α → γ} {k : β → γ}
    (hg : ∀ a b, f b = some a → g a = k b) {as : List α} {bs : List β}
    (h : as.map some = bs.map f) : as.map g = bs.map k := by
  induction as generalizing bs with
  | nil =>
      rw [List.map_nil, eq_comm, List.map_eq_nil_iff] at h
      rw [h, List.map_nil, List.map_nil]
  | cons a as ih =>
      cases bs with
      | nil => cases h
      | cons b bs =>
          rw [List.map_cons, List.map_cons, List.cons.injEq] at h
          rw [List.map_cons, List.map_cons, hg a b h.1.symm, ih h.2]

/-! ## (3) Exactly once -/

namespace ReadingExporter

/-- **Exactly once**: in every run, on any files and with any number of threads, the segments give
back after `stop()` what was accepted, in order. -/
def ExportsOnce (json : JsonLibrary) (config : ExportConfig) (tags : List TagInfo) : Prop :=
  ∀ files s₀ es s, make json config tags files = .ok s₀ → run step s₀ es = some s →
    s.owner = .stopped →
      readBack json config.directory s.writer_.files s.writer_.created =
        s.accepted.map Reading.exported

variable {json : JsonLibrary} {config : ExportConfig} {tags : List TagInfo}

/-- When `stop()` has returned, everything that was accepted is in finished segments. -/
theorem ExporterInv.written_of_stopped {s : ReadingExporter} (h : ExporterInv json tags s)
    (howner : s.owner = .stopped) :
    ∃ others front done, SegmentWriter.WriterInv others front s.writer_ done none ∧
      SegmentWriter.batchesOf done none = s.ingestor_.sink_calls ∧
      (sentSamples s.ingestor_.sink_calls).map some = s.accepted.map (sampleOf s.tag_ids_) := by
  obtain ⟨others, front, done, current, hwriter, hbatches, hclosed⟩ := h.written
  obtain rfl := hclosed howner
  have hpc := h.joined howner
  have hnot : ¬ s.ingestor_.InSink := by
    simp only [Ingestor.InSink, hpc, not_false_eq_true]
  refine ⟨others, front, done, hwriter, hbatches.trans (Ingestor.handedOver_of_not_inSink hnot), ?_⟩
  rw [h.ingestor.sent_eq_accepted hpc]
  exact h.history

/-- **Where the tag table fits its length field**, each accepted reading is exported once. -/
theorem exportsOnce_of_fits (hvalid : config.Valid) (hlimit : config.max_total_mb = 0)
    {devices : List ModbusDeviceConfig}
    (hparse : json.parse (encode_tag_table json (tags_from_devices devices)) =
      .ok (tag_table (tags_from_devices devices)))
    (hsize : (encode_tag_table json (tags_from_devices devices)).length < 2 ^ 32) :
    ExportsOnce json config (tags_from_devices devices) := by
  intro files s₀ es s hmake hrun howner
  have hinv : ExporterInv json (tags_from_devices devices) s :=
    run_invariant exporterInv_step (exporterInv_make hvalid hlimit hmake).1 hrun
  obtain ⟨others, front, done, hwriter, hbatches, hhistory⟩ := hinv.written_of_stopped howner
  have hids := nodup_id_tags_from_devices_iff.mpr
    ((length_le_length_encode_tag_table json _).trans (Nat.le_of_lt hsize))
  have hencoded : ∀ bytes ∈ SegmentWriter.batchesOf done none, ∃ samples,
      -- everything that was handed to the writer was encoded from a batch that fits its header
      bytes = encodedBatch samples ∧ samples.length < 2 ^ 32 := by
    intro bytes hbytes
    rw [hbatches] at hbytes
    obtain ⟨samples, heq, -, hle⟩ := hinv.ingestor.data.calls_ok bytes hbytes
    exact ⟨samples, heq, Nat.lt_of_le_of_lt hle hinv.ingestor.data.batch_size_lt⟩
  rw [readBack_written hwriter hinv.table (by rw [hinv.table]; exact hsize) hparse hencoded,
    hbatches]
  rw [hinv.tag_ids] at hhistory
  exact map_eq_map_of_map_some (fun sample reading => resolve_sampleOf hids) hhistory

/-! ## (4) A run that fails -/

/-- **After `stop()` has asked the consumer to stop, it comes to its end**, and nothing more is
accepted. -/
theorem exists_finished {s : ReadingExporter} (h : ExporterInv json tags s)
    (howner : s.owner = .joining) :
    ∃ t, Reachable step s t ∧ t.owner = .joining ∧ t.ingestor_.consumer_ = .finished ∧
      t.accepted = s.accepted := by
  induction hn : s.ingestor_.remainingSteps using Nat.strong_induction_on generalizing s with
  | _ n ih =>
      by_cases hpc : s.ingestor_.consumer_ = .finished
      · exact ⟨s, Reachable.refl s, howner, hpc, rfl⟩
      · have hstopped : s.ingestor_.Stopped := ⟨h.ingestor, h.asked (.inl howner)⟩
        -- one step of the consumer, and then the rest
        have hnext : ∀ {e : ExportEvent} {i : IngestEvent} {t : ReadingExporter},
            step s e = some t → Ingestor.step s.ingestor_ i = some t.ingestor_ →
            t.owner = s.owner → t.accepted = s.accepted →
            ∃ u, Reachable step s u ∧ u.owner = .joining ∧ u.ingestor_.consumer_ = .finished ∧
              u.accepted = s.accepted := by
          intro e i t hstep hingestor hsame haccepted
          have hless := (Ingestor.stopped_step hstopped hingestor).2
          obtain ⟨u, hreach, hu⟩ := ih _ (hn ▸ hless) (exporterInv_step h hstep)
            (hsame.trans howner) rfl
          rw [haccepted] at hu
          exact ⟨u, (Reachable.of_step hstep).trans hreach, hu⟩
        rcases hstopped.exists_step hpc with ⟨ingestor, hingestor⟩ | hclock | hsink
        · refine @hnext .consumer .consumer { s with ingestor_ := ingestor } ?_ hingestor rfl rfl
          show s.ingestor_.consumerStep.map _ = _
          rw [hingestor]
          rfl
        · obtain ⟨ingestor, hingestor⟩ := hclock 0
          refine @hnext (.clock 0) (.clock 0) { s with ingestor_ := ingestor } ?_ hingestor rfl rfl
          show (s.ingestor_.clockStep 0).map _ = _
          rw [hingestor]
          rfl
        · obtain ⟨ingestor, hingestor⟩ := hsink .returns
          have hcalled := h.called (Ingestor.inSink_of_sinkStep hingestor)
          obtain ⟨others, front, done, current, hwriter, -, -⟩ := h.written
          obtain ⟨writer, -, -, hwrite, -⟩ := hwriter.write_batch 0
            (s.ingestor_.sink_calls.getLast hcalled)
          refine @hnext (.sink 0) (.sink .returns)
            { s with writer_ := writer, ingestor_ := ingestor } ?_ hingestor rfl rfl
          show s.sinkStep 0 = _
          rw [sinkStep, List.getLast?_eq_some_getLast hcalled]
          dsimp only
          rw [hwrite]
          dsimp only
          rw [hingestor]
          rfl

/-- The pushes of the thread inside the ingestor are steps of the exporter. -/
theorem reachable_of_pushes {s : ReadingExporter} {queue : SpscRingBuffer TelemetrySample}
    {thread n : Nat} {reading : Reading} {sample : TelemetrySample}
    (hthread : s.threads thread = .queueing reading)
    (hsubmit : s.ingestor_.submitting = some sample)
    (hrun : run SpscRingBuffer.step s.ingestor_.queue_ (.replicate n .producer) = some queue) :
    Reachable step s { s with ingestor_ := { s.ingestor_ with queue_ := queue } } := by
  induction n generalizing s with
  | zero =>
      rw [← Option.some.inj hrun]
      exact Reachable.refl s
  | succ n ih =>
      obtain ⟨queue₁, hstep, hrest⟩ := (run_cons_eq_some _).mp hrun
      have hfirst : Reachable step s
          { s with ingestor_ := { s.ingestor_ with queue_ := queue₁ } } := by
        -- a step of the push is the thread's next step
        refine @Reachable.of_step _ _ step s _ (.proceed thread) ?_
        obtain ⟨x, hitem, -⟩ := SpscRingBuffer.producerStep_result hstep
        show s.proceedStep thread = _
        simp only [proceedStep, hthread]
        rw [Ingestor.producerStep_of_queue hsubmit hstep, Option.map_some]
        split
        · rename_i hret
          rw [hret] at hitem
          cases hitem
        · rename_i hret
          rw [hret] at hitem
          cases hitem
        · rfl
      have hrest' := @ih { s with ingestor_ := { s.ingestor_ with queue_ := queue₁ } } hthread
        hsubmit hrest
      exact hfirst.trans hrest'

/-- **A reading that is accepted before `stop()`.** -/
theorem exists_accepted {files : Files} {s : ReadingExporter}
    (hmake : make json config tags files = .ok s) (hne : tags ≠ []) :
    ∃ t, Reachable step s t ∧ t.owner = .joining ∧ t.accepted ≠ [] := by
  obtain ⟨tag, tags, rfl⟩ := List.exists_cons_of_ne_nil hne
  unfold make at hmake
  cases hingestor : Ingestor.make (ingestorOptions config) with
  | error what =>
      rw [hingestor] at hmake
      cases hmake
  | ok ingestor =>
      rw [hingestor] at hmake
      cases hmake
      obtain ⟨-, queue, hqueue, rfl⟩ := Ingestor.make_eq_ok hingestor
      have hring := SpscRingBuffer.ringInv_make hqueue
      have hempty : ¬ queue.Full ∧ ¬ queue.producer.InCall := by
        obtain ⟨k, -, hcap⟩ := hring.capacity
        have hpos := Nat.two_pow_pos k
        obtain ⟨-, rfl⟩ := SpscRingBuffer.make_eq_ok hqueue
        refine ⟨?_, not_false⟩
        show ¬ 0 = 0 + _
        rw [hcap]
        omega
      let reading : Reading := { sensor_id := tag.sensor_id, value := 0, timestamp := 0 }
      let sample : TelemetrySample :=
        { timestamp_ms := timestamp_ms 0, value := 0, tag_id := tag.id }
      obtain ⟨queue₁, hpush⟩ := SpscRingBuffer.exists_startPush hempty.2 sample
      obtain ⟨n, queue₂, hpushes, hpushed, -⟩ := hring.pushesAlone hempty.1 hpush
      -- the owner starts the exporter, and a thread submits a reading of the first sensor
      let s₀ : ReadingExporter :=
        { tag_ids_ := (tag :: tags).map fun tag => (tag.sensor_id, tag.id)
          writer_ := SegmentWriter.make json (writerOptions config) (tag :: tags) files
          ingestor_ := { options_ := ingestorOptions config, queue_ := queue } }
      let s₁ := { s₀ with
        ingestor_ := { s₀.ingestor_ with running_ := true, consumer_ := .enter }
        accepting_ := true, owner := .running }
      let s₂ := { s₁ with threads := s₁.at_thread 0 (.waiting reading sample) }
      let s₃ := { s₂ with
        producer_mutex_ := some 0, threads := s₂.at_thread 0 (.holding reading sample) }
      let s₄ := { s₃ with
        ingestor_ := { s₃.ingestor_ with queue_ := queue₁, submitting := some sample }
        threads := s₃.at_thread 0 (.queueing reading) }
      let s₅ := { s₄ with ingestor_ := { s₄.ingestor_ with queue_ := queue₂ } }
      let i₆ := { s₅.ingestor_ with
        counters_ := s₅.ingestor_.counters_.record_ingested, submitting := none
        accepted := [sample] }
      let s₆ := returned { s₅ with ingestor_ := i₆ } 0 [reading]
      let s₇ := { s₆ with accepting_ := false, owner := .stopping }
      let s₈ := { s₇ with
        ingestor_ := { i₆ with running_ := false, stop_requested := true }, owner := .joining }
      have h₂ : step s₁ (.submit 0 reading) = some s₂ := by
        have hsample : sampleOf s₁.tag_ids_ reading = some sample := by
          show (List.lookup tag.sensor_id ((tag.sensor_id, tag.id) :: _)).map _ = _
          rw [List.lookup_cons_self]
          rfl
        show s₁.submitStep 0 reading = _
        rw [submitStep, if_pos rfl, hsample]
      have h₄ : step s₃ (.proceed 0) = some s₄ := by
        show (s₃.ingestor_.startSubmit sample).map _ = _
        rw [Ingestor.startSubmit, if_pos ⟨rfl, Bool.false_ne_true⟩,
          show s₃.ingestor_.queue_.startPush sample = some queue₁ from hpush]
        rfl
      have h₅ : Reachable step s₄ s₅ := reachable_of_pushes (Function.update_self _ _ _) rfl hpushes
      have h₆ : step s₅ (.proceed 0) = some s₆ := by
        have hproducer : s₅.ingestor_.queue_.producer = .returned true := hpushed
        have hreturn : s₅.ingestor_.producerStep = some i₆ := by
          unfold Ingestor.producerStep
          rw [show s₅.ingestor_.submitting = some sample from rfl]
          simp only [hproducer]
          rfl
        show s₅.proceedStep 0 = _
        have hthread : s₅.threads 0 = .queueing reading := rfl
        simp only [proceedStep, hthread, hreturn, hproducer, Option.map_some]
        rfl
      refine ⟨s₈, ?_, rfl, List.cons_ne_nil _ _⟩
      have hreach₁ : Reachable step s₀ s₁ := Reachable.of_step (e := .start) rfl
      have hreach₂ : Reachable step s₁ s₂ := Reachable.of_step h₂
      have hreach₃ : Reachable step s₂ s₃ := Reachable.of_step (e := .lock 0) rfl
      have hreach₄ : Reachable step s₃ s₄ := Reachable.of_step h₄
      have hreach₆ : Reachable step s₅ s₆ := Reachable.of_step h₆
      have hreach₇ : Reachable step s₆ s₇ := Reachable.of_step (e := .stopAccepting) rfl
      have hreach₈ : Reachable step s₇ s₈ := Reachable.of_step (e := .stopIngestor) rfl
      exact hreach₁.trans <| hreach₂.trans <| hreach₃.trans <| hreach₄.trans <| h₅.trans <|
        hreach₆.trans <| hreach₇.trans hreach₈

/-- **With an oversized tag table an accepted reading is lost.** -/
theorem not_exportsOnce (hvalid : config.Valid) (hlimit : config.max_total_mb = 0)
    (hne : tags ≠ []) (hsize : 2 ^ 32 ≤ (encode_tag_table json tags).length)
    (hpart : ∀ text, text <+: encode_tag_table json tags → text ≠ encode_tag_table json tags →
      ∃ what, json.parse text = .error what) :
    -- one reading is accepted and exported, but the reader rejects the segment's tag table
    ¬ ExportsOnce json config tags := by
  intro hall
  obtain ⟨ingestor, hingestor⟩ := Ingestor.exists_make (validate_ingestorOptions hvalid)
  obtain ⟨s₀, hmake⟩ : ∃ s₀, make json config tags ∅ = .ok s₀ := by
    rw [make, hingestor]
    exact ⟨_, rfl⟩
  have hinv₀ := (exporterInv_make hvalid hlimit hmake).1
  obtain ⟨s, hreach, howner, haccepted⟩ := exists_accepted hmake hne
  have hinv := Reachable.invariant exporterInv_step hinv₀ hreach
  obtain ⟨t, hreach', howner', hpc, hsame⟩ := exists_finished hinv howner
  have hfinish : step t .finishStop = some { t with writer_ := t.writer_.close, owner := .stopped } :=
    if_pos ⟨howner', hpc⟩
  have hreach'' := (hreach.trans hreach').trans (Reachable.of_step hfinish)
  have hinv' := Reachable.invariant exporterInv_step hinv₀ hreach''
  obtain ⟨es, hrun⟩ := hreach''
  have hback := hall ∅ _ es _ hmake hrun rfl
  obtain ⟨others, front, done, hwriter, -⟩ := hinv'.written_of_stopped rfl
  rw [readBack_of_large_table hwriter (by rw [hinv'.table]; exact hsize)
    (by rw [hinv'.table]; exact hpart)] at hback
  exact haccepted (hsame.symm.trans (List.map_eq_nil_iff.mp hback.symm))

/-- **Readings are exported exactly once exactly when the tag table fits its 32-bit size**: for
every valid configuration without a limit on the directory, every list of devices, every order of
the threads' steps and every clock. The JSON library's parser undoes `dump` on the tag table and
refuses a part of it. -/
theorem exports_once_iff (hvalid : config.Valid) (hlimit : config.max_total_mb = 0)
    (devices : List ModbusDeviceConfig)
    (hparse : json.parse (encode_tag_table json (tags_from_devices devices)) =
      .ok (tag_table (tags_from_devices devices)))
    (hpart : ∀ text, text <+: encode_tag_table json (tags_from_devices devices) →
      text ≠ encode_tag_table json (tags_from_devices devices) →
      ∃ what, json.parse text = .error what) :
    ExportsOnce json config (tags_from_devices devices) ↔
      (encode_tag_table json (tags_from_devices devices)).length < 2 ^ 32 := by
  constructor
  · -- a table of 4 GiB is read cut short, and nothing of its segment comes back
    intro hall
    by_contra hsize
    have hne : tags_from_devices devices ≠ [] := by
      intro hnil
      rw [hnil, length_encode_tag_table_nil] at hsize
      exact hsize (by decide)
    exact not_exportsOnce hvalid hlimit hne (Nat.not_lt.mp hsize) hpart hall
  · exact exportsOnce_of_fits hvalid hlimit hparse

/-- One device with one sensor of the given name. -/
def oneSensor (name : String) : List ModbusDeviceConfig :=
  [{ id := "plc", sensors := [{ id := "temperature", name := name }] }]

/-- The configuration of the export without a limit. -/
def unlimited : ExportConfig := { max_total_mb := 0 }

/-- A configuration without a limit on the disk space is valid. -/
theorem unlimited_valid : unlimited.Valid := by
  constructor
  · decide
  · decide
  · decide
  · rfl

/-- A sensor with an ordinary name is exported exactly once. -/
theorem exportsOnce_oneSensor :
    ExportsOnce (tableLibrary (tags_from_devices (oneSensor "T1"))) unlimited
      (tags_from_devices (oneSensor "T1")) :=
  (exports_once_iff unlimited_valid rfl (oneSensor "T1") (parse_tableLibrary _)
    fun _ _ hne => parse_tableLibrary_of_ne hne).mpr (by decide +kernel)

/-- A name of `2 ^ 32` characters makes the tag table too large. -/
theorem not_exportsOnce_of_long_name :
    ¬ ∀ (json : JsonLibrary) (config : ExportConfig) (devices : List ModbusDeviceConfig),
      config.Valid → config.max_total_mb = 0 →
      ((devices.flatMap ModbusDeviceConfig.sensors).map SensorConfig.id).Nodup →
      json.parse (encode_tag_table json (tags_from_devices devices)) =
        .ok (tag_table (tags_from_devices devices)) →
      ExportsOnce json config (tags_from_devices devices) := by
  intro hall
  -- a long name alone makes the table too long
  have hlost : ∀ name : String, 2 ^ 32 ≤ name.length →
      ¬ ExportsOnce (tableLibrary (tags_from_devices (oneSensor name))) unlimited
        (tags_from_devices (oneSensor name)) := by
    intro name hlong
    refine not_exportsOnce unlimited_valid rfl (List.cons_ne_nil _ _) ?_
      fun _ _ hne => parse_tableLibrary_of_ne hne
    let tag : TagInfo :=
      { id := 1, sensor_id := "temperature", device_id := "plc", name := name }
    have htags : tags_from_devices (oneSensor name) = [tag] := rfl
    rw [htags]
    exact hlong.trans (length_name_le_length_encode_tag_table _ tag)
  let name := String.ofList (List.replicate (2 ^ 32) 'a')
  refine hlost name ?_ (hall _ unlimited (oneSensor name) unlimited_valid rfl
    (List.nodup_singleton _) (parse_tableLibrary _))
  rw [String.length_ofList, List.length_replicate]

end ReadingExporter

end Ironpulse.Ingest
