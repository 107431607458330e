import Ironpulse.Ingest.ReadingExporter
import Ironpulse.Ingest.SegmentWriting
import Ironpulse.Ingest.Shutdown

/-! # What holds in every state of the exporter

Whichever way the submitting threads, the consumer and the owner take turns: one thread at a time is
inside the ingestor, what the ingestor accepted are the samples of the accepted readings, and what
it has handed over is in the segments.

* **`Ingestor.handedOver`**: the batches that the sink is done with.
* **`ThreadsInv`**: the threads at the mutex.
* **`ExporterInv`**: what holds in every state, and `exporterInv_step`. -/

namespace Ironpulse.Ingest

open Core Storage StepMachine

/-! ## (1) What the ingestor hands over -/

namespace Ingestor

/-- The consumer is inside the sink. -/
def InSink (s : Ingestor) : Prop :=
  match s.consumer_ with
  | .inSink _ | .inLastSink => True
  | _ => False

/-- The batches that the sink is done with. -/
def handedOver (s : Ingestor) : List (List UInt8) :=
  match s.consumer_ with
  | .inSink _ | .inLastSink => s.sink_calls.dropLast
  | _ => s.sink_calls

/-- Outside the sink everything it was called with is handed over. -/
theorem handedOver_of_not_inSink {s : Ingestor} (h : ¬ s.InSink) :
    s.handedOver = s.sink_calls := by
  unfold handedOver
  unfold InSink at h
  cases hpc : s.consumer_ with
  | inSink now | inLastSink =>
      rw [hpc] at h
      exact absurd trivial h
  | notStarted | enter | readFlag | drain | popping | readClock | checkStop | loadHead | loadTail
  | finished => rfl

/-- Inside the sink the last batch is not handed over yet. -/
theorem handedOver_of_inSink {s : Ingestor} (h : s.InSink) :
    s.handedOver = s.sink_calls.dropLast := by
  unfold handedOver
  unfold InSink at h
  cases hpc : s.consumer_ with
  | inSink now | inLastSink => rfl
  | notStarted | enter | readFlag | drain | popping | readClock | checkStop | loadHead | loadTail
  | finished =>
      rw [hpc] at h
      exact h.elim

/-- Handing a batch over: the sink is not done with it yet. -/
theorem handedOver_sendBatch (s : Ingestor) (hpc : ¬ s.InSink) (next : ConsumerPc)
    (hnext : ∀ t : Ingestor, t.consumer_ = next → t.InSink) :
    (s.sendBatch next).handedOver = s.handedOver ∧ (s.sendBatch next).sink_calls ≠ [] := by
  rw [handedOver_of_inSink (hnext _ rfl), handedOver_of_not_inSink hpc]
  refine ⟨List.dropLast_concat, ?_⟩
  exact List.append_ne_nil_of_right_ne_nil _ (List.cons_ne_nil _ _)

/-- What the consumer does apart from waiting for the sink: nothing that was handed over changes,
and inside the sink there is a batch. -/
theorem consumerStep_handedOver {s t : Ingestor} (hstep : s.consumerStep = some t) :
    t.handedOver = s.handedOver ∧ (t.InSink → t.sink_calls ≠ []) := by
  cases consumerMove_of_consumerStep hstep with
  | sendLast head hpc =>
      have hnot : ¬ s.InSink := by simp only [InSink, hpc, not_false_eq_true]
      obtain ⟨hsame, hne⟩ := s.handedOver_sendBatch hnot .inLastSink
        fun t ht => by simp only [InSink, ht]
      exact ⟨hsame, fun _ => hne⟩
  | popStep queue hpc =>
      exact ⟨by simp only [handedOver, hpc], fun hsink => by simp only [InSink, hpc] at hsink⟩
  | readFlag hpc | full hpc | startPop queue hpc | popped sample hpc | popEmpty hpc | stop hpc
  | goOn hpc | loadHead hpc | finish head hpc | again head hpc =>
      exact ⟨by simp only [handedOver, hpc], False.elim⟩

/-- Reading the clock hands nothing over, and a batch it sends is in the sink. -/
theorem clockStep_handedOver {s t : Ingestor} {now : TimePoint} (hstep : s.clockStep now = some t) :
    t.handedOver = s.handedOver ∧ (t.InSink → t.sink_calls ≠ []) := by
  unfold Ingestor.clockStep at hstep
  cases hpc : s.consumer_ with
  | enter =>
      simp only [hpc, Option.some.injEq] at hstep
      subst hstep
      exact ⟨by simp only [handedOver, hpc], False.elim⟩
  | readClock =>
      simp only [hpc] at hstep
      split at hstep
      · -- a batch is due: from here to the sink's return it is not handed over
        cases hstep
        have hnot : ¬ s.InSink := by simp only [InSink, hpc, not_false_eq_true]
        obtain ⟨hsame, hne⟩ := s.handedOver_sendBatch hnot (.inSink now)
          fun t ht => by simp only [InSink, ht]
        exact ⟨hsame, fun _ => hne⟩
      · cases hstep
        exact ⟨by simp only [handedOver, hpc], False.elim⟩
  | notStarted | readFlag | drain | popping | inSink | checkStop | loadHead | loadTail | inLastSink
  | finished => simp only [hpc, reduceCtorEq] at hstep

/-- The sink is done with the last batch. -/
theorem sinkStep_handedOver {s t : Ingestor} {outcome : SinkOutcome}
    (hstep : s.sinkStep outcome = some t) :
    s.handedOver = s.sink_calls.dropLast ∧ t.handedOver = s.sink_calls ∧ ¬ t.InSink := by
  unfold Ingestor.sinkStep at hstep
  cases hpc : s.consumer_ with
  | inSink now | inLastSink =>
      simp only [hpc, Option.some.injEq] at hstep
      subst hstep
      exact ⟨by simp only [handedOver, hpc], rfl, not_false⟩
  | notStarted | enter | readFlag | drain | popping | readClock | checkStop | loadHead | loadTail
  | finished => simp only [hpc, reduceCtorEq] at hstep

/-- The sink can only return when it was called. -/
theorem inSink_of_sinkStep {s t : Ingestor} {outcome : SinkOutcome}
    (hstep : s.sinkStep outcome = some t) : s.InSink := by
  unfold Ingestor.sinkStep at hstep
  unfold InSink
  cases hpc : s.consumer_ with
  | inSink now | inLastSink => trivial
  | notStarted | enter | readFlag | drain | popping | readClock | checkStop | loadHead | loadTail
  | finished => simp only [hpc, reduceCtorEq] at hstep

/-- The consumer takes steps only between its start and its end. -/
def Active (s : Ingestor) : Prop := s.consumer_ ≠ .notStarted ∧ s.consumer_ ≠ .finished

/-- A consumer that takes a step has started and has not ended. -/
theorem active_of_consumerStep {s t : Ingestor} (hstep : s.consumerStep = some t) : s.Active := by
  constructor
  · intro hpc
    simp only [Ingestor.consumerStep, hpc, reduceCtorEq] at hstep
  · intro hpc
    simp only [Ingestor.consumerStep, hpc, reduceCtorEq] at hstep

/-- So has one that reads the clock. -/
theorem active_of_clockStep {s t : Ingestor} {now : TimePoint} (hstep : s.clockStep now = some t) :
    s.Active := by
  constructor
  · intro hpc
    simp only [Ingestor.clockStep, hpc, reduceCtorEq] at hstep
  · intro hpc
    simp only [Ingestor.clockStep, hpc, reduceCtorEq] at hstep

/-- So has one that comes back from the sink. -/
theorem active_of_sinkStep {s t : Ingestor} {outcome : SinkOutcome}
    (hstep : s.sinkStep outcome = some t) : s.Active := by
  constructor
  · intro hpc
    simp only [Ingestor.sinkStep, hpc, reduceCtorEq] at hstep
  · intro hpc
    simp only [Ingestor.sinkStep, hpc, reduceCtorEq] at hstep

end Ingestor

/-! ## (2) The threads at the mutex -/

/-- What holds of the submitting threads: who is inside has the mutex, and the thread inside the
ingestor's `submit` is the one whose sample is being pushed. -/
structure ThreadsInv (tag_ids : List (String × UInt32)) (threads : Nat → SubmitPc)
    (mutex : Option Nat) (submitting : Option TelemetrySample) : Prop where
  inside : ∀ thread, (threads thread).Inside → mutex = some thread
  sample : ∀ thread reading sample, threads thread = .waiting reading sample ∨
    threads thread = .holding reading sample → sampleOf tag_ids reading = some sample
  queueing : ∀ thread reading, threads thread = .queueing reading →
    submitting.isSome ∧ sampleOf tag_ids reading = submitting
  submitting : submitting ≠ none → ∃ thread reading, threads thread = .queueing reading

namespace ThreadsInv

variable {tag_ids : List (String × UInt32)} {threads : Nat → SubmitPc} {mutex : Option Nat}
  {submitting : Option TelemetrySample} {thread : Nat} {reading : Reading}
  {sample : TelemetrySample}

/-- While nobody is inside the ingestor, no sample is being pushed. -/
theorem submitting_eq_none (h : ThreadsInv tag_ids threads mutex submitting)
    (hnot : ∀ thread reading, threads thread ≠ .queueing reading) : submitting = none := by
  by_contra hne
  obtain ⟨thread, reading, hpc⟩ := h.submitting hne
  exact hnot thread reading hpc

/-- While no thread holds the mutex, nothing is being submitted. -/
theorem of_mutex_free (h : ThreadsInv tag_ids threads none submitting) : submitting = none := by
  refine h.submitting_eq_none fun thread reading hpc => ?_
  have hheld := h.inside thread (hpc ▸ trivial)
  cases hheld

/-- Nobody else is inside. -/
theorem eq_of_inside (h : ThreadsInv tag_ids threads mutex submitting)
    (hthread : (threads thread).Inside) {other : Nat} (hother : (threads other).Inside) :
    other = thread :=
  Option.some.inj ((h.inside other hother).symm.trans (h.inside thread hthread))

/-- A thread that moves on keeps what is known of the samples, if its own is the right one. -/
theorem sample_update (h : ThreadsInv tag_ids threads mutex submitting) {pc : SubmitPc}
    (hpc : ∀ reading sample, pc = .waiting reading sample ∨ pc = .holding reading sample →
      sampleOf tag_ids reading = some sample) {other : Nat}
    (hother : Function.update threads thread pc other = .waiting reading sample ∨
      Function.update threads thread pc other = .holding reading sample) :
    sampleOf tag_ids reading = some sample := by
  rw [Function.update_apply] at hother
  split at hother
  · exact hpc reading sample hother
  · exact h.sample other reading sample hother

/-- A thread that does not enter the ingestor is not the one inside. -/
theorem queueing_of_update {pc : SubmitPc} {other : Nat}
    (hother : Function.update threads thread pc other = .queueing reading)
    (hpc : ∀ reading, pc ≠ .queueing reading) :
    other ≠ thread ∧ threads other = .queueing reading := by
  rw [Function.update_apply] at hother
  split at hother
  · exact absurd hother (hpc reading)
  · rename_i hne
    exact ⟨hne, hother⟩

/-- A thread comes to the mutex. -/
theorem wait (h : ThreadsInv tag_ids threads mutex submitting) (hidle : threads thread = .idle)
    (hsample : sampleOf tag_ids reading = some sample) :
    ThreadsInv tag_ids (Function.update threads thread (.waiting reading sample)) mutex
      submitting := by
  constructor
  · -- a waiting thread is not inside yet
    intro other hinside
    rw [Function.update_apply] at hinside
    split at hinside
    · exact hinside.elim
    · exact h.inside other hinside
  · intro other reading' sample'
    refine h.sample_update fun reading₁ sample₁ hpc => ?_
    rcases hpc with heq | heq
    · cases heq
      exact hsample
    · cases heq
  · intro other reading' hpc
    obtain ⟨-, hother⟩ := queueing_of_update hpc fun _ h => nomatch h
    exact h.queueing other reading' hother
  · intro hne
    obtain ⟨other, reading', hpc⟩ := h.submitting hne
    refine ⟨other, reading', ?_⟩
    rw [Function.update_of_ne _ _ _, hpc]
    rintro rfl
    rw [hidle] at hpc
    cases hpc

/-- A waiting thread gets the free mutex. -/
theorem hold (h : ThreadsInv tag_ids threads none submitting)
    (hwaiting : threads thread = .waiting reading sample) :
    ThreadsInv tag_ids (Function.update threads thread (.holding reading sample)) (some thread)
      submitting := by
  constructor
  · -- the mutex was free, so this thread is the only one inside
    intro other hinside
    rw [Function.update_apply] at hinside
    split at hinside
    · rename_i heq
      rw [heq]
    · cases h.inside other hinside
  · intro other reading' sample'
    refine h.sample_update fun reading₁ sample₁ hpc => ?_
    rcases hpc with heq | heq
    · cases heq
    · cases heq
      exact h.sample thread reading sample (.inl hwaiting)
  · intro other reading' hpc
    obtain ⟨-, hother⟩ := queueing_of_update hpc fun _ h => nomatch h
    exact h.queueing other reading' hother
  · -- and nobody was submitting
    intro hne
    exact absurd h.of_mutex_free hne

/-- The thread with the mutex enters the ingestor. -/
theorem queue (h : ThreadsInv tag_ids threads mutex submitting)
    (hholding : threads thread = .holding reading sample) :
    ThreadsInv tag_ids (Function.update threads thread (.queueing reading)) mutex
      (some sample) := by
  have hinside : (threads thread).Inside := hholding ▸ trivial
  constructor
  · -- the thread with the mutex stays the one inside
    intro other hother
    rw [Function.update_apply] at hother
    split at hother
    · rename_i heq
      rw [heq]
      exact h.inside thread hinside
    · exact h.inside other hother
  · intro other reading' sample'
    refine h.sample_update fun reading₁ sample₁ hpc => ?_
    rcases hpc with heq | heq <;> cases heq
  · intro other reading' hpc
    rw [Function.update_apply] at hpc
    split at hpc
    · cases hpc
      exact ⟨rfl, h.sample thread reading sample (.inr hholding)⟩
    · -- two threads inside would both have the mutex
      rename_i hne
      exact absurd (h.eq_of_inside hinside (hpc ▸ trivial)) hne
  · intro _
    exact ⟨thread, reading, Function.update_self _ _ _⟩

/-- The thread with the mutex returns from `submit`. -/
theorem leave (h : ThreadsInv tag_ids threads mutex submitting)
    (hinside : (threads thread).Inside) :
    ThreadsInv tag_ids (Function.update threads thread .idle) none none := by
  constructor
  · -- whoever is inside now would have been inside together with this thread
    intro other hother
    rw [Function.update_apply] at hother
    split at hother
    · exact hother.elim
    · rename_i hne
      exact absurd (h.eq_of_inside hinside hother) hne
  · intro other reading' sample'
    refine h.sample_update fun reading₁ sample₁ hpc => ?_
    rcases hpc with heq | heq <;> cases heq
  · intro other reading' hpc
    obtain ⟨hne, hother⟩ := queueing_of_update hpc fun _ h => nomatch h
    exact absurd (h.eq_of_inside hinside (hother ▸ trivial)) hne
  · intro hne
    exact absurd rfl hne

end ThreadsInv

/-! ## (3) The invariant -/

namespace ReadingExporter

/-- **What holds in every state** of an exporter with these tags and without a limit on the
directory. -/
structure ExporterInv (json : JsonLibrary) (tags : List TagInfo) (s : ReadingExporter) : Prop where
  ingestor : s.ingestor_.StopInv
  called : s.ingestor_.InSink → s.ingestor_.sink_calls ≠ []
  tag_ids : s.tag_ids_ = tags.map fun tag => (tag.sensor_id, tag.id)
  table : s.writer_.tag_table_ = encode_tag_table json tags
  limit : s.writer_.options_.max_total_bytes = 0
  written : ∃ others front done current, SegmentWriter.WriterInv others front s.writer_ done current ∧
    SegmentWriter.batchesOf done current = s.ingestor_.handedOver ∧
    (s.owner = .stopped → current = none)
  history : s.ingestor_.accepted.map some = s.accepted.map (sampleOf s.tag_ids_)
  threads : ThreadsInv s.tag_ids_ s.threads s.producer_mutex_ s.ingestor_.submitting
  accepting : s.accepting_ = true ↔ s.owner = .running
  created : s.owner = .created → s.ingestor_.consumer_ = .notStarted
  running : s.owner = .running ∨ s.owner = .stopping → s.ingestor_.running_ = true
  unasked : s.owner = .running → s.ingestor_.stop_requested = false
  asked : s.owner = .joining ∨ s.owner = .stopped → s.ingestor_.stop_requested = true
  joined : s.owner = .stopped → s.ingestor_.consumer_ = .finished

variable {json : JsonLibrary} {config : ExportConfig} {tags : List TagInfo}

/-- A valid configuration makes valid options. -/
theorem validate_ingestorOptions (hvalid : config.Valid) :
    (ingestorOptions config).validate = .ok () := by
  obtain ⟨⟨hlow, hhigh⟩, ⟨hlow', hhigh'⟩, ⟨hlow'', hhigh''⟩, hchecked⟩ := hvalid
  simp only [validate_export, bind_eq_ok, require_eq_ok] at hchecked
  obtain ⟨_, hpower, _, hle, -⟩ := hchecked
  -- the checks of the configuration are stronger than those of the ingestor
  have hcapacity : ¬ config.queue_capacity < 2 := by
    rw [UInt64.lt_iff_toNat_lt]
    show ¬ config.queue_capacity.toNat < 2
    omega
  have hbatch : config.batch_size ≠ 0 := by
    intro hzero
    rw [hzero] at hlow'
    exact absurd hlow' (by decide)
  have hflush : ¬ Int64.ofNat config.flush_interval_ms.toNat ≤ 0 := by
    rw [Int64.le_iff_toInt_le, Int64.toInt_ofNat_of_lt (by omega)]
    show ¬ (config.flush_interval_ms.toNat : Int) ≤ 0
    omega
  unfold IngestorOptions.validate ingestorOptions
  dsimp only
  rw [if_neg (not_or.mpr ⟨hcapacity, not_not.mpr hpower⟩), if_neg (not_or.mpr ⟨hbatch, hle⟩),
    if_neg hflush]

/-- Without a limit in the configuration the writer has none. -/
theorem writerOptions_limit (hlimit : config.max_total_mb = 0) :
    (writerOptions config).max_total_bytes = 0 := by
  rw [writerOptions, hlimit]
  rfl

/-- A new exporter has accepted nothing. -/
theorem exporterInv_make {files : Files} {s : ReadingExporter} (hvalid : config.Valid)
    (hlimit : config.max_total_mb = 0) (h : make json config tags files = .ok s) :
    ExporterInv json tags s ∧ s.owner = .created ∧ s.accepted = [] := by
  unfold make at h
  cases hmake : Ingestor.make (ingestorOptions config) with
  | error what =>
      rw [hmake] at h
      cases h
  | ok ingestor =>
      rw [hmake] at h
      cases h
      have hbatch := hvalid.batch_size.2
      have hsize : (ingestorOptions config).batch_size.toNat < 2 ^ 32 := by
        show config.batch_size.toNat < 2 ^ 32
        omega
      -- nothing has been submitted, handed over or written yet
      have hinv := Ingestor.stopInv_make hmake hsize
      obtain ⟨-, queue, -, rfl⟩ := Ingestor.make_eq_ok hmake
      have hwriter := SegmentWriter.segmentsInv_make json (writerOptions_limit hlimit) tags files
      refine ⟨?_, rfl, rfl⟩
      exact
        { ingestor := hinv
          called := False.elim
          tag_ids := rfl
          table := SegmentWriter.tag_table_make json (writerOptions config) tags files
          limit := hwriter.unlimited
          written := ⟨_, _, [], none, hwriter, rfl, fun _ => rfl⟩
          history := rfl
          threads :=
            { inside := fun _ => False.elim
              sample := fun _ _ _ hor => by rcases hor with h | h <;> cases h
              queueing := fun _ _ h => by cases h
              submitting := fun h => absurd rfl h }
          accepting := by simp
          created := fun _ => rfl
          running := fun hor => by rcases hor with h | h <;> cases h
          unasked := fun h => by cases h
          asked := fun hor => by rcases hor with h | h <;> cases h
          joined := fun h => by cases h }

/-! ## (4) Every step keeps it -/

variable {s t : ReadingExporter}

/-- A call of `submit` looks its tag up and waits for the mutex. -/
theorem ExporterInv.submitStep (h : ExporterInv json tags s) {thread : Nat} {reading : Reading}
    (hstep : s.submitStep thread reading = some t) : ExporterInv json tags t := by
  unfold ReadingExporter.submitStep at hstep
  split at hstep
  · rename_i hidle
    split at hstep
    · cases hstep
      exact { h with }
    · rename_i sample hsample
      cases hstep
      exact { h with threads := h.threads.wait hidle hsample }
  · cases hstep

/-- A waiting thread takes the free mutex. -/
theorem ExporterInv.lockStep (h : ExporterInv json tags s) {thread : Nat}
    (hstep : s.lockStep thread = some t) : ExporterInv json tags t := by
  unfold ReadingExporter.lockStep at hstep
  split at hstep
  · rename_i reading sample hwaiting
    split at hstep
    · rename_i hfree
      cases hstep
      have hthreads := h.threads
      rw [hfree] at hthreads
      exact { h with threads := hthreads.hold hwaiting }
    · cases hstep
  · cases hstep

/-- A step of the producer inside the ingestor says nothing about the consumer. -/
theorem ExporterInv.of_producer {ingestor : Ingestor} {threads : Nat → SubmitPc}
    {mutex : Option Nat} {accepted : List Reading} (h : ExporterInv json tags s)
    (hingestor : ingestor.StopInv) (hpc : ingestor.consumer_ = s.ingestor_.consumer_)
    (hcalls : ingestor.sink_calls = s.ingestor_.sink_calls)
    (hrunning : ingestor.running_ = s.ingestor_.running_)
    (hrequested : ingestor.stop_requested = s.ingestor_.stop_requested)
    (hhistory : ingestor.accepted.map some = accepted.map (sampleOf s.tag_ids_))
    (hthreads : ThreadsInv s.tag_ids_ threads mutex ingestor.submitting) :
    ExporterInv json tags { s with
      ingestor_ := ingestor, threads := threads, producer_mutex_ := mutex
      accepted := accepted } := by
  -- the consumer is where it was, so what it has handed over is the same
  have hsink : ingestor.InSink ↔ s.ingestor_.InSink := by
    unfold Ingestor.InSink
    rw [hpc]
  have hhanded : ingestor.handedOver = s.ingestor_.handedOver := by
    unfold Ingestor.handedOver
    rw [hpc, hcalls]
  exact { h with
    ingestor := hingestor
    called := fun hin => by
      show ingestor.sink_calls ≠ []
      rw [hcalls]
      exact h.called (hsink.mp hin)
    written := by
      obtain ⟨others, front, done, current, hwriter, hbatches, hclosed⟩ := h.written
      exact ⟨others, front, done, current, hwriter, hbatches.trans hhanded.symm, hclosed⟩
    history := hhistory
    threads := hthreads
    created := fun howner => hpc.trans (h.created howner)
    running := fun howner => hrunning.trans (h.running howner)
    unasked := fun howner => hrequested.trans (h.unasked howner)
    asked := fun howner => hrequested.trans (h.asked howner)
    joined := fun howner => hpc.trans (h.joined howner) }

/-- The thread that holds the mutex hands its sample to the ingestor, or drops it. -/
theorem ExporterInv.proceedStep (h : ExporterInv json tags s) {thread : Nat}
    (hstep : s.proceedStep thread = some t) : ExporterInv json tags t := by
  unfold ReadingExporter.proceedStep at hstep
  cases hpc : s.threads thread with
  | idle | waiting reading sample => simp only [hpc, reduceCtorEq] at hstep
  | holding reading sample =>
      simp only [hpc] at hstep
      have hinside : (s.threads thread).Inside := hpc ▸ trivial
      split at hstep
      · obtain ⟨ingestor, hingestor, rfl⟩ := Option.map_eq_some_iff.mp hstep
        have hinv := h.ingestor.startSubmit hingestor
        obtain ⟨-, -, queue, -, rfl⟩ := Ingestor.startSubmit_eq_some hingestor
        exact h.of_producer hinv rfl rfl rfl rfl h.history (h.threads.queue hpc)
      · -- the exporter does not accept: `submit` returns false
        cases hstep
        have hnone : s.ingestor_.submitting = none := by
          refine h.threads.submitting_eq_none fun other reading' hother => ?_
          have heq := h.threads.eq_of_inside hinside
            (show (s.threads other).Inside from hother ▸ trivial)
          rw [heq, hpc] at hother
          cases hother
        have hleave := h.threads.leave hinside
        rw [← hnone] at hleave
        exact h.of_producer h.ingestor rfl rfl rfl rfl
          (by rw [List.append_nil]; exact h.history) hleave
  | queueing reading =>
      simp only [hpc] at hstep
      obtain ⟨ingestor, hingestor, ht⟩ := Option.map_eq_some_iff.mp hstep
      have hinv := h.ingestor.producerStep hingestor
      have hleave := h.threads.leave (show (s.threads thread).Inside from hpc ▸ trivial)
      obtain ⟨hsome, hsample⟩ := h.threads.queueing thread reading hpc
      obtain ⟨sample, hsubmit, ⟨hret, rfl⟩ | ⟨hret, rfl⟩ | ⟨queue, hqueue, rfl⟩⟩ :=
        Ingestor.producerStep_eq_some hingestor
      · -- the sample was pushed, and `submit` returns true
        simp only [hret] at ht
        subst ht
        refine h.of_producer hinv rfl rfl rfl rfl ?_ hleave
        rw [List.map_append, List.map_append, h.history, List.map_singleton, List.map_singleton,
          hsample, hsubmit]
      · -- the queue was full
        simp only [hret] at ht
        subst ht
        exact h.of_producer hinv rfl rfl rfl rfl (by rw [List.append_nil]; exact h.history) hleave
      · -- the push has further steps, so the thread stays where it is
        obtain ⟨x, hitem, -⟩ := SpscRingBuffer.producerStep_result hqueue
        have hmore : t = { s with ingestor_ := { s.ingestor_ with queue_ := queue } } := by
          split at ht
          · rename_i hret
            rw [hret] at hitem
            cases hitem
          · rename_i hret
            rw [hret] at hitem
            cases hitem
          · exact ht.symm
        rw [hmore]
        exact h.of_producer hinv rfl rfl rfl rfl h.history h.threads

/-- **A step of the consumer besides the sink** leaves the producers and the writer alone. -/
theorem ExporterInv.of_consumer {ingestor : Ingestor} (h : ExporterInv json tags s)
    (hingestor : ingestor.StopInv) (hframe : s.ingestor_.ConsumerFrame ingestor)
    (hactive : s.ingestor_.Active)
    (hhanded : ingestor.handedOver = s.ingestor_.handedOver ∧
      (ingestor.InSink → ingestor.sink_calls ≠ [])) :
    ExporterInv json tags { s with ingestor_ := ingestor } := by
  exact { h with
    ingestor := hingestor
    called := hhanded.2
    -- a step of the consumer hands nothing to the writer
    written := by
      obtain ⟨others, front, done, current, hwriter, hbatches, hclosed⟩ := h.written
      exact ⟨others, front, done, current, hwriter, hbatches.trans hhanded.1.symm, hclosed⟩
    history := by
      show ingestor.accepted.map some = _
      rw [hframe.accepted]
      exact h.history
    threads := by
      show ThreadsInv s.tag_ids_ s.threads s.producer_mutex_ ingestor.submitting
      rw [hframe.submitting]
      exact h.threads
    -- a consumer that takes a step has started and not ended
    created := fun howner => absurd (h.created howner) hactive.1
    running := fun howner => hframe.running.trans (h.running howner)
    unasked := fun howner => hframe.requested.trans (h.unasked howner)
    asked := fun howner => hframe.requested.trans (h.asked howner)
    joined := fun howner => absurd (h.joined howner) hactive.2 }

/-- **The sink writes the batch** that was handed over, behind all others. -/
theorem ExporterInv.sinkStep (h : ExporterInv json tags s) {created_ms : Int64}
    (hstep : s.sinkStep created_ms = some t) : ExporterInv json tags t := by
  unfold ReadingExporter.sinkStep at hstep
  split at hstep
  · cases hstep
  · rename_i batch hlast
    -- the writer gets the last batch that the sink was called with
    obtain ⟨others, front, done, current, hwriter, hbatches, hclosed⟩ := h.written
    obtain ⟨writer, done', current', hwrite, hwriter', hbatches'⟩ :=
      hwriter.write_batch created_ms batch
    obtain ⟨hoptions, htable⟩ :=
      SegmentWriter.sameSetup_write_batch s.writer_ created_ms {} batch
    rw [hwrite] at hstep hoptions htable
    obtain ⟨ingestor, hingestor, rfl⟩ := Option.map_eq_some_iff.mp hstep
    have hinv := h.ingestor.sinkStep hingestor
    have hframe := Ingestor.sinkStep_frame hingestor
    obtain ⟨hbefore, hafter, hnot⟩ := Ingestor.sinkStep_handedOver hingestor
    have hactive := Ingestor.active_of_sinkStep hingestor
    have hcalls := List.dropLast_append_getLast? batch hlast
    exact
      { ingestor := hinv
        called := fun hin => absurd hin hnot
        tag_ids := h.tag_ids
        table := htable.trans h.table
        limit := by
          show writer.options_.max_total_bytes = 0
          rw [hoptions]
          exact h.limit
        -- what was written so far and this batch are what is handed over now
        written := by
          refine ⟨others, front, done', current', hwriter', ?_, fun howner => ?_⟩
          · rw [hbatches', hbatches, hbefore, hcalls]
            exact hafter.symm
          · exact absurd (h.joined howner) hactive.2
        history := by
          show ingestor.accepted.map some = _
          rw [hframe.accepted]
          exact h.history
        threads := by
          show ThreadsInv s.tag_ids_ s.threads s.producer_mutex_ ingestor.submitting
          rw [hframe.submitting]
          exact h.threads
        accepting := h.accepting
        created := fun howner => absurd (h.created howner) hactive.1
        running := fun howner => hframe.running.trans (h.running howner)
        unasked := fun howner => hframe.requested.trans (h.unasked howner)
        asked := fun howner => hframe.requested.trans (h.asked howner)
        joined := fun howner => absurd (h.joined howner) hactive.2 }

/-- Starting lets the consumer run. -/
theorem ExporterInv.startStep (h : ExporterInv json tags s) (hstart : s.startStep = some t) :
    ExporterInv json tags t := by
  unfold ReadingExporter.startStep at hstart
  split at hstart
  · rename_i howner
    obtain ⟨ingestor, hingestor, rfl⟩ := Option.map_eq_some_iff.mp hstart
    have hinv : ingestor.StopInv := Ingestor.stopInv_step (e := .start) h.ingestor hingestor
    obtain ⟨hpc, rfl⟩ := Ingestor.startStep_eq_some hingestor
    -- a flag that was set before would have ended the thread that is only started now
    have hunasked : s.ingestor_.stop_requested = false := by
      by_contra hne
      exact h.ingestor.started (.inr (Bool.eq_true_of_not_eq_false hne)) hpc
    obtain ⟨others, front, done, current, hwriter, hbatches, hclosed⟩ := h.written
    exact { h with
      ingestor := hinv
      called := False.elim
      written := ⟨others, front, done, current, hwriter, by
        rw [hbatches]
        simp only [Ingestor.handedOver, hpc], fun hne => by cases hne⟩
      accepting := by simp
      created := fun hne => by cases hne
      running := fun _ => rfl
      unasked := fun _ => hunasked
      asked := fun hor => by rcases hor with hne | hne <;> cases hne
      joined := fun hne => by cases hne }
  · cases hstart

/-- From the first step of `stop` on nothing is accepted. -/
theorem ExporterInv.stopAcceptingStep (h : ExporterInv json tags s)
    (hstop : s.stopAcceptingStep = some t) : ExporterInv json tags t := by
  unfold ReadingExporter.stopAcceptingStep at hstop
  split at hstop
  · rename_i howner
    cases hstop
    obtain ⟨others, front, done, current, hwriter, hbatches, -⟩ := h.written
    exact { h with
      written := ⟨others, front, done, current, hwriter, hbatches, fun hne => by cases hne⟩
      accepting := by simp
      created := fun hne => by cases hne
      running := fun _ => h.running (.inl howner.1)
      unasked := fun hne => by cases hne
      asked := fun hor => by rcases hor with hne | hne <;> cases hne
      joined := fun hne => by cases hne }
  · cases hstop

/-- The ingestor is stopped while no thread is submitting. -/
theorem ExporterInv.stopIngestorStep (h : ExporterInv json tags s)
    (hstop : s.stopIngestorStep = some t) : ExporterInv json tags t := by
  unfold ReadingExporter.stopIngestorStep at hstop
  split at hstop
  · rename_i howner
    obtain ⟨ingestor, hingestor, rfl⟩ := Option.map_eq_some_iff.mp hstop
    have hinv : ingestor.StopInv := Ingestor.stopInv_step (e := .stop) h.ingestor hingestor
    obtain ⟨-, rfl⟩ := Ingestor.stopStep_eq_some hingestor
    -- the writer and the threads are left alone
    obtain ⟨others, front, done, current, hwriter, hbatches, -⟩ := h.written
    have hnot : s.accepting_ ≠ true := by
      rw [Ne, h.accepting, howner]
      decide
    exact { h with
      ingestor := hinv
      called := h.called
      written := ⟨others, front, done, current, hwriter, hbatches, fun hne => by cases hne⟩
      accepting := by simp [hnot]
      created := fun hne => by cases hne
      running := fun hor => by rcases hor with hne | hne <;> cases hne
      unasked := fun hne => by cases hne
      asked := fun _ => rfl
      joined := fun hne => by cases hne }
  · cases hstop

/-- `stop` ends when the consumer has. -/
theorem ExporterInv.finishStopStep (h : ExporterInv json tags s)
    (hfinish : s.finishStopStep = some t) : ExporterInv json tags t := by
  unfold ReadingExporter.finishStopStep at hfinish
  split at hfinish
  · rename_i howner
    cases hfinish
    obtain ⟨others, front, done, current, hwriter, hbatches, -⟩ := h.written
    obtain ⟨hoptions, htable⟩ := SegmentWriter.sameSetup_finish_segment s.writer_ true
    have hnot : s.accepting_ ≠ true := by
      rw [Ne, h.accepting, howner.1]
      decide
    exact { h with
      table := htable.trans h.table
      limit := by
        show (s.writer_.finish_segment true).options_.max_total_bytes = 0
        rw [hoptions]
        exact h.limit
      written := by
        -- closing finishes the open segment, whose batches join those of the finished ones
        refine ⟨others, front, _, none, hwriter.finish_segment, ?_, fun _ => rfl⟩
        rw [← hbatches]
        simp [SegmentWriter.batchesOf]
      accepting := by simp [hnot]
      created := fun hne => by cases hne
      running := fun hor => by rcases hor with hne | hne <;> cases hne
      unasked := fun hne => by cases hne
      asked := fun _ => h.asked (.inl howner.1)
      joined := fun _ => howner.2 }
  · cases hfinish

/-- **Every step of every thread keeps what holds in every state.** -/
theorem exporterInv_step {e : ExportEvent} (h : ExporterInv json tags s)
    (hstep : step s e = some t) : ExporterInv json tags t := by
  cases e with
  | submit thread reading => exact h.submitStep hstep
  | lock thread => exact h.lockStep hstep
  | proceed thread => exact h.proceedStep hstep
  | consumer =>
      -- the consumer, the clock and the sink are steps of the ingestor
      obtain ⟨ingestor, hingestor, rfl⟩ := Option.map_eq_some_iff.mp hstep
      exact h.of_consumer (h.ingestor.consumerStep hingestor)
        (Ingestor.consumerStep_frame hingestor) (Ingestor.active_of_consumerStep hingestor)
        (Ingestor.consumerStep_handedOver hingestor)
  | clock now =>
      obtain ⟨ingestor, hingestor, rfl⟩ := Option.map_eq_some_iff.mp hstep
      exact h.of_consumer (h.ingestor.clockStep hingestor)
        (Ingestor.clockStep_frame hingestor) (Ingestor.active_of_clockStep hingestor)
        (Ingestor.clockStep_handedOver hingestor)
  | sink created_ms => exact h.sinkStep hstep
  | start => exact h.startStep hstep
  | stopAccepting => exact h.stopAcceptingStep hstep
  | stopIngestor => exact h.stopIngestorStep hstep
  | finishStop => exact h.finishStopStep hstep

end ReadingExporter

end Ironpulse.Ingest
