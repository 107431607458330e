import Ironpulse.Ingest.Ingestor
import Ironpulse.Ingest.RingFifo

/-! # No sample is lost or duplicated inside the ingestor

What the sink got, the batch being built, an element just taken from the queue and the queue itself
are together, in this order, the samples that `submit` accepted.

* **`DataInv`**: the invariant, for batch sizes that fit the batch header's count.
* **`dataInv_step`**: every step of every thread keeps it. -/

namespace Ironpulse.Ingest

open StepMachine

/-- The samples of the batches that the sink was called with. -/
def sentSamples (calls : List (List UInt8)) : List TelemetrySample :=
  calls.flatMap fun bytes => (decode_copy bytes []).2

/-- One call of the sink more sends the samples of its batch. -/
@[simp] theorem sentSamples_concat (calls : List (List UInt8)) (bytes : List UInt8) :
    sentSamples (calls ++ [bytes]) = sentSamples calls ++ (decode_copy bytes []).2 := by
  simp [sentSamples]

/-- A well-formed batch of the right size. -/
def GoodBatch (options : IngestorOptions) (bytes : List UInt8) : Prop :=
  ∃ samples, decode_copy bytes [] = (.ok, samples) ∧ samples ≠ [] ∧
    samples.length ≤ options.batch_size.toNat

/-- The encoding of a batch of the right size. -/
def EncodedOk (options : IngestorOptions) (bytes : List UInt8) : Prop :=
  ∃ samples, bytes = encodedBatch samples ∧ samples ≠ [] ∧
    samples.length ≤ options.batch_size.toNat

/-- What was encoded from a batch of the right size is well formed. -/
theorem goodBatch_of_encodedOk {options : IngestorOptions} {bytes : List UInt8}
    (hsize : options.batch_size.toNat < 2 ^ 32) (h : EncodedOk options bytes) :
    GoodBatch options bytes := by
  obtain ⟨samples, rfl, hne, hle⟩ := h
  have hdecode := decode_copy_encoded (show samples.length < 2 ^ 32 by omega) [] []
  rw [List.append_nil, List.nil_append] at hdecode
  exact ⟨samples, hdecode, hne, hle⟩

namespace Ingestor

/-! ## (1) The invariant -/

/-- The sample that is pushed but whose `submit` has not returned. -/
def arriving (submitting : Option TelemetrySample) : Emplace TelemetrySample →
    List TelemetrySample
  | .returned true => submitting.toList
  | _ => []

/-- The sample that is popped but not in the batch. -/
def inHand : ConsumerPc → Pop TelemetrySample → List TelemetrySample
  | .popping, .returned (some sample) => [sample]
  | _, _ => []

/-- The call of the sink that is not counted yet. -/
def uncounted : ConsumerPc → UInt64
  | .inSink _ | .inLastSink => 1
  | _ => 0

/-- What the two threads keep, in every state. -/
structure DataInv (s : Ingestor) : Prop where
  ring : s.queue_.RingInv
  batch_size_pos : 0 < s.options_.batch_size.toNat
  batch_size_lt : s.options_.batch_size.toNat < 2 ^ 32
  item : ∀ x, s.queue_.producer.item? = some x → s.submitting = some x
  arrived : s.accepted ++ arriving s.submitting s.queue_.producer = s.queue_.pushed
  waiting : s.consumer_ ≠ .popping → ¬ s.queue_.consumer.InCall
  batch_le : s.batch.length ≤ s.options_.batch_size.toNat
  room : s.consumer_ = .popping → s.batch.length < s.options_.batch_size.toNat
  conserved : sentSamples s.sink_calls ++ s.batch ++ inHand s.consumer_ s.queue_.consumer =
    s.queue_.popped
  calls_ok : ∀ bytes ∈ s.sink_calls, EncodedOk s.options_ bytes
  ingested : s.counters_.ingested = UInt64.ofNat s.accepted.length
  batches : s.counters_.batches_sent + s.counters_.batches_failed + uncounted s.consumer_ =
    UInt64.ofNat s.sink_calls.length

/-- Valid options have a batch size between one and the capacity of the queue. -/
theorem validate_eq_ok {options : IngestorOptions} (h : options.validate = .ok ()) :
    0 < options.batch_size.toNat ∧ options.batch_size.toNat ≤ options.queue_capacity.toNat := by
  unfold IngestorOptions.validate at h
  dsimp only at h
  split at h
  · cases h
  · split at h
    · cases h
    · rename_i hbatch
      rw [not_or, UInt64.not_lt] at hbatch
      have hne : options.batch_size.toNat ≠ 0 := fun heq =>
        hbatch.1 (UInt64.toNat_inj.mp heq)
      exact ⟨Nat.pos_of_ne_zero hne, UInt64.le_iff_toNat_le.mp hbatch.2⟩

/-- What the constructor builds. -/
theorem make_eq_ok {options : IngestorOptions} {s : Ingestor} (h : make options = .ok s) :
    options.validate = .ok () ∧ ∃ queue, SpscRingBuffer.make options.queue_capacity = .ok queue ∧
      s = { options_ := options, queue_ := queue } := by
  unfold make at h
  split at h
  · cases h
  · rename_i hvalid
    split at h
    · cases h
    · rename_i queue hqueue
      cases h
      exact ⟨hvalid, queue, hqueue, rfl⟩

/-- Valid options make an ingestor. -/
theorem exists_make {options : IngestorOptions} (hvalid : options.validate = .ok ()) :
    ∃ s, make options = .ok s := by
  have hcapacity : ¬ (options.queue_capacity < 2 ∨
      options.queue_capacity &&& (options.queue_capacity - 1) ≠ 0) := by
    intro hbad
    rw [IngestorOptions.validate, if_pos hbad] at hvalid
    cases hvalid
  unfold make
  rw [hvalid, SpscRingBuffer.make, if_neg hcapacity]
  exact ⟨_, rfl⟩

/-- A new ingestor holds nothing. -/
theorem dataInv_make {options : IngestorOptions} {s : Ingestor} (h : make options = .ok s)
    (hsize : options.batch_size.toNat < 2 ^ 32) : DataInv s := by
  obtain ⟨hvalid, queue, hqueue, rfl⟩ := make_eq_ok h
  obtain ⟨-, rfl⟩ := SpscRingBuffer.make_eq_ok hqueue
  exact
    { ring := SpscRingBuffer.ringInv_make hqueue
      batch_size_pos := (validate_eq_ok hvalid).1
      batch_size_lt := hsize
      item := fun x hx => by cases hx
      arrived := rfl
      waiting := fun _ => not_false
      batch_le := Nat.zero_le _
      room := fun hpc => by cases hpc
      conserved := rfl
      calls_ok := fun bytes hbytes => by cases hbytes
      ingested := rfl
      batches := rfl }

/-! ## (2) The producer -/

/-- What starting a call of `submit` does. -/
theorem startSubmit_eq_some {s t : Ingestor} {sample : TelemetrySample}
    (h : s.startSubmit sample = some t) :
    s.submitting = none ∧ s.stop_requested = false ∧ ∃ queue,
      s.queue_.startPush sample = some queue ∧
        t = { s with queue_ := queue, submitting := some sample } := by
  unfold startSubmit at h
  split at h
  · rename_i hidle
    obtain ⟨queue, hqueue, rfl⟩ := Option.map_eq_some_iff.mp h
    exact ⟨hidle.1, Bool.eq_false_iff.mpr hidle.2, queue, hqueue, rfl⟩
  · cases h

/-- **What a step of the producer does**: a step of the push, or returning its result. -/
theorem producerStep_eq_some {s t : Ingestor} (h : s.producerStep = some t) :
    ∃ sample, s.submitting = some sample ∧
      ((s.queue_.producer = .returned true ∧
          t = { s with
            counters_ := s.counters_.record_ingested
            submitting := none
            accepted := s.accepted ++ [sample] }) ∨
        (s.queue_.producer = .returned false ∧
          t = { s with counters_ := s.counters_.record_dropped, submitting := none }) ∨
        ∃ queue, s.queue_.producerStep = some queue ∧ t = { s with queue_ := queue }) := by
  unfold producerStep at h
  cases hsubmit : s.submitting with
  | none =>
      rw [hsubmit] at h
      cases h
  | some sample =>
      rw [hsubmit] at h
      refine ⟨sample, rfl, ?_⟩
      dsimp only at h
      split at h
      · rename_i hpc
        exact .inl ⟨hpc, (Option.some.inj h).symm⟩
      · rename_i hpc
        exact .inr (.inl ⟨hpc, (Option.some.inj h).symm⟩)
      · obtain ⟨queue, hqueue, rfl⟩ := Option.map_eq_some_iff.mp h
        exact .inr (.inr ⟨queue, hqueue, rfl⟩)

/-- A step of the push is a step of the ingestor. -/
theorem producerStep_of_queue {s : Ingestor} {queue : SpscRingBuffer TelemetrySample}
    {sample : TelemetrySample} (hsubmit : s.submitting = some sample)
    (hqueue : s.queue_.producerStep = some queue) :
    s.producerStep = some { s with queue_ := queue } := by
  unfold Ingestor.producerStep
  rw [hsubmit]
  dsimp only
  split
  · rename_i hpc
    simp only [SpscRingBuffer.producerStep, hpc, reduceCtorEq] at hqueue
  · rename_i hpc
    simp only [SpscRingBuffer.producerStep, hpc, reduceCtorEq] at hqueue
  · rw [hqueue]
    rfl

/-- Nothing arrives while no call is going on, nor before the push has returned. -/
@[simp] theorem arriving_none (pc : Emplace TelemetrySample) : arriving none pc = [] := by
  unfold arriving
  split
  · rfl
  · rfl

/-- Nothing has arrived while the push still holds the sample. -/
theorem arriving_of_item {submitting : Option TelemetrySample} {pc : Emplace TelemetrySample}
    {x : TelemetrySample} (h : pc.item? = some x) : arriving submitting pc = [] := by
  cases pc with
  | returned result => cases h
  | idle | compare | reload | compareReloaded | construct | publish => rfl

/-- A call of `submit` hands its sample to the push. -/
theorem DataInv.startSubmit {s t : Ingestor} {sample : TelemetrySample} (h : DataInv s)
    (hstep : s.startSubmit sample = some t) : DataInv t := by
  obtain ⟨hidle, -, queue, hqueue, rfl⟩ := startSubmit_eq_some hstep
  have harrived := h.arrived
  rw [hidle, arriving_none] at harrived
  have hring := h.ring.startPush hqueue
  have heq := SpscRingBuffer.startPush_eq_some hqueue
  subst heq
  exact { h with
    ring := hring
    item := fun x hx => hx
    arrived := harrived }

/-- A step of the push moves the sample from the call into the queue. -/
theorem DataInv.pushStep {s : Ingestor} {queue : SpscRingBuffer TelemetrySample} (h : DataInv s)
    (hqueue : s.queue_.producerStep = some queue) : DataInv { s with queue_ := queue } := by
  obtain ⟨-, hconsumer, -, hpopped, -⟩ := SpscRingBuffer.producerStep_frame hqueue
  obtain ⟨x, hx, hresult⟩ := SpscRingBuffer.producerStep_result hqueue
  have hsubmit := h.item x hx
  have harrived := h.arrived
  rw [arriving_of_item hx, List.append_nil] at harrived
  have hwaiting := h.waiting
  have hconserved := h.conserved
  rw [← hconsumer] at hwaiting hconserved
  rw [← hpopped] at hconserved
  -- the push goes on, has put its sample into the queue, or has found the queue full
  rcases hresult with ⟨hitem, hpushed⟩ | ⟨hpc, hpushed⟩ | ⟨hpc, hpushed⟩
  · exact { h with
      ring := h.ring.producerStep hqueue
      item := fun y hy => hsubmit.trans (hitem.symm.trans hy)
      arrived := by rw [arriving_of_item hitem, List.append_nil, hpushed, harrived]
      waiting := hwaiting
      conserved := hconserved }
  · exact { h with
      ring := h.ring.producerStep hqueue
      item := fun y hy => by rw [hpc] at hy; cases hy
      arrived := by rw [hpc, hsubmit, hpushed, harrived]; rfl
      waiting := hwaiting
      conserved := hconserved }
  · exact { h with
      ring := h.ring.producerStep hqueue
      item := fun y hy => by rw [hpc] at hy; cases hy
      arrived := by rw [hpc, hpushed, harrived]; exact List.append_nil _
      waiting := hwaiting
      conserved := hconserved }

/-- **Every step of the producer** keeps what the two threads keep. -/
theorem DataInv.producerStep {s t : Ingestor} (h : DataInv s) (hstep : s.producerStep = some t) :
    DataInv t := by
  obtain ⟨sample, hsubmit, ⟨hpc, rfl⟩ | ⟨hpc, rfl⟩ | ⟨queue, hqueue, rfl⟩⟩ :=
    producerStep_eq_some hstep
  · -- the push went in: the sample is accepted now
    have harrived := h.arrived
    rw [hsubmit, hpc] at harrived
    exact { h with
      item := fun y hy => by rw [hpc] at hy; cases hy
      arrived := by rw [arriving_none, List.append_nil]; exact harrived
      ingested := by
        rw [List.length_append, List.length_singleton, ← RingIndex.ofNat_add_one, ← h.ingested]
        rfl
      batches := h.batches }
  · -- the queue was full: the sample is dropped and counted as such
    have harrived := h.arrived
    rw [hpc] at harrived
    exact { h with
      item := fun y hy => by rw [hpc] at hy; cases hy
      arrived := by rw [arriving_none]; exact harrived
      ingested := h.ingested
      batches := h.batches }
  · exact h.pushStep hqueue

/-! ## (3) The consumer -/

/-- **What a step of the consumer does**, with one constructor for each branch of the loop. -/
inductive ConsumerMove (s : Ingestor) : Ingestor → Prop where
  | readFlag (hpc : s.consumer_ = .readFlag) :
      ConsumerMove s { s with stopping := s.stop_requested, popped := 0, consumer_ := .drain }
  | full (hpc : s.consumer_ = .drain) (hfull : s.batchFull = true) :
      ConsumerMove s { s with consumer_ := .readClock }
  | startPop (queue : SpscRingBuffer TelemetrySample) (hpc : s.consumer_ = .drain)
      (hfull : s.batchFull = false) (hqueue : s.queue_.startPop = some queue) :
      ConsumerMove s { s with queue_ := queue, consumer_ := .popping }
  | popped (sample : TelemetrySample) (hpc : s.consumer_ = .popping)
      (hret : s.queue_.consumer = .returned (some sample)) :
      ConsumerMove s { s with
        batch := s.batch ++ [sample], popped := s.popped + 1, consumer_ := .drain }
  | popEmpty (hpc : s.consumer_ = .popping) (hret : s.queue_.consumer = .returned none) :
      ConsumerMove s { s with consumer_ := .readClock }
  | popStep (queue : SpscRingBuffer TelemetrySample) (hpc : s.consumer_ = .popping)
      (hqueue : s.queue_.consumerStep = some queue) : ConsumerMove s { s with queue_ := queue }
  | stop (hpc : s.consumer_ = .checkStop) (hset : s.stopping = true) :
      ConsumerMove s { s with consumer_ := .loadHead }
  | goOn (hpc : s.consumer_ = .checkStop) (hset : s.stopping = false) :
      ConsumerMove s { s with idle_rounds := s.nextIdleRounds, consumer_ := .readFlag }
  | loadHead (hpc : s.consumer_ = .loadHead) :
      ConsumerMove s { s with consumer_ := .loadTail s.queue_.head_ }
  | finish (head : UInt64) (hpc : s.consumer_ = .loadTail head)
      (hempty : s.queue_.tail_ - head = 0) (hnil : s.batch = []) :
      ConsumerMove s { s with consumer_ := .finished }
  | sendLast (head : UInt64) (hpc : s.consumer_ = .loadTail head)
      (hempty : s.queue_.tail_ - head = 0) (hne : s.batch ≠ []) :
      ConsumerMove s (s.sendBatch .inLastSink)
  | again (head : UInt64) (hpc : s.consumer_ = .loadTail head)
      (hdiff : s.queue_.tail_ - head ≠ 0) : ConsumerMove s { s with consumer_ := .readFlag }

/-- The consumer takes no other steps. -/
theorem consumerMove_of_consumerStep {s t : Ingestor} (hstep : s.consumerStep = some t) :
    ConsumerMove s t := by
  unfold Ingestor.consumerStep at hstep
  split at hstep
  next hpc => exact Option.some.inj hstep ▸ .readFlag hpc
  next hpc =>
    split at hstep
    next hfull => exact Option.some.inj hstep ▸ .full hpc hfull
    next hfull =>
      obtain ⟨queue, hqueue, rfl⟩ := Option.map_eq_some_iff.mp hstep
      exact .startPop queue hpc (Bool.eq_false_iff.mpr hfull) hqueue
  next hpc =>
    split at hstep
    next sample hret => exact Option.some.inj hstep ▸ .popped sample hpc hret
    next hret => exact Option.some.inj hstep ▸ .popEmpty hpc hret
    next =>
      obtain ⟨queue, hqueue, rfl⟩ := Option.map_eq_some_iff.mp hstep
      exact .popStep queue hpc hqueue
  next hpc =>
    split at hstep
    next hset => exact Option.some.inj hstep ▸ .stop hpc hset
    next hset => exact Option.some.inj hstep ▸ .goOn hpc (Bool.eq_false_iff.mpr hset)
  next hpc => exact Option.some.inj hstep ▸ .loadHead hpc
  next head hpc =>
    split at hstep
    next hempty =>
      split at hstep
      next hnil => exact Option.some.inj hstep ▸ .finish head hpc hempty (List.isEmpty_iff.mp hnil)
      next hne =>
        exact Option.some.inj hstep ▸ .sendLast head hpc hempty (mt List.isEmpty_iff.mpr hne)
    next hdiff => exact Option.some.inj hstep ▸ .again head hpc hdiff
  next => cases hstep

/-- The batch fits the buffer and the header. -/
theorem serialize_batch {s : Ingestor} (h : DataInv s) :
    serialize s.batch s.encodedSize = encodedBatch s.batch := by
  have hlt := h.batch_size_lt
  have hle := h.batch_le
  have hsize : s.encodedSize.toNat = 16 + s.options_.batch_size.toNat * 24 := by
    rw [encodedSize, ← toNat_required_buffer_size hlt, UInt64.ofNat_toNat]
  exact serialize_of_fits (by omega) (by omega)

/-- What was encoded decodes to the batch. -/
theorem decode_copy_batch {s : Ingestor} (h : DataInv s) :
    decode_copy (encodedBatch s.batch) [] = (.ok, s.batch) := by
  have hlt := h.batch_size_lt
  have hle := h.batch_le
  have hdecode := decode_copy_encoded (show s.batch.length < 2 ^ 32 by omega) [] []
  rwa [List.append_nil, List.nil_append] at hdecode

/-- `batch.size() >= options_.batch_size`, without wrapping. -/
theorem batchFull_iff {s : Ingestor} (hle : s.batch.length ≤ s.options_.batch_size.toNat) :
    s.batchFull = true ↔ s.batch.length = s.options_.batch_size.toNat := by
  have hlt := UInt64.toNat_lt s.options_.batch_size
  rw [batchFull, decide_eq_true_iff, ge_iff_le, UInt64.le_iff_toNat_le,
    UInt64.toNat_ofNat_of_lt' (by rw [UInt64.size]; omega)]
  omega

/-- Nothing is in the consumer's hand outside a pop. -/
theorem inHand_of_ne_popping {consumer : ConsumerPc} (hne : consumer ≠ .popping)
    (pc : Pop TelemetrySample) : inHand consumer pc = [] := by
  unfold inHand
  split
  · exact absurd rfl hne
  · rfl

/-- **Handing a non-empty batch to the sink** moves it behind what was sent. -/
theorem DataInv.sendBatch {s : Ingestor} (h : DataInv s) (hne : s.batch ≠ [])
    (hpc : uncounted s.consumer_ = 0) (hnot : s.consumer_ ≠ .popping) {next : ConsumerPc}
    (hnext : uncounted next = 1) (hnext' : next ≠ .popping) : DataInv (s.sendBatch next) := by
  have hserialize := serialize_batch h
  have hdecode := decode_copy_batch h
  have hconserved := h.conserved
  have hbatches := h.batches
  rw [inHand_of_ne_popping hnot, List.append_nil] at hconserved
  rw [hpc, UInt64.add_zero] at hbatches
  exact { h with
    waiting := fun _ => h.waiting hnot
    batch_le := Nat.zero_le _
    room := fun hpc => absurd hpc hnext'
    -- what was in the batch is what the bytes decode to
    conserved := by
      show sentSamples (s.sink_calls ++ [_]) ++ [] ++ inHand next s.queue_.consumer = _
      rw [sentSamples_concat, hserialize, hdecode, List.append_nil, inHand_of_ne_popping hnext',
        List.append_nil]
      exact hconserved
    calls_ok := by
      intro bytes hbytes
      rcases List.mem_append.mp hbytes with hold | hnew
      · exact h.calls_ok bytes hold
      · rw [List.mem_singleton.mp hnew]
        exact ⟨s.batch, hserialize, hne, h.batch_le⟩
    batches := by
      show s.counters_.batches_sent + s.counters_.batches_failed + uncounted next =
        UInt64.ofNat (s.sink_calls ++ [_]).length
      rw [hnext, hbatches, List.length_append, List.length_singleton, RingIndex.ofNat_add_one] }

/-- Going on in the loop with the same batch. -/
theorem DataInv.goOn {s : Ingestor} (h : DataInv s) {next : ConsumerPc} (stopping : Bool)
    (popped : UInt64) (idle_rounds : UInt32) (last_flush : Core.TimePoint)
    (hwaiting : ¬ s.queue_.consumer.InCall) (hnext : next ≠ .popping)
    (hhand : inHand s.consumer_ s.queue_.consumer = [])
    (hhand' : inHand next s.queue_.consumer = []) (hpc : uncounted s.consumer_ = 0)
    (hpc' : uncounted next = 0) :
    DataInv { s with
      consumer_ := next, stopping := stopping, popped := popped, idle_rounds := idle_rounds
      last_flush := last_flush } := by
  have hconserved := h.conserved
  have hbatches := h.batches
  rw [hhand, ← hhand'] at hconserved
  rw [hpc, ← hpc'] at hbatches
  exact { h with
    waiting := fun _ => hwaiting
    room := fun hpc => absurd hpc hnext
    conserved := hconserved
    batches := hbatches }

/-- Nothing is in the consumer's hand while a pop is going on. -/
theorem inHand_of_inCall (consumer : ConsumerPc) {pc : Pop TelemetrySample} (h : pc.InCall) :
    inHand consumer pc = [] := by
  cases pc with
  | idle | returned _ => exact h.elim
  | compare | reload | compareReloaded | moveOut | publish => cases consumer <;> rfl

/-- A step of the pop moves the oldest sample from the queue into the consumer's hand. -/
theorem DataInv.popStep {s : Ingestor} {queue : SpscRingBuffer TelemetrySample} (h : DataInv s)
    (hpc : s.consumer_ = .popping) (hqueue : s.queue_.consumerStep = some queue) :
    DataInv { s with queue_ := queue } := by
  obtain ⟨-, hproducer, -, hpushed, -⟩ := SpscRingBuffer.consumerStep_frame hqueue
  obtain ⟨hcall, hresult⟩ := SpscRingBuffer.consumerStep_result hqueue
  have hitem := h.item
  have harrived := h.arrived
  rw [← hproducer] at hitem harrived
  rw [← hpushed] at harrived
  have hconserved := h.conserved
  rw [inHand_of_inCall s.consumer_ hcall, List.append_nil] at hconserved
  have hnew : sentSamples s.sink_calls ++ s.batch ++ inHand s.consumer_ queue.consumer =
      queue.popped := by
    -- the sample is still in the queue, in the consumer's hand, or there was none
    rcases hresult with ⟨hcall', hpopped⟩ | ⟨x, hret, hpopped⟩ | ⟨hret, hpopped⟩
    · rw [inHand_of_inCall s.consumer_ hcall', List.append_nil, hpopped, hconserved]
    · rw [hret, hpc, hpopped, ← hconserved]
      rfl
    · rw [hret, hpc, hpopped, ← hconserved]
      exact List.append_nil _
  exact { h with
    ring := h.ring.consumerStep hqueue
    item := hitem
    arrived := harrived
    waiting := fun hne => absurd hpc hne
    conserved := hnew }

/-- Going on in the loop from a place outside a pop to another one. -/
theorem DataInv.goOn_of_ne {s : Ingestor} (h : DataInv s) {next : ConsumerPc} (stopping : Bool)
    (popped : UInt64) (idle_rounds : UInt32) (last_flush : Core.TimePoint)
    (hne : s.consumer_ ≠ .popping) (hnext : next ≠ .popping) (hpc : uncounted s.consumer_ = 0)
    (hpc' : uncounted next = 0) :
    DataInv { s with
      consumer_ := next, stopping := stopping, popped := popped, idle_rounds := idle_rounds
      last_flush := last_flush } :=
  h.goOn stopping popped idle_rounds last_flush (h.waiting hne) hnext (inHand_of_ne_popping hne _)
    (inHand_of_ne_popping hnext _) hpc hpc'

/-- A pop starts only where the batch has room. -/
theorem DataInv.startPop {s : Ingestor} {queue : SpscRingBuffer TelemetrySample} (h : DataInv s)
    (hpc : s.consumer_ = .drain) (hfull : s.batchFull = false)
    (hqueue : s.queue_.startPop = some queue) :
    DataInv { s with queue_ := queue, consumer_ := .popping } := by
  have hle := h.batch_le
  -- the loop does not start a pop with a full batch
  have hroom : s.batch.length ≠ s.options_.batch_size.toNat := fun heq => by
    rw [(batchFull_iff hle).mpr heq] at hfull
    cases hfull
  have hring := h.ring.startPop hqueue
  have heq := SpscRingBuffer.startPop_eq_some hqueue
  subst heq
  have hconserved := h.conserved
  have hbatches := h.batches
  rw [hpc] at hconserved hbatches
  exact { h with
    ring := hring
    waiting := fun hne => absurd rfl hne
    room := fun _ => Nat.lt_of_le_of_ne hle hroom
    conserved := hconserved
    batches := hbatches }

/-- The popped sample goes from the consumer's hand into the batch. -/
theorem DataInv.pushBatch {s : Ingestor} {sample : TelemetrySample} (h : DataInv s)
    (hpc : s.consumer_ = .popping) (hret : s.queue_.consumer = .returned (some sample)) :
    DataInv { s with
      batch := s.batch ++ [sample], popped := s.popped + 1, consumer_ := .drain } := by
  have hconserved := h.conserved
  have hbatches := h.batches
  rw [hpc, hret] at hconserved
  rw [hpc] at hbatches
  have hroom := h.room hpc
  exact { h with
    waiting := fun _ => by
      show ¬ s.queue_.consumer.InCall
      rw [hret]
      exact not_false
    batch_le := by
      rw [List.length_append, List.length_singleton]
      exact hroom
    room := fun hne => by cases hne
    -- the sample moves from the hand to the end of the batch
    conserved := by
      rw [← hconserved, ← List.append_assoc]
      exact List.append_nil _
    batches := hbatches }

/-- A pop that came back empty leaves nothing in the consumer's hand. -/
theorem DataInv.endDrain {s : Ingestor} (h : DataInv s) (hpc : s.consumer_ = .popping)
    (hret : s.queue_.consumer = .returned none) :
    DataInv { s with consumer_ := .readClock } := by
  have hwaiting : ¬ s.queue_.consumer.InCall := by
    rw [hret]
    exact not_false
  have hhand : inHand s.consumer_ s.queue_.consumer = [] := by
    rw [hpc, hret]
    rfl
  exact h.goOn _ _ _ _ hwaiting (by decide) hhand rfl (by rw [hpc]; rfl) rfl

/-- **Every step of the consumer** keeps what the two threads keep. -/
theorem DataInv.consumerStep {s t : Ingestor} (h : DataInv s) (hstep : s.consumerStep = some t) :
    DataInv t := by
  cases consumerMove_of_consumerStep hstep with
  | startPop queue hpc hfull hqueue => exact h.startPop hpc hfull hqueue
  | popStep queue hpc hqueue => exact h.popStep hpc hqueue
  | popped sample hpc hret => exact h.pushBatch hpc hret
  | popEmpty hpc hret => exact h.endDrain hpc hret
  | sendLast head hpc hempty hne =>
      exact h.sendBatch hne (by rw [hpc]; rfl) (by simp [hpc]) rfl (by decide)
  -- the other steps only move the consumer on
  | readFlag hpc | full hpc | stop hpc | goOn hpc | loadHead hpc | finish head hpc
  | again head hpc =>
      exact h.goOn_of_ne _ _ _ _ (by simp [hpc]) (by simp) (by rw [hpc]; rfl) rfl

/-- A batch that is sent is not empty: it is full, or due. -/
theorem DataInv.batch_ne_nil_of_send {s : Ingestor} (h : DataInv s) {now : Core.TimePoint}
    (hsend : (s.batchFull || s.batchDue now) = true) : s.batch ≠ [] := by
  intro hnil
  rcases Bool.or_eq_true_iff.mp hsend with hfull | hdue
  · have hlength := (batchFull_iff h.batch_le).mp hfull
    have hpos := h.batch_size_pos
    rw [hnil, List.length_nil] at hlength
    omega
  · rw [batchDue, hnil] at hdue
    cases hdue

/-- Reading the clock sends a batch that is full or due, and nothing else. -/
theorem DataInv.clockStep {s t : Ingestor} (h : DataInv s) {now : Core.TimePoint}
    (hstep : s.clockStep now = some t) : DataInv t := by
  unfold Ingestor.clockStep at hstep
  cases hpc : s.consumer_ with
  | enter =>
      simp only [hpc, Option.some.injEq] at hstep
      subst hstep
      exact h.goOn_of_ne _ _ _ _ (by simp [hpc]) (by simp) (by rw [hpc]; rfl) rfl
  | readClock =>
      simp only [hpc] at hstep
      split at hstep
      · rename_i hsend
        cases hstep
        exact h.sendBatch (h.batch_ne_nil_of_send hsend) (by rw [hpc]; rfl) (by simp [hpc]) rfl
          (by simp)
      · cases hstep
        exact h.goOn_of_ne _ _ _ _ (by simp [hpc]) (by simp) (by rw [hpc]; rfl) rfl
  -- every other counter is not at a read of the clock
  | notStarted | readFlag | drain | popping | inSink | checkStop | loadHead | loadTail | inLastSink
  | finished => simp only [hpc, reduceCtorEq] at hstep

/-- Counting a batch, sent or failed, counts one. -/
theorem countBatch_total (s : Ingestor) (outcome : SinkOutcome) :
    (s.countBatch outcome).batches_sent + (s.countBatch outcome).batches_failed =
      s.counters_.batches_sent + s.counters_.batches_failed + 1 := by
  cases outcome with
  | returns =>
      show s.counters_.batches_sent + 1 + s.counters_.batches_failed = _
      rw [UInt64.add_assoc, UInt64.add_comm 1, ← UInt64.add_assoc]
  | throws => exact (UInt64.add_assoc ..).symm

/-- Counting a batch leaves the count of samples alone. -/
theorem countBatch_ingested (s : Ingestor) (outcome : SinkOutcome) :
    (s.countBatch outcome).ingested = s.counters_.ingested := by
  cases outcome with
  | returns => rfl
  | throws => rfl

/-- When the sink is done, its batch is counted. -/
theorem DataInv.sinkStep {s t : Ingestor} (h : DataInv s) {outcome : SinkOutcome}
    (hstep : s.sinkStep outcome = some t) : DataInv t := by
  unfold Ingestor.sinkStep at hstep
  have hwaiting := h.waiting
  have hconserved := h.conserved
  have hbatches := h.batches
  have hingested := h.ingested
  rw [← countBatch_ingested s outcome] at hingested
  cases hpc : s.consumer_ with
  | inSink now | inLastSink =>
      simp only [hpc, Option.some.injEq] at hstep
      rw [hpc] at hwaiting hconserved hbatches
      -- the batch in the sink was the one not counted yet
      have htotal := (countBatch_total s outcome).trans hbatches
      subst hstep
      exact { h with
        waiting := fun _ => hwaiting (by simp)
        room := fun hne => by cases hne
        conserved := hconserved
        ingested := hingested
        batches := (UInt64.add_zero _).trans htotal }
  | notStarted | enter | readFlag | drain | popping | readClock | checkStop | loadHead | loadTail
  | finished => simp only [hpc, reduceCtorEq] at hstep

/-! ## (4) Every step -/

/-- **Every step of every thread keeps what the two threads keep.** -/
theorem dataInv_step {s t : Ingestor} {e : IngestEvent} (h : DataInv s)
    (hstep : step s e = some t) : DataInv t := by
  cases e with
  | submit sample => exact h.startSubmit hstep
  | producer => exact h.producerStep hstep
  | consumer => exact h.consumerStep hstep
  | clock now => exact h.clockStep hstep
  | sink outcome => exact h.sinkStep hstep
  -- starting and stopping move no sample
  | start =>
      have hstart : s.startStep = some t := hstep
      unfold startStep at hstart
      split at hstart
      · rename_i hpc
        have hwaiting := h.waiting
        have hconserved := h.conserved
        have hbatches := h.batches
        rw [hpc] at hwaiting hconserved hbatches
        cases hstart
        exact { h with
          waiting := fun _ => hwaiting (by decide)
          room := fun hne => by cases hne
          conserved := hconserved
          batches := hbatches }
      · cases hstart
  | stop =>
      have hstop : s.stopStep = some t := hstep
      unfold stopStep at hstop
      split at hstop
      · cases hstop
        exact { h with }
      · cases hstop

end Ingestor

end Ironpulse.Ingest
