import Ironpulse.Ingest.Shutdown

/-! # Batches beyond the 32-bit count

The encoder refuses more samples than the batch header can count, and the ingestor hands its empty
result to the sink: a full batch of that size is lost. So the ingestor conserves its samples exactly
for the batch sizes below.

* **`Gathering`**: the consumer gathers a batch sample by sample, and `exists_gathering`.
* **`conserves_iff`**: conservation holds exactly when a full batch fits the count. -/

namespace Ironpulse.Ingest

open StepMachine

namespace Ingestor

/-! ## (1) Steps inside the queue -/

/-- A step of the pop is a step of the ingestor. -/
theorem step_consumer_of_queue {s : Ingestor} {queue : SpscRingBuffer TelemetrySample}
    (hpc : s.consumer_ = .popping) (hqueue : s.queue_.consumerStep = some queue) :
    step s .consumer = some { s with queue_ := queue } := by
  show s.consumerStep = _
  simp only [consumerStep, hpc]
  split
  · rename_i hret
    simp only [SpscRingBuffer.consumerStep, hret, reduceCtorEq] at hqueue
  · rename_i hret
    simp only [SpscRingBuffer.consumerStep, hret, reduceCtorEq] at hqueue
  · rw [hqueue]
    rfl

/-- Steps of a push are steps of the ingestor. -/
theorem reachable_of_pushes {s : Ingestor} {queue : SpscRingBuffer TelemetrySample}
    {sample : TelemetrySample} {n : Nat} (hsubmit : s.submitting = some sample)
    (hrun : run SpscRingBuffer.step s.queue_ (.replicate n .producer) = some queue) :
    Reachable step s { s with queue_ := queue } := by
  refine reachable_of_replicate (fun queue => { s with queue_ := queue }) (fun hstep => ?_) hrun
  refine Reachable.of_step (e := .producer) ?_
  exact producerStep_of_queue (s := { s with queue_ := _ }) hsubmit hstep

/-- Steps of a pop are steps of the ingestor. -/
theorem reachable_of_pops {s : Ingestor} {queue : SpscRingBuffer TelemetrySample} {n : Nat}
    (hpc : s.consumer_ = .popping)
    (hrun : run SpscRingBuffer.step s.queue_ (.replicate n .consumer) = some queue) :
    Reachable step s { s with queue_ := queue } := by
  refine reachable_of_replicate (fun queue => { s with queue_ := queue }) (fun hstep => ?_) hrun
  exact Reachable.of_step (step_consumer_of_queue (s := { s with queue_ := _ }) hpc hstep)

/-! ## (2) Gathering a batch -/

/-- The consumer is about to pop from the empty queue and has `count` samples in its batch. -/
structure Gathering (s : Ingestor) (count : Nat) : Prop where
  ring : s.queue_.RingInv
  pushing : ¬ s.queue_.producer.InCall
  popping : ¬ s.queue_.consumer.InCall
  empty : s.queue_.Empty
  at_drain : s.consumer_ = .drain
  submitting : s.submitting = none
  running : s.stop_requested = false
  length : s.batch.length = count
  unsent : s.sink_calls = []

/-- A submit into the empty queue that runs alone. -/
theorem Gathering.submit_alone {s : Ingestor} {count : Nat} (h : Gathering s count)
    (sample : TelemetrySample) :
    ∃ queue : SpscRingBuffer TelemetrySample, queue.RingInv ∧ ¬ queue.producer.InCall ∧
      ¬ queue.consumer.InCall ∧ queue.pushed.length = queue.popped.length + 1 ∧
      Reachable step s { s with
        queue_ := queue
        counters_ := s.counters_.record_ingested
        submitting := none
        accepted := s.accepted ++ [sample] } := by
  obtain ⟨queue₁, hpush⟩ := SpscRingBuffer.exists_startPush h.pushing sample
  have hempty : s.queue_.pushed.length = s.queue_.popped.length := h.empty
  -- the queue is empty, so there is room even in the smallest one
  have hnotFull : ¬ s.queue_.Full := by
    obtain ⟨k, -, hcap⟩ := h.ring.capacity
    have hpos := Nat.two_pow_pos k
    rw [SpscRingBuffer.Full, hcap]
    omega
  obtain ⟨n, queue₂, hpushes, hpushed, hmore, hsame, hconsumer⟩ :=
    h.ring.pushesAlone hnotFull hpush
  have hring : queue₂.RingInv :=
    run_invariant SpscRingBuffer.ringInv_step (h.ring.startPush hpush) hpushes
  rw [SpscRingBuffer.startPush_eq_some hpush] at hmore hsame hconsumer
  let s₁ : Ingestor := { s with queue_ := queue₁, submitting := some sample }
  let s₂ : Ingestor := { s₁ with queue_ := queue₂ }
  -- the call of `submit`, its push, and its return
  have h₁ : step s (.submit sample) = some s₁ := by
    show s.startSubmit sample = _
    rw [startSubmit, if_pos ⟨h.submitting, by rw [h.running]; exact Bool.false_ne_true⟩, hpush]
    rfl
  have h₂ : Reachable step s₁ s₂ := reachable_of_pushes rfl hpushes
  have h₃ : step s₂ .producer = some { s₂ with
      counters_ := s.counters_.record_ingested
      submitting := none
      accepted := s.accepted ++ [sample] } := by
    show s₂.producerStep = _
    simp only [producerStep, s₂, s₁, hpushed]
  refine ⟨queue₂, hring, by rw [hpushed]; exact not_false, ?_, ?_,
    (Reachable.of_step h₁).trans <| h₂.trans <| Reachable.of_step h₃⟩
  · rw [hconsumer]
    exact h.popping
  · rw [hmore, hsame, List.length_append, List.length_singleton]
    exact congrArg (· + 1) hempty

/-- A pop of the only sample of the queue that runs alone. -/
theorem pop_alone {s : Ingestor} (hring : s.queue_.RingInv) (hidle : ¬ s.queue_.consumer.InCall)
    (hproducer : ¬ s.queue_.producer.InCall)
    (hone : s.queue_.pushed.length = s.queue_.popped.length + 1) (hdrain : s.consumer_ = .drain)
    (hroom : s.batchFull = false) :
    ∃ (queue : SpscRingBuffer TelemetrySample) (x : TelemetrySample), queue.RingInv ∧
      ¬ queue.producer.InCall ∧ ¬ queue.consumer.InCall ∧ queue.Empty ∧
      Reachable step s { s with
        queue_ := queue
        batch := s.batch ++ [x]
        popped := s.popped + 1
        consumer_ := .drain } := by
  have hnotEmpty : ¬ s.queue_.Empty := by
    rw [SpscRingBuffer.Empty]
    omega
  obtain ⟨queue₁, hpop⟩ := SpscRingBuffer.exists_startPop hidle
  obtain ⟨m, queue₂, x, hpops, hpopped, hmore, hkeep, hsame⟩ := hring.popsAlone hnotEmpty hpop
  have hring₂ : queue₂.RingInv :=
    run_invariant SpscRingBuffer.ringInv_step (hring.startPop hpop) hpops
  rw [SpscRingBuffer.startPop_eq_some hpop] at hmore hkeep hsame
  let s₁ : Ingestor := { s with queue_ := queue₁, consumer_ := .popping }
  let s₂ : Ingestor := { s₁ with queue_ := queue₂ }
  -- the start of the pop, the pop, and the sample going into the batch
  have h₁ : step s .consumer = some s₁ := by
    show s.consumerStep = _
    simp only [consumerStep, hdrain]
    rw [if_neg (Bool.eq_false_iff.mp hroom), hpop]
    rfl
  have h₂ : Reachable step s₁ s₂ := reachable_of_pops rfl hpops
  have h₃ : step s₂ .consumer = some { s₂ with
      batch := s.batch ++ [x], popped := s.popped + 1, consumer_ := .drain } := by
    show s₂.consumerStep = _
    simp only [consumerStep, s₂, s₁, hpopped]
  refine ⟨queue₂, x, hring₂, ?_, by rw [hpopped]; exact not_false, ?_,
    (Reachable.of_step h₁).trans <| h₂.trans <| Reachable.of_step h₃⟩
  · rw [hsame]
    exact hproducer
  · rw [SpscRingBuffer.Empty, hkeep, hmore, List.length_append, List.length_singleton]
    exact hone

/-- **One more sample**: it is submitted and popped into the batch. -/
theorem Gathering.next {s : Ingestor} {count : Nat} (h : Gathering s count)
    (hroom : s.batchFull = false) (sample : TelemetrySample) :
    ∃ t, Reachable step s t ∧ Gathering t (count + 1) := by
  -- one sample goes through the empty queue into the batch
  obtain ⟨queue₁, hring₁, hpushing₁, hpopping₁, hone, hsubmit⟩ := h.submit_alone sample
  obtain ⟨queue₂, x, hring₂, hpushing₂, hpopping₂, hempty, hpop⟩ := pop_alone (s := { s with
    queue_ := queue₁
    counters_ := s.counters_.record_ingested
    submitting := none
    accepted := s.accepted ++ [sample] }) hring₁ hpopping₁ hpushing₁ hone h.at_drain hroom
  refine ⟨_, hsubmit.trans hpop, ?_⟩
  exact
    { ring := hring₂
      pushing := hpushing₂
      popping := hpopping₂
      empty := hempty
      at_drain := rfl
      submitting := rfl
      running := h.running
      length := by
        show (s.batch ++ [x]).length = count + 1
        rw [List.length_append, List.length_singleton, h.length]
      unsent := h.unsent }

/-- The options never change. -/
theorem options_reachable {s t : Ingestor} (h : Reachable step s t) : t.options_ = s.options_ := by
  obtain ⟨es, hrun⟩ := h
  exact options_run hrun

/-- **A batch fills up to any count that the options allow.** -/
theorem exists_gathering {s : Ingestor} (h : Gathering s 0) (count : Nat)
    (hcount : count ≤ s.options_.batch_size.toNat) :
    ∃ t, Reachable step s t ∧ Gathering t count := by
  induction count with
  | zero => exact ⟨s, Reachable.refl s, h⟩
  | succ count ih =>
      obtain ⟨t, hreach, ht⟩ := ih (by omega)
      have hoptions := options_reachable hreach
      have hroom : t.batchFull = false := by
        have hlength := ht.length
        rw [Bool.eq_false_iff, Ne, batchFull_iff (by rw [hoptions]; omega), hoptions]
        omega
      obtain ⟨u, hreach', hu⟩ := ht.next hroom { timestamp_ms := 0, value := 0, tag_id := 0 }
      exact ⟨u, hreach.trans hreach', hu⟩

/-- The consumer gets to its first pop. -/
theorem exists_gathering_zero {options : IngestorOptions} {s : Ingestor}
    (h : make options = .ok s) : ∃ t, Reachable step s t ∧ Gathering t 0 ∧ t.options_ = options := by
  obtain ⟨-, queue, hqueue, rfl⟩ := make_eq_ok h
  have hring := SpscRingBuffer.ringInv_make hqueue
  obtain ⟨-, rfl⟩ := SpscRingBuffer.make_eq_ok hqueue
  refine ⟨_, ⟨[.start, .clock 0, .consumer], rfl⟩, ?_, rfl⟩
  exact
    { ring := hring
      pushing := not_false
      popping := not_false
      empty := rfl
      at_drain := rfl
      submitting := rfl
      running := rfl
      length := rfl
      unsent := rfl }

/-! ## (3) When the ingestor conserves its samples -/

/-- **A full batch beyond the header's count** is handed to the sink as no bytes at all. -/
theorem not_conserves {options : IngestorOptions} (hvalid : options.validate = .ok ())
    (hsize : 2 ^ 32 ≤ options.batch_size.toNat) : ¬ Conserves options := by
  intro hall
  obtain ⟨s₀, hmake⟩ := exists_make hvalid
  obtain ⟨s₁, hreach₁, hzero, hoptions₁⟩ := exists_gathering_zero hmake
  obtain ⟨s₂, hreach₂, hgathered⟩ :=
    exists_gathering hzero options.batch_size.toNat (by rw [hoptions₁])
  have hoptions₂ : s₂.options_ = options := (options_reachable hreach₂).trans hoptions₁
  have hlength : s₂.batch.length = s₂.options_.batch_size.toNat := by
    rw [hoptions₂]
    exact hgathered.length
  have hfull : s₂.batchFull = true := (batchFull_iff hlength.le).mpr hlength
  -- the full batch is encoded and handed over
  let s₃ : Ingestor := { s₂ with consumer_ := .readClock }
  let s₄ : Ingestor := s₃.sendBatch (.inSink 0)
  have h₃ : step s₂ .consumer = some s₃ := by
    show s₂.consumerStep = _
    simp only [consumerStep, hgathered.at_drain]
    exact if_pos hfull
  have h₄ : step s₃ (.clock 0) = some s₄ := by
    show s₃.clockStep 0 = _
    have hsend : (s₃.batchFull || s₃.batchDue 0) = true := by
      rw [show s₃.batchFull = true from hfull, Bool.true_or]
    exact if_pos hsend
  obtain ⟨es, hrun⟩ := hreach₁.trans <| hreach₂.trans <| (Reachable.of_step h₃).trans <|
    Reachable.of_step h₄
  have hempty : serialize s₂.batch s₃.encodedSize = [] := by
    have hlt := UInt64.toNat_lt s₂.options_.batch_size
    rw [← hoptions₂] at hsize
    exact serialize_of_too_many (by omega) (by omega)
  have hmem : [] ∈ s₄.sink_calls := by
    show [] ∈ s₂.sink_calls ++ [serialize s₂.batch s₃.encodedSize]
    rw [hempty]
    exact List.mem_append_right _ (List.mem_singleton_self _)
  obtain ⟨samples, hdecode, -⟩ := (hall s₀ es s₄ hmake hrun).batches_ok [] hmem
  cases hdecode

/-- **The ingestor conserves its samples exactly when a full batch fits the 32-bit count** of the
batch header: for every valid choice of options, over every order of the threads' steps, every
clock and every sink that returns or throws. -/
theorem conserves_iff {options : IngestorOptions} (hvalid : options.validate = .ok ()) :
    Conserves options ↔ options.batch_size.toNat ≤ 4294967295 := by
  constructor
  · intro hall
    by_contra hsize
    exact not_conserves hvalid (by omega) hall
  · intro hsize s₀ es s hmake hrun
    have hinv : StopInv s := run_invariant stopInv_step (stopInv_make hmake (by omega)) hrun
    have hoptions : s₀.options_ = options := by
      obtain ⟨-, queue, -, rfl⟩ := make_eq_ok hmake
      rfl
    have hconserved := conserved_of_stopInv hinv
    rwa [(options_run hrun).trans hoptions] at hconserved

/-- The default options conserve. -/
theorem conserves_default : Conserves {} := (conserves_iff rfl).mpr (by decide)

/-- A queue and a batch of `2 ^ 32` samples are valid options, and a full batch is lost. -/
theorem not_conserves_full_batch :
    ¬ ∀ options : IngestorOptions, options.validate = .ok () → Conserves options := by
  intro hall
  have hvalid : IngestorOptions.validate
      { queue_capacity := 4294967296, batch_size := 4294967296 } = .ok () := by decide
  exact not_conserves hvalid (by decide) (hall _ hvalid)

end Ingestor

end Ironpulse.Ingest
