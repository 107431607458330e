import Ironpulse.Ingest.Conservation

/-! # Stopping the ingestor drains it

`stop()` is called after the last `submit`. A round of the loop that has read the stop flag as set
sees every accepted sample: when its pop comes back empty, the queue is empty for good.

* **`StopInv`**: what the stop flag means to the consumer, and `stopInv_step`.
* **`remainingSteps`**: after `stop()` every step lowers this measure, so the loop terminates.
* **`Conserved`**: what is promised of every state, and `conserved_of_stopInv`. -/

namespace Ironpulse.Ingest

open StepMachine

/-- The consumer is past the check of the stop flag and will not submit another full batch. -/
def ConsumerPc.Ending : ConsumerPc → Prop
  | .loadHead | .loadTail _ | .inLastSink | .finished => True
  | _ => False

/-- Back in a round of the loop whose draining has not come to the end of the queue. -/
def ConsumerPc.InRound : ConsumerPc → Prop
  | .readFlag | .drain | .inSink _ => True
  | _ => False

/-- A consumer back in a round has not passed the check of the flag. -/
theorem ConsumerPc.InRound.not_ending {pc : ConsumerPc} (h : pc.InRound) : ¬ pc.Ending := by
  cases pc with
  | readFlag | drain | inSink now => exact id
  | notStarted | enter | popping | readClock | checkStop | loadHead | loadTail | inLastSink
  | finished => exact h.elim

namespace Ingestor

/-! ## (1) What the stop flag means -/

/-- This round's draining has come to the end of the queue. -/
def Drained (s : Ingestor) : Prop :=
  match s.consumer_ with
  | .popping => s.queue_.RefusesPop ∨ s.queue_.consumer = .returned none
  | .readClock => s.batchFull = false
  | .checkStop | .loadHead | .loadTail _ | .inLastSink | .finished => True
  | _ => False

/-- **The invariant of stopping**: what the owner, the producer and the consumer know of the stop.
-/
structure StopInv (s : Ingestor) : Prop where
  data : DataInv s
  started : s.running_ = true ∨ s.stop_requested = true → s.consumer_ ≠ .notStarted
  quiet : s.stop_requested = true → s.submitting = none
  halted : s.stop_requested = true → s.running_ = false
  stopping : s.stopping = true → s.stop_requested = true
  calling : s.consumer_ = .popping → s.queue_.consumer ≠ .idle
  ending : s.consumer_.Ending → s.stopping = true
  loaded : ∀ head, s.consumer_ = .loadTail head → head = s.queue_.head_
  drained : s.stopping = true → s.Drained → s.queue_.Empty
  unsent : s.consumer_ = .inLastSink ∨ s.consumer_ = .finished → s.batch = []

/-- A new ingestor has not been stopped. -/
theorem stopInv_make {options : IngestorOptions} {s : Ingestor} (h : make options = .ok s)
    (hsize : options.batch_size.toNat < 2 ^ 32) : StopInv s := by
  have hdata := dataInv_make h hsize
  obtain ⟨-, queue, -, rfl⟩ := make_eq_ok h
  exact
    { data := hdata
      started := fun hor => by rcases hor with h | h <;> cases h
      quiet := fun h => by cases h
      halted := fun h => by cases h
      stopping := fun h => by cases h
      calling := fun h => by cases h
      ending := False.elim
      loaded := fun head h => by cases h
      drained := fun h => by cases h
      unsent := fun hor => by rcases hor with h | h <;> cases h }

/-- Before `stop()` a step that leaves the consumer where it is says nothing about stopping. -/
theorem StopInv.of_running {s t : Ingestor} (h : StopInv s) (hdata : DataInv t)
    (hrun : s.stop_requested = false) (hstop : t.stop_requested = s.stop_requested)
    (hstopping : t.stopping = s.stopping) (hrunning : t.running_ = s.running_)
    (hpc : t.consumer_ = s.consumer_) (hqueue : t.queue_.consumer = s.queue_.consumer) :
    StopInv t := by
  -- before the stop the flag of the round cannot be set
  have hnot : s.stopping ≠ true := fun hset => by
    rw [h.stopping hset] at hrun
    cases hrun
  have hgoing : ¬ s.consumer_.Ending := fun hending => hnot (h.ending hending)
  exact
    { data := hdata
      started := by rw [hrunning, hstop, hpc]; exact h.started
      quiet := fun hset => by rw [hstop, hrun] at hset; cases hset
      halted := fun hset => by rw [hstop, hrun] at hset; cases hset
      stopping := fun hset => absurd (hstopping ▸ hset) hnot
      calling := by rw [hpc, hqueue]; exact h.calling
      ending := by rw [hpc, hstopping]; exact h.ending
      loaded := fun head hhead => by
        rw [hpc] at hhead
        exact absurd (hhead ▸ trivial : s.consumer_.Ending) hgoing
      drained := fun hset => absurd (hstopping ▸ hset) hnot
      unsent := fun hor => by
        rw [hpc] at hor
        rcases hor with hlast | hlast
        · exact absurd (hlast ▸ trivial : s.consumer_.Ending) hgoing
        · exact absurd (hlast ▸ trivial : s.consumer_.Ending) hgoing }

/-- What a step of the consumer leaves alone. -/
structure ConsumerFrame (s t : Ingestor) : Prop where
  options : t.options_ = s.options_
  running : t.running_ = s.running_
  requested : t.stop_requested = s.stop_requested
  submitting : t.submitting = s.submitting
  accepted : t.accepted = s.accepted
  producer : t.queue_.producer = s.queue_.producer

/-- The consumer leaves the owner's flags and the producer's data alone. -/
theorem consumerStep_frame {s t : Ingestor} (hstep : s.consumerStep = some t) :
    ConsumerFrame s t := by
  cases consumerMove_of_consumerStep hstep with
  | startPop queue _ _ hqueue =>
      exact ⟨rfl, rfl, rfl, rfl, rfl, by rw [SpscRingBuffer.startPop_eq_some hqueue]⟩
  | popStep queue _ hqueue =>
      exact ⟨rfl, rfl, rfl, rfl, rfl, (SpscRingBuffer.consumerStep_frame hqueue).2.1⟩
  | readFlag | full | popped | popEmpty | stop | goOn | loadHead | finish | sendLast | again =>
      exact ⟨rfl, rfl, rfl, rfl, rfl, rfl⟩

/-- Reading the clock leaves the owner's flags and the producer's data alone. -/
theorem clockStep_frame {s t : Ingestor} {now : Core.TimePoint}
    (hstep : s.clockStep now = some t) :
    ConsumerFrame s t := by
  unfold Ingestor.clockStep at hstep
  cases hpc : s.consumer_ with
  | enter =>
      simp only [hpc, Option.some.injEq] at hstep
      subst hstep
      exact ⟨rfl, rfl, rfl, rfl, rfl, rfl⟩
  | readClock =>
      simp only [hpc] at hstep
      split at hstep <;> cases hstep <;> exact ⟨rfl, rfl, rfl, rfl, rfl, rfl⟩
  | notStarted | readFlag | drain | popping | inSink | checkStop | loadHead | loadTail | inLastSink
  | finished => simp only [hpc, reduceCtorEq] at hstep

/-- So does coming back from the sink. -/
theorem sinkStep_frame {s t : Ingestor} {outcome : SinkOutcome}
    (hstep : s.sinkStep outcome = some t) :
    ConsumerFrame s t := by
  unfold Ingestor.sinkStep at hstep
  cases hpc : s.consumer_ with
  | inSink now | inLastSink =>
      simp only [hpc, Option.some.injEq] at hstep
      subst hstep
      exact ⟨rfl, rfl, rfl, rfl, rfl, rfl⟩
  | notStarted | enter | readFlag | drain | popping | readClock | checkStop | loadHead | loadTail
  | finished => simp only [hpc, reduceCtorEq] at hstep

/-- A step of the consumer back into a round has nothing to show about the end of the queue. -/
theorem StopInv.of_inRound {s t : Ingestor} (h : StopInv s) (hdata : DataInv t)
    (hframe : ConsumerFrame s t) (hpc : t.consumer_.InRound)
    (hstopping : t.stopping = true → t.stop_requested = true) : StopInv t := by
  have hgoing : ¬ t.consumer_.Ending := hpc.not_ending
  exact
    { data := hdata
      started := fun _ hne => (hne ▸ hpc : ConsumerPc.notStarted.InRound)
      quiet := by rw [hframe.requested, hframe.submitting]; exact h.quiet
      halted := by rw [hframe.requested, hframe.running]; exact h.halted
      stopping := hstopping
      calling := fun hne => (hne ▸ hpc : ConsumerPc.popping.InRound).elim
      ending := fun hending => absurd hending hgoing
      loaded := fun head hhead => absurd (hhead ▸ trivial : t.consumer_.Ending) hgoing
      -- in a round the draining has not come to the end
      drained := fun _ hdrained => by
        unfold Drained at hdrained
        cases hc : t.consumer_ with
        | readFlag | drain | inSink now =>
            rw [hc] at hdrained
            exact hdrained.elim
        | notStarted | enter | popping | readClock | checkStop | loadHead | loadTail | inLastSink
        | finished =>
            rw [hc] at hpc
            exact hpc.elim
      unsent := fun hor => by
        rcases hor with hlast | hlast
        · exact absurd (hlast ▸ trivial : t.consumer_.Ending) hgoing
        · exact absurd (hlast ▸ trivial : t.consumer_.Ending) hgoing }

/-- A call of `submit` starts only before the stop. -/
theorem StopInv.startSubmit {s t : Ingestor} {sample : TelemetrySample} (h : StopInv s)
    (hstep : s.startSubmit sample = some t) : StopInv t := by
  have hdata := h.data.startSubmit hstep
  obtain ⟨-, hrun, queue, hqueue, rfl⟩ := startSubmit_eq_some hstep
  have heq := SpscRingBuffer.startPush_eq_some hqueue
  exact h.of_running hdata hrun rfl rfl rfl rfl (by rw [heq])

/-- A step of the producer is one before the stop. -/
theorem StopInv.producerStep {s t : Ingestor} (h : StopInv s) (hstep : s.producerStep = some t) :
    StopInv t := by
  have hdata := h.data.producerStep hstep
  obtain ⟨sample, hsubmit, hcases⟩ := producerStep_eq_some hstep
  have hrun : s.stop_requested = false := by
    by_contra hset
    rw [h.quiet (Bool.eq_true_of_not_eq_false hset)] at hsubmit
    cases hsubmit
  rcases hcases with ⟨-, rfl⟩ | ⟨-, rfl⟩ | ⟨queue, hqueue, rfl⟩
  · exact h.of_running hdata hrun rfl rfl rfl rfl rfl
  · exact h.of_running hdata hrun rfl rfl rfl rfl rfl
  · exact h.of_running hdata hrun rfl rfl rfl rfl (SpscRingBuffer.producerStep_frame hqueue).2.1

/-- A failing pop of a stopping round keeps the queue empty. -/
theorem StopInv.empty_of_popStep {s : Ingestor} {queue : SpscRingBuffer TelemetrySample}
    (h : StopInv s) (hpc : s.consumer_ = .popping) (hset : s.stopping = true)
    (hqueue : s.queue_.consumerStep = some queue)
    (hfails : queue.RefusesPop ∨ queue.consumer = .returned none) : queue.Empty := by
  obtain ⟨-, -, -, hpushed, -⟩ := SpscRingBuffer.consumerStep_frame hqueue
  obtain ⟨-, hresult⟩ := SpscRingBuffer.consumerStep_result hqueue
  -- from an empty queue the failing pop pops nothing
  have hkeep : s.queue_.RefusesPop → queue.Empty := by
    intro hrefuses
    have hempty : s.queue_.Empty := h.drained hset (by rw [Drained, hpc]; exact .inl hrefuses)
    have hpopped : queue.popped = s.queue_.popped := by
      rcases hresult with ⟨-, hpopped⟩ | ⟨x, hret, -⟩ | ⟨-, hpopped⟩
      · exact hpopped
      · rcases hfails with hrefuses' | hnone
        · have hcall := hrefuses'.inCall
          rw [hret] at hcall
          exact hcall.elim
        · rw [hret] at hnone
          cases hnone
      · exact hpopped
    show queue.pushed.length = queue.popped.length
    rw [hpushed, hpopped]
    exact hempty
  -- a pop about to fail reloaded the tail in this step or was about to fail before it
  rcases hfails with hrefuses | hnone
  · rcases SpscRingBuffer.empty_of_refusesPop (e := .consumer) h.data.ring hqueue hrefuses with
      hbefore | hempty
    · exact hkeep hbefore
    · exact hempty
  · exact hkeep (SpscRingBuffer.refusesPop_of_returned hqueue hnone)

/-- A step of the consumer to the clock or to the check of the flag: what is left to show is what
the round knows of the queue. -/
theorem StopInv.of_leaving {s t : Ingestor} (h : StopInv s) (hdata : DataInv t)
    (hframe : ConsumerFrame s t) (hpc : t.consumer_ = .readClock ∨ t.consumer_ = .checkStop)
    (hstopping : t.stopping = s.stopping)
    (hdrained : s.stopping = true → t.Drained → t.queue_.Empty) : StopInv t := by
  -- neither of the two places is behind the check of the flag
  have hgoing : ¬ t.consumer_.Ending := by
    rcases hpc with hpc | hpc
    · rw [hpc]
      exact id
    · rw [hpc]
      exact id
  exact
    { data := hdata
      started := fun _ => by rcases hpc with hpc | hpc <;> simp [hpc]
      quiet := by rw [hframe.requested, hframe.submitting]; exact h.quiet
      halted := by rw [hframe.requested, hframe.running]; exact h.halted
      stopping := by rw [hstopping, hframe.requested]; exact h.stopping
      calling := fun hne => by rcases hpc with hpc | hpc <;> simp [hpc] at hne
      ending := fun hending => absurd hending hgoing
      loaded := fun head hhead => absurd (hhead ▸ trivial : t.consumer_.Ending) hgoing
      drained := fun hset => hdrained (hstopping ▸ hset)
      unsent := fun hor => by
        rcases hor with hlast | hlast
        · exact absurd (hlast ▸ trivial : t.consumer_.Ending) hgoing
        · exact absurd (hlast ▸ trivial : t.consumer_.Ending) hgoing }

/-- A step of the consumer into a pop or inside one. -/
theorem StopInv.of_popping {s t : Ingestor} (h : StopInv s) (hdata : DataInv t)
    (hframe : ConsumerFrame s t) (hpc : t.consumer_ = .popping)
    (hstopping : t.stopping = s.stopping)
    (hcalling : t.queue_.consumer ≠ .idle)
    (hdrained : s.stopping = true → t.queue_.RefusesPop ∨ t.queue_.consumer = .returned none →
      t.queue_.Empty) : StopInv t where
  data := hdata
  started := fun _ => by simp [hpc]
  quiet := by rw [hframe.requested, hframe.submitting]; exact h.quiet
  halted := by rw [hframe.requested, hframe.running]; exact h.halted
  stopping := by rw [hstopping, hframe.requested]; exact h.stopping
  calling := fun _ => hcalling
  ending := fun hending => (hpc ▸ hending : ConsumerPc.popping.Ending).elim
  loaded := fun head hhead => by simp [hpc] at hhead
  drained := fun hset hnot => by
    rw [Drained, hpc] at hnot
    exact hdrained (hstopping ▸ hset) hnot
  unsent := fun hor => by rcases hor with hlast | hlast <;> simp [hpc] at hlast

/-- A step of the consumer behind the check of the flag, where the queue is empty for good. -/
theorem StopInv.of_ending {s t : Ingestor} (h : StopInv s) (hdata : DataInv t)
    (hframe : ConsumerFrame s t) (hpc : t.consumer_.Ending) (hstopping : t.stopping = s.stopping)
    (hset : s.stopping = true) (hempty : t.queue_.Empty)
    (hloaded : ∀ head, t.consumer_ = .loadTail head → head = t.queue_.head_)
    (hunsent : t.consumer_ = .inLastSink ∨ t.consumer_ = .finished → t.batch = []) : StopInv t where
  data := hdata
  started := fun _ hne => (hne ▸ hpc : ConsumerPc.notStarted.Ending)
  quiet := by rw [hframe.requested, hframe.submitting]; exact h.quiet
  halted := by rw [hframe.requested, hframe.running]; exact h.halted
  stopping := by rw [hstopping, hframe.requested]; exact h.stopping
  calling := fun hne => (hne ▸ hpc : ConsumerPc.popping.Ending).elim
  ending := fun _ => hstopping.trans hset
  loaded := hloaded
  drained := fun _ _ => hempty
  unsent := hunsent

/-- Behind the check of the flag the stop is known and the queue is empty. -/
theorem StopInv.empty_of_ending {s : Ingestor} (h : StopInv s) (hpc : s.consumer_.Ending) :
    s.stopping = true ∧ s.queue_.Empty := by
  refine ⟨h.ending hpc, h.drained (h.ending hpc) ?_⟩
  unfold Drained
  cases hc : s.consumer_ with
  | loadHead | loadTail head | inLastSink | finished => trivial
  | notStarted | enter | readFlag | drain | popping | readClock | inSink now | checkStop =>
      rw [hc] at hpc
      exact hpc.elim

/-- A full batch ends the draining early and is sent before the flag is looked at. -/
theorem StopInv.full {s : Ingestor} (h : StopInv s)
    (hdata : DataInv { s with consumer_ := .readClock }) (hfull : s.batchFull = true) :
    StopInv { s with consumer_ := .readClock } :=
  h.of_leaving hdata ⟨rfl, rfl, rfl, rfl, rfl, rfl⟩ (.inl rfl) rfl fun _ hnot =>
    absurd (hfull.symm.trans hnot) (by decide)

/-- A pop that has just started has seen nothing of the queue. -/
theorem StopInv.startPop {s : Ingestor} {queue : SpscRingBuffer TelemetrySample} (h : StopInv s)
    (hdata : DataInv { s with queue_ := queue, consumer_ := .popping })
    (hframe : ConsumerFrame s { s with queue_ := queue, consumer_ := .popping })
    (hqueue : s.queue_.startPop = some queue) :
    StopInv { s with queue_ := queue, consumer_ := .popping } := by
  have heq := SpscRingBuffer.startPop_eq_some hqueue
  subst heq
  refine h.of_popping hdata hframe rfl rfl (by simp) fun _ hfails => ?_
  rcases hfails with ⟨head, hne, -⟩ | hne
  · cases hne
  · cases hne

/-- When the pop has come back empty, the round knows of the queue what the pop saw. -/
theorem StopInv.popEmpty {s : Ingestor} (h : StopInv s)
    (hdata : DataInv { s with consumer_ := .readClock }) (hpc : s.consumer_ = .popping)
    (hret : s.queue_.consumer = .returned none) : StopInv { s with consumer_ := .readClock } := by
  refine h.of_leaving hdata ⟨rfl, rfl, rfl, rfl, rfl, rfl⟩ (.inl rfl) rfl fun hset _ =>
    h.drained hset ?_
  rw [Drained, hpc]
  exact .inr hret

/-- A step inside a pop keeps the pop going or ends it. -/
theorem StopInv.popStep {s : Ingestor} {queue : SpscRingBuffer TelemetrySample} (h : StopInv s)
    (hdata : DataInv { s with queue_ := queue })
    (hframe : ConsumerFrame s { s with queue_ := queue }) (hpc : s.consumer_ = .popping)
    (hqueue : s.queue_.consumerStep = some queue) :
    StopInv { s with queue_ := queue } := by
  obtain ⟨-, hresult⟩ := SpscRingBuffer.consumerStep_result hqueue
  refine h.of_popping hdata hframe hpc rfl (fun hidle => ?_) fun hset hfails =>
    h.empty_of_popStep hpc hset hqueue hfails
  change queue.consumer = .idle at hidle
  rw [hidle] at hresult
  rcases hresult with ⟨hcall, -⟩ | ⟨x, hne, -⟩ | ⟨hne, -⟩
  · exact hcall
  · cases hne
  · cases hne

/-- The check of the flag ends the loop only in a round that has come to the end of the queue. -/
theorem StopInv.stop {s : Ingestor} (h : StopInv s)
    (hdata : DataInv { s with consumer_ := .loadHead }) (hpc : s.consumer_ = .checkStop)
    (hset : s.stopping = true) :
    StopInv { s with consumer_ := .loadHead } := by
  have hempty : s.queue_.Empty := h.drained hset (by rw [Drained, hpc]; trivial)
  exact h.of_ending hdata ⟨rfl, rfl, rfl, rfl, rfl, rfl⟩ trivial rfl hset hempty
    (fun head hne => by cases hne) fun hor => by rcases hor with hne | hne <;> cases hne

/-- The head that the consumer loads is its own: nobody else moves it. -/
theorem StopInv.loadHead {s : Ingestor} (h : StopInv s)
    (hdata : DataInv { s with consumer_ := .loadTail s.queue_.head_ })
    (hpc : s.consumer_ = .loadHead) : StopInv { s with consumer_ := .loadTail s.queue_.head_ } := by
  obtain ⟨hset, hempty⟩ := h.empty_of_ending (hpc ▸ trivial)
  refine h.of_ending hdata ⟨rfl, rfl, rfl, rfl, rfl, rfl⟩ trivial rfl hset hempty
    (fun head hhead => ?_) fun hor => by rcases hor with hne | hne <;> cases hne
  cases hhead
  rfl

/-- Behind the loads the loop ends, with or without a last batch, and leaves nothing unsent. -/
theorem StopInv.atEnd {s t : Ingestor} {head : UInt64} (h : StopInv s) (hdata : DataInv t)
    (hframe : ConsumerFrame s t) (hpc : s.consumer_ = .loadTail head)
    (hnext : t.consumer_ = .inLastSink ∨ t.consumer_ = .finished)
    (hstopping : t.stopping = s.stopping) (hqueue : t.queue_ = s.queue_) (hnil : t.batch = []) :
    StopInv t := by
  obtain ⟨hset, hempty⟩ := h.empty_of_ending (hpc ▸ trivial)
  have hending : t.consumer_.Ending := by
    rcases hnext with hnext | hnext
    · rw [hnext]
      trivial
    · rw [hnext]
      trivial
  refine h.of_ending hdata hframe hending hstopping hset (hqueue ▸ hempty) (fun head hhead => ?_)
    fun _ => hnil
  rcases hnext with hnext | hnext <;> simp [hnext] at hhead

/-- **Every step of the consumer keeps what the stop flag means to it.** -/
theorem StopInv.consumerStep {s t : Ingestor} (h : StopInv s) (hstep : s.consumerStep = some t) :
    StopInv t := by
  have hdata := h.data.consumerStep hstep
  have hframe := consumerStep_frame hstep
  cases consumerMove_of_consumerStep hstep with
  | readFlag => exact h.of_inRound hdata hframe trivial id
  | full _ hfull => exact h.full hdata hfull
  | startPop queue _ _ hqueue => exact h.startPop hdata hframe hqueue
  | popEmpty hpc hret => exact h.popEmpty hdata hpc hret
  | popStep queue hpc hqueue => exact h.popStep hdata hframe hpc hqueue
  | stop hpc hset => exact h.stop hdata hpc hset
  | loadHead hpc => exact h.loadHead hdata hpc
  | finish head hpc _ hnil => exact h.atEnd hdata hframe hpc (.inr rfl) rfl rfl hnil
  | sendLast head hpc _ _ => exact h.atEnd hdata hframe hpc (.inl rfl) rfl rfl rfl
  -- back in a round
  | popped | goOn | again => exact h.of_inRound hdata hframe trivial h.stopping

/-- Reading the clock keeps what the round knows of the queue. -/
theorem StopInv.clockStep {s t : Ingestor} {now : Core.TimePoint} (h : StopInv s)
    (hstep : s.clockStep now = some t) : StopInv t := by
  have hdata := h.data.clockStep hstep
  have hframe := clockStep_frame hstep
  unfold Ingestor.clockStep at hstep
  have hdrained := h.drained
  unfold Drained at hdrained
  cases hpc : s.consumer_ with
  | enter =>
      simp only [hpc, Option.some.injEq] at hstep
      subst hstep
      exact h.of_inRound hdata hframe trivial h.stopping
  | readClock =>
      simp only [hpc] at hstep hdrained
      split at hstep
      · cases hstep
        exact h.of_inRound hdata hframe trivial h.stopping
      · -- nothing was due, so the draining ended at the end of the queue
        rename_i hsend
        rw [Bool.or_eq_true, not_or] at hsend
        cases hstep
        exact h.of_leaving hdata hframe (.inr rfl) rfl fun hset _ =>
          hdrained hset (Bool.eq_false_iff.mpr hsend.1)
  | notStarted | readFlag | drain | popping | inSink | checkStop | loadHead | loadTail | inLastSink
  | finished => simp only [hpc, reduceCtorEq] at hstep

/-- Coming back from the sink starts another round, or ends the loop. -/
theorem StopInv.sinkStep {s t : Ingestor} {outcome : SinkOutcome} (h : StopInv s)
    (hstep : s.sinkStep outcome = some t) : StopInv t := by
  have hdata := h.data.sinkStep hstep
  have hframe := sinkStep_frame hstep
  unfold Ingestor.sinkStep at hstep
  have hdrained := h.drained
  have hending := h.ending
  have hunsent := h.unsent
  unfold Drained at hdrained
  cases hpc : s.consumer_ with
  | inSink now =>
      simp only [hpc, Option.some.injEq] at hstep
      subst hstep
      exact h.of_inRound hdata hframe trivial h.stopping
  -- the last batch is sent: nothing is left
  | inLastSink =>
      simp only [hpc, Option.some.injEq] at hstep hdrained
      rw [hpc] at hending
      subst hstep
      exact { h with
        data := hdata
        started := fun _ => by simp
        calling := fun hne => by cases hne
        ending := fun _ => hending trivial
        loaded := fun head hne => by cases hne
        drained := hdrained
        unsent := fun _ => hunsent (.inl hpc) }
  | notStarted | enter | readFlag | drain | popping | readClock | checkStop | loadHead | loadTail
  | finished => simp only [hpc, reduceCtorEq] at hstep

/-- What `start()` does. -/
theorem startStep_eq_some {s t : Ingestor} (hstep : s.startStep = some t) :
    s.consumer_ = .notStarted ∧ t = { s with running_ := true, consumer_ := .enter } := by
  unfold startStep at hstep
  split at hstep
  · rename_i hpc
    exact ⟨hpc, (Option.some.inj hstep).symm⟩
  · cases hstep

/-- What `stop()` does first. -/
theorem stopStep_eq_some {s t : Ingestor} (hstep : s.stopStep = some t) :
    (s.running_ = true ∧ s.submitting = none) ∧
      t = { s with running_ := false, stop_requested := true } := by
  unfold stopStep at hstep
  split at hstep
  · rename_i hstop
    exact ⟨hstop, (Option.some.inj hstep).symm⟩
  · cases hstep

/-- The options never change. -/
theorem options_step {s t : Ingestor} {e : IngestEvent} (hstep : step s e = some t) :
    t.options_ = s.options_ := by
  -- the options are part of no action's effect
  cases e with
  | submit sample =>
      obtain ⟨-, -, queue, -, rfl⟩ := startSubmit_eq_some hstep
      rfl
  | producer =>
      obtain ⟨sample, -, ⟨-, rfl⟩ | ⟨-, rfl⟩ | ⟨queue, -, rfl⟩⟩ := producerStep_eq_some hstep
      · rfl
      · rfl
      · rfl
  | consumer => exact (consumerStep_frame hstep).options
  | clock now => exact (clockStep_frame hstep).options
  | sink outcome => exact (sinkStep_frame hstep).options
  | start =>
      obtain ⟨-, rfl⟩ := startStep_eq_some hstep
      rfl
  | stop =>
      obtain ⟨-, rfl⟩ := stopStep_eq_some hstep
      rfl

/-- **Every step of every thread keeps what the stop flag means.** -/
theorem stopInv_step {s t : Ingestor} {e : IngestEvent} (h : StopInv s)
    (hstep : step s e = some t) : StopInv t := by
  have hdata := dataInv_step h.data hstep
  cases e with
  | submit sample => exact h.startSubmit hstep
  | producer => exact h.producerStep hstep
  | consumer => exact h.consumerStep hstep
  | clock now => exact h.clockStep hstep
  | sink outcome => exact h.sinkStep hstep
  | start =>
      obtain ⟨hpc, rfl⟩ := startStep_eq_some hstep
      exact { h with
        data := hdata
        started := fun _ => by simp
        halted := fun hset => absurd hpc (h.started (.inr hset))
        calling := fun hne => by cases hne
        ending := False.elim
        loaded := fun head hne => by cases hne
        drained := fun _ => False.elim
        unsent := fun hor => by rcases hor with hne | hne <;> cases hne }
  | stop =>
      -- the caller's last `submit` has returned, so no sample is on its way in
      obtain ⟨⟨hrun, hidle⟩, rfl⟩ := stopStep_eq_some hstep
      exact { h with
        data := hdata
        started := fun _ => h.started (.inl hrun)
        quiet := fun _ => hidle
        halted := fun _ => rfl
        stopping := fun _ => rfl }

/-! ## (2) The loop terminates after `stop()` -/

/-- How far a pop is from its end. -/
def popRank : Pop TelemetrySample → Nat
  | .idle | .compare _ => 11
  | .reload _ => 10
  | .compareReloaded _ => 9
  | .moveOut _ => 8
  | .publish _ _ => 7
  | .returned _ => 6

/-- How far the consumer is from the end of the loop in a round that finds no sample. A round that
did not read the stop flag as set is followed by one that does. -/
def loopRank (stopping : Bool) (pop : Pop TelemetrySample) : ConsumerPc → Nat
  | .notStarted => 0
  | .enter => 40
  | .inSink _ => 15
  | .readFlag => 14
  | .drain => 12 + if stopping then 0 else 15
  | .popping => popRank pop + if stopping then 0 else 15
  | .readClock => 5 + if stopping then 0 else 15
  | .checkStop => 4 + if stopping then 0 else 15
  | .loadHead => 3
  | .loadTail _ => 2
  | .inLastSink => 1
  | .finished => 0

/-- What is still on the way to the sink: each sample is popped, put into the batch, sent with it. -/
def workLeft (s : Ingestor) : Nat :=
  3 * (s.queue_.pushed.length - s.queue_.popped.length) +
    2 * (inHand s.consumer_ s.queue_.consumer).length + if s.batch = [] then 0 else 1

/-- A bound on the steps that are left once the stop flag is set. -/
def remainingSteps (s : Ingestor) : Nat :=
  64 * s.workLeft + loopRank s.stopping s.queue_.consumer s.consumer_

/-- `stop()` has set the flag. -/
structure Stopped (s : Ingestor) : Prop where
  inv : StopInv s
  requested : s.stop_requested = true

/-- Each step of a pop brings it closer to its end. -/
theorem popRank_lt {q q' : SpscRingBuffer TelemetrySample} (hstep : q.consumerStep = some q') :
    popRank q'.consumer < popRank q.consumer := by
  unfold SpscRingBuffer.consumerStep at hstep
  cases hpc : q.consumer with
  | idle | returned _ => simp only [hpc, reduceCtorEq] at hstep
  -- each step of a pop goes on towards its end
  | compare head | compareReloaded head =>
      simp only [hpc] at hstep
      split at hstep
      · cases hstep
        simp [popRank]
      · cases hstep
        simp [popRank]
  | reload head | publish head out =>
      simp only [hpc, Option.some.injEq] at hstep
      subst hstep
      simp [popRank]
  | moveOut head =>
      simp only [hpc, Option.map_eq_some_iff] at hstep
      obtain ⟨out, -, rfl⟩ := hstep
      simp [popRank]

/-- A pop takes no more than eleven steps of rank. -/
theorem popRank_le (pop : Pop TelemetrySample) : popRank pop ≤ 11 := by
  cases pop <;> simp [popRank]

/-- A round takes no more than forty steps of rank. -/
theorem loopRank_le (stopping : Bool) (pop : Pop TelemetrySample) (pc : ConsumerPc) :
    loopRank stopping pop pc ≤ 40 := by
  have hpop := popRank_le pop
  cases pc <;> cases stopping <;> simp only [loopRank] <;> simp <;> omega

/-- A step that gets a sample further has its work to show for it. -/
theorem remainingSteps_lt_of_workLeft {s t : Ingestor} (h : t.workLeft < s.workLeft) :
    t.remainingSteps < s.remainingSteps := by
  have hle := loopRank_le t.stopping t.queue_.consumer t.consumer_
  unfold remainingSteps
  omega

/-- Any other step gets closer to the end of the loop. -/
theorem remainingSteps_lt_of_loopRank {s t : Ingestor} (h : t.workLeft = s.workLeft)
    (hrank : loopRank t.stopping t.queue_.consumer t.consumer_ <
      loopRank s.stopping s.queue_.consumer s.consumer_) :
    t.remainingSteps < s.remainingSteps := by
  unfold remainingSteps
  omega

/-- Sending a batch takes its share of the work away. -/
theorem workLeft_sendBatch {s : Ingestor} (hne : s.batch ≠ []) {next : ConsumerPc}
    (hnext : next ≠ .popping) : (s.sendBatch next).workLeft < s.workLeft := by
  have hleft : (s.sendBatch next).workLeft =
      3 * (s.queue_.pushed.length - s.queue_.popped.length) +
        2 * (inHand next s.queue_.consumer).length + 0 := rfl
  rw [hleft, inHand_of_ne_popping hnext, workLeft, if_neg hne, List.length_nil]
  omega

/-- A step inside a pop either brings the sample into the consumer's hand or only the pop further. -/
theorem Stopped.popStep_lt {s : Ingestor} {queue : SpscRingBuffer TelemetrySample} (h : Stopped s)
    (hpc : s.consumer_ = .popping) (hqueue : s.queue_.consumerStep = some queue) :
    { s with queue_ := queue }.remainingSteps < s.remainingSteps := by
  obtain ⟨-, -, -, hpushed, -⟩ := SpscRingBuffer.consumerStep_frame hqueue
  obtain ⟨hcall, hresult⟩ := SpscRingBuffer.consumerStep_result hqueue
  have hrank := popRank_lt hqueue
  have hbefore := inHand_of_inCall .popping hcall
  have hless : loopRank s.stopping queue.consumer .popping <
      loopRank s.stopping s.queue_.consumer s.consumer_ := by
    rw [hpc]
    exact Nat.add_lt_add_right hrank _
  rcases hresult with ⟨hcall', hpopped⟩ | ⟨x, hret, hpopped⟩ | ⟨hret, hpopped⟩
  · have hafter := inHand_of_inCall .popping hcall'
    refine remainingSteps_lt_of_loopRank ?_ (hpc ▸ hless)
    simp only [workLeft, hpc, hpushed, hpopped, hbefore, hafter]
  · -- the sample is in the consumer's hand now
    have hafter : inHand .popping queue.consumer = [x] := by rw [hret]; rfl
    have horder := (h.inv.data.ring.consumerStep hqueue).length_popped_le
    rw [hpushed, hpopped, List.length_append, List.length_singleton] at horder
    refine remainingSteps_lt_of_workLeft ?_
    simp only [workLeft, hpc, hpushed, hpopped, hbefore, hafter, List.length_append,
      List.length_singleton, List.length_nil]
    omega
  · have hafter : inHand .popping queue.consumer = [] := by rw [hret]; rfl
    refine remainingSteps_lt_of_loopRank ?_ (hpc ▸ hless)
    simp only [workLeft, hpc, hpushed, hpopped, hbefore, hafter]

/-- A step that only moves the consumer on lowers what is left by its rank. -/
theorem remainingSteps_lt_of_move {s t : Ingestor} (hqueue : t.queue_ = s.queue_)
    (hbatch : t.batch = s.batch) (hpc : s.consumer_ ≠ .popping) (hnext : t.consumer_ ≠ .popping)
    (hrank : loopRank t.stopping t.queue_.consumer t.consumer_ <
      loopRank s.stopping s.queue_.consumer s.consumer_) : t.remainingSteps < s.remainingSteps := by
  refine remainingSteps_lt_of_loopRank ?_ hrank
  rw [workLeft, workLeft, hqueue, hbatch, inHand_of_ne_popping hpc, inHand_of_ne_popping hnext]

/-- Starting a pop leaves the samples where they are. -/
theorem startPop_lt {s : Ingestor} {queue : SpscRingBuffer TelemetrySample}
    (hpc : s.consumer_ = .drain) (hqueue : s.queue_.startPop = some queue) :
    { s with queue_ := queue, consumer_ := .popping }.remainingSteps < s.remainingSteps := by
  have heq := SpscRingBuffer.startPop_eq_some hqueue
  subst heq
  refine remainingSteps_lt_of_loopRank ?_ ?_
  · simp only [workLeft, hpc, inHand]
  · simp [loopRank, hpc, popRank]

/-- In the batch a sample has less of its way before it than in the consumer's hand. -/
theorem pushBatch_lt {s : Ingestor} {sample : TelemetrySample} (hpc : s.consumer_ = .popping)
    (hret : s.queue_.consumer = .returned (some sample)) :
    { s with batch := s.batch ++ [sample], popped := s.popped + 1,
             consumer_ := .drain }.remainingSteps < s.remainingSteps := by
  refine remainingSteps_lt_of_workLeft ?_
  simp only [workLeft, hpc, hret, inHand, List.length_singleton, List.length_nil]
  split <;> split <;> omega

/-- A pop that came back empty had no sample in its hand. -/
theorem popEmpty_lt {s : Ingestor} (hpc : s.consumer_ = .popping)
    (hret : s.queue_.consumer = .returned none) :
    { s with consumer_ := .readClock }.remainingSteps < s.remainingSteps := by
  refine remainingSteps_lt_of_loopRank ?_ ?_
  · simp only [workLeft, hpc, hret, inHand]
  · simp [loopRank, hpc, popRank, hret]

/-- The queue that a stopping round drained stays empty, so the loop does not go on. -/
theorem StopInv.tail_sub_head {s : Ingestor} {head : UInt64} (h : StopInv s)
    (hpc : s.consumer_ = .loadTail head) : s.queue_.tail_ - head = 0 := by
  obtain ⟨-, hempty⟩ := h.empty_of_ending (hpc ▸ trivial)
  rw [h.loaded head hpc, h.data.ring.tail, h.data.ring.head, hempty, UInt64.sub_self]

/-- **Each step of the consumer after `stop()`** lowers what is left. -/
theorem Stopped.consumerStep_lt {s t : Ingestor} (h : Stopped s)
    (hstep : s.consumerStep = some t) : t.remainingSteps < s.remainingSteps := by
  cases consumerMove_of_consumerStep hstep with
  | readFlag hpc =>
      -- from here on the round knows of the stop, which is what the 15 of a round before it pays
      exact remainingSteps_lt_of_move rfl rfl (by simp [hpc]) (by simp)
        (by simp [loopRank, hpc, h.requested])
  | startPop queue hpc _ hqueue => exact startPop_lt hpc hqueue
  | popped sample hpc hret => exact pushBatch_lt hpc hret
  | popEmpty hpc hret => exact popEmpty_lt hpc hret
  | popStep queue hpc hqueue => exact h.popStep_lt hpc hqueue
  | goOn hpc hset =>
      exact remainingSteps_lt_of_move rfl rfl (by simp [hpc]) (by simp)
        (by simp [loopRank, hpc, hset])
  | sendLast head hpc _ hne =>
      exact remainingSteps_lt_of_workLeft (workLeft_sendBatch hne (by simp))
  | again head hpc hdiff => exact absurd (h.inv.tail_sub_head hpc) hdiff
  | full hpc | stop hpc | loadHead hpc | finish head hpc =>
      refine remainingSteps_lt_of_move rfl rfl (by simp [hpc]) (by simp) ?_
      simp only [loopRank, hpc]
      omega

/-- Reading the clock after `stop()` lowers what is left. -/
theorem Stopped.clockStep_lt {s t : Ingestor} {now : Core.TimePoint} (h : Stopped s)
    (hstep : s.clockStep now = some t) : t.remainingSteps < s.remainingSteps := by
  unfold Ingestor.clockStep at hstep
  cases hpc : s.consumer_ with
  | enter =>
      simp only [hpc, Option.some.injEq] at hstep
      subst hstep
      refine remainingSteps_lt_of_loopRank ?_ ?_
      · simp only [workLeft, hpc, inHand]
      · simp [loopRank, hpc]
  | readClock =>
      simp only [hpc] at hstep
      split at hstep
      · -- a batch that is sent is not empty, so there is less to do
        rename_i hsend
        cases hstep
        exact remainingSteps_lt_of_workLeft
          (workLeft_sendBatch (h.inv.data.batch_ne_nil_of_send hsend) (by simp))
      · cases hstep
        refine remainingSteps_lt_of_loopRank ?_ ?_
        · simp only [workLeft, hpc, inHand]
        · simp [loopRank, hpc]
  | notStarted | readFlag | drain | popping | inSink | checkStop | loadHead | loadTail | inLastSink
  | finished => simp only [hpc, reduceCtorEq] at hstep

/-- Coming back from the sink lowers what is left. -/
theorem sinkStep_lt {s t : Ingestor} {outcome : SinkOutcome} (hstep : s.sinkStep outcome = some t) :
    t.remainingSteps < s.remainingSteps := by
  unfold Ingestor.sinkStep at hstep
  cases hpc : s.consumer_ with
  | inSink now | inLastSink =>
      simp only [hpc, Option.some.injEq] at hstep
      subst hstep
      refine remainingSteps_lt_of_loopRank ?_ ?_
      · simp only [workLeft, hpc, inHand]
      · simp [loopRank, hpc]
  | notStarted | enter | readFlag | drain | popping | readClock | checkStop | loadHead | loadTail
  | finished => simp only [hpc, reduceCtorEq] at hstep

/-- **After `stop()` every step lowers what is left to do**, and nothing undoes the stop. -/
theorem stopped_step {s t : Ingestor} {e : IngestEvent} (h : Stopped s)
    (hstep : step s e = some t) : Stopped t ∧ t.remainingSteps < s.remainingSteps := by
  have hinv := stopInv_step h.inv hstep
  cases e with
  -- the owner and the producer are done: none of their actions can happen any more
  | start =>
      obtain ⟨hpc, -⟩ := startStep_eq_some hstep
      exact absurd hpc (h.inv.started (.inr h.requested))
  | stop =>
      obtain ⟨⟨hrun, -⟩, -⟩ := stopStep_eq_some hstep
      rw [h.inv.halted h.requested] at hrun
      cases hrun
  | submit sample =>
      obtain ⟨-, hrun, -⟩ := startSubmit_eq_some hstep
      rw [h.requested] at hrun
      cases hrun
  | producer =>
      obtain ⟨sample, hsubmit, -⟩ := producerStep_eq_some hstep
      rw [h.inv.quiet h.requested] at hsubmit
      cases hsubmit
  -- the consumer's own actions are the ones that lower the measure
  | consumer =>
      have hrequested := (consumerStep_frame hstep).requested
      exact ⟨⟨hinv, hrequested.trans h.requested⟩, h.consumerStep_lt hstep⟩
  | clock now =>
      have hrequested := (clockStep_frame hstep).requested
      exact ⟨⟨hinv, hrequested.trans h.requested⟩, h.clockStep_lt hstep⟩
  | sink outcome =>
      have hrequested := (sinkStep_frame hstep).requested
      exact ⟨⟨hinv, hrequested.trans h.requested⟩, sinkStep_lt hstep⟩

/-- After `stop()` the consumer can always go on, until it has finished. -/
theorem Stopped.exists_step {s : Ingestor} (h : Stopped s) (hpc : s.consumer_ ≠ .finished) :
    (∃ t, s.consumerStep = some t) ∨ (∀ now, ∃ t, s.clockStep now = some t) ∨
      ∀ outcome, ∃ t, s.sinkStep outcome = some t := by
  have hinv := h.inv
  cases hcase : s.consumer_ with
  | notStarted => exact absurd hcase (hinv.started (.inr h.requested))
  | finished => exact absurd hcase hpc
  | enter =>
      refine .inr (.inl fun now => ?_)
      rw [Ingestor.clockStep, hcase]
      exact ⟨_, rfl⟩
  | readClock =>
      refine .inr (.inl fun now => ?_)
      simp only [Ingestor.clockStep, hcase]
      split
      · exact ⟨_, rfl⟩
      · exact ⟨_, rfl⟩
  | inSink now | inLastSink =>
      refine .inr (.inr fun outcome => ?_)
      rw [Ingestor.sinkStep, hcase]
      exact ⟨_, rfl⟩
  | readFlag | loadHead =>
      refine .inl ?_
      rw [Ingestor.consumerStep, hcase]
      exact ⟨_, rfl⟩
  | checkStop | loadTail head =>
      refine .inl ?_
      simp only [Ingestor.consumerStep, hcase]
      repeat' split
      all_goals exact ⟨_, rfl⟩
  | drain =>
      -- no pop is on its way, so one can be called
      obtain ⟨queue, hqueue⟩ := SpscRingBuffer.exists_startPop (hinv.data.waiting (by simp [hcase]))
      refine .inl ?_
      simp only [Ingestor.consumerStep, hcase, hqueue]
      split
      · exact ⟨_, rfl⟩
      · exact ⟨_, rfl⟩
  | popping =>
      refine .inl ?_
      simp only [Ingestor.consumerStep, hcase]
      -- a pop that was called ends by itself, whatever the producer does
      cases hpop : s.queue_.consumer with
      | idle => exact absurd hpop (hinv.calling hcase)
      | returned out => cases out <;> exact ⟨_, rfl⟩
      | compare | reload | compareReloaded | moveOut | publish =>
          obtain ⟨queue, hqueue⟩ := hinv.data.ring.exists_consumerStep (hpop ▸ trivial)
          rw [hqueue]
          exact ⟨_, rfl⟩

/-- So some step can happen. -/
theorem Stopped.progress {s : Ingestor} (h : Stopped s) (hpc : s.consumer_ ≠ .finished) :
    ∃ e t, step s e = some t := by
  rcases h.exists_step hpc with ⟨t, hstep⟩ | hstep | hstep
  · exact ⟨.consumer, t, hstep⟩
  · exact ⟨.clock 0, hstep 0⟩
  · exact ⟨.sink .returns, hstep .returns⟩

/-! ## (3) Conservation -/

/-- What is promised of a state: the sink gets good batches, after `stop()` the loop terminates, and
then everything that was accepted has been handed to the sink, in order, and is counted. -/
structure Conserved (options : IngestorOptions) (s : Ingestor) : Prop where
  batches_ok : ∀ bytes ∈ s.sink_calls, GoodBatch options bytes
  bounded : s.stop_requested = true → ∃ n, ∀ es t, run step s es = some t → es.length ≤ n
  progress : s.stop_requested = true → s.consumer_ ≠ .finished → ∃ e t, step s e = some t
  complete : s.consumer_ = .finished → sentSamples s.sink_calls = s.accepted
  ingested : s.consumer_ = .finished →
    s.counters_.ingested = UInt64.ofNat (sentSamples s.sink_calls).length
  batches : s.consumer_ = .finished →
    s.counters_.batches_sent + s.counters_.batches_failed = UInt64.ofNat s.sink_calls.length

/-- The ingestor conserves its samples: in every state of every run. -/
def Conserves (options : IngestorOptions) : Prop :=
  ∀ s₀ es s, make options = .ok s₀ → run step s₀ es = some s → Conserved options s

/-- When the consumer has finished, nothing is on the way any more. -/
theorem StopInv.sent_eq_accepted {s : Ingestor} (h : StopInv s) (hpc : s.consumer_ = .finished) :
    sentSamples s.sink_calls = s.accepted := by
  have hset : s.stopping = true := h.ending (hpc ▸ trivial)
  have hempty : s.queue_.Empty := h.drained hset (by rw [Drained, hpc]; trivial)
  have hpopped : s.queue_.popped = s.queue_.pushed :=
    h.data.ring.order.eq_of_length hempty.symm
  have hconserved := h.data.conserved
  have harrived := h.data.arrived
  rw [h.quiet (h.stopping hset), arriving_none, List.append_nil] at harrived
  rw [h.unsent (.inr hpc), hpc, hpopped, ← harrived, List.append_nil] at hconserved
  exact (List.append_nil _).symm.trans hconserved

/-- **What is promised of every state** follows from the invariant. -/
theorem conserved_of_stopInv {s : Ingestor} (h : StopInv s) : Conserved s.options_ s := by
  have hsent := h.sent_eq_accepted
  exact
    { batches_ok := fun bytes hbytes =>
        goodBatch_of_encodedOk h.data.batch_size_lt (h.data.calls_ok bytes hbytes)
      -- what remains to do falls with every step, so the run ends
      bounded := fun hset => ⟨s.remainingSteps, fun es t hrun => by
        have hbound := length_add_measure_le_of_run stopped_step (⟨h, hset⟩ : Stopped s) hrun
        omega⟩
      progress := fun hset => Stopped.progress ⟨h, hset⟩
      complete := hsent
      ingested := fun hpc => by rw [hsent hpc, h.data.ingested]
      batches := fun hpc => by
        have hbatches := h.data.batches
        rw [hpc] at hbatches
        exact (UInt64.add_zero _).symm.trans hbatches }

/-- The options are those of the start, in every state. -/
theorem options_run {s t : Ingestor} {es : List IngestEvent} (hrun : run step s es = some t) :
    t.options_ = s.options_ := by
  have hkeep : ∀ {u : Ingestor} {e v}, u.options_ = s.options_ → step u e = some v →
      v.options_ = s.options_ := fun hu hstep => (options_step hstep).trans hu
  exact run_invariant hkeep rfl hrun

end Ingestor

end Ironpulse.Ingest
