import Ironpulse.Api.WsConnection
import Ironpulse.Lib.StepMachine

/-! # The outbox of a `WsConnection`

`write_next`'s completion handler calls `outbox_.pop_front()` without looking at the deque. This file
settles when that is defined, in every order of the strand's handlers.

* **`step_cases`**: what one event can do to the outbox and the write in flight.
* **`PopFrontDefined`**: a successful write completion that waits finds its own frame in front.
* **`popFrontDefined_iff_sparesQueuedWrite`**: this holds all along a run exactly when `close()`
  never takes effect while a successful write completion is queued. -/

namespace Ironpulse.Api

open StepMachine

namespace WsConnection

/-! ## (1) What a handler does to the outgoing side -/

/-- The fields that the write of `write_next` and its handler read and change. -/
def outgoing (s : WsConnection) : List Frame × Bool × Bool × Option (Frame × AsyncOp Unit) × Bool :=
  (s.outbox_, s.writing_, s.closed_, s.write, s.popped_empty)

/-- Equal outgoing sides are equal field by field. -/
theorem outgoing_eq {s t : WsConnection} :
    t.outgoing = s.outgoing ↔ t.outbox_ = s.outbox_ ∧ t.writing_ = s.writing_ ∧
      t.closed_ = s.closed_ ∧ t.write = s.write ∧ t.popped_empty = s.popped_empty := by
  simp only [outgoing, Prod.mk.injEq]

/-- What running a handler other than the write's can do to the outgoing side. -/
inductive Effect (s t : WsConnection) : Prop where
  /-- Nothing. -/
  | same (h : t.outgoing = s.outgoing)
  /-- A frame is queued; with no write in flight the write of the front frame starts. -/
  | pushed (frame : Frame) (hopen : s.closed_ = false)
      (h : t.outgoing = (s.outbox_ ++ [frame], true, false,
        if s.writing_ then s.write else some (s.outbox_.headD frame, .pending), s.popped_empty))
  /-- The connection is closed; a pending write is aborted. -/
  | closed (hopen : s.closed_ = false)
      (h : t.outgoing = ([], s.writing_, true,
        s.write.map fun (frame, op) => (frame, op.abort), s.popped_empty))

/-- A handler may do nothing. -/
theorem effect_refl (s : WsConnection) : Effect s s := .same rfl

/-- `close()` clears the outbox, once. -/
theorem effect_close (s : WsConnection) : Effect s s.close := by
  unfold close
  cases hclosed : s.closed_ with
  | true => exact .same rfl
  | false => exact .closed hclosed rfl

/-- The end of `enqueue`. -/
theorem effect_push_back (s : WsConnection) (bytes : List UInt8) (hopen : s.closed_ = false) :
    Effect s (s.push_back bytes) := by
  refine .pushed ⟨s.allocated, bytes⟩ hopen ?_
  unfold push_back
  cases hwriting : s.writing_ with
  | true => simp [outgoing, hopen]
  | false => cases hout : s.outbox_ <;> simp [outgoing, write_next, hopen]

/-- `enqueue` queues its frame or closes. -/
theorem effect_enqueue (s : WsConnection) (bytes : List UInt8) : Effect s (s.enqueue bytes) := by
  unfold enqueue
  cases hclosed : s.closed_ with
  | true => exact .same rfl
  | false =>
      rw [if_neg Bool.false_ne_true]
      split
      · exact effect_close s
      · exact effect_push_back s bytes hclosed

/-- Starting a read leaves the outgoing side alone. -/
theorem Effect.start_read {s t : WsConnection} (h : Effect s t) (stage : ReadStage) :
    Effect s (t.start_read stage) := by
  cases h with
  | same h => exact .same h
  | pushed frame hopen h => exact .pushed frame hopen h
  | closed hopen h => exact .closed hopen h

/-- An effect depends on the outgoing side alone. -/
theorem Effect.congr {s s' t : WsConnection} (h : Effect s' t) (hs : s'.outgoing = s.outgoing) :
    Effect s t := by
  obtain ⟨hout, hwriting, hclosed, hwrite, hpopped⟩ := outgoing_eq.mp hs
  cases h with
  | same h => exact .same (h.trans hs)
  | pushed frame hopen h =>
      refine .pushed frame (hclosed.symm.trans hopen) ?_
      rw [h, hout, hwriting, hwrite, hpopped]
  | closed hopen h =>
      refine .closed (hclosed.symm.trans hopen) ?_
      rw [h, hwriting, hwrite, hpopped]

/-- A frame closes, queues a pong or does nothing. -/
theorem effect_handle_frame (s : WsConnection) (payload : List UInt8) (opcode : UInt8) :
    Effect s (s.handle_frame payload opcode) := by
  unfold handle_frame
  dsimp only
  split
  · exact (effect_close _).congr rfl
  · split
    · exact (effect_enqueue _ _).congr rfl
    · exact .same rfl

/-- A refused length closes. -/
theorem effect_finish_with_length (s : WsConnection) (opcode : UInt8) (masked : Bool)
    (len : UInt64) : Effect s (s.finish_with_length opcode masked len) := by
  unfold finish_with_length
  split
  · exact effect_close s
  · exact (effect_refl s).start_read _

/-- The handler of a read that succeeded. -/
theorem effect_read_done (s : WsConnection) (stage : ReadStage) (bytes : List UInt8) :
    Effect s (s.read_done stage bytes) := by
  -- only a payload or an empty one is handed to `handle_frame`; the other stages read on
  cases stage with
  | header =>
      unfold read_done
      dsimp only
      split
      · exact (effect_refl s).start_read _
      · split
        · exact (effect_refl s).start_read _
        · exact effect_finish_with_length s _ _ _
  | length opcode masked size => exact effect_finish_with_length s _ _ _
  | mask opcode len =>
      unfold read_done
      dsimp only
      split
      · have hframe := effect_handle_frame { s with buffers := s.buffers ++ [len.toNat] } [] opcode
        exact (hframe.congr (s := s) rfl).start_read .header
      · exact .same rfl
  | payload opcode len mask_key => exact (effect_handle_frame s _ _).start_read _

/-- **What one event can do to the outgoing side.** -/
theorem step_cases {s t : WsConnection} {e : Event} (h : s.step e = some t) :
    Effect s t ∨
    (∃ frame result, s.write = some (frame, .pending) ∧
      t = { s with write := some (frame, .completed result) }) ∨
    (∃ frame ec, s.write = some (frame, .completed (.error ec)) ∧
      t = { s with write := none }.close) ∨
    (∃ frame, s.write = some (frame, .completed (.ok ())) ∧
      t = { s with write := none }.pop_front.write_next) := by
  -- the handlers of a read append frames; only a write's handler takes one off
  cases e with
  | arrive bytes =>
      obtain rfl := Option.some.inj h
      exact .inl (.same rfl)
  | writeCompletes result =>
      simp only [step] at h
      split at h
      · rename_i frame hwrite
        exact .inr (.inl ⟨frame, result, hwrite, (Option.some.inj h).symm⟩)
      · cases h
  | readCompletes result =>
      refine .inl (.same ?_)
      simp only [step, read_completes] at h
      split at h
      · rw [← Option.some.inj h]; rfl
      · split at h
        · rw [← Option.some.inj h]; rfl
        · cases h
      · cases h
  | runText payload =>
      obtain rfl := Option.some.inj h
      exact .inl (effect_enqueue s _)
  | runWrite =>
      simp only [step, run_write] at h
      split at h
      · rename_i frame ec hwrite
        exact .inr (.inr (.inl ⟨frame, ec, hwrite, (Option.some.inj h).symm⟩))
      · rename_i frame hwrite
        exact .inr (.inr (.inr ⟨frame, hwrite, (Option.some.inj h).symm⟩))
      · cases h
  | runRead =>
      simp only [step, run_read] at h
      split at h
      · rw [← Option.some.inj h]
        exact .inl ((effect_close _).congr rfl)
      · rw [← Option.some.inj h]
        exact .inl ((effect_read_done _ _ _).congr rfl)
      · cases h

/-! ## (2) When `pop_front` is defined -/

/-- No `pop_front` was executed on an empty deque so far, and a successful write completion that is
queued finds the frame it wrote in front of the outbox. -/
def PopFrontDefined (s : WsConnection) : Prop :=
  s.popped_empty = false ∧
    ∀ frame, s.write = some (frame, .completed (.ok ())) → s.outbox_.head? = some frame

/-- The event makes `close()` take effect. -/
def Closes (s : WsConnection) (e : Event) : Prop :=
  s.closed_ = false ∧ ∃ t ∈ s.step e, t.closed_ = true

/-- The event does not make `close()` take effect while a successful write completion is queued. -/
def SparesQueuedWrite (s : WsConnection) (e : Event) : Prop :=
  Closes s e → ∀ frame, s.write ≠ some (frame, .completed (.ok ()))

/-- The outgoing side of a connection on which `close()` spared every queued write. -/
structure OutboxInv (s : WsConnection) : Prop where
  not_popped : s.popped_empty = false
  /-- While the connection is open, `writing_` says whether a write is in flight. -/
  writing_iff : s.closed_ = false → (s.writing_ = true ↔ s.write.isSome)
  /-- While the connection is open, the frame being written is the front one. -/
  front : s.closed_ = false → ∀ frame op, s.write = some (frame, op) → s.outbox_.head? = some frame
  /-- While the connection is open and nothing is written, nothing waits. -/
  idle : s.closed_ = false → s.writing_ = false → s.outbox_ = []
  /-- Once the connection is closed, the write in flight has failed. -/
  failed : s.closed_ = true → ∀ frame op, s.write = some (frame, op) →
    ∃ ec, op = .completed (.error ec)

/-- A connection that was just opened writes nothing. -/
theorem outboxInv_opened : OutboxInv opened where
  not_popped := rfl
  writing_iff _ := by simp [opened]
  front _ frame op h := by simp [opened] at h
  idle _ _ := rfl
  failed h := by simp [opened] at h

/-- The invariant is enough for `pop_front`. -/
theorem OutboxInv.popFrontDefined {s : WsConnection} (hs : OutboxInv s) : PopFrontDefined s := by
  refine ⟨hs.not_popped, fun frame hwrite => ?_⟩
  cases hclosed : s.closed_ with
  | true =>
      obtain ⟨ec, hec⟩ := hs.failed hclosed frame _ hwrite
      cases hec
  | false => exact hs.front hclosed frame _ hwrite

/-- **A handler keeps the outbox invariant**, unless it closes over a queued successful write. -/
theorem OutboxInv.effect {s t : WsConnection} (hs : OutboxInv s) (h : Effect s t)
    (hspare : s.closed_ = false → t.closed_ = true →
      ∀ frame, s.write ≠ some (frame, .completed (.ok ()))) : OutboxInv t := by
  cases h with
  | same h =>
      obtain ⟨hout, hwriting, hclosed, hwrite, hpopped⟩ := outgoing_eq.mp h
      exact
        { not_popped := hpopped ▸ hs.not_popped
          writing_iff := by rw [hclosed, hwriting, hwrite]; exact hs.writing_iff
          front := by rw [hclosed, hwrite, hout]; exact hs.front
          idle := by rw [hclosed, hwriting, hout]; exact hs.idle
          failed := by rw [hclosed, hwrite]; exact hs.failed }
  | pushed frame hopen h =>
      simp only [outgoing, Prod.mk.injEq] at h
      obtain ⟨hout, hwriting, hclosed, hwrite, hpopped⟩ := h
      refine
        { not_popped := hpopped ▸ hs.not_popped
          writing_iff := fun _ => ?_
          front := fun _ front op hop => ?_
          idle := fun _ hidle => absurd (hidle.symm.trans hwriting) Bool.false_ne_true
          failed := fun hfailed => absurd (hclosed.symm.trans hfailed) Bool.false_ne_true }
      · rw [hwriting, hwrite]
        cases hw : s.writing_ with
        | true => simpa [hw] using hs.writing_iff hopen
        | false => simp
      · rw [hwrite] at hop
        rw [hout]
        -- a frame is pushed behind the one that is being written, or it is written at once
        cases hw : s.writing_ with
        | true =>
            rw [hw, if_pos rfl] at hop
            rw [List.head?_append, hs.front hopen front op hop, Option.some_or]
        | false =>
            rw [hw, if_neg Bool.false_ne_true, hs.idle hopen hw] at hop
            rw [hs.idle hopen hw]
            simp_all
  | closed hopen h =>
      simp only [outgoing, Prod.mk.injEq] at h
      obtain ⟨-, -, hclosed, hwrite, hpopped⟩ := h
      refine
        { not_popped := hpopped ▸ hs.not_popped
          writing_iff := fun hfalse => absurd (hfalse.symm.trans hclosed) Bool.false_ne_true
          front := fun hfalse => absurd (hfalse.symm.trans hclosed) Bool.false_ne_true
          idle := fun hfalse => absurd (hfalse.symm.trans hclosed) Bool.false_ne_true
          failed := fun _ frame op hop => ?_ }
      rw [hwrite, Option.map_eq_some_iff] at hop
      obtain ⟨⟨frame', op'⟩, hop', heq⟩ := hop
      obtain ⟨rfl, rfl⟩ := Prod.mk.inj heq
      -- the socket is closed: a write that was pending is aborted
      match op', hop' with
      | .pending, _ => exact ⟨operation_aborted, rfl⟩
      | .completed (.error ec), _ => exact ⟨ec, rfl⟩
      | .completed (.ok ()), hop' => exact absurd hop' (hspare hopen hclosed frame')

/-- A write that has not failed belongs to an open connection. -/
theorem OutboxInv.open_of_write {s : WsConnection} (hs : OutboxInv s) {frame : Frame}
    {op : AsyncOp Unit} (hwrite : s.write = some (frame, op)) (hop : ∀ ec, op ≠ .completed (.error ec)) :
    s.closed_ = false := by
  cases hclosed : s.closed_ with
  | false => rfl
  | true =>
      obtain ⟨ec, hec⟩ := hs.failed hclosed frame op hwrite
      exact absurd hec (hop ec)

/-- With the write out of flight and its frame popped, `write_next` re-establishes the invariant. -/
theorem OutboxInv.write_next {s : WsConnection} (hpopped : s.popped_empty = false)
    (hopen : s.closed_ = false) (hwrite : s.write = none) : OutboxInv s.write_next := by
  unfold WsConnection.write_next
  rw [if_neg (by rw [hopen]; exact Bool.false_ne_true)]
  split
  · constructor <;> simp_all
  · constructor <;> simp_all

/-- The handler of a failed write closes the connection, whatever the outbox holds. -/
theorem OutboxInv.close_without_write {s : WsConnection} (hs : OutboxInv s) :
    OutboxInv { s with write := none }.close := by
  have hpopped := hs.not_popped
  unfold WsConnection.close
  split
  · constructor <;> simp_all
  · constructor <;> simp_all

/-- **A guarded step keeps the outbox invariant.** -/
theorem outboxInv_step {s t : WsConnection} {e : Event} (hs : OutboxInv s)
    (hG : SparesQueuedWrite s e) (h : s.step e = some t) : OutboxInv t := by
  rcases step_cases h with heffect | ⟨frame, result, hwrite, rfl⟩ | ⟨frame, ec, hwrite, rfl⟩ |
    ⟨frame, hwrite, rfl⟩
  · exact hs.effect heffect fun hopen hclosed => hG ⟨hopen, t, h, hclosed⟩
  · -- the pending write completes; only its result is new
    have hopen := hs.open_of_write hwrite (by simp)
    have hwriting := hs.writing_iff hopen
    have hfront := hs.front hopen frame _ hwrite
    have hidle := hs.idle hopen
    constructor <;> simp_all [hs.not_popped]
  · exact hs.close_without_write
  · -- the front frame is written, so the deque that `pop_front` finds is not empty
    have hopen := hs.open_of_write hwrite (by simp)
    have hfront := hs.front hopen frame _ hwrite
    refine OutboxInv.write_next ?_ hopen rfl
    simp only [pop_front, hs.not_popped, Bool.false_or, List.isEmpty_eq_false_iff]
    rintro hnil
    simp [hnil] at hfront

/-- **Closing over a queued successful write breaks the property**: the outbox is cleared, but the
completion keeps its result. -/
theorem not_popFrontDefined_of_closes {s t : WsConnection} {e : Event}
    (hG : ¬ SparesQueuedWrite s e) (h : s.step e = some t) : ¬ PopFrontDefined t := by
  unfold SparesQueuedWrite Closes at hG
  push Not at hG
  obtain ⟨⟨hopen, t', ht', hclosed⟩, frame, hwrite⟩ := hG
  obtain rfl : t = t' := Option.some.inj (h.symm.trans ht')
  rintro ⟨-, hfront⟩
  rcases step_cases h with heffect | ⟨frame', result, hpending, rfl⟩ | ⟨frame', ec, hfailed, rfl⟩ |
    ⟨frame', hok, rfl⟩
  · cases heffect with
    | same h' => simp_all [outgoing]
    | pushed pushed hopen' h' => simp_all [outgoing]
    | closed hopen' h' =>
        simp only [outgoing, Prod.mk.injEq] at h'
        obtain ⟨hout, -, -, hwrite', -⟩ := h'
        have hnone := hfront frame (by rw [hwrite', hwrite]; rfl)
        rw [hout] at hnone
        cases hnone
  · cases hpending.symm.trans hwrite
  · cases hfailed.symm.trans hwrite
  · -- `pop_front` and `write_next` leave `closed_` alone
    have hsame : ({ s with write := none }.pop_front.write_next).closed_ = s.closed_ := by
      unfold WsConnection.write_next
      split
      · rfl
      · split <;> rfl
    rw [hsame, hopen] at hclosed
    cases hclosed

/-- **`pop_front` is defined along a run exactly when `close()` spares every queued write.** In every
order of events after the handshake, every state has the frame of a successfully completed write in
front of the outbox, and no `pop_front` ran on an empty deque, if and only if no step of the run
makes `close()` take effect while a successful write completion is queued. -/
theorem popFrontDefined_iff_sparesQueuedWrite (es : List Event) :
    AlongRun step PopFrontDefined opened es ↔ RunMeets step SparesQueuedWrite opened es :=
  alongRun_iff_runMeets OutboxInv.popFrontDefined outboxInv_step
    (fun _ hG h => not_popFrontDefined_of_closes hG h) es outboxInv_opened

/-- A text frame is written; before the write's handler runs, the read of the next header fails and
its handler closes the connection. -/
def closeOverQueuedWrite : List Event :=
  [.runText [0x68, 0x69], .writeCompletes (.ok ()), .readCompletes (.error "End of file"), .runRead,
    .runWrite]

/-- **`pop_front` on an empty deque.** The run `closeOverQueuedWrite` executes it. -/
theorem popped_empty_of_closeOverQueuedWrite :
    ¬ (∀ es, AlongRun step PopFrontDefined opened es) ∧
      (run step opened closeOverQueuedWrite).map (·.popped_empty) = some true := by
  have hrun : (run step opened closeOverQueuedWrite).map (·.popped_empty) = some true := by decide
  refine ⟨fun hall => ?_, hrun⟩
  obtain ⟨t, ht, hpopped⟩ := Option.map_eq_some_iff.mp hrun
  have hdefined := hall closeOverQueuedWrite closeOverQueuedWrite t List.prefix_rfl ht
  exact absurd (hdefined.1.symm.trans hpopped) Bool.false_ne_true

end WsConnection

end Ironpulse.Api
