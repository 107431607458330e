import Ironpulse.Api.WsFrames

/-! # What a `WsConnection` hands to its socket

`WsConnection` keeps one write in flight by its design. Here nothing of that is built in: the
connection is put together with the threads that call `send_text`, the queue of its strand and a
socket that works on any number of writes at once, each of them piece by piece.

* **`WsConnection.Outcome`**: which frames a handler queues and which it hands to `async_write`.
* **`Traffic`**, **`Traffic.step`**: the connection, the threads and the socket; the machine whose
  runs are the interleavings.
* **`Phase`**: idle, writing or closed, with `phase_step`.
* **`Queued`**: what was queued against what the handlers were to queue, with `queued_step`.
* **`alongRun_framesInOrder`**: the frames go out whole and in the order in which they were
  queued. -/

namespace Ironpulse.Api

open StepMachine

/-! ## (1) The calls of the handlers -/

namespace WsConnection

/-- What a handler other than the write's does to the outbox, and which calls it makes. -/
inductive Outcome (s t : WsConnection) : Prop where
  /-- Nothing. -/
  | same (outbox : t.outbox_ = s.outbox_) (writing : t.writing_ = s.writing_)
      (closed : t.closed_ = s.closed_) (calls : t.calls = s.calls)
  /-- A frame is queued behind fewer than `kMaxQueuedFrames`; with nothing in flight the front frame
  is handed over. -/
  | pushed (frame : Frame) (hopen : s.closed_ = false) (room : s.outbox_.length < kMaxQueuedFrames)
      (outbox : t.outbox_ = s.outbox_ ++ [frame]) (writing : t.writing_ = true)
      (closed : t.closed_ = false)
      (calls : t.calls = s.calls ++ .push_back frame ::
        if s.writing_ then [] else [.async_write (s.outbox_.headD frame)])
  /-- The connection is closed. -/
  | closed (hopen : s.closed_ = false) (outbox : t.outbox_ = []) (closed : t.closed_ = true)
      (calls : t.calls = s.calls)

variable {s t : WsConnection}

/-- A handler may do nothing. -/
theorem outcome_refl (s : WsConnection) : Outcome s s := .same rfl rfl rfl rfl

/-- `close()` clears the outbox, once. -/
theorem outcome_close (s : WsConnection) : Outcome s s.close := by
  unfold close
  by_cases hclosed : s.closed_ = true
  · rw [if_pos hclosed]
    exact outcome_refl s
  · rw [if_neg hclosed]
    exact .closed (Bool.eq_false_iff.mpr hclosed) rfl rfl rfl

/-- The end of `enqueue`: the outbox is not empty then, so its front frame can be handed over. -/
theorem outcome_push_back (s : WsConnection) (bytes : List UInt8) (hopen : s.closed_ = false)
    (hroom : s.outbox_.length < kMaxQueuedFrames) : Outcome s (s.push_back bytes) := by
  refine .pushed ⟨s.allocated, bytes⟩ hopen hroom ?_ ?_ ?_ ?_
  all_goals
    unfold push_back write_next
    by_cases hwriting : s.writing_ <;> cases s.outbox_ <;> simp [hwriting, hopen]

/-- `enqueue` queues its frame or closes. -/
theorem outcome_enqueue (s : WsConnection) (bytes : List UInt8) :
    Outcome s (s.enqueue bytes) := by
  unfold enqueue
  by_cases hclosed : s.closed_ = true
  · rw [if_pos hclosed]
    exact outcome_refl s
  · rw [if_neg hclosed]
    by_cases hfull : s.outbox_.length ≥ kMaxQueuedFrames
    · rw [if_pos hfull]
      exact outcome_close s
    · rw [if_neg hfull]
      exact outcome_push_back s bytes (Bool.eq_false_iff.mpr hclosed) (Nat.not_le.mp hfull)

/-- The fields that an outcome speaks of. -/
def sending (s : WsConnection) : List Frame × Bool × Bool × List Call :=
  (s.outbox_, s.writing_, s.closed_, s.calls)

/-- An outcome depends on these fields alone. -/
theorem Outcome.congr {s' t' : WsConnection} (h : Outcome s t) (hs : s'.sending = s.sending)
    (ht : t'.sending = t.sending) : Outcome s' t' := by
  simp only [sending, Prod.mk.injEq] at hs ht
  obtain ⟨hs₁, hs₂, hs₃, hs₄⟩ := hs
  obtain ⟨ht₁, ht₂, ht₃, ht₄⟩ := ht
  -- the four fields of the sending side are all that the cases speak of
  cases h with
  | same h₁ h₂ h₃ h₄ =>
      exact .same (by rw [ht₁, hs₁, h₁]) (by rw [ht₂, hs₂, h₂]) (by rw [ht₃, hs₃, h₃])
        (by rw [ht₄, hs₄, h₄])
  | pushed frame hopen hroom h₁ h₂ h₃ h₄ =>
      exact .pushed frame (by rw [hs₃, hopen]) (by rw [hs₁]; exact hroom) (by rw [ht₁, hs₁, h₁])
        (by rw [ht₂, h₂]) (by rw [ht₃, h₃]) (by rw [ht₄, hs₁, hs₂, hs₄, h₄])
  | closed hopen h₁ h₂ h₃ =>
      exact .closed (by rw [hs₃, hopen]) (by rw [ht₁, h₁]) (by rw [ht₃, h₂])
        (by rw [ht₄, hs₄, h₃])

/-- On a connection that stays open the calls queue what is added to the outbox. -/
theorem Outcome.queued (h : Outcome s t) (hopen : t.closed_ = false) :
    (t.calls.drop s.calls.length).filterMap Call.queued = t.outbox_.drop s.outbox_.length := by
  cases h with
  | same houtbox _ _ hcalls =>
      rw [houtbox, hcalls, List.drop_length, List.drop_length]
      rfl
  | pushed frame _ _ houtbox _ _ hcalls =>
      rw [houtbox, hcalls, List.drop_left, List.drop_left]
      split <;> rfl
  | closed _ _ hclosed _ => exact absurd (hclosed.symm.trans hopen) (by decide)

/-- A frame closes, queues a pong or does nothing. -/
theorem outcome_handle_frame (s : WsConnection) (payload : List UInt8) (opcode : UInt8) :
    Outcome s (s.handle_frame payload opcode) := by
  unfold handle_frame
  dsimp only
  split
  · exact (outcome_close { s with handled := s.handled ++ [(opcode, payload)] }).congr rfl rfl
  · split
    · exact (outcome_enqueue { s with handled := s.handled ++ [(opcode, payload)] } _).congr rfl rfl
    · exact .same rfl rfl rfl rfl

/-- Starting a read is no outcome. -/
theorem Outcome.start_read (h : Outcome s t) (stage : ReadStage) : Outcome s (t.start_read stage) :=
  h.congr rfl rfl

/-- A refused length closes. -/
theorem outcome_finish_with_length (s : WsConnection) (opcode : UInt8) (masked : Bool)
    (len : UInt64) : Outcome s (s.finish_with_length opcode masked len) := by
  unfold finish_with_length
  split
  · exact outcome_close s
  · exact (outcome_refl s).start_read _

/-- The handler of a read that succeeded. -/
theorem outcome_read_done (s : WsConnection) (stage : ReadStage) (bytes : List UInt8) :
    Outcome s (s.read_done stage bytes) := by
  cases stage with
  | header =>
      unfold read_done
      dsimp only
      split
      · exact (outcome_refl s).start_read _
      · split
        · exact (outcome_refl s).start_read _
        · exact outcome_finish_with_length s _ _ _
  | length opcode masked size => exact outcome_finish_with_length s _ _ _
  | mask opcode len =>
      unfold read_done
      dsimp only
      split
      · -- the buffer of an empty payload is no outgoing frame
        let t : WsConnection := { s with buffers := s.buffers ++ [len.toNat] }
        have hframe : Outcome s (t.handle_frame [] opcode) :=
          (t.outcome_handle_frame [] opcode).congr rfl rfl
        exact hframe.start_read .header
      · exact .same rfl rfl rfl rfl
  | payload opcode len mask_key => exact (outcome_handle_frame s _ opcode).start_read _

/-- The handler of a read. -/
theorem outcome_run_read (h : s.run_read = some t) : Outcome s t := by
  unfold run_read at h
  split at h
  · rw [← Option.some.inj h]
    exact (outcome_close { s with read := none }).congr rfl rfl
  · rw [← Option.some.inj h]
    exact (outcome_read_done { s with read := none } _ _).congr rfl rfl
  · cases h

end WsConnection

/-! ## (2) The threads, the strand and the socket -/

/-- An `async_write` whose handler has not run, and how many of its bytes the socket took. -/
structure Write where
  frame : Frame
  sent : Nat := 0
  op : AsyncOp Unit := .pending
  deriving DecidableEq

/-- An open connection with everything around it. The field `write` of `conn` is not used: all writes
that were started and whose handlers have not run are in `writes`. -/
structure Traffic where
  conn : WsConnection := .opened
  /-- Calls of `send_text` that saw `open_` and have not posted yet. -/
  calling : List (List UInt8) := []
  /-- The frames of the handlers that `send_text` posted, first to last. -/
  posted : List (List UInt8) := []
  writes : List Write := []
  /-- The bytes that left the socket. -/
  wire : List UInt8 := []
  /-- What the handlers were to queue so far: the texts and the answers to pings. -/
  asked : List (List UInt8) := []
  /-- The frames that were queued so far. -/
  enqueued : List Frame := []
  /-- The frames that were handed to `async_write` so far. -/
  handed : List Frame := []

/-- What happens next around a connection. -/
inductive TrafficEvent where
  /-- Bytes arrive from the client. -/
  | arrive (bytes : List UInt8)
  /-- The pending read completes. -/
  | readCompletes (result : Except ErrorCode Unit)
  /-- A thread calls `send_text` and looks at `open_`. -/
  | send_text (payload : List UInt8)
  /-- A thread in `send_text` posts its frame to the strand. -/
  | post (i : Nat)
  /-- The socket takes the next `n` bytes of a write. -/
  | transmit (i n : Nat)
  /-- A write completes: with all its bytes taken, or with an error. -/
  | writeCompletes (i : Nat) (result : Except ErrorCode Unit)
  /-- The first posted handler runs `enqueue`. -/
  | runPosted
  /-- The handler of a completed write runs. -/
  | runWrite (i : Nat)
  /-- The handler of the completed read runs. -/
  | runRead
  deriving DecidableEq

namespace Traffic

/-- After a handler that left the connection as `conn'`: the calls that it made are those behind the
calls before. Closing the socket aborts the writes that are pending. -/
def after (t : Traffic) (conn' : WsConnection) : Traffic :=
  let calls := conn'.calls.drop t.conn.calls.length
  { t with
    conn := conn'
    writes := (if conn'.closed_ && !t.conn.closed_ then
        t.writes.map fun w => { w with op := w.op.abort } else t.writes) ++
      (calls.filterMap Call.written).map fun frame => { frame }
    enqueued := t.enqueued ++ calls.filterMap Call.queued
    handed := t.handed ++ calls.filterMap Call.written }

/-- The socket takes `n` more bytes of a write. -/
def transmit (t : Traffic) (i n : Nat) : Option Traffic :=
  match t.writes[i]? with
  | some ⟨frame, sent, .pending⟩ =>
      if sent + n ≤ frame.bytes.length then
        some { t with
          writes := t.writes.set i ⟨frame, sent + n, .pending⟩
          wire := t.wire ++ (frame.bytes.drop sent).take n }
      else none
  | _ => none

/-- A write succeeds only with all its bytes. -/
def write_completes (t : Traffic) (i : Nat) (result : Except ErrorCode Unit) : Option Traffic :=
  match t.writes[i]? with
  | some ⟨frame, sent, .pending⟩ =>
      if result = .ok () ∧ sent ≠ frame.bytes.length then none
      else some { t with writes := t.writes.set i ⟨frame, sent, .completed result⟩ }
  | _ => none

/-- The handler of a completed write. -/
def run_write (t : Traffic) (i : Nat) : Option Traffic :=
  let rest := { t with writes := t.writes.eraseIdx i }
  match t.writes[i]? with
  | some ⟨_, _, .completed (.error _)⟩ => some (rest.after t.conn.close)
  | some ⟨_, _, .completed (.ok ())⟩ => some (rest.after t.conn.pop_front.write_next)
  | _ => none

/-- One event. -/
def step (t : Traffic) : TrafficEvent → Option Traffic
  | .arrive bytes => some { t with conn := { t.conn with received := t.conn.received ++ bytes } }
  | .readCompletes result => (t.conn.read_completes result).map fun conn => { t with conn }
  | .send_text payload =>
      some (if t.conn.open_ then { t with calling := t.calling ++ [payload] } else t)
  | .post i =>
      t.calling[i]?.map fun payload =>
        { t with
          calling := t.calling.eraseIdx i
          posted := t.posted ++ [make_frame kOpText payload] }
  | .transmit i n => t.transmit i n
  | .writeCompletes i result => t.write_completes i result
  | .runPosted =>
      match t.posted with
      | [] => none
      | bytes :: posted =>
          some { { t with posted }.after (t.conn.enqueue bytes) with asked := t.asked ++ [bytes] }
  | .runWrite i => t.run_write i
  | .runRead =>
      t.conn.run_read.map fun conn =>
        { t.after conn with
          asked := t.asked ++
            WsConnection.pongsOf (conn.handled.drop t.conn.handled.length) }

/-- The connection when it has just been opened. -/
def start : Traffic := {}

/-! ## (3) Idle, writing, closed -/

/-- The phases of a connection and its socket. `done` are the frames that were written. -/
inductive Phase (t : Traffic) : Prop where
  /-- Nothing waits and nothing is in flight. -/
  | idle (hopen : t.conn.closed_ = false) (writing : t.conn.writing_ = false)
      (outbox : t.conn.outbox_ = []) (writes : t.writes = []) (handed : t.handed = t.enqueued)
      (wire : t.wire = t.enqueued.flatMap Frame.bytes)
  /-- The front frame is in flight, partly sent; it stays in front of the outbox. -/
  | writing (done : List Frame) (w : Write) (rest : List Frame) (hopen : t.conn.closed_ = false)
      (writing : t.conn.writing_ = true) (outbox : t.conn.outbox_ = w.frame :: rest)
      (room : rest.length < kMaxQueuedFrames) (writes : t.writes = [w])
      (enqueued : t.enqueued = done ++ w.frame :: rest)
      (handed : t.handed = done ++ [w.frame])
      (wire : t.wire = done.flatMap Frame.bytes ++ w.frame.bytes.take w.sent)
      (complete : w.op = .completed (.ok ()) → w.sent = w.frame.bytes.length)
  /-- The connection is closed: what is in flight has ended, and nothing more is sent. -/
  | closed (hclosed : t.conn.closed_ = true) (outbox : t.conn.outbox_ = [])
      (flight : t.writes.length ≤ 1) (ended : ∀ w ∈ t.writes, w.op ≠ .pending)
      (handed : t.handed <+: t.enqueued) (wire : t.wire <+: t.handed.flatMap Frame.bytes)

/-- A new connection is idle. -/
theorem phase_start : Phase start := .idle rfl rfl rfl rfl rfl rfl

variable {t t' : Traffic}

/-- A handler that does not close hands its frames to the socket. -/
theorem after_of_closed_eq {conn' : WsConnection} (h : conn'.closed_ = t.conn.closed_)
    {calls : List Call} (hcalls : conn'.calls = t.conn.calls ++ calls) : t.after conn' =
      { t with
        conn := conn'
        writes := t.writes ++ (calls.filterMap Call.written).map fun frame => { frame }
        enqueued := t.enqueued ++ calls.filterMap Call.queued
        handed := t.handed ++ calls.filterMap Call.written } := by
  unfold after
  rw [h, Bool.and_not_self, if_neg Bool.false_ne_true, hcalls, List.drop_left]

/-- A handler that closes aborts what is in flight. -/
theorem after_of_closes {conn' : WsConnection} (hopen : t.conn.closed_ = false)
    (hclosed : conn'.closed_ = true) (hcalls : conn'.calls = t.conn.calls) : t.after conn' =
      { t with
        conn := conn'
        writes := t.writes.map fun w => { w with op := w.op.abort } } := by
  simp [after, hopen, hclosed, hcalls]

/-- Every phase has its frames in order, so a connection that closes then ends in `closed`. -/
theorem Phase.order (h : Phase t) : t.writes.length ≤ 1 ∧ t.handed <+: t.enqueued ∧
    t.wire <+: t.handed.flatMap Frame.bytes := by
  cases h with
  | idle hopen writing outbox writes handed wire =>
      rw [writes, handed, wire]
      exact ⟨Nat.zero_le _, List.prefix_rfl, List.prefix_rfl⟩
  | writing done w rest hopen writing outbox room writes enqueued handed wire complete =>
      rw [writes, handed, enqueued, wire]
      refine ⟨Nat.le_refl _, ⟨rest, by rw [List.append_assoc]; rfl⟩, ?_⟩
      rw [List.flatMap_append, List.flatMap_singleton]
      exact (List.prefix_append_right_inj _).mpr (List.take_prefix _ _)
  | closed hclosed outbox flight ended handed wire => exact ⟨flight, handed, wire⟩

/-- Closing the connection leads to `closed`, also when the write that has just ended is taken off. -/
theorem Phase.close {conn' : WsConnection} {writes : List Write} (h : Phase t)
    (hless : writes.length ≤ t.writes.length) (hopen : t.conn.closed_ = false)
    (houtbox : conn'.outbox_ = []) (hclosed : conn'.closed_ = true)
    (hcalls : conn'.calls = t.conn.calls) : Phase ({ t with writes }.after conn') := by
  obtain ⟨hflight, hhanded, hwire⟩ := h.order
  rw [after_of_closes (t := { t with writes }) hopen hclosed hcalls]
  refine .closed hclosed houtbox ?_ ?_ hhanded hwire
  · rw [List.length_map]
    exact hless.trans hflight
  · intro w hw
    obtain ⟨w', -, rfl⟩ := List.mem_map.mp hw
    exact AsyncOp.abort_ne_pending _

/-- The outbox of a closed connection is empty. -/
theorem Phase.outbox_of_closed (h : Phase t) (hclosed : t.conn.closed_ = true) :
    t.conn.outbox_ = [] := by
  cases h with
  | idle hopen => exact absurd (hopen.symm.trans hclosed) Bool.false_ne_true
  | writing done w rest hopen => exact absurd (hopen.symm.trans hclosed) Bool.false_ne_true
  | closed _ outbox => exact outbox

/-- A closed connection stays in `closed` when a write is taken off. -/
theorem Phase.stay {conn' : WsConnection} {writes : List Write} (h : Phase t)
    (hless : writes.Sublist t.writes) (hclosed : t.conn.closed_ = true)
    (houtbox : conn'.outbox_ = []) (hclosed' : conn'.closed_ = true)
    (hcalls : conn'.calls = t.conn.calls) : Phase ({ t with writes }.after conn') := by
  rw [after_of_closed_eq (t := { t with writes }) (hclosed'.trans hclosed.symm)
    (hcalls.trans (List.append_nil _).symm)]
  simp only [List.filterMap_nil, List.map_nil, List.append_nil]
  cases h with
  | idle hopen => exact absurd (hopen.symm.trans hclosed) Bool.false_ne_true
  | writing done w rest hopen => exact absurd (hopen.symm.trans hclosed) Bool.false_ne_true
  | closed _ _ flight ended handed wire =>
      exact .closed hclosed' houtbox (hless.length_le.trans flight)
        (fun w hw => ended w (hless.subset hw)) handed wire

/-- **A handler other than the write's keeps the phases.** -/
theorem Phase.after {conn' : WsConnection} (h : Phase t)
    (hout : WsConnection.Outcome t.conn conn') : Phase (t.after conn') := by
  cases hout with
  | same houtbox hwriting hclosed hcalls =>
      rw [after_of_closed_eq hclosed (hcalls.trans (List.append_nil _).symm)]
      simp only [List.filterMap_nil, List.map_nil, List.append_nil]
      cases h with
      | idle hopen writing outbox writes handed wire =>
          exact .idle (hclosed.trans hopen) (hwriting.trans writing) (houtbox.trans outbox) writes
            handed wire
      | writing done w rest hopen writing outbox room writes enqueued handed wire complete =>
          exact .writing done w rest (hclosed.trans hopen) (hwriting.trans writing)
            (houtbox.trans outbox) room writes enqueued handed wire complete
      | closed hclosed' outbox flight ended handed wire =>
          exact .closed (hclosed.trans hclosed') (houtbox.trans outbox) flight ended handed wire
  | pushed frame hopen hroom houtbox hwriting hclosed hcalls =>
      rw [after_of_closed_eq (hclosed.trans hopen.symm) hcalls]
      cases h with
      | idle _ writing outbox writes handed wire =>
          -- the frame is alone in the outbox and handed over at once
          rw [writing, outbox]
          refine .writing t.enqueued { frame } [] hclosed hwriting ?_ (by decide) ?_ ?_ ?_ ?_ ?_
          · rw [houtbox, outbox]
            rfl
          · rw [writes]
            rfl
          · rfl
          · rw [← handed]
            rfl
          · simpa using wire
          · simp
      | writing done w rest _ writing outbox room writes enqueued handed wire complete =>
          -- the frame waits behind the one in flight
          rw [writing]
          refine .writing done w (rest ++ [frame]) hclosed hwriting ?_ ?_ ?_ ?_ ?_ wire complete
          · rw [houtbox, outbox]
            rfl
          · rw [outbox, List.length_cons] at hroom
            rw [List.length_append, List.length_singleton]
            exact hroom
          · rw [writes]
            rfl
          · simp [enqueued, Call.queued]
          · simp [handed, Call.written]
      | closed hclosed' => exact absurd (hopen.symm.trans hclosed') Bool.false_ne_true
  | closed hopen houtbox hclosed hcalls =>
      exact h.close (Nat.le_refl _) hopen houtbox hclosed hcalls

/-- What the threads and the reading side do leaves the phase alone. -/
theorem Phase.congr (h : Phase t)
    (hconn : t'.conn.outbox_ = t.conn.outbox_ ∧ t'.conn.writing_ = t.conn.writing_ ∧
      t'.conn.closed_ = t.conn.closed_)
    (hsocket : t'.writes = t.writes ∧ t'.wire = t.wire)
    (hframes : t'.enqueued = t.enqueued ∧ t'.handed = t.handed) : Phase t' := by
  obtain ⟨hout, hwriting, hclosed⟩ := hconn
  obtain ⟨hwrites, hwire⟩ := hsocket
  obtain ⟨henqueued, hhanded⟩ := hframes
  cases h with
  | idle hopen writing outbox writes handed wire =>
      apply Phase.idle <;> simp_all
  | writing done w rest hopen writing outbox room writes enqueued handed wire complete =>
      apply Phase.writing done w rest <;> simp_all
  | closed hclosed' outbox flight ended handed wire =>
      apply Phase.closed <;> simp_all

/-- The socket takes bytes of the one write in flight. -/
theorem phase_transmit {i n : Nat} (h : Phase t) (hstep : t.transmit i n = some t') :
    Phase t' := by
  unfold transmit at hstep
  split at hstep
  · rename_i frame sent hwrite
    obtain ⟨hroom, hstep⟩ := Option.ite_none_right_eq_some.mp hstep
    obtain rfl := Option.some.inj hstep
    cases h with
    | idle _ _ _ writes =>
        rw [writes] at hwrite
        cases hwrite
    | writing done w rest hopen writing outbox room writes enqueued handed wire complete =>
        -- only the front frame is in flight, so its next bytes follow the ones that were sent
        rw [writes] at hwrite
        obtain ⟨rfl, hw⟩ : i = 0 ∧ w = ⟨frame, sent, .pending⟩ := by
          cases i with
          | zero => exact ⟨rfl, Option.some.inj hwrite⟩
          | succ i => cases hwrite
        subst hw
        refine .writing done ⟨frame, sent + n, .pending⟩ rest hopen writing outbox room ?_ enqueued
          handed ?_ (by simp)
        · simp only [writes, List.set_cons_zero]
        · simp only [wire, List.append_assoc, List.take_add]
    | closed hclosed outbox flight ended handed wire =>
        exact absurd rfl (ended _ (List.mem_of_getElem? hwrite))
  · cases hstep

/-- The write in flight ends. -/
theorem phase_write_completes {i : Nat} {result : Except ErrorCode Unit} (h : Phase t)
    (hstep : t.write_completes i result = some t') : Phase t' := by
  unfold write_completes at hstep
  -- there is one write in flight, so it is that one which completes
  split at hstep
  · rename_i frame sent hwrite
    obtain ⟨hall, hstep⟩ := Option.ite_none_left_eq_some.mp hstep
    obtain rfl := Option.some.inj hstep
    cases h with
    | idle _ _ _ writes =>
        rw [writes] at hwrite
        cases hwrite
    | writing done w rest hopen writing outbox room writes enqueued handed wire complete =>
        rw [writes] at hwrite
        obtain ⟨rfl, hw⟩ : i = 0 ∧ w = ⟨frame, sent, .pending⟩ := by
          cases i with
          | zero => exact ⟨rfl, Option.some.inj hwrite⟩
          | succ i => cases hwrite
        subst hw
        refine .writing done ⟨frame, sent, .completed result⟩ rest hopen writing outbox room ?_ enqueued
          handed wire ?_
        · simp only [writes, List.set_cons_zero]
        · intro hok
          by_contra hne
          exact hall ⟨AsyncOp.completed.inj hok, hne⟩
    | closed hclosed outbox flight ended handed wire =>
        exact absurd rfl (ended _ (List.mem_of_getElem? hwrite))
  · cases hstep

/-- With the front frame popped and nothing in flight, `write_next` goes on or stops. -/
theorem phase_write_next {conn : WsConnection} (hopen : conn.closed_ = false)
    (hroom : conn.outbox_.length ≤ kMaxQueuedFrames) (hwrites : t.writes = [])
    (hclosed : t.conn.closed_ = false) (hcalls : conn.calls = t.conn.calls)
    (henqueued : t.enqueued = t.handed ++ conn.outbox_)
    (hwire : t.wire = t.handed.flatMap Frame.bytes) : Phase (t.after conn.write_next) := by
  -- nothing queued: the connection goes idle, and all that was queued has been handed over
  cases hout : conn.outbox_ with
  | nil =>
      have hnext : conn.write_next = { conn with writing_ := false } := by
        simp [WsConnection.write_next, hopen, hout]
      have hnone : conn.write_next.calls = t.conn.calls ++ [] := by
        rw [hnext, List.append_nil]
        exact hcalls
      have hsame : conn.write_next.closed_ = t.conn.closed_ := by
        rw [hnext]
        exact hopen.trans hclosed.symm
      rw [hout, List.append_nil] at henqueued
      rw [after_of_closed_eq hsame hnone, hnext]
      simp only [List.filterMap_nil, List.map_nil, List.append_nil]
      exact .idle hopen rfl hout hwrites henqueued.symm (by rw [hwire, henqueued])
  | cons frame rest =>
      have hnext : conn.write_next = { conn with
          writing_ := true
          write := some (frame, .pending)
          calls := conn.calls ++ [.async_write frame] } := by
        simp [WsConnection.write_next, hopen, hout]
      have hone : conn.write_next.calls = t.conn.calls ++ [.async_write frame] := by
        rw [hnext, ← hcalls]
      have hsame : conn.write_next.closed_ = t.conn.closed_ := by
        rw [hnext]
        exact hopen.trans hclosed.symm
      rw [hout] at henqueued hroom
      rw [after_of_closed_eq hsame hone, hnext]
      refine .writing t.handed { frame } rest hopen rfl hout hroom ?_ ?_ rfl ?_ ?_
      · rw [hwrites]
        rfl
      · rw [henqueued]
        exact List.append_nil _
      · simpa using hwire
      · simp

/-- The handler of the write goes on with the next frame, or closes. -/
theorem phase_run_write {i : Nat} (h : Phase t) (hstep : t.run_write i = some t') :
    Phase t' := by
  have hless := List.eraseIdx_sublist t.writes i
  unfold run_write at hstep
  dsimp only at hstep
  split at hstep
  · -- the write failed
    obtain rfl := Option.some.inj hstep
    cases hclosed : t.conn.closed_ with
    | false =>
        exact h.close hless.length_le hclosed (WsConnection.outbox_close _ hclosed)
          (WsConnection.closed_close _) (by simp [WsConnection.close, hclosed])
    | true =>
        have hsame : t.conn.close = t.conn := if_pos hclosed
        rw [hsame]
        exact h.stay hless hclosed (h.outbox_of_closed hclosed) hclosed rfl
  · -- the whole frame was sent
    rename_i frame sent hw
    obtain rfl := Option.some.inj hstep
    cases h with
    | idle hopen writing outbox writes handed wire =>
        rw [writes] at hw
        cases hw
    | writing done w rest hopen writing outbox room writes enqueued handed wire complete =>
        obtain rfl : i = 0 := by
          cases i with
          | zero => rfl
          | succ i =>
              rw [writes] at hw
              cases hw
        rw [writes] at hw
        obtain rfl := Option.some.inj hw
        rw [writes, List.eraseIdx_cons_zero]
        have hopen' : t.conn.pop_front.closed_ = false := hopen
        apply phase_write_next (t := { t with writes := [] }) hopen'
        · simp only [WsConnection.pop_front, outbox, List.tail_cons]
          exact Nat.le_of_lt room
        · rfl
        · exact hopen
        · rfl
        · simp [WsConnection.pop_front, outbox, handed, enqueued]
        · have hsent : sent = frame.bytes.length := complete rfl
          simp [wire, handed, hsent]
    | closed hclosed outbox flight ended handed wire =>
        -- `write_next` sees that the connection is closed
        have hnext : t.conn.pop_front.write_next = { t.conn.pop_front with writing_ := false } :=
          if_pos hclosed
        rw [hnext]
        refine Phase.stay (.closed hclosed outbox flight ended handed wire) hless hclosed ?_ hclosed
          rfl
        simp only [WsConnection.pop_front, outbox, List.tail_nil]
  · cases hstep

/-- **One event keeps the phases.** -/
theorem phase_step {e : TrafficEvent} (h : Phase t) (hstep : t.step e = some t') : Phase t' := by
  cases e with
  -- what only receives, posts or completes a read touches nothing of the phase
  | arrive bytes =>
      obtain rfl := Option.some.inj hstep
      exact h.congr ⟨rfl, rfl, rfl⟩ ⟨rfl, rfl⟩ ⟨rfl, rfl⟩
  | readCompletes result =>
      obtain ⟨conn, hconn, rfl⟩ := Option.map_eq_some_iff.mp hstep
      refine h.congr ?_ ⟨rfl, rfl⟩ ⟨rfl, rfl⟩
      unfold WsConnection.read_completes at hconn
      split at hconn
      · rw [← Option.some.inj hconn]
        exact ⟨rfl, rfl, rfl⟩
      · obtain ⟨-, hconn⟩ := Option.ite_none_right_eq_some.mp hconn
        rw [← Option.some.inj hconn]
        exact ⟨rfl, rfl, rfl⟩
      · cases hconn
  | send_text payload =>
      obtain rfl := Option.some.inj hstep
      by_cases hopen : t.conn.open_
      · rw [if_pos hopen]
        exact h.congr ⟨rfl, rfl, rfl⟩ ⟨rfl, rfl⟩ ⟨rfl, rfl⟩
      · rwa [if_neg hopen]
  | post i =>
      obtain ⟨payload, -, rfl⟩ := Option.map_eq_some_iff.mp hstep
      exact h.congr ⟨rfl, rfl, rfl⟩ ⟨rfl, rfl⟩ ⟨rfl, rfl⟩
  | transmit i n => exact phase_transmit h hstep
  | writeCompletes i result => exact phase_write_completes h hstep
  | runPosted =>
      unfold step at hstep
      dsimp only at hstep
      split at hstep
      · cases hstep
      · rename_i bytes posted hposted
        obtain rfl := Option.some.inj hstep
        -- the posted text is queued by the same `enqueue_frame` as every other frame
        have h' : Phase { t with posted } := h.congr ⟨rfl, rfl, rfl⟩ ⟨rfl, rfl⟩ ⟨rfl, rfl⟩
        exact (h'.after (WsConnection.outcome_enqueue t.conn bytes)).congr ⟨rfl, rfl, rfl⟩ ⟨rfl, rfl⟩
          ⟨rfl, rfl⟩
  | runWrite i => exact phase_run_write h hstep
  | runRead =>
      obtain ⟨conn', hconn, rfl⟩ := Option.map_eq_some_iff.mp hstep
      exact (h.after (WsConnection.outcome_run_read hconn)).congr ⟨rfl, rfl, rfl⟩ ⟨rfl, rfl⟩
        ⟨rfl, rfl⟩

/-! ## (4) What was queued -/

/-- An open connection has queued what its handlers were asked to. -/
def Queued (t : Traffic) : Prop :=
  t.conn.closed_ = false → t.enqueued.map Frame.bytes = t.asked

/-- A handler that is to queue `frames`. -/
theorem Queued.after {conn' : WsConnection} (h : t.Queued)
    (hout : WsConnection.Outcome t.conn conn')
    (hopen : conn'.closed_ = false → t.conn.closed_ = false) {frames : List (List UInt8)}
    (hadded : conn'.closed_ = false →
      (conn'.outbox_.drop t.conn.outbox_.length).map Frame.bytes = frames) :
    Queued { t.after conn' with asked := t.asked ++ frames } := by
  intro hclosed
  change (t.enqueued ++ (conn'.calls.drop t.conn.calls.length).filterMap Call.queued).map
    Frame.bytes = _
  rw [List.map_append, h (hopen hclosed), hout.queued hclosed, hadded hclosed]

/-- The handler of a write queues nothing. -/
theorem queued_run_write {i : Nat} (h : t.Queued) (hstep : t.run_write i = some t') :
    t'.Queued := by
  unfold run_write at hstep
  dsimp only at hstep
  split at hstep
  · -- after an error the connection is closed, and nothing is promised of a closed one
    cases hstep
    intro hopen
    exact absurd (t.conn.closed_close.symm.trans hopen) (by decide)
  · cases hstep
    intro hopen
    obtain ⟨-, hclosed, -⟩ := t.conn.pop_front.write_next_kept
    have hcalls : (t.conn.pop_front.write_next.calls.drop t.conn.calls.length).filterMap
        Call.queued = [] := by
      -- a completed write takes a frame off and starts the next one, but queues none
      unfold WsConnection.write_next
      split
      · exact congrArg _ (List.drop_length ..)
      · cases t.conn.pop_front.outbox_ with
        | nil => exact congrArg _ (List.drop_length ..)
        | cons frame outbox => exact congrArg _ (List.drop_left ..)
    change (t.enqueued ++ _).map Frame.bytes = t.asked
    rw [hcalls, List.append_nil]
    exact h (hclosed.symm.trans hopen)
  · cases hstep

/-- **One event keeps what was queued in step** with what was to be queued. -/
theorem queued_step {e : TrafficEvent} (h : t.Queued) (hstep : t.step e = some t') :
    t'.Queued := by
  cases e with
  -- only the handlers that queue frames have to show something
  | arrive bytes =>
      cases hstep
      exact h
  | readCompletes result =>
      obtain ⟨conn, hconn, rfl⟩ := Option.map_eq_some_iff.mp hstep
      exact fun hopen => h (WsConnection.open_of_step (e := .readCompletes result) hconn hopen)
  | send_text payload =>
      obtain rfl := Option.some.inj hstep
      split
      · exact h
      · exact h
  | post i =>
      obtain ⟨payload, -, rfl⟩ := Option.map_eq_some_iff.mp hstep
      exact h
  | transmit i n =>
      simp only [step, transmit] at hstep
      split at hstep
      · obtain ⟨-, hstep⟩ := Option.ite_none_right_eq_some.mp hstep
        cases hstep
        exact h
      · cases hstep
  | writeCompletes i result =>
      simp only [step, write_completes] at hstep
      split at hstep
      · obtain ⟨-, hstep⟩ := Option.ite_none_left_eq_some.mp hstep
        cases hstep
        exact h
      · cases hstep
  | runPosted =>
      unfold step at hstep
      dsimp only at hstep
      split at hstep
      · cases hstep
      · rename_i bytes posted hposted
        obtain rfl := Option.some.inj hstep
        have h' : Queued { t with posted } := h
        exact h'.after (WsConnection.outcome_enqueue t.conn bytes)
          (WsConnection.sound_enqueue t.conn bytes).open_of_open WsConnection.added_enqueue
  | runWrite i => exact queued_run_write h hstep
  | runRead =>
      obtain ⟨conn', hconn, rfl⟩ := Option.map_eq_some_iff.mp hstep
      refine h.after (WsConnection.outcome_run_read hconn)
        (WsConnection.open_of_step (e := .runRead) hconn) fun hopen => ?_
      obtain ⟨frames, hhandled, hadded⟩ := WsConnection.added_run_read hconn hopen
      rw [hadded, hhandled, List.drop_left]

/-! ## (5) The stream -/

/-- The connection's frames are not interleaved and not reordered: on an open connection the texts and
the answers to pings are queued in the order in which their handlers ran; the frames handed to the
socket are the first ones that were queued, in their order; what left the socket is the beginning of
their bytes, and all of them where nothing is in flight; at most one write is in flight, which
`writing_` tells until `close()`; and the outbox is bounded. -/
structure FramesInOrder (t : Traffic) : Prop where
  queued : t.conn.closed_ = false → t.enqueued.map Frame.bytes = t.asked
  order : t.handed <+: t.enqueued
  wire : t.wire <+: t.handed.flatMap Frame.bytes
  complete : t.conn.closed_ = false → t.writes = [] → t.wire = t.handed.flatMap Frame.bytes
  one : t.writes.length ≤ 1
  writing : t.conn.closed_ = false → (t.conn.writing_ = true ↔ t.writes.length = 1)
  bounded : t.conn.outbox_.length ≤ kMaxQueuedFrames

/-- In each phase the frames are in order. -/
theorem Phase.framesInOrder (h : Phase t) (hqueued : t.Queued) : FramesInOrder t := by
  obtain ⟨hflight, horder, hprefix⟩ := h.order
  -- one conjunct after the other, by the phase
  refine ⟨hqueued, horder, hprefix, ?_, hflight, ?_, ?_⟩
  · intro hopen hnone
    cases h with
    | idle _ writing outbox writes handed wire => rw [wire, handed]
    | writing done w rest _ writing outbox room writes =>
        rw [writes] at hnone
        cases hnone
    | closed hclosed => exact absurd (hopen.symm.trans hclosed) Bool.false_ne_true
  · intro hopen
    cases h with
    | idle _ writing outbox writes handed wire => simp [writing, writes]
    | writing done w rest _ writing outbox room writes => simp [writing, writes]
    | closed hclosed => exact absurd (hopen.symm.trans hclosed) Bool.false_ne_true
  · cases h with
    | idle _ writing outbox => simp [outbox]
    | writing done w rest _ writing outbox room =>
        rw [outbox]
        exact room
    | closed hclosed outbox => simp [outbox]

/-- **Frames are never interleaved or reordered**, in any interleaving of the threads, the strand's
handlers and the socket. -/
theorem alongRun_framesInOrder (es : List TrafficEvent) :
    AlongRun step FramesInOrder start es := by
  intro fs t _ hrun
  exact (run_invariant phase_step phase_start hrun).framesInOrder
    (run_invariant queued_step (fun _ => rfl) hrun)

/-- Two threads send while the pong of a ping is in flight: the wire has the pong, then both texts in
the order in which they were posted. -/
example : ((run step start
    [.arrive [0x89, 0x80, 0, 0, 0, 0], .readCompletes (.ok ()), .runRead, .readCompletes (.ok ()),
      .runRead, .send_text [0x61], .send_text [0x62], .transmit 0 1, .post 1, .post 0, .runPosted,
      .runPosted, .transmit 0 1, .writeCompletes 0 (.ok ()), .runWrite 0, .transmit 0 3,
      .writeCompletes 0 (.ok ()), .runWrite 0, .transmit 0 2]).map Traffic.wire) =
    some [0x8A, 0, 0x81, 1, 0x62, 0x81, 1] := by decide

end Traffic

end Ironpulse.Api
