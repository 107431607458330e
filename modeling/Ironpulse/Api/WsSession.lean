import Ironpulse.Api.WsReadLoop
import Ironpulse.Lib.StepMachine

/-! # The position of the frame loop in the stream

The frame loop of `WsConnection` (`src/api/ws_server.cpp`) with a record of what happens, and where in
the stream of the client its read stands.

* **`Session`**, **`Session.step`**: a connection with a record of the bytes that arrived and of the
  frames that the handlers of the reads added to the outbox.
* **`Session.Undisturbed`**: nothing but the client's own frames ends the connection.
* **`Session.Reading`**: the position of the read in the stream, with a lemma for each event that
  moves it. -/

namespace Ironpulse.Api

open StepMachine WebSocketFrame

/-! ## (1) The record of a connection -/

namespace WsConnection

variable (s : WsConnection)

/-- The read that has completed is the last one of a ping. -/
def EndsPing : Prop :=
  match s.read with
  | some (.mask opcode len, .completed (.ok _)) => opcode = kOpPing ∧ len = 0
  | some (.payload opcode _ _, .completed (.ok _)) => opcode = kOpPing
  | _ => False

/-- The pongs that frames of the client ask for. -/
def pongsOf (frames : List (UInt8 × List UInt8)) : List (List UInt8) :=
  (frames.filter fun frame => frame.1 = kOpPing).map fun frame =>
    make_frame kOpPong (frame.2.take 125)

/-- The pongs of frames in a row. -/
theorem pongsOf_append (frames frames' : List (UInt8 × List UInt8)) :
    pongsOf (frames ++ frames') = pongsOf frames ++ pongsOf frames' := by
  rw [pongsOf, List.filter_append, List.map_append]
  rfl

/-- Another frame fits into the outbox. -/
def HasRoom : Prop := s.closed_ = true ∨ s.outbox_.length < kMaxQueuedFrames

end WsConnection

/-- A connection and what has happened on it. -/
structure Session where
  conn : WsConnection := .opened
  /-- The bytes that arrived from the client. -/
  stream : List UInt8 := []
  /-- The frames that the handlers of the reads have added to the outbox. -/
  pongs : List Frame := []
  /-- A read has failed. -/
  ended : Bool := false

namespace Session

/-- One event of the connection, with its record: what arrives, which read fails, and by which frames
the outbox is longer after the handler of a read. -/
def step (s : Session) (e : WsConnection.Event) : Option Session :=
  (s.conn.step e).map fun conn =>
    match e with
    | .arrive bytes => { s with conn, stream := s.stream ++ bytes }
    | .readCompletes (.error _) => { s with conn, ended := true }
    | .runRead => { s with conn, pongs := s.pongs ++ conn.outbox_.drop s.conn.outbox_.length }
    | _ => { s with conn }

/-- A connection that has just been opened. -/
def start : Session := {}

/-- The record changes nothing. -/
theorem conn_of_step {s t : Session} {e : WsConnection.Event} (h : s.step e = some t) :
    s.conn.step e = some t.conn := by
  rw [step, Option.map_eq_some_iff] at h
  obtain ⟨conn, hconn, rfl⟩ := h
  rw [hconn]
  split <;> rfl

/-- Nothing but the client's own frames ends the connection: no write fails, a read fails only where
the client's bytes end, and the outbox is never full. -/
def Undisturbed (s : Session) : WsConnection.Event → Prop
  | .arrive _ => s.ended = false
  | .writeCompletes result => result = .ok ()
  | .readCompletes (.error _) => ∀ stage, s.conn.read = some (stage, .pending) →
      s.conn.received.length < stage.wanted
  | .readCompletes (.ok _) => True
  | .runText _ => s.conn.HasRoom
  | .runWrite => True
  | .runRead => s.conn.EndsPing → s.conn.HasRoom

/-- No read of the frame loop can go on: it has stopped or waits for bytes. -/
def AtRest (s : Session) : Prop :=
  s.conn.read = none ∨
    ∃ stage, s.conn.read = some (stage, .pending) ∧ s.conn.received.length < stage.wanted

/-! ## (2) Where the loop stands in the stream -/

/-- The handled frames are the front of the stream, and of the next one `stage` is to be read. -/
def At (stream : List UInt8) (handled : List (UInt8 × List UInt8)) (stage : ReadStage)
    (unread : List UInt8) : Prop :=
  ∃ front part, stream = front ++ (part ++ unread) ∧ Parses limit front handled ∧ stage.Reads part

/-- The stream has ended with a close frame or with one that is refused. -/
def Stopped (stream : List UInt8) (handled : List (UInt8 × List UInt8)) : Prop :=
  ∃ front rest ending, stream = front ++ rest ∧ ending ≠ .cutOff ∧ Ends limit front handled ending

/-- The read in flight and the stream. In a run without disturbance the loop stops only at the end of
the stream. -/
def Reading (calm : Prop) (s : Session) : Prop :=
  match s.conn.read with
  | some (stage, .pending) =>
      s.conn.closed_ = false ∧ (calm → s.ended = false) ∧
        At s.stream s.conn.handled stage s.conn.received
  | some (stage, .completed (.ok bytes)) =>
      bytes.length = stage.wanted ∧ (calm → s.conn.closed_ = false ∧ s.ended = false) ∧
        At s.stream s.conn.handled stage (bytes ++ s.conn.received)
  | some (stage, .completed (.error _)) =>
      (s.conn.closed_ = true ∧ Stopped s.stream s.conn.handled) ∨
        ((calm → s.conn.closed_ = false ∧ s.ended = true ∧
          s.conn.received.length < stage.wanted) ∧
            At s.stream s.conn.handled stage s.conn.received)
  | none =>
      s.conn.closed_ = true ∧
        (Stopped s.stream s.conn.handled ∨ ∃ stage,
          (calm → s.ended = true ∧ s.conn.received.length < stage.wanted) ∧
            At s.stream s.conn.handled stage s.conn.received)

/-- What holds after every run, and more after a run without disturbance. -/
structure Inv (calm : Prop) (s : Session) : Prop where
  reading : s.Reading calm
  failed : calm → ∀ frame ec, s.conn.write = some (frame, .completed (.error ec)) →
    s.conn.closed_ = true
  buffers : ∀ size ∈ s.conn.buffers, size ≤ limit
  pongs : s.conn.closed_ = false →
    s.pongs.map Frame.bytes = WsConnection.pongsOf s.conn.handled

variable {calm : Prop} {s : Session} {stream : List UInt8} {handled : List (UInt8 × List UInt8)}

/-- A new connection waits for the first header. -/
theorem inv_start : start.Inv calm where
  reading := ⟨rfl, fun _ => rfl, [], [], rfl, parses_nil, rfl⟩
  failed := fun _ frame ec h => by cases h
  buffers := fun size h => by cases h
  pongs := fun _ => rfl

/-- Bytes that arrive are unread. -/
theorem At.arrive {stage : ReadStage} {unread : List UInt8} (h : At stream handled stage unread)
    (bytes : List UInt8) : At (stream ++ bytes) handled stage (unread ++ bytes) := by
  obtain ⟨front, part, hstream, hparses, hreads⟩ := h
  refine ⟨front, part, ?_, hparses, hreads⟩
  simp only [hstream, List.append_assoc]

/-- Bytes behind the end of the stream change nothing. -/
theorem Stopped.arrive (h : Stopped stream handled) (bytes : List UInt8) :
    Stopped (stream ++ bytes) handled := by
  obtain ⟨front, rest, ending, hstream, hending, hends⟩ := h
  refine ⟨front, rest ++ bytes, ending, ?_, hending, hends⟩
  simp only [hstream, List.append_assoc]

/-- Waiting for bytes, all frames of the stream are handled. -/
theorem At.frames_of_lt {stage : ReadStage} {unread : List UInt8}
    (h : At stream handled stage unread) (hlt : unread.length < stage.wanted) :
    clientFrames limit stream = (handled, .cutOff) := by
  obtain ⟨front, part, hstream, hparses, hreads⟩ := h
  rw [hstream, hparses, cut_off_of_lt hreads hlt, List.append_nil]

/-- Behind its end, all frames of the stream are handled. -/
theorem Stopped.frames (h : Stopped stream handled) :
    ∃ ending, ending ≠ .cutOff ∧ clientFrames limit stream = (handled, ending) := by
  obtain ⟨front, rest, ending, hstream, hending, hends⟩ := h
  exact ⟨ending, hending, by rw [hstream, hends]⟩

/-- The handled frames are the first ones of the stream. -/
theorem At.handled_isPrefixOf {stage : ReadStage} {unread : List UInt8}
    (h : At stream handled stage unread) : handled <+: (clientFrames limit stream).1 := by
  obtain ⟨front, part, hstream, hparses, -⟩ := h
  rw [hstream, hparses]
  exact List.prefix_append _ _

end Session

/-! ## (3) What the handlers do to the read -/

namespace WsConnection

variable (s : WsConnection)

/-- What the handlers of the outgoing side leave alone: the read, the bytes that were not read and
the history of the reads. -/
def incoming (s : WsConnection) :
    Option (ReadStage × AsyncOp (List UInt8)) × List UInt8 × List (UInt8 × List UInt8) × List Nat :=
  (s.read, s.received, s.handled, s.buffers)

/-- Equal incoming sides are equal field by field. -/
theorem incoming_eq {s t : WsConnection} : t.incoming = s.incoming ↔ t.read = s.read ∧
    t.received = s.received ∧ t.handled = s.handled ∧ t.buffers = s.buffers := by
  simp only [incoming, Prod.mk.injEq]

/-- `close()` drops no byte that has arrived. -/
theorem received_close : s.close.received = s.received := by
  unfold close
  split <;> rfl

/-- `close()` handles no frame. -/
theorem handled_close : s.close.handled = s.handled := by
  unfold close
  split <;> rfl

/-- `close()` allocates nothing. -/
theorem buffers_close : s.close.buffers = s.buffers := by
  unfold close
  split <;> rfl

/-- `close()` leaves nothing to send. -/
theorem outbox_close (h : s.closed_ = false) : s.close.outbox_ = [] := by
  rw [close, h]
  rfl

/-- After `close()` the connection is closed. -/
theorem closed_close : s.close.closed_ = true := by
  unfold close
  split
  · assumption
  · rfl

/-- `close()` starts no read. -/
theorem read_close_of_none (h : s.read = none) : s.close.read = none := by
  unfold close
  split
  · exact h
  · rw [h]
    rfl

/-- A write that failed belongs to a closed connection. -/
def WriteKept (t : WsConnection) : Prop :=
  ∀ frame ec, t.write = some (frame, .completed (.error ec)) →
    t.closed_ = true ∨ s.write = some (frame, .completed (.error ec))

/-- `close()` lets the pending write fail. -/
theorem writeKept_close : s.WriteKept s.close :=
  fun _ _ _ => .inl s.closed_close

/-- `write_next` is about the outgoing side alone. -/
theorem write_next_kept :
    s.write_next.incoming = s.incoming ∧ s.write_next.closed_ = s.closed_ ∧
      s.WriteKept s.write_next := by
  unfold write_next WriteKept
  split
  · exact ⟨rfl, rfl, fun _ _ h => .inr h⟩
  · cases s.outbox_ with
    | nil => exact ⟨rfl, rfl, fun _ _ h => .inr h⟩
    | cons frame outbox => exact ⟨rfl, rfl, fun _ _ h => by cases h⟩

/-- `write_next` keeps the frame that it writes in the outbox. -/
theorem outbox_write_next : s.write_next.outbox_ = s.outbox_ := by
  unfold write_next
  split
  · rfl
  · cases houtbox : s.outbox_ <;> rfl

/-- So is the end of `enqueue`. -/
theorem push_back_kept (bytes : List UInt8) :
    (s.push_back bytes).incoming = s.incoming ∧ (s.push_back bytes).closed_ = s.closed_ ∧
      s.WriteKept (s.push_back bytes) := by
  unfold push_back
  dsimp only
  split
  · exact ⟨rfl, rfl, fun _ _ h => .inr h⟩
  · exact write_next_kept _

/-- The end of `enqueue` adds its frame to the outbox. -/
theorem outbox_push_back (bytes : List UInt8) :
    (s.push_back bytes).outbox_ = s.outbox_ ++ [⟨s.allocated, bytes⟩] := by
  unfold push_back
  dsimp only
  split
  · rfl
  · exact outbox_write_next _

/-- With room in the outbox `enqueue` leaves the read alone. -/
theorem enqueue_kept {s : WsConnection} (hroom : s.HasRoom) (bytes : List UInt8) :
    (s.enqueue bytes).incoming = s.incoming ∧ (s.enqueue bytes).closed_ = s.closed_ ∧
      s.WriteKept (s.enqueue bytes) := by
  unfold enqueue
  split
  · exact ⟨rfl, rfl, fun _ _ h => .inr h⟩
  · rename_i hopen
    rw [if_neg (Nat.not_le.mpr (hroom.resolve_left hopen))]
    exact push_back_kept s bytes

/-- Without room it closes the connection. -/
theorem enqueue_of_not_room {s : WsConnection} (hfull : ¬ s.HasRoom) (bytes : List UInt8) :
    s.enqueue bytes = s.close := by
  rw [HasRoom, not_or, Nat.not_lt] at hfull
  rw [enqueue, if_neg hfull.1, if_pos hfull.2]

/-- Whatever `enqueue` does, the bytes and the history of the reads stay. -/
theorem enqueue_frame (bytes : List UInt8) :
    (s.enqueue bytes).received = s.received ∧ (s.enqueue bytes).handled = s.handled ∧
      (s.enqueue bytes).buffers = s.buffers := by
  by_cases hroom : s.HasRoom
  · exact (incoming_eq.mp (enqueue_kept hroom bytes).1).2
  · rw [enqueue_of_not_room hroom]
    exact ⟨s.received_close, s.handled_close, s.buffers_close⟩

/-- `handle_frame` closes the connection on a close frame and where a pong does not fit. -/
theorem handle_frame_kept {s : WsConnection} (payload : List UInt8) {opcode : UInt8}
    (hopcode : opcode ≠ kOpClose) (hroom : opcode = kOpPing → s.HasRoom) :
    (s.handle_frame payload opcode).read = s.read ∧
      (s.handle_frame payload opcode).closed_ = s.closed_ ∧
      s.WriteKept (s.handle_frame payload opcode) := by
  rw [handle_frame, if_neg hopcode]
  split
  · rename_i hping
    obtain ⟨hincoming, hclosed, hwrite⟩ := enqueue_kept
      (s := { s with handled := s.handled ++ [(opcode, payload)] }) (hroom hping)
      (make_frame kOpPong (payload.take 125))
    exact ⟨(incoming_eq.mp hincoming).1, hclosed, hwrite⟩
  · exact ⟨rfl, rfl, fun _ _ h => .inr h⟩

/-- `handle_frame` is on record, with its opcode and payload. -/
theorem handle_frame_frame (payload : List UInt8) (opcode : UInt8) :
    (s.handle_frame payload opcode).received = s.received ∧
      (s.handle_frame payload opcode).handled = s.handled ++ [(opcode, payload)] ∧
      (s.handle_frame payload opcode).buffers = s.buffers := by
  unfold handle_frame
  dsimp only
  split
  · exact ⟨received_close _, handled_close _, buffers_close _⟩
  · split
    · exact enqueue_frame _ _
    · exact ⟨rfl, rfl, rfl⟩

end WsConnection

namespace Session

variable {calm : Prop} {s : Session} {conn : WsConnection}

/-- Only the incoming side and `closed_` matter. -/
theorem Reading.congr (h : s.Reading calm) (hincoming : conn.incoming = s.conn.incoming)
    (hclosed : conn.closed_ = s.conn.closed_) : Reading calm { s with conn } := by
  obtain ⟨hread, hreceived, hhandled, -⟩ := WsConnection.incoming_eq.mp hincoming
  unfold Reading at *
  dsimp only
  rw [hread, hreceived, hhandled, hclosed]
  exact h

/-- Closing the connection in a disturbed run aborts the pending read. -/
theorem Reading.close (h : s.Reading calm) (hcalm : ¬ calm) :
    Reading calm { s with conn := s.conn.close } := by
  unfold WsConnection.close
  split
  · exact h
  · unfold Reading at *
    dsimp only at *
    cases hread : s.conn.read with
    -- without a read under way there is nothing to end
    | none =>
        rw [hread] at h
        exact ⟨rfl, h.2⟩
    | some pending =>
        obtain ⟨stage, op⟩ := pending
        rw [hread] at h
        -- pending, failed or complete: the read ends as it would have
        rcases op with _ | _ | bytes
        · exact .inr ⟨fun hc => absurd hc hcalm, h.2.2⟩
        · exact h.imp (fun hstopped => ⟨rfl, hstopped.2⟩)
            (fun hat => ⟨fun hc => absurd hc hcalm, hat.2⟩)
        · exact ⟨h.1, fun hc => absurd hc hcalm, h.2.2⟩

end Session

/-! ## (4) What one event does -/

namespace Session

variable {calm : Prop} {s t : Session} {conn : WsConnection}

/-- A read that completed moves the position by what it decides. -/
theorem At.next {stream bytes unread : List UInt8} {handled : List (UInt8 × List UInt8)}
    {stage : ReadStage} (h : At stream handled stage (bytes ++ unread))
    (hlen : bytes.length = stage.wanted) :
    match stage.next bytes with
    | .read stage' => At stream handled stage' unread
    | .refuse => Stopped stream handled
    | .frame opcode payload =>
        if opcode = opClose then Stopped stream (handled ++ [(opcode, payload)])
        else At stream (handled ++ [(opcode, payload)]) .header unread := by
  obtain ⟨front, part, rfl, hparses, hreads⟩ := h
  have hdecides := reads_next hreads hlen
  have hstream : front ++ (part ++ (bytes ++ unread)) = front ++ (part ++ bytes) ++ unread := by
    simp only [List.append_assoc]
  -- what the stage decides is decided by the bytes read so far, whatever comes behind them
  cases hnext : stage.next bytes with
  | read stage' =>
      rw [hnext] at hdecides
      exact ⟨front, part ++ bytes, by rw [List.append_assoc], hparses, hdecides⟩
  | refuse =>
      rw [hnext] at hdecides
      refine ⟨_, unread, .refused, hstream, by decide, ?_⟩
      have hends := hparses.ends hdecides
      rwa [List.append_nil] at hends
  | frame opcode payload =>
      rw [hnext] at hdecides
      change if opcode = opClose then _ else _ at hdecides
      change if opcode = opClose then _ else _
      split
      · rename_i hclose
        rw [if_pos hclose] at hdecides
        exact ⟨_, unread, .closed, hstream, by decide, hparses.ends hdecides⟩
      · rename_i hother
        rw [if_neg hother] at hdecides
        exact ⟨front ++ (part ++ bytes), [], by rw [hstream, List.nil_append],
          hparses.frame hdecides, rfl⟩

/-- Bytes arrive. -/
theorem reading_arrive (h : s.Reading calm) (bytes : List UInt8)
    (hguard : calm → s.ended = false) :
    Reading calm
      { s with
        conn := { s.conn with received := s.conn.received ++ bytes }
        stream := s.stream ++ bytes } := by
  unfold Reading at *
  dsimp only at *
  -- more bytes can only come behind what was read, so the position stays
  cases hread : s.conn.read with
  | none =>
      rw [hread] at h
      refine ⟨h.1, h.2.imp (fun hstopped => hstopped.arrive bytes) ?_⟩
      rintro ⟨stage, hcalm, hat⟩
      exact ⟨stage, fun hc => absurd (hcalm hc).1 (by simp [hguard hc]), hat.arrive bytes⟩
  | some pending =>
      obtain ⟨stage, op⟩ := pending
      rw [hread] at h
      rcases op with _ | _ | read
      · exact ⟨h.1, h.2.1, h.2.2.arrive bytes⟩
      · refine h.imp (fun hstopped => ⟨hstopped.1, hstopped.2.arrive bytes⟩) ?_
        rintro ⟨hcalm, hat⟩
        exact ⟨fun hc => absurd (hcalm hc).2.1 (by simp [hguard hc]), hat.arrive bytes⟩
      · have hat := h.2.2.arrive bytes
        rw [List.append_assoc] at hat
        exact ⟨h.1, h.2.1, hat⟩

/-- The pending read takes its bytes. -/
theorem reading_read_ok (h : s.Reading calm)
    (hstep : s.conn.read_completes (.ok ()) = some conn) : Reading calm { s with conn } := by
  unfold WsConnection.read_completes at hstep
  split at hstep
  · rename_i hresult
    cases hresult
  · rename_i stage hread _
    split at hstep
    · -- the bytes move from the socket to the read, so the stream keeps its order
      rename_i hle
      cases hstep
      unfold Reading at *
      rw [hread] at h
      refine ⟨List.length_take_of_le hle, fun hc => ⟨h.1, h.2.1 hc⟩, ?_⟩
      dsimp only
      rw [List.take_append_drop]
      exact h.2.2
    · cases hstep
  · cases hstep

/-- The pending read fails. -/
theorem reading_read_error (h : s.Reading calm) {ec : ErrorCode}
    (hguard : calm → ∀ stage, s.conn.read = some (stage, .pending) →
      s.conn.received.length < stage.wanted)
    (hstep : s.conn.read_completes (.error ec) = some conn) :
    Reading calm { s with conn, ended := true } := by
  unfold WsConnection.read_completes at hstep
  split at hstep
  · rename_i stage _ hread _
    cases hstep
    -- the error ends the stream in the middle of what the read waits for
    unfold Reading at *
    rw [hread] at h
    exact .inr ⟨fun hc => ⟨h.1, rfl, hguard hc stage hread⟩, h.2.2⟩
  · rename_i hresult
    cases hresult
  · cases hstep

/-- A text is queued, or disconnects a slow client. -/
theorem reading_enqueue (h : s.Reading calm) (hguard : calm → s.conn.HasRoom)
    (bytes : List UInt8) : Reading calm { s with conn := s.conn.enqueue bytes } := by
  by_cases hroom : s.conn.HasRoom
  · obtain ⟨hincoming, hclosed, -⟩ := WsConnection.enqueue_kept hroom bytes
    exact h.congr hincoming hclosed
  · rw [WsConnection.enqueue_of_not_room hroom]
    exact h.close fun hc => hroom (hguard hc)

/-- A write ends. -/
theorem reading_run_write (h : s.Reading calm)
    (hfailed : calm → ∀ frame ec, s.conn.write = some (frame, .completed (.error ec)) →
      s.conn.closed_ = true)
    (hstep : s.conn.run_write = some conn) : Reading calm { s with conn } := by
  unfold WsConnection.run_write at hstep
  have hnone : Reading calm { s with conn := { s.conn with write := none } } := h.congr rfl rfl
  split at hstep
  · rename_i frame ec hwrite
    cases hstep
    -- the failed write closes the connection, unless it was closed before
    by_cases hclosed : s.conn.closed_ = true
    · rw [WsConnection.close, if_pos hclosed]
      exact hnone
    · exact hnone.close fun hc => hclosed (hfailed hc frame ec hwrite)
  · -- a write that went through leaves the reading side alone
    cases hstep
    obtain ⟨hincoming, hclosed, -⟩ :=
      ({ s.conn with write := none }.pop_front).write_next_kept
    exact h.congr hincoming hclosed
  · cases hstep

end Session

/-! ## (5) The handler of the read -/

/-- The frame that a decision completes. -/
def ReadStage.Next.frames : ReadStage.Next → List (UInt8 × List UInt8)
  | .read _ | .refuse => []
  | .frame opcode data => [(opcode, data)]

/-- Only the mask key of an empty frame and a payload complete a frame. -/
theorem ReadStage.next_eq_frame {stage : ReadStage} {bytes data : List UInt8} {opcode : UInt8}
    (h : stage.next bytes = .frame opcode data) :
    stage = .mask opcode 0 ∨ ∃ len mask_key, stage = .payload opcode len mask_key := by
  -- a length alone never makes a frame
  have hlength : ∀ opcode' masked len,
      next_with_length opcode' masked len ≠ .frame opcode data := by
    intro opcode' masked len hframe
    unfold next_with_length at hframe
    split at hframe
    · cases hframe
    · cases hframe
  cases stage with
  | header =>
      unfold next at h
      dsimp only at h
      split at h
      · cases h
      · split at h
        · cases h
        · exact (hlength _ _ _ h).elim
  | length opcode' masked size => exact (hlength _ _ _ h).elim
  | mask opcode' len =>
      unfold next at h
      dsimp only at h
      split at h
      · rename_i hempty
        obtain ⟨rfl, -⟩ := Next.frame.inj h
        exact .inl (by rw [hempty])
      · cases h
  | payload opcode' len mask_key =>
      obtain ⟨rfl, -⟩ := Next.frame.inj h
      exact .inr ⟨len, mask_key, rfl⟩

namespace WsConnection

/-- A read that completes a ping is the last one of it. -/
theorem endsPing_of_next {s : WsConnection} {stage : ReadStage} {bytes payload : List UInt8}
    (hread : s.read = some (stage, .completed (.ok bytes)))
    (hnext : stage.next bytes = .frame kOpPing payload) : s.EndsPing := by
  unfold EndsPing
  rw [hread]
  obtain rfl | ⟨len, mask_key, rfl⟩ := ReadStage.next_eq_frame hnext
  · exact ⟨rfl, rfl⟩
  · exact rfl

/-- The handler of a read closes after an error, and else does what the read decides. -/
theorem run_read_eq_some {s t : WsConnection} (h : s.run_read = some t) :
    (∃ stage ec, s.read = some (stage, .completed (.error ec)) ∧
        t = { s with read := none }.close) ∨
      ∃ stage bytes, s.read = some (stage, .completed (.ok bytes)) ∧
        t = { s with read := none, buffers := s.buffers ++ stage.allocates }.proceed
          (stage.next bytes) := by
  unfold run_read at h
  split at h
  · rename_i stage ec hread
    cases h
    exact .inl ⟨stage, ec, hread, rfl⟩
  · rename_i stage bytes hread
    cases h
    exact .inr ⟨stage, bytes, hread, read_done_eq ..⟩
  · cases h

/-- A decision reads nothing itself, is on record with its frame, and allocates nothing more. -/
theorem proceed_frame (s : WsConnection) (next : ReadStage.Next) :
    (s.proceed next).received = s.received ∧
      (s.proceed next).handled = s.handled ++ next.frames ∧
      (s.proceed next).buffers = s.buffers := by
  cases next with
  | read stage => exact ⟨rfl, (List.append_nil _).symm, rfl⟩
  | refuse =>
      exact ⟨s.received_close, s.handled_close.trans (List.append_nil _).symm, s.buffers_close⟩
  | frame opcode payload => exact s.handle_frame_frame payload opcode

end WsConnection

namespace Session

variable {calm : Prop} {s t : Session} {conn : WsConnection}

/-- A read that is started on the connection `conn`. -/
theorem reading_start_read {stage : ReadStage} (hconn : t.conn = conn.start_read stage)
    (hcalm : calm → conn.closed_ = false ∧ t.ended = false)
    (hat : At t.stream conn.handled stage conn.received) : t.Reading calm := by
  unfold Reading
  rw [hconn]
  cases hclosed : conn.closed_ with
  | false =>
      simp only [WsConnection.start_read, hclosed]
      exact ⟨trivial, fun hc => (hcalm hc).2, hat⟩
  | true =>
      simp only [WsConnection.start_read, hclosed]
      exact .inr ⟨fun hc => absurd (hcalm hc).1 (by simp [hclosed]), hat⟩

/-- A connection that was closed by the client's frames. -/
theorem reading_stopped (hclosed : t.conn.closed_ = true) (hstopped : Stopped t.stream t.conn.handled)
    (hread : ∀ stage op, t.conn.read = some (stage, op) → ∃ ec, op = .completed (.error ec)) :
    t.Reading calm := by
  unfold Reading
  cases hcase : t.conn.read with
  | none => exact ⟨hclosed, .inl hstopped⟩
  | some pending =>
      obtain ⟨stage, op⟩ := pending
      obtain ⟨ec, rfl⟩ := hread stage op hcase
      exact .inl ⟨hclosed, hstopped⟩

/-- A failed read closes the connection and leaves the loop where it stands. -/
theorem reading_failed {stage : ReadStage} {ec : ErrorCode} (h : s.Reading calm)
    (hread : s.conn.read = some (stage, .completed (.error ec)))
    (hconn : t.conn = WsConnection.close { s.conn with read := none })
    (hstream : t.stream = s.stream) (hended : t.ended = s.ended) : t.Reading calm := by
  unfold Reading at h
  rw [hread] at h
  have hnone : t.conn.read = none := by
    rw [hconn]
    exact WsConnection.read_close_of_none _ rfl
  have hreceived : t.conn.received = s.conn.received := by
    rw [hconn]
    exact WsConnection.received_close _
  have hhandled : t.conn.handled = s.conn.handled := by
    rw [hconn]
    exact WsConnection.handled_close _
  unfold Reading
  rw [hnone, hreceived, hhandled, hended, hstream]
  refine ⟨by rw [hconn]; exact WsConnection.closed_close _, ?_⟩
  -- after an error nothing is read any more, so the position is the last one
  rcases h with ⟨-, hstopped⟩ | ⟨hcalm, hat⟩
  · exact .inl hstopped
  · exact .inr ⟨stage, fun hc => (hcalm hc).2, hat⟩

/-- A refused frame closes the connection, and nothing more is read. -/
theorem reading_refused (hnone : conn.read = none) (hconn : t.conn = conn.close)
    (hstopped : Stopped t.stream conn.handled) : t.Reading calm := by
  have hread : t.conn.read = none := by
    rw [hconn]
    exact conn.read_close_of_none hnone
  refine reading_stopped ?_ ?_ fun stage op hop => ?_
  · rw [hconn]
    exact conn.closed_close
  · rw [hconn, WsConnection.handled_close]
    exact hstopped
  · rw [hread] at hop
    cases hop

/-- The close frame closes the connection, and the next read fails. -/
theorem reading_close_frame {payload : List UInt8}
    (hconn : t.conn = (conn.handle_frame payload kOpClose).read_frame_header)
    (hstopped : Stopped t.stream (conn.handled ++ [(kOpClose, payload)])) : t.Reading calm := by
  -- the close frame is handled by closing, so the next header is not waited for
  have hclosed : (conn.handle_frame payload kOpClose).closed_ = true :=
    WsConnection.closed_close _
  refine reading_stopped ?_ ?_ fun stage op hop => ?_
  · rw [hconn]
    exact hclosed
  · rw [hconn]
    change Stopped t.stream (conn.handle_frame payload kOpClose).handled
    rw [(conn.handle_frame_frame payload kOpClose).2.1]
    exact hstopped
  · rw [hconn, WsConnection.read_frame_header, WsConnection.start_read, hclosed] at hop
    cases hop
    exact ⟨bad_descriptor, rfl⟩

/-- After any other frame the next header is read. -/
theorem reading_other_frame {opcode : UInt8} {payload : List UInt8} (hopcode : opcode ≠ kOpClose)
    (hconn : t.conn = (conn.handle_frame payload opcode).read_frame_header)
    (hcalm : calm → conn.closed_ = false ∧ t.ended = false)
    (hroom : calm → opcode = kOpPing → conn.HasRoom)
    (hat : At t.stream (conn.handled ++ [(opcode, payload)]) .header conn.received) :
    t.Reading calm := by
  obtain ⟨hreceived, hhandled, -⟩ := conn.handle_frame_frame payload opcode
  refine reading_start_read hconn (fun hc => ⟨?_, (hcalm hc).2⟩) ?_
  · rw [(WsConnection.handle_frame_kept payload hopcode (hroom hc)).2.1]
    exact (hcalm hc).1
  · rw [hreceived, hhandled]
    exact hat

/-- **The handler of the read keeps the position.** -/
theorem reading_run_read (h : s.Reading calm) (hguard : calm → s.conn.EndsPing → s.conn.HasRoom)
    (hstep : s.conn.run_read = some t.conn) (hstream : t.stream = s.stream)
    (hended : t.ended = s.ended) : t.Reading calm := by
  rcases WsConnection.run_read_eq_some hstep with
    ⟨stage, ec, hread, hconn⟩ | ⟨stage, bytes, hread, hconn⟩
  · exact reading_failed h hread hconn hstream hended
  · have hposition := h
    unfold Reading at hposition
    rw [hread] at hposition
    obtain ⟨hlen, hcalm, hat⟩ := hposition
    have hnext := hat.next hlen
    rw [← hstream] at hnext
    rw [← hended] at hcalm
    -- one case for each thing that a stage can decide
    cases hcase : stage.next bytes with
    | read stage' =>
        rw [hcase] at hnext hconn
        exact reading_start_read hconn hcalm hnext
    | refuse =>
        rw [hcase] at hnext hconn
        exact reading_refused rfl hconn hnext
    | frame opcode payload =>
        rw [hcase] at hnext hconn
        dsimp only at hnext
        split at hnext
        · rename_i hclose
          obtain rfl : opcode = kOpClose := hclose
          exact reading_close_frame hconn hnext
        · rename_i hother
          refine reading_other_frame hother hconn hcalm ?_ hnext
          rintro hc rfl
          exact hguard hc (WsConnection.endsPing_of_next hread hcase)

end Session

end Ironpulse.Api
