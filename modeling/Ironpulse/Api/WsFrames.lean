import Ironpulse.Api.WsSession

/-! # Which frames a connection handles

`WsConnection` (`src/api/ws_server.cpp`) over whole runs: for any stream of bytes, any way in which they
arrive and any order of the handlers.

* **`Session.inv_step`**: what one event keeps.
* **`Session.exists_run_to_rest`**: the frame loop comes to rest.
* **`Session.handles_frames`**: the handled frames are those of the stream.
* **`Session.flood_disconnects`**: a client that does not take its pongs is disconnected. -/

namespace Ironpulse.Api

open StepMachine WebSocketFrame

/-! ## (1) The record after one event -/

namespace WsConnection

/-- No write of the outbox has failed, and a closed connection stays closed. -/
structure Sound (s t : WsConnection) : Prop where
  write : s.WriteKept t
  closed : s.closed_ = true → t.closed_ = true

/-- Two handlers in a row. -/
theorem Sound.trans {s t u : WsConnection} (h : s.Sound t) (h' : t.Sound u) : s.Sound u where
  write := fun frame ec hwrite => (h'.write frame ec hwrite).elim .inl fun hold =>
    (h.write frame ec hold).imp h'.closed id
  closed := fun hc => h'.closed (h.closed hc)

/-- A connection that is open now was open before. -/
theorem Sound.open_of_open {s t : WsConnection} (h : s.Sound t) (hopen : t.closed_ = false) :
    s.closed_ = false := by
  cases hclosed : s.closed_ with
  | false => rfl
  | true => exact absurd ((h.closed hclosed).symm.trans hopen) (by decide)

/-- `close()` lets the pending write fail on a connection that it closes. -/
theorem sound_close (s : WsConnection) : s.Sound s.close :=
  ⟨s.writeKept_close, fun _ => s.closed_close⟩

/-- `enqueue` queues its frame or closes. -/
theorem sound_enqueue (s : WsConnection) (bytes : List UInt8) : s.Sound (s.enqueue bytes) := by
  by_cases hroom : s.HasRoom
  · obtain ⟨-, hclosed, hwrite⟩ := enqueue_kept hroom bytes
    exact ⟨hwrite, fun h => hclosed.trans h⟩
  · rw [enqueue_of_not_room hroom]
    exact s.sound_close

/-- So does what follows a completed read. -/
theorem sound_proceed (s : WsConnection) (next : ReadStage.Next) : s.Sound (s.proceed next) := by
  cases next with
  | read stage => exact ⟨fun _ _ h => .inr h, id⟩
  | refuse => exact s.sound_close
  | frame opcode payload =>
      -- recording the frame touches nothing of the sending side
      have hframe : s.Sound (s.handle_frame payload opcode) := by
        have hrecord : s.Sound { s with handled := s.handled ++ [(opcode, payload)] } :=
          ⟨fun _ _ h => .inr h, id⟩
        unfold handle_frame
        dsimp only
        split
        · exact hrecord.trans (sound_close _)
        · split
          · exact hrecord.trans (sound_enqueue _ _)
          · exact hrecord
      exact ⟨hframe.write, hframe.closed⟩

/-- **Every event is sound** on a connection whose writes succeed. -/
theorem sound_step {s t : WsConnection} {e : Event} (h : s.step e = some t)
    (hok : ∀ ec, e ≠ .writeCompletes (.error ec)) : s.Sound t := by
  cases e with
  | arrive bytes =>
      cases h
      exact ⟨fun _ _ h => .inr h, id⟩
  | writeCompletes result =>
      unfold step at h
      dsimp only at h
      split at h
      · cases h
        refine ⟨fun frame ec hwrite => ?_, id⟩
        cases hwrite
        exact absurd rfl (hok ec)
      · cases h
  | readCompletes result =>
      simp only [step, read_completes] at h
      split at h
      · cases h
        exact ⟨fun _ _ h => .inr h, id⟩
      · split at h
        · cases h
          exact ⟨fun _ _ h => .inr h, id⟩
        · cases h
      · cases h
  | runText payload =>
      cases h
      exact s.sound_enqueue _
  | runWrite =>
      simp only [step, run_write] at h
      split at h
      · -- a write that failed closes the connection
        cases h
        exact ⟨fun _ _ _ => .inl (closed_close _), fun _ => closed_close _⟩
      · cases h
        obtain ⟨-, hclosed, hwrite⟩ := ({ s with write := none }.pop_front).write_next_kept
        refine ⟨fun frame ec hfailed => .inl ?_, fun hc => hclosed.trans hc⟩
        exact (hwrite frame ec hfailed).resolve_right (by rintro ⟨⟩)
      · cases h
  | runRead =>
      rcases run_read_eq_some h with ⟨_, _, _, rfl⟩ | ⟨stage, bytes, _, rfl⟩
      · have hsound := sound_close { s with read := none }
        exact ⟨hsound.write, hsound.closed⟩
      · have hsound := sound_proceed
          { s with read := none, buffers := s.buffers ++ stage.allocates } (stage.next bytes)
        exact ⟨hsound.write, hsound.closed⟩

/-- Only the handler of the read writes the history of the reads. -/
theorem history_of_step {s t : WsConnection} {e : Event} (h : s.step e = some t)
    (he : e ≠ .runRead) : t.handled = s.handled ∧ t.buffers = s.buffers := by
  cases e with
  | arrive bytes =>
      cases h
      exact ⟨rfl, rfl⟩
  | writeCompletes result =>
      unfold step at h
      dsimp only at h
      split at h
      · cases h
        exact ⟨rfl, rfl⟩
      · cases h
  | readCompletes result =>
      simp only [step, read_completes] at h
      split at h
      · cases h
        exact ⟨rfl, rfl⟩
      · split at h
        · cases h
          exact ⟨rfl, rfl⟩
        · cases h
      · cases h
  -- a text that the server sends is queued by the same `enqueue_frame` as a pong
  | runText payload =>
      cases h
      exact (s.enqueue_frame _).2
  | runWrite =>
      simp only [step, run_write] at h
      split at h
      · cases h
        exact ⟨handled_close _, buffers_close _⟩
      · cases h
        exact (incoming_eq.mp (write_next_kept _).1).2.2
      · cases h
  | runRead => exact absurd rfl he

/-- `enqueue` adds its frame to the outbox of a connection that stays open. -/
theorem added_enqueue {s : WsConnection} {bytes : List UInt8}
    (h : (s.enqueue bytes).closed_ = false) :
    ((s.enqueue bytes).outbox_.drop s.outbox_.length).map Frame.bytes = [bytes] := by
  by_cases hroom : s.HasRoom
  · rw [(enqueue_kept hroom bytes).2.1] at h
    have hlt := hroom.resolve_left (by simp [h])
    rw [enqueue, if_neg (by simp [h]), if_neg (Nat.not_le.mpr hlt), outbox_push_back,
      List.drop_left]
    rfl
  · rw [enqueue_of_not_room hroom, closed_close] at h
    cases h

/-- **A ping on a connection that stays open queues its pong**, and no other frame queues anything. -/
theorem added_handle_frame {s : WsConnection} {payload : List UInt8} {opcode : UInt8}
    (h : (s.handle_frame payload opcode).closed_ = false) :
    ((s.handle_frame payload opcode).outbox_.drop s.outbox_.length).map Frame.bytes =
      pongsOf [(opcode, payload)] := by
  unfold handle_frame at h ⊢
  dsimp only at h ⊢
  split at h
  · -- a close frame closes the connection, against the hypothesis
    rw [closed_close] at h
    cases h
  · rename_i hother
    rw [if_neg hother]
    split at h
    · -- a ping: its pong is what is added
      rename_i hping
      rw [if_pos hping]
      exact (added_enqueue h).trans (by simp [pongsOf, hping])
    · -- any other frame adds nothing
      rename_i hping
      rw [if_neg hping, List.drop_length]
      simp [pongsOf, hping]

/-- **The handler of a read answers its pings**: the frames it adds to the outbox are the pongs of the
frames that it handles. -/
theorem added_run_read {s t : WsConnection} (h : s.run_read = some t) (hopen : t.closed_ = false) :
    ∃ frames, t.handled = s.handled ++ frames ∧
      (t.outbox_.drop s.outbox_.length).map Frame.bytes = pongsOf frames := by
  rcases run_read_eq_some h with ⟨stage, ec, hread, rfl⟩ | ⟨stage, bytes, hread, rfl⟩
  · -- a failed read closes the connection, against the hypothesis
    rw [closed_close] at hopen
    cases hopen
  · refine ⟨_, (proceed_frame _ (stage.next bytes)).2.1, ?_⟩
    cases hcase : stage.next bytes with
    -- inside a frame nothing is queued
    | read stage' =>
        change (s.outbox_.drop s.outbox_.length).map Frame.bytes = []
        rw [List.drop_length]
        rfl
    | refuse =>
        rw [hcase, proceed, closed_close] at hopen
        cases hopen
    | frame opcode payload =>
        rw [hcase] at hopen
        exact added_handle_frame hopen

end WsConnection

/-! ## (2) Every run -/

/-- A connection that is open after an event was open before. -/
theorem WsConnection.open_of_step {s t : WsConnection} {e : WsConnection.Event}
    (h : s.step e = some t) (hopen : t.closed_ = false) : s.closed_ = false := by
  by_cases herror : ∃ ec, e = .writeCompletes (.error ec)
  · obtain ⟨ec, rfl⟩ := herror
    unfold step at h
    dsimp only at h
    split at h
    · cases h
      exact hopen
    · cases h
  · exact (sound_step h fun ec he => herror ⟨ec, he⟩).open_of_open hopen

namespace WsConnection

/-- A handler leaves no read or a new one. -/
theorem read_proceed {s : WsConnection} (h : s.read = none) (next : ReadStage.Next) :
    (s.proceed next).read = none ∨
      ∃ stage socketOpen, (s.proceed next).read = some (stage, AsyncOp.start socketOpen) := by
  cases next with
  | read stage => exact .inr ⟨stage, _, rfl⟩
  | refuse => exact .inl (s.read_close_of_none h)
  | frame opcode payload => exact .inr ⟨.header, _, rfl⟩

end WsConnection

namespace Session

variable {calm : Prop} {s t : Session} {e : WsConnection.Event}

/-- Only accepted lengths are allocated. -/
theorem At.allocates_le {stream unread : List UInt8} {handled : List (UInt8 × List UInt8)}
    {stage : ReadStage} (h : At stream handled stage unread) :
    ∀ size ∈ stage.allocates, size ≤ limit := by
  intro size hsize
  cases stage with
  | mask opcode len =>
      obtain ⟨front, part, -, -, header, -, -, -, -, hlimit⟩ := h
      rw [List.mem_singleton.mp hsize]
      exact hlimit
  | header => cases hsize
  | length opcode masked size => cases hsize
  | payload opcode len mask_key => cases hsize

/-- So the handler of a read keeps the bound on the buffers. -/
theorem buffers_run_read_le {conn : WsConnection} (h : s.Reading calm)
    (hbuffers : ∀ size ∈ s.conn.buffers, size ≤ limit) (hstep : s.conn.run_read = some conn) :
    ∀ size ∈ conn.buffers, size ≤ limit := by
  rcases WsConnection.run_read_eq_some hstep with
    ⟨stage, ec, hread, rfl⟩ | ⟨stage, bytes, hread, rfl⟩
  · rw [WsConnection.buffers_close]
    exact hbuffers
  · unfold Reading at h
    rw [hread] at h
    rw [(WsConnection.proceed_frame _ _).2.2]
    exact List.forall_mem_append.mpr ⟨hbuffers, h.2.2.allocates_le⟩

/-- **One event keeps the invariant**; the guard is needed only for what a disturbance breaks. -/
theorem inv_step (h : s.Inv calm) (hguard : calm → s.Undisturbed e)
    (hstep : s.step e = some t) : t.Inv calm := by
  have hconn := conn_of_step hstep
  have hopen := WsConnection.open_of_step hconn
  have hfailed : calm → ∀ frame ec, t.conn.write = some (frame, .completed (.error ec)) →
      t.conn.closed_ = true := by
    intro hc frame ec hwrite
    have hsound := WsConnection.sound_step hconn (by
      rintro ec' rfl
      cases hguard hc)
    exact (hsound.write frame ec hwrite).elim id fun hold =>
      hsound.closed (h.failed hc frame ec hold)
  -- without a read the history of the reads stays as it is
  have hhistory : e ≠ .runRead → (∀ size ∈ t.conn.buffers, size ≤ limit) ∧
      (t.conn.closed_ = false →
        s.pongs.map Frame.bytes = WsConnection.pongsOf t.conn.handled) := by
    intro he
    obtain ⟨hhandled, hbuffers⟩ := WsConnection.history_of_step hconn he
    rw [hbuffers, hhandled]
    exact ⟨h.buffers, fun ht => h.pongs (hopen ht)⟩
  rw [step, Option.map_eq_some_iff] at hstep
  obtain ⟨conn, hevent, rfl⟩ := hstep
  cases e with
  | arrive bytes =>
      cases hevent
      exact ⟨reading_arrive h.reading bytes hguard, hfailed, h.buffers, h.pongs⟩
  | writeCompletes result =>
      obtain ⟨hbuffers, hpongs⟩ := hhistory (by rintro ⟨⟩)
      refine ⟨?_, hfailed, hbuffers, hpongs⟩
      unfold WsConnection.step at hevent
      dsimp only at hevent
      split at hevent
      · cases hevent
        exact h.reading.congr rfl rfl
      · cases hevent
  | readCompletes result =>
      obtain ⟨hbuffers, hpongs⟩ := hhistory (by rintro ⟨⟩)
      rcases result with ec | _
      · exact ⟨reading_read_error h.reading hguard hevent, hfailed, hbuffers, hpongs⟩
      · exact ⟨reading_read_ok h.reading hevent, hfailed, hbuffers, hpongs⟩
  | runText payload =>
      obtain ⟨hbuffers, hpongs⟩ := hhistory (by rintro ⟨⟩)
      cases hevent
      exact ⟨reading_enqueue h.reading hguard _, hfailed, hbuffers, hpongs⟩
  | runWrite =>
      obtain ⟨hbuffers, hpongs⟩ := hhistory (by rintro ⟨⟩)
      exact ⟨reading_run_write h.reading h.failed hevent, hfailed, hbuffers, hpongs⟩
  | runRead =>
      refine ⟨reading_run_read h.reading hguard hevent rfl rfl, hfailed,
        buffers_run_read_le h.reading h.buffers hevent, fun ht => ?_⟩
      obtain ⟨frames, hhandled, hadded⟩ := WsConnection.added_run_read hevent ht
      dsimp only
      rw [List.map_append, h.pongs (hopen ht), hadded, hhandled, WsConnection.pongsOf_append]

/-- Handled frames are never others than those of the stream. -/
theorem Inv.handled_isPrefixOf (h : s.Inv calm) :
    s.conn.handled <+: (clientFrames limit s.stream).1 := by
  have hreading := h.reading
  -- once the reading has stopped, what was handled is all that the stream holds
  have hstopped : Stopped s.stream s.conn.handled →
      s.conn.handled <+: (clientFrames limit s.stream).1 := by
    intro hs
    obtain ⟨ending, -, hframes⟩ := hs.frames
    have hfst : (clientFrames limit s.stream).1 = s.conn.handled := congrArg Prod.fst hframes
    exact hfst ▸ List.prefix_rfl
  unfold Reading at hreading
  split at hreading
  · exact hreading.2.2.handled_isPrefixOf
  · exact hreading.2.2.handled_isPrefixOf
  · exact hreading.elim (fun hs => hstopped hs.2) fun hat => hat.2.handled_isPrefixOf
  · exact hreading.2.elim hstopped fun ⟨_, _, hat⟩ => hat.handled_isPrefixOf

/-- At rest in a run without disturbance all frames of the stream are handled. -/
theorem Inv.frames_of_rest (h : s.Inv True) (hrest : s.AtRest) :
    ∃ ending, clientFrames limit s.stream = (s.conn.handled, ending) ∧
      (s.conn.closed_ = true ↔ ending ≠ .cutOff ∨ s.ended = true) := by
  -- at rest, either no read is under way or one lacks bytes
  have hreading := h.reading
  unfold Reading at hreading
  rcases hrest with hnone | ⟨stage, hread, hlt⟩
  · rw [hnone] at hreading
    obtain ⟨hclosed, hstopped | ⟨stage, hcalm, hat⟩⟩ := hreading
    · obtain ⟨ending, hending, hframes⟩ := hstopped.frames
      exact ⟨ending, hframes, iff_of_true hclosed (.inl hending)⟩
    · obtain ⟨hended, hlt⟩ := hcalm trivial
      exact ⟨.cutOff, hat.frames_of_lt hlt, iff_of_true hclosed (.inr hended)⟩
  · rw [hread] at hreading
    -- the read waits for bytes that have not arrived
    obtain ⟨hopen, hended, hat⟩ := hreading
    refine ⟨.cutOff, hat.frames_of_lt hlt, iff_of_false (by simp [hopen]) ?_⟩
    simp [hended trivial]

/-- How far the loop is from rest. -/
def distance (s : Session) : Nat :=
  3 * s.conn.received.length +
    match s.conn.read with
    | some (_, .completed (.ok _)) => 2
    | some (_, .completed (.error _)) => 1
    | _ => 0

/-- Every read asks for bytes. -/
theorem At.wanted_pos {stream unread : List UInt8} {handled : List (UInt8 × List UInt8)}
    {stage : ReadStage} (h : At stream handled stage unread) : 0 < stage.wanted := by
  obtain ⟨front, part, -, -, hreads⟩ := h
  cases stage with
  | header => exact Nat.two_pos
  | length opcode masked size =>
      obtain ⟨first, second, -, -, -, hform, rfl⟩ := hreads
      change 0 < (LengthForm.ofField (second &&& 0x7F)).width
      generalize LengthForm.ofField (second &&& 0x7F) = form at hform
      cases form with
      | seven => exact absurd rfl hform
      | sixteen => decide
      | sixtyFour => decide
  | mask opcode len => exact Nat.succ_pos 3
  | payload opcode len mask_key =>
      -- an empty payload is never read for
      refine Nat.pos_of_ne_zero fun hzero => hreads.1 (UInt64.toNat_inj.mp ?_)
      exact hzero

/-- The handler of a read brings the loop nearer to rest, by what it starts. -/
theorem distance_run_read (h : s.step .runRead = some t) : t.distance < s.distance := by
  rcases WsConnection.run_read_eq_some (conn_of_step h) with
    ⟨stage, ec, hread, hconn⟩ | ⟨stage, bytes, hread, hconn⟩
  · -- a failed read takes one stage away and starts nothing
    have hnone : t.conn.read = none := by
      rw [hconn]
      exact WsConnection.read_close_of_none _ rfl
    have hreceived : t.conn.received = s.conn.received := by
      rw [hconn]
      exact WsConnection.received_close _
    rw [distance, distance, hread, hnone, hreceived]
    exact Nat.lt_succ_self _
  · have hreceived : t.conn.received = s.conn.received := by
      rw [hconn]
      exact (WsConnection.proceed_frame _ _).1
    rw [distance, distance, hread, hreceived, hconn]
    -- a read that starts as pending counts less than the completed one
    rcases WsConnection.read_proceed (s := { s.conn with
        read := none, buffers := s.conn.buffers ++ stage.allocates }) rfl (stage.next bytes) with
      hnone | ⟨stage', socketOpen, hstart⟩
    · rw [hnone]
      exact Nat.lt_add_of_pos_right Nat.two_pos
    · rw [hstart]
      cases socketOpen
      · exact Nat.add_lt_add_left Nat.one_lt_two _
      · exact Nat.lt_add_of_pos_right Nat.two_pos

/-- What can happen to the connection can happen to its record. -/
theorem exists_step {conn : WsConnection} (h : s.conn.step e = some conn)
    (he : ∀ bytes, e ≠ .arrive bytes) :
    ∃ t, s.step e = some t ∧ t.conn = conn ∧ t.stream = s.stream := by
  rw [step, h, Option.map_some]
  split
  · rename_i bytes
    exact absurd rfl (he bytes)
  all_goals exact ⟨_, rfl, rfl, rfl⟩

/-- The record of the handler of a read. -/
theorem step_run_read {conn : WsConnection} (h : s.conn.run_read = some conn) :
    s.step .runRead = some { s with
      conn, pongs := s.pongs ++ conn.outbox_.drop s.conn.outbox_.length } := by
  change s.conn.run_read.map _ = _
  rw [h]
  rfl

/-- A read whose bytes are there takes them. -/
theorem exists_read_ok {stage : ReadStage} (hread : s.conn.read = some (stage, .pending))
    (hpos : 0 < stage.wanted) (hle : stage.wanted ≤ s.conn.received.length) :
    ∃ t, s.step (.readCompletes (.ok ())) = some t ∧ t.stream = s.stream ∧
      t.distance < s.distance := by
  -- the socket holds enough bytes, so the read can complete
  have hevent : s.conn.step (.readCompletes (.ok ())) = some
      { s.conn with
        read := some (stage, .completed (.ok (s.conn.received.take stage.wanted)))
        received := s.conn.received.drop stage.wanted } := by
    change s.conn.read_completes (.ok ()) = _
    unfold WsConnection.read_completes
    rw [hread]
    exact if_pos hle
  obtain ⟨t, hstep, hconn, hstream⟩ := exists_step hevent (by rintro _ ⟨⟩)
  refine ⟨t, hstep, hstream, ?_⟩
  rw [distance, distance, hread, hconn]
  simp only [List.length_drop]
  omega

/-- The handler of a completed read can run. -/
theorem exists_run_read {stage : ReadStage} {result : Except ErrorCode (List UInt8)}
    (hread : s.conn.read = some (stage, .completed result)) :
    ∃ t, s.step .runRead = some t ∧ t.stream = s.stream := by
  have hevent : ∃ conn, s.conn.step .runRead = some conn := by
    change ∃ conn, s.conn.run_read = some conn
    rw [WsConnection.run_read, hread]
    rcases result with ec | bytes
    · exact ⟨_, rfl⟩
    · exact ⟨_, rfl⟩
  obtain ⟨conn, hevent⟩ := hevent
  obtain ⟨t, hstep, -, hstream⟩ := exists_step hevent (by rintro _ ⟨⟩)
  exact ⟨t, hstep, hstream⟩

/-- **The loop comes to rest** by its own reads, from every state of a run. -/
theorem exists_run_to_rest (h : s.Inv False) :
    ∃ reads t, (∀ e ∈ reads, e = .readCompletes (.ok ()) ∨ e = .runRead) ∧
      run step s reads = some t ∧ t.stream = s.stream ∧ t.AtRest := by
  induction hn : s.distance using Nat.strongRecOn generalizing s with
  | ind n ih =>
      subst hn
      by_cases hrest : s.AtRest
      · exact ⟨[], s, by simp, rfl, rfl, hrest⟩
      -- one event more, and then to rest
      obtain ⟨e, t, he, hstep, hstream, hlt⟩ : ∃ e t, (e = .readCompletes (.ok ()) ∨ e = .runRead) ∧
          s.step e = some t ∧ t.stream = s.stream ∧ t.distance < s.distance := by
        cases hread : s.conn.read with
        | none => exact absurd (.inl hread) hrest
        | some pending =>
            obtain ⟨stage, op⟩ := pending
            rcases op with _ | result
            · have hle : stage.wanted ≤ s.conn.received.length :=
                Nat.not_lt.mp fun hlt => hrest (.inr ⟨stage, hread, hlt⟩)
              have hreading := h.reading
              unfold Reading at hreading
              rw [hread] at hreading
              obtain ⟨t, hstep, hstream, hlt⟩ := exists_read_ok hread hreading.2.2.wanted_pos hle
              exact ⟨_, t, .inl rfl, hstep, hstream, hlt⟩
            · obtain ⟨t, hstep, hstream⟩ := exists_run_read hread
              exact ⟨_, t, .inr rfl, hstep, hstream, distance_run_read hstep⟩
      obtain ⟨reads, u, hreads, hrun, hstream', hrest'⟩ :=
        ih t.distance hlt (inv_step h False.elim hstep) rfl
      exact ⟨e :: reads, u, List.forall_mem_cons.mpr ⟨he, hreads⟩,
        (run_cons_eq_some step).mpr ⟨t, hstep, hrun⟩, hstream'.trans hstream, hrest'⟩

/-- **The frame loop parses the client's frames.** After any run the handled frames are a front of
those of the stream, no payload buffer is larger than the limit, and on an open connection each ping
was answered with one pong, in order. As long as nothing else disturbs the connection, a loop at rest
has handled exactly the frames of the stream, and the connection is closed where the stream ends with
a close frame, with a frame that is refused, or with the failed read at its end; and the loop comes to
rest. -/
theorem handles_frames {es : List WsConnection.Event} (h : run step start es = some s) :
    s.conn.handled <+: (clientFrames limit s.stream).1 ∧
      (∀ size ∈ s.conn.buffers, size ≤ limit) ∧
      (s.conn.closed_ = false →
        s.pongs.map Frame.bytes = WsConnection.pongsOf s.conn.handled) ∧
      (RunMeets step Undisturbed start es → s.AtRest →
        s.conn.handled = (clientFrames limit s.stream).1 ∧
          (s.conn.closed_ = true ↔
            (clientFrames limit s.stream).2 ≠ .cutOff ∨ s.ended = true)) ∧
      ∃ reads t, (∀ e ∈ reads, e = .readCompletes (.ok ()) ∨ e = .runRead) ∧
        run step s reads = some t ∧ t.stream = s.stream ∧ t.AtRest := by
  have hinv : s.Inv False := run_invariant (fun hs hstep => inv_step hs False.elim hstep) inv_start h
  refine ⟨hinv.handled_isPrefixOf, hinv.buffers, hinv.pongs, fun hcalm hrest => ?_,
    exists_run_to_rest hinv⟩
  have hinv' : s.Inv True := alongRun_of_runMeets id
    (fun hs hG hstep => inv_step hs (fun _ => hG) hstep) inv_start hcalm es s List.prefix_rfl h
  obtain ⟨ending, hframes, hclosed⟩ := hinv'.frames_of_rest hrest
  rw [hframes]
  exact ⟨rfl, hclosed⟩

/-! ## (3) One ping, and more than the outbox holds -/

/-- The bytes of one read are there: it completes, and its handler runs. -/
theorem run_read_events {stage : ReadStage} (bytes rest : List UInt8)
    (hread : s.conn.read = some (stage, .pending)) (hlen : bytes.length = stage.wanted)
    (hreceived : s.conn.received = bytes ++ rest) :
    ∃ t, run step s [.readCompletes (.ok ()), .runRead] = some t ∧
      t.conn = { s.conn with
        read := none
        received := rest
        buffers := s.conn.buffers ++ stage.allocates }.proceed (stage.next bytes) ∧
      t.stream = s.stream ∧ t.ended = s.ended := by
  have hcompletes : s.step (.readCompletes (.ok ())) = some { s with
      conn := { s.conn with read := some (stage, .completed (.ok bytes)), received := rest } } := by
    -- the bytes for the stage are there
    have hle : stage.wanted ≤ s.conn.received.length := by
      rw [hreceived, List.length_append, hlen]
      exact Nat.le_add_right _ _
    change (s.conn.read_completes (.ok ())).map _ = _
    unfold WsConnection.read_completes
    rw [hread]
    dsimp only
    rw [if_pos hle, hreceived, List.take_left' hlen, List.drop_left' hlen]
    rfl
  refine ⟨_, (run_cons_eq_some step).mpr ⟨_, hcompletes, rfl⟩, ?_, rfl, rfl⟩
  exact WsConnection.read_done_eq ..

/-- An empty ping with the mask key zero. -/
def ping : List UInt8 := [0x89, 0x80, 0, 0, 0, 0]

/-- It arrives, and its header and its mask key are read. -/
def ping_events : List WsConnection.Event :=
  .arrive ping :: ([.readCompletes (.ok ()), .runRead] ++ [.readCompletes (.ok ()), .runRead])

/-- The connection waits for a header, and no bytes are there. -/
def Waiting (s : Session) : Prop :=
  s.conn.read = some (.header, .pending) ∧ s.conn.received = [] ∧ s.conn.closed_ = false

/-- The ping is handled, and the next header is read. -/
theorem run_ping (h : s.Waiting) :
    ∃ t, run step s ping_events = some t ∧
      t.conn = ({ s.conn with read := none, buffers := s.conn.buffers ++ [0] }.handle_frame []
        kOpPing).read_frame_header ∧
      t.stream = s.stream ++ ping ∧ t.ended = s.ended := by
  obtain ⟨hread, hreceived, hclosed⟩ := h
  have hheader : ReadStage.header.next [0x89, 0x80] = .read (.mask kOpPing 0) := by decide
  have hmask : (ReadStage.mask kOpPing 0).next [0, 0, 0, 0] = .frame kOpPing [] := by decide
  have harrive : s.step (.arrive ping) = some { s with
      conn := { s.conn with received := s.conn.received ++ ping }
      stream := s.stream ++ ping } := rfl
  rw [hreceived, List.nil_append] at harrive
  -- the two bytes of the header, then the mask key
  obtain ⟨t, hrun, hconn, hstream, hended⟩ := run_read_events
    (s := { s with conn := { s.conn with received := ping }, stream := s.stream ++ ping })
    [0x89, 0x80] [0, 0, 0, 0] hread rfl rfl
  rw [hheader] at hconn
  have hpending : t.conn = { s.conn with
      read := some (.mask kOpPing 0, .pending), received := [0, 0, 0, 0] } := by
    rw [hconn, WsConnection.proceed, WsConnection.start_read, ReadStage.allocates, List.append_nil]
    dsimp only
    rw [hclosed]
    rfl
  have hread' : t.conn.read = some (.mask kOpPing 0, .pending) := by rw [hpending]
  obtain ⟨u, hrun', hconn', hstream', hended'⟩ :=
    run_read_events [0, 0, 0, 0] [] hread' rfl (by rw [hpending]; rfl)
  rw [hmask] at hconn'
  refine ⟨u, (run_cons_eq_some step).mpr ⟨_, harrive,
    (run_append_eq_some step).mpr ⟨t, hrun, hrun'⟩⟩, ?_, by rw [hstream', hstream],
    by rw [hended', hended]⟩
  rw [hconn', hpending, ← hreceived]
  rfl

/-- A pong that fits waits behind the frames of the outbox. -/
theorem length_outbox_ping (conn : WsConnection) (hopen : conn.closed_ = false)
    (hroom : conn.outbox_.length < kMaxQueuedFrames) (payload : List UInt8) :
    (conn.handle_frame payload kOpPing).outbox_.length = conn.outbox_.length + 1 := by
  rw [WsConnection.handle_frame, if_neg (by decide), if_pos rfl, WsConnection.enqueue,
    if_neg (by simp [hopen]), if_neg (Nat.not_le.mpr hroom), WsConnection.outbox_push_back]
  exact List.length_append ..

/-- The connection after `n` pings whose pongs were not taken. -/
structure Flooded (n : Nat) (s : Session) : Prop where
  waiting : s.Waiting
  outbox : s.conn.outbox_.length = n
  stream : s.stream = (List.replicate n ping).flatten
  handled : s.conn.handled = List.replicate n (kOpPing, [])
  ended : s.ended = false

/-- No ping has arrived yet. -/
theorem flooded_start : Flooded 0 start := ⟨⟨rfl, rfl, rfl⟩, rfl, rfl, rfl, rfl⟩

/-- One ping more, with its pong. -/
theorem flooded_ping {n : Nat} (h : Flooded n s) (hn : n < kMaxQueuedFrames) :
    ∃ t, run step s ping_events = some t ∧ Flooded (n + 1) t := by
  obtain ⟨t, hrun, hconn, hstream, hended⟩ := run_ping h.waiting
  obtain ⟨hread, hreceived, hclosed⟩ := h.waiting
  set conn : WsConnection := { s.conn with read := none, buffers := s.conn.buffers ++ [0] }
    with hping
  -- there is room for the pong, so the connection goes on
  have hroom : conn.HasRoom := .inr (h.outbox ▸ hn)
  obtain ⟨-, hclosed', -⟩ := WsConnection.handle_frame_kept []
    (by decide : kOpPing ≠ kOpClose) fun _ => hroom
  obtain ⟨hreceived', hhandled', -⟩ := conn.handle_frame_frame [] kOpPing
  refine ⟨t, hrun, ⟨?_, ?_, ?_⟩, ?_, ?_, ?_, hended.trans h.ended⟩
  · rw [hconn, WsConnection.read_frame_header, WsConnection.start_read, hclosed', hclosed]
    rfl
  · rw [hconn]
    exact hreceived'.trans hreceived
  · rw [hconn]
    exact hclosed'.trans hclosed
  · rw [hconn, ← h.outbox]
    exact length_outbox_ping conn hclosed (h.outbox ▸ hn) []
  · rw [hstream, h.stream, List.replicate_succ', List.flatten_append, List.flatten_singleton]
  · rw [hconn, List.replicate_succ', ← h.handled]
    exact hhandled'

/-- Pings up to the size of the outbox. -/
theorem exists_flooded {n : Nat} (hn : n ≤ kMaxQueuedFrames) :
    ∃ es s, run step start es = some s ∧ Flooded n s := by
  induction n with
  | zero => exact ⟨[], start, rfl, flooded_start⟩
  | succ n ih =>
      obtain ⟨es, s, hrun, hs⟩ := ih (Nat.le_of_succ_le hn)
      obtain ⟨t, hping, ht⟩ := flooded_ping hs hn
      exact ⟨es ++ ping_events, t, (run_append_eq_some step).mpr ⟨s, hrun, hping⟩, ht⟩

/-- A ping in front of a stream is its first frame. -/
theorem clientFrames_ping (rest : List UInt8) :
    clientFrames limit (ping ++ rest) =
      ((kOpPing, []) :: (clientFrames limit rest).1, (clientFrames limit rest).2) := by
  have hwidth : ([] : List UInt8).length = (LengthForm.ofField (0x80 &&& 0x7F)).width := by decide
  have hdec : decodeHeader (ping ++ rest) =
      some (header 0x89 0x80 [], [0, 0, 0, 0] ++ ([] ++ rest)) :=
    decodeHeader_append hwidth ([0, 0, 0, 0] ++ rest)
  exact clientFrames_of_frame hdec (by decide) (by decide) (by decide) (by decide)

/-- A stream of pings. -/
theorem clientFrames_pings (n : Nat) :
    clientFrames limit (List.replicate n ping).flatten =
      (List.replicate n (kOpPing, []), .cutOff) := by
  induction n with
  | zero => exact clientFrames_of_header_cut rfl
  | succ n ih => rw [List.replicate_succ, List.flatten_cons, clientFrames_ping, ih]; rfl

/-- After a failed read further bytes change nothing. -/
theorem run_after_failure {stage : ReadStage} {ec : ErrorCode}
    (hread : s.conn.read = some (stage, .completed (.error ec))) (bytes : List UInt8) :
    ∃ t, run step s [.arrive bytes, .runRead] = some t ∧ t.AtRest ∧ t.conn.closed_ = true ∧
      t.stream = s.stream ++ bytes ∧ t.conn.handled = s.conn.handled ∧ t.ended = s.ended := by
  set conn := { s.conn with received := s.conn.received ++ bytes } with hconn
  have hevent : conn.run_read = some { conn with read := none }.close := by
    rw [WsConnection.run_read, hconn]
    dsimp only
    rw [hread]
  have hstep := step_run_read (s := { s with conn, stream := s.stream ++ bytes }) hevent
  refine ⟨_, (run_cons_eq_some step).mpr ⟨_, rfl, (run_cons_eq_some step).mpr ⟨_, hstep, rfl⟩⟩,
    .inl (WsConnection.read_close_of_none _ rfl), WsConnection.closed_close _, rfl, ?_, rfl⟩
  exact WsConnection.handled_close _

/-- **A flood of pings** whose pongs the client does not take: 513 of 514 are handled, and the
connection is closed. -/
theorem flood_disconnects :
    ∃ es s, run step start es = some s ∧ s.AtRest ∧ s.ended = false ∧ s.conn.closed_ = true ∧
      clientFrames limit s.stream = (List.replicate 514 (kOpPing, []), .cutOff) ∧
      s.conn.handled = List.replicate 513 (kOpPing, []) := by
  obtain ⟨es, s, hrun, hs⟩ := exists_flooded (n := 512) (by decide)
  obtain ⟨t, hping, hconn, hstream, hended⟩ := run_ping hs.waiting
  set conn : WsConnection := { s.conn with read := none, buffers := s.conn.buffers ++ [0] }
  -- the pong of ping 513 finds a full outbox
  have hfull : ¬ conn.HasRoom := by
    rintro (hc | hlt)
    · exact absurd (hs.waiting.2.2.symm.trans hc) (by decide)
    · exact absurd (hs.outbox ▸ hlt) (by decide)
  have hclosed : (conn.handle_frame [] kOpPing).closed_ = true := by
    rw [WsConnection.handle_frame, if_neg (by decide), if_pos rfl,
      WsConnection.enqueue_of_not_room (by exact hfull)]
    exact WsConnection.closed_close _
  have hfailed : t.conn.read = some (.header, .completed (.error bad_descriptor)) := by
    rw [hconn, WsConnection.read_frame_header, WsConnection.start_read, hclosed]
    rfl
  have hhandled : t.conn.handled = s.conn.handled ++ [(kOpPing, [])] := by
    rw [hconn]
    exact (conn.handle_frame_frame [] kOpPing).2.1
  -- ping 514 arrives all the same
  obtain ⟨u, hlast, hrest, hclosed', hstream', hhandled', hended'⟩ :=
    run_after_failure hfailed ping
  refine ⟨es ++ ping_events ++ [.arrive ping, .runRead], u, (run_append_eq_some step).mpr
    ⟨t, (run_append_eq_some step).mpr ⟨s, hrun, hping⟩, hlast⟩, hrest,
    hended'.trans (hended.trans hs.ended), hclosed', ?_, ?_⟩
  · have hpings : u.stream = (List.replicate 514 ping).flatten := by
      rw [hstream', hstream, hs.stream, List.replicate_succ' (n := 513),
        List.replicate_succ' (n := 512), List.flatten_append, List.flatten_append,
        List.flatten_singleton]
    rw [hpings, clientFrames_pings]
  · rw [hhandled', hhandled, hs.handled, List.replicate_succ' (n := 512)]

/-- One ping on a connection that nothing disturbs. -/
theorem handles_frames_ping :
    ∃ s, run step start ping_events = some s ∧ RunMeets step Undisturbed start ping_events ∧
      s.AtRest ∧ s.conn.handled = (clientFrames limit s.stream).1 ∧
      s.conn.handled = [(kOpPing, [])] ∧ s.pongs.map Frame.bytes = [[0x8A, 0x00]] := by
  -- no event of this run closes or cuts off the connection
  have hmeets : RunMeets step Undisturbed start ping_events := by
    refine (runMeets_cons_of_step rfl).mpr ⟨rfl, ?_⟩
    refine (runMeets_cons_of_step rfl).mpr ⟨trivial, ?_⟩
    refine (runMeets_cons_of_step rfl).mpr ⟨fun _ => .inr (by decide), ?_⟩
    refine (runMeets_cons_of_step rfl).mpr ⟨trivial, ?_⟩
    exact (runMeets_cons_of_step rfl).mpr ⟨fun _ => .inr (by decide), runMeets_nil⟩
  obtain ⟨t, hrun, hconn, -, -⟩ := run_ping (s := start) ⟨rfl, rfl, rfl⟩
  have hrest : t.AtRest := .inr ⟨.header, by rw [hconn]; rfl, by rw [hconn]; decide⟩
  have hhandled : t.conn.handled = [(kOpPing, [])] := by rw [hconn]; decide
  obtain ⟨-, -, hpongs, hframes, -⟩ := handles_frames hrun
  have hpong := hpongs (by rw [hconn]; decide)
  rw [hhandled] at hpong
  exact ⟨t, hrun, hmeets, hrest, (hframes hmeets hrest).1, hhandled, hpong.trans (by decide)⟩

end Session

end Ironpulse.Api
