import Mathlib.Data.List.Defs
import Ironpulse.Protocol.Deadline
import Ironpulse.Protocol.Endings
import Ironpulse.Protocol.FrameAccess

/-! # What a callback receives, and in which state of the connection

* **`Aligned`**: what the reads of a call hold is the front of what the connection has delivered for
  it.
* **`Accepted`**: registers come from a well-formed reply at the front of these bytes, with the
  request's transaction id, and are at least as many as asked for; `alongRun_accepted` is that nothing
  else reaches a callback.
* **`ResetsBrokenStream`**: an error closes the connection unless the device answered with an
  exception; `resetsBrokenStream_iff` says when this holds. -/

namespace Ironpulse.Protocol

open StepMachine

namespace ModbusClient

variable {s t : ModbusClient} {e : Event}

/-! ## (1) The bytes of a reply -/

/-- What the reads of a call hold while the operation is in flight; a read that failed holds
nothing. -/
def taken (s : ModbusClient) : Operation → Option (List UInt8)
  | .write _ _ => some []
  | .readHeader _ .pending => some []
  | .readHeader _ (.completed (.ok header)) => some header
  | .readBody _ _ .pending => some s.read_buffer_
  | .readBody _ _ (.completed (.ok body)) => some (s.read_buffer_ ++ body)
  | _ => none

/-- What the reads of the call hold and what nobody has read yet are together what the connection has
delivered. A closed socket drops the unread part, but then nothing waits for it. -/
def Aligned (s : ModbusClient) : Prop :=
  ∀ operation bytes, s.operation = some operation → s.taken operation = some bytes →
    s.stream = bytes ++ s.received ∨
      (bytes <+: s.stream ∧ s.socketOpen = false ∧ operation.settled = true)

/-- With nothing in flight there is nothing to align. -/
theorem aligned_of_none (h : s.operation = none) : s.Aligned := by
  intro operation bytes hoperation
  rw [h] at hoperation
  cases hoperation

/-- What the reads hold is the front of what was delivered. -/
theorem Aligned.isPrefix (hs : s.Aligned) {operation : Operation} {bytes : List UInt8}
    (hop : s.operation = some operation) (htaken : s.taken operation = some bytes) :
    bytes <+: s.stream := by
  rcases hs operation bytes hop htaken with hopen | ⟨hfront, -⟩
  · rw [hopen]
    exact List.prefix_append _ _
  · exact hfront

/-- On an open socket, or while something waits, no byte has been lost. -/
theorem Aligned.stream_eq (hs : s.Aligned) {operation : Operation} {bytes : List UInt8}
    (hop : s.operation = some operation) (htaken : s.taken operation = some bytes)
    (hopen : s.socketOpen = true ∨ operation.settled = false) : s.stream = bytes ++ s.received := by
  rcases hs operation bytes hop htaken with heq | ⟨-, hclosed, hsettled⟩
  · exact heq
  · rw [hclosed, hsettled] at hopen
    rcases hopen with h | h <;> cases h

/-- Closing the socket settles the reads that wait and keeps what the others hold. -/
theorem taken_closeSocket {operation : Operation} {bytes : List UInt8}
    (h : s.taken operation.closeSocket = some bytes) :
    s.taken operation = some bytes ∧ operation.closeSocket.settled = true := by
  cases operation with
  | resolve op => cases h
  | connect op => cases h
  -- an operation that is not a read has taken nothing
  | write request op => exact ⟨h, by simp [Operation.closeSocket, Operation.settled]⟩
  | readHeader request op =>
      cases op with
      | pending => cases h
      | completed result => exact ⟨h, rfl⟩
  | readBody request remaining op =>
      cases op with
      | pending => cases h
      | completed result => exact ⟨h, rfl⟩

/-- Cancelling the resolver changes nothing about the reads. -/
theorem taken_cancelResolve (operation : Operation) :
    s.taken operation.cancelResolve = s.taken operation := by
  cases operation <;> rfl

/-- A closed socket keeps what the reads hold aligned. -/
theorem Aligned.close_socket (hs : s.Aligned) : s.close_socket.Aligned := by
  intro operation bytes hoperation htaken
  obtain ⟨operation', hop, rfl⟩ := Option.map_eq_some_iff.mp hoperation
  obtain ⟨htaken', hsettled⟩ := taken_closeSocket htaken
  exact .inr ⟨hs.isPrefix hop htaken', rfl, hsettled⟩

/-- A call starts with what nobody has read. -/
theorem aligned_call (hnone : s.operation = none) (command : Command) :
    (s.call command).Aligned := by
  unfold call
  dsimp only
  -- a connect begins: there is no request, and nothing taken
  split
  · intro operation bytes hoperation htaken
    obtain rfl := Option.some.inj hoperation
    cases htaken
  · unfold send_request
    split
    · exact aligned_of_none hnone
    · -- a request begins: what has arrived since belongs to it
      intro operation bytes hoperation htaken
      obtain rfl := Option.some.inj hoperation
      obtain rfl := Option.some.inj htaken
      exact .inl rfl

/-- A read that completes has taken its bytes off the front of what was unread. -/
theorem aligned_completes {result : Except ErrorCode Unit} (hs : s.Aligned)
    (h : s.completes result = some t) : t.Aligned := by
  -- what a read has taken goes from the bytes received to the operation
  have hread : ∀ wanted operation (start : Operation) bytes, s.operation = some start →
      s.taken start = some bytes → start.settled = false →
      (∀ ec, s.taken (operation (.completed (.error ec))) = none) →
      (∀ taken, s.taken (operation (.completed (.ok taken))) = some (bytes ++ taken)) →
      s.readCompletes wanted result operation = some t → t.Aligned := by
    intro wanted operation start bytes hstart htaken hpending herror hok ht
    cases result with
    | error ec =>
        rw [← Option.some.inj ht]
        intro operation' bytes' hop' htaken'
        obtain rfl := Option.some.inj hop'
        cases (herror ec).symm.trans htaken'
    | ok u =>
        obtain ⟨-, ht⟩ := Option.ite_none_right_eq_some.mp ht
        rw [← Option.some.inj ht]
        intro operation' bytes' hop' htaken'
        obtain rfl := Option.some.inj hop'
        obtain rfl := Option.some.inj ((hok _).symm.trans htaken')
        left
        rw [List.append_assoc, List.take_append_drop]
        exact hs.stream_eq hstart htaken (.inr hpending)
  unfold completes at h
  split at h
  · rw [← Option.some.inj h]
    intro operation bytes hoperation htaken
    obtain rfl := Option.some.inj hoperation
    cases htaken
  · rw [← Option.some.inj h]
    intro operation bytes hoperation htaken
    obtain rfl := Option.some.inj hoperation
    cases htaken
  · -- the header's read begins with nothing taken
    rename_i request hop
    rw [← Option.some.inj h]
    intro operation bytes hoperation htaken
    obtain rfl := Option.some.inj hoperation
    obtain rfl := Option.some.inj htaken
    exact .inl (hs.stream_eq hop rfl (.inr rfl))
  · rename_i request hop
    exact hread _ _ _ [] hop rfl rfl (fun _ => rfl) (fun _ => rfl) h
  · rename_i request remaining hop
    exact hread _ _ _ s.read_buffer_ hop rfl rfl (fun _ => rfl) (fun _ => rfl) h
  · cases h

/-- A read starts where the write or the read before it stopped. -/
theorem aligned_link (hs : s.Aligned) {operation : Operation} {bytes : List UInt8}
    (hop : s.operation = some operation) (htaken : s.taken operation = some bytes)
    {read : AsyncOp (List UInt8) → Operation} (hpending : t.taken (read .pending) = some bytes)
    (hfailed : ∀ ec, t.taken (read (.completed (.error ec))) = none)
    (hread : t.operation = some (read (AsyncOp.start s.socketOpen))) (hstream : t.stream = s.stream)
    (hreceived : t.received = s.received) : t.Aligned := by
  intro operation' bytes' hop' htaken'
  obtain rfl := Option.some.inj (hread.symm.trans hop')
  cases hopen : s.socketOpen with
  -- the socket is open: the next read begins where the last one ended
  | true =>
      rw [hopen, AsyncOp.start_true, hpending] at htaken'
      left
      rw [hstream, hreceived, ← Option.some.inj htaken']
      exact hs.stream_eq hop htaken (.inl hopen)
  -- the socket is closed: the next read fails and takes nothing
  | false =>
      rw [hopen] at htaken'
      cases (hfailed _).symm.trans htaken'

/-- After the header the body is read, behind it. -/
theorem aligned_header_done {request : ModbusRequest} {result : Except ErrorCode (List UInt8)}
    (hs : s.Aligned) (hop : s.operation = some (.readHeader request (.completed result))) :
    (({ s with operation := none } : ModbusClient).header_done request result).Aligned := by
  cases result with
  | error ec => exact aligned_of_none rfl
  | ok header =>
      rw [header_done]
      dsimp only
      split
      · exact aligned_of_none rfl
      · split
        · exact aligned_of_none rfl
        · exact aligned_link hs hop rfl rfl (fun _ => rfl) rfl rfl rfl

/-- The handler of the operation in flight keeps the reads aligned. -/
theorem aligned_runHandler (hs : s.Aligned) (h : s.runHandler = some t) : t.Aligned := by
  unfold runHandler at h
  split at h
  · rename_i result hop
    rw [← Option.some.inj h]
    cases result with
    | error ec => exact aligned_of_none rfl
    | ok u =>
        -- the connect begins with a fresh stream
        intro operation bytes hoperation htaken
        obtain rfl := Option.some.inj hoperation
        cases htaken
  · rename_i result hop
    rw [← Option.some.inj h]
    cases result <;> exact aligned_of_none rfl
  · rename_i request result hop
    rw [← Option.some.inj h]
    cases result with
    | error ec => exact aligned_of_none rfl
    | ok u => exact aligned_link hs hop rfl rfl (fun _ => rfl) rfl rfl rfl
  · rename_i request result hop
    rw [← Option.some.inj h]
    exact aligned_header_done hs hop
  · rename_i request remaining result hop
    rw [← Option.some.inj h]
    exact aligned_of_none (operation_body_done request result)
  · cases h

/-- The handler of a wait closes the socket or leaves the reads alone. -/
theorem aligned_runDeadline {wait : Wait} (hs : s.Aligned) (h : s.runDeadline wait = some t) :
    t.Aligned := by
  unfold runDeadline at h
  split at h
  · cases h
  · obtain ⟨-, ht⟩ := Option.ite_none_right_eq_some.mp h
    rw [← Option.some.inj ht]
    unfold expire
    split
    · exact hs
    · -- cancelling a resolve takes no bytes
      split
      · exact hs
      · apply Aligned.close_socket
        intro operation bytes hoperation htaken
        obtain ⟨operation', hop, rfl⟩ := Option.map_eq_some_iff.mp hoperation
        rcases hs operation' bytes hop ((taken_cancelResolve operation').symm.trans htaken) with
          hstream | ⟨hfront, hclosed, hsettled⟩
        · exact .inl hstream
        · refine .inr ⟨hfront, hclosed, ?_⟩
          cases operation' with
          | resolve op => cases htaken
          | connect op => cases htaken
          | write request op => exact hsettled
          | readHeader request op => exact hsettled
          | readBody request remaining op => exact hsettled

/-- **One event keeps the reads aligned** with what the connection delivers. -/
theorem aligned_step (hs : s.Aligned) (h : step s e = some t) : t.Aligned := by
  cases e with
  | call command =>
      obtain ⟨hnone, ht⟩ := Option.ite_none_right_eq_some.mp h
      rw [← Option.some.inj ht]
      exact aligned_call (Option.isNone_iff_eq_none.mp hnone) command
  | close =>
      rw [← Option.some.inj h]
      have hquiet : ({ s with closeCalled := true } : ModbusClient).disarm_deadline.Aligned := hs
      exact hquiet.close_socket
  | arrive bytes =>
      obtain ⟨hopen, ht⟩ := Option.ite_none_right_eq_some.mp h
      rw [← Option.some.inj ht]
      -- what arrives comes behind what was received, in the stream as in the socket
      intro operation held hop htaken
      left
      have heq : s.stream = held ++ s.received := hs.stream_eq hop htaken (.inl hopen)
      rw [heq, List.append_assoc]
  | completes result => exact aligned_completes hs h
  | runHandler => exact aligned_runHandler hs h
  | deadlinePasses =>
      rw [← Option.some.inj h]
      exact hs
  | runDeadline wait => exact aligned_runDeadline hs h

/-- A new client has nothing in flight. -/
theorem aligned_create (timeout : Core.Milliseconds) : (create timeout).Aligned :=
  aligned_of_none rfl

/-- A reply that the client decodes is the front of what the connection delivered for the call. -/
theorem Aligned.exists_reply (hs : s.Aligned) {request : ModbusRequest} {remaining : Nat}
    {body : List UInt8} {response : ModbusResponse}
    (hop : s.operation = some (.readBody request remaining (.completed (.ok body))))
    (hdecoded : decode_response (s.read_buffer_ ++ body) = some response) :
    ∃ reply : Reply, reply.bytes <+: s.stream ∧ reply.response = response := by
  obtain ⟨reply, hbytes, hresponse⟩ := decode_response_eq_some_iff.mp hdecoded
  exact ⟨reply, hbytes ▸ hs.isPrefix hop rfl, hresponse⟩

/-- Two replies at the front of one stream are the same bytes. -/
theorem response_eq_of_isPrefix {stream : List UInt8} {reply reply' : Reply}
    (h : reply.bytes <+: stream) (h' : reply'.bytes <+: stream) :
    reply.response = reply'.response := by
  have hdecoded := decode_response_eq_some_iff.mpr ⟨reply, rfl, rfl⟩
  have hdecoded' := decode_response_eq_some_iff.mpr ⟨reply', rfl, rfl⟩
  have hbytes : reply.bytes = reply'.bytes := by
    rcases List.prefix_or_prefix_of_prefix h h' with hprefix | hprefix
    · exact eq_of_prefix_of_decode_response hprefix hdecoded hdecoded'
    · exact (eq_of_prefix_of_decode_response hprefix hdecoded' hdecoded).symm
  rw [hbytes, hdecoded'] at hdecoded
  exact (Option.some.inj hdecoded).symm

/-! ## (2) Which replies are accepted -/

/-- Registers reach the callback of a read only as its own result, and enough of them. -/
theorem outcome_eq_read {request request' : ModbusRequest} {result result' : RegistersResult}
    (h : outcome request result = .read request' result') :
    request' = request ∧ request.function ≠ .write_single_register ∧
      result' = check_quantity request.quantity_or_value result := by
  unfold outcome at h
  cases hfunction : request.function <;> rw [hfunction] at h
  case write_single_register => cases h
  all_goals
    obtain ⟨rfl, rfl⟩ := Outcome.read.inj h
    exact ⟨rfl, by simp, rfl⟩

/-- A result passes the check when there are enough registers. -/
theorem check_quantity_eq_ok {quantity : UInt16} {result : RegistersResult} {regs : List UInt16}
    (h : check_quantity quantity result = .ok regs) :
    result = .ok regs ∧ quantity.toNat ≤ regs.length := by
  cases result with
  | error error => cases h
  | ok regs' =>
      unfold check_quantity at h
      dsimp only at h
      split at h
      · cases h
      · rename_i hlength
        obtain rfl := Except.ok.inj h
        exact ⟨rfl, Nat.not_lt.mp hlength⟩

/-- A result fails the check when there are too few. -/
theorem check_quantity_eq_error {quantity : UInt16} {regs : List UInt16} {error : ModbusError}
    (h : check_quantity quantity (.ok regs) = .error error) : regs.length < quantity.toNat := by
  unfold check_quantity at h
  dsimp only at h
  split at h
  · assumption
  · cases h

/-- The callback of a read receives only the registers of a well-formed non-exception reply (to a
read or a write) that the connection delivered for this call, with the read's transaction id, and at
least as many as it asked for. -/
def Accepted (d : Delivery) : Prop :=
  ∀ request regs, d.outcome = .read request (.ok regs) →
    ∃ reply : Reply, reply.bytes <+: d.stream ∧ reply.response.is_exception = false ∧
      reply.transaction_id = request.transaction_id ∧ reply.response.registers = regs ∧
      request.quantity_or_value.toNat ≤ regs.length

/-- Every ending accepts only what belongs to its transaction. -/
theorem accepted_of_ending {s : ModbusClient} {call : Nat} {d : Delivery} (hs : s.Aligned)
    (h : Ending s call d) : Accepted d := by
  intro request regs houtcome
  cases h with
  | connected success isConnected stream => cases houtcome
  | failed request' message stream =>
      -- a failure and an exception are no registers
      obtain ⟨-, -, hresult⟩ := outcome_eq_read houtcome
      cases hresult
  | exception message operation decoded same_id is_exception =>
      obtain ⟨-, -, hresult⟩ := outcome_eq_read houtcome
      cases hresult
  | registers operation decoded same_id no_exception =>
      -- the bytes since the request begin with a reply that names this transaction
      obtain ⟨rfl, -, hresult⟩ := outcome_eq_read houtcome
      obtain ⟨hregs, hquantity⟩ := check_quantity_eq_ok hresult.symm
      obtain ⟨reply, hprefix, rfl⟩ := hs.exists_reply operation decoded
      refine ⟨reply, hprefix, no_exception, ?_, Except.ok.inj hregs, hquantity⟩
      rw [← reply.transaction_id_response]
      exact same_id

/-- One event delivers nothing that is not accepted. -/
theorem accepted_step (hs : s.Aligned ∧ ∀ d ∈ s.delivered, Accepted d) (h : step s e = some t) :
    t.Aligned ∧ ∀ d ∈ t.delivered, Accepted d := by
  refine ⟨aligned_step hs.1 h, fun d hd => ?_⟩
  rcases delivered_step h with hsame | ⟨call, d', hending, hdelivered, -⟩
  · exact hs.2 d (hsame ▸ hd)
  · rw [hdelivered] at hd
    rcases List.mem_append.mp hd with hold | hnew
    · exact hs.2 d hold
    · rw [List.mem_singleton.mp hnew]
      exact accepted_of_ending hs.1 hending

/-- **Every reply that a read accepts stands at the front of the bytes that the connection delivered
for it, is well formed and no exception, carries the read's transaction id and holds enough
registers**, for every run and all bytes that the device sends. -/
theorem alongRun_accepted (timeout : Core.Milliseconds) (es : List Event) :
    AlongRun step (fun s => ∀ d ∈ s.delivered, Accepted d) (create timeout) es := by
  intro fs t _ ht
  exact (run_invariant accepted_step
    ⟨aligned_create timeout, fun d hd => absurd hd List.not_mem_nil⟩ ht).2

/-- The stricter match that is not checked: a reply to this read, from this unit, with this function
code and exactly as many registers. -/
def AcceptedExactly (d : Delivery) : Prop :=
  ∀ request regs, d.outcome = .read request (.ok regs) →
    ∃ reply : Reply, reply.bytes <+: d.stream ∧ reply.response.is_exception = false ∧
      reply.response.function = request.function ∧ reply.unit_id = request.unit_id ∧
      reply.transaction_id = request.transaction_id ∧ reply.response.registers = regs ∧
      regs.length = request.quantity_or_value.toNat

/-- A connect, then a call whose request is answered with the bytes `frame`. -/
def exchange (command : Command) (frame : List UInt8) : List Event :=
  [.call .connect, .completes (.ok ()), .runHandler, .completes (.ok ()), .runHandler,
    .call command, .completes (.ok ()), .runHandler, .arrive frame,
    .completes (.ok ()), .runHandler, .completes (.ok ()), .runHandler]

/-- Replies to transaction 1 when register 0 of unit 1 was asked for: from unit 9, from the other
table, with a second register, and the echo of a write. -/
def foreignReplies : List (List UInt8) :=
  [[0, 1, 0, 0, 0, 5, 9, 3, 2, 0, 42], [0, 1, 0, 0, 0, 5, 1, 4, 2, 0, 42],
    [0, 1, 0, 0, 0, 7, 1, 3, 4, 0, 42, 0, 43], [0, 1, 0, 0, 0, 6, 1, 6, 0, 0, 0, 42]]

/-- Each of them is accepted as the answer. -/
theorem not_acceptedExactly_foreign :
    foreignReplies.Forall fun frame => ∃ t d,
      run step (create 3000) (exchange (.read_holding_registers 1 0 1) frame) = some t ∧
        t.delivered.getLast? = some d ∧ ¬ AcceptedExactly d := by
  -- the stream is the frame, and no other reply is a prefix of it
  have hrefuted : ∀ {d : Delivery} {request : ModbusRequest} {regs : List UInt16}
      {frame : List UInt8} {response : ModbusResponse},
      d.outcome = .read request (.ok regs) → d.stream = frame →
      decode_response frame = some response →
      ¬ (response.function = request.function ∧ response.unit_id = request.unit_id ∧
        regs.length = request.quantity_or_value.toNat) → ¬ AcceptedExactly d := by
    intro d request regs frame response houtcome hstream hdecode hne haccepted
    obtain ⟨reply, hprefix, -, hfunction, hunit, -, -, hcount⟩ := haccepted request regs houtcome
    obtain ⟨sent, rfl, rfl⟩ := decode_response_eq_some_iff.mp hdecode
    have hresponse : reply.response = sent.response :=
      response_eq_of_isPrefix (hstream ▸ hprefix) List.prefix_rfl
    rw [← hresponse] at hne
    exact hne ⟨hfunction, reply.unit_id_response.trans hunit, hcount⟩
  refine ⟨?_, ?_, ?_, ?_⟩
  · exact ⟨_, _, rfl, rfl, hrefuted rfl rfl rfl (by decide)⟩
  · exact ⟨_, _, rfl, rfl, hrefuted rfl rfl rfl (by decide)⟩
  · exact ⟨_, _, rfl, rfl, hrefuted rfl rfl rfl (by decide)⟩
  · exact ⟨_, _, rfl, rfl, hrefuted rfl rfl rfl (by decide)⟩

/-! ## (3) When an error closes the connection -/

/-- An error reaches the callback of a read with the connection closed, unless the connection
delivered a well-formed exception reply with its transaction id. -/
def Resets (d : Delivery) : Prop :=
  ∀ request error, d.outcome = .read request (.error error) → d.connected = false ∨
    ∃ reply : Reply, reply.bytes <+: d.stream ∧ reply.response.is_exception = true ∧
      reply.transaction_id = request.transaction_id

/-- All errors so far have closed the connection. -/
def ResetsBrokenStream (s : ModbusClient) : Prop := ∀ d ∈ s.delivered, Resets d

/-- A connected client handles a well-formed answer to its read with fewer registers than asked
for. -/
def HandlesShortReply (s : ModbusClient) (e : Event) : Prop :=
  e = .runHandler ∧ s.connected_ = true ∧ ∃ request remaining body response,
    s.operation = some (.readBody request remaining (.completed (.ok body))) ∧
    request.function ≠ .write_single_register ∧
    decode_response (s.read_buffer_ ++ body) = some response ∧
    response.transaction_id = request.transaction_id ∧ response.is_exception = false ∧
    response.registers.length < request.quantity_or_value.toNat

/-- An event that handles no short reply resets every broken stream. -/
theorem resets_step {s t : ModbusClient} {e : Event} (hs : s.Aligned ∧ s.ResetsBrokenStream)
    (hG : ¬ s.HandlesShortReply e) (h : step s e = some t) : t.Aligned ∧ t.ResetsBrokenStream := by
  refine ⟨aligned_step hs.1 h, fun d hd => ?_⟩
  rcases delivered_step h with hsame | ⟨call, d', hending, hdelivered, hevent⟩
  · exact hs.2 d (hsame ▸ hd)
  rw [hdelivered] at hd
  rcases List.mem_append.mp hd with hold | hnew
  · exact hs.2 d hold
  rw [List.mem_singleton.mp hnew]
  intro request error houtcome
  cases hending with
  | connected success isConnected stream => cases houtcome
  | failed request' message stream => exact .inl rfl
  | exception message operation decoded same_id is_exception =>
      obtain ⟨rfl, -, -⟩ := outcome_eq_read houtcome
      obtain ⟨reply, hprefix, rfl⟩ := hs.1.exists_reply operation decoded
      refine .inr ⟨reply, hprefix, is_exception, ?_⟩
      rw [← reply.transaction_id_response]
      exact same_id
  | registers operation decoded same_id no_exception =>
      obtain ⟨rfl, hread, hresult⟩ := outcome_eq_read houtcome
      left
      by_contra hconnected
      -- only the handler of the body sees an operation in this state
      have hrun : e = .runHandler := by
        rcases hevent with hrun | ⟨command, rfl⟩
        · exact hrun
        · obtain ⟨hnone, -⟩ := Option.ite_none_right_eq_some.mp h
          rw [operation] at hnone
          cases hnone
      exact hG ⟨hrun, Bool.not_eq_false _ ▸ hconnected, _, _, _, _, operation, hread, decoded,
        same_id, no_exception, check_quantity_eq_error hresult.symm⟩

/-- A short reply leaves the connection open. -/
theorem not_resets_of_short {s t : ModbusClient} {e : Event} (hs : s.Aligned)
    (hG : s.HandlesShortReply e) (h : step s e = some t) : ¬ t.ResetsBrokenStream := by
  obtain ⟨rfl, hconnected, request, remaining, body, response, hop, hread, hdecode, hid, hexc,
    hshort⟩ := hG
  have ht : s.runHandler = some t := h
  rw [runHandler, hop] at ht
  obtain rfl := Option.some.inj ht
  have hbody : (({ s with operation := none } : ModbusClient).body_done request
      (.ok body)).delivered = s.delivered ++
        [⟨s.calls, outcome request (.ok response.registers), s.connected_, s.stream⟩] := by
    rw [body_done]
    dsimp only [disarm_deadline]
    rw [hdecode]
    dsimp only
    rw [if_neg (not_not.mpr hid), if_neg (by rw [hexc]; exact Bool.false_ne_true)]
    rfl
  intro hresets
  have hmem : _ ∈ (({ s with operation := none } : ModbusClient).body_done request
      (.ok body)).delivered := hbody ▸ List.mem_append_right _ (List.mem_singleton_self _)
  have houtcome : ∃ error, outcome request (.ok response.registers) = .read request (.error error) := by
    unfold outcome check_quantity
    dsimp only
    rw [if_pos hshort]
    cases hfunction : request.function with
    | write_single_register => exact absurd hfunction hread
    | read_holding_registers => exact ⟨_, rfl⟩
    | read_input_registers => exact ⟨_, rfl⟩
  obtain ⟨error, houtcome⟩ := houtcome
  rcases hresets _ hmem request error houtcome with hclosed | ⟨reply, hprefix, hexception, -⟩
  · rw [hconnected] at hclosed
    cases hclosed
  · -- the reply that was decoded is the only one at the front of the stream
    obtain ⟨decoded, hfront, rfl⟩ := hs.exists_reply hop hdecode
    rw [response_eq_of_isPrefix hprefix hfront, hexc] at hexception
    cases hexception

/-- **Every error of a read closes the connection, an exception reply apart, exactly when no short
reply is handled while connected**, along every run. -/
theorem resetsBrokenStream_iff (timeout : Core.Milliseconds) (es : List Event) :
    AlongRun step ResetsBrokenStream (create timeout) es ↔
      RunMeets step (fun s e => ¬ s.HandlesShortReply e) (create timeout) es :=
  alongRun_iff_runMeets And.right resets_step
    (fun hs hG => not_resets_of_short hs.1 (not_not.mp hG)) es
    ⟨aligned_create timeout, fun _ hd => absurd hd List.not_mem_nil⟩

/-- The reply of one register to a read of two. -/
def shortReply : List UInt8 := [0, 1, 0, 0, 0, 5, 1, 3, 2, 0, 42]

/-- The connection survives it. -/
theorem not_resetsBrokenStream_shortReply :
    ¬ AlongRun step ResetsBrokenStream (create 3000)
      (exchange (.read_holding_registers 1 0 2) shortReply) := by
  have hbefore : ∃ s, run step (create 3000)
      (exchange (.read_holding_registers 1 0 2) shortReply).dropLast = some s ∧
      s.HandlesShortReply .runHandler :=
    ⟨_, rfl, rfl, rfl, _, _, _, _, rfl, by decide, rfl, rfl, rfl, by decide⟩
  obtain ⟨s, hs, hshort⟩ := hbefore
  obtain ⟨t, ht⟩ : ∃ t, step s .runHandler = some t := by
    obtain ⟨-, -, request, remaining, body, response, hop, -⟩ := hshort
    exact ⟨_, by rw [step, runHandler, hop]⟩
  have haligned : s.Aligned := run_invariant aligned_step (aligned_create 3000) hs
  intro hresets
  exact not_resets_of_short haligned hshort ht
    (hresets _ t List.prefix_rfl ((run_concat_eq_some step).mpr ⟨s, hs, ht⟩))

end ModbusClient

end Ironpulse.Protocol
