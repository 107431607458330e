import Ironpulse.Protocol.FrameGrammar
import Ironpulse.Protocol.ModbusClient

/-! # How a chain of handlers ends

Every callback runs at the end of a chain of handlers, and there are few ways for a chain to end.

* **`Ending`**: what a callback is given, and from which state.
* **`Handled`**: a handler starts the next link of its chain or ends the chain with its callback.
* **`call_cases`, `completes_frame`, `runDeadline_frame`**: what the other events do to the callbacks.
* **`delivered_step`**: every callback that an event runs is an ending. -/

namespace Ironpulse.Protocol

open StepMachine

namespace ModbusClient

/-! ## (1) Endings -/

/-- The callback of the call numbered `call` runs in the state `s`. -/
inductive Ending (s : ModbusClient) (call : Nat) : Delivery → Prop where
  /-- A connect ends. -/
  | connected (success isConnected : Bool) (stream : List UInt8) :
      Ending s call ⟨call, .connect success, isConnected, stream⟩
  /-- Not connected, or the connection was closed first. -/
  | failed (request : ModbusRequest) (message : String) (stream : List UInt8) :
      Ending s call ⟨call, outcome request (.error ⟨message⟩), false, stream⟩
  /-- The device answered with an exception. -/
  | exception {request : ModbusRequest} {remaining : Nat} {body : List UInt8}
      {response : ModbusResponse} (message : String)
      (operation : s.operation = some (.readBody request remaining (.completed (.ok body))))
      (decoded : decode_response (s.read_buffer_ ++ body) = some response)
      (same_id : response.transaction_id = request.transaction_id)
      (is_exception : response.is_exception = true) :
      Ending s call ⟨call, outcome request (.error ⟨message⟩), s.connected_, s.stream⟩
  /-- The device answered with registers, or echoed a write. -/
  | registers {request : ModbusRequest} {remaining : Nat} {body : List UInt8}
      {response : ModbusResponse}
      (operation : s.operation = some (.readBody request remaining (.completed (.ok body))))
      (decoded : decode_response (s.read_buffer_ ++ body) = some response)
      (same_id : response.transaction_id = request.transaction_id)
      (no_exception : response.is_exception = false) :
      Ending s call ⟨call, outcome request (.ok response.registers), s.connected_, s.stream⟩

/-- The fields that the deadline's generations live in. -/
def clock (s : ModbusClient) : UInt64 × Nat × List Wait :=
  (s.deadline_generation_, s.generations, s.waits)

/-- What a handler of the operation in flight does: it starts the next link, or it disarms the
deadline and runs the callback. -/
inductive Handled (s t : ModbusClient) : Prop where
  | link (calls : t.calls = s.calls) (operation : t.operation.isSome = true)
      (delivered : t.delivered = s.delivered) (clock : t.clock = s.clock)
  | ended (d : Delivery) (calls : t.calls = s.calls) (operation : t.operation = none)
      (ending : Ending s s.calls d) (delivered : t.delivered = s.delivered ++ [d])
      (clock : t.clock = s.disarm_deadline.clock)

variable {s t : ModbusClient} {e : Event}

/-- The common error exit runs the callback on a closed connection. -/
theorem handled_fail (request : ModbusRequest) (message : String) :
    Handled s (({ s with operation := none } : ModbusClient).fail request message) :=
  .ended _ rfl rfl (.failed request message s.stream) rfl rfl

/-- Every exit from the header's handler reads the body or fails. -/
theorem handled_header_done (request : ModbusRequest) (result : Except ErrorCode (List UInt8)) :
    Handled s (({ s with operation := none } : ModbusClient).header_done request result) := by
  cases result with
  | error ec => exact handled_fail request _
  | ok header =>
      rw [header_done]
      dsimp only
      split
      · exact .ended _ rfl rfl (.failed request _ s.stream) rfl rfl
      · split
        · exact .ended _ rfl rfl (.failed request _ s.stream) rfl rfl
        · exact .link rfl rfl rfl rfl

/-- Every exit from the body's handler runs the callback. -/
theorem handled_body_done {request : ModbusRequest} {remaining : Nat}
    {result : Except ErrorCode (List UInt8)}
    (hop : s.operation = some (.readBody request remaining (.completed result))) :
    Handled s (({ s with operation := none } : ModbusClient).body_done request result) := by
  -- one ending for each way out of the handler, with the operation already taken off
  cases result with
  | error ec => exact handled_fail request _
  | ok body =>
      rw [body_done]
      dsimp only
      split
      · exact .ended _ rfl rfl (.failed request _ _) rfl rfl
      · rename_i response hdecoded
        by_cases hid : response.transaction_id = request.transaction_id
        · rw [if_neg (not_not.mpr hid)]
          by_cases hexception : response.is_exception = true
          · rw [if_pos hexception]
            exact .ended _ rfl rfl (.exception _ hop hdecoded hid hexception) rfl rfl
          · rw [if_neg hexception]
            exact .ended _ rfl rfl
              (.registers hop hdecoded hid (Bool.eq_false_iff.mpr hexception)) rfl rfl
        · rw [if_pos hid]
          exact .ended _ rfl rfl (.failed request _ _) rfl rfl

/-- **A handler starts the next link of the chain or ends it with the callback.** -/
theorem handled_of_runHandler (h : s.runHandler = some t) : Handled s t := by
  unfold runHandler at h
  split at h
  · rw [← Option.some.inj h]
    rename_i result hop
    cases result with
    | error ec => exact .ended _ rfl rfl (.connected false _ _) rfl rfl
    -- the resolve goes on with the connect
    | ok u => exact .link rfl rfl rfl rfl
  · rw [← Option.some.inj h]
    rename_i result hop
    cases result with
    | error ec => exact .ended _ rfl rfl (.connected false _ _) rfl rfl
    | ok u => exact .ended _ rfl rfl (.connected true _ _) rfl rfl
  · rw [← Option.some.inj h]
    rename_i request result hop
    cases result with
    | error ec => exact handled_fail request _
    -- the write goes on with the header
    | ok u => exact .link rfl rfl rfl rfl
  · rw [← Option.some.inj h]
    exact handled_header_done _ _
  · rw [← Option.some.inj h]
    rename_i request remaining result hop
    exact handled_body_done hop
  · cases h

/-! ## (2) Events -/

/-- What a call does: it fails at once or starts a chain with the deadline armed. -/
theorem call_cases (hnone : s.operation = none) (command : Command) :
    (∃ d, Ending s (s.calls + 1) d ∧ (s.call command).delivered = s.delivered ++ [d] ∧
        (s.call command).operation = none ∧ (s.call command).calls = s.calls + 1 ∧
        (s.call command).clock = s.clock) ∨
      ((s.call command).delivered = s.delivered ∧ (s.call command).operation.isSome = true ∧
        (s.call command).calls = s.calls + 1 ∧ (s.call command).clock = s.arm_deadline.clock) := by
  unfold call
  dsimp only
  split
  · exact .inr ⟨rfl, rfl, rfl, rfl⟩
  · unfold send_request
    dsimp only
    -- without a connection the call fails at once, with a delivery
    split
    · rename_i request hrequest hconnected
      have hoff : s.connected_ = false := by simpa using hconnected
      refine .inl ⟨⟨s.calls + 1, outcome request (.error ⟨"not connected"⟩), s.connected_,
        s.received⟩, ?_, rfl, hnone, rfl, rfl⟩
      rw [hoff]
      exact .failed request _ s.received
    · exact .inr ⟨rfl, rfl, rfl, rfl⟩

/-- An operation that completes runs no callback. -/
theorem completes_frame {result : Except ErrorCode Unit} (h : s.completes result = some t) :
    t.delivered = s.delivered ∧ t.calls = s.calls ∧ t.clock = s.clock ∧
      t.operation.isSome = true ∧ s.operation.isSome = true := by
  -- both reads complete in the same way
  have hread : ∀ wanted operation, s.readCompletes wanted result operation = some t →
      t.delivered = s.delivered ∧ t.calls = s.calls ∧ t.clock = s.clock ∧
        t.operation.isSome = true := by
    intro wanted operation ht
    cases result with
    | error ec =>
        rw [← Option.some.inj ht]
        exact ⟨rfl, rfl, rfl, rfl⟩
    | ok u =>
        obtain ⟨-, ht⟩ := Option.ite_none_right_eq_some.mp ht
        rw [← Option.some.inj ht]
        exact ⟨rfl, rfl, rfl, rfl⟩
  have hsome : s.operation.isSome = true := by
    by_contra hnone
    rw [Option.not_isSome_iff_eq_none] at hnone
    rw [completes, hnone] at h
    cases h
  rw [and_comm (a := t.operation.isSome = true)]
  unfold completes at h
  split at h
  · rw [← Option.some.inj h]
    exact ⟨rfl, rfl, rfl, hsome, rfl⟩
  · rw [← Option.some.inj h]
    exact ⟨rfl, rfl, rfl, hsome, rfl⟩
  · rw [← Option.some.inj h]
    exact ⟨rfl, rfl, rfl, hsome, rfl⟩
  · obtain ⟨hdelivered, hcalls, hclock, hop⟩ := hread _ _ h
    exact ⟨hdelivered, hcalls, hclock, hsome, hop⟩
  · obtain ⟨hdelivered, hcalls, hclock, hop⟩ := hread _ _ h
    exact ⟨hdelivered, hcalls, hclock, hsome, hop⟩
  · cases h

/-- The handler of a wait runs no callback. -/
theorem runDeadline_frame {wait : Wait} (h : s.runDeadline wait = some t) :
    t.delivered = s.delivered ∧ t.calls = s.calls ∧
      t.clock = (s.deadline_generation_, s.generations, s.waits.erase wait) ∧
      t.operation.isSome = s.operation.isSome := by
  unfold runDeadline at h
  split at h
  · -- a deadline that was cancelled in the meantime does nothing
    cases h
  · obtain ⟨-, ht⟩ := Option.ite_none_right_eq_some.mp h
    rw [← Option.some.inj ht]
    -- an expiry closes the socket; the operation ends later, in its own handler
    unfold expire
    split
    · exact ⟨rfl, rfl, rfl, rfl⟩
    · split
      · exact ⟨rfl, rfl, rfl, rfl⟩
      · exact ⟨rfl, rfl, rfl, by simp [close_socket]⟩

/-- **Every callback that an event runs is one of the endings.** -/
theorem delivered_step (h : step s e = some t) :
    t.delivered = s.delivered ∨
      ∃ call d, Ending s call d ∧ t.delivered = s.delivered ++ [d] ∧
        (e = .runHandler ∨ ∃ command, e = .call command) := by
  cases e with
  | call command =>
      obtain ⟨hnone, ht⟩ := Option.ite_none_right_eq_some.mp h
      rw [← Option.some.inj ht]
      rcases call_cases (Option.isNone_iff_eq_none.mp hnone) command with
        ⟨d, hending, hdelivered, -⟩ | ⟨hdelivered, -⟩
      · exact .inr ⟨_, d, hending, hdelivered, .inr ⟨command, rfl⟩⟩
      · exact .inl hdelivered
  | close =>
      rw [← Option.some.inj h]
      exact .inl rfl
  | arrive bytes =>
      obtain ⟨-, ht⟩ := Option.ite_none_right_eq_some.mp h
      rw [← Option.some.inj ht]
      exact .inl rfl
  | completes result => exact .inl (completes_frame h).1
  | runHandler =>
      cases handled_of_runHandler h with
      | link calls operation delivered clock => exact .inl delivered
      | ended d calls operation ending delivered clock =>
          exact .inr ⟨_, d, ending, delivered, .inl rfl⟩
  | deadlinePasses =>
      rw [← Option.some.inj h]
      exact .inl rfl
  | runDeadline wait => exact .inl (runDeadline_frame h).1

end ModbusClient

end Ironpulse.Protocol
