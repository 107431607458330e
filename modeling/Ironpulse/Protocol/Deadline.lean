import Ironpulse.Protocol.ModbusClient

/-! # The deadline of a connect or request

`arm_deadline` runs once, before the first link of a chain, and the wait's handler does nothing but
close the socket and cancel the resolver. That ends every link in flight and every later link on the
closed socket, with one exception: `async_connect` opens the socket anew.

* **`Armed`**: the wait of the current generation has not been handled.
* **`Bounded`**: what is outstanding is covered by that wait or completes by itself.
* **`bounded_iff_resolvesInTime`**: every state of a run is bounded exactly when no successful
  resolve is handled after the deadline of its connect. -/

namespace Ironpulse.Protocol

open StepMachine

namespace Operation

/-- The first link of a connect. -/
def isResolve : Operation → Bool
  | resolve _ => true
  | _ => false

/-- Closing the socket does not make another operation a resolve. -/
@[simp] theorem isResolve_closeSocket (operation : Operation) :
    operation.closeSocket.isResolve = operation.isResolve := by
  cases operation <;> rfl

/-- The expired deadline leaves nothing to wait for: it cancels the resolver and closes the
socket. -/
theorem settled_cancelResolve_closeSocket (operation : Operation) :
    operation.cancelResolve.closeSocket.settled = true := by
  cases operation <;> simp [cancelResolve, closeSocket, settled]

end Operation

namespace ModbusClient

/-! ## (1) Bounded states -/

/-- The deadline covers what is in flight: the wait of the current generation is pending, or has
just expired and its handler is queued. -/
def Armed (s : ModbusClient) : Prop :=
  ∃ w ∈ s.waits, w.generation = s.deadline_generation_ ∧
    (w.op = .pending ∨ w.op = .completed (.ok ()))

/-- A connect or request whose callback has not run, without a `close()`, has its deadline armed or
its handler queued. -/
def Bounded (s : ModbusClient) : Prop :=
  ∀ operation, s.operation = some operation → s.closeCalled = false →
    s.Armed ∨ operation.settled = true

/-- The event does not handle a successful resolve after the deadline was handled (a `close()`
releases from it). -/
def ResolvesInTime (s : ModbusClient) (e : Event) : Prop :=
  e = .runHandler → s.operation = some (.resolve (.completed (.ok ()))) →
    s.Armed ∨ s.closeCalled = true

/-- `Bounded` with what the rest of the chain needs: once the deadline was handled the socket is
closed, so that every later link but a connect fails at once. -/
def Covered (s : ModbusClient) : Prop :=
  ∀ operation, s.operation = some operation →
    s.closeCalled = true ∨ s.Armed ∨
      (operation.settled = true ∧ (operation.isResolve = true ∨ s.socketOpen = false))

/-- Covered states are bounded. -/
theorem Covered.bounded {s : ModbusClient} (h : s.Covered) : s.Bounded := by
  intro operation hoperation hclose
  rcases h operation hoperation with hclosed | harmed | hsettled
  · rw [hclose] at hclosed
    cases hclosed
  · exact .inl harmed
  · exact .inr hsettled.1

/-- Nothing in flight is covered. -/
theorem covered_of_none {s : ModbusClient} (h : s.operation = none) : s.Covered := by
  intro operation hoperation
  rw [h] at hoperation
  cases hoperation

/-- An armed deadline covers every chain. -/
theorem covered_of_armed {s : ModbusClient} (h : s.Armed) : s.Covered :=
  fun _ _ => .inr (.inl h)

/-- `close()` releases from the deadline. -/
theorem covered_of_closeCalled {s : ModbusClient} (h : s.closeCalled = true) : s.Covered :=
  fun _ _ => .inl h

/-- The wait that is armed is the one of the current generation. -/
theorem armed_arm_deadline (s : ModbusClient) : s.arm_deadline.Armed :=
  ⟨_, List.mem_append_right _ (List.mem_singleton_self _), rfl, .inl rfl⟩

/-- Covered states stay covered while a link that starts fails at once on a closed socket. -/
theorem Covered.link {s t : ModbusClient} {old new : Operation} (h : s.Covered)
    (hold : s.operation = some old) (hresolve : old.isResolve = false)
    (hnew : t.operation = some new) (hclosed : s.socketOpen = false → new.settled = true)
    (hwaits : t.waits = s.waits)
    (hgeneration : t.deadline_generation_ = s.deadline_generation_)
    (hclose : t.closeCalled = s.closeCalled) (hsocket : t.socketOpen = s.socketOpen) :
    t.Covered := by
  intro operation hoperation
  obtain rfl := Option.some.inj (hnew.symm.trans hoperation)
  -- the deadline is the same one, so it stays armed
  have harmed : s.Armed → t.Armed := by
    intro harmed
    rwa [Armed, hwaits, hgeneration]
  rcases h old hold with hcalled | harmed' | ⟨-, hend⟩
  · exact .inl (hclose.trans hcalled)
  · exact .inr (.inl (harmed harmed'))
  · -- the socket had been closed: the new operation ends with an error at once
    rw [hresolve] at hend
    have hoff : s.socketOpen = false := hend.resolve_left Bool.false_ne_true
    exact .inr (.inr ⟨hclosed hoff, .inr (hsocket.trans hoff)⟩)

/-! ## (2) One event -/

variable {s t : ModbusClient} {e : Event}

/-- A connect arms its deadline before anything else. -/
theorem armed_connect (s : ModbusClient) : s.connect.Armed := armed_arm_deadline s.close_socket

/-- A request fails at once or arms its deadline. -/
theorem covered_send_request (hnone : s.operation = none) (request : ModbusRequest) :
    (s.send_request request).Covered := by
  unfold send_request
  split
  · exact covered_of_none hnone
  · exact covered_of_armed (armed_arm_deadline s)

/-- A call that is made with nothing in flight is covered. -/
theorem covered_call (hnone : s.operation = none) (command : Command) :
    (s.call command).Covered := by
  unfold call
  dsimp only
  split
  · exact covered_of_armed (armed_connect _)
  · exact covered_send_request (by exact hnone) _

/-- An operation that completes is settled; the deadline is as it was. -/
theorem covered_completes {result : Except ErrorCode Unit} (hs : s.Covered)
    (h : s.completes result = some t) : t.Covered := by
  -- An operation that is not settled has been cancelled or has a deadline, and still has it.
  have hkeep : ∀ operation operation' received,
      s.operation = some operation → operation.settled = false →
        ({ s with operation := some operation', received := received } : ModbusClient).Covered := by
    intro operation operation' received hoperation hpending
    rcases hs operation hoperation with hcalled | harmed | ⟨hsettled, -⟩
    · exact covered_of_closeCalled hcalled
    · exact covered_of_armed harmed
    · rw [hpending] at hsettled
      cases hsettled
  unfold completes at h
  split at h
  · rename_i hop
    rw [← Option.some.inj h]
    exact hkeep _ _ s.received hop rfl
  · rename_i hop
    rw [← Option.some.inj h]
    exact hkeep _ _ s.received hop rfl
  · rename_i hop
    rw [← Option.some.inj h]
    exact hkeep _ _ s.received hop rfl
  · rename_i hop
    cases result with
    | error ec =>
        rw [← Option.some.inj h]
        exact hkeep _ _ s.received hop rfl
    | ok u =>
        obtain ⟨-, ht⟩ := Option.ite_none_right_eq_some.mp h
        rw [← Option.some.inj ht]
        exact hkeep _ _ _ hop rfl
  · rename_i hop
    cases result with
    | error ec =>
        rw [← Option.some.inj h]
        exact hkeep _ _ s.received hop rfl
    | ok u =>
        obtain ⟨-, ht⟩ := Option.ite_none_right_eq_some.mp h
        rw [← Option.some.inj ht]
        exact hkeep _ _ _ hop rfl
  · cases h

/-- On a closed socket nothing waits. -/
theorem settled_start {α : Type} [DecidableEq α] {socketOpen : Bool} (h : socketOpen = false) :
    ((AsyncOp.start socketOpen : AsyncOp α) != .pending) = true := by
  subst h
  rfl

/-- After the header the chain ends or reads the body under the same deadline. -/
theorem covered_header_done {request : ModbusRequest} {header : List UInt8} (hs : s.Covered)
    (hop : s.operation = some (.readHeader request (.completed (.ok header)))) :
    (({ s with operation := none } : ModbusClient).header_done request (.ok header)).Covered := by
  rw [header_done]
  dsimp only
  split
  · exact covered_of_none rfl
  · split
    · exact covered_of_none rfl
    · exact hs.link hop rfl rfl settled_start rfl rfl rfl rfl

/-- The handler of the body is the last of its chain. -/
theorem operation_body_done (request : ModbusRequest) (result : Except ErrorCode (List UInt8)) :
    (({ s with operation := none } : ModbusClient).body_done request result).operation = none := by
  cases result with
  | error ec => rfl
  | ok body =>
      rw [body_done]
      dsimp only
      split
      · rfl
      · split_ifs <;> rfl

/-- The handler of the operation in flight starts the next link or ends the chain. -/
theorem covered_runHandler (hs : s.Covered) (hG : s.ResolvesInTime .runHandler)
    (h : s.runHandler = some t) : t.Covered := by
  unfold runHandler at h
  split at h
  · rename_i result hop
    rw [← Option.some.inj h]
    cases result with
    | error ec => exact covered_of_none rfl
    -- the one place where the guard is needed: the connect starts after the resolve
    | ok u =>
        rcases hG rfl hop with harmed | hcalled
        · exact covered_of_armed harmed
        · exact covered_of_closeCalled hcalled
  · rename_i result hop
    rw [← Option.some.inj h]
    cases result <;> exact covered_of_none rfl
  · rename_i request result hop
    rw [← Option.some.inj h]
    cases result with
    | error ec => exact covered_of_none rfl
    -- every other link starts while the deadline is armed
    | ok u => exact hs.link hop rfl rfl settled_start rfl rfl rfl rfl
  · rename_i request result hop
    rw [← Option.some.inj h]
    cases result with
    | error ec => exact covered_of_none rfl
    | ok header => exact covered_header_done hs hop
  · rename_i request remaining result hop
    rw [← Option.some.inj h]
    exact covered_of_none (operation_body_done request result)
  · cases h

/-- Removing a wait that is not the one of the current generation keeps the rest covered. -/
theorem Covered.of_erase {wait : Wait} (hs : s.Covered)
    (hne : ∀ w : Wait, w.generation = s.deadline_generation_ →
      (w.op = .pending ∨ w.op = .completed (.ok ())) → w ≠ wait) :
    ({ s with waits := s.waits.erase wait } : ModbusClient).Covered := by
  intro operation hoperation
  rcases hs operation hoperation with hcalled | ⟨w, hw, hgeneration, hop⟩ | hsettled
  · exact .inl hcalled
  · have hmem := (List.mem_erase_of_ne (hne w hgeneration hop)).mpr hw
    exact .inr (.inl ⟨w, hmem, hgeneration, hop⟩)
  · exact .inr (.inr hsettled)

/-- Handling a wait either closes everything down or changes nothing but the list of waits. -/
theorem covered_runDeadline {wait : Wait} (hs : s.Covered) (h : s.runDeadline wait = some t) :
    t.Covered := by
  unfold runDeadline at h
  split at h
  · cases h
  · rename_i result hwait
    obtain ⟨-, ht⟩ := Option.ite_none_right_eq_some.mp h
    rw [← Option.some.inj ht]
    unfold expire
    split
    · exact hs.of_erase fun w _ hop heq => by
        rw [heq, hwait] at hop
        rcases hop with hop | hop <;> cases hop
    · split
      · rename_i hgeneration
        exact hs.of_erase fun w hw _ heq => hgeneration (heq ▸ hw)
      · -- the deadline of the current generation: everything in flight ends
        intro operation hoperation
        obtain ⟨operation', hold, rfl⟩ := Option.map_eq_some_iff.mp hoperation
        obtain ⟨operation'', -, rfl⟩ := Option.map_eq_some_iff.mp hold
        exact .inr (.inr ⟨Operation.settled_cancelResolve_closeSocket operation'', .inr rfl⟩)

/-- A deadline that passes still covers what is in flight until its handler has run. -/
theorem covered_passes (hs : s.Covered) :
    ({ s with waits := s.waits.map Wait.pass } : ModbusClient).Covered := by
  intro operation hoperation
  rcases hs operation hoperation with hcalled | ⟨w, hw, hgeneration, hop⟩ | hsettled
  · exact .inl hcalled
  · refine .inr (.inl ⟨w.pass, List.mem_map_of_mem hw, ?_, .inr ?_⟩)
    · unfold Wait.pass
      split <;> exact hgeneration
    · unfold Wait.pass
      rcases hop with hop | hop <;> simp [hop]
  · exact .inr (.inr hsettled)

/-- **One event keeps a covered client covered** when it resolves in time. -/
theorem covered_step (hs : s.Covered) (hG : s.ResolvesInTime e) (h : step s e = some t) :
    t.Covered := by
  cases e with
  | call command =>
      obtain ⟨hnone, ht⟩ := Option.ite_none_right_eq_some.mp h
      rw [← Option.some.inj ht]
      exact covered_call (Option.isNone_iff_eq_none.mp hnone) command
  | close =>
      rw [← Option.some.inj h]
      exact covered_of_closeCalled rfl
  | arrive bytes =>
      obtain ⟨-, ht⟩ := Option.ite_none_right_eq_some.mp h
      rw [← Option.some.inj ht]
      exact hs
  | completes result => exact covered_completes hs h
  | runHandler => exact covered_runHandler hs hG h
  | deadlinePasses =>
      rw [← Option.some.inj h]
      exact covered_passes hs
  | runDeadline wait => exact covered_runDeadline hs h

/-- A resolve that is handled too late starts a connect that nothing bounds. -/
theorem not_bounded_of_late (hG : ¬ s.ResolvesInTime e) (h : step s e = some t) : ¬ t.Bounded := by
  unfold ResolvesInTime at hG
  push Not at hG
  obtain ⟨rfl, hop, harmed, hcalled⟩ := hG
  have ht : s.runHandler = some t := h
  rw [runHandler, hop] at ht
  rw [← Option.some.inj ht]
  intro hbounded
  rcases hbounded (.connect .pending) rfl (Bool.eq_false_iff.mpr hcalled) with harmed' | hsettled
  · exact harmed harmed'
  · cases hsettled

/-! ## (3) Runs -/

/-- **Every state of a run is bounded exactly when no successful resolve is handled after the
deadline of its connect**, for every order of events. -/
theorem bounded_iff_resolvesInTime (timeout : Core.Milliseconds) (es : List Event) :
    AlongRun step Bounded (create timeout) es ↔ RunMeets step ResolvesInTime (create timeout) es :=
  alongRun_iff_runMeets Covered.bounded covered_step (fun _ => not_bounded_of_late) es
    (covered_of_none rfl)

/-- The deadline expires while the resolver's success is queued: its handler runs first and finds
nothing pending. -/
def lateResolve : List Event :=
  [.call .connect, .completes (.ok ()), .deadlinePasses,
    .runDeadline ⟨1, 1, .completed (.ok ())⟩, .runHandler]

/-- The connect that is then started waits for the device with no deadline. -/
theorem not_bounded_lateResolve : ¬ AlongRun step Bounded (create 3000) lateResolve := by
  intro hbounded
  have hrun : ∃ t, run step (create 3000) lateResolve = some t ∧
      t.operation = some (.connect .pending) ∧ t.closeCalled = false ∧ t.waits = [] :=
    ⟨_, rfl, rfl, rfl, rfl⟩
  obtain ⟨t, ht, hop, hcalled, hwaits⟩ := hrun
  rcases hbounded lateResolve t List.prefix_rfl ht _ hop hcalled with ⟨w, hw, -⟩ | hsettled
  · rw [hwaits] at hw
    cases hw
  · cases hsettled

end ModbusClient

end Ironpulse.Protocol
