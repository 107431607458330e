import Mathlib.Algebra.Group.Nat.Defs
import Ironpulse.Protocol.Endings

/-! # Callbacks and stale deadlines

The calls are numbered in the order in which they are made, so that "exactly once" is an equation
between lists: the callbacks that ran, and the call in flight, are all calls in order.

* **`Ledger`**: that equation.
* **`Clocked`**: the generations of the waits are the numbers of advances modulo `2 ^ 64`.
* **`alongRun_callbacksOnce`**: along every run each callback runs once, and the handler of a
  disarmed wait changes nothing unless the counter has gone round since the wait was armed. -/

namespace Ironpulse.Protocol

open StepMachine

namespace ModbusClient

/-! ## (1) The ledger of calls -/

/-- The call in flight. -/
def inFlight (s : ModbusClient) : List Nat := if s.operation.isSome then [s.calls] else []

/-- The callbacks that ran and the call in flight are all calls, in order. -/
def Ledger (s : ModbusClient) : Prop :=
  s.delivered.map Delivery.call ++ s.inFlight = List.range' 1 s.calls

variable {s t : ModbusClient} {e : Event}

/-- An ending is the callback of its own call. -/
theorem Ending.call_eq {call : Nat} {d : Delivery} (h : Ending s call d) : d.call = call := by
  cases h <;> rfl

/-- The ledger reads the callbacks, the number of calls and whether one is in flight. -/
theorem Ledger.congr (hs : s.Ledger) (hdelivered : t.delivered = s.delivered)
    (hcalls : t.calls = s.calls) (hop : t.operation.isSome = s.operation.isSome) : t.Ledger := by
  unfold Ledger inFlight
  rw [hdelivered, hcalls, hop]
  exact hs

/-- A chain ends: the call in flight has its callback. -/
theorem Ledger.ended (hs : s.Ledger) (hsome : s.operation.isSome = true) {d : Delivery}
    (hcall : d.call = s.calls) (hdelivered : t.delivered = s.delivered ++ [d])
    (hcalls : t.calls = s.calls) (hnone : t.operation = none) : t.Ledger := by
  have hflight : s.inFlight = [s.calls] := if_pos hsome
  have hflight' : t.inFlight = [] := by rw [inFlight, hnone]; rfl
  rw [Ledger, hflight', hdelivered, hcalls, List.append_nil, List.map_append, List.map_singleton,
    hcall, ← hflight]
  exact hs

/-- A call is entered in the ledger, with its callback or in flight. -/
theorem ledger_call (hs : s.Ledger) (hnone : s.operation = none) (command : Command) :
    (s.call command).Ledger := by
  have hflight : s.inFlight = [] := by
    rw [inFlight, hnone]
    rfl
  -- nothing was in flight, so every earlier call has been answered
  rw [Ledger, hflight, List.append_nil] at hs
  have hrange : List.range' 1 (s.calls + 1) = List.range' 1 s.calls ++ [s.calls + 1] := by
    rw [List.range'_1_concat, Nat.add_comm 1]
  rcases call_cases hnone command with ⟨d, hending, hdelivered, hop, hcalls, -⟩ |
    ⟨hdelivered, hop, hcalls, -⟩
  · -- the call ends at once, with its callback
    have hflight' : (s.call command).inFlight = [] := by rw [inFlight, hop]; rfl
    rw [Ledger, hflight', hdelivered, hcalls, List.append_nil, List.map_append, hs, hrange,
      List.map_singleton, hending.call_eq]
  · -- the call is in flight, and the only one
    have hflight' : (s.call command).inFlight = [s.calls + 1] := by
      rw [inFlight, if_pos hop, hcalls]
    rw [Ledger, hflight', hdelivered, hs, hcalls, hrange]

/-- A handler that runs is the handler of an operation in flight. -/
theorem isSome_of_runHandler (h : s.runHandler = some t) : s.operation.isSome = true := by
  by_contra hnone
  rw [Option.not_isSome_iff_eq_none] at hnone
  rw [runHandler, hnone] at h
  cases h

/-- **One event keeps the ledger.** -/
theorem ledger_step (hs : s.Ledger) (h : step s e = some t) : t.Ledger := by
  cases e with
  | call command =>
      obtain ⟨hnone, ht⟩ := Option.ite_none_right_eq_some.mp h
      rw [← Option.some.inj ht]
      exact ledger_call hs (Option.isNone_iff_eq_none.mp hnone) command
  | close =>
      rw [← Option.some.inj h]
      exact hs.congr rfl rfl Option.isSome_map
  | arrive bytes =>
      obtain ⟨-, ht⟩ := Option.ite_none_right_eq_some.mp h
      rw [← Option.some.inj ht]
      exact hs
  | completes result =>
      obtain ⟨hdelivered, hcalls, -, hop, hop'⟩ := completes_frame h
      exact hs.congr hdelivered hcalls (hop.trans hop'.symm)
  | runHandler =>
      have hsome := isSome_of_runHandler h
      cases handled_of_runHandler h with
      -- a handler that starts the next link delivers nothing, one that ends the call delivers once
      | link calls operation delivered clock =>
          exact hs.congr delivered calls (operation.trans hsome.symm)
      | ended d calls operation ending delivered clock =>
          exact hs.ended hsome ending.call_eq delivered calls operation
  | deadlinePasses =>
      rw [← Option.some.inj h]
      exact hs
  | runDeadline wait =>
      obtain ⟨hdelivered, hcalls, -, hop⟩ := runDeadline_frame h
      exact hs.congr hdelivered hcalls hop

/-! ## (2) Generations -/

/-- The 64-bit generations of the client and of its waits count the advances. -/
structure Clocked (s : ModbusClient) : Prop where
  current : s.deadline_generation_ = UInt64.ofNat s.generations
  waits : ∀ w ∈ s.waits, w.generation = UInt64.ofNat w.armedAt ∧ w.armedAt ≤ s.generations

/-- The invariant reads the clock only. -/
theorem Clocked.congr (hs : s.Clocked) (h : t.clock = s.clock) : t.Clocked := by
  obtain ⟨hcurrent, hgenerations, hwaits⟩ :
      t.deadline_generation_ = s.deadline_generation_ ∧ t.generations = s.generations ∧
        t.waits = s.waits := by
    simpa only [clock, Prod.mk.injEq] using h
  constructor
  · rw [hcurrent, hgenerations]
    exact hs.current
  · rw [hgenerations, hwaits]
    exact hs.waits

/-- The counter advances as the count does. -/
theorem ofNat_succ (n : Nat) : UInt64.ofNat n + 1 = UInt64.ofNat (n + 1) := by
  rw [UInt64.ofNat_add]
  rfl

/-- Disarming advances both. -/
theorem clocked_disarm (hs : s.Clocked) : s.disarm_deadline.Clocked := by
  constructor
  · exact (congrArg (· + 1) hs.current).trans (ofNat_succ s.generations)
  · intro w hw
    obtain ⟨w', hw', rfl⟩ := List.mem_map.mp hw
    obtain ⟨hgeneration, hle⟩ := hs.waits w' hw'
    exact ⟨hgeneration, Nat.le_succ_of_le hle⟩

/-- The wait that arming adds carries the new generation. -/
theorem clocked_arm (hs : s.Clocked) : s.arm_deadline.Clocked := by
  have hnext := (congrArg (· + 1) hs.current).trans (ofNat_succ s.generations)
  constructor
  · exact hnext
  · intro w hw
    rcases List.mem_append.mp hw with hold | hnew
    · exact (clocked_disarm hs).waits w hold
    · rw [List.mem_singleton.mp hnew]
      exact ⟨hnext, le_rfl⟩

/-- Waits that a `cancel` or the passing of the deadline changed, or fewer of them. -/
theorem Clocked.of_waits (hs : s.Clocked) {waits : List Wait}
    (hwaits : ∀ w ∈ waits, ∃ w' ∈ s.waits, w.generation = w'.generation ∧
      w.armedAt = w'.armedAt) : ({ s with waits := waits } : ModbusClient).Clocked := by
  refine ⟨hs.current, fun w hw => ?_⟩
  obtain ⟨w', hw', hgeneration, harmed⟩ := hwaits w hw
  rw [hgeneration, harmed]
  exact hs.waits w' hw'

/-- **One event keeps the generations counted.** -/
theorem clocked_step (hs : s.Clocked) (h : step s e = some t) : t.Clocked := by
  cases e with
  | call command =>
      obtain ⟨hnone, ht⟩ := Option.ite_none_right_eq_some.mp h
      rw [← Option.some.inj ht]
      -- a command that fails at once leaves the clock alone; any other arms it
      rcases call_cases (Option.isNone_iff_eq_none.mp hnone) command with
        ⟨-, -, -, -, -, hclock⟩ | ⟨-, -, -, hclock⟩
      · exact hs.congr hclock
      · exact (clocked_arm hs).congr hclock
  | close =>
      rw [← Option.some.inj h]
      exact (clocked_disarm hs).congr rfl
  | arrive bytes =>
      obtain ⟨-, ht⟩ := Option.ite_none_right_eq_some.mp h
      rw [← Option.some.inj ht]
      exact hs.congr rfl
  | completes result => exact hs.congr (completes_frame h).2.2.1
  | runHandler =>
      cases handled_of_runHandler h with
      -- the end of a call disarms the deadline
      | link calls operation delivered clock => exact hs.congr clock
      | ended d calls operation ending delivered clock => exact (clocked_disarm hs).congr clock
  | deadlinePasses =>
      rw [← Option.some.inj h]
      refine hs.of_waits fun w hw => ?_
      obtain ⟨w', hw', rfl⟩ := List.mem_map.mp hw
      refine ⟨w', hw', ?_⟩
      unfold Wait.pass
      split <;> exact ⟨rfl, rfl⟩
  | runDeadline wait =>
      have herase : ({ s with waits := s.waits.erase wait } : ModbusClient).Clocked :=
        hs.of_waits fun w hw => ⟨w, List.mem_of_mem_erase hw, rfl, rfl⟩
      exact herase.congr (runDeadline_frame h).2.2.1

/-- The wait was armed for an operation that has been disarmed since. -/
def Disarmed (s : ModbusClient) (w : Wait) : Prop := w.armedAt ≠ s.generations

/-- Two counts less than `2 ^ 64` apart have different 64-bit generations. -/
theorem generation_ne {w : Wait} (hs : s.Clocked) (hw : w ∈ s.waits) (hdisarmed : s.Disarmed w)
    (hround : s.generations < w.armedAt + 2 ^ 64) : w.generation ≠ s.deadline_generation_ := by
  obtain ⟨hgeneration, hle⟩ := hs.waits w hw
  rw [hgeneration, hs.current, Ne, ← UInt64.toNat_inj, UInt64.toNat_ofNat', UInt64.toNat_ofNat']
  unfold Disarmed at hdisarmed
  omega

/-! ## (3) Runs -/

/-- Each callback runs at most once, for a call that was made, and all have run when no operation
is in flight any more. -/
def CallbacksOnce (s : ModbusClient) : Prop :=
  (s.delivered.map Delivery.call).Nodup ∧
    (∀ call ∈ s.delivered.map Delivery.call, 1 ≤ call ∧ call ≤ s.calls) ∧
    (s.operation = none → ∀ call, 1 ≤ call → call ≤ s.calls →
      call ∈ s.delivered.map Delivery.call)

/-- The ledger is a list of different numbers that misses no call once nothing is in flight. -/
theorem Ledger.callbacksOnce (hs : s.Ledger) : s.CallbacksOnce := by
  have hsub : (s.delivered.map Delivery.call).Sublist (List.range' 1 s.calls) := by
    rw [← hs]
    exact List.sublist_append_left _ _
  refine ⟨hsub.nodup List.nodup_range', fun call hcall => ?_, fun hnone call hpos hle => ?_⟩
  · have hmem := List.mem_range'_1.mp (hsub.subset hcall)
    omega
  · have hflight : s.inFlight = [] := by rw [inFlight, hnone]; rfl
    rw [Ledger, hflight, List.append_nil] at hs
    rw [hs]
    exact List.mem_range'_1.mpr (by omega)

/-- The handler of a disarmed wait takes the wait off the list and does nothing else: it neither
sets `timed_out_` nor closes the socket. -/
def StaleHarmless (s : ModbusClient) (w : Wait) : Prop :=
  s.Disarmed w → ∀ t, step s (.runDeadline w) = some t → t = { s with waits := s.waits.erase w }

/-- A stale wait is told from the current one by its generation. -/
theorem staleHarmless_of_clocked (hs : s.Clocked) {w : Wait}
    (hround : s.generations < w.armedAt + 2 ^ 64) : s.StaleHarmless w := by
  intro hdisarmed t ht
  have hrun : s.runDeadline w = some t := ht
  unfold runDeadline at hrun
  split at hrun
  · cases hrun
  · obtain ⟨hmem, hstate⟩ := Option.ite_none_right_eq_some.mp hrun
    rw [← Option.some.inj hstate]
    unfold expire
    split
    · rfl
    · exact if_pos (generation_ne hs hmem hdisarmed hround)

/-- **Each callback runs exactly once, and a disarmed deadline disturbs nothing** as long as the
generation has advanced less than `2 ^ 64` times since it was armed, along every run. -/
theorem alongRun_callbacksOnce (timeout : Core.Milliseconds) (es : List Event) :
    AlongRun step
      (fun s => s.CallbacksOnce ∧
        ∀ w, s.generations < w.armedAt + 2 ^ 64 → s.StaleHarmless w)
      (create timeout) es := by
  intro fs t _ ht
  have hstart : (create timeout).Ledger := rfl
  have hledger : t.Ledger := run_invariant ledger_step hstart ht
  have hclocked : t.Clocked :=
    run_invariant clocked_step ⟨rfl, fun w hw => by cases hw⟩ ht
  exact ⟨hledger.callbacksOnce, fun w hround => staleHarmless_of_clocked hclocked hround⟩

/-! ## (4) A deadline that outlives the counter -/

/-- A connect that cannot be resolved. -/
def unresolved : List Event :=
  [.call .connect, .completes (.error "Host not found"), .runHandler]

/-- It advances the generation twice and keeps a queued handler of an expired deadline. -/
theorem run_unresolved (hnone : s.operation = none) {w : Wait}
    (hop : w.op = .completed (.ok ())) (hw : w ∈ s.waits) :
    ∃ t, run step s unresolved = some t ∧ t.operation = none ∧
      t.generations = s.generations + 2 ∧ w ∈ t.waits := by
  have hcancel : w.cancel = w := by rw [Wait.cancel, hop, AsyncOp.abort_completed, ← hop]
  refine ⟨({ s.call .connect with operation := none } : ModbusClient).resolve_done
    (.error "Host not found"), ?_, rfl, rfl, ?_⟩
  · rw [unresolved, run_cons, step, hnone]
    rfl
  · refine List.mem_map.mpr ⟨w, List.mem_append_left _ ?_, hcancel⟩
    exact List.mem_map.mpr ⟨w, hw, hcancel⟩

/-- So do any number of such connects. -/
theorem run_unresolved_many (n : Nat) (hnone : s.operation = none) {w : Wait}
    (hop : w.op = .completed (.ok ())) (hw : w ∈ s.waits) :
    ∃ t, run step s (List.replicate n unresolved).flatten = some t ∧ t.operation = none ∧
      t.generations = s.generations + 2 * n ∧ w ∈ t.waits := by
  induction n generalizing s with
  | zero => exact ⟨s, rfl, hnone, rfl, hw⟩
  | succ n ih =>
      obtain ⟨r, hr, hrnone, hrgen, hrw⟩ := run_unresolved hnone hop hw
      obtain ⟨t, ht, htnone, htgen, htw⟩ := ih hrnone hrw
      refine ⟨t, ?_, htnone, by omega, htw⟩
      rw [List.replicate_succ, List.flatten_cons, run_append_eq_some]
      exact ⟨r, hr, ht⟩

/-- The deadline of the first connect expires and its handler stays queued for `2 ^ 63` further
connects; it then ends the last of them. -/
def wrappedGenerations : List Event :=
  [.call .connect, .deadlinePasses, .completes (.error "Host not found"), .runHandler] ++
    (List.replicate (2 ^ 63 - 1) unresolved).flatten ++ [.call .connect]

/-- The first connect's deadline disturbs the last connect. -/
theorem not_staleHarmless_wrapped :
    ¬ AlongRun step (fun s => ∀ w, s.StaleHarmless w) (create 3000) wrappedGenerations := by
  -- one call whose expiry is queued, and then as many calls as it takes the generation to come
  -- round
  obtain ⟨r, hr, hrnone, hrgen, hrw⟩ : ∃ r, run step (create 3000)
      [.call .connect, .deadlinePasses, .completes (.error "Host not found"), .runHandler] =
        some r ∧ r.operation = none ∧ r.generations = 2 ∧
        (⟨1, 1, .completed (.ok ())⟩ : Wait) ∈ r.waits :=
    ⟨_, rfl, rfl, rfl, List.mem_singleton_self _⟩
  obtain ⟨s, hs, hsnone, hsgen, hsw⟩ := run_unresolved_many (2 ^ 63 - 1) hrnone rfl hrw
  have hcall : step s (.call .connect) = some (s.call .connect) := by rw [step, hsnone]; rfl
  have hrun : run step (create 3000) wrappedGenerations = some (s.call .connect) := by
    rw [wrappedGenerations, run_concat_eq_some]
    exact ⟨s, (run_append_eq_some step).mpr ⟨r, hr, hs⟩, hcall⟩
  have hclocked : (s.call .connect).Clocked :=
    run_invariant clocked_step ⟨rfl, fun w hw => by cases hw⟩ hrun
  have hgen : (s.call .connect).generations = 2 ^ 64 + 1 := by
    change s.generations + 1 = _
    omega
  have hone : (s.call .connect).deadline_generation_ = 1 := by
    rw [hclocked.current, hgen]
    rfl
  have hmem : (⟨1, 1, .completed (.ok ())⟩ : Wait) ∈ (s.call .connect).waits :=
    List.mem_append_left _ (List.mem_map.mpr ⟨_, hsw, rfl⟩)
  intro hharmless
  have hstale := hharmless wrappedGenerations _ List.prefix_rfl hrun ⟨1, 1, .completed (.ok ())⟩
    (by rw [Disarmed, hgen]; decide)
  -- the stale expiry has the generation of the current call
  have hstep : ∃ t, step (s.call .connect) (.runDeadline ⟨1, 1, .completed (.ok ())⟩) = some t ∧
      t.timed_out_ = true := by
    refine ⟨_, if_pos hmem, ?_⟩
    unfold expire
    dsimp only
    rw [if_neg (by rw [hone]; exact not_not.mpr rfl)]
    rfl
  obtain ⟨t, ht, htimed⟩ := hstep
  rw [hstale t ht] at htimed
  cases htimed

end ModbusClient

end Ironpulse.Protocol
