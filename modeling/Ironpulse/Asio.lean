import Mathlib.Control.Monad.Basic

/-! # Asynchronous operations of asio

An operation that a handler starts is first `pending` at the operating system and then `completed`:
its completion handler is queued, with a result that no later `cancel` or `close` changes. The
handlers of one strand run one at a time, in any order. -/

namespace Ironpulse

/-- An `asio::error_code` that is set, as the text of its `message()`. -/
abbrev ErrorCode := String

/-- `asio::error::operation_aborted`, the result of an operation that was cancelled. -/
def operation_aborted : ErrorCode := "Operation canceled"

/-- `asio::error::bad_descriptor`, the result of an operation on a closed socket. -/
def bad_descriptor : ErrorCode := "Bad file descriptor"

/-- An asynchronous operation whose completion handler has not run yet. -/
inductive AsyncOp (α : Type) where
  /-- The operation waits for the remote side (or for a clock). -/
  | pending
  /-- The completion handler is queued with this result. -/
  | completed (result : Except ErrorCode α)
  deriving DecidableEq

namespace AsyncOp

variable {α : Type}

/-- The state in which a new operation on a socket starts: on a closed socket it fails at once. -/
def start (socketOpen : Bool) : AsyncOp α :=
  if socketOpen then .pending else .completed (.error bad_descriptor)

/-- The effect of a `cancel()` or of closing the socket: a pending operation is aborted, a
completion that is already queued keeps its result. -/
def abort : AsyncOp α → AsyncOp α
  | .pending => .completed (.error operation_aborted)
  | .completed result => .completed result

/-- An operation that has completed is not aborted any more. -/
@[simp] theorem abort_completed (result : Except ErrorCode α) :
    (completed result).abort = completed result := rfl

/-- An aborted operation is no longer pending. -/
@[simp] theorem abort_ne_pending (op : AsyncOp α) : op.abort ≠ .pending := by
  cases op <;> simp [abort]

/-- Aborting never turns an operation into a successful one. -/
@[simp] theorem abort_eq_completed_ok {op : AsyncOp α} {a : α} :
    op.abort = .completed (.ok a) ↔ op = .completed (.ok a) := by
  cases op <;> simp [abort]

/-- On an open socket an operation starts as pending. -/
@[simp] theorem start_true : (start true : AsyncOp α) = .pending := rfl

/-- No operation has succeeded when it has just started. -/
@[simp] theorem start_ne_completed_ok {socketOpen : Bool} {a : α} :
    start socketOpen ≠ .completed (.ok a) := by
  cases socketOpen <;> simp [start]

end AsyncOp

end Ironpulse
