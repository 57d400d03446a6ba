import Mathlib.Tactic
/-!
# Watch channels

A single-producer channel that keeps the last value only. Each receiver remembers the version it has seen.
-/

namespace Lib.Watch

structure Channel (α : Type) where
  value : α
  version : Nat
  closed : Bool

structure Receiver where
  seen : Option Nat
deriving DecidableEq

namespace Channel
variable {α : Type}

variable (c : Channel α) (v : α) (value : α)

def new : Channel α := ⟨value, 0, false⟩

def sendReplace : Channel α := ⟨value, c.version + 1, c.closed⟩

def close : Channel α := ⟨c.value, c.version, true⟩

@[simp] theorem value_sendReplace : (c.sendReplace v).value = v := rfl
@[simp] theorem version_sendReplace : (c.sendReplace v).version = c.version + 1 := rfl
@[simp] theorem closed_sendReplace : (c.sendReplace v).closed = c.closed := rfl

end Channel

inductive Changed where
  | changed
  | closed
  | pending
deriving DecidableEq

def Receiver.poll {α : Type} (r : Receiver) (c : Channel α) : Changed :=
  if r.seen ≠ some c.version then .changed else if c.closed then .closed else .pending

def Receiver.update {α : Type} (c : Channel α) : Receiver := ⟨some c.version⟩

end Lib.Watch
