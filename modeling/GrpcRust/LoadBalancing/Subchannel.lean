import GrpcRust.Lib.HashMap
/-!
# Subchannels

`client/load_balancing/subchannel.rs` and the resolver's data. `A` is the type of an address's attributes.
-/

namespace LoadBalancing

open Lib

variable {A : Type}

inductive ConnectivityState where
  | idle
  | connecting
  | ready
  | transientFailure
deriving DecidableEq, Repr

structure SubchannelState where
  connectivityState : ConnectivityState
  lastConnectionError : Option String
deriving DecidableEq, Repr

namespace SubchannelState

def idle : SubchannelState := ⟨.idle, none⟩

def ready : SubchannelState := ⟨.ready, none⟩

def connecting : SubchannelState := ⟨.connecting, none⟩

def transientFailure (error : String) : SubchannelState := ⟨.transientFailure, some error⟩

def WellFormed (s : SubchannelState) : Prop :=
  s = idle ∨ s = ready ∨ s = connecting ∨ ∃ error, s = transientFailure error

/-- `IDLE` connects, `CONNECTING` succeeds or fails, a lost connection and an expired backoff lead to `IDLE`. -/
def Next : ConnectivityState → SubchannelState → Prop
  | .idle, s => s = connecting
  | .connecting, s => s = ready ∨ ∃ error, s = transientFailure error
  | .ready, s => s = idle
  | .transientFailure, s => s = idle

end SubchannelState

structure Address (A : Type) where
  networkType : String
  address : String
  attributes : A
deriving DecidableEq, Repr

structure Endpoint (A : Type) where
  addresses : List (Address A)
deriving DecidableEq, Repr

structure ResolverUpdate (A : Type) where
  endpoints : Except String (List (Endpoint A))
  resolutionNote : Option String

structure Subchannel (A : Type) where
  id : Nat
  address : Address A
deriving DecidableEq, Repr

inductive Picker (A : Type) where
  | idle
  | queuing
  | one (sc : Subchannel A)
  | failing (error : String)
deriving DecidableEq, Repr

inductive Effect (A : Type) where
  | updatePicker (state : ConnectivityState) (picker : Picker A)
  | requestResolution
  | connect (sc : Subchannel A)
deriving DecidableEq, Repr

end LoadBalancing
