import GrpcRust.Lib.HashMap
/-!
# xDS messages, resources and watcher events

`message.rs`, `resource/mod.rs`, `error.rs`, `client/snapshot.rs` and
`client/watch.rs` of `xds-client`. `B` is the type of serialized bytes and `V`
the type-erased value of a decoded resource.
-/

namespace XdsClient

open Lib

inductive Error where
  | connection (msg : String)
  | stream (status : String)
  | transport (source : String)
  | callCredentials (msg : String)
  | tlsConfig (source : String)
  | streamClosed
  | decode (source : String)
  | validation (msg : String)
  | resourceDoesNotExist
deriving DecidableEq

def Error.toString : Error → String
  | .connection msg => "failed to connect: " ++ msg
  | .stream status => "stream error: " ++ status
  | .transport source => "transport error: " ++ source
  | .callCredentials msg => "call credentials error: " ++ msg
  | .tlsConfig source => "TLS configuration error: " ++ source
  | .streamClosed => "stream closed unexpectedly"
  | .decode source => "decode error: " ++ source
  | .validation msg => "resource validation failed: " ++ msg
  | .resourceDoesNotExist => "resource does not exist"

/-! ## Discovery messages -/

structure Locality where
  region : String
  zone : String
  subZone : String
deriving DecidableEq

structure Node where
  id : Option String
  cluster : Option String
  locality : Option Locality
  userAgentName : String
  userAgentVersion : String
deriving DecidableEq

structure ErrorDetail where
  code : Int
  message : String
deriving DecidableEq

structure DiscoveryRequest where
  versionInfo : String
  node : Node
  resourceNames : List String
  typeUrl : String
  responseNonce : String
  errorDetail : Option ErrorDetail
deriving DecidableEq

structure ResourceAny (B : Type) where
  typeUrl : String
  value : B

structure DiscoveryResponse (B : Type) where
  versionInfo : String
  resources : List (ResourceAny B)
  typeUrl : String
  nonce : String

structure Codec (B : Type) where
  encodeRequest : DiscoveryRequest → Except Error B
  decodeResponse : B → Except Error (DiscoveryResponse B)

/-! ## Resources -/

inductive DecodeResult (T : Type) where
  | success (name : String) (resource : T)
  | resourceError (name : String) (error : Error)
  | topLevelError (error : Error)

structure DecodedResource (V : Type) where
  typeUrl : String
  name : String
  value : V
deriving DecidableEq

abbrev DecoderFn (B V : Type) := B → DecodeResult (DecodedResource V)

structure AcceptedResource (B : Type) where
  versionInfo : String
  resource : ResourceAny B
  lastUpdated : Nat

structure RejectedUpdate where
  versionInfo : String
  details : String
  lastUpdateAttempt : Nat
deriving DecidableEq

inductive ResourceStatus where
  | requested
  | doesNotExist
  | acked
  | nacked
deriving DecidableEq

structure ResourceSnapshot (B : Type) where
  typeUrl : String
  name : String
  status : ResourceStatus
  accepted : Option (AcceptedResource B)
  rejected : Option RejectedUpdate

/-! ## Watcher events -/

structure Signal where
  session : Nat
  seq : Nat
deriving DecidableEq

/-- Every holder of `some sig` holds a share of the oneshot's sender; `none` is detached. -/
structure ProcessingDone where
  signal : Option Signal
deriving DecidableEq

namespace ProcessingDone

def channel (sig : Signal) : ProcessingDone := ⟨some sig⟩

def share (done : ProcessingDone) : ProcessingDone := ⟨done.signal⟩

def detached : ProcessingDone := ⟨none⟩

end ProcessingDone

inductive ResourceEvent (T : Type) where
  | resourceChanged (result : Except Error T) (done : ProcessingDone)
  | ambientError (error : Error) (done : ProcessingDone)

def ResourceEvent.changed {T : Type} : ResourceEvent T → Option (Except Error T)
  | .resourceChanged result _ => some result
  | .ambientError _ _ => none

def ResourceEvent.done {T : Type} : ResourceEvent T → ProcessingDone
  | .resourceChanged _ done => done
  | .ambientError _ done => done

end XdsClient
