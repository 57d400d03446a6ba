import GrpcRust.Lib.HashMap
/-!
# Metrics of the ADS worker

`metrics.rs` and `RecorderHandle` of `client/worker.rs`. A measurement is a call
of the backend; without a backend nothing is measured.
-/

namespace XdsClient

open Lib

inductive Instrument where
  | xdsClientConnected
  | xdsClientServerFailure
  | xdsClientResourceUpdatesValid
  | xdsClientResourceUpdatesInvalid
  | xdsClientResources
deriving DecidableEq

def Instrument.name : Instrument → String
  | .xdsClientConnected => "grpc.xds_client.connected"
  | .xdsClientServerFailure => "grpc.xds_client.server_failure"
  | .xdsClientResourceUpdatesValid => "grpc.xds_client.resource_updates_valid"
  | .xdsClientResourceUpdatesInvalid => "grpc.xds_client.resource_updates_invalid"
  | .xdsClientResources => "grpc.xds_client.resources"

abbrev KeyValue := String × String

inductive Measurement where
  | addCounter (instrument : Instrument) (value : Nat) (attrs : List KeyValue)
  | recordGauge (instrument : Instrument) (value : Int) (attrs : List KeyValue)
deriving DecidableEq

structure ClientAttrs where
  target : String
  server : String

namespace ClientAttrs

def topLevelAuthority : String := "#old"

variable (attrs : ClientAttrs)

def connectionAttrs : List KeyValue := [("grpc.target", attrs.target), ("grpc.xds.server", attrs.server)]

def typeAttrs (typeUrl : String) : List KeyValue :=
  [("grpc.target", attrs.target), ("grpc.xds.server", attrs.server), ("grpc.xds.resource_type", typeUrl)]

def cacheStateAttrs (typeUrl cacheState : String) : List KeyValue :=
  [("grpc.target", attrs.target), ("grpc.xds.authority", topLevelAuthority),
    ("grpc.xds.resource_type", typeUrl), ("grpc.xds.cache_state", cacheState)]

end ClientAttrs

structure RecorderHandle where
  recorder : Bool
  attrs : ClientAttrs
  resourceCounts : HashMap String (HashMap String Int)

namespace RecorderHandle

def new (recorder : Bool) (target : String) : RecorderHandle := ⟨recorder, ⟨target, ""⟩, ∅⟩

variable (h : RecorderHandle)

def setServer (server : String) : RecorderHandle := { h with attrs := { h.attrs with server } }

def recordConnected (connected : Bool) : List Measurement :=
  if h.recorder then [.recordGauge .xdsClientConnected (if connected then 1 else 0) h.attrs.connectionAttrs]
  else []

def recordServerFailure : List Measurement :=
  if h.recorder then [.addCounter .xdsClientServerFailure 1 h.attrs.connectionAttrs] else []

def recordResourceUpdates (typeUrl : String) (valid invalid : Nat) : List Measurement :=
  if h.recorder then
    (if 0 < valid then [.addCounter .xdsClientResourceUpdatesValid valid (h.attrs.typeAttrs typeUrl)] else []) ++
      (if 0 < invalid then [.addCounter .xdsClientResourceUpdatesInvalid invalid (h.attrs.typeAttrs typeUrl)]
        else [])
  else []

/-- Pushes the buckets of `counts` that changed since the last call, and a zero for each that emptied. -/
def syncResourceCounts (order : IterOrder) (h : RecorderHandle) (typeUrl : String) (counts : HashMap String Int) :
    RecorderHandle × List Measurement :=
  if h.recorder then
    let last := (h.resourceCounts.lookup typeUrl).getD ∅
    let changed := (order.entries counts.entries).filter fun e => last.lookup e.1 ≠ some e.2
    let emptied := (order.entries last.entries).filter fun e => (counts.lookup e.1).isNone
    ({ h with resourceCounts := h.resourceCounts.insert typeUrl counts },
      changed.map (fun e => .recordGauge .xdsClientResources e.2 (h.attrs.cacheStateAttrs typeUrl e.1)) ++
        emptied.map fun e => .recordGauge .xdsClientResources 0 (h.attrs.cacheStateAttrs typeUrl e.1))
  else (h, [])

end RecorderHandle

end XdsClient
