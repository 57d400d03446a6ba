import GrpcRust.Envoy.ClusterLoadAssignment
import GrpcRust.Lib.HashMap
import GrpcRust.Lib.Validation
/-!
# Validated endpoints of `grpc-xds`

`resource/endpoint.rs`. A validator returns the validated value, or the text of an
`Error::Validation`.
-/

namespace GrpcXds.Eds

open Lib

structure Locality where
  region : String
  zone : String
  subZone : String
deriving DecidableEq

structure EndpointAddress where
  host : String
  port : UInt16
deriving DecidableEq

inductive HealthStatus where
  | unknown
  | healthy
  | unhealthy
  | draining
  | degraded
  | other (value : Int)
deriving DecidableEq

structure LbEndpoint where
  address : EndpointAddress
  healthStatus : HealthStatus
  loadBalancingWeight : UInt32
deriving DecidableEq

structure LocalityLbEndpoints where
  locality : Locality
  endpoints : List LbEndpoint
  loadBalancingWeight : UInt32
  priority : UInt32
deriving DecidableEq

structure EndpointsResource where
  clusterName : String
  localities : List LocalityLbEndpoints
deriving DecidableEq

def HealthStatus.fromEnvoy : Envoy.HealthStatus → HealthStatus
  | .unknown => .unknown
  | .healthy => .healthy
  | .unhealthy => .unhealthy
  | .timeout => .unhealthy
  | .draining => .draining
  | .degraded => .degraded
  | .unrecognized value => .other value

def HealthStatus.usable : HealthStatus → Bool
  | .unknown => true
  | .healthy => true
  | _ => false

def validatePort (sa : Envoy.SocketAddress) : Except String UInt32 :=
  match sa.portSpecifier with
  | some (.portValue port) => .ok port
  | _ => .error "endpoint address missing numeric port"

def validateAddress (endpoint : Envoy.Endpoint) : Except String EndpointAddress :=
  match endpoint.address with
  | none => .error "endpoint missing address"
  | some address =>
    match address.address with
    | some (.socketAddress sa) => do
      let port ← validatePort sa
      if sa.address.isEmpty then
        .error "endpoint address is empty"
      else if port.toNat < 2 ^ 16 then
        return { host := sa.address, port := port.toUInt16 }
      else
        .error ("endpoint port is out of range: " ++ toString port)
    | _ => .error "only socket addresses are supported for gRPC endpoints"

def validateLbEndpoint (lbEp : Envoy.LbEndpoint) : Except String (Option LbEndpoint) :=
  match lbEp.hostIdentifier with
  | some (.endpoint endpoint) => do
    let address ← validateAddress endpoint
    if lbEp.loadBalancingWeight = some 0 then
      .error "endpoint has a zero load_balancing_weight"
    else
      return some {
        address
        healthStatus := .fromEnvoy lbEp.healthStatus
        loadBalancingWeight := lbEp.loadBalancingWeight.getD 1 }
  | _ => .ok none

/-! ## Localities -/

def Locality.debug (l : Locality) : String :=
  "Locality \x7b region: " ++ l.region.quote ++ ", zone: " ++ l.zone.quote ++ ", sub_zone: " ++ l.subZone.quote ++
    " \x7d"

/-- The loop over a locality's endpoints, with the weight so far and all addresses seen. -/
def collectEndpoints (locality : Locality) (weightSum : Nat) (seen : Finset EndpointAddress) :
    List Envoy.LbEndpoint → Except String (List LbEndpoint × Finset EndpointAddress)
  | [] => .ok ([], seen)
  | lbEp :: rest => do
    match ← validateLbEndpoint lbEp with
    | none => collectEndpoints locality weightSum seen rest
    | some ep =>
      if 2 ^ 32 - 1 < weightSum + ep.loadBalancingWeight.toNat then
        .error ("sum of endpoint weights in locality " ++ locality.debug ++ " exceeds 4294967295")
      else if ep.address ∈ seen then
        .error ("duplicate endpoint address " ++ ep.address.host ++ ":" ++ toString ep.address.port)
      else
        let (endpoints, seen) ←
          collectEndpoints locality (weightSum + ep.loadBalancingWeight.toNat) (insert ep.address seen) rest
        return (ep :: endpoints, seen)

structure Progress where
  localities : List LocalityLbEndpoints
  seenAddresses : Finset EndpointAddress
  seenLocalities : Finset (Locality × UInt32)
  weightSums : HashMap UInt32 Nat

def Progress.start : Progress := ⟨[], ∅, ∅, ∅⟩

def Progress.addWeighted (p : Progress) (le : Envoy.LocalityLbEndpoints) (locality : Locality) (weight : UInt32) :
    Except String Progress :=
  let sum := (p.weightSums.lookup le.priority).getD 0 + weight.toNat
  if 2 ^ 32 - 1 < sum then
    .error ("sum of locality weights at priority " ++ toString le.priority ++ " exceeds 4294967295")
  else if (locality, le.priority) ∈ p.seenLocalities then
    .error ("duplicate locality " ++ locality.debug ++ " at priority " ++ toString le.priority)
  else do
    let (endpoints, seenAddresses) ← collectEndpoints locality 0 p.seenAddresses le.lbEndpoints
    return {
      localities := p.localities ++ [{ locality, endpoints, loadBalancingWeight := weight, priority := le.priority }]
      seenAddresses
      seenLocalities := insert (locality, le.priority) p.seenLocalities
      weightSums := p.weightSums.insert le.priority sum }

def Progress.add (p : Progress) (le : Envoy.LocalityLbEndpoints) : Except String Progress :=
  match le.locality with
  | none => .error "ClusterLoadAssignment contains a locality without an ID"
  | some l =>
    let weight := le.loadBalancingWeight.getD 0
    -- a locality without a weight gets no traffic, and its endpoints are not looked at
    if weight = 0 then .ok p else p.addWeighted le ⟨l.region, l.zone, l.subZone⟩ weight

def Weighted (le : Envoy.LocalityLbEndpoints) : Prop := le.loadBalancingWeight.getD 0 ≠ 0

def missingPriority (localities : List LocalityLbEndpoints) : Option Nat :=
  let priorities := (localities.map (·.priority.toNat)).toFinset
  (List.range priorities.card).find? (· ∉ priorities)

def validate (message : Envoy.ClusterLoadAssignment) : Except String EndpointsResource :=
  if message.clusterName.isEmpty then
    .error "ClusterLoadAssignment missing cluster_name"
  else do
    let p ← message.endpoints.foldlM Progress.add Progress.start
    match missingPriority p.localities with
    | some priority => .error ("priority " ++ toString priority ++ " missing from ClusterLoadAssignment")
    | none => return { clusterName := message.clusterName, localities := p.localities }

def EndpointsResource.endpoints (r : EndpointsResource) : List LbEndpoint := r.localities.flatMap (·.endpoints)

def EndpointsResource.healthyEndpoints (r : EndpointsResource) : List LbEndpoint :=
  r.endpoints.filter (·.healthStatus.usable)

end GrpcXds.Eds
