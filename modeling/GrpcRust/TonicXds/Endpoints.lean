import GrpcRust.Envoy.ClusterLoadAssignment
import GrpcRust.TonicXds.EndpointManager
import GrpcRust.Lib.Validation
/-!
# Validated endpoints of `tonic-xds`

`xds/resource/endpoints.rs` and the addresses of `client/endpoint.rs`. A validator returns the validated
value, or the text of an `Error::Validation`.
-/

namespace TonicXds

open Lib

structure IpParsers where
  ipv4 : String → Option (BitVec 32)
  ipv6 : String → Option (BitVec 128)

def EndpointHost.fromString (ip : IpParsers) (s : String) : EndpointHost :=
  match ip.ipv4 s with
  | some addr => .ipv4 addr
  | none =>
    match ip.ipv6 s with
    | some addr => .ipv6 addr
    | none => .hostname s

def EndpointAddress.new (ip : IpParsers) (host : String) (port : UInt16) : EndpointAddress :=
  ⟨.fromString ip host, port⟩

def HealthStatus.fromEnvoy : Envoy.HealthStatus → HealthStatus
  | .healthy => .healthy
  | .unhealthy => .unhealthy
  | .timeout => .unhealthy
  | .draining => .draining
  | _ => .unknown

namespace Eds

structure Locality where
  region : String
  zone : String
  subZone : String
deriving DecidableEq

structure ResolvedEndpoint where
  address : EndpointAddress
  additionalAddresses : List EndpointAddress
  healthStatus : HealthStatus
  loadBalancingWeight : UInt32
deriving DecidableEq

structure LocalityEndpoints where
  locality : Option Locality
  endpoints : List ResolvedEndpoint
  loadBalancingWeight : UInt32
  priority : UInt32
deriving DecidableEq

structure EndpointsResource where
  clusterName : String
  localities : List LocalityEndpoints
deriving DecidableEq

def EndpointsResource.snapshot (r : EndpointsResource) : TonicXds.EndpointsResource where
  clusterName := r.clusterName
  localities := r.localities.map fun l => ⟨l.endpoints.map fun ep => ⟨ep.address, ep.healthStatus⟩⟩

section
variable (ip : IpParsers)

def parseAddress (address : Option Envoy.Address) : Except String EndpointAddress :=
  match address with
  | none => .error "address is unset"
  | some address =>
    match address.address with
    | some (.socketAddress sa) =>
      match sa.portSpecifier with
      | some (.portValue port) => .ok (.new ip sa.address port.toUInt16)
      | _ => .error "missing numeric port"
    | _ => .error "only socket addresses are supported for gRPC endpoints"

def parseAdditional (additional : Option Envoy.Address × Nat) : Except String EndpointAddress :=
  (parseAddress ip additional.1).mapError fun reason =>
    "endpoint additional_addresses[" ++ toString additional.2 ++ "]: " ++ reason

def validateLbEndpoint (lbEp : Envoy.LbEndpoint) : Except String (Option ResolvedEndpoint) :=
  match lbEp.hostIdentifier with
  | some (.endpoint ep) => do
    let address ← (parseAddress ip ep.address).mapError fun reason => "endpoint address: " ++ reason
    let additionalAddresses ← validateAll (parseAdditional ip) ep.additionalAddresses.zipIdx
    return some {
      address, additionalAddresses
      healthStatus := .fromEnvoy lbEp.healthStatus
      loadBalancingWeight := lbEp.loadBalancingWeight.getD 1 }
  | _ => .ok none

def validateLocality (le : Envoy.LocalityLbEndpoints) : Except String LocalityEndpoints := do
  let endpoints ← validateKept (validateLbEndpoint ip) le.lbEndpoints
  return {
    locality := le.locality.map fun l => ⟨l.region, l.zone, l.subZone⟩
    endpoints
    loadBalancingWeight := le.loadBalancingWeight.getD 0
    priority := le.priority }

def validate (message : Envoy.ClusterLoadAssignment) : Except String EndpointsResource :=
  if message.clusterName.isEmpty then
    .error "ClusterLoadAssignment missing cluster_name"
  else do
    let localities ← validateAll (validateLocality ip) message.endpoints
    return { clusterName := message.clusterName, localities }

end

section
variable {ip : IpParsers} {m : Envoy.ClusterLoadAssignment} {r : EndpointsResource} {le : Envoy.LocalityLbEndpoints}

theorem validate_ok (h : validate ip m = .ok r) : validateAll (validateLocality ip) m.endpoints = .ok r.localities := by
  unfold validate at h
  split at h
  · cases h
  obtain ⟨ls, hl, h⟩ := bind_eq_ok.1 h
  cases h
  exact hl

theorem validateLocality_ok {l : LocalityEndpoints}
    (h : validateLocality ip le = .ok l) : validateKept (validateLbEndpoint ip) le.lbEndpoints = .ok l.endpoints := by
  obtain ⟨es, he, h⟩ := bind_eq_ok.1 h
  cases h
  exact he

theorem mem_endpoints (h : validate ip m = .ok r) (ep : ResolvedEndpoint) : ep ∈ r.localities.flatMap (·.endpoints) ↔
      ∃ le ∈ m.endpoints, ∃ lbEp ∈ le.lbEndpoints, validateLbEndpoint ip lbEp = .ok (some ep) := by
  have hlc := validate_ok h
  simp only [List.mem_flatMap, mem_validateAll hlc]
  constructor
  · rintro ⟨l, ⟨le, hle, hl⟩, hep⟩
    exact ⟨le, hle, (mem_validateKept (validateLocality_ok hl) ep).1 hep⟩
  · rintro ⟨le, hle, hep⟩
    obtain ⟨l, hl⟩ := ok_of_validateAll hlc hle
    exact ⟨l, ⟨le, hle, hl⟩, (mem_validateKept (validateLocality_ok hl) ep).2 hep⟩

theorem accepted (h : validate ip m = .ok r) (hle : le ∈ m.endpoints)
    {lbEp : Envoy.LbEndpoint} (hlb : lbEp ∈ le.lbEndpoints) : ∃ o, validateLbEndpoint ip lbEp = .ok o := by
  obtain ⟨l, hl⟩ := ok_of_validateAll (validate_ok h) hle
  exact ok_of_validateKept (validateLocality_ok hl) hlb

end

theorem mem_healthyAddresses {r : EndpointsResource} {a : EndpointAddress} : a ∈ r.snapshot.healthyAddresses ↔
      ∃ ep ∈ r.localities.flatMap (·.endpoints), ep.healthStatus.usable = true ∧ ep.address = a := by
  simp only [TonicXds.EndpointsResource.healthyAddresses, TonicXds.EndpointsResource.healthyEndpoints,
    EndpointsResource.snapshot, HashSet.mem_ofList, List.mem_map, List.mem_filter, List.mem_flatMap]
  constructor
  · rintro ⟨_, ⟨⟨_, ⟨l, hl, rfl⟩, hep⟩, hu⟩, rfl⟩
    obtain ⟨ep, hmem, rfl⟩ := List.mem_map.1 hep
    exact ⟨ep, ⟨l, hl, hmem⟩, hu, rfl⟩
  · rintro ⟨ep, ⟨l, hl, hep⟩, hu, rfl⟩
    exact ⟨_, ⟨⟨_, ⟨l, hl, rfl⟩, List.mem_map.2 ⟨ep, hep, rfl⟩⟩, hu⟩, rfl⟩

end Eds

end TonicXds
