import GrpcRust.GrpcXds.EndpointRules
import GrpcRust.TonicXds.Endpoints
/-!
# One load assignment, two stacks

`tonic-xds` checks no port, weighs no locality and takes a health status it does not know for a usable one. The stacks
agree exactly on the messages where this makes no difference.
-/

namespace XdsStacks.Endpoints

open Lib GrpcXds.Eds
open TonicXds (IpParsers)

def resolve (ip : IpParsers) (address : GrpcXds.Eds.EndpointAddress) : TonicXds.EndpointAddress :=
  .new ip address.host address.port

/-! ## What a message says -/

/-- The host and the port of a socket address. -/
def hostPort : Option Envoy.Address → Option (String × UInt32)
  | some ⟨some (.socketAddress ⟨host, some (.portValue port)⟩)⟩ => some (host, port)
  | _ => none

/-- The address of an endpoint as `tonic-xds` takes it, with the lower half of the port. -/
def tonicAddress (ip : IpParsers) (lbEp : Envoy.LbEndpoint) : Option TonicXds.EndpointAddress :=
  (supported lbEp).bind fun ep => (hostPort ep.address).map fun hp => .new ip hp.1 hp.2.toUInt16

/-- A health status that both stacks take for the same. -/
def settled : Envoy.HealthStatus → Bool
  | .degraded => false
  | .unrecognized _ => false
  | _ => true

section
variable (message : Envoy.ClusterLoadAssignment)

/-- Every endpoint, and every other address of it, has a host and a number for a port. -/
structure Numbered : Prop where
  named : message.clusterName ≠ ""
  numbered : ∀ le ∈ message.endpoints, ∀ lbEp ∈ le.lbEndpoints, ∀ ep, supported lbEp = some ep →
    ∀ address ∈ ep.address :: ep.additionalAddresses, ∃ hp, hostPort address = some hp

def PortOutOfRange : Prop :=
  ∃ le ∈ message.endpoints, ∃ lbEp ∈ le.lbEndpoints, ∃ ep, supported lbEp = some ep ∧
    ∃ address ∈ ep.address :: ep.additionalAddresses, ∃ host port, hostPort address = some (host, port) ∧
      2 ^ 16 ≤ port.toNat

/-- The addresses of the endpoints that `tonic-xds` takes for usable. -/
def UsedByTonic (ip : IpParsers) (address : TonicXds.EndpointAddress) : Prop :=
  ∃ le ∈ message.endpoints, ∃ lbEp ∈ le.lbEndpoints,
    (TonicXds.HealthStatus.fromEnvoy lbEp.healthStatus).usable = true ∧ tonicAddress ip lbEp = some address

/-- The addresses of the usable endpoints in localities with a weight. -/
def UsedByBoth (ip : IpParsers) (address : TonicXds.EndpointAddress) : Prop :=
  ∃ le ∈ message.endpoints, Weighted le ∧ ∃ lbEp ∈ le.lbEndpoints,
    (HealthStatus.fromEnvoy lbEp.healthStatus).usable = true ∧ tonicAddress ip lbEp = some address

end

/-! ## Endpoints -/

section
variable {ip : IpParsers} {lbEp : Envoy.LbEndpoint}

theorem usable_eq {s : Envoy.HealthStatus} (h : settled s = true) :
    (TonicXds.HealthStatus.fromEnvoy s).usable = (HealthStatus.fromEnvoy s).usable := by
  cases s <;> first | rfl | cases h

theorem usable_of_usable {s : Envoy.HealthStatus} (h : (HealthStatus.fromEnvoy s).usable = true) :
    (TonicXds.HealthStatus.fromEnvoy s).usable = true := by
  cases s <;> first | rfl | cases h

theorem parseAddress_iff {address : Option Envoy.Address} {a : TonicXds.EndpointAddress} :
    TonicXds.Eds.parseAddress ip address = .ok a ↔
      ∃ hp, hostPort address = some hp ∧ .new ip hp.1 hp.2.toUInt16 = a := by
  rcases address with _ | ⟨_ | ⟨host, _ | port | name⟩ | _⟩ <;> simp [TonicXds.Eds.parseAddress, hostPort]

variable (ip) in
theorem parseAdditional_iff {additional : List (Option Envoy.Address)} :
    (∃ out, validateAll (TonicXds.Eds.parseAdditional ip) additional.zipIdx = .ok out) ↔
      ∀ address ∈ additional, ∃ hp, hostPort address = some hp := by
  rw [exists_validateAll_iff]
  nth_rewrite 2 [← List.zipIdx_map_fst 0 additional]
  rw [List.forall_mem_map]
  refine forall₂_congr fun address _ => ?_
  simp [TonicXds.Eds.parseAdditional, mapError_eq_ok, parseAddress_iff]

theorem exists_validateLbEndpoint_iff : (∃ o, TonicXds.Eds.validateLbEndpoint ip lbEp = .ok o) ↔
    ∀ ep, supported lbEp = some ep →
      ∀ address ∈ ep.address :: ep.additionalAddresses, ∃ hp, hostPort address = some hp := by
  rcases lbEp with ⟨_ | ep | name, s, w⟩
  · simp [TonicXds.Eds.validateLbEndpoint, supported]
  · simp only [TonicXds.Eds.validateLbEndpoint, supported, Option.some.injEq, forall_eq', List.forall_mem_cons,
      ← parseAdditional_iff ip, bind_eq_ok, mapError_eq_ok, parseAddress_iff]
    constructor
    · rintro ⟨o, a, ⟨hp, hhp, -⟩, additional, hadd, -⟩
      exact ⟨⟨hp, hhp⟩, additional, hadd⟩
    · rintro ⟨⟨hp, hhp⟩, additional, hadd⟩
      exact ⟨_, _, ⟨hp, hhp, rfl⟩, additional, hadd, rfl⟩
  · simp [TonicXds.Eds.validateLbEndpoint, supported]

theorem map_validateLbEndpoint {o : Option TonicXds.Eds.ResolvedEndpoint}
    (h : TonicXds.Eds.validateLbEndpoint ip lbEp = .ok o) : o.map (fun te => (te.address, te.healthStatus)) =
      (tonicAddress ip lbEp).map fun a => (a, .fromEnvoy lbEp.healthStatus) := by
  rcases lbEp with ⟨_ | ep | name, s, w⟩
  · cases h
    rfl
  · obtain ⟨a, ha, h⟩ := bind_eq_ok.1 h
    obtain ⟨additional, -, h⟩ := bind_eq_ok.1 h
    obtain ⟨hp, hhp, rfl⟩ := parseAddress_iff.1 (mapError_eq_ok.1 ha)
    cases h
    simp [tonicAddress, supported, hhp]
  · cases h
    rfl

theorem tonicAddress_of_namedAddress {ep : Envoy.Endpoint} {a : EndpointAddress} (hs : supported lbEp = some ep)
    (ha : namedAddress ep = some a) : tonicAddress ip lbEp = some (resolve ip a) := by
  unfold namedAddress at ha
  split at ha
  · rename_i host port hep
    split at ha
    · cases ha
      simp [tonicAddress, hs, hostPort, hep, resolve]
    · cases ha
  · cases ha

end

/-! ## Messages -/

section
variable {ip : IpParsers} {m : Envoy.ClusterLoadAssignment}

theorem exists_grpc_iff : (∃ g, validate m = .ok g) ↔ MeetsA27 m := by
  simp only [validate_eq_ok, meetsA27_iff]
  constructor
  · rintro ⟨_, hn, hlc, hv, hs, hc, -⟩
    exact ⟨hn, hlc, hv, hs, hc⟩
  · rintro ⟨hn, hlc, hv, hs, hc⟩
    exact ⟨_, hn, hlc, hv, hs, hc, rfl⟩

theorem exists_tonic_iff : (∃ t, TonicXds.Eds.validate ip m = .ok t) ↔ Numbered m := by
  have hlocalities : (∃ ls, validateAll (TonicXds.Eds.validateLocality ip) m.endpoints = .ok ls) ↔
      ∀ le ∈ m.endpoints, ∀ lbEp ∈ le.lbEndpoints, ∃ o, TonicXds.Eds.validateLbEndpoint ip lbEp = .ok o := by
    rw [exists_validateAll_iff]
    refine forall₂_congr fun le _ => ?_
    rw [← exists_validateKept_iff]
    constructor
    · rintro ⟨l, hl⟩
      exact ⟨_, TonicXds.Eds.validateLocality_ok hl⟩
    · rintro ⟨es, hes⟩
      exact ⟨_, bind_eq_ok.2 ⟨es, hes, rfl⟩⟩
  simp only [exists_validateLbEndpoint_iff] at hlocalities
  by_cases hname : m.clusterName = ""
  · refine iff_of_false ?_ (fun h => h.named hname)
    simp [TonicXds.Eds.validate, hname]
  · have hempty : ¬ m.clusterName.isEmpty = true := by rwa [String.isEmpty_iff]
    simp only [TonicXds.Eds.validate, if_neg hempty, bind_eq_ok]
    constructor
    · rintro ⟨_, ls, hls, -⟩
      exact ⟨hname, hlocalities.1 ⟨ls, hls⟩⟩
    · intro h
      obtain ⟨ls, hls⟩ := hlocalities.2 h.numbered
      exact ⟨_, ls, hls, rfl⟩

theorem mem_tonic {t : TonicXds.Eds.EndpointsResource} (ht : TonicXds.Eds.validate ip m = .ok t)
    (a : TonicXds.EndpointAddress) : a ∈ t.snapshot.healthyAddresses ↔ UsedByTonic m ip a := by
  simp only [TonicXds.Eds.mem_healthyAddresses, TonicXds.Eds.mem_endpoints ht, UsedByTonic]
  constructor
  · rintro ⟨te, ⟨le, hle, l, hl, hte⟩, hu, rfl⟩
    obtain ⟨a, ha, heq⟩ := Option.map_eq_some_iff.1 (map_validateLbEndpoint hte).symm
    obtain ⟨rfl, hh⟩ := Prod.mk.inj heq
    exact ⟨le, hle, l, hl, hh ▸ hu, ha⟩
  · rintro ⟨le, hle, l, hl, hu, ha⟩
    obtain ⟨o, ho⟩ := TonicXds.Eds.accepted ht hle hl
    have hte := map_validateLbEndpoint ho
    rw [ha] at hte
    obtain ⟨te, rfl, heq⟩ := Option.map_eq_some_iff.1 hte
    obtain ⟨rfl, hh⟩ := Prod.mk.inj heq
    exact ⟨te, ⟨le, hle, l, hl, ho⟩, hh ▸ hu, rfl⟩

theorem mem_grpc {g : EndpointsResource} (hg : validate m = .ok g) (a : TonicXds.EndpointAddress) :
    (∃ ep ∈ g.healthyEndpoints, resolve ip ep.address = a) ↔ UsedByBoth m ip a := by
  simp only [EndpointsResource.healthyEndpoints, List.mem_filter, mem_endpoints hg, validateLbEndpoint_iff, UsedByBoth]
  constructor
  · rintro ⟨ep, ⟨⟨le, hle, hw, l, hl, -, hep⟩, hu⟩, rfl⟩
    obtain ⟨address, haddress, rfl⟩ := Option.map_eq_some_iff.1 hep.symm
    obtain ⟨e, hs, hnamed⟩ := Option.bind_eq_some_iff.1 haddress
    exact ⟨le, hle, hw, l, hl, hu, tonicAddress_of_namedAddress hs hnamed⟩
  · rintro ⟨le, hle, hw, l, hl, hu, ha⟩
    obtain ⟨o, ho⟩ := accepted hg hle hw hl
    obtain ⟨hv, rfl⟩ := validateLbEndpoint_iff.1 ho
    obtain ⟨e, hs, -⟩ := Option.bind_eq_some_iff.1 ha
    obtain ⟨address, hnamed⟩ := Option.isSome_iff_exists.1 (hv e hs).1
    have hep : lbEndpoint l = some
        { address, healthStatus := .fromEnvoy l.healthStatus, loadBalancingWeight := endpointWeight l } := by
      simp [lbEndpoint, hs, hnamed]
    refine ⟨_, ⟨⟨le, hle, hw, l, hl, hv, hep.symm⟩, hu⟩, ?_⟩
    rw [tonicAddress_of_namedAddress hs hnamed] at ha
    exact Option.some.inj ha

theorem usedByTonic_of_usedByBoth {a : TonicXds.EndpointAddress} (h : UsedByBoth m ip a) : UsedByTonic m ip a := by
  obtain ⟨le, hle, -, l, hl, hu, ha⟩ := h
  exact ⟨le, hle, l, hl, usable_of_usable hu, ha⟩

end

/-- Accepted by both, a message leaves `tonic-xds` with the usable endpoints of `grpc-xds`, and both refuse a port
out of range. -/
structure Agree (ip : IpParsers) (message : Envoy.ClusterLoadAssignment) : Prop where
  endpoints : ∀ g t, GrpcXds.Eds.validate message = .ok g → TonicXds.Eds.validate ip message = .ok t →
    ∀ (o : IterOrder) (ac : HashSet TonicXds.EndpointAddress),
      (TonicXds.diff o ac t.snapshot.healthyAddresses).foldl TonicXds.Change.apply ac.toFinset =
        (g.healthyEndpoints.map fun ep => resolve ip ep.address).toFinset
  ports : PortOutOfRange message →
    (∃ e, GrpcXds.Eds.validate message = .error e) ∧ ∃ e, TonicXds.Eds.validate ip message = .error e

/-- A port is out of range only in a message that both refuse anyway; and in a message that both accept, an endpoint
in a locality without a weight, or with a health status that only `grpc-xds` tells apart, is unusable for `tonic-xds`
too or has the address of one that both use. -/
structure Plain (ip : IpParsers) (message : Envoy.ClusterLoadAssignment) : Prop where
  ports : PortOutOfRange message → ¬ MeetsA27 message ∧ ¬ Numbered message
  covered : MeetsA27 message → Numbered message → ∀ le ∈ message.endpoints, ∀ lbEp ∈ le.lbEndpoints,
    ¬ Weighted le ∨ settled lbEp.healthStatus = false →
    (TonicXds.HealthStatus.fromEnvoy lbEp.healthStatus).usable = true →
    ∀ address, tonicAddress ip lbEp = some address → UsedByBoth message ip address

section
variable {ip : IpParsers} {m : Envoy.ClusterLoadAssignment}

theorem Plain.usedByBoth (h : Plain ip m) (hgrpc : MeetsA27 m) (htonic : Numbered m) {a : TonicXds.EndpointAddress}
    (ha : UsedByTonic m ip a) : UsedByBoth m ip a := by
  obtain ⟨le, hle, l, hl, hu, ha⟩ := ha
  by_cases hboth : Weighted le ∧ settled l.healthStatus = true
  · exact ⟨le, hle, hboth.1, l, hl, usable_eq hboth.2 ▸ hu, ha⟩
  · have honly : ¬ Weighted le ∨ settled l.healthStatus = false := by
      rwa [not_and_or, Bool.not_eq_true] at hboth
    exact h.covered hgrpc htonic le hle l hl honly hu a ha

theorem plain_of_settled (hports : ¬ PortOutOfRange m)
    (h : ∀ le ∈ m.endpoints, Weighted le ∧ ∀ lbEp ∈ le.lbEndpoints, settled lbEp.healthStatus = true) : Plain ip m where
  ports hp := absurd hp hports
  covered _ _ le hle l hl honly := by
    obtain ⟨hw, hs⟩ := h le hle
    rcases honly with hn | hn
    · exact absurd hw hn
    · rw [hs l hl] at hn
      cases hn

end

/-- The stacks agree on a message exactly if it is plain. -/
theorem usable_endpoints_agree (ip : IpParsers) (message : Envoy.ClusterLoadAssignment) :
    Agree ip message ↔ Plain ip message := by
  have hrejected : (∃ e, GrpcXds.Eds.validate message = .error e) ∧ (∃ e, TonicXds.Eds.validate ip message = .error e) ↔
      ¬ MeetsA27 message ∧ ¬ Numbered message := by
    rw [exists_error_iff, exists_error_iff, exists_grpc_iff, exists_tonic_iff]
  constructor
  · intro h
    refine ⟨fun hp => hrejected.1 (h.ports hp), fun hgrpc htonic le hle l hl _ hu a ha => ?_⟩
    obtain ⟨g, hg⟩ := exists_grpc_iff.2 hgrpc
    obtain ⟨t, ht⟩ : ∃ t, TonicXds.Eds.validate ip message = .ok t := exists_tonic_iff.2 htonic
    have hsets := h.endpoints g t hg ht .default .empty
    rw [TonicXds.replay_diff] at hsets
    have hmem : a ∈ t.snapshot.healthyAddresses := (mem_tonic ht a).2 ⟨le, hle, l, hl, hu, ha⟩
    have hmem' := Finset.ext_iff.1 hsets a
    simp only [HashSet.mem_toFinset, List.mem_toFinset, List.mem_map] at hmem'
    exact (mem_grpc hg a).1 (hmem'.1 hmem)
  · intro h
    refine ⟨fun g t hg ht o ac => ?_, fun hp => hrejected.2 (h.ports hp)⟩
    rw [TonicXds.replay_diff]
    ext a
    simp only [HashSet.mem_toFinset, List.mem_toFinset, List.mem_map, mem_tonic ht, mem_grpc hg]
    exact ⟨h.usedByBoth (exists_grpc_iff.1 ⟨g, hg⟩) (exists_tonic_iff.1 ⟨t, ht⟩), usedByTonic_of_usedByBoth⟩

/-! ## One endpoint -/

def hostnames : IpParsers := ⟨fun _ => none, fun _ => none⟩

def assignment (health : Envoy.HealthStatus) (port : UInt32) : Envoy.ClusterLoadAssignment where
  clusterName := "cluster"
  endpoints := [{
    locality := some ⟨"region", "zone", ""⟩
    lbEndpoints := [{
      hostIdentifier := some (.endpoint ⟨some ⟨some (.socketAddress ⟨"backend", some (.portValue port)⟩)⟩, []⟩)
      healthStatus := health
      loadBalancingWeight := none }]
    loadBalancingWeight := some 1
    priority := 0 }]

theorem plain_assignment {p : UInt32} (hp : p.toNat < 2 ^ 16) : Plain hostnames (assignment .healthy p) := by
  refine plain_of_settled ?_ ?_
  · rintro ⟨le, hle, l, hl, ep, hep, address, haddress, host, port, hport, hrange⟩
    obtain rfl := List.mem_singleton.1 hle
    obtain rfl := List.mem_singleton.1 hl
    cases hep
    obtain rfl := List.mem_singleton.1 haddress
    cases hport
    omega
  · intro le hle
    obtain rfl := List.mem_singleton.1 hle
    refine ⟨by simp [Weighted], fun l hl => ?_⟩
    obtain rfl := List.mem_singleton.1 hl
    rfl

theorem usable_endpoints_agree_healthy : ∃ g t, GrpcXds.Eds.validate (assignment .healthy 8080) = .ok g ∧
    TonicXds.Eds.validate hostnames (assignment .healthy 8080) = .ok t ∧
    (TonicXds.diff .default .empty t.snapshot.healthyAddresses).foldl TonicXds.Change.apply ∅ =
      {⟨.hostname "backend", 8080⟩} := by
  refine ⟨_, _, rfl, rfl, ?_⟩
  have hagree := (usable_endpoints_agree hostnames _).2 (plain_assignment (p := 8080) (by decide))
  exact hagree.endpoints _ _ rfl rfl .default .empty

/-- `tonic-xds` connects to port 80 for 65616, and uses a degraded endpoint, which `grpc-xds` does not. -/
theorem tonic_port_truncated_and_degraded_used : (PortOutOfRange (assignment .healthy 65616) ∧
      ∃ t, TonicXds.Eds.validate hostnames (assignment .healthy 65616) = .ok t ∧
        t.snapshot.healthyAddresses.elems = [⟨.hostname "backend", 80⟩]) ∧
      ∃ g t, GrpcXds.Eds.validate (assignment .degraded 8080) = .ok g ∧
        TonicXds.Eds.validate hostnames (assignment .degraded 8080) = .ok t ∧
        g.healthyEndpoints = [] ∧ t.snapshot.healthyAddresses.elems = [⟨.hostname "backend", 8080⟩] := by
  refine ⟨⟨?_, _, rfl, by decide⟩, _, _, rfl, rfl, by decide, by decide⟩
  exact ⟨_, List.mem_singleton.2 rfl, _, List.mem_singleton.2 rfl, _, rfl, _, List.mem_singleton.2 rfl, _, _, rfl,
    by decide⟩

end XdsStacks.Endpoints
