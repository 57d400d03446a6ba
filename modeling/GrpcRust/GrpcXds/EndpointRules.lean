import GrpcRust.GrpcXds.Endpoints
import GrpcRust.Lib.InitialSegment
/-!
# What makes a cluster's endpoints valid

The rules of gRFC A27 on the message as a whole; the validator checks them locality by locality.
-/

namespace GrpcXds.Eds

open Lib List

/-! ## What a message says -/

/-- The address that an endpoint names: a socket address with a host and a numeric port. -/
def namedAddress (endpoint : Envoy.Endpoint) : Option EndpointAddress :=
  match endpoint.address with
  | some ⟨some (.socketAddress ⟨host, some (.portValue port)⟩)⟩ =>
    if host ≠ "" ∧ port.toNat < 2 ^ 16 then some ⟨host, port.toUInt16⟩ else none
  | _ => none

def supported (lbEp : Envoy.LbEndpoint) : Option Envoy.Endpoint :=
  match lbEp.hostIdentifier with
  | some (.endpoint endpoint) => some endpoint
  | _ => none

def endpointWeight (lbEp : Envoy.LbEndpoint) : UInt32 := lbEp.loadBalancingWeight.getD 1

variable (le : Envoy.LocalityLbEndpoints) (message : Envoy.ClusterLoadAssignment)
  (localities : List LocalityLbEndpoints)

def localityWeight : UInt32 := le.loadBalancingWeight.getD 0

def ValidEndpoint (lbEp : Envoy.LbEndpoint) : Prop :=
  ∀ endpoint, supported lbEp = some endpoint → (namedAddress endpoint).isSome = true ∧ lbEp.loadBalancingWeight ≠ some 0

def weighted : List Envoy.LocalityLbEndpoints := message.endpoints.filter (localityWeight · ≠ 0)

def addresses : List EndpointAddress := le.lbEndpoints.filterMap fun lbEp => (supported lbEp).bind namedAddress

structure MeetsA27 (message : Envoy.ClusterLoadAssignment) : Prop where
  named : message.clusterName ≠ ""
  located : ∀ le ∈ message.endpoints, le.locality.isSome = true
  validEndpoints : ∀ le ∈ weighted message, ∀ lbEp ∈ le.lbEndpoints, ValidEndpoint lbEp
  distinctAddresses : ((weighted message).flatMap addresses).Nodup
  distinctLocalities : ((weighted message).map fun le => (le.locality, le.priority)).Nodup
  endpointWeights : ∀ le ∈ weighted message,
    ((le.lbEndpoints.filter fun lbEp => (supported lbEp).isSome).map fun lbEp =>
      (endpointWeight lbEp).toNat).sum < 2 ^ 32
  localityWeights : ∀ priority,
    (((weighted message).filter (·.priority = priority)).map fun le => (localityWeight le).toNat).sum < 2 ^ 32
  priorities : ∀ le ∈ weighted message, ∀ priority < le.priority.toNat,
    ∃ le' ∈ weighted message, le'.priority.toNat = priority

def lbEndpoint (lbEp : Envoy.LbEndpoint) : Option LbEndpoint :=
  ((supported lbEp).bind namedAddress).map fun address =>
    { address, healthStatus := .fromEnvoy lbEp.healthStatus, loadBalancingWeight := endpointWeight lbEp }

def localityId : Locality := le.locality.elim ⟨"", "", ""⟩ fun l => ⟨l.region, l.zone, l.subZone⟩

def localityLbEndpoints : LocalityLbEndpoints :=
  { locality := localityId le
    endpoints := le.lbEndpoints.filterMap lbEndpoint
    loadBalancingWeight := localityWeight le
    priority := le.priority }

def endpointsResource : EndpointsResource :=
  { clusterName := message.clusterName, localities := (weighted message).map localityLbEndpoints }

theorem validateAddress_iff {e : Envoy.Endpoint} {address : EndpointAddress} :
    validateAddress e = .ok address ↔ namedAddress e = some address := by
  rcases e with ⟨_ | ⟨_ | sa | _⟩, a⟩
  · exact ⟨nofun, nofun⟩
  · exact ⟨nofun, nofun⟩
  · rcases sa with ⟨host, _ | port | name⟩
    · exact ⟨nofun, nofun⟩
    · simp only [validateAddress, validatePort, namedAddress, bind, Except.bind, pure, Except.pure]
      by_cases hh : host = ""
      · simp [hh]
      · have hempty : ¬ host.isEmpty = true := by rwa [String.isEmpty_iff]
        rw [if_neg hempty]
        by_cases hp : port.toNat < 2 ^ 16
        · rw [if_pos hp, if_pos ⟨hh, hp⟩, Except.ok.injEq, Option.some.injEq]
        · rw [if_neg hp, if_neg (fun h => hp h.2)]
          exact ⟨nofun, nofun⟩
    · exact ⟨nofun, nofun⟩
  · exact ⟨nofun, nofun⟩

variable {lbEp : Envoy.LbEndpoint} {ls : List Envoy.LbEndpoint}

theorem validateLbEndpoint_iff {o : Option LbEndpoint} :
    validateLbEndpoint lbEp = .ok o ↔ ValidEndpoint lbEp ∧ o = lbEndpoint lbEp := by
  rcases lbEp with ⟨_ | endpoint | name, s, w⟩
  · exact ⟨fun h => ⟨nofun, (Except.ok.inj h).symm⟩, fun h => congrArg Except.ok h.2.symm⟩
  · simp only [validateLbEndpoint, ValidEndpoint, lbEndpoint, supported, Option.some.injEq, forall_eq',
      Option.bind_some]
    rw [bind_eq_ok]
    constructor
    · rintro ⟨a, ha, h⟩
      rw [validateAddress_iff] at ha
      split at h
      · cases h
      · rename_i hw
        cases h
        simp [ha, hw, endpointWeight]
    · rintro ⟨⟨hs, hw⟩, rfl⟩
      obtain ⟨a, ha⟩ := Option.isSome_iff_exists.1 hs
      refine ⟨a, validateAddress_iff.2 ha, ?_⟩
      rw [if_neg hw, ha]
      rfl
  · exact ⟨fun h => ⟨nofun, (Except.ok.inj h).symm⟩, fun h => congrArg Except.ok h.2.symm⟩

/-! ## Localities -/

def endpointWeights (endpoints : List LbEndpoint) : Nat := (endpoints.map (·.loadBalancingWeight.toNat)).sum

theorem endpointWeights_cons (ep : LbEndpoint) (endpoints : List LbEndpoint) :
    endpointWeights (ep :: endpoints) = ep.loadBalancingWeight.toNat + endpointWeights endpoints := rfl

theorem collectEndpoints_iff {l : Locality} {w : Nat} (hsm : w < 2 ^ 32)
    {s s' : Finset EndpointAddress} {es : List LbEndpoint} :
    collectEndpoints l w s ls = .ok (es, s') ↔ (∀ lbEp ∈ ls, ValidEndpoint lbEp) ∧ es = ls.filterMap lbEndpoint ∧
      w + endpointWeights es < 2 ^ 32 ∧ (es.map (·.address)).Nodup ∧
      (∀ e ∈ es, e.address ∉ s) ∧ s' = s ∪ (es.map (·.address)).toFinset := by
  induction ls generalizing w s es with
  | nil =>
    simp only [collectEndpoints, Except.ok.injEq, Prod.mk.injEq]
    constructor
    · rintro ⟨rfl, rfl⟩
      simpa [endpointWeights] using hsm
    · rintro ⟨-, rfl, -, -, -, rfl⟩
      simp
  | cons lbEp ls ih =>
    rw [collectEndpoints, bind_eq_ok]
    simp only [validateLbEndpoint_iff, forall_mem_cons, and_assoc, exists_and_left, exists_eq_left]
    refine and_congr_right fun hv => ?_
    cases hep : lbEndpoint lbEp with
    | none =>
      rw [filterMap_cons_none hep]
      exact ih hsm
    | some ep =>
      rw [filterMap_cons_some hep]
      dsimp only
      constructor
      · intro h
        split_ifs at h with hwg hs
        obtain ⟨⟨es', s''⟩, hc, h⟩ := bind_eq_ok.1 h
        cases h
        obtain ⟨hrest, rfl, hw, hn, hnw, rfl⟩ := (ih (by omega)).1 hc
        refine ⟨hrest, rfl, ?_, ?_, ?_, ?_⟩
        · rw [endpointWeights_cons]
          dsimp only
          omega
        · refine List.nodup_cons.2 ⟨fun hmem => ?_, hn⟩
          obtain ⟨ep', hep', heq⟩ := List.mem_map.1 hmem
          exact hnw ep' hep' (heq ▸ Finset.mem_insert_self _ _)
        · refine List.forall_mem_cons.2 ⟨hs, fun ep' hep' hmem => hnw ep' hep' ?_⟩
          exact Finset.mem_insert_of_mem hmem
        · simp [Finset.insert_union, Finset.union_insert]
      · rintro ⟨hrest, rfl, hw, hn, hnw, rfl⟩
        rw [endpointWeights_cons] at hw
        obtain ⟨hh, hn⟩ := List.nodup_cons.1 hn
        obtain ⟨hs, hnw⟩ := List.forall_mem_cons.1 hnw
        rw [if_neg (by omega), if_neg hs, bind_eq_ok]
        refine ⟨_, (ih (by omega)).2 ⟨hrest, rfl, by omega, hn, fun ep' hep' hmem => ?_, ?_⟩, rfl⟩
        · rcases Finset.mem_insert.1 hmem with heq | hmem
          · exact hh (List.mem_map.2 ⟨ep', hep', heq⟩)
          · exact hnw ep' hep' hmem
        · simp [Finset.insert_union, Finset.union_insert]

def priorityWeight (priority : UInt32) : Nat :=
  ((localities.filter (·.priority = priority)).map (·.loadBalancingWeight.toNat)).sum

def endpointAddresses : List EndpointAddress := localities.flatMap fun l => l.endpoints.map (·.address)

/-- What an accepted assignment satisfies. -/
structure Sound (ls : List LocalityLbEndpoints) : Prop where
  distinctAddresses : (endpointAddresses ls).Nodup
  distinctLocalities : (ls.map fun l => (l.locality, l.priority)).Nodup
  endpointWeights : ∀ l ∈ ls, endpointWeights l.endpoints < 2 ^ 32
  localityWeights : ∀ priority, priorityWeight ls priority < 2 ^ 32

section
variable {ls : List LocalityLbEndpoints} {l : LocalityLbEndpoints}

theorem endpointAddresses_append (ls ls' : List LocalityLbEndpoints) :
    endpointAddresses (ls ++ ls') = endpointAddresses ls ++ endpointAddresses ls' := flatMap_append

theorem endpointAddresses_singleton (l : LocalityLbEndpoints) : endpointAddresses [l] = l.endpoints.map (·.address) :=
  flatMap_singleton ..

theorem priorityWeight_append (ls ls' : List LocalityLbEndpoints) (priority : UInt32) :
    priorityWeight (ls ++ ls') priority = priorityWeight ls priority + priorityWeight ls' priority := by
  simp [priorityWeight]

theorem priorityWeight_singleton (l : LocalityLbEndpoints) (p : UInt32) :
    priorityWeight [l] p = if l.priority = p then l.loadBalancingWeight.toNat else 0 := by
  by_cases h : l.priority = p <;> simp [priorityWeight, h]

theorem sound_nil : Sound [] := ⟨.nil, .nil, nofun, fun _ => by simp [priorityWeight]⟩

theorem Sound.of_append {ls' : List LocalityLbEndpoints} (h : Sound (ls ++ ls')) : Sound ls where
  distinctAddresses := by
    have hn := h.distinctAddresses
    rw [endpointAddresses_append] at hn
    exact hn.of_append_left
  distinctLocalities := by
    have hn := h.distinctLocalities
    rw [map_append] at hn
    exact hn.of_append_left
  endpointWeights l hl := h.endpointWeights l (mem_append_left _ hl)
  localityWeights priority := by
    have hw := h.localityWeights priority
    rw [priorityWeight_append] at hw
    omega

theorem sound_concat (h : Sound ls) : Sound (ls ++ [l]) ↔
    priorityWeight ls l.priority + l.loadBalancingWeight.toNat < 2 ^ 32 ∧
    (l.locality, l.priority) ∉ ls.map (fun l => (l.locality, l.priority)) ∧
    endpointWeights l.endpoints < 2 ^ 32 ∧ (l.endpoints.map (·.address)).Nodup ∧
    ∀ e ∈ l.endpoints, e.address ∉ endpointAddresses ls := by
  constructor
  · intro h'
    have ha := h'.distinctAddresses
    rw [endpointAddresses_append, endpointAddresses_singleton, nodup_append'] at ha
    have hl := h'.distinctLocalities
    rw [map_append, map_singleton, nodup_append'] at hl
    have hw := h'.localityWeights l.priority
    rw [priorityWeight_append, priorityWeight_singleton, if_pos rfl] at hw
    refine ⟨hw, fun hmem => hl.2.2 hmem (mem_singleton_self _), h'.endpointWeights l (by simp),
      ha.2.1, fun e hmem ho => ?_⟩
    exact ha.2.2 ho (List.mem_map.2 ⟨e, hmem, rfl⟩)
  · rintro ⟨hw, hlc, hwg, ha, hn⟩
    refine ⟨?_, ?_, ?_, fun p => ?_⟩
    · rw [endpointAddresses_append, endpointAddresses_singleton, nodup_append']
      refine ⟨h.distinctAddresses, ha, fun a ho hmem => ?_⟩
      obtain ⟨e, he, rfl⟩ := List.mem_map.1 hmem
      exact hn e he ho
    · rw [map_append, map_singleton, nodup_append']
      refine ⟨h.distinctLocalities, nodup_singleton _, fun key ho hmem => ?_⟩
      exact hlc (List.mem_singleton.1 hmem ▸ ho)
    · intro l' hl'
      rcases List.mem_append.1 hl' with hl' | hl'
      · exact h.endpointWeights l' hl'
      · rw [List.mem_singleton.1 hl']
        exact hwg
    · rw [priorityWeight_append, priorityWeight_singleton]
      split
      · rename_i heq
        rwa [← heq]
      · exact h.localityWeights p

end

/-! ## The loop over the localities -/

namespace Progress
variable {p p' : Progress} {le : Envoy.LocalityLbEndpoints}

structure Tracks (p : Progress) : Prop where
  addresses : p.seenAddresses = (endpointAddresses p.localities).toFinset
  localities : p.seenLocalities = (p.localities.map fun l => (l.locality, l.priority)).toFinset
  weights : ∀ priority, (p.weightSums.lookup priority).getD 0 = priorityWeight p.localities priority

theorem tracks_start : start.Tracks := ⟨rfl, rfl, fun _ => rfl⟩

def push (p : Progress) (le : Envoy.LocalityLbEndpoints) : Progress :=
  let l := localityLbEndpoints le
  { localities := p.localities ++ [l]
    seenAddresses := p.seenAddresses ∪ (l.endpoints.map (·.address)).toFinset
    seenLocalities := insert (l.locality, l.priority) p.seenLocalities
    weightSums := p.weightSums.insert l.priority
      ((p.weightSums.lookup l.priority).getD 0 + l.loadBalancingWeight.toNat) }

theorem Tracks.push (h : p.Tracks) (le : Envoy.LocalityLbEndpoints) : (p.push le).Tracks where
  addresses := by
    simp only [Progress.push, endpointAddresses_append, endpointAddresses_singleton, toFinset_append, h.addresses]
  localities := by
    simp only [Progress.push, map_append, map_singleton, toFinset_append, h.localities]
    ext key
    simp
  weights priority := by
    simp only [Progress.push, HashMap.lookup_insert_ite, priorityWeight_append, priorityWeight_singleton, ← h.weights]
    by_cases heq : priority = (localityLbEndpoints le).priority
    · subst heq
      simp
    · simp [heq, Ne.symm heq]

theorem add_of_unweighted (hlc : le.locality.isSome = true) (hw : localityWeight le = 0) : p.add le = .ok p := by
  obtain ⟨l, hl⟩ := Option.isSome_iff_exists.1 hlc
  simp only [add, hl]
  exact if_pos hw

theorem add_iff (ht : p.Tracks) (hs : Sound p.localities) (hlc : le.locality.isSome = true)
    (hwg : localityWeight le ≠ 0) : p.add le = .ok p' ↔
      (∀ lbEp ∈ le.lbEndpoints, ValidEndpoint lbEp) ∧ Sound (p.localities ++ [localityLbEndpoints le]) ∧
        p' = p.push le := by
  obtain ⟨l, hl⟩ := Option.isSome_iff_exists.1 hlc
  have hid : localityId le = ⟨l.region, l.zone, l.subZone⟩ := by simp [localityId, hl]
  have hk : (⟨l.region, l.zone, l.subZone⟩, le.priority) ∈ p.seenLocalities ↔
      ((localityLbEndpoints le).locality, (localityLbEndpoints le).priority) ∈
        p.localities.map (fun l => (l.locality, l.priority)) := by
    rw [ht.localities, mem_toFinset, ← hid]
    rfl
  have hsm : (p.weightSums.lookup le.priority).getD 0 + (localityWeight le).toNat =
      priorityWeight p.localities (localityLbEndpoints le).priority +
        (localityLbEndpoints le).loadBalancingWeight.toNat := by
    rw [ht.weights]
    rfl
  have ha : p.add le = p.addWeighted le ⟨l.region, l.zone, l.subZone⟩ (localityWeight le) := by
    simp only [add, hl]
    exact if_neg hwg
  rw [ha, addWeighted, sound_concat hs]
  rw [hsm]
  constructor
  · intro h
    split_ifs at h with hf hsn
    obtain ⟨⟨es, s⟩, hc, h⟩ := bind_eq_ok.1 h
    cases h
    obtain ⟨hv, rfl, hw, hn, hnw, rfl⟩ := (collectEndpoints_iff (by omega)).1 hc
    rw [Nat.zero_add] at hw
    rw [ht.addresses] at hnw
    refine ⟨hv, ⟨by omega, fun hmem => hsn (hk.2 hmem), hw, hn, ?_⟩, ?_⟩
    · intro e he hmem
      exact hnw e he (List.mem_toFinset.2 hmem)
    · rw [push, ← hid, ← hsm]
      rfl
  · rintro ⟨hv, ⟨hf, hsn, hw, hn, hnw⟩, rfl⟩
    rw [if_neg (by omega), if_neg (fun hmem => hsn (hk.1 hmem)), bind_eq_ok]
    refine ⟨(le.lbEndpoints.filterMap lbEndpoint, _), (collectEndpoints_iff (by omega)).2
      ⟨hv, rfl, by rwa [Nat.zero_add], hn, fun e he hmem => ?_, rfl⟩, ?_⟩
    · rw [ht.addresses, mem_toFinset] at hmem
      exact hnw e he hmem
    · rw [push, ← hid, ← hsm]
      rfl

theorem foldlM_add {les : List Envoy.LocalityLbEndpoints} (ht : p.Tracks) (hs : Sound p.localities) :
    les.foldlM add p = .ok p' ↔ (∀ le ∈ les, le.locality.isSome = true) ∧
      (∀ le ∈ les.filter (localityWeight · ≠ 0), ∀ l ∈ le.lbEndpoints, ValidEndpoint l) ∧
      Sound (p.localities ++ (les.filter (localityWeight · ≠ 0)).map localityLbEndpoints) ∧
      p' = (les.filter (localityWeight · ≠ 0)).foldl push p := by
  induction les generalizing p with
  | nil =>
    simp only [foldlM_nil, filter_nil, map_nil, append_nil, foldl_nil]
    exact ⟨fun h => ⟨nofun, nofun, hs, (Except.ok.inj h).symm⟩, fun h => congrArg Except.ok h.2.2.2.symm⟩
  | cons le les ih =>
    rw [foldlM_cons, bind_eq_ok, forall_mem_cons]
    by_cases hl : le.locality.isSome = true
    · by_cases hw : localityWeight le = 0
      · rw [filter_cons_of_neg (by simpa using hw), add_of_unweighted hl hw]
        simp only [Except.ok.injEq, exists_eq_left', hl, true_and]
        exact ih ht hs
      · rw [filter_cons_of_pos (by simpa using hw), forall_mem_cons, map_cons, foldl_cons]
        have ha : p.localities ++ localityLbEndpoints le ::
            (les.filter (localityWeight · ≠ 0)).map localityLbEndpoints =
            (p.push le).localities ++ (les.filter (localityWeight · ≠ 0)).map localityLbEndpoints := by
          simp [push]
        rw [ha]
        constructor
        · rintro ⟨p₁, hp₁, h⟩
          obtain ⟨hvl, hsd, rfl⟩ := (add_iff ht hs hl hw).1 hp₁
          obtain ⟨hlc, hv, hsn, hlast⟩ := (ih (ht.push le) hsd).1 h
          exact ⟨⟨hl, hlc⟩, ⟨hvl, hv⟩, hsn, hlast⟩
        · rintro ⟨⟨-, hlc⟩, ⟨hvl, hv⟩, hsn, hlast⟩
          have hsd : Sound (p.localities ++ [localityLbEndpoints le]) := hsn.of_append
          exact ⟨p.push le, (add_iff ht hs hl hw).2 ⟨hvl, hsd, rfl⟩, (ih (ht.push le) hsd).2 ⟨hlc, hv, hsn, hlast⟩⟩
    · have hnone : le.locality = none := by simpa using hl
      simp [add, hnone]

theorem localities_foldl_push (les : List Envoy.LocalityLbEndpoints) (p : Progress) :
    (les.foldl push p).localities = p.localities ++ les.map localityLbEndpoints := by
  induction les generalizing p with
  | nil => simp
  | cons le les ih =>
    rw [foldl_cons, ih]
    simp [push]

end Progress

/-! ## The whole message -/

def Contiguous (ls : List LocalityLbEndpoints) : Prop :=
  ∀ l ∈ ls, ∀ priority < l.priority.toNat, ∃ l' ∈ ls, l'.priority.toNat = priority

theorem missingPriority_eq_none {ls : List LocalityLbEndpoints} : missingPriority ls = none ↔ Contiguous ls := by
  unfold missingPriority
  rw [find?_eq_none]
  have h := forall_lt_card_iff (s := (ls.map (·.priority.toNat)).toFinset)
  simp only [mem_range, decide_eq_true_eq, not_not]
  rw [h]
  simp [Contiguous]

theorem validate_eq_ok {message : Envoy.ClusterLoadAssignment} {r : EndpointsResource} :
    validate message = .ok r ↔ message.clusterName ≠ "" ∧ (∀ le ∈ message.endpoints, le.locality.isSome = true) ∧
      (∀ le ∈ weighted message, ∀ l ∈ le.lbEndpoints, ValidEndpoint l) ∧
      Sound (endpointsResource message).localities ∧ Contiguous (endpointsResource message).localities ∧
      r = endpointsResource message := by
  by_cases hname : message.clusterName = ""
  · simp [validate, hname]
  · have hempty : ¬ message.clusterName.isEmpty = true := by rwa [String.isEmpty_iff]
    rw [validate, if_neg hempty, bind_eq_ok]
    simp only [Progress.foldlM_add Progress.tracks_start sound_nil]
    have hl : ((weighted message).foldl Progress.push .start).localities =
        (endpointsResource message).localities := Progress.localities_foldl_push _ _
    constructor
    · rintro ⟨p, ⟨hlc, hv, hs, rfl⟩, h⟩
      split at h
      · cases h
      · rename_i hm
        cases h
        have hc := missingPriority_eq_none.1 hm
        refine ⟨hname, hlc, hv, hs, hl ▸ hc, ?_⟩
        rw [endpointsResource, EndpointsResource.mk.injEq]
        exact ⟨rfl, hl⟩
    · rintro ⟨-, hlc, hv, hs, hc, rfl⟩
      refine ⟨_, ⟨hlc, hv, hs, rfl⟩, ?_⟩
      have hm : missingPriority ((weighted message).foldl Progress.push .start).localities = none :=
        missingPriority_eq_none.2 (hl.symm ▸ hc)
      rw [show (message.endpoints.filter (localityWeight · ≠ 0)) = weighted message from rfl, hm, hl]
      rfl

section
variable {m : Envoy.ClusterLoadAssignment} {r : EndpointsResource}

theorem mem_endpoints (h : validate m = .ok r) (ep : LbEndpoint) : ep ∈ r.endpoints ↔
      ∃ le ∈ m.endpoints, Weighted le ∧ ∃ l ∈ le.lbEndpoints, validateLbEndpoint l = .ok (some ep) := by
  obtain ⟨-, -, hv, -, -, rfl⟩ := validate_eq_ok.1 h
  simp only [EndpointsResource.endpoints, endpointsResource, flatMap_map, mem_flatMap, localityLbEndpoints,
    mem_filterMap, weighted, mem_filter, decide_eq_true_eq, and_assoc]
  refine exists_congr fun le => and_congr_right fun hle => and_congr_right fun hw => ?_
  refine exists_congr fun l => and_congr_right fun hlb => ?_
  rw [validateLbEndpoint_iff, eq_comm, and_iff_right (hv le (List.mem_filter.2 ⟨hle, decide_eq_true hw⟩) l hlb)]

theorem accepted (h : validate m = .ok r) {le : Envoy.LocalityLbEndpoints} (hle : le ∈ m.endpoints)
    (hw : Weighted le) {l : Envoy.LbEndpoint} (hlb : l ∈ le.lbEndpoints) : ∃ o, validateLbEndpoint l = .ok o := by
  obtain ⟨-, -, hv, -⟩ := validate_eq_ok.1 h
  exact ⟨_, validateLbEndpoint_iff.2 ⟨hv le (List.mem_filter.2 ⟨hle, decide_eq_true hw⟩) l hlb, rfl⟩⟩

end

/-! ## The rules -/

theorem addresses_eq : (localityLbEndpoints le).endpoints.map (·.address) = addresses le := by
  simp only [localityLbEndpoints, addresses, map_filterMap]
  congr 1
  funext lbEp
  simp [lbEndpoint, Function.comp_def]

theorem lbEndpoint_of_valid (hv : ValidEndpoint lbEp) : (supported lbEp = none ∧ lbEndpoint lbEp = none) ∨
      ∃ e, (supported lbEp).isSome = true ∧ lbEndpoint lbEp = some e ∧ e.loadBalancingWeight = endpointWeight lbEp := by
  cases hs : supported lbEp with
  | none => exact .inl ⟨rfl, by simp [lbEndpoint, hs]⟩
  | some e =>
    obtain ⟨address, ha⟩ := Option.isSome_iff_exists.1 (hv e hs).1
    have hep : lbEndpoint lbEp = some
        { address, healthStatus := .fromEnvoy lbEp.healthStatus, loadBalancingWeight := endpointWeight lbEp } := by
      simp [lbEndpoint, hs, ha]
    exact .inr ⟨_, rfl, hep, rfl⟩

theorem endpointWeights_filterMap (hv : ∀ l ∈ ls, ValidEndpoint l) :
    endpointWeights (ls.filterMap lbEndpoint) =
      ((ls.filter fun l => (supported l).isSome).map fun l => (endpointWeight l).toNat).sum := by
  induction ls with
  | nil => rfl
  | cons l ls ih =>
    obtain ⟨hh, ht⟩ := List.forall_mem_cons.1 hv
    rcases lbEndpoint_of_valid hh with ⟨hs, hep⟩ | ⟨ep, hs, hep, hw⟩
    · rw [filterMap_cons_none hep, filter_cons_of_neg (by simp [hs]), ih ht]
    · rw [filterMap_cons_some hep, filter_cons_of_pos (by exact hs), endpointWeights_cons, ih ht, hw]
      rfl

section
variable {m : Envoy.ClusterLoadAssignment}

theorem nodup_localities (hlc : ∀ le ∈ m.endpoints, le.locality.isSome = true) :
    ((endpointsResource m).localities.map fun l => (l.locality, l.priority)).Nodup ↔
      ((weighted m).map fun le => (le.locality, le.priority)).Nodup := by
  simp only [endpointsResource, map_map, List.Nodup, pairwise_map, Function.comp_def]
  refine List.Pairwise.iff_of_mem fun {le le'} hle hle' => not_congr ?_
  obtain ⟨l, hl⟩ := Option.isSome_iff_exists.1 (hlc le (mem_of_mem_filter hle))
  obtain ⟨l', hl'⟩ := Option.isSome_iff_exists.1 (hlc le' (mem_of_mem_filter hle'))
  rcases l with ⟨r, z, s⟩
  rcases l' with ⟨r', z', s'⟩
  simp [localityLbEndpoints, localityId, hl, hl']

theorem priorityWeight_eq (p : UInt32) : priorityWeight (endpointsResource m).localities p =
    (((weighted m).filter (·.priority = p)).map fun le => (localityWeight le).toNat).sum := by
  simp only [priorityWeight, endpointsResource, filter_map, map_map]
  rfl

theorem meetsA27_iff : MeetsA27 m ↔ m.clusterName ≠ "" ∧ (∀ le ∈ m.endpoints, le.locality.isSome = true) ∧
      (∀ le ∈ weighted m, ∀ lbEp ∈ le.lbEndpoints, ValidEndpoint lbEp) ∧
      Sound (endpointsResource m).localities ∧ Contiguous (endpointsResource m).localities := by
  have ha : endpointAddresses (endpointsResource m).localities = (weighted m).flatMap addresses := by
    simp only [endpointAddresses, endpointsResource, flatMap_map, addresses_eq]
  have hc : Contiguous (endpointsResource m).localities ↔
      ∀ le ∈ weighted m, ∀ priority < le.priority.toNat, ∃ le' ∈ weighted m, le'.priority.toNat = priority := by
    simp [Contiguous, endpointsResource, localityLbEndpoints]
  constructor
  · intro h
    refine ⟨h.named, h.located, h.validEndpoints, ⟨?_, ?_, ?_, ?_⟩, hc.2 h.priorities⟩
    · exact ha ▸ h.distinctAddresses
    · exact (nodup_localities h.located).2 h.distinctLocalities
    · intro l hl
      obtain ⟨le, hle, rfl⟩ := List.mem_map.1 hl
      exact (endpointWeights_filterMap (h.validEndpoints le hle)).trans_lt (h.endpointWeights le hle)
    · intro priority
      exact priorityWeight_eq priority ▸ h.localityWeights priority
  · rintro ⟨hn, hlc, hv, hs, hp⟩
    refine ⟨hn, hlc, hv, ?_, ?_, ?_, ?_, hc.1 hp⟩
    · exact ha ▸ hs.distinctAddresses
    · exact (nodup_localities hlc).1 hs.distinctLocalities
    · intro le hle
      exact (endpointWeights_filterMap (hv le hle)).symm.trans_lt
        (hs.endpointWeights _ (mem_map_of_mem hle))
    · intro priority
      exact priorityWeight_eq priority ▸ hs.localityWeights priority

theorem Contiguous.exists_iff {ls : List LocalityLbEndpoints} (h : Contiguous ls) :
    ∃ n, ∀ priority, (∃ l ∈ ls, l.priority.toNat = priority) ↔ priority < n := by
  have hmem (priority : Nat) :
    priority ∈ (ls.map (·.priority.toNat)).toFinset ↔ ∃ l ∈ ls, l.priority.toNat = priority := by
    simp
  have hs := eq_range_of_forall_lt_card (s := (ls.map (·.priority.toNat)).toFinset)
    (forall_lt_card_iff.2 fun m hm n hn => by
      obtain ⟨l, hl, rfl⟩ := (hmem m).1 hm
      exact (hmem n).2 (h l hl n hn))
  refine ⟨(ls.map (·.priority.toNat)).toFinset.card, fun priority => ?_⟩
  rw [← hmem, ← Finset.mem_range, ← hs]

/-- The validator accepts what meets the rules; its result keeps to them and has no locality without a weight. -/
theorem endpoints_validated (message : Envoy.ClusterLoadAssignment) :
    ((∃ r, validate message = .ok r) ↔ MeetsA27 message) ∧
    ∀ r, validate message = .ok r → r = endpointsResource message ∧ (∀ l ∈ r.localities, l.loadBalancingWeight ≠ 0) ∧
      (r.endpoints.map (·.address)).Nodup ∧
      (r.localities.map fun l => (l.locality, l.priority)).Nodup ∧
      (∀ l ∈ r.localities, (l.endpoints.map (·.loadBalancingWeight.toNat)).sum < 2 ^ 32) ∧
      (∀ p, ((r.localities.filter (·.priority = p)).map (·.loadBalancingWeight.toNat)).sum < 2 ^ 32) ∧
      ∃ n, ∀ p, (∃ l ∈ r.localities, l.priority.toNat = p) ↔ p < n := by
  constructor
  · rw [meetsA27_iff]
    simp only [validate_eq_ok, exists_and_left, exists_eq, and_true]
  · intro r h
    obtain ⟨-, -, -, hs, hc, rfl⟩ := validate_eq_ok.1 h
    refine ⟨rfl, fun l hl => ?_, ?_, hs.distinctLocalities, hs.endpointWeights, hs.localityWeights, hc.exists_iff⟩
    · obtain ⟨le, hle, rfl⟩ := List.mem_map.1 hl
      exact of_decide_eq_true (List.mem_filter.1 hle).2
    · rw [EndpointsResource.endpoints, map_flatMap]
      exact hs.distinctAddresses

end

def socketEndpoint (host : String) (port : UInt32) : Envoy.LbEndpoint :=
  { hostIdentifier := some (.endpoint ⟨some ⟨some (.socketAddress ⟨host, some (.portValue port)⟩)⟩, []⟩)
    healthStatus := .healthy
    loadBalancingWeight := none }

def twoPriorities : Envoy.ClusterLoadAssignment :=
  { clusterName := "c"
    endpoints := [
      { locality := some ⟨"r", "z", "b"⟩, lbEndpoints := [socketEndpoint "b" 80], loadBalancingWeight := some 1,
        priority := 1 },
      { locality := some ⟨"r", "z", "c"⟩, lbEndpoints := [socketEndpoint "b" 80], loadBalancingWeight := none,
        priority := 7 },
      { locality := some ⟨"r", "z", "a"⟩, lbEndpoints := [socketEndpoint "a" 80, socketEndpoint "a" 81],
        loadBalancingWeight := some 2, priority := 0 }] }

theorem endpoints_validated_twoPriorities :
    validate twoPriorities = .ok (endpointsResource twoPriorities) ∧ MeetsA27 twoPriorities ∧
      ((endpointsResource twoPriorities).endpoints.map (·.address)).Nodup := by
  have hok : validate twoPriorities = .ok (endpointsResource twoPriorities) := by rfl
  obtain ⟨hi, hr⟩ := endpoints_validated twoPriorities
  exact ⟨hok, hi.1 ⟨_, hok⟩, (hr _ hok).2.2.1⟩

end GrpcXds.Eds
