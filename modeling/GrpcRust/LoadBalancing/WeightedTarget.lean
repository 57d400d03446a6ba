import GrpcRust.LoadBalancing.ChildRouting
import GrpcRust.LoadBalancing.Priority
import GrpcRust.LoadBalancing.Sampling
/-!
# The weighted_target policy

`client/load_balancing/weighted_target.rs`: a child for each target, drawn by weight from those in the aggregate
state. The conversion of the JSON text is left to its result.
-/

namespace LoadBalancing

open Lib List ChildManager

variable {D R P C W K E : Type}

structure TargetUpdate (D R : Type) extends PathUpdate D R where
  targetName : String

namespace WeightedTarget

def policyName : String := "weighted_target_experimental"

/-! ## Configurations -/

structure TargetConfig (P C : Type) where
  weight : UInt32
  builder : LbPolicyBuilder P
  config : C

structure WeightedTargetConfig (P C : Type) where
  targets : List (String × TargetConfig P C)
  sorted : (targets.map (·.1)).Pairwise (· < ·)

def parseConfig (converted : Except String (WeightedTargetConfig P C)) : Except String (WeightedTargetConfig P C) :=
  match converted with
  | .error e => .error (policyName ++ ": invalid config: " ++ e)
  | .ok parsed =>
    if parsed.targets.isEmpty then .error (policyName ++ ": invalid config: 'targets' must be non-empty")
    else
      match parsed.targets.find? fun target => target.2.weight = 0 with
      | some (targetName, _) =>
        .error (policyName ++ ": invalid config: target '" ++ targetName ++ "': weight must be greater than 0")
      | none => .ok parsed

structure Accepted (config : WeightedTargetConfig P C) : Prop where
  nonempty : config.targets ≠ []
  positive : ∀ target ∈ config.targets, 0 < target.2.weight

theorem accepted_of_parseConfig {c : Except String (WeightedTargetConfig P C)} {config : WeightedTargetConfig P C}
    (h : parseConfig c = .ok config) : Accepted config := by
  cases c with
  | error e => cases h
  | ok p =>
    simp only [parseConfig] at h
    split at h
    · cases h
    · rename_i hne
      split at h
      · cases h
      · rename_i hnone
        cases h
        refine ⟨fun hn => hne (by rw [hn]; rfl), fun t ht => ?_⟩
        have hz := List.find?_eq_none.1 hnone t ht
        exact UInt32.pos_iff_ne_zero.2 fun h0 => hz (decide_eq_true h0)

theorem WeightedTargetConfig.nodup (c : WeightedTargetConfig P C) : (c.targets.map (·.1)).Nodup :=
  c.sorted.imp fun h => ne_of_lt h

structure WeightedPicker (K : Type) where
  sampler : WeightedSampler (DynPicker K)

inductive Picked (K : Type) where
  | child (picker : DynPicker K)
  | drop (message : String)

def WeightedPicker.pick (picker : WeightedPicker K) (draw : UInt64) : Except WeightedSampler.Panic (Picked K) :=
  match picker.sampler.next draw with
  | .error panic => .error panic
  | .ok none => .ok (.drop (policyName ++ ": picker has no weighted children"))
  | .ok (some child) => .ok (.child child)

/-! ## The policy -/

inductive WeightedTargetPanic (E : Type) where
  | childManager (panic : ChildManagerPanic E)
  /-- "every child should have a weight" -/
  | weight

def WeightedTargetPanic.IsChild : WeightedTargetPanic E → Prop
  | .childManager panic => panic.IsChild
  | .weight => False

structure WeightedTargetPolicy (P K : Type) where
  childManager : ChildManager String P K
  weights : HashMap String UInt32
  requests : List (Request (WeightedPicker K))

namespace WeightedTargetPolicy

def new : WeightedTargetPolicy P K := ⟨.new, ∅, []⟩

def emit (p : WeightedTargetPolicy P K) (requests : List (Request (WeightedPicker K))) : WeightedTargetPolicy P K :=
  { p with requests := p.requests ++ requests }

def weightsOf (targets : List (String × TargetConfig P C)) : HashMap String UInt32 :=
  targets.foldl (fun weights target => weights.insert target.1 target.2.weight) ∅

def weighted (weights : HashMap String UInt32) (c : String × Child P K) :
    Except (WeightedTargetPanic E) (DynPicker K × UInt32) :=
  match weights.lookup c.1 with
  | some weight => .ok (c.2.state.picker, weight)
  | none => .error .weight

def childrenIn (p : WeightedTargetPolicy P K) (state : ConnectivityState) : List (String × Child P K) :=
  p.childManager.children.filter fun c => decide (c.2.state.connectivityState = state)

def childUpdates (update : PathUpdate D R) : Except String (HashMap String (List (PathEndpoint D))) →
    List (String × TargetConfig P C) → List (ChildUpdate String P (TargetUpdate D R) C)
  | _, [] => []
  | groupedEndpoints, (targetName, targetConfig) :: targets =>
    let endpoints := groupedEndpoints.map fun grouped => (grouped.lookup targetName).getD []
    ⟨targetName, targetConfig.builder, some (⟨update.withEndpoints endpoints, targetName⟩, targetConfig.config)⟩ ::
      childUpdates update (groupedEndpoints.map fun grouped => grouped.erase targetName) targets

section
variable [LbPolicy P (TargetUpdate D R) C W K E]

def updatePicker (p : WeightedTargetPolicy P K) : Except (WeightedTargetPanic E) (WeightedTargetPolicy P K) := do
  let (childManager, passed) ← p.childManager.exitIdle.mapError .childManager
  let p := { p with childManager := childManager.childUpdated.1 }.emit passed
  let connectivityState := p.childManager.aggregateStates
  let items ← (p.childrenIn connectivityState).mapM (weighted p.weights)
  return p.emit [.updatePicker ⟨connectivityState, .other ⟨.build items⟩⟩]

def resolverUpdate (p : WeightedTargetPolicy P K) (update : PathUpdate D R) (config : WeightedTargetConfig P C) :
    Except (WeightedTargetPanic E) (WeightedTargetPolicy P K × Except String Unit) := do
  let (childManager, passed, result) ←
    (p.childManager.update (childUpdates update (update.endpoints.map groupByPath) config.targets)).mapError
      .childManager
  let p ← ({ p with childManager := childManager, weights := weightsOf config.targets }.emit passed).updatePicker
  return (p, result.mapError fun e => policyName ++ ": failed to update children: " ++ e)

def updateIfChanged (p : WeightedTargetPolicy P K) : Except (WeightedTargetPanic E) (WeightedTargetPolicy P K) :=
  let (childManager, updated) := p.childManager.childUpdated
  let p := { p with childManager := childManager }
  if updated then p.updatePicker else .ok p

def work (p : WeightedTargetPolicy P K) (data : Option (ChildWorkItem W)) :
    Except (WeightedTargetPanic E) (WeightedTargetPolicy P K) := do
  let (childManager, passed) ← (p.childManager.work data).mapError .childManager
  ({ p with childManager := childManager }.emit passed).updateIfChanged

def exitIdle (p : WeightedTargetPolicy P K) : Except (WeightedTargetPanic E) (WeightedTargetPolicy P K) := do
  let (childManager, passed) ← p.childManager.exitIdle.mapError .childManager
  ({ p with childManager := childManager }.emit passed).updateIfChanged

end

inductive Call (D R P C W : Type) where
  | resolverUpdate (update : PathUpdate D R) (config : WeightedTargetConfig P C)
      (accepted : ∃ converted, parseConfig converted = .ok config)
  | work (data : Option (ChildWorkItem W))
  | exitIdle

structure Configured (P C K : Type) where
  policy : WeightedTargetPolicy P K
  targets : List (String × TargetConfig P C)

section
variable [LbPolicy P (TargetUpdate D R) C W K E]

def Configured.call (S : Configured P C K) (call : Call D R P C W) :
    Except (WeightedTargetPanic E) (Configured P C K) :=
  let p := { S.policy with requests := [] }
  match call with
  | .resolverUpdate update config _ => do
    let (p, _) ← p.resolverUpdate update config
    return ⟨p, config.targets⟩
  | .work data => do
    let p ← p.work data
    return { S with policy := p }
  | .exitIdle => do
    let p ← p.exitIdle
    return { S with policy := p }

def running : Transition (Configured P C K) (Call D R P C W) := ⟨⟨new, []⟩, fun S call => (S.call call).toOption⟩

end

/-- The picker is over the children in the aggregate state, with their weights, and there are some. -/
structure Configured.Delegates (S : Configured P C K) (state : LbState (WeightedPicker K)) : Prop where
  connectivityState : state.connectivityState = S.policy.childManager.aggregateStates
  picker : ∃ items, state.picker = .other ⟨.build items⟩ ∧ items ≠ [] ∧ (∀ item ∈ items, 0 < item.2) ∧
    List.Forall₂
      (fun c item => item.1 = c.2.state.picker ∧ ∃ config, (c.1, config) ∈ S.targets ∧ item.2 = config.weight)
      (S.policy.childrenIn S.policy.childManager.aggregateStates) items

/-- Children and weights are those of the last configuration. -/
structure Configured.Inv (S : Configured P C K) : Prop where
  routed : S.policy.childManager.Routed
  names : S.policy.childManager.children.map (·.1) = S.targets.map (·.1)
  weights : ∀ target ∈ S.targets, S.policy.weights.lookup target.1 = some target.2.weight
  positive : ∀ target ∈ S.targets, 0 < target.2.weight
  unchanged : S.targets = [] → S.policy.childManager.childrenChanged = false

structure Configured.Published (S : Configured P C K) : Prop extends S.Inv where
  requests : ∀ state, Request.updatePicker state ∈ S.policy.requests → S.Delegates state

/-! ## What is published -/

theorem lookup_weightsOf {ts : List (String × TargetConfig P C)} (hn : (ts.map (·.1)).Nodup)
    {t : String × TargetConfig P C} (h : t ∈ ts) : (weightsOf ts).lookup t.1 = some t.2.weight :=
  (HashMap.lookup_foldl_insert hn ∅ t.1 t.2.weight).2 (.inl ⟨t, h, rfl, rfl⟩)

theorem names_childUpdates (u : PathUpdate D R) (g : Except String (HashMap String (List (PathEndpoint D))))
    (ts : List (String × TargetConfig P C)) : (childUpdates u g ts).map (·.childIdentifier) = ts.map (·.1) := by
  induction ts generalizing g with
  | nil => rfl
  | cons t ts ih => rw [childUpdates, map_cons, map_cons, ih]

variable {S : Configured P C K}

theorem Configured.Inv.target (h : S.Inv) {c : String × Child P K}
    (hc : c ∈ S.policy.childManager.children) : ∃ cn, (c.1, cn) ∈ S.targets := by
  have hname : c.1 ∈ S.targets.map (·.1) := h.names ▸ mem_map_of_mem hc
  obtain ⟨t, ht, heq⟩ := List.mem_map.1 hname
  exact ⟨t.2, heq ▸ ht⟩

theorem Configured.Inv.weighted (h : S.Inv) {ch : List (String × Child P K)}
    (hs : ∀ c ∈ ch, c ∈ S.policy.childManager.children) :
    ∃ items, ch.mapM (weighted S.policy.weights) = (.ok items : Except (WeightedTargetPanic E) _) ∧
      (∀ item ∈ items, 0 < item.2) ∧
      List.Forall₂ (fun c item => item.1 = c.2.state.picker ∧ ∃ cn, (c.1, cn) ∈ S.targets ∧ item.2 = cn.weight)
        ch items := by
  induction ch with
  | nil => exact ⟨[], rfl, nofun, .nil⟩
  | cons c ch ih =>
    obtain ⟨hc, hs⟩ := List.forall_mem_cons.1 hs
    obtain ⟨items, hitems, hp, he⟩ := ih hs
    obtain ⟨cn, hcn⟩ := h.target hc
    refine ⟨(c.2.state.picker, cn.weight) :: items, ?_, ?_, .cons ⟨rfl, cn, hcn, rfl⟩ he⟩
    · rw [mapM_cons, WeightedTargetPolicy.weighted, h.weights _ hcn, hitems]
      rfl
    · exact List.forall_mem_cons.2 ⟨h.positive _ hcn, hp⟩

theorem Configured.Inv.continues (h : S.Inv) {m : ChildManager String P K}
    (hm : S.policy.childManager.Continues m) (hc : S.targets = [] → m.childrenChanged = false)
    (requests : List (Request (WeightedPicker K))) :
    Configured.Inv { S with policy := { S.policy with childManager := m, requests := requests } } :=
  ⟨h.routed.continues hm, (hm.map_eq fun id _ _ => id).trans h.names, h.weights, h.positive, hc⟩

theorem childrenIn_ne_nil {p : WeightedTargetPolicy P K} (h : p.childManager.children ≠ []) :
    p.childrenIn p.childManager.aggregateStates ≠ [] := by
  obtain ⟨⟨c, hc, hs⟩, -⟩ := p.childManager.aggregateStates_spec h
  exact ne_nil_of_mem (List.mem_filter.2 ⟨hc, decide_eq_true hs⟩)

section
variable [LbPolicy P (TargetUpdate D R) C W K E] {S : Configured P C K}

theorem outcome_updatePicker (h : S.Inv) (hne : S.targets ≠ []) (hrq : ∀ rq ∈ S.policy.requests, rq.picker? = none) :
    Outcome (S.policy.updatePicker : Except (WeightedTargetPanic E) _)
      (fun p => Configured.Published { S with policy := p })
      WeightedTargetPanic.IsChild := by
  unfold updatePicker
  refine (Outcome.mapError (R := WeightedTargetPanic.IsChild) h.routed.outcome_exitIdle).bind fun r hr => ?_
  obtain ⟨hcn, -, -, -, hp⟩ := hr
  have hi := (h.continues hcn (fun hn => absurd hn hne) S.policy.requests).continues
    (continues_childUpdated r.1) (fun hn => absurd hn hne) (S.policy.requests ++ r.2)
  set S₁ : Configured P C K :=
    { S with policy := { S.policy with childManager := r.1.childUpdated.1, requests := S.policy.requests ++ r.2 } }
  have hch : S₁.policy.childManager.children ≠ [] := fun hn => by
    have hnm := hi.names
    rw [hn] at hnm
    exact hne (List.map_eq_nil_iff.1 hnm.symm)
  have hs : ∀ c ∈ S₁.policy.childrenIn S₁.policy.childManager.aggregateStates, c ∈ S₁.policy.childManager.children :=
    fun c hc => (List.mem_filter.1 hc).1
  obtain ⟨im, hitems, hps, he⟩ := hi.weighted (E := E) hs
  have him : im ≠ [] := fun hn => childrenIn_ne_nil hch (by
    rw [hn] at he
    exact List.forall₂_nil_right_iff.1 he)
  show Outcome (do
    let im ← (S₁.policy.childrenIn S₁.policy.childManager.aggregateStates).mapM
      (WeightedTargetPolicy.weighted S₁.policy.weights)
    return S₁.policy.emit [.updatePicker ⟨S₁.policy.childManager.aggregateStates, .other ⟨.build im⟩⟩]) _ _
  rw [hitems]
  refine .ret ⟨⟨hi.routed, hi.names, hi.weights, hi.positive, hi.unchanged⟩, fun s hm => ?_⟩
  rcases List.mem_append.1 hm with hm | hm
  · rcases List.mem_append.1 hm with hm | hm
    · cases hrq _ hm
    · cases hp _ hm
  · cases List.mem_singleton.1 hm
    exact ⟨rfl, im, rfl, him, hps, he⟩

theorem outcome_updateIfChanged (h : S.Inv) (hr : ∀ r ∈ S.policy.requests, r.picker? = none) :
    Outcome (S.policy.updateIfChanged : Except (WeightedTargetPanic E) _)
      (fun p => Configured.Published { S with policy := p }) WeightedTargetPanic.IsChild := by
  have hi := h.continues (continues_childUpdated S.policy.childManager) (fun _ => rfl) S.policy.requests
  unfold updateIfChanged
  dsimp only
  split
  · rename_i hu
    refine outcome_updatePicker hi (fun hn => ?_) hr
    have hn' : S.targets = [] := hn
    have hc : S.policy.childManager.children = [] := by
      have hnm := h.names
      rw [hn'] at hnm
      exact List.map_eq_nil_iff.1 hnm
    simp [childUpdated, hc, h.unchanged hn'] at hu
  · exact .ret ⟨hi, fun s hm => by cases hr _ hm⟩

theorem outcome_resolverUpdate (h : S.Inv) (hrq : S.policy.requests = [])
    (u : PathUpdate D R) {c : WeightedTargetConfig P C} (ha : Accepted c) :
    Outcome (S.policy.resolverUpdate u c : Except (WeightedTargetPanic E) _)
      (fun r => Configured.Published ⟨r.1, c.targets⟩) WeightedTargetPanic.IsChild := by
  have hn := names_childUpdates u (u.endpoints.map groupByPath) c.targets
  refine (Outcome.mapError (R := WeightedTargetPanic.IsChild)
    (h.routed.outcome_update (hn ▸ c.nodup))).bind fun r hr => ?_
  obtain ⟨hrd, hrt, hps⟩ := hr
  have hi : Configured.Inv ⟨⟨r.1, weightsOf c.targets, S.policy.requests ++ r.2.1⟩, c.targets⟩ :=
    ⟨hrd, (identifiers_of_retained hrt).trans hn, fun _ => lookup_weightsOf c.nodup,
      ha.positive, fun hnl => absurd hnl ha.nonempty⟩
  refine Outcome.bind (outcome_updatePicker hi ha.nonempty fun rq hm => ?_) fun p hp => .ret hp
  rw [hrq, nil_append] at hm
  exact hps rq hm

theorem outcome_call (h : S.Inv) (c : Call D R P C W) :
    Outcome (S.call c : Except (WeightedTargetPanic E) _) Configured.Published WeightedTargetPanic.IsChild := by
  have h : Configured.Inv { S with policy := { S.policy with requests := [] } } :=
    ⟨h.routed, h.names, h.weights, h.positive, h.unchanged⟩
  cases c with
  | resolverUpdate u cf a =>
    obtain ⟨cn, hpr⟩ := a
    exact (outcome_resolverUpdate h rfl u (accepted_of_parseConfig hpr)).bind fun r hr => .ret hr
  | work d =>
    refine Outcome.bind ?_ fun p hp => .ret hp
    refine (Outcome.mapError (R := WeightedTargetPanic.IsChild) (h.routed.outcome_work d)).bind fun r hr => ?_
    obtain ⟨hc, -, -, hch, hps⟩ := hr
    exact outcome_updateIfChanged (h.continues hc (fun hn => hch.trans (h.unchanged hn)) r.2) hps
  | exitIdle =>
    refine Outcome.bind ?_ fun p hp => .ret hp
    refine (Outcome.mapError (R := WeightedTargetPanic.IsChild) h.routed.outcome_exitIdle).bind fun r hr => ?_
    obtain ⟨hc, -, -, hch, hps⟩ := hr
    exact outcome_updateIfChanged (h.continues hc (fun hn => hch.trans (h.unchanged hn)) r.2) hps

end

/-! ## Picks -/

theorem next_mem {s : WeightedSampler K} {d : UInt64} {sl : Option K} (h : s.next d = .ok sl)
    (hne : s.items ≠ []) : ∃ item ∈ s.items.map Prod.snd, sl = some item := by
  unfold WeightedSampler.next at h
  split at h
  · exact absurd ‹_› hne
  · rename_i w item hitems
    cases h
    exact ⟨item, by rw [hitems]; exact mem_singleton_self item, rfl⟩
  · dsimp only at h
    split at h
    · rename_i w item hg
      cases h
      exact ⟨item, List.mem_map.2 ⟨(w, item), mem_of_getElem? hg, rfl⟩, rfl⟩
    · cases h

theorem pick_build {items : List (DynPicker K × UInt32)} (hne : items ≠ []) (hps : ∀ item ∈ items, 0 < item.2)
    {d : UInt64} {p : Picked K} (h : (⟨.build items⟩ : WeightedPicker K).pick d = .ok p) :
    ∃ item ∈ items, p = .child item.1 := by
  have hp : positive items = items := List.filter_eq_self.2 fun item hm => decide_eq_true (hps item hm)
  have hmp : (WeightedSampler.build items).items.map Prod.snd = items.map Prod.fst := by
    rw [WeightedSampler.build_eq, accumulate_items, hp]
  have hitems : (WeightedSampler.build items).items ≠ [] := fun hnl => by
    rw [hnl] at hmp
    exact hne (List.map_eq_nil_iff.1 hmp.symm)
  unfold WeightedPicker.pick at h
  split at h
  · cases h
  · rename_i hn
    obtain ⟨item, -, hs⟩ := next_mem hn hitems
    cases hs
  · rename_i c hn
    obtain ⟨pc, hm, hs⟩ := next_mem hn hitems
    rw [hmp] at hm
    obtain ⟨item, hi, rfl⟩ := List.mem_map.1 hm
    cases hs
    cases h
    exact ⟨item, hi, rfl⟩

section
variable [LbPolicy P (TargetUpdate D R) C W K E]

theorem inv_of_reached {S : Configured P C K}
    (h : (running : Transition (Configured P C K) (Call D R P C W)).Reached S) : S.Inv := by
  have hi : (⟨new, []⟩ : Configured P C K).Inv := ⟨routed_new, rfl, nofun, nofun, fun _ => rfl⟩
  exact h.inv hi fun S call S' hS _ hs => ((outcome_call hS call).ok S' (ok_of_toOption hs)).toInv

/-- The policy panics only if a child does; a picker has the children in the aggregate state, with their last
weights. -/
theorem weighted_target_delegates {S : Configured P C K}
    (h : (running : Transition (Configured P C K) (Call D R P C W)).Reached S) (call : Call D R P C W) :
    (∀ pn, S.call call = .error pn → pn.IsChild) ∧
    ∀ S', S.call call = .ok S' → ∀ s, Request.updatePicker s ∈ S'.policy.requests →
      S'.Delegates s ∧ ∀ pc d p, s.picker = .other pc → pc.pick d = .ok p →
        ∃ c ∈ S'.policy.childrenIn S'.policy.childManager.aggregateStates, p = .child c.2.state.picker := by
  have hcl := outcome_call (inv_of_reached h) call
  refine ⟨hcl.error, fun S' hok s hm => ?_⟩
  have hd := (hcl.ok S' hok).requests s hm
  refine ⟨hd, fun pc d p hp hpc => ?_⟩
  obtain ⟨im, hitems, hne, hps, he⟩ := hd.picker
  cases hp.symm.trans hitems
  obtain ⟨item, hi, rfl⟩ := pick_build hne hps hpc
  obtain ⟨c, hc, hpk, -⟩ := ChildManager.exists_of_forall₂ he hi
  exact ⟨c, hc, by rw [hpk]⟩

end

def twoTargets : WeightedTargetConfig (StubPolicy (TargetUpdate Unit Unit) Unit Nat) Unit :=
  let builder := ⟨"stub", fun _ => ⟨fun _ => ([], .ok ()), fun _ => []⟩⟩
  ⟨[("a", ⟨1, builder, ()⟩), ("b", ⟨3, builder, ()⟩)], by decide⟩

theorem weighted_target_delegates_two : ∃ (S : Configured (StubPolicy (TargetUpdate Unit Unit) Unit Nat) Unit Nat)
    (state : LbState (WeightedPicker Nat)), Request.updatePicker state ∈ S.policy.requests ∧ S.Delegates state := by
  let c : Call Unit Unit (StubPolicy (TargetUpdate Unit Unit) Unit Nat) Unit Unit :=
    .resolverUpdate ⟨.ok [], ()⟩ twoTargets ⟨.ok twoTargets, rfl⟩
  have hc := (weighted_target_delegates .init c).2 _ rfl
  exact ⟨_, _, .head _, (hc _ (.head _)).1⟩

end WeightedTargetPolicy

end WeightedTarget

end LoadBalancing
