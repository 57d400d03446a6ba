import GrpcRust.LoadBalancing.Child
/-!
# Graceful switch

`client/load_balancing/graceful_switch.rs`: a new policy is pending until it has left `CONNECTING` or the active one
is no longer `READY`. An `unwrap` is a panic.
-/

namespace LoadBalancing

open Lib

variable {P U C W K E : Type}

structure GracefulSwitchLbConfig (P C : Type) where
  childBuilder : LbPolicyBuilder P
  childConfig : C

/-- The policy, the next child's handle, and what has been asked of the channel in the current call. -/
structure GracefulSwitchPolicy (P K : Type) where
  active : Option (Child P K)
  pending : Option (Child P K)
  nextHandle : Nat
  requests : List (Request K)

inductive GracefulSwitchPanic (E : Type) where
  | child (panic : E)
  | latestChild
  | activeChild

namespace GracefulSwitchPolicy

def new : GracefulSwitchPolicy P K := ⟨none, none, 0, []⟩

variable (p : GracefulSwitchPolicy P K)

def emit (requests : List (Request K)) : GracefulSwitchPolicy P K := { p with requests := p.requests ++ requests }

def latestChild : Option (Child P K) := p.pending.or p.active

/-- What the reference of `latest_child` is used for: the child is replaced where it is. -/
def setLatestChild (child : Child P K) : GracefulSwitchPolicy P K :=
  if p.pending.isSome then { p with pending := some child } else { p with active := some child }

def selectChild (builder : LbPolicyBuilder P) : GracefulSwitchPolicy P K :=
  match p.active with
  | none => { p with active := some (.new builder p.nextHandle), nextHandle := p.nextHandle + 1 }
  | some active =>
    if active.name = builder.name then { p with active := some (active.setSuppressResolution false), pending := none }
    else if p.pending.any fun pending => decide (pending.name = builder.name) then p
    else
      { p with
        active := some (active.setSuppressResolution true)
        pending := some (.new builder p.nextHandle)
        nextHandle := p.nextHandle + 1 }

def swap : Except (GracefulSwitchPanic E) Bool :=
  match p.pending with
  | none => .ok false
  | some pending =>
    if pending.state.connectivityState ≠ .connecting then .ok true
    else
      match p.active with
      | none => .error .activeChild
      | some active => .ok (decide (active.state.connectivityState ≠ .ready))

def clear : GracefulSwitchPolicy P K :=
  { p with pending := p.pending.map .clearUpdated, active := p.active.map .clearUpdated }

def reconcile : Except (GracefulSwitchPanic E) (GracefulSwitchPolicy P K) :=
  let pendingUpdated := p.pending.any (·.updated)
  let activeUpdated := p.active.any (·.updated)
  let p := p.clear
  if !pendingUpdated && !activeUpdated then .ok p
  else do
    let swap ← p.swap
    let p := if swap then { p with active := p.pending, pending := none } else p
    if swap || activeUpdated then
      match p.active with
      | none => .error .activeChild
      | some active => return p.emit [.updatePicker active.state]
    else return p

variable [LbPolicy P U C W K E]

variable (p : GracefulSwitchPolicy P K) (data : Option (ChildWorkItem W)) (update : U)
  (config : GracefulSwitchLbConfig P C)

def updateChild : Except (GracefulSwitchPanic E) (GracefulSwitchPolicy P K × Except String Unit) :=
  let p := p.selectChild config.childBuilder
  match p.latestChild with
  | none => .error .latestChild
  | some child => do
    let (child, requests, result) ← (child.resolverUpdate update config.childConfig).mapError .child
    return ((p.setLatestChild child).emit requests, result)

def resolverUpdate : Except (GracefulSwitchPanic E) (GracefulSwitchPolicy P K × Except String Unit) := do
  let (p, result) ← p.updateChild update config
  let p ← p.reconcile
  return (p, result)

def offer (child : Option (Child P K)) (item : ChildWorkItem W) :
    Except (GracefulSwitchPanic E) (Option (Child P K × List (Request K))) :=
  match child with
  | none => .ok none
  | some child => (child.tryWork item).mapError .child

/-- The child that claims the item in `work`, up to the call of `reconcile`; nothing before the first update. -/
def workChild : Except (GracefulSwitchPanic E) (Option (GracefulSwitchPolicy P K)) :=
  match data with
  | none => .ok none
  | some item => do
    match ← offer p.pending item with
    | some (pending, requests) => return some ({ p with pending := some pending }.emit requests)
    | none =>
      if p.active.isNone then return none
      else
        match ← offer p.active item with
        | some (active, requests) => return some ({ p with active := some active }.emit requests)
        | none => return some p

def work : Except (GracefulSwitchPanic E) (GracefulSwitchPolicy P K) := do
  match ← p.workChild data with
  | none => return p
  | some p => p.reconcile

def exitIdleChild : Except (GracefulSwitchPanic E) (Option (GracefulSwitchPolicy P K)) :=
  match p.latestChild with
  | none => .ok none
  | some child => do
    let (child, requests) ← child.exitIdle.mapError .child
    return some ((p.setLatestChild child).emit requests)

def exitIdle : Except (GracefulSwitchPanic E) (GracefulSwitchPolicy P K) := do
  match ← p.exitIdleChild with
  | none => return p
  | some p => p.reconcile

end GracefulSwitchPolicy

/-- The policy as the child of another one. -/
instance [LbPolicy P U C W K E] : LbPolicy (GracefulSwitchPolicy P K) U (GracefulSwitchLbConfig P C)
    (ChildWorkItem W) K (GracefulSwitchPanic E) where
  resolverUpdate p update config := do
    let (p, result) ← { p with requests := [] }.resolverUpdate update config
    return (p, p.requests, result)
  work p data := do
    let p ← { p with requests := [] }.work data
    return (p, p.requests)
  exitIdle p := do
    let p ← { p with requests := [] }.exitIdle
    return (p, p.requests)

namespace GracefulSwitchPolicy

inductive Call (P U C W : Type) where
  | resolverUpdate (update : U) (config : GracefulSwitchLbConfig P C)
  | work (data : Option (ChildWorkItem W))
  | exitIdle

section
variable [LbPolicy P U C W K E]

variable (p : GracefulSwitchPolicy P K)

/-- The policy after the child has been called, before `reconcile`; nothing if none is called. -/
def callChild : Call P U C W → Except (GracefulSwitchPanic E) (Option (GracefulSwitchPolicy P K))
  | .resolverUpdate update config => (p.updateChild update config).map fun r => some r.1
  | .work data => p.workChild data
  | .exitIdle => p.exitIdleChild

def call : Call P U C W → Except (GracefulSwitchPanic E) (GracefulSwitchPolicy P K)
  | .resolverUpdate update config => (p.resolverUpdate update config).map (·.1)
  | .work data => p.work data
  | .exitIdle => p.exitIdle

theorem call_eq (call : Call P U C W) : p.call call = p.callChild call >>= fun c => c.elim (.ok p) reconcile := by
  cases call with
  | resolverUpdate u cn =>
    simp only [GracefulSwitchPolicy.call, callChild, resolverUpdate]
    cases p.updateChild u cn with
    | error e => rfl
    | ok r =>
      show Except.map _ (r.1.reconcile >>= fun p => pure (p, r.2)) = r.1.reconcile
      cases (r.1.reconcile : Except (GracefulSwitchPanic E) _) <;> rfl
  | work d =>
    simp only [GracefulSwitchPolicy.call, callChild, work]
    congr 1
    funext c
    cases c <;> rfl
  | exitIdle =>
    simp only [GracefulSwitchPolicy.call, callChild, exitIdle]
    congr 1
    funext c
    cases c <;> rfl
end

variable (p : GracefulSwitchPolicy P K)

def Produced : Prop :=
  (∃ child, p.pending = some child ∧ child.updated = true) ∨ ∃ child, p.active = some child ∧ child.updated = true

/-! ## The invariant -/

structure Arranged (p : GracefulSwitchPolicy P K) : Prop where
  pending : ∀ pending, p.pending = some pending → pending.suppressResolution = false ∧
    ∃ active, p.active = some active ∧ active.name ≠ pending.name ∧ active.handle < pending.handle
  suppressed : ∀ active, p.active = some active → active.suppressResolution = p.pending.isSome
  handles : ∀ child, p.active = some child ∨ p.pending = some child → child.handle < p.nextHandle

structure Called (p : GracefulSwitchPolicy P K) (published : Option (LbState K)) : Prop extends Arranged p where
  published : ∀ state, published = some state → ∃ active, p.active = some active ∧
    (active.updated = true ∨ active.state = state)
  requests : ∀ request ∈ p.requests, request.picker? = none

structure Switching (p : GracefulSwitchPolicy P K) (published : Option (LbState K)) : Prop extends Arranged p where
  published : ∀ state, published = some state → ∃ active, p.active = some active ∧ active.state = state
  settled : ¬ p.Produced

theorem Arranged.clear {p : GracefulSwitchPolicy P K} (h : Arranged p) : Arranged p.clear := by
  refine ⟨fun pn hp => ?_, fun a ha => ?_, fun c hc => ?_⟩
  · obtain ⟨pn, hp', rfl⟩ := Option.map_eq_some_iff.1 hp
    obtain ⟨hs, a, ha, hn, hh⟩ := h.pending pn hp'
    exact ⟨hs, a.clearUpdated, by simp [GracefulSwitchPolicy.clear, ha], hn, hh⟩
  · obtain ⟨a, ha', rfl⟩ := Option.map_eq_some_iff.1 ha
    exact (h.suppressed a ha').trans (by simp [GracefulSwitchPolicy.clear])
  · rcases hc with hc | hc <;> obtain ⟨c, hc', rfl⟩ := Option.map_eq_some_iff.1 hc
    · exact h.handles c (.inl hc')
    · exact h.handles c (.inr hc')

theorem Arranged.newest {p : GracefulSwitchPolicy P K} (h : Arranged p) {child o : Child P K}
    (hl : p.latestChild = some child) (ho : p.active = some o ∨ p.pending = some o) : o.handle ≤ child.handle := by
  unfold latestChild at hl
  cases hp : p.pending with
  | none =>
    rw [hp] at hl ho
    rcases ho with ho | ho
    · cases hl.symm.trans ho
      exact Nat.le_refl _
    · cases ho
  | some pn =>
    obtain rfl : pn = child := by simpa [hp] using hl
    obtain ⟨-, a, ha, -, hlt⟩ := h.pending pn hp
    rcases ho with ho | ho
    · cases ha.symm.trans ho
      exact Nat.le_of_lt hlt
    · cases hp.symm.trans ho
      exact Nat.le_refl _

theorem not_produced_clear : ¬ p.clear.Produced := by
  rintro (⟨c, hc, hu⟩ | ⟨c, hc, hu⟩) <;> obtain ⟨c, -, rfl⟩ := Option.map_eq_some_iff.1 hc <;> cases hu

theorem swap_ok {p : GracefulSwitchPolicy P K} (h : ∀ pn, p.pending = some pn → ∃ a, p.active = some a) :
    ∃ b, (p.swap : Except (GracefulSwitchPanic E) Bool) = .ok b ∧ (b = true → ∃ pn, p.pending = some pn) ∧
      (b = false → ∀ pn, p.pending = some pn → pn.state.connectivityState = .connecting ∧
        ∃ a, p.active = some a ∧ a.state.connectivityState = .ready) := by
  unfold swap
  cases hp : p.pending with
  | none => exact ⟨false, rfl, fun h => (by cases h), fun _ _ h => (by cases h)⟩
  | some pn =>
    obtain ⟨a, ha⟩ := h pn hp
    by_cases hc : pn.state.connectivityState = .connecting
    · rw [ha]
      refine ⟨_, by simp only [hc]; rfl, fun _ => ⟨pn, rfl⟩, fun hb pn' hp' => ?_⟩
      cases hp'
      refine ⟨hc, a, rfl, ?_⟩
      simpa using hb
    · refine ⟨true, if_pos hc, fun _ => ⟨pn, rfl⟩, nofun⟩

theorem latestChild_clear : p.clear.latestChild = p.latestChild.map .clearUpdated := by
  simp only [latestChild, clear]
  cases p.pending <;> rfl

section
variable {p : GracefulSwitchPolicy P K} {published : Option (LbState K)}

section
variable (h : Called p published)
include h

theorem Called.kept (ha : p.active.any (·.updated) = false) :
    Switching p.clear (lastPicker published p.clear.requests) := by
  refine ⟨h.toArranged.clear, fun state hst => ?_, not_produced_clear p⟩
  have hst : lastPicker published p.requests = some state := hst
  rw [lastPicker_eq h.requests] at hst
  obtain ⟨a, hac, hu⟩ := h.published state hst
  refine ⟨a.clearUpdated, by simp [clear, hac], hu.resolve_left fun hu => ?_⟩
  simp [hac, hu] at ha

theorem Called.swapped {pending : Child P K} (hp : p.clear.pending = some pending) :
    let p' := { p.clear with active := some pending, pending := none }.emit [.updatePicker pending.state]
    Switching p' (lastPicker published p'.requests) := by
  obtain ⟨hs, -⟩ := h.toArranged.clear.pending pending hp
  refine ⟨⟨?_, ?_, ?_⟩, ?_, ?_⟩
  · rintro pending ⟨⟩
  · rintro active ⟨⟩
    exact hs
  · rintro c (⟨⟨⟩⟩ | ⟨⟨⟩⟩)
    exact h.toArranged.clear.handles _ (.inr hp)
  · intro s hst
    rw [emit, lastPicker_snoc] at hst
    cases hst
    exact ⟨pending, rfl, rfl⟩
  · rintro (⟨c, hc, hu⟩ | ⟨c, hc, hu⟩)
    · cases hc
    · cases hc
      exact not_produced_clear p (.inl ⟨_, hp, hu⟩)

theorem Called.forwarded {a : Child P K} (ha : p.clear.active = some a) :
    Switching (p.clear.emit [.updatePicker a.state])
      (lastPicker published (p.clear.emit [.updatePicker a.state]).requests) := by
  have har := h.toArranged.clear
  refine ⟨⟨har.pending, har.suppressed, har.handles⟩, fun s hst => ?_, not_produced_clear p⟩
  rw [emit, lastPicker_snoc] at hst
  cases hst
  exact ⟨a, ha, rfl⟩

theorem reconcile_ok :
    ∃ p', (p.reconcile : Except (GracefulSwitchPanic E) _) = .ok p' ∧ Switching p' (lastPicker published p'.requests) ∧
      p'.latestChild = p.latestChild.map .clearUpdated ∧
      (p.Produced → ∀ pn, p'.pending = some pn → pn.state.connectivityState = .connecting ∧
        ∃ a, p'.active = some a ∧ a.state.connectivityState = .ready) := by
  have hl := latestChild_clear p
  unfold reconcile
  dsimp only
  split
  · rename_i hf
    simp only [Bool.and_eq_true, Bool.not_eq_true'] at hf
    refine ⟨p.clear, rfl, h.kept hf.2, hl, fun hpr => ?_⟩
    rcases hpr with ⟨c, hc, hu⟩ | ⟨c, hc, hu⟩ <;> simp [hc, hu] at hf
  · obtain ⟨b, hb, ht, hfl⟩ := swap_ok (E := E) fun pn hp => (h.toArranged.clear.pending pn hp).2.imp
      fun _ ha => ha.1
    rw [hb]
    cases b with
    | true =>
      obtain ⟨pn, hp⟩ := ht rfl
      refine ⟨_, ?_, h.swapped hp, ?_, fun _ _ h => by cases h⟩
      · simp [bind, Except.bind, hp]; rfl
      · rw [← hl, latestChild, latestChild, hp]
        rfl
    | false =>
      have hr := hfl rfl
      cases ha : p.active.any (·.updated) with
      | false => exact ⟨p.clear, rfl, h.kept ha, hl, fun _ => hr⟩
      | true =>
        obtain ⟨a, hac, -⟩ := (Option.any_eq_true _ _).1 ha
        have hac : p.clear.active = some a.clearUpdated := by simp [clear, hac]
        refine ⟨_, ?_, h.forwarded hac, hl, fun _ => hr⟩
        simp [bind, Except.bind, hac]; rfl

end

end

/-! ## What each call does -/

section
variable {p : GracefulSwitchPolicy P K} {published : Option (LbState K)} {child child' : Child P K}
  {requests : List (Request K)}

theorem Called.setPending (h : Called p published) (hp : p.pending = some child) (hru : child.Runs child' requests) :
    Called ({ p with pending := some child' }.emit requests) published := by
  obtain ⟨hrn, hr⟩ := hru
  refine ⟨⟨fun pending hp' => ?_, fun a ha => ?_, fun c hc => ?_⟩, h.published, fun r hm => ?_⟩
  · cases hp'
    obtain ⟨hs, a, ha, hn, hh⟩ := h.pending child hp
    refine ⟨hrn.suppressResolution.trans hs, a, ha, ?_, ?_⟩
    · rw [hrn.name]
      exact hn
    · rw [hrn.handle]
      exact hh
  · rw [h.suppressed a ha, hp]
    rfl
  · rcases hc with hc | hc
    · exact h.handles c (.inl hc)
    · cases hc
      rw [hrn.handle]
      exact h.handles child (.inr hp)
  · exact (List.mem_append.1 hm).elim (h.requests r) (hr r)

theorem Called.setActive (h : Called p published) (ha : p.active = some child) (hru : child.Runs child' requests) :
    Called ({ p with active := some child' }.emit requests) published := by
  obtain ⟨hrn, hr⟩ := hru
  refine ⟨⟨fun pn hp => ?_, fun active ha' => ?_, fun c hc => ?_⟩, fun s hst => ?_, fun r hm => ?_⟩
  · obtain ⟨hs, active, ha', hn, hh⟩ := h.pending pn hp
    cases ha.symm.trans ha'
    refine ⟨hs, child', rfl, ?_, ?_⟩
    · rw [hrn.name]
      exact hn
    · rw [hrn.handle]
      exact hh
  · cases ha'
    exact hrn.suppressResolution.trans (h.suppressed child ha)
  · rcases hc with hc | hc
    · cases hc
      rw [hrn.handle]
      exact h.handles child (.inl ha)
    · exact h.handles c (.inr hc)
  · obtain ⟨active, ha', hu⟩ := h.published s hst
    cases ha.symm.trans ha'
    refine ⟨child', rfl, ?_⟩
    rcases hrn.state with hu' | ⟨hu', hs'⟩
    · exact .inl hu'
    · rw [hu', hs']
      exact hu
  · exact (List.mem_append.1 hm).elim (h.requests r) (hr r)

theorem Called.setLatestChild (h : Called p published) (hl : p.latestChild = some child)
    (hr : child.Runs child' requests) : Called ((p.setLatestChild child').emit requests) published := by
  unfold GracefulSwitchPolicy.setLatestChild
  cases hp : p.pending with
  | some pn =>
    obtain rfl : pn = child := by simpa [latestChild, hp] using hl
    exact h.setPending hp hr
  | none =>
    have ha : p.active = some child := by simpa [latestChild, hp] using hl
    have h' := h.setActive ha hr
    rw [hp] at h'
    exact h'

theorem Switching.called (h : Switching p published) (hr : p.requests = []) : Called p published where
  toArranged := h.toArranged
  published state hst := (h.published state hst).imp fun _ ha => ⟨ha.1, .inr ha.2⟩
  requests := by simp [hr]

theorem Switching.selectChild (h : Switching p published) (hr : p.requests = []) (b : LbPolicyBuilder P) :
    Called (p.selectChild b) published ∧ ∃ c, (p.selectChild b).latestChild = some c ∧ c.name = b.name ∧
      (c = .new b p.nextHandle ∨
        ∃ old, (p.active = some old ∨ p.pending = some old) ∧ old.handle = c.handle ∧ old.policy = c.policy) := by
  unfold GracefulSwitchPolicy.selectChild
  cases ha : p.active with
  | none =>
    have hp : p.pending = none := Option.eq_none_iff_forall_ne_some.2 fun pn hp => by
      obtain ⟨-, a, ha', -⟩ := h.pending pn hp
      cases ha.symm.trans ha'
    refine ⟨⟨⟨?_, ?_, ?_⟩, ?_, ?_⟩, .new b p.nextHandle, ?_, rfl, .inl rfl⟩
    · intro pn hp'
      cases hp.symm.trans hp'
    · rintro a ⟨⟩
      simp [Child.new, hp]
    · rintro c (⟨⟨⟩⟩ | hc)
      · exact Nat.lt_succ_self _
      · cases hp.symm.trans hc
    · intro s hst
      obtain ⟨a, ha', -⟩ := h.published s hst
      cases ha.symm.trans ha'
    · simp [hr]
    · simp [latestChild, hp]
  | some a =>
    dsimp only
    split
    · rename_i hname
      -- The active child again: a pending one is abandoned.
      refine ⟨⟨⟨?_, ?_, ?_⟩, ?_, ?_⟩, a.setSuppressResolution false, rfl, hname, .inr ⟨a, .inl rfl, rfl, rfl⟩⟩
      · rintro pn ⟨⟩
      · rintro a ⟨⟩
        rfl
      · rintro c (⟨⟨⟩⟩ | ⟨⟨⟩⟩)
        exact h.handles a (.inl ha)
      · intro s hst
        obtain ⟨a', ha', hs⟩ := h.published s hst
        cases ha.symm.trans ha'
        exact ⟨_, rfl, .inr hs⟩
      · simp [hr]
    · rename_i hname
      split
      · rename_i hp
        obtain ⟨pn, hp, hn⟩ := (Option.any_eq_true _ _).1 hp
        refine ⟨h.called hr, pn, by simp [latestChild, hp], of_decide_eq_true hn, .inr ⟨pn, .inr hp, rfl, rfl⟩⟩
      · -- A pending child of a third name is replaced, too.
        have hlt := h.handles a (.inl ha)
        refine ⟨⟨⟨?_, ?_, ?_⟩, ?_, ?_⟩, .new b p.nextHandle, rfl, rfl, .inl rfl⟩
        · rintro pn ⟨⟩
          exact ⟨rfl, a.setSuppressResolution true, rfl, hname, hlt⟩
        · rintro a ⟨⟩
          rfl
        · rintro c (⟨⟨⟩⟩ | ⟨⟨⟩⟩)
          · exact Nat.lt_succ_of_lt hlt
          · exact Nat.lt_succ_self _
        · intro s hst
          obtain ⟨a', ha', hs⟩ := h.published s hst
          cases ha.symm.trans ha'
          exact ⟨_, rfl, .inr hs⟩
        · simp [hr]
variable [LbPolicy P U C W K E]

def Receives (p : GracefulSwitchPolicy P K) (update : U) (config : GracefulSwitchLbConfig P C) (child : Child P K) :
    Prop :=
  child.name = config.childBuilder.name ∧ ∃ before requests result,
    LbPolicy.resolverUpdate before update config.childConfig = .ok (child.policy, requests, result) ∧
    (child.handle = p.nextHandle ∧ before = config.childBuilder.build p.nextHandle ∨
      ∃ old, (p.active = some old ∨ p.pending = some old) ∧ old.handle = child.handle ∧ old.policy = before)

omit [LbPolicy P U C W K E] in
theorem latestChild_setLatestChild (p : GracefulSwitchPolicy P K) (child : Child P K) (rs : List (Request K)) :
    ((p.setLatestChild child).emit rs).latestChild = some child := by
  unfold GracefulSwitchPolicy.setLatestChild
  cases hp : p.pending with
  | none => rfl
  | some pn => rfl

theorem outcome_updateChild (h : Switching p published) (hr : p.requests = []) (u : U)
    (c : GracefulSwitchLbConfig P C) : Outcome (p.updateChild u c)
      (fun r => Called r.1 published ∧ ∃ ch, r.1.latestChild = some ch ∧ p.Receives u c ch)
      fun e => ∃ panic, e = .child panic := by
  obtain ⟨hc, ch, hl, hname, hol⟩ := h.selectChild hr c.childBuilder
  simp only [updateChild, hl]
  refine Outcome.bind (.mapError ((ch.outcome_resolverUpdate u c.childConfig).mono (fun _ => id)
    fun e _ => ⟨e, rfl⟩)) fun r hru => .ret ⟨hc.setLatestChild hl hru.1, r.1, latestChild_setLatestChild _ _ _, ?_⟩
  obtain ⟨⟨hrn, -⟩, rs, hup⟩ := hru
  refine ⟨hrn.name.trans hname, ch.policy, rs, r.2.2, hup, ?_⟩
  rcases hol with rfl | ⟨old, ho, hh, hp⟩
  · exact .inl ⟨hrn.handle, rfl⟩
  · exact .inr ⟨old, ho, hh.trans hrn.handle.symm, hp⟩

theorem outcome_offer (ch : Option (Child P K)) (item : ChildWorkItem W) :
    Outcome (offer ch item) (fun cl => ∀ r, cl = some r → ∃ c, ch = some c ∧ c.Runs r.1 r.2)
      fun e => ∃ panic, e = .child panic := by
  cases ch with
  | none => exact .ret fun _ h => by cases h
  | some c => exact .mapError ((c.outcome_tryWork item).mono (fun _ h r hr => ⟨c, rfl, h r hr⟩) fun e _ => ⟨e, rfl⟩)

theorem outcome_workChild (h : Called p published) (d : Option (ChildWorkItem W)) :
    Outcome (p.workChild d) (fun cl => ∀ p', cl = some p' → Called p' published)
      fun e => ∃ panic, e = .child panic := by
  cases d with
  | none => exact .ret fun _ h => by cases h
  | some item =>
    refine (outcome_offer p.pending item).bind fun c hcl => ?_
    cases c with
    | some r =>
      obtain ⟨pn, hp, hr⟩ := hcl r rfl
      refine .ret ?_
      rintro _ ⟨⟩
      exact h.setPending hp hr
    | none =>
      dsimp only
      split
      · exact .ret fun _ h => by cases h
      · refine (outcome_offer p.active item).bind fun c hcl => ?_
        cases c with
        | some r =>
          obtain ⟨a, ha, hr⟩ := hcl r rfl
          refine .ret ?_
          rintro _ ⟨⟩
          exact h.setActive ha hr
        | none =>
          refine .ret ?_
          rintro _ ⟨⟩
          exact h

theorem outcome_exitIdleChild (h : Called p published) :
    Outcome p.exitIdleChild (fun c => ∀ p', c = some p' → Called p' published)
      fun e => ∃ panic, e = .child panic := by
  unfold exitIdleChild
  cases hl : p.latestChild with
  | none => exact .ret fun _ h => by cases h
  | some ch =>
    refine Outcome.bind (.mapError (ch.outcome_exitIdle.mono (fun _ => id) fun e _ => ⟨e, rfl⟩)) fun r hr => .ret ?_
    rintro _ ⟨⟩
    exact h.setLatestChild hl hr

theorem outcome_callChild (h : Switching p published) (hr : p.requests = []) (call : Call P U C W) :
    Outcome (p.callChild call)
      (fun cl => ∀ p', cl = some p' → Called p' published ∧
        ∀ u c, call = .resolverUpdate u c → ∃ ch, p'.latestChild = some ch ∧ p.Receives u c ch)
      fun e => ∃ panic, e = .child panic := by
  cases call with
  | resolverUpdate u c =>
    refine .map ((outcome_updateChild h hr u c).mono (fun r hc => ?_) fun _ => id)
    rintro _ ⟨⟩
    refine ⟨hc.1, ?_⟩
    rintro _ _ ⟨⟩
    exact hc.2
  | work d =>
    exact (outcome_workChild (h.called hr) d).mono
      (fun _ hc p' hp => ⟨hc p' hp, fun _ _ he => by cases he⟩) fun _ => id
  | exitIdle =>
    exact (outcome_exitIdleChild (h.called hr)).mono (fun _ hc p' hp => ⟨hc p' hp, fun _ _ he => by cases he⟩)
      fun _ => id

theorem outcome_call (h : Switching p published) (hr : p.requests = []) (call : Call P U C W) : Outcome (p.call call)
      (fun p' => Switching p' (lastPicker published p'.requests) ∧
        (∀ u cn, call = .resolverUpdate u cn → ∃ ch, p'.latestChild = some ch ∧ p.Receives u cn ch) ∧
        ∀ c, p.callChild call = .ok (some c) → c.Produced → ∀ pn, p'.pending = some pn →
          pn.state.connectivityState = .connecting ∧
          ∃ a, p'.active = some a ∧ a.state.connectivityState = .ready)
      fun e => ∃ panic, e = .child panic := by
  rw [call_eq]
  cases hcl : p.callChild call with
  | error e => exact .panic ((outcome_callChild h hr call).error e hcl)
  | ok c =>
    have hc := (outcome_callChild h hr call).ok c hcl
    cases c with
    | none =>
      refine .ret ⟨?_, fun u cn he => ?_, fun _ h => by cases h⟩
      · rw [hr]
        exact h
      · -- An update always reaches a child.
        subst he
        simp only [callChild] at hcl
        cases hu : p.updateChild u cn with
        | error e => rw [hu] at hcl; cases hcl
        | ok r => rw [hu] at hcl; cases hcl
    | some c =>
      obtain ⟨hca, hrc⟩ := hc c rfl
      obtain ⟨p', hok, hsw, hlt, hp⟩ := reconcile_ok (E := E) hca
      have hrt : (Except.ok (some c) >>= fun c => c.elim (.ok p) reconcile) =
          (.ok p' : Except (GracefulSwitchPanic E) _) := hok
      rw [hrt]
      refine .ret ⟨hsw, fun u cn he => ?_, ?_⟩
      · obtain ⟨ch, hl, hr⟩ := hrc u cn he
        exact ⟨ch.clearUpdated, by rw [hlt, hl]; rfl, hr⟩
      · rintro _ ⟨⟩
        exact hp

end

structure Observed (P K : Type) where
  policy : GracefulSwitchPolicy P K
  published : Option (LbState K)

namespace Observed
variable [LbPolicy P U C W K E] {O : Observed P K}

def init : Observed P K := ⟨.new, none⟩

def step (O : Observed P K) (call : Call P U C W) : Except (GracefulSwitchPanic E) (Observed P K) := do
  let policy ← { O.policy with requests := [] }.call call
  return ⟨policy, lastPicker O.published policy.requests⟩

inductive Reachable : Observed P K → Prop where
  | init : Reachable .init
  | step {O O' : Observed P K} (call : Call P U C W) : Reachable O → O.step call = .ok O' → Reachable O'

omit [LbPolicy P U C W K E] in
theorem switching_init : Switching (init : Observed P K).policy (init : Observed P K).published := by
  refine ⟨⟨?_, ?_, ?_⟩, ?_, ?_⟩
  · rintro p ⟨⟩
  · rintro a ⟨⟩
  · rintro c (⟨⟨⟩⟩ | ⟨⟨⟩⟩)
  · rintro s ⟨⟩
  · rintro (⟨c, ⟨⟩, -⟩ | ⟨c, ⟨⟩, -⟩)

theorem outcome_step (h : Switching O.policy O.published) (c : Call P U C W) : Outcome (O.step c)
      (fun O' => Switching O'.policy O'.published ∧
        (∀ u cn, c = .resolverUpdate u cn → ∃ ch, O'.policy.latestChild = some ch ∧ O.policy.Receives u cn ch) ∧
        ∀ cl, { O.policy with requests := [] }.callChild c = .ok (some cl) → cl.Produced →
          ∀ p, O'.policy.pending = some p → p.state.connectivityState = .connecting ∧
          ∃ a, O'.policy.active = some a ∧ a.state.connectivityState = .ready)
      fun e => ∃ panic, e = .child panic := by
  have h0 : Switching { O.policy with requests := [] } O.published :=
    ⟨⟨h.pending, h.suppressed, h.handles⟩, h.published, h.settled⟩
  exact (outcome_call h0 rfl c).bind fun p' hp' => .ret hp'

theorem Reachable.switching (h : O.Reachable) : Switching O.policy O.published := by
  induction h with
  | init => exact switching_init
  | step c _ hok ih => exact ((outcome_step ih c).ok _ hok).1

end Observed

/-- A pending child is beside an active one of another name and waits only while it connects; the active one is
published. -/
theorem switches_gracefully [LbPolicy P U C W K E] {O : Observed P K} (h : O.Reachable) :
    (∀ p, O.policy.pending = some p → ∃ a, O.policy.active = some a ∧ a.name ≠ p.name) ∧
    (∀ a, O.policy.active = some a → ∀ requests : List (Request K),
      (.requestResolution ∈ (a.record requests : _ × List (Request K)).2 ↔
        .requestResolution ∈ requests ∧ O.policy.pending = none)) ∧
    (∀ u cn O', O.step (.resolverUpdate u cn) = .ok O' →
      ∃ c, (O'.policy.active = some c ∨ O'.policy.pending = some c) ∧ O.policy.Receives u cn c ∧
        ∀ o, O'.policy.active = some o ∨ O'.policy.pending = some o → o.handle ≤ c.handle) ∧
    ¬ O.policy.Produced ∧
    (∀ call O' cl, O.step call = .ok O' → { O.policy with requests := [] }.callChild call = .ok (some cl) →
      cl.Produced → ∀ p, O'.policy.pending = some p → p.state.connectivityState = .connecting ∧
        ∃ a, O'.policy.active = some a ∧ a.state.connectivityState = .ready) ∧
    ∀ state, O.published = some state → ∃ a, O.policy.active = some a ∧ a.state = state := by
  have hs := h.switching
  refine ⟨fun p hp => ?_, fun a ha requests => ?_, fun u cn O' hok => ?_, hs.settled,
    fun call O' cl hok hc => ((Observed.outcome_step hs call).ok O' hok).2.2 cl hc, hs.published⟩
  · obtain ⟨-, a, ha, hn, -⟩ := hs.pending p hp
    exact ⟨a, ha, hn⟩
  · rw [Child.passed_record, hs.suppressed a ha]
    cases O.policy.pending with
    | some p => simp
    | none =>
      simp only [Option.isSome_none, Bool.false_eq_true, if_false, and_true, List.mem_map, List.mem_filter]
      constructor
      · rintro ⟨r, hm, hn⟩
        cases r with
        | updatePicker state => cases hn
        | requestResolution => exact hm
      · intro hm
        exact ⟨_, hm, rfl⟩
  · obtain ⟨hs', hrc, -⟩ := (Observed.outcome_step hs _).ok O' hok
    obtain ⟨c, hl, hr⟩ := hrc u cn rfl
    refine ⟨c, ?_, hr, fun o ho => hs'.newest hl ho⟩
    unfold latestChild at hl
    rcases Option.or_eq_some_iff.1 hl with hp | ⟨-, ha⟩
    · exact .inr hp
    · exact .inl ha

/-- From a ready policy to another one, whose first picker is `CONNECTING`. -/
theorem switches_gracefully_to_second : ∃ O : Observed (StubPolicy (List (Request Unit)) Unit Unit) Unit,
    O.Reachable ∧ O.published = some ⟨.ready, .other ()⟩ ∧
    (∃ p, O.policy.pending = some p) ∧
    ∀ a, O.policy.active = some a → ∀ rs : List (Request Unit),
      .requestResolution ∉ (a.record rs : _ × List (Request Unit)).2 := by
  let s : StubPolicy (List (Request Unit)) Unit Unit := ⟨fun u => (u, .ok ()), fun _ => []⟩
  have h := Observed.Reachable.step (.resolverUpdate [.updatePicker ⟨.ready, .other ()⟩] ⟨⟨"first", fun _ => s⟩, ()⟩)
    .init rfl
  have h := h.step (.resolverUpdate [.updatePicker (.initial 7)] ⟨⟨"second", fun _ => s⟩, ()⟩) rfl
  obtain ⟨-, hr, -⟩ := switches_gracefully h
  refine ⟨_, h, rfl, ⟨_, rfl⟩, fun a ha rs hm => ?_⟩
  cases ((hr a ha rs).1 hm).2

end GracefulSwitchPolicy

end LoadBalancing
