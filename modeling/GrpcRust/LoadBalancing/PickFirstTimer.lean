import GrpcRust.Lib.Transition
import GrpcRust.LoadBalancing.PickFirstSelection
/-!
# The timer of a first pass

Every path that moves the frontier sets the connection attempt delay timer again, but a resolver error stops it.
-/

namespace LoadBalancing

open Lib PickFirstPolicy

variable {A : Type}

/-- The policy, and how many calls of `work` its timers have scheduled that have not been made. -/
structure Timed (A : Type) where
  policy : PickFirstPolicy A
  scheduled : Nat

namespace Timed

/-- A timer that expires schedules a call of `work`; such a call may also come from an idle picker. -/
def scheduledAfter (T : Timed A) : Call A → Nat
  | .timerExpires => if T.policy.timer.isSome then T.scheduled + 1 else T.scheduled
  | .work => T.scheduled - 1
  | _ => T.scheduled

def step [DecidableEq A] (T : Timed A) (call : Call A) : Option (Timed A) :=
  match { T.policy with effects := [] }.call call with
  | .ok policy => some ⟨policy, T.scheduledAfter call⟩
  | .error _ => none

def NoErrorWhileConnecting (T : Timed A) : Call A → Prop
  | .resolverUpdate _ update _ => (∃ error, update.endpoints = .error error) → T.policy.connectivityState ≠ .connecting
  | _ => True

end Timed

def timing (A : Type) [DecidableEq A] : Transition (Timed A) (Call A) := ⟨⟨.build, 0⟩, Timed.step⟩

/-! ## The invariant -/

section
variable {p p' : PickFirstPolicy A} {scheduled : Nat}

def PickFirstPolicy.AwaitsNext (p : PickFirstPolicy A) : Prop :=
  p.connectivityState = .connecting ∧ p.steadyState = none ∧ p.frontierIndex < p.subchannels.length

def PickFirstPolicy.TimerPending (p : PickFirstPolicy A) (scheduled : Nat) : Prop :=
  ∃ timer, p.timer = some timer ∧ (timer.expired = true → 0 < scheduled)

structure Ticking (p : PickFirstPolicy A) (scheduled : Nat) : Prop where
  unselected : p.connectivityState = .connecting → p.selected = none
  pending : p.AwaitsNext → p.TimerPending scheduled

theorem Ticking.of_ne (h : p.connectivityState ≠ .connecting) : Ticking p scheduled :=
  ⟨fun hc => absurd hc h, fun ha => absurd ha.1 h⟩

theorem Ticking.timerExpires {T : Timed A} (h : Ticking T.policy T.scheduled) :
    Ticking T.policy.timerExpires (T.scheduledAfter .timerExpires) := by
  refine ⟨h.unselected, fun ha => ?_⟩
  obtain ⟨t, ht, -⟩ := h.pending ha
  refine ⟨⟨true⟩, by rw [PickFirstPolicy.timerExpires, ht]; rfl, fun _ => ?_⟩
  rw [Timed.scheduledAfter, ht]
  exact Nat.succ_pos T.scheduled

theorem ticking_setTransientFailure {e : Option String} {r : PickFirstPolicy A × String}
    (h : p.setTransientFailure e = .ok r) : Ticking r.1 scheduled := by
  obtain ⟨err, heq⟩ := setTransientFailure_eq h
  rw [heq]
  exact .of_ne ConnectivityState.noConfusion

section
variable [DecidableEq A] {env : Env A}

theorem ticking_trigger (hs : p.connectivityState = .connecting → p.selected = none) (sc : Subchannel A) :
    Ticking (p.triggerSubchannelConnection sc) scheduled :=
  ⟨hs, fun _ => ⟨⟨false⟩, rfl, fun h => absurd h Bool.false_ne_true⟩⟩

theorem ticking_startConnectionPass (h : p.startConnectionPass = .ok p') : Ticking p' scheduled := by
  cases passStarted h with
  | @connects j sc =>
    obtain ⟨es, heq, -⟩ := updatePicker_connecting
      ({ p with selected := none, frontierIndex := j }.triggerSubchannelConnection sc) .queuing
    rw [heq]
    exact ⟨fun _ => rfl, fun _ => ⟨⟨false⟩, rfl, fun h => absurd h Bool.false_ne_true⟩⟩
  | fails _ _ hr => exact ticking_setTransientFailure hr

theorem Ticking.advanced (h : Ticking p scheduled) (hadv : Advanced p p') (scheduled' : Nat) :
    Ticking p' scheduled' := by
  cases hadv with
  | @connects j sc => exact ticking_trigger (p := { p with frontierIndex := j }) h.unselected sc
  | ends hj => exact ⟨h.unselected, fun ha => absurd ha.2.2 (Nat.not_lt.2 hj)⟩

theorem Ticking.passUpdated (h : Ticking p scheduled) (hp : PassUpdated p p') : Ticking p' scheduled := by
  cases hp with
  | goes hadv => exact hadv.elim (fun heq => heq ▸ h) (h.advanced · scheduled)
  | ends => exact .of_ne ConnectivityState.noConfusion

/-- A subchannel that is selected already is left alone, which does not happen while connecting. -/
theorem ticking_subchannelActivate (h : p.connectivityState = .connecting → p.selected = none) (sc : Subchannel A) :
    Ticking (p.subchannelActivate sc) scheduled := by
  cases hsel : p.subchannelIsSelected sc with
  | true =>
    rw [subchannelActivate_selected hsel]
    refine .of_ne fun hc => ?_
    rw [subchannelIsSelected, h hc] at hsel
    cases hsel
  | false =>
    rw [subchannelActivate_eq hsel]
    exact .of_ne ConnectivityState.noConfusion

theorem Ticking.subchannelUpdate (h : Ticking p scheduled) {sc : Subchannel A} {s : SubchannelState}
    (hok : p.subchannelUpdate sc s = .ok p') : Ticking p' scheduled := by
  have hrc : Ticking (p.recorded sc s) scheduled := ⟨h.unselected, h.pending⟩
  cases updated hok with
  | ignored => exact h
  | kept => exact ⟨h.unselected, h.pending⟩
  | lost => exact .of_ne ConnectivityState.noConfusion
  | activated => exact ticking_subchannelActivate (p := p.noted sc s) h.unselected sc
  | counted hcur hsel hr hs =>
    -- After the first pass there is no frontier to move.
    obtain ⟨ss, es, heq, -⟩ := subchannelNonready_eq (p.recorded sc s) hs sc s
    rw [heq]
    exact ⟨h.unselected, fun ha => absurd ha.2.1 (Option.some_ne_none _)⟩
  | passed hcur hsel hr hs hpass => exact hrc.passUpdated (PickFirstPolicy.passUpdated hpass)

theorem rebuildSubchannels_eq {ad : List (Address A)} {r : Option (Subchannel A)}
    (h : p.rebuildSubchannels env ad = .ok (p', r)) :
    ∃ scs ss n, p' = { p with subchannels := scs, subchannelStates := ss, nextId := n } := by
  simp only [rebuildSubchannels, bind, Except.bind] at h
  split at h
  · cases h
  · cases h
    exact ⟨_, _, _, rfl⟩

theorem Ticking.resolverUpdate (h : Ticking p scheduled) {u : ResolverUpdate A} {c : PickFirstConfig}
    {res : Except String Unit} (he : (∃ e, u.endpoints = .error e) → p.connectivityState ≠ .connecting)
    (hok : p.resolverUpdate env u c = .ok (p', res)) : Ticking p' scheduled := by
  cases resolverUpdated hok with
  | empty hu hempty hr => exact ticking_setTransientFailure hr
  | ready hu hne hr =>
    obtain ⟨scs, ss, n, heq⟩ := rebuildSubchannels_eq hr
    refine ticking_subchannelActivate ?_ _
    rw [heq]
    exact h.unselected
  | pass hu hne hr hpass => exact ticking_startConnectionPass hpass
  | failed hu hout hr => exact ticking_setTransientFailure hr
  | ignored hu => exact .of_ne (he ⟨_, hu⟩)

theorem Ticking.exitIdle (h : Ticking p scheduled) (hok : p.exitIdle = .ok p') : Ticking p' scheduled := by
  unfold PickFirstPolicy.exitIdle at hok
  split at hok
  · exact ticking_startConnectionPass hok
  · cases hok
    exact h

theorem Ticking.work (h : Ticking p scheduled) (hok : p.work none = .ok p') : Ticking p' (scheduled - 1) := by
  by_cases hi : p.connectivityState = .idle
  · simp only [PickFirstPolicy.work, if_pos hi] at hok
    have hd : Ticking p (scheduled - 1) := .of_ne (hi ▸ ConnectivityState.noConfusion)
    exact hd.exitIdle hok
  by_cases hep : p.timer.any (·.expired) = true
  · simp only [PickFirstPolicy.work, if_neg hi, if_pos hep] at hok
    exact h.advanced (PickFirstPolicy.advanced hok) (scheduled - 1)
  · simp only [PickFirstPolicy.work, if_neg hi, if_neg hep] at hok
    cases hok
    refine ⟨h.unselected, fun ha => ?_⟩
    obtain ⟨t, ht, -⟩ := h.pending ha
    rw [ht] at hep
    exact ⟨t, ht, fun he => absurd he hep⟩

theorem Ticking.step {T T' : Timed A} {c : Call A} (h : Ticking T.policy T.scheduled)
    (hc : T.NoErrorWhileConnecting c) (hs : T.step c = some T') : Ticking T'.policy T'.scheduled := by
  unfold Timed.step at hs
  split at hs
  swap
  · cases hs
  rename_i p hok
  cases hs
  have h : Ticking { T.policy with effects := [] } T.scheduled := ⟨h.unselected, h.pending⟩
  cases c with
  | resolverUpdate env u cn =>
    obtain ⟨res, hr⟩ := call_resolverUpdate hok
    exact h.resolverUpdate hc hr
  | subchannelUpdate sc s => exact h.subchannelUpdate hok
  | work => exact h.work hok
  | exitIdle => exact h.exitIdle hok
  | timerExpires =>
    cases hok
    exact Ticking.timerExpires (T := ⟨{ T.policy with effects := [] }, T.scheduled⟩) h

/-- While addresses are left the timer runs, or has expired and the next `work` moves the frontier on. -/
theorem first_pass_timer_pending {T : Timed A} (h : (timing A).Reachable Timed.NoErrorWhileConnecting T)
    (hawaits : T.policy.AwaitsNext) : T.policy.TimerPending T.scheduled := by
  have hi : Ticking (PickFirstPolicy.build : PickFirstPolicy A) 0 := .of_ne ConnectivityState.noConfusion
  have ht := h.inv (P := fun T => Ticking T.policy T.scheduled) hi fun T c T' hT hc hs => hT.step hc hs
  exact ht.pending hawaits

end

end

theorem first_pass_timer_pending_two : ∃ T : Timed Unit, T.policy.AwaitsNext ∧ T.policy.TimerPending T.scheduled := by
  have hs : (timing Unit).Reachable Timed.NoErrorWhileConnecting (timing Unit).init := .init
  have hc := hs.step (resolved .idle ["a", "b"]) (fun ⟨_, hu⟩ => by cases hu) rfl
  exact ⟨_, ⟨rfl, rfl, Nat.zero_lt_two⟩, first_pass_timer_pending hc ⟨rfl, rfl, Nat.zero_lt_two⟩⟩

/-- An error of the resolver that comes while the first of two addresses is tried. -/
theorem resolver_error_stops_timer : ∃ T : Timed Unit, (timing Unit).Reached T ∧ T.policy.AwaitsNext ∧
    T.policy.timer = none ∧ T.scheduled = 0 := by
  let f : Call Unit := .resolverUpdate ⟨fun _ => .idle, id, fun _ => .refl _⟩ ⟨.error "unavailable", none⟩ ⟨false⟩
  have h : (timing Unit).run [resolved .idle ["a", "b"], f] = some _ := rfl
  exact ⟨_, Transition.reached_of_run h, ⟨rfl, rfl, Nat.zero_lt_two⟩, rfl, rfl⟩

end LoadBalancing
