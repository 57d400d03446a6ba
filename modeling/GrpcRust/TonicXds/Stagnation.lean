import GrpcRust.TonicXds.EjectionCap
/-!
# Stagnation

A balancer fails fast when discovery has ended and nothing is connecting. `poll_ready` does not ask for the timer of
an ejected endpoint.
-/

namespace TonicXds

open Lib

def BalancingEvent.AddsNothing {K : Type} (event : BalancingEvent K) : Prop :=
  ∀ addr, event ≠ .lb (.discover (.insert addr))

namespace Balancing
variable {K : Type} [DecidableEq K] {config : OutlierDetectionConfig} {test : SuccessRateTest} {s s' : Balancing K}

theorem members_step (hm : s.lb.members = ∅) {e : BalancingEvent K} (he : e.AddsNothing)
    (hs : s.step config test e = some s') : s'.lb.members = ∅ := by
  rcases step_cases hs with hc | ⟨-, hlb⟩
  · rcases hc.members with heq | ⟨change, rfl, heq⟩
    · rw [heq, hm]
    · cases change with
      | insert a => exact absurd rfl (he a)
      | remove a =>
        rw [heq, hm]
        rfl
  · rw [hlb, hm]

theorem members_run (hm : s.lb.members = ∅) {es : List (BalancingEvent K)} (he : ∀ e ∈ es, e.AddsNothing)
    (hr : es.foldlM (step config test) s = some s') : s'.lb.members = ∅ := by
  induction es generalizing s with
  | nil =>
    cases hr
    exact hm
  | cons e es ih =>
    rw [List.foldlM_cons] at hr
    obtain ⟨next, hs, hrest⟩ := Option.bind_eq_some_iff.1 hr
    rw [List.forall_mem_cons] at he
    exact ih (members_step hm he.1 hs) he.2 hrest

theorem decide_eq_stagnation {lb : LoadBalancer K} {d : Discovered} (h : decide lb d = .stagnation) :
    d = .closed ∧ lb.ready.isEmpty = true ∧ lb.connecting.isEmpty = true := by
  unfold decide at h
  split_ifs at h with hr hc
  · exact ⟨hc.1, by simpa using hr, hc.2⟩

end Balancing

section Results
variable {K : Type} [DecidableEq K] {config : OutlierDetectionConfig} {test : SuccessRateTest} {s s' : Balancing K}

/-- At stagnation discovery has ended and nothing is connecting or ready; nothing ejected, it stays so. -/
theorem stagnation_final (h : (balancing K config test).Reached s) {discovered : Discovered}
    (hphase : s.lb.phase = .deciding discovered) (hresult : Balancing.decide s.lb discovered = .stagnation) :
    discovered = .closed ∧ (∀ addr, ¬ s.lb.IsConnecting addr) ∧ (∀ addr, ¬ s.lb.IsReady addr) ∧
      ((∀ addr, ¬ s.lb.IsEjected addr) →
        ∀ (es : List (BalancingEvent K)) (s' : Balancing K), (∀ e ∈ es, e.AddsNothing) →
          es.foldlM (Balancing.step config test) s = some s' → ∀ addr, ¬ s'.lb.IsReady addr) := by
  obtain ⟨hcl, hr, hc⟩ := Balancing.decide_eq_stagnation hresult
  have hnc (addr : K) : ¬ s.lb.IsConnecting addr := by
    rw [LoadBalancer.isConnecting_iff]
    exact KeyedFutures.not_tracks_of_isEmpty hc
  have hnr (addr : K) : ¬ s.lb.IsReady addr := by
    rw [LoadBalancer.isReady_iff]
    rintro ⟨o, hl⟩
    have hnone := HashMap.isEmpty_iff.1 hr addr
    cases hnone.symm.trans hl
  refine ⟨hcl, hnc, hnr, fun hne es s' he hrn addr => ?_⟩
  have hi := Balancing.inv_of_reached h
  have hm : s.lb.members = ∅ := by
    refine Finset.eq_empty_of_forall_notMem fun k hk => ?_
    obtain ⟨p, hp⟩ := (hi.placed.known k).1 hk
    cases p with
    | connecting => exact hnc k (LoadBalancer.isConnecting_iff.2 hp)
    | ready o => exact hnr k (LoadBalancer.isReady_iff.2 ⟨o, hp⟩)
    | ejected c => exact hne k (LoadBalancer.isEjected_iff.2 ⟨c, hp⟩)
    | hand o =>
      have hh : s.lb.phase.inHand = some (k, o) := hp
      rw [hphase] at hh
      cases hh
  have hm' := Balancing.members_run hm he hrn
  have hi' := Balancing.inv_of_reached (h.foldlM hrn)
  rw [LoadBalancer.isReady_iff]
  rintro ⟨o, hp⟩
  have hmem := (hi'.placed.known addr).2 ⟨.ready o, hp⟩
  rw [hm'] at hmem
  exact Finset.notMem_empty addr hmem

def emptyRun : List (BalancingEvent Nat) :=
  (firstPoll 7).map .lb ++ [.lb .pollReady, .lb (.discover (.remove 7)), .lb (.discovered .closed), .lb .unejected,
    .lb (.reapConnecting 0), .lb .connected, .lb .pollSnapshot]

theorem stagnation_final_empty : ∃ s, (balancing Nat strictConfig fun _ _ _ => false).run emptyRun = some s ∧
      Balancing.decide s.lb .closed = .stagnation ∧
      ∀ (es : List (BalancingEvent Nat)) (s' : Balancing Nat), (∀ e ∈ es, e.AddsNothing) →
        es.foldlM (Balancing.step strictConfig fun _ _ _ => false) s = some s' → ∀ addr, ¬ s'.lb.IsReady addr := by
  refine ⟨_, rfl, rfl, ?_⟩
  have hr := Transition.reached_of_run
    (show (balancing Nat strictConfig fun _ _ _ => false).run emptyRun = some _ from rfl)
  refine (stagnation_final hr (?_ : _ = LbPhase.deciding .closed) ?_).2.2.2 fun addr => ?_
  · rfl
  · rfl
  · exact Bool.false_ne_true

def recoverPoll : List (LbEvent Nat) :=
  [.pollReady, .discovered .closed, .uneject 0, .unejected, .connected, .pollSnapshot, .decide]

/-- The only endpoint is ejected, and ready again when its time is over. -/
theorem stagnation_with_ejected :
    ∃ s s', (balancing Nat strictConfig fun _ _ _ => false).run (ejectedRun .closed) = some s ∧
      s.lb.polled = some .stagnation ∧ s.lb.IsEjected 7 ∧
      (.advance 30 :: recoverPoll.map .lb).foldlM (Balancing.step strictConfig fun _ _ _ => false) s = some s' ∧
      s'.lb.polled = some .ready ∧ s'.lb.IsReady 7 := by
  refine ⟨_, _, rfl, rfl, rfl, rfl, rfl, ?_⟩
  exact HashMap.mem_iff.2 ⟨0, rfl⟩

end Results

end TonicXds
