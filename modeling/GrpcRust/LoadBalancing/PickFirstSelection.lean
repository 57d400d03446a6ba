import GrpcRust.LoadBalancing.PickFirstPanics
/-!
# The selected subchannel

Reports of other addresses beside a selected subchannel are handled as in a pass: one that is `READY` takes its place.
`KeepsSelection` rules this out.
-/

namespace LoadBalancing

open Lib PickFirstPolicy

variable {A : Type}

/-! ## What has been published -/

def Effect.published? : Effect A → Option (ConnectivityState × Picker A)
  | .updatePicker state picker => some (state, picker)
  | _ => none

def lastPublished (effects : List (Effect A)) : Option (ConnectivityState × Picker A) :=
  (effects.filterMap Effect.published?).getLast?

def PickFirstPolicy.published (p : PickFirstPolicy A) (before : Option (ConnectivityState × Picker A)) :
    Option (ConnectivityState × Picker A) :=
  (lastPublished p.effects).or before

structure Observed (A : Type) where
  session : Session A
  published : Option (ConnectivityState × Picker A)

namespace PickFirstPolicy

theorem published_append (p : PickFirstPolicy A) (before : Option (ConnectivityState × Picker A))
    {effects : List (Effect A)} (h : effects.filterMap Effect.published? = []) :
    { p with effects := p.effects ++ effects }.published before = p.published before := by
  simp [published, lastPublished, h]

theorem published_updatePicker (p : PickFirstPolicy A) {b : Option (ConnectivityState × Picker A)}
    {e r : List (Effect A)} {s : ConnectivityState} {pc : Picker A} (h : p.effects = e ++ [.updatePicker s pc] ++ r)
    (hrest : r.filterMap Effect.published? = []) : p.published b = some (s, pc) := by
  rw [published, lastPublished, h, List.filterMap_append, hrest]
  simp [Effect.published?]

end PickFirstPolicy

section
variable [DecidableEq A]

namespace Observed

def init : Observed A := ⟨.init, none⟩

def step (O : Observed A) (call : Call A) : Except Panic (Observed A) := do
  let session ← O.session.step call
  return ⟨session, session.policy.published O.published⟩

inductive Reachable (C : Session A → Call A → Prop) : Observed A → Prop where
  | init : Reachable C .init
  | step {O O' : Observed A} (call : Call A) : Reachable C O → C O.session call → O.step call = .ok O' → Reachable C O'

end Observed

/-- Beside a selected subchannel others report `CONNECTING`, or fail with the frontier elsewhere in the list. -/
def Session.KeepsSelection (S : Session A) : Call A → Prop
  | .subchannelUpdate sc state => ∀ sel, S.policy.selected = some sel → S.policy.isCurrentAddress sc.address →
      sc.address ≠ sel.address → state.connectivityState = .connecting ∨
        state.connectivityState ≠ .ready ∧
          ∃ attempting, S.policy.subchannels[S.policy.frontierIndex]? = some attempting ∧
          (state.connectivityState = .transientFailure → attempting.address ≠ sc.address)
  | _ => True

/-- The call takes `sel` away: it reports that it is not ready any more, or is not listed any more. -/
def Call.Releases (sel : Subchannel A) : Call A → Prop
  | .subchannelUpdate sc state => sc.address = sel.address ∧ state.connectivityState ≠ .ready
  | .resolverUpdate _ update _ =>
    ∃ endpoints, update.endpoints = .ok endpoints ∧ ∀ endpoint ∈ endpoints, sel.address ∉ endpoint.addresses
  | _ => False

/-! ## The invariant -/

variable {b : Option (ConnectivityState × Picker A)} {reported : Address A → ConnectivityState}
  {p p' : PickFirstPolicy A} {sc : Subchannel A} {sa : SubchannelState} {env : Env A} {ad : List (Address A)}
  {ready : Option (Subchannel A)}

/-- A cached `READY` was reported, and the policy's state is the one it published last. -/
structure Grounded (before : Option (ConnectivityState × Picker A)) (reported : Address A → ConnectivityState)
    (p : PickFirstPolicy A) : Prop where
  known : p.Known
  cached : ∀ sc ∈ p.subchannels, p.stateOf sc = some .ready → reported sc.address = .ready
  published : p.published before = none ∧ p.connectivityState = .idle ∨
    ∃ picker, p.published before = some (p.connectivityState, picker)

structure Sticky (before : Option (ConnectivityState × Picker A)) (reported : Address A → ConnectivityState)
    (p : PickFirstPolicy A) : Prop extends Grounded before reported p where
  selected : ∀ sel, p.selected = some sel → p.connectivityState = .ready ∧
    p.published before = some (.ready, .one sel) ∧ p.timer = none ∧ p.steadyState = none ∧
    p.isCurrentAddress sel.address ∧ p.stateOf sel = some .ready
  unselected : p.selected = none → p.connectivityState ≠ .ready

namespace Grounded

theorem triggerSubchannelConnection (h : Grounded b reported p) (sc : Subchannel A) :
    Grounded b reported (p.triggerSubchannelConnection sc) := by
  refine ⟨h.known.insert rfl rfl, fun sc' hm hr => ?_, ?_⟩
  · rw [p.stateOf_insert rfl] at hr
    split at hr
    · cases hr
    · exact h.cached sc' hm hr
  · rw [PickFirstPolicy.triggerSubchannelConnection, emit,
      published_append { p with subchannelStates := _, timer := _ } b rfl]
    exact h.published

theorem connecting (h : Grounded b reported p) : Grounded b reported (p.updatePicker .connecting .queuing) := by
  unfold updatePicker
  split
  · exact h
  · exact ⟨h.known, h.cached, .inr ⟨.queuing, published_updatePicker _ (List.append_nil _).symm rfl⟩⟩

theorem noted (hg : Grounded b reported p) (sc : Subchannel A) (s : SubchannelState) :
    Grounded b (afterUpdate reported sc s) (p.noted sc s) := by
  refine ⟨hg.known.insert rfl rfl, fun sc' hm hr => ?_, hg.published⟩
  rw [stateOf_noted] at hr
  unfold afterUpdate
  split at hr
  · rename_i ha
    rw [if_pos ha]
    exact Option.some.inj hr
  · rename_i ha
    rw [if_neg ha]
    exact hg.cached sc' hm hr

theorem rebuilt (h : Grounded b reported p) (hr : Rebuilt env p ad p' ready) :
    Grounded b (afterRebuild env p reported) p' := by
  refine ⟨hr.known h.known, fun sc hm hst => ?_, ?_⟩
  · rw [hr.stateOf (hr.mem hm), rebuiltState] at hst
    unfold afterRebuild
    split at hst
    · rename_i hcur
      rw [if_pos hcur]
      obtain ⟨sc', hm', ha'⟩ := hcur
      rw [← ha'] at hst ⊢
      exact h.cached sc' hm' hst
    · rename_i hcur
      rw [if_neg hcur]
      exact Option.some.inj hst
  · obtain ⟨scs, ss, n, rfl⟩ := hr.rest
    exact h.published

end Grounded

theorem Grounded.sticky (h : Grounded b reported p) (hs : p.selected = none)
    (hc : p.connectivityState ≠ .ready) : Sticky b reported p :=
  ⟨h, fun sel hsel => absurd (hs.symm.trans hsel) (by simp), fun _ => hc⟩

theorem Sticky.reset (h : Sticky b reported p) : Sticky (p.published b) reported { p with effects := [] } :=
  ⟨⟨h.known, h.cached, h.toGrounded.published⟩, h.selected, h.unselected⟩

theorem Sticky.report (h : Sticky b reported p) {reported' : Address A → ConnectivityState}
    (hr : ∀ sc ∈ p.subchannels, reported' sc.address = reported sc.address) : Sticky b reported' p :=
  ⟨⟨h.known, fun sc hm hst => (hr sc hm).trans (h.cached sc hm hst), h.toGrounded.published⟩, h.selected, h.unselected⟩

/-! ## The functions -/

theorem sticky_setTransientFailure (hg : Grounded b reported p) (hs : p.selected = none) {e : Option String}
    {r : PickFirstPolicy A × String} (h : p.setTransientFailure e = .ok r) : Sticky b reported r.1 := by
  obtain ⟨err, heq⟩ := setTransientFailure_eq h
  rw [heq]
  exact Grounded.sticky ⟨hg.known, hg.cached, .inr ⟨_, published_updatePicker _ rfl rfl⟩⟩ hs
    ConnectivityState.noConfusion

theorem sticky_startConnectionPass (hg : Grounded b reported p) (h : p.startConnectionPass = .ok p') :
    Sticky b reported p' := by
  have hg' (i : Nat) : Grounded b reported { p with selected := none, frontierIndex := i } :=
    ⟨hg.known, hg.cached, hg.published⟩
  cases passStarted h with
  | @connects j sc =>
    have hc := ((hg' j).triggerSubchannelConnection sc).connecting
    obtain ⟨es, heq, -⟩ := updatePicker_connecting
      ({ p with selected := none, frontierIndex := j }.triggerSubchannelConnection sc) .queuing
    rw [heq] at hc ⊢
    exact hc.sticky rfl ConnectivityState.noConfusion
  | fails _ _ hr => exact sticky_setTransientFailure (hg' _) rfl hr

theorem sticky_subchannelActivate (hs : p.subchannelIsSelected sc = false) (hst : p.stateOf sc = some .ready)
    (hr : reported sc.address = .ready) : Sticky b reported (p.subchannelActivate sc) := by
  obtain ⟨s, hl, -⟩ := Option.map_eq_some_iff.1 hst
  have hp : (p.subchannelActivate sc).published b = some (.ready, .one sc) := by
    rw [subchannelActivate_eq hs]
    exact published_updatePicker _ (List.append_nil _).symm rfl
  rw [subchannelActivate_eq hs] at hp ⊢
  refine ⟨⟨fun sc' hm => ?_, fun sc' hm _ => ?_, .inr ⟨_, hp⟩⟩, fun sel hsel => ?_, nofun⟩
  · rw [List.mem_singleton.1 hm]
    exact ⟨s, hl⟩
  · rw [List.mem_singleton.1 hm]
    exact hr
  · cases hsel
    exact ⟨rfl, hp, rfl, rfl, ⟨sc, List.mem_singleton_self sc, rfl⟩, hst⟩

theorem Sticky.chosen (h : Sticky b reported p) (hr : Rebuilt env p ad p' ready) {sel : Subchannel A}
    (hs : p.selected = some sel) (ha : sel.address ∈ ad) : ∃ sc, ready = some sc ∧ sc.address = sel.address := by
  obtain ⟨-, -, -, -, hcur, hst⟩ := h.selected sel hs
  obtain ⟨s, hl, hrd⟩ := Option.map_eq_some_iff.1 hst
  exact hr.selected sel hs ha ⟨s, by rw [rebuiltState, if_pos hcur]; exact hl, hrd⟩

theorem Sticky.activate (h : Sticky b reported p) (ht : p.timer = none) (hsd : p.steadyState = none)
    (hr : Rebuilt env p ad p' (some sc)) : Sticky b (afterRebuild env p reported) (p'.subchannelActivate sc) ∧
      ∀ sel, p.selected = some sel → sc.address = sel.address → (p'.subchannelActivate sc).selected = some sel := by
  have hg := h.toGrounded.rebuilt hr
  have hrd := hr.stateOf_chosen rfl
  obtain ⟨sc', hm', ha'⟩ := hr.current (hr.chosen sc rfl).1
  have hsel : p'.selected = p.selected := by
    obtain ⟨scs, ss, n, rfl⟩ := hr.rest
    rfl
  cases hs : p'.subchannelIsSelected sc with
  | true =>
    rw [subchannelActivate_selected hs]
    refine ⟨⟨hg, fun sel hsl' => ?_, fun hnone => ?_⟩, fun sel hs' _ => hsel.trans hs'⟩
    · obtain ⟨sel', hs', ha⟩ := subchannelIsSelected_iff.1 hs
      obtain rfl : sel' = sel := Option.some.inj (hs'.symm.trans hsl')
      obtain ⟨hc, hp, -⟩ := h.selected sel' (hsel.symm.trans hs')
      have hst : p'.stateOf sel' = some .ready := by rwa [stateOf, ha]
      obtain ⟨scs, ss, n, rfl⟩ := hr.rest
      exact ⟨hc, hp, ht, hsd, ⟨sc', hm', ha'.trans ha.symm⟩, hst⟩
    · rw [subchannelIsSelected, hnone] at hs
      cases hs
  | false =>
    refine ⟨sticky_subchannelActivate hs hrd ?_, fun sel hs' ha => absurd ha ?_⟩
    · rw [← ha']
      refine hg.cached sc' hm' ?_
      rw [stateOf, ha']
      exact hrd
    · exact address_ne hs (hsel.trans hs')

def PickFirstPolicy.resolving (p : PickFirstPolicy A) (update : ResolverUpdate A) : PickFirstPolicy A :=
  { p with timer := none, steadyState := none, resolutionNote := update.resolutionNote }

inductive ResolverUpdated (env : Env A) (p : PickFirstPolicy A) (update : ResolverUpdate A)
    (config : PickFirstConfig) : PickFirstPolicy A → Prop where
  | empty {endpoints : List (Endpoint A)} {r : PickFirstPolicy A × String} (hu : update.endpoints = .ok endpoints)
      (hempty : compileAddress env endpoints config = [])
      (hr : { p.resolving update with subchannels := [], selected := none }.setTransientFailure
        (some "empty address list") = .ok r) : ResolverUpdated env p update config r.1
  | ready {endpoints : List (Endpoint A)} {p1 : PickFirstPolicy A} {sc : Subchannel A}
      (hu : update.endpoints = .ok endpoints) (hne : compileAddress env endpoints config ≠ [])
      (hr : (p.resolving update).rebuildSubchannels env (compileAddress env endpoints config) = .ok (p1, some sc)) :
      ResolverUpdated env p update config (p1.subchannelActivate sc)
  | pass {endpoints : List (Endpoint A)} {p1 p2 : PickFirstPolicy A} (hu : update.endpoints = .ok endpoints)
      (hne : compileAddress env endpoints config ≠ [])
      (hr : (p.resolving update).rebuildSubchannels env (compileAddress env endpoints config) = .ok (p1, none))
      (hpass : p1.startConnectionPass = .ok p2) : ResolverUpdated env p update config p2
  | failed {error : String} {r : PickFirstPolicy A × String} (hu : update.endpoints = .error error)
      (hout : p.subchannels = [] ∨ p.connectivityState = .transientFailure)
      (hr : (p.resolving update).setTransientFailure (some error) = .ok r) : ResolverUpdated env p update config r.1
  | ignored {error : String} (hu : update.endpoints = .error error) :
      ResolverUpdated env p update config (p.resolving update)

theorem resolverUpdated {env : Env A} {u : ResolverUpdate A} {c : PickFirstConfig} {res : Except String Unit}
    (hok : p.resolverUpdate env u c = .ok (p', res)) : ResolverUpdated env p u c p' := by
  cases hu : u.endpoints with
  | ok es =>
    by_cases hempty : compileAddress env es c = []
    · simp only [resolverUpdate, hu, hempty, List.isEmpty_nil, if_true, bind, Except.bind] at hok
      split at hok
      · cases hok
      · rename_i hr
        cases hok
        exact .empty hu hempty hr
    · have hne : (compileAddress env es c).isEmpty = false := by simpa using hempty
      simp only [resolverUpdate, hu, hne, Bool.false_eq_true, if_false, bind, Except.bind] at hok
      split at hok
      · cases hok
      · rename_i r hr
        obtain ⟨p1, rd⟩ := r
        cases rd with
        | some sc =>
          cases hok
          exact .ready hu hempty hr
        | none =>
          dsimp only at hok
          split at hok
          · cases hok
          · rename_i hpass
            cases hok
            exact .pass hu hempty hr hpass
  | error error =>
    simp only [resolverUpdate, hu, bind, Except.bind] at hok
    split at hok
    · rename_i hout
      split at hok
      · cases hok
      · rename_i hr
        cases hok
        exact .failed hu (hout.imp_left List.isEmpty_iff.1) hr
    · cases hok
      exact .ignored hu

section
variable (h : Sticky b reported p)
include h

theorem Sticky.resolving (u : ResolverUpdate A) : Sticky b reported (p.resolving u) := by
  refine ⟨⟨h.known, h.cached, h.toGrounded.published⟩, fun sel hs => ?_, h.unselected⟩
  obtain ⟨hc, hp, -, -, hrest⟩ := h.selected sel hs
  exact ⟨hc, hp, rfl, rfl, hrest⟩

theorem sticky_resolverUpdate {u : ResolverUpdate A} {c : PickFirstConfig} {res : Except String Unit}
    (hok : p.resolverUpdate env u c = .ok (p', res)) :
    Sticky b (afterRebuild env p reported) p' ∧ ∀ sel, p.selected = some sel →
      p'.selected = some sel ∨ Call.Releases sel (.resolverUpdate env u c) := by
  have hgn {es : List (Endpoint A)} (hu : u.endpoints = .ok es) {sel : Subchannel A}
      (hn : sel.address ∉ compileAddress env es c) :
      Call.Releases sel (.resolverUpdate env u c) :=
    ⟨es, hu, fun ep hep ha => hn (mem_compileAddress.2 ⟨ep, hep, ha⟩)⟩
  have h0 := h.resolving u
  have hsame : Sticky b (afterRebuild env p reported) (p.resolving u) := h0.report fun sc hm => if_pos ⟨sc, hm, rfl⟩
  cases resolverUpdated hok with
  | @empty es r hu hempty hr =>
    have hg : Grounded b (afterRebuild env p reported)
        { p.resolving u with subchannels := [], selected := none } :=
      ⟨fun _ hm => (by cases hm), fun _ hm => (by cases hm), hsame.toGrounded.published⟩
    exact ⟨sticky_setTransientFailure hg rfl hr, fun sel _ => .inr (hgn hu (by simp [hempty]))⟩
  | @ready es p1 sc hu hne hr =>
    have hr := rebuilt h0.known (nodup_compileAddress env es c) hr
    obtain ⟨hst, hk⟩ := h0.activate rfl rfl hr
    refine ⟨hst, fun sel hs => ?_⟩
    by_cases ha : sel.address ∈ compileAddress env es c
    · obtain ⟨sc', hsc', ha'⟩ := h0.chosen hr hs ha
      cases hsc'
      exact .inl (hk sel hs ha')
    · exact .inr (hgn hu ha)
  | @pass es p1 p2 hu hne hr hpass =>
    have hr := rebuilt h0.known (nodup_compileAddress env es c) hr
    refine ⟨sticky_startConnectionPass (h0.toGrounded.rebuilt hr) hpass, fun sel hs => .inr (hgn hu fun ha => ?_)⟩
    obtain ⟨sc', hsc', -⟩ := h0.chosen hr hs ha
    cases hsc'
  | @failed e r hu hout hr =>
    -- Neither is the case while a subchannel is selected.
    have hnone : p.selected = none := by
      by_contra hs
      obtain ⟨sel, hs⟩ := Option.ne_none_iff_exists'.1 hs
      obtain ⟨hc, -, -, -, ⟨sc, hm, -⟩, -⟩ := h.selected sel hs
      rcases hout with hout | hout
      · rw [hout] at hm
        cases hm
      · rw [hc] at hout
        cases hout
    exact ⟨sticky_setTransientFailure hsame.toGrounded hnone hr, fun sel hs => absurd (hnone.symm.trans hs) (by simp)⟩
  | ignored hu => exact ⟨hsame, fun sel hs => .inl hs⟩

theorem Sticky.advanced (hs : p.selected = none) (hadv : Advanced p p') :
    Sticky b reported p' ∧ p'.selected = none := by
  have hg (i : Nat) : Grounded b reported { p with frontierIndex := i } := ⟨h.known, h.cached, h.toGrounded.published⟩
  cases hadv with
  | connects => exact ⟨((hg _).triggerSubchannelConnection _).sticky hs (h.unselected hs), hs⟩
  | ends => exact ⟨(hg _).sticky hs (h.unselected hs), hs⟩

theorem Sticky.passUpdated (hs : p.selected = none) (hp : PassUpdated p p') : Sticky b reported p' := by
  have ha {p1 : PickFirstPolicy A} (hadv : p1 = p ∨ Advanced p p1) : Sticky b reported p1 ∧ p1.selected = none :=
    hadv.elim (fun heq => heq ▸ ⟨h, hs⟩) (h.advanced hs)
  cases hp with
  | goes hadv => exact (ha hadv).1
  | @ends p1 err t s scs hadv =>
    obtain ⟨h1, hs1⟩ := ha hadv
    refine Grounded.sticky ⟨h1.known, h1.cached, .inr ⟨.failing t, ?_⟩⟩ hs1 ConnectivityState.noConfusion
    exact published_updatePicker _ (List.append_assoc _ _ _) (List.filterMap_eq_nil_iff.2 fun e he => by
      rcases List.mem_append.1 he with he | he
      · rw [List.mem_singleton.1 he]; rfl
      · obtain ⟨sc, -, rfl⟩ := List.mem_map.1 he; rfl)

end

theorem updateFirstPass_inside {a : Subchannel A} (ha : p.subchannels[p.frontierIndex]? = some a)
    (hf : sa.connectivityState = .transientFailure → a.address ≠ sc.address) : p.updateFirstPass sc sa = .ok p := by
  have hadv : p.advanceFailed sc sa = .ok p := by
    simp only [advanceFailed, ha]
    rw [if_neg]
    exact fun h => hf h.2 h.1
  have hlt : p.frontierIndex < p.subchannels.length := (List.getElem?_eq_some_iff.1 ha).1
  simp only [updateFirstPass, hadv, bind, Except.bind]
  rw [if_neg]
  · rfl
  · omega

theorem updateFirstPass_recorded (hcur : p.isCurrentAddress sc.address) (hst : sa.connectivityState = .connecting) :
    (p.recorded sc sa).updateFirstPass sc sa = .ok (p.recorded sc sa) := by
  obtain ⟨sc1, hm1, ha1⟩ := hcur
  refine updateFirstPass_connecting sc (by simp [hst]) ⟨sc1, hm1, ?_⟩
  show (p.noted sc sa).stateOf sc1 = _
  rw [stateOf_noted, if_pos ha1, hst]

section
variable (h : Sticky b reported p)
include h

theorem Sticky.noted (hsel : p.subchannelIsSelected sc = true → sa.connectivityState = .ready) :
    Sticky b (afterUpdate reported sc sa) (p.noted sc sa) := by
  refine ⟨h.toGrounded.noted sc sa, fun sel hs => ?_, h.unselected⟩
  obtain ⟨hc, hp, ht, hsd, hcur, hst⟩ := h.selected sel hs
  refine ⟨hc, hp, ht, hsd, hcur, ?_⟩
  rw [stateOf_noted]
  split
  · exact congrArg some (hsel (subchannelIsSelected_iff.2 ⟨sel, hs, ‹_›⟩))
  · exact hst

theorem Sticky.recorded (hsel : p.subchannelIsSelected sc = false) :
    Sticky b (afterUpdate reported sc sa) (p.recorded sc sa) :=
  have hn := h.noted fun hs => absurd (hsel.symm.trans hs) Bool.false_ne_true
  ⟨⟨hn.known, hn.cached, hn.toGrounded.published⟩, hn.selected, hn.unselected⟩

theorem sticky_subchannelUpdate (hk : Session.KeepsSelection ⟨p, reported⟩ (.subchannelUpdate sc sa))
    (hok : p.subchannelUpdate sc sa = .ok p') : Sticky b (afterUpdate reported sc sa) p' ∧
      ∀ sel, p.selected = some sel → p'.selected = some sel ∨ Call.Releases sel (.subchannelUpdate sc sa) := by
  cases updated hok with
  | ignored hcur => exact ⟨h.report fun sc' hm => if_neg fun ha => hcur ⟨sc', hm, ha⟩, fun sel hs => .inl hs⟩
  | kept hsel hr => exact ⟨h.noted fun _ => hr, fun sel hs => .inl hs⟩
  | lost hsel hr =>
    have hn := h.toGrounded.noted sc sa
    refine ⟨Grounded.sticky ⟨hn.known, hn.cached, .inr ⟨.idle, ?_⟩⟩ rfl ConnectivityState.noConfusion, fun sel hs => ?_⟩
    · exact published_updatePicker _ (List.append_nil _).symm rfl
    · obtain ⟨sel', hs', ha⟩ := subchannelIsSelected_iff.1 hsel
      cases hs.symm.trans hs'
      exact .inr ⟨ha.symm, hr⟩
  | activated hcur hsel hr =>
    -- Another subchannel is ready, so none is selected.
    have hnone (sel : Subchannel A) (hs : p.selected = some sel) : False := by
      rcases hk sel hs hcur (address_ne hsel hs) with hc | ⟨hc, -⟩
      · rw [hr] at hc; cases hc
      · exact hc hr
    refine ⟨sticky_subchannelActivate (p := p.noted sc sa) hsel ?_ ?_, fun sel hs => (hnone sel hs).elim⟩
    · simp [hr]
    · simp [afterUpdate, hr]
  | @counted st hcur hsel hr hs =>
    have hnone : p.selected = none := Option.eq_none_iff_forall_ne_some.2 fun sel hsel =>
      Option.some_ne_none _ (hs.symm.trans (h.selected sel hsel).2.2.2.1)
    refine ⟨?_, fun sel hsel => absurd (hnone.symm.trans hsel) (by simp)⟩
    have h1 : Sticky b (afterUpdate reported sc sa) (p.recorded sc sa) := h.recorded hsel
    obtain ⟨s, es, heq, he⟩ := subchannelNonready_eq (p.recorded sc sa) hs sc sa
    have hnl : es.filterMap Effect.published? = [] := by rcases he with rfl | rfl | rfl <;> rfl
    have hp := (p.recorded sc sa).published_append b hnl
    rw [heq]
    exact Grounded.sticky ⟨h1.known, h1.cached, hp.symm ▸ h1.toGrounded.published⟩ hnone (h1.unselected hnone)
  | passed hcur hsel hr hs hpass =>
    have h1 : Sticky b (afterUpdate reported sc sa) (p.recorded sc sa) := h.recorded hsel
    cases hs : p.selected with
    | none => exact ⟨h1.passUpdated hs (passUpdated hpass), fun _ hsm => by cases hsm⟩
    | some sel =>
      -- The update finds a pass that goes on.
      have hg : (p.recorded sc sa).updateFirstPass sc sa = .ok (p.recorded sc sa) := by
        rcases hk sel hs hcur (address_ne hsel hs) with hcn | ⟨-, a, ha, hf⟩
        · exact updateFirstPass_recorded hcur hcn
        · exact updateFirstPass_inside ha hf
      cases hpass.symm.trans hg
      exact ⟨h1, fun sel' hsl' => .inl (hs.trans hsl')⟩

theorem sticky_exitIdle (hok : p.exitIdle = .ok p') :
    Sticky b reported p' ∧ ∀ sel, p.selected = some sel → p'.selected = some sel := by
  unfold exitIdle at hok
  split at hok
  · rename_i hi
    refine ⟨sticky_startConnectionPass h.toGrounded hok, fun sel hs => ?_⟩
    exact absurd ((h.selected sel hs).1.symm.trans hi.1) (by simp)
  · cases hok
    exact ⟨h, fun sel hs => hs⟩

theorem sticky_work (hok : p.work none = .ok p') :
    Sticky b reported p' ∧ ∀ sel, p.selected = some sel → p'.selected = some sel := by
  simp only [work] at hok
  split at hok
  · exact sticky_exitIdle h hok
  · split at hok
    · rename_i ht
      -- The timer does not run while a subchannel is selected.
      have hnone : p.selected = none := by
        by_contra hs
        obtain ⟨sel, hs⟩ := Option.ne_none_iff_exists'.1 hs
        rw [(h.selected sel hs).2.2.1] at ht
        cases ht
      exact ⟨(h.advanced hnone (advanced hok)).1, fun sel hs => absurd (hnone.symm.trans hs) (by simp)⟩
    · cases hok
      exact ⟨h, fun sel hs => hs⟩

theorem sticky_timerExpires : Sticky b reported p.timerExpires := by
  refine ⟨⟨h.known, h.cached, h.toGrounded.published⟩, fun sel hs => ?_, h.unselected⟩
  obtain ⟨hc, hp, ht, hrest⟩ := h.selected sel hs
  exact ⟨hc, hp, congrArg (Option.map _) ht, hrest⟩

end

def Observed.Held (O : Observed A) : Prop :=
  Sticky O.published O.session.reported { O.session.policy with effects := [] }

theorem held_init : (Observed.init : Observed A).Held := by
  refine Grounded.sticky ⟨fun _ h => (by cases h), fun _ h => (by cases h), .inl ⟨rfl, rfl⟩⟩ rfl ?_
  exact nofun

/-- One call: the invariant is kept, and so is the selection unless the call releases it. -/
theorem Observed.Held.step {O O' : Observed A} (h : O.Held) {c : Call A} (hk : O.session.KeepsSelection c)
    (hok : O.step c = .ok O') :
    O'.Held ∧ ∀ sel, O.session.policy.selected = some sel → O'.session.policy.selected = some sel ∨ c.Releases sel := by
  obtain ⟨⟨p, r⟩, b⟩ := O
  unfold Observed.step at hok
  cases hs : Session.step ⟨p, r⟩ c with
  | error e => rw [hs] at hok; cases hok
  | ok S' =>
    rw [hs] at hok
    cases hok
    obtain ⟨p', hc, rfl⟩ := Session.step_cases hs
    cases c with
    | resolverUpdate env u cn =>
      obtain ⟨res, hr⟩ := call_resolverUpdate hc
      obtain ⟨h', hsel⟩ := sticky_resolverUpdate h hr
      exact ⟨h'.reset, hsel⟩
    | subchannelUpdate sc s =>
      obtain ⟨h', hsel⟩ := sticky_subchannelUpdate h hk hc
      exact ⟨h'.reset, hsel⟩
    | work =>
      obtain ⟨h', hsel⟩ := sticky_work h hc
      exact ⟨h'.reset, fun sel hs => .inl (hsel sel hs)⟩
    | exitIdle =>
      obtain ⟨h', hsel⟩ := sticky_exitIdle h hc
      exact ⟨h'.reset, fun sel hs => .inl (hsel sel hs)⟩
    | timerExpires =>
      cases hc
      exact ⟨(sticky_timerExpires h).reset, fun sel hs => .inl hs⟩

theorem Observed.Reachable.held {O : Observed A} (h : Reachable Session.KeepsSelection O) : O.Held := by
  induction h with
  | init => exact held_init
  | step c _ hk hok ih => exact (ih.step hk hok).1

/-- Without interference `READY` is published exactly while the selected subchannel is `READY`, and it stays
selected. -/
theorem selection_follows_ready {O : Observed A} (h : O.Reachable Session.KeepsSelection) :
    ((∃ p, O.published = some (.ready, p)) ↔
      ∃ sel, O.session.policy.selected = some sel ∧ O.session.reported sel.address = .ready) ∧
    (∀ sel, O.session.policy.selected = some sel → O.session.reported sel.address = .ready →
      O.published = some (.ready, .one sel)) ∧
    ∀ sel c O', O.session.policy.selected = some sel → O.session.reported sel.address = .ready →
      O.session.KeepsSelection c → O.step c = .ok O' →
      O'.session.policy.selected = some sel ∨ c.Releases sel := by
  have hh := h.held
  refine ⟨⟨?_, ?_⟩, fun sel hs _ => (hh.selected sel hs).2.1, fun sel c O' hs _ hk hok => (hh.step hk hok).2 sel hs⟩
  · rintro ⟨p, hp⟩
    have hc : O.session.policy.connectivityState = .ready := by
      rcases hh.toGrounded.published with ⟨hn, -⟩ | ⟨p', hp'⟩
      · exact absurd (hp.symm.trans hn) (by simp)
      · have := hp.symm.trans hp'
        simp only [Option.some.injEq, Prod.mk.injEq] at this
        exact this.1.symm
    cases hs : O.session.policy.selected with
    | none => exact absurd hc (hh.unselected hs)
    | some sel =>
      obtain ⟨-, -, -, -, ⟨sc, hm, ha⟩, hst⟩ := hh.selected sel hs
      refine ⟨sel, rfl, ha ▸ hh.cached sc hm ?_⟩
      rw [stateOf, ha]
      exact hst
  · rintro ⟨sel, hs, -⟩
    exact ⟨.one sel, (hh.selected sel hs).2.1⟩

/-- A new subchannel fails beside the selected one. -/
theorem selection_follows_ready_beside_failure : ∃ O O' : Observed Unit, O.Reachable Session.KeepsSelection ∧
    O.step (.subchannelUpdate ⟨1, tcpAddress "d"⟩ (.transientFailure "refused")) = .ok O' ∧
    O.published = some (.ready, .one ⟨0, tcpAddress "a"⟩) ∧
    O'.session.policy.selected = some ⟨0, tcpAddress "a"⟩ := by
  have h := Observed.Reachable.step (C := Session.KeepsSelection) (resolved .ready ["a"]) .init trivial rfl
  have h := h.step (resolved .connecting ["a", "d"]) trivial rfl
  obtain ⟨-, hp, hs⟩ := selection_follows_ready h
  refine ⟨_, _, h, rfl, hp _ rfl rfl, (hs ⟨0, tcpAddress "a"⟩
    (.subchannelUpdate ⟨1, tcpAddress "d"⟩ (.transientFailure "refused")) _ rfl rfl ?_ rfl).resolve_right ?_⟩
  · exact fun sel _ _ _ => .inr ⟨by decide, _, rfl, fun _ => by decide⟩
  · exact fun hr => absurd hr.1 (by decide)

/-- Beside the selected subchannel one that is ready replaces it, and one that fails has its failure published. -/
theorem others_displace_selected : (∃ O O' : Observed Unit, O.Reachable Session.Respects ∧
      O.session.Respects (.subchannelUpdate ⟨1, tcpAddress "d"⟩ .ready) ∧
      O.session.policy.selected = some ⟨0, tcpAddress "a"⟩ ∧ O.session.reported (tcpAddress "a") = .ready ∧
      O.step (.subchannelUpdate ⟨1, tcpAddress "d"⟩ .ready) = .ok O' ∧
      O'.session.policy.selected = some ⟨1, tcpAddress "d"⟩ ∧ O'.session.reported (tcpAddress "a") = .ready) ∧
    ∃ O : Observed Unit, O.Reachable Session.Respects ∧
      O.session.policy.selected = some ⟨0, tcpAddress "a"⟩ ∧ O.session.reported (tcpAddress "a") = .ready ∧
      O.published = some (.transientFailure, .failing "refused") := by
  constructor
  · have h := Observed.Reachable.step (C := Session.Respects) (resolved .ready ["a"]) .init
      (fun _ => .inr (.inl rfl)) rfl
    have h := h.step (resolved .connecting ["a", "d"]) (fun _ => .inr (.inr (.inl rfl))) rfl
    exact ⟨_, _, h, fun _ => .inl rfl, rfl, rfl, rfl, rfl, rfl⟩
  · have h := Observed.Reachable.step (C := Session.Respects) (resolved .idle ["a", "b", "c"]) .init
      (fun _ => .inl rfl) rfl
    -- The frontier goes to the third address before the first one connects.
    have h := (h.step .timerExpires trivial rfl).step .work trivial rfl
    have h := (h.step .timerExpires trivial rfl).step .work trivial rfl
    have h := h.step (reports 0 "a" .connecting) (fun _ => rfl) rfl
    have h := h.step (reports 0 "a" .ready) (fun _ => .inl rfl) rfl
    have h := h.step (resolved .connecting ["a", "d"]) (fun _ => .inr (.inr (.inl rfl))) rfl
    have h := h.step (reports 3 "d" (.transientFailure "refused")) (fun _ => .inr ⟨_, rfl⟩) rfl
    exact ⟨_, h, rfl, rfl, rfl⟩

end

end LoadBalancing
