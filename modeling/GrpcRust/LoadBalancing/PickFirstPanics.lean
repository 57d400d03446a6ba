import GrpcRust.LoadBalancing.PickFirstAddresses
/-!
# When pick_first panics

A session is the policy with the last reported states. A failure is reported with the last connection error; the
policy panics when it has recorded none, and only updates record errors.
-/

namespace LoadBalancing

open Lib PickFirstPolicy

variable {A : Type} [DecidableEq A]

/-! ## Sessions -/

inductive Call (A : Type) where
  | resolverUpdate (env : Env A) (update : ResolverUpdate A) (config : PickFirstConfig)
  | subchannelUpdate (sc : Subchannel A) (state : SubchannelState)
  | work
  | exitIdle
  | timerExpires

variable (p : PickFirstPolicy A) (reported : Address A → ConnectivityState)

def PickFirstPolicy.call : Call A → Except Panic (PickFirstPolicy A)
  | .resolverUpdate env update config => do
    let (p, _) ← p.resolverUpdate env update config
    return p
  | .subchannelUpdate sc state => p.work (some (sc, state))
  | .work => p.work none
  | .exitIdle => p.exitIdle
  | .timerExpires => .ok p.timerExpires

structure Session (A : Type) where
  policy : PickFirstPolicy A
  reported : Address A → ConnectivityState

namespace Session

def init : Session A := ⟨.build, fun _ => .idle⟩

variable (S : Session A)

def reportedAfter : Call A → Address A → ConnectivityState
  | .resolverUpdate env _ _, addr =>
    if S.policy.isCurrentAddress addr then S.reported addr else (env.fresh addr).connectivityState
  | .subchannelUpdate sc state, addr => if addr = sc.address then state.connectivityState else S.reported addr
  | _, addr => S.reported addr

def step (call : Call A) : Except Panic (Session A) := do
  let policy ← { S.policy with effects := [] }.call call
  return ⟨policy, S.reportedAfter call⟩

/-- A subchannel may be obtained in any state, and its updates follow the transitions. -/
def Respects : Call A → Prop
  | .resolverUpdate env _ _ => ∀ addr, (env.fresh addr).WellFormed
  | .subchannelUpdate sc state =>
    S.policy.isCurrentAddress sc.address → SubchannelState.Next (S.reported sc.address) state
  | _ => True

/-- Without a known error not all new addresses have failed, and beside a selected one they are on their way. -/
def ErrorKnown : Call A → Prop
  | .resolverUpdate env update config =>
    S.policy.lastConnectionError = none → ∀ endpoints, update.endpoints = .ok endpoints →
      let addrs := compileAddress env endpoints config
      (addrs ≠ [] → ∃ addr ∈ addrs,
        (S.policy.rebuiltState env addr).map (·.connectivityState) ≠ some .transientFailure) ∧
      ∀ sel, S.policy.selected = some sel → sel.address ∈ addrs → ∀ addr ∈ addrs, ¬ S.policy.isCurrentAddress addr →
        (env.fresh addr).connectivityState = .idle ∨ (env.fresh addr).connectivityState = .connecting
  | _ => True

inductive Reachable (C : Session A → Call A → Prop) : Session A → Prop where
  | init : Reachable C .init
  | step {S S' : Session A} (call : Call A) : Reachable C S → C S call → S.step call = .ok S' → Reachable C S'

end Session

/-! ## The invariant -/

def Waiting (c : ConnectivityState) : Prop := c = .idle ∨ c = .connecting

/-- The cached states are the reported ones, except where a connection was just requested. -/
def Cached : Prop :=
  ∀ sc ∈ p.subchannels, p.stateOf sc = some (reported sc.address) ∨
    p.stateOf sc = some .connecting ∧ Waiting (reported sc.address)

/-- Without a known error others beside a selected one are on their way, and in a pass at least one is. -/
structure NoError (S : Session A) : Prop where
  cached : Cached S.policy S.reported
  steadyState : S.policy.steadyState = none
  selected : ∀ sel, S.policy.selected = some sel → S.policy.connectivityState = .ready ∧ S.policy.timer = none ∧
    S.policy.isCurrentAddress sel.address ∧ S.reported sel.address = .ready ∧
    ∀ sc ∈ S.policy.subchannels, sc.address ≠ sel.address → Waiting (S.reported sc.address)
  unselected : S.policy.selected = none →
    (S.policy.connectivityState = .connecting ∧ (∀ sc ∈ S.policy.subchannels, S.reported sc.address ≠ .ready) ∧
      ∃ sc ∈ S.policy.subchannels, S.policy.stateOf sc = some .connecting ∧ Waiting (S.reported sc.address)) ∨
    (S.policy.connectivityState = .idle ∧ ∀ sc ∈ S.policy.subchannels, Waiting (S.reported sc.address))

structure Safe (S : Session A) : Prop where
  known : S.policy.Known
  noError : S.policy.lastConnectionError = none → NoError S

theorem safe_init : Safe (.init : Session A) where
  known _ h := by cases h
  noError _ :=
    { cached := nofun
      steadyState := rfl
      selected := nofun
      unselected := fun _ => .inr ⟨rfl, nofun⟩ }

theorem Safe.of_error {S : Session A} (hk : S.policy.Known) (h : S.policy.lastConnectionError ≠ none) : Safe S :=
  ⟨hk, fun hn => absurd hn h⟩

def afterUpdate (sc : Subchannel A) (state : SubchannelState) :
    Address A → ConnectivityState := fun a => if a = sc.address then state.connectivityState else reported a

def afterRebuild (env : Env A) (p : PickFirstPolicy A) (reported : Address A → ConnectivityState) :
    Address A → ConnectivityState :=
  fun a => if p.isCurrentAddress a then reported a else (env.fresh a).connectivityState

section
variable {p p' : PickFirstPolicy A} {reported : Address A → ConnectivityState} {sc : Subchannel A}
  {sa : SubchannelState} {env : Env A} {addrs : List (Address A)} {ready : Option (Subchannel A)}

section
variable (hc : Cached p reported)
include hc

theorem Cached.waiting (hm : sc ∈ p.subchannels) (hr : p.stateOf sc ≠ some .ready)
    (ht : p.stateOf sc ≠ some .transientFailure) : Waiting (reported sc.address) := by
  rcases hc sc hm with h | ⟨-, h⟩
  · rw [h] at hr ht
    cases hs : reported sc.address with
    | idle => exact .inl rfl
    | connecting => exact .inr rfl
    | ready => exact absurd (congrArg some hs) hr
    | transientFailure => exact absurd (congrArg some hs) ht
  · exact h

theorem Cached.ready_iff (hm : sc ∈ p.subchannels) : p.stateOf sc = some .ready ↔ reported sc.address = .ready := by
  rcases hc sc hm with h | ⟨h, hw⟩
  · rw [h]; simp
  · rw [h]
    constructor
    · intro h; cases h
    · intro h
      rw [h] at hw
      rcases hw with hw | hw <;> cases hw

theorem Cached.stateOf_ne (hm : sc ∈ p.subchannels) (hw : Waiting (reported sc.address)) {c : ConnectivityState}
    (hcw : ¬ Waiting c) : p.stateOf sc ≠ some c := by
  intro hst
  rcases hc sc hm with h | ⟨h, -⟩
  · exact hcw (Option.some.inj (h.symm.trans hst) ▸ hw)
  · exact hcw (.inr (Option.some.inj (hst.symm.trans h)))

theorem Cached.connect {a : Address A} (hs : p'.subchannels = p.subchannels)
    (h : p'.subchannelStates = p.subchannelStates.insert a .connecting) (hw : Waiting (reported a)) :
    Cached p' reported := by
  intro sc hm
  rw [hs] at hm
  rw [p.stateOf_insert h]
  split
  · rename_i ha
    exact .inr ⟨rfl, ha ▸ hw⟩
  · exact hc sc hm

theorem Cached.noted (sc : Subchannel A) (s : SubchannelState) : Cached (p.noted sc s) (afterUpdate reported sc s) := by
  intro sc' hm
  rw [stateOf_noted, afterUpdate]
  split
  · exact .inl rfl
  · exact hc sc' hm

theorem Cached.rebuilt (h : Rebuilt env p addrs p' ready) : Cached p' (afterRebuild env p reported) := by
  intro sc hm
  rw [h.stateOf (h.mem hm), rebuiltState, afterRebuild]
  by_cases hcur : p.isCurrentAddress sc.address
  · rw [if_pos hcur, if_pos hcur]
    obtain ⟨sc', hm', ha'⟩ := hcur
    have := hc sc' hm'
    rwa [stateOf, ha'] at this
  · rw [if_neg hcur, if_neg hcur]
    exact .inl rfl

end

theorem safe_startConnectionPass (hk : p.Known)
    (h : p.lastConnectionError = none → Cached p reported ∧ p.steadyState = none ∧
      (∀ sc ∈ p.subchannels, p.stateOf sc ≠ some .ready) ∧
      ∃ sc ∈ p.subchannels, p.stateOf sc ≠ some .transientFailure) :
    ∃ p', p.startConnectionPass = .ok p' ∧ Safe ⟨p', reported⟩ := by
  obtain ⟨p', hok⟩ := startConnectionPass_ok hk fun hn => (h hn).2.2.2
  refine ⟨p', hok, ?_⟩
  cases passStarted hok with
  | @connects j sc hsc hstops =>
    -- The subchannel that is connected now keeps the pass alive.
    have hm := List.mem_of_getElem? hsc
    obtain ⟨es, heq, -⟩ := updatePicker_connecting
      ({ p with selected := none, frontierIndex := j }.triggerSubchannelConnection sc) .queuing
    rw [heq]
    refine ⟨hk.insert rfl rfl, fun hn => ?_⟩
    obtain ⟨hc, hs, hrd, -⟩ := h hn
    have hw := hc.waiting hm (hrd sc hm) (hstops.live sc hsc)
    refine ⟨hc.connect rfl rfl hw, hs, nofun, fun _ => .inl ⟨rfl, fun sc' hm' hr => ?_, sc, hm, ?_, hw⟩⟩
    · exact hrd sc' hm' ((hc.ready_iff hm').2 hr)
    · rw [p.stateOf_insert rfl, if_pos rfl]
      rfl
  | fails _ _ hr =>
    obtain ⟨err, heq⟩ := setTransientFailure_eq hr
    rw [heq]
    exact .of_error hk (Option.some_ne_none err)

theorem safe_subchannelActivate (hs : p.subchannelIsSelected sc = false) (hst : p.stateOf sc = some .ready)
    (hr : p.lastConnectionError = none → reported sc.address = .ready) : Safe ⟨p.subchannelActivate sc, reported⟩ := by
  obtain ⟨s, hl, -⟩ := Option.map_eq_some_iff.1 hst
  rw [subchannelActivate_eq hs]
  refine ⟨fun sc' hm => ?_, fun hn => ⟨fun sc' hm => .inl ?_, rfl, fun sel hsel => ?_, nofun⟩⟩
  · rw [List.mem_singleton.1 hm]
    exact ⟨s, hl⟩
  · rw [List.mem_singleton.1 hm]
    exact hst.trans (congrArg some (hr hn).symm)
  · cases hsel
    refine ⟨rfl, rfl, ⟨sc, List.mem_singleton_self sc, rfl⟩, hr hn, fun sc' hm hne => ?_⟩
    exact absurd (congrArg Subchannel.address (List.mem_singleton.1 hm)) hne

theorem NoError.rebuilt (h : NoError ⟨p, reported⟩) (ht : p.timer = none) (hr : Rebuilt env p addrs p' ready)
    {sel : Subchannel A} (hsel : p.selected = some sel) (hmem : sel.address ∈ addrs)
    (hb : ∀ a ∈ addrs, ¬ p.isCurrentAddress a → Waiting (env.fresh a).connectivityState) :
    NoError ⟨p', afterRebuild env p reported⟩ := by
  obtain ⟨hcs, -, hcur, hrp, ho⟩ := h.selected sel hsel
  have hc := h.cached.rebuilt hr
  have hcr' := hr.current hmem
  have hmm' : ∀ sc ∈ p'.subchannels, sc.address ∈ addrs := fun sc hm => hr.mem hm
  obtain ⟨scs, ss, n, rfl⟩ := hr.rest
  refine ⟨hc, h.steadyState, fun sel' hs' => ?_, fun hnone => absurd (hsel.symm.trans hnone) (Option.some_ne_none _)⟩
  obtain rfl : sel = sel' := Option.some.inj (hsel.symm.trans hs')
  refine ⟨hcs, ht, hcr', (if_pos hcur).trans hrp, fun sc hm hne => ?_⟩
  dsimp only [afterRebuild]
  split
  · rename_i hcr'
    obtain ⟨sc', hm', ha'⟩ := hcr'
    exact ha' ▸ ho sc' hm' (ha' ▸ hne)
  · exact hb _ (hmm' sc hm) ‹_›

section
variable (h : Safe ⟨p, reported⟩)
include h

theorem safe_rebuildSubchannels (ht : p.timer = none) (hsd : p.steadyState = none) (hn : addrs.Nodup)
    (hf : p.lastConnectionError = none →
      ∃ a ∈ addrs, (p.rebuiltState env a).map (·.connectivityState) ≠ some .transientFailure)
    (hb : p.lastConnectionError = none → ∀ sel, p.selected = some sel → sel.address ∈ addrs →
      ∀ a ∈ addrs, ¬ p.isCurrentAddress a → Waiting (env.fresh a).connectivityState) :
    ∃ p' r, p.rebuildSubchannels env addrs = .ok (p', r) ∧
      (∀ sc, r = some sc → Safe ⟨p'.subchannelActivate sc, afterRebuild env p reported⟩) ∧
      (r = none → ∃ p'', p'.startConnectionPass = .ok p'' ∧ Safe ⟨p'', afterRebuild env p reported⟩) := by
  obtain ⟨p', r, hok, hr⟩ := rebuildSubchannels_ok h.known env hn
  have hk := hr.known h.known
  have her : p'.lastConnectionError = p.lastConnectionError := by
    obtain ⟨scs, ss, n, rfl⟩ := hr.rest
    rfl
  have hc (he : p'.lastConnectionError = none) := (h.noError (her ▸ he)).cached.rebuilt hr
  refine ⟨p', r, hok, fun sc hsc => ?_, fun hrd => ?_⟩
  · obtain ⟨hm, -⟩ := hr.chosen sc hsc
    cases hsel : p'.subchannelIsSelected sc with
    | true =>
      rw [subchannelActivate_selected hsel]
      refine ⟨hk, fun he => ?_⟩
      obtain ⟨sel, hs, hsa⟩ := subchannelIsSelected_iff.1 hsel
      have hs : p.selected = some sel := by
        obtain ⟨scs, ss, n, rfl⟩ := hr.rest
        exact hs
      exact (h.noError (her ▸ he)).rebuilt ht hr hs (hsa ▸ hm) (hb (her ▸ he) sel hs (hsa ▸ hm))
    | false =>
      refine safe_subchannelActivate hsel (hr.stateOf_chosen hsc) fun he => ?_
      obtain ⟨sc', hm', ha'⟩ := hr.current hm
      have := ((hc he).ready_iff hm').1 (by rw [stateOf, ha']; exact hr.stateOf_chosen hsc)
      rwa [ha'] at this
  · refine safe_startConnectionPass hk fun he => ⟨hc he, ?_, fun sc hm hst => ?_, ?_⟩
    · obtain ⟨scs, ss, n, rfl⟩ := hr.rest
      exact hsd
    · rw [hr.stateOf (hr.mem hm)] at hst
      exact hr.missed hrd _ (hr.mem hm) (Option.map_eq_some_iff.1 hst)
    · obtain ⟨a, ha, htf⟩ := hf (her ▸ he)
      obtain ⟨sc, hm, rfl⟩ := hr.current ha
      exact ⟨sc, hm, by rwa [hr.stateOf ha]⟩

theorem Safe.congr {reported' : Address A → ConnectivityState}
    (hr : ∀ sc ∈ p.subchannels, reported' sc.address = reported sc.address) : Safe ⟨p, reported'⟩ := by
  refine ⟨h.known, fun he => ?_⟩
  obtain ⟨hc, hs, hsel, hun⟩ := h.noError he
  have hwt {sc : Subchannel A} (hm : sc ∈ p.subchannels) (hw : Waiting (reported sc.address)) :
      Waiting (reported' sc.address) := by rwa [hr sc hm]
  refine ⟨fun sc hm => ?_, hs, fun sel hsl' => ?_, fun hn => ?_⟩
  · dsimp only
    rw [hr sc hm]
    exact hc sc hm
  · obtain ⟨hcs, ht, ⟨sc, hm, ha⟩, hrd, ho⟩ := hsel sel hsl'
    refine ⟨hcs, ht, ⟨sc, hm, ha⟩, ?_, fun sc' hm' hne => hwt hm' (ho sc' hm' hne)⟩
    exact ha ▸ (hr sc hm).trans (ha ▸ hrd)
  · rcases hun hn with ⟨hcs, hrd, sc, hm, hst, hw⟩ | ⟨hcs, hw⟩
    · exact .inl ⟨hcs, fun sc hm h => hrd sc hm ((hr sc hm).symm.trans h), sc, hm, hst, hwt hm hw⟩
    · exact .inr ⟨hcs, fun sc hm => hwt hm (hw sc hm)⟩

theorem Safe.frontier (i : Nat) (effects : List (Effect A)) :
    Safe ⟨{ p with frontierIndex := i, effects := effects }, reported⟩ := by
  refine ⟨h.known, fun he => ?_⟩
  obtain ⟨hc, hs, hsel, hun⟩ := h.noError he
  exact ⟨hc, hs, hsel, hun⟩

theorem Safe.settle (n : Option String) :
    Safe ⟨{ p with timer := none, steadyState := none, resolutionNote := n }, reported⟩ := by
  refine ⟨h.known, fun he => ?_⟩
  obtain ⟨hc, -, hsel, hun⟩ := h.noError he
  refine ⟨hc, rfl, fun sel hs => ?_, hun⟩
  obtain ⟨hcs, -, hrest⟩ := hsel sel hs
  exact ⟨hcs, rfl, hrest⟩

end

theorem safe_setTransientFailure (hk : p.Known) (e : String) :
    ∃ r, p.setTransientFailure (some e) = .ok r ∧ Safe ⟨r.1, reported⟩ := by
  obtain ⟨r, hok⟩ := setTransientFailure_ok p (some e) (by simp)
  obtain ⟨err, heq⟩ := setTransientFailure_eq hok
  refine ⟨r, hok, ?_⟩
  rw [heq]
  exact .of_error hk (Option.some_ne_none err)

theorem safe_resolverUpdate (h : Safe ⟨p, reported⟩) {update : ResolverUpdate A} {config : PickFirstConfig}
    (hk : Session.ErrorKnown ⟨p, reported⟩ (.resolverUpdate env update config)) :
    ∃ r, p.resolverUpdate env update config = .ok r ∧
      Safe ⟨r.1, Session.reportedAfter ⟨p, reported⟩ (.resolverUpdate env update config)⟩ := by
  have h1 := h.settle update.resolutionNote
  cases hu : update.endpoints with
  | ok endpoints =>
    by_cases hempty : compileAddress env endpoints config = []
    · obtain ⟨r, hok, hs⟩ := safe_setTransientFailure
        (p := { p with timer := none, steadyState := none, resolutionNote := update.resolutionNote,
                       subchannels := [], selected := none }) nofun "empty address list"
      refine ⟨(r.1, .error r.2), ?_, hs⟩
      simp only [resolverUpdate, hu, hempty, List.isEmpty_nil, if_true, hok]
      rfl
    · obtain ⟨p1, ready, hok, ha, hpass⟩ := safe_rebuildSubchannels h1 rfl rfl
        (nodup_compileAddress env endpoints config) (fun he => (hk he endpoints hu).1 hempty)
        fun he => (hk he endpoints hu).2
      have hne : (compileAddress env endpoints config).isEmpty = false := by simpa using hempty
      cases ready with
      | some sc =>
        refine ⟨(p1.subchannelActivate sc, .ok ()), ?_, ha sc rfl⟩
        simp only [resolverUpdate, hu, hne, hok]
        rfl
      | none =>
        obtain ⟨p', hok', hs⟩ := hpass rfl
        refine ⟨(p', .ok ()), ?_, hs⟩
        simp only [resolverUpdate, hu, hne, hok, bind, Except.bind, hok']
        rfl
  | error error =>
    by_cases hf : p.subchannels.isEmpty ∨ p.connectivityState = .transientFailure
    · obtain ⟨r, hok, hs⟩ := safe_setTransientFailure h1.known error
      refine ⟨(r.1, .error r.2), ?_, hs⟩
      simp only [resolverUpdate, hu, if_pos hf, hok]
      rfl
    · refine ⟨(_, .ok ()), ?_, h1.congr fun sc hm => if_pos ⟨sc, hm, rfl⟩⟩
      simp only [resolverUpdate, hu, if_neg hf]
      rfl

section
variable (h : NoError ⟨p, reported⟩) (hcur : p.isCurrentAddress sc.address) (hsel : p.subchannelIsSelected sc = false)
include h hcur hsel

theorem NoError.failed (hw : ¬ Waiting (reported sc.address)) : reported sc.address ≠ .ready ∧
      ∃ sc' ∈ p.subchannels, p.stateOf sc' = some .connecting ∧ Waiting (reported sc'.address) := by
  obtain ⟨sc1, hm, ha⟩ := hcur
  cases hs : p.selected with
  | some sel => exact absurd (ha ▸ (h.selected sel hs).2.2.2.2 sc1 hm (ha ▸ address_ne hsel hs)) hw
  | none =>
    rcases h.unselected hs with ⟨-, hr, hc⟩ | ⟨-, hall⟩
    · exact ⟨ha ▸ hr sc1 hm, hc⟩
    · exact absurd (ha ▸ hall sc1 hm) hw

theorem NoError.unready (hr : sa.connectivityState ≠ .ready) (hn : SubchannelState.Next (reported sc.address) sa) :
    (∃ error, sa = .transientFailure error) ∨ Waiting sa.connectivityState ∧
      ∃ sc' ∈ p.subchannels, (p.noted sc sa).stateOf sc' = some .connecting ∧
        Waiting (afterUpdate reported sc sa sc'.address) := by
  cases hrp : reported sc.address with
  | idle =>
    rw [hrp] at hn
    obtain rfl : sa = .connecting := hn
    obtain ⟨sc1, hm, ha⟩ := hcur
    refine .inr ⟨.inr rfl, sc1, hm, ?_, ?_⟩
    · rw [stateOf_noted, if_pos ha]; rfl
    · rw [afterUpdate, if_pos ha]; exact .inr rfl
  | connecting =>
    rw [hrp] at hn
    obtain rfl | he : sa = .ready ∨ ∃ error, sa = .transientFailure error := hn
    · exact absurd rfl hr
    · exact .inl he
  | ready => exact absurd hrp (h.failed hcur hsel (by simp [hrp, Waiting])).1
  | transientFailure =>
    -- The backoff has expired, in a pass in which another subchannel is connecting.
    rw [hrp] at hn
    obtain rfl : sa = .idle := hn
    obtain ⟨-, sc1, hm, hst, hw⟩ := h.failed hcur hsel (by simp [hrp, Waiting])
    have hne : sc1.address ≠ sc.address := by
      intro ha
      rw [ha, hrp] at hw
      rcases hw with hw | hw <;> cases hw
    refine .inr ⟨.inl rfl, sc1, hm, ?_, ?_⟩
    · rw [stateOf_noted, if_neg hne]; exact hst
    · rw [afterUpdate, if_neg hne]; exact hw

end

theorem NoError.recorded (h : NoError ⟨p, reported⟩) (hsel : p.subchannelIsSelected sc = false)
    (hw : Waiting sa.connectivityState)
    (hc : ∃ sc' ∈ p.subchannels, (p.noted sc sa).stateOf sc' = some .connecting ∧
      Waiting (afterUpdate reported sc sa sc'.address)) :
    NoError ⟨p.recorded sc sa, afterUpdate reported sc sa⟩ := by
  have ho {sc' : Subchannel A} (h : Waiting (reported sc'.address)) :
      Waiting (afterUpdate reported sc sa sc'.address) := by
    unfold afterUpdate
    split <;> assumption
  refine ⟨h.cached.noted sc sa, h.steadyState, fun sel hs => ?_, fun hn => ?_⟩
  · obtain ⟨hcs, ht, hcr', hr, hrest⟩ := h.selected sel hs
    exact ⟨hcs, ht, hcr', (if_neg (address_ne hsel hs).symm).trans hr, fun sc' hm ha => ho (hrest sc' hm ha)⟩
  · rcases h.unselected hn with ⟨hcs, hr, -⟩ | ⟨hcs, hall⟩
    · refine .inl ⟨hcs, fun sc' hm => ?_, hc⟩
      dsimp only [afterUpdate]
      split
      · rcases hw with hw | hw <;> simp [hw]
      · exact hr sc' hm
    · exact .inr ⟨hcs, fun sc' hm => ho (hall sc' hm)⟩

theorem safe_updateFirstPass (h : Safe ⟨p, reported⟩) (hcur : p.isCurrentAddress sc.address)
    (hsel : p.subchannelIsSelected sc = false) (hr : sa.connectivityState ≠ .ready)
    (hnx : SubchannelState.Next (reported sc.address) sa) :
    ∃ p', (p.recorded sc sa).updateFirstPass sc sa = .ok p' ∧ Safe ⟨p', afterUpdate reported sc sa⟩ := by
  have hk : (p.recorded sc sa).Known := h.known.insert rfl rfl
  by_cases he : (p.recorded sc sa).lastConnectionError = none
  · have her : p.lastConnectionError = none ∧ ¬ ∃ error, sa = .transientFailure error := by
      constructor
      · by_contra hn
        unfold recorded at he
        split at he <;> simp_all
      · rintro ⟨error, rfl⟩
        simp [recorded, SubchannelState.transientFailure] at he
    have hno := h.noError her.1
    obtain ⟨hw, hc⟩ := (hno.unready hcur hsel hr hnx).resolve_left her.2
    have hne : sa.connectivityState ≠ .transientFailure := by rcases hw with hw | hw <;> simp [hw]
    obtain ⟨sc1, hm, hst, -⟩ := id hc
    exact ⟨_, updateFirstPass_connecting sc hne ⟨sc1, hm, hst⟩, hk, fun _ => hno.recorded hsel hw hc⟩
  · obtain ⟨p', hok⟩ := updateFirstPass_ok hk he sc sa
    exact ⟨p', hok, .of_error ((passUpdated hok).known hk) ((passUpdated hok).error he)⟩

theorem safe_subchannelUpdate (h : Safe ⟨p, reported⟩)
    (hn : p.isCurrentAddress sc.address → SubchannelState.Next (reported sc.address) sa) :
    ∃ p', p.subchannelUpdate sc sa = .ok p' ∧ Safe ⟨p', afterUpdate reported sc sa⟩ := by
  obtain ⟨p', hok, hp'⟩ | ⟨hcur, hsel, hr, -, heq⟩ := p.subchannelUpdate_cases sc sa
  swap
  · rw [heq]
    exact safe_updateFirstPass h hcur hsel hr (hn hcur)
  refine ⟨p', hok, ?_⟩
  -- The selected subchannel is ready, so what is reported for it is that it is not.
  have hl (he : p.lastConnectionError = none) (hsel : p.subchannelIsSelected sc = true) : sa = .idle := by
    obtain ⟨sel, hs, ha⟩ := subchannelIsSelected_iff.1 hsel
    obtain ⟨-, -, hcur, hrd, -⟩ := (h.noError he).selected sel hs
    have hrd : reported sc.address = .ready := ha ▸ hrd
    have hn := hn (ha ▸ hcur)
    rwa [hrd] at hn
  have hk : (p.noted sc sa).Known := h.known.insert rfl rfl
  cases hp' with
  | ignored hcur => exact h.congr fun sc' hm => if_neg fun ha => hcur ⟨sc', hm, ha⟩
  | kept hsel hr =>
    refine .of_error hk fun he => ?_
    rw [hl he hsel] at hr
    cases hr
  | lost hsel hr =>
    refine ⟨hk, fun he => ?_⟩
    have hno := h.noError he
    obtain ⟨sel, hs, ha⟩ := subchannelIsSelected_iff.1 hsel
    refine ⟨hno.cached.noted sc sa, hno.steadyState, nofun, fun _ => .inr ⟨rfl, fun sc' hm => ?_⟩⟩
    dsimp only [afterUpdate]
    split
    · rw [hl he hsel]
      exact .inl rfl
    · exact (hno.selected sel hs).2.2.2.2 sc' hm fun h => ‹¬_› (h.trans ha)
  | activated hcur hsel hr =>
    refine safe_subchannelActivate hsel ?_ fun _ => ?_
    · rw [stateOf_noted, if_pos rfl, hr]
    · rw [afterUpdate, if_pos rfl, hr]
  | @counted st hcur hsel hr hs =>
    obtain ⟨s, es, heq, -⟩ := subchannelNonready_eq (p.recorded sc sa) hs sc sa
    have he : p.lastConnectionError ≠ none := fun he => Option.some_ne_none _ (hs.symm.trans (h.noError he).steadyState)
    rw [heq]
    refine .of_error hk ?_
    show (if _ then _ else _) ≠ none
    split
    · simp [he]
    · exact he
  | passed hcur hsel hr hs hpass =>
    obtain ⟨p1, ho1, hsf⟩ := safe_updateFirstPass h hcur hsel hr (hn hcur)
    cases hpass.symm.trans ho1
    exact hsf

theorem NoError.idle (h : NoError ⟨p, reported⟩) (hi : p.connectivityState = .idle) (hm : sc ∈ p.subchannels) :
    Waiting (reported sc.address) := by
  cases hs : p.selected with
  | some sel => exact absurd ((h.selected sel hs).1.symm.trans hi) (by simp)
  | none =>
    rcases h.unselected hs with ⟨hcs, -⟩ | ⟨-, hall⟩
    · exact absurd (hcs.symm.trans hi) (by simp)
    · exact hall sc hm

theorem safe_exitIdle (h : Safe ⟨p, reported⟩) : ∃ p', p.exitIdle = .ok p' ∧ Safe ⟨p', reported⟩ := by
  by_cases hi : p.connectivityState = .idle ∧ ¬ p.subchannels.isEmpty
  · rw [exitIdle, if_pos hi]
    refine safe_startConnectionPass h.known fun he => ?_
    have hno := h.noError he
    obtain ⟨sc, hm⟩ := List.exists_mem_of_ne_nil p.subchannels (by simpa using hi.2)
    exact ⟨hno.cached, hno.steadyState, fun sc hm => hno.cached.stateOf_ne hm (hno.idle hi.1 hm) (by simp [Waiting]),
      sc, hm, hno.cached.stateOf_ne hm (hno.idle hi.1 hm) (by simp [Waiting])⟩
  · exact ⟨p, if_neg hi, h⟩

theorem safe_work (h : Safe ⟨p, reported⟩) : ∃ p', p.work none = .ok p' ∧ Safe ⟨p', reported⟩ := by
  by_cases hi : p.connectivityState = .idle
  · simp only [work, if_pos hi]
    exact safe_exitIdle h
  by_cases ht : p.timer.any (·.expired) = true
  swap
  · exact ⟨p, by simp only [work, if_neg hi, if_neg ht], h⟩
  simp only [work, if_neg hi, if_pos ht]
  obtain ⟨p', hok⟩ := advance_ok h.known
  refine ⟨p', hok, ?_⟩
  cases advanced hok with
  | ends => exact h.frontier _ p.effects
  | @connects j sc hsc hstops =>
    have hm := List.mem_of_getElem? hsc
    refine ⟨h.known.insert rfl rfl, fun he => ?_⟩
    have hno := h.noError he
    -- The timer only runs during a pass, when nothing is selected.
    have hsel : p.selected = none := by
      by_contra hs
      obtain ⟨sel, hs⟩ := Option.ne_none_iff_exists'.1 hs
      have htm : p.timer = none := (hno.selected sel hs).2.1
      simp [htm] at ht
    obtain ⟨hcs, hr, -⟩ := (hno.unselected hsel).resolve_right fun h => hi h.1
    have hw := hno.cached.waiting hm (fun h => hr sc hm ((hno.cached.ready_iff hm).1 h)) (hstops.live sc hsc)
    refine ⟨hno.cached.connect rfl rfl hw, hno.steadyState, fun sel hs => ?_, fun _ => .inl ⟨hcs, hr, sc, hm, ?_, hw⟩⟩
    · exact absurd (hsel.symm.trans hs) (by simp)
    · rw [p.stateOf_insert rfl, if_pos rfl]; rfl

theorem safe_timerExpires (h : Safe ⟨p, reported⟩) : Safe ⟨p.timerExpires, reported⟩ := by
  refine ⟨h.known, fun he => ?_⟩
  obtain ⟨hc, hs, hsel, hun⟩ := h.noError he
  refine ⟨hc, hs, fun sel hs => ?_, hun⟩
  obtain ⟨hcs, ht, hrest⟩ := hsel sel hs
  exact ⟨hcs, congrArg (Option.map _) ht, hrest⟩

end

theorem Session.step_of_call {S : Session A} {c : Call A} {p' : PickFirstPolicy A}
    (h : { S.policy with effects := [] }.call c = .ok p') : S.step c = .ok ⟨p', S.reportedAfter c⟩ := by
  rw [Session.step, h]
  rfl

theorem Session.step_cases {S S' : Session A} {c : Call A} (h : S.step c = .ok S') :
    ∃ p', { S.policy with effects := [] }.call c = .ok p' ∧ S' = ⟨p', S.reportedAfter c⟩ := by
  unfold Session.step at h
  cases hc : { S.policy with effects := [] }.call c with
  | error e => rw [hc] at h; cases h
  | ok p' => rw [hc] at h; cases h; exact ⟨p', rfl, rfl⟩

theorem PickFirstPolicy.call_resolverUpdate {p p' : PickFirstPolicy A} {env : Env A} {u : ResolverUpdate A}
    {c : PickFirstConfig} (h : p.call (.resolverUpdate env u c) = .ok p') :
    ∃ res, p.resolverUpdate env u c = .ok (p', res) := by
  simp only [PickFirstPolicy.call] at h
  cases hr : p.resolverUpdate env u c with
  | error e => rw [hr] at h; cases h
  | ok r => rw [hr] at h; cases h; exact ⟨r.2, rfl⟩

/-- A call that respects the contract, with the errors known, returns, and the invariant is kept. -/
theorem Safe.step {S : Session A} (h : Safe S) (c : Call A) (hr : S.Respects c) (hk : S.ErrorKnown c) :
    ∃ S', S.step c = .ok S' ∧ Safe S' := by
  obtain ⟨p, rp⟩ := S
  have h : Safe ⟨{ p with effects := [] }, rp⟩ := h.frontier p.frontierIndex []
  cases c with
  | resolverUpdate env u cn =>
    obtain ⟨r, hok, hs⟩ := safe_resolverUpdate h hk
    exact ⟨_, Session.step_of_call (by rw [PickFirstPolicy.call, hok]; rfl), hs⟩
  | subchannelUpdate sc s =>
    obtain ⟨p', hok, hs⟩ := safe_subchannelUpdate h hr
    exact ⟨_, Session.step_of_call hok, hs⟩
  | work =>
    obtain ⟨p', hok, hs⟩ := safe_work h
    exact ⟨_, Session.step_of_call hok, hs⟩
  | exitIdle =>
    obtain ⟨p', hok, hs⟩ := safe_exitIdle h
    exact ⟨_, Session.step_of_call hok, hs⟩
  | timerExpires => exact ⟨_, rfl, safe_timerExpires h⟩

theorem Session.Reachable.safe {S : Session A} (h : Reachable (fun S c => S.Respects c ∧ S.ErrorKnown c) S) :
    Safe S := by
  induction h with
  | init => exact safe_init
  | step c _ hc hok ih =>
    obtain ⟨S', hok', hs⟩ := ih.step c hc.1 hc.2
    exact Except.ok.inj (hok'.symm.trans hok) ▸ hs

/-- In every run in which an error is known when it is needed, no call panics. -/
theorem pick_first_never_panics {S : Session A}
    (h : Session.Reachable (fun S call => S.Respects call ∧ S.ErrorKnown call) S) (call : Call A)
    (hr : S.Respects call) (hknown : S.ErrorKnown call) : ∃ S', S.step call = .ok S' := by
  obtain ⟨S', hok, -⟩ := h.safe.step call hr hknown
  exact ⟨S', hok⟩

def resolved (fresh : SubchannelState) (names : List String) : Call Unit :=
  .resolverUpdate ⟨fun _ => fresh, id, fun _ => .refl _⟩ ⟨.ok (names.map fun name => ⟨[tcpAddress name]⟩), none⟩
    ⟨false⟩

def reports (id : Nat) (name : String) (state : SubchannelState) : Call Unit :=
  .subchannelUpdate ⟨id, tcpAddress name⟩ state

theorem pick_first_never_panics_beside_selected : ∃ S S' : Session Unit,
    Session.init.step (resolved .ready ["a"]) = .ok S ∧ S.policy.selected = some ⟨0, tcpAddress "a"⟩ ∧
      S.step (resolved .idle ["b", "a"]) = .ok S' := by
  have hf : (Session.init : Session Unit).ErrorKnown (resolved .ready ["a"]) := by
    rintro - es ⟨⟩
    exact ⟨fun _ => ⟨tcpAddress "a", List.mem_singleton.2 rfl, by decide⟩, nofun⟩
  have h := Session.Reachable.step (C := fun S c => S.Respects c ∧ S.ErrorKnown c) (resolved .ready ["a"])
    .init ⟨fun _ => .inr (.inl rfl), hf⟩ rfl
  obtain ⟨S', hok⟩ := pick_first_never_panics h (resolved .idle ["b", "a"]) (fun _ => .inl rfl) fun _ _ hu => by
    cases hu
    exact ⟨fun _ => ⟨tcpAddress "b", by decide, by decide⟩, fun _ _ _ _ _ _ => .inl rfl⟩
  exact ⟨_, S', rfl, rfl, hok⟩

/-- A subchannel is obtained in `TRANSIENT_FAILURE`; one obtained ready beside the selected one is lost. -/
theorem failures_without_error_panic :
    ((Session.init : Session Unit).Respects (resolved (.transientFailure "refused") ["a"]) ∧
      Session.init.step (resolved (.transientFailure "refused") ["a"]) = .error .lastConnectionError) ∧
    ∃ S : Session Unit, S.Reachable Session.Respects ∧ S.Respects (.subchannelUpdate ⟨3, tcpAddress "d"⟩ .idle) ∧
      S.step (.subchannelUpdate ⟨3, tcpAddress "d"⟩ .idle) = .error .lastConnectionError := by
  refine ⟨⟨fun _ => .inr (.inr (.inr ⟨_, rfl⟩)), rfl⟩, ?_⟩
  have h := Session.Reachable.step (C := Session.Respects) (resolved .idle ["a", "b", "c"]) .init
    (fun _ => .inl rfl) rfl
  -- The frontier goes to the third address before the first one connects.
  have h := (h.step .timerExpires trivial rfl).step .work trivial rfl
  have h := (h.step .timerExpires trivial rfl).step .work trivial rfl
  have h := h.step (reports 0 "a" .connecting) (fun _ => rfl) rfl
  have h := h.step (reports 0 "a" .ready) (fun _ => .inl rfl) rfl
  have h := h.step (resolved .ready ["a", "d"]) (fun _ => .inr (.inl rfl)) rfl
  exact ⟨_, h, fun _ => rfl, rfl⟩

end LoadBalancing
