import GrpcRust.LoadBalancing.PickFirstSelection
/-!
# Connection passes

After a lost connection the next pass tries only the winner; and a pass skips what has failed when it begins.
`WholePass` rules this out.
-/

namespace LoadBalancing

open Lib PickFirstPolicy

variable {A : Type} [DecidableEq A]

/-! ## The history of a pass -/

def PickFirstPolicy.startsPass (p : PickFirstPolicy A) : Call A → Bool
  | .resolverUpdate env update config =>
    match update.endpoints with
    | .ok endpoints =>
      match p.rebuildSubchannels env (compileAddress env endpoints config) with
      | .ok (_, none) => !(compileAddress env endpoints config).isEmpty
      | _ => false
    | .error _ => false
  | .work => decide (p.connectivityState = .idle) && !p.subchannels.isEmpty
  | .exitIdle => decide (p.connectivityState = .idle) && !p.subchannels.isEmpty
  | _ => false

def Call.newList : Call A → Option (List (Address A))
  | .resolverUpdate env update config =>
    match update.endpoints with
    | .ok endpoints =>
      if (compileAddress env endpoints config).isEmpty then none else some (compileAddress env endpoints config)
    | .error _ => none
  | _ => none

/-- A session, the resolver's latest list that was not empty, and what has failed since the pass began. -/
structure Tracked (A : Type) where
  session : Session A
  latest : List (Address A)
  failed : List (Address A)

namespace Tracked

def init : Tracked A := ⟨.init, [], []⟩

def latestAfter (T : Tracked A) (call : Call A) : List (Address A) := call.newList.getD T.latest

def failedAfter (T : Tracked A) : Call A → List (Address A)
  | .subchannelUpdate sc state =>
    if state.connectivityState = .transientFailure then sc.address :: T.failed else T.failed
  | call => if T.session.policy.startsPass call then [] else T.failed

def step (T : Tracked A) (call : Call A) : Except Panic (Tracked A) := do
  let session ← T.session.step call
  return ⟨session, T.latestAfter call, T.failedAfter call⟩

/-- A pass begins with the whole list, none failed or ready; outside of one, no other subchannel interferes. -/
def WholePass (T : Tracked A) : Call A → Prop
  | .subchannelUpdate sc state =>
    T.session.policy.selected ≠ none ∨ T.session.policy.connectivityState = .idle →
    T.session.policy.isCurrentAddress sc.address → T.session.policy.subchannelIsSelected sc = false →
      state.connectivityState = .ready ∨ state.connectivityState = .connecting ∨
      ∃ attempting, T.session.policy.subchannels[T.session.policy.frontierIndex]? = some attempting ∧
        (state.connectivityState = .transientFailure → attempting.address ≠ sc.address)
  | call => T.session.policy.startsPass call = true → ∀ addr ∈ T.latestAfter call,
      (call.newList = none → T.session.policy.isCurrentAddress addr) ∧ Waiting (T.session.reportedAfter call addr)

inductive Reachable (C : Tracked A → Call A → Prop) : Tracked A → Prop where
  | init : Reachable C .init
  | step {T T' : Tracked A} (call : Call A) : Reachable C T → C T call → T.step call = .ok T' → Reachable C T'

end Tracked

/-- A resolver update without addresses: what is published then is not about connections. -/
def Call.ResolutionFails : Call A → Prop
  | .resolverUpdate env update config => (Call.resolverUpdate env update config).newList = none
  | _ => False

/-! ## The invariant -/

section
variable {p p' : PickFirstPolicy A} {reported : Address A → ConnectivityState} {latest failed : List (Address A)}
  {sc : Subchannel A} {state : SubchannelState} {env : Env A} {addrs : List (Address A)} {ready : Option (Subchannel A)}
  {effects : List (Effect A)}

/-- A pass over the whole list: what the frontier has gone past is connecting or has failed. -/
structure InPass (p : PickFirstPolicy A) (reported : Address A → ConnectivityState)
    (latest failed : List (Address A)) : Prop where
  whole : ∀ addr ∈ latest, p.isCurrentAddress addr
  listed : ∀ sc ∈ p.subchannels, sc.address ∈ latest
  waiting : ∀ sc ∈ p.subchannels, sc.address ∈ failed ∨ Waiting (reported sc.address)
  unready : ∀ sc ∈ p.subchannels, reported sc.address ≠ .ready
  tried : ∀ i sc, p.subchannels[i]? = some sc → i ≤ p.frontierIndex →
    p.stateOf sc = some .connecting ∨ sc.address ∈ failed

/-- The invariant of a run: with a subchannel selected, idle, without addresses, or in a pass. -/
structure Passing (p : PickFirstPolicy A) (reported : Address A → ConnectivityState)
    (latest failed : List (Address A)) : Prop where
  known : p.Known
  cached : Cached p reported
  listed : ∀ sc ∈ p.subchannels, sc.address ∈ latest
  selected : p.selected ≠ none → p.timer = none ∧ p.steadyState = none
  idle : p.selected = none → p.connectivityState = .idle → p.steadyState = none
  pass : p.selected = none → p.connectivityState ≠ .idle → p.subchannels = [] ∨ InPass p reported latest failed

def PickFirstPolicy.Failing (p : PickFirstPolicy A) : Prop :=
  ∃ picker, .updatePicker .transientFailure picker ∈ p.effects

omit [DecidableEq A] in
theorem failing_append (p : PickFirstPolicy A) (h : ∀ pc, .updatePicker .transientFailure pc ∉ effects) :
    { p with effects := p.effects ++ effects }.Failing ↔ p.Failing := by
  simp [PickFirstPolicy.Failing, h]

theorem InPass.congr (h : InPass p reported latest failed) (hs : p'.subchannels = p.subchannels)
    (hst : p'.subchannelStates = p.subchannelStates) (hf : p'.frontierIndex = p.frontierIndex) :
    InPass p' reported latest failed := by
  obtain ⟨⟩ := p
  obtain ⟨⟩ := p'
  cases hs
  cases hst
  cases hf
  exact ⟨h.whole, h.listed, h.waiting, h.unready, h.tried⟩

structure Active (p : PickFirstPolicy A) (reported : Address A → ConnectivityState)
    (latest failed : List (Address A)) : Prop extends InPass p reported latest failed where
  known : p.Known
  cached : Cached p reported

namespace Active

section
variable (h : Active p reported latest failed)
include h

theorem advanced (hadv : Advanced p p') :
    Active p' reported latest failed ∧ p'.selected = p.selected ∧ p'.connectivityState = p.connectivityState ∧
      (p'.Failing → p.Failing) := by
  -- A subchannel the scan skips was reported as failed.
  have hp {i j : Nat} {sc : Subchannel A} (hstops : p.Stops (p.frontierIndex + 1) j)
      (hi : p.subchannels[i]? = some sc) (hlt : i < j) : p.stateOf sc = some .connecting ∨ sc.address ∈ failed := by
    by_cases ho : i ≤ p.frontierIndex
    · exact h.tried i sc hi ho
    · have hm := List.mem_of_getElem? hi
      have htf := hstops.failed i sc (by omega) hlt hi
      exact .inr ((h.waiting sc hm).resolve_right fun hw => h.cached.stateOf_ne hm hw (by simp [Waiting]) htf)
  cases hadv with
  | @connects j sc hsc hstops =>
    have hm := List.mem_of_getElem? hsc
    have hw : Waiting (reported sc.address) :=
      h.cached.waiting hm (fun hr => h.unready sc hm ((h.cached.ready_iff hm).1 hr)) (hstops.live sc hsc)
    refine ⟨⟨⟨h.whole, h.listed, h.waiting, h.unready, fun i sc' hi hle => ?_⟩, h.known.insert rfl rfl,
      h.cached.connect rfl rfl hw⟩, rfl, rfl, (failing_append p (by simp)).1⟩
    rw [p.stateOf_insert rfl]
    split
    · exact .inl rfl
    · rename_i hne
      refine hp hstops hi (lt_of_le_of_ne hle ?_)
      rintro rfl
      exact hne (congrArg Subchannel.address (Option.some.inj (hi.symm.trans hsc)))
  | ends hj hstops =>
    refine ⟨⟨⟨h.whole, h.listed, h.waiting, h.unready, fun i sc hi _ => hp hstops hi ?_⟩, h.known, h.cached⟩, rfl, rfl,
      id⟩
    exact (List.getElem?_eq_some_iff.1 hi).1.trans_le hj

theorem exhausted (hl : p.subchannels.length ≤ p.frontierIndex)
    (hall : ∀ sc ∈ p.subchannels, p.stateOf sc ≠ some .connecting) : ∀ a ∈ latest, a ∈ failed := by
  intro a ha
  obtain ⟨sc, hm, rfl⟩ := h.whole a ha
  obtain ⟨i, hi⟩ := List.mem_iff_getElem?.1 hm
  have hlt : i < p.subchannels.length := (List.getElem?_eq_some_iff.1 hi).1
  exact (h.tried i sc hi (by omega)).resolve_left (hall sc hm)

theorem passUpdated (hs : p.selected = none) (hc : p.connectivityState ≠ .idle) (hp : PassUpdated p p') :
    Active p' reported latest failed ∧ p'.selected = none ∧ p'.connectivityState ≠ .idle ∧
      (p'.Failing → p.Failing ∨ ∀ a ∈ latest, a ∈ failed) := by
  have ha {p1 : PickFirstPolicy A} (hadv : p1 = p ∨ Advanced p p1) :
      Active p1 reported latest failed ∧ p1.selected = p.selected ∧ p1.connectivityState = p.connectivityState ∧
        (p1.Failing → p.Failing) := by
    rcases hadv with rfl | hadv
    · exact ⟨h, rfl, rfl, id⟩
    · exact h.advanced hadv
  cases hp with
  | goes hadv =>
    obtain ⟨h1, hs1, hc1, hf1⟩ := ha hadv
    exact ⟨h1, hs1.trans hs, hc1 ▸ hc, fun hf => .inl (hf1 hf)⟩
  | ends hadv hend hall =>
    obtain ⟨h1, hs1, -⟩ := ha hadv
    refine ⟨⟨h1.toInPass.congr rfl rfl rfl, h1.known, h1.cached⟩, hs1.trans hs, ConnectivityState.noConfusion,
      fun _ => ?_⟩
    exact .inr (h1.exhausted hend hall)

end

end Active

def failedAfterUpdate (failed : List (Address A)) (sc : Subchannel A) (state : SubchannelState) : List (Address A) :=
  if state.connectivityState = .transientFailure then sc.address :: failed else failed

omit [DecidableEq A] in
theorem mem_failedAfterUpdate {a : Address A} (h : a ∈ failed) (sc : Subchannel A) (state : SubchannelState) :
    a ∈ failedAfterUpdate failed sc state := by
  unfold failedAfterUpdate
  split
  · exact List.mem_cons_of_mem _ h
  · exact h

theorem Active.recorded (h : Active p reported latest failed) (hcur : p.isCurrentAddress sc.address)
    (hn : SubchannelState.Next (reported sc.address) state) (hr : state.connectivityState ≠ .ready) :
    Active (p.recorded sc state) (afterUpdate reported sc state) latest (failedAfterUpdate failed sc state) := by
  have hf (htf : state.connectivityState = .transientFailure) : sc.address ∈ failedAfterUpdate failed sc state := by
    rw [failedAfterUpdate, if_pos htf]
    exact List.mem_cons_self
  -- A subchannel that goes idle in a pass has failed before.
  have hid (hi : state.connectivityState = .idle) : sc.address ∈ failed := by
    obtain ⟨sc1, hm, ha⟩ := hcur
    rw [← ha] at hn ⊢
    refine (h.waiting sc1 hm).resolve_right fun hw => ?_
    rcases hw with hw | hw
    · rw [hw] at hn
      rw [show state = .connecting from hn] at hi
      cases hi
    · rw [hw] at hn
      obtain rfl | ⟨error, rfl⟩ : state = .ready ∨ ∃ error, state = .transientFailure error := hn
      · cases hi
      · cases hi
  refine ⟨⟨h.whole, h.listed, fun sc' hm => ?_, fun sc' hm => ?_, fun i sc' hi hle => ?_⟩, h.known.insert rfl rfl,
    h.cached.noted sc state⟩
  · unfold afterUpdate
    split
    · rename_i ha
      cases hs : state.connectivityState with
      | idle => exact .inr (.inl rfl)
      | connecting => exact .inr (.inr rfl)
      | ready => exact absurd hs hr
      | transientFailure => exact .inl (ha ▸ hf hs)
    · exact (h.waiting sc' hm).imp_left (mem_failedAfterUpdate · sc state)
  · unfold afterUpdate
    split
    · exact hr
    · exact h.unready sc' hm
  · show (p.noted sc state).stateOf sc' = _ ∨ _
    rw [stateOf_noted]
    split
    · rename_i ha
      cases hs : state.connectivityState with
      | idle => exact .inr (mem_failedAfterUpdate (ha ▸ hid hs) sc state)
      | connecting => exact .inl rfl
      | ready => exact absurd hs hr
      | transientFailure => exact .inr (ha ▸ hf hs)
    · exact (h.tried i sc' hi hle).imp_right (mem_failedAfterUpdate · sc state)

theorem active_startConnectionPass (hk : p.Known) (hc : Cached p reported) (hwh : ∀ a ∈ latest, p.isCurrentAddress a)
    (hl : ∀ sc ∈ p.subchannels, sc.address ∈ latest) (hw : ∀ sc ∈ p.subchannels, Waiting (reported sc.address))
    (hne : p.subchannels ≠ []) (hok : p.startConnectionPass = .ok p') :
    Active p' reported latest [] ∧ p'.selected = none ∧ p'.connectivityState ≠ .idle ∧ (p'.Failing → p.Failing) := by
  obtain ⟨first, scs, hs⟩ := List.exists_cons_of_ne_nil hne
  -- Nothing has failed, so the pass begins with the first subchannel.
  have hz {j : Nat} (hstops : p.Stops 0 j) : j = 0 := by
    by_contra hj
    have hm : first ∈ p.subchannels := hs ▸ List.mem_cons_self
    exact hc.stateOf_ne hm (hw first hm) (by simp [Waiting])
      (hstops.failed 0 first (Nat.le_refl 0) (Nat.pos_of_ne_zero hj) (by simp [hs]))
  cases passStarted hok with
  | @connects j sc hsc hstops =>
    obtain rfl := hz hstops
    obtain ⟨es, heq, he⟩ := updatePicker_connecting
      ({ p with selected := none, frontierIndex := 0 }.triggerSubchannelConnection sc) .queuing
    rw [heq]
    refine ⟨⟨⟨hwh, hl, fun sc' hm' => .inr (hw sc' hm'), fun sc' hm' hr => ?_, fun k sc' hi hle => ?_⟩,
      hk.insert rfl rfl, hc.connect rfl rfl (hw sc (List.mem_of_getElem? hsc))⟩, rfl, ConnectivityState.noConfusion,
      fun hf => ?_⟩
    · rcases hw sc' hm' with h | h <;> rw [hr] at h <;> cases h
    · obtain rfl : k = 0 := Nat.le_zero.1 hle
      obtain rfl : sc' = sc := Option.some.inj (hi.symm.trans hsc)
      rw [p.stateOf_insert rfl, if_pos rfl]
      exact .inl rfl
    · rcases he with rfl | rfl
      · exact (failing_append p (by simp)).1 hf
      · exact (failing_append p (by simp)).1 ((failing_append _ (by simp)).1 hf)
  | fails hj hstops =>
    rw [hz hstops, hs] at hj
    cases hj

theorem Active.passing (h : Active p reported latest failed) (hs : p.selected = none)
    (hc : p.connectivityState ≠ .idle) : Passing p reported latest failed :=
  ⟨h.known, h.cached, h.listed, fun h => absurd hs h, fun _ h => absurd h hc, fun _ _ => .inr h.toInPass⟩

theorem Passing.report (h : Passing p reported latest failed) {reported' : Address A → ConnectivityState}
    (hr : ∀ sc ∈ p.subchannels, reported' sc.address = reported sc.address) : Passing p reported' latest failed := by
  refine ⟨h.known, fun sc hm => ?_, h.listed, h.selected, h.idle, fun hs hc => ?_⟩
  · rw [hr sc hm]
    exact h.cached sc hm
  · refine (h.pass hs hc).imp_right fun hp => ⟨hp.whole, hp.listed, fun sc hm => ?_, fun sc hm => ?_, hp.tried⟩
    · rw [hr sc hm]
      exact hp.waiting sc hm
    · rw [hr sc hm]
      exact hp.unready sc hm

theorem passing_subchannelActivate (hc : Cached p reported) (hk : p.Known) {sc' : Subchannel A}
    (hs : p.subchannelIsSelected sc = false) (hm : sc' ∈ p.subchannels) (ha : sc'.address = sc.address)
    (hl : sc.address ∈ latest) (f : List (Address A)) :
    Passing (p.subchannelActivate sc) reported latest f ∧ ((p.subchannelActivate sc).Failing → p.Failing) := by
  rw [subchannelActivate_eq hs]
  refine ⟨⟨fun sc1 hm1 => ?_, fun sc1 hm1 => ?_, fun sc1 hm1 => ?_, fun _ => ⟨rfl, rfl⟩, nofun, nofun⟩,
    (failing_append p (by simp)).1⟩
  · rw [List.mem_singleton.1 hm1, ← ha]
    exact hk sc' hm
  · rw [List.mem_singleton.1 hm1, stateOf, ← ha]
    exact hc sc' hm
  · rw [List.mem_singleton.1 hm1]
    exact hl

section
variable (h : Passing p reported latest failed)
include h

theorem Passing.mono {failed' : List (Address A)} (hf : ∀ a ∈ failed, a ∈ failed') :
    Passing p reported latest failed' := by
  refine ⟨h.known, h.cached, h.listed, h.selected, h.idle, fun hs hc => (h.pass hs hc).imp_right fun hp => ?_⟩
  exact ⟨hp.whole, hp.listed, fun sc hm => (hp.waiting sc hm).imp_left (hf _), hp.unready,
    fun i sc hi hle => (hp.tried i sc hi hle).imp_right (hf _)⟩

theorem passing_subchannelUpdate
    (hnx : p.isCurrentAddress sc.address → SubchannelState.Next (reported sc.address) state)
    (hw : Tracked.WholePass ⟨⟨p, reported⟩, latest, failed⟩ (.subchannelUpdate sc state))
    (hok : p.subchannelUpdate sc state = .ok p') :
    Passing p' (afterUpdate reported sc state) latest (failedAfterUpdate failed sc state) ∧
      (p'.Failing → p.Failing ∨ ∀ addr ∈ latest, addr ∈ failedAfterUpdate failed sc state) := by
  have hk : (p.noted sc state).Known := h.known.insert rfl rfl
  have hc := h.cached.noted sc state
  -- In a pass the update is a part of it.
  have hac (hcur : p.isCurrentAddress sc.address) (hr : state.connectivityState ≠ .ready)
      (hs : p.selected = none) (hi : p.connectivityState ≠ .idle) :
      Active (p.recorded sc state) (afterUpdate reported sc state) latest (failedAfterUpdate failed sc state) := by
    have hp : InPass p reported latest failed := by
      refine (h.pass hs hi).resolve_left fun hnl => ?_
      obtain ⟨sc1, hm1, -⟩ := hcur
      rw [hnl] at hm1
      cases hm1
    exact Active.recorded ⟨hp, h.known, h.cached⟩ hcur (hnx hcur) hr
  have hout : p.selected ≠ none ∨ p.connectivityState = .idle → p.steadyState = none := by
    intro hout
    by_cases hs : p.selected = none
    · exact h.idle hs (hout.resolve_left fun h => h hs)
    · exact (h.selected hs).2
  cases updated hok with
  | ignored hcur =>
    exact ⟨(h.report fun sc' hm => if_neg fun ha => hcur ⟨sc', hm, ha⟩).mono fun _ ha =>
      mem_failedAfterUpdate ha sc state, .inl⟩
  | kept hsel hr =>
    obtain ⟨sel, hs, -⟩ := subchannelIsSelected_iff.1 hsel
    have hs : p.selected ≠ none := hs ▸ Option.some_ne_none sel
    exact ⟨⟨hk, hc, h.listed, h.selected, h.idle, fun hn => absurd hn hs⟩, .inl⟩
  | lost hsel hr =>
    -- The connection is lost: the policy is idle with the list it has.
    obtain ⟨sel, hs, -⟩ := subchannelIsSelected_iff.1 hsel
    refine ⟨⟨hk, hc, h.listed, fun hn => absurd rfl hn, fun _ _ => ?_, fun _ hn => absurd rfl hn⟩, fun hf => .inl ?_⟩
    · exact (h.selected (hs ▸ Option.some_ne_none sel)).2
    · exact (failing_append p (by simp)).1 hf
  | activated hcur hsel hr =>
    obtain ⟨sc1, hm1, ha1⟩ := hcur
    obtain ⟨hp, hf⟩ := passing_subchannelActivate hc hk hsel hm1 ha1 (ha1 ▸ h.listed sc1 hm1)
      (failedAfterUpdate failed sc state)
    exact ⟨hp, fun h => .inl (hf h)⟩
  | @counted st hcur hsel hr hs =>
    obtain ⟨hn, hi⟩ := not_or.1 fun ho => Option.some_ne_none _ (hs.symm.trans (hout ho))
    have ha := hac hcur hr (not_not.1 hn) hi
    obtain ⟨s, es, heq, he⟩ := subchannelNonready_eq (p.recorded sc state) hs sc state
    rw [heq]
    refine ⟨Active.passing ⟨ha.toInPass.congr rfl rfl rfl, ha.known, ha.cached⟩ (not_not.1 hn) hi, fun hf => .inl ?_⟩
    exact (failing_append (p.recorded sc state) (by rcases he with rfl | rfl | rfl <;> simp)).1 hf
  | passed hcur hsel hr hs hpass =>
    by_cases ho : p.selected ≠ none ∨ p.connectivityState = .idle
    · -- The update finds a pass that goes on, and nothing else happens.
      have hg : (p.recorded sc state).updateFirstPass sc state = .ok (p.recorded sc state) := by
        rcases hw ho hcur hsel with hrd | hcn | ⟨a, ha, hf⟩
        · exact absurd hrd hr
        · exact updateFirstPass_recorded hcur hcn
        · exact updateFirstPass_inside ha hf
      cases hpass.symm.trans hg
      exact ⟨⟨hk, hc, h.listed, h.selected, h.idle, fun hs hi => absurd ho (not_or.2 ⟨fun h => h hs, hi⟩)⟩, .inl⟩
    · obtain ⟨hn, hi⟩ := not_or.1 ho
      obtain ⟨ha, hs', hc', hf'⟩ := (hac hcur hr (not_not.1 hn) hi).passUpdated (not_not.1 hn) hi
        (passUpdated hpass)
      exact ⟨ha.passing hs' hc', hf'⟩

theorem Passing.activate (ht : p.timer = none) (hst : p.steadyState = none) (hr : Rebuilt env p addrs p' (some sc)) :
    Passing (p'.subchannelActivate sc) (afterRebuild env p reported) addrs failed ∧
      ((p'.subchannelActivate sc).Failing → p.Failing) := by
  have hk := hr.known h.known
  have hc := h.cached.rebuilt hr
  have hl : ∀ sc ∈ p'.subchannels, sc.address ∈ addrs := fun sc hm => hr.mem hm
  obtain ⟨hm, -⟩ := hr.chosen sc rfl
  obtain ⟨sc1, hm1, ha1⟩ := hr.current hm
  obtain ⟨scs, states, n, hp⟩ := hr.rest
  subst hp
  cases hsel : { p with subchannels := scs, subchannelStates := states, nextId := n }.subchannelIsSelected sc with
  | true =>
    obtain ⟨sel, hs, -⟩ := subchannelIsSelected_iff.1 hsel
    have hs : p.selected ≠ none := hs ▸ Option.some_ne_none sel
    rw [subchannelActivate_selected hsel]
    exact ⟨⟨hk, hc, hl, fun _ => ⟨ht, hst⟩, fun hn => absurd hn hs, fun hn => absurd hn hs⟩, id⟩
  | false => exact passing_subchannelActivate hc hk hsel hm1 ha1 hm failed

theorem Passing.start (hr : Rebuilt env p addrs p' none) (hne : addrs ≠ [])
    (hw : ∀ a ∈ addrs, Waiting (afterRebuild env p reported a)) {p'' : PickFirstPolicy A}
    (hok : p'.startConnectionPass = .ok p'') :
    Passing p'' (afterRebuild env p reported) addrs [] ∧ (p''.Failing → p.Failing) := by
  have hn : p'.subchannels ≠ [] := fun hn => hne (by rw [← hr.addresses, hn]; rfl)
  obtain ⟨ha, hs, hcs, hf⟩ := active_startConnectionPass (hr.known h.known) (h.cached.rebuilt hr)
    (fun _ ha => hr.current ha) (fun _ hm => hr.mem hm) (fun sc hm => hw _ (hr.mem hm)) hn hok
  obtain ⟨scs, ss, n, rfl⟩ := hr.rest
  exact ⟨ha.passing hs hcs, hf⟩

end

theorem rebuildSubchannels_ready {n : Option String}
    (h : { p with
        timer := none, steadyState := none, resolutionNote := n, effects := effects }.rebuildSubchannels env addrs =
      .ok (p', ready)) :
    ∃ p2, p.rebuildSubchannels env addrs = .ok (p2, ready) := by
  simp only [rebuildSubchannels, bind, Except.bind] at h
  split at h
  · cases h
  · rename_i r hr
    cases h
    have hr : addrs.foldlM (Rebuild.step env p) ⟨p.existingSubchannels, [], ∅, none, p.nextId⟩ = .ok r := hr
    exact ⟨_, by rw [rebuildSubchannels, hr]; rfl⟩

theorem Passing.setTransientFailure (h : Passing p reported latest failed)
    (hout : p.subchannels = [] ∨ p.connectivityState = .transientFailure) {e : Option String} {r : _ × String}
    (hok : p.setTransientFailure e = .ok r) : Passing r.1 reported latest failed ∧ r.1.subchannels = p.subchannels := by
  obtain ⟨err, heq⟩ := setTransientFailure_eq hok
  rw [heq]
  refine ⟨⟨h.known, h.cached, h.listed, h.selected, fun _ => ConnectivityState.noConfusion, fun hn _ => ?_⟩, rfl⟩
  rcases hout with hnl | htf
  · exact .inl hnl
  · exact (h.pass hn (by rw [htf]; simp)).imp_right fun hp => hp.congr rfl rfl rfl

omit [DecidableEq A] in
theorem not_failing (p : PickFirstPolicy A) : ¬ { p with effects := [] }.Failing := fun ⟨_, hm⟩ => by cases hm

theorem startsPass_resolverUpdate {u : ResolverUpdate A} {c : PickFirstConfig} {es : List (Endpoint A)}
    (hu : u.endpoints = .ok es) (hne : compileAddress env es c ≠ [])
    (hr : ({ p with effects := [] }.resolving u).rebuildSubchannels env (compileAddress env es c) = .ok (p', ready)) :
    p.startsPass (.resolverUpdate env u c) = ready.isNone := by
  obtain ⟨p2, hr'⟩ := rebuildSubchannels_ready (p := p) hr
  simp only [startsPass, hu, hr']
  cases ready with
  | none => simp [hne]
  | some sc => rfl

section
variable (h : Passing p reported latest failed)
include h

theorem passing_resolverUpdate {u : ResolverUpdate A} {config : PickFirstConfig} {res : Except String Unit}
    (hw : Tracked.WholePass ⟨⟨p, reported⟩, latest, failed⟩ (.resolverUpdate env u config))
    (hok : { p with effects := [] }.resolverUpdate env u config = .ok (p', res)) :
    let T : Tracked A := ⟨⟨p, reported⟩, latest, failed⟩
    let c := Call.resolverUpdate env u config
    Passing p' (T.session.reportedAfter c) (T.latestAfter c) (T.failedAfter c) ∧
      (¬ c.ResolutionFails → ¬ p'.Failing) := by
  intro T c
  have h0 : Passing ({ p with effects := [] }.resolving u) reported latest failed :=
    ⟨h.known, h.cached, h.listed, fun _ => ⟨rfl, rfl⟩, fun _ _ => rfl, fun hs hc =>
      (h.pass hs hc).imp_right fun hp => hp.congr rfl rfl rfl⟩
  -- Without addresses the list, the history and the reports stay as they are.
  have hsame (hls : c.newList = none) (hst : p.startsPass c = false)
      (hp : Passing p' reported latest failed) (hsb : ∀ sc ∈ p'.subchannels, sc ∈ p.subchannels) :
      Passing p' (T.session.reportedAfter c) (T.latestAfter c) (T.failedAfter c) ∧
        (¬ c.ResolutionFails → ¬ p'.Failing) := by
    have hl : T.latestAfter c = latest := by rw [Tracked.latestAfter, hls]; rfl
    have hf : T.failedAfter c = failed := if_neg (by simp [T, hst])
    rw [hl, hf]
    exact ⟨hp.report fun sc hm => if_pos ⟨sc, hsb sc hm, rfl⟩, fun hrs => absurd hls hrs⟩
  have hlt {es : List (Endpoint A)} (hu : u.endpoints = .ok es)
      (hne : compileAddress env es config ≠ []) :
      T.latestAfter c = compileAddress env es config := by
    have hls : c.newList = some (compileAddress env es config) := by simp [c, Call.newList, hu, hne]
    rw [Tracked.latestAfter, hls]
    rfl
  cases resolverUpdated hok with
  | @empty es r hu hempty hr =>
    have hn : Passing { { p with effects := [] }.resolving u with subchannels := [], selected := none } reported
        latest failed :=
      ⟨fun _ hm => (by cases hm), fun _ hm => (by cases hm), fun _ hm => (by cases hm), fun _ => ⟨rfl, rfl⟩,
        fun _ _ => rfl, fun _ _ => .inl rfl⟩
    obtain ⟨hp, hs⟩ := hn.setTransientFailure (.inl rfl) hr
    refine hsame (by simp [c, Call.newList, hu, hempty]) ?_ hp fun sc hm => ?_
    · simp only [c, startsPass, hu, hempty]
      split <;> rfl
    · rw [hs] at hm
      cases hm
  | @ready es p1 sc hu hne hr =>
    obtain ⟨hp, hf⟩ := h0.activate rfl rfl (rebuilt h0.known (nodup_compileAddress env es config) hr)
    have hfl : T.failedAfter c = failed := if_neg (by simp [T, c, startsPass_resolverUpdate hu hne hr])
    rw [hlt hu hne, hfl]
    exact ⟨hp, fun _ h => not_failing p (hf h)⟩
  | @pass es p1 p2 hu hne hr hpass =>
    have hrd : p.startsPass c = true := startsPass_resolverUpdate hu hne hr
    have hfl : T.failedAfter c = [] := if_pos hrd
    obtain ⟨hp, hf⟩ := h0.start (rebuilt h0.known (nodup_compileAddress env es config) hr) hne
      (fun a ha => (hw hrd a (hlt hu hne ▸ ha)).2) hpass
    rw [hfl, hlt hu hne]
    exact ⟨hp, fun _ h => not_failing p (hf h)⟩
  | @failed e r hu hout hr =>
    obtain ⟨hp, hs⟩ := h0.setTransientFailure hout hr
    exact hsame (by simp [c, Call.newList, hu]) (by simp [c, startsPass, hu]) hp fun sc hm => hs ▸ hm
  | ignored hu => exact hsame (by simp [c, Call.newList, hu]) (by simp [c, startsPass, hu]) h0 fun _ => id

theorem passing_exitIdle {call : Call A} (hcl : call = .work ∨ call = .exitIdle)
    (hwh : Tracked.WholePass ⟨⟨p, reported⟩, latest, failed⟩ call) (hi : p.connectivityState = .idle)
    (hok : p.exitIdle = .ok p') :
    Passing p' reported latest (Tracked.failedAfter ⟨⟨p, reported⟩, latest, failed⟩ call) ∧
      (p'.Failing → p.Failing) := by
  have hst : p.startsPass call = !p.subchannels.isEmpty := by
    rcases hcl with rfl | rfl <;> simp [startsPass, hi]
  have hfl : Tracked.failedAfter ⟨⟨p, reported⟩, latest, failed⟩ call =
      if !p.subchannels.isEmpty then [] else failed := by
    rw [← hst]
    rcases hcl with rfl | rfl <;> rfl
  have hwh : p.startsPass call = true → ∀ addr ∈ latest, p.isCurrentAddress addr ∧ Waiting (reported addr) := by
    rcases hcl with rfl | rfl
    · exact fun hs addr ha => (hwh hs addr ha).imp_left fun h => h rfl
    · exact fun hs addr ha => (hwh hs addr ha).imp_left fun h => h rfl
  rw [hfl]
  unfold exitIdle at hok
  split at hok
  · rename_i hne
    rw [if_pos (by simp [hne.2])]
    have hw := hwh (by simp [hst, hne.2])
    obtain ⟨ha, hs, hc, hf⟩ := active_startConnectionPass h.known h.cached (fun addr ha => (hw addr ha).1) h.listed
      (fun sc hm => (hw _ (h.listed sc hm)).2) (fun hn => hne.2 (by simp [hn])) hok
    exact ⟨ha.passing hs hc, hf⟩
  · rename_i hne
    cases hok
    have hempty : p.subchannels.isEmpty = true := by
      by_contra he
      exact hne ⟨hi, he⟩
    rw [hempty]
    exact ⟨h, id⟩

theorem passing_work (hw : Tracked.WholePass ⟨⟨p, reported⟩, latest, failed⟩ .work) (hok : p.work none = .ok p') :
    Passing p' reported latest (Tracked.failedAfter ⟨⟨p, reported⟩, latest, failed⟩ .work) ∧
      (p'.Failing → p.Failing) := by
  by_cases hi : p.connectivityState = .idle
  · rw [work, if_pos hi] at hok
    exact passing_exitIdle h (.inl rfl) hw hi hok
  have hfl : Tracked.failedAfter ⟨⟨p, reported⟩, latest, failed⟩ Call.work = failed := if_neg (by simp [startsPass, hi])
  rw [hfl]
  rw [work, if_neg hi] at hok
  split at hok
  · rename_i ht
    have hs : p.selected = none := by
      by_contra hs
      rw [(h.selected hs).1] at ht
      cases ht
    rcases h.pass hs hi with hn | hp
    · cases advanced hok with
      | connects hsc => rw [hn] at hsc; cases hsc
      | ends => exact ⟨⟨h.known, h.cached, h.listed, h.selected, h.idle, fun _ _ => .inl hn⟩, id⟩
    · obtain ⟨ha, hs', hc', hf⟩ := Active.advanced ⟨hp, h.known, h.cached⟩ (advanced hok)
      exact ⟨ha.passing (hs'.trans hs) (hc' ▸ hi), hf⟩
  · cases hok
    exact ⟨h, id⟩

end

end

namespace Tracked

theorem passing_init : Passing (A := A) init.session.policy init.session.reported init.latest init.failed := by
  refine ⟨fun _ hm => ?_, fun _ hm => ?_, fun _ hm => ?_, fun h => absurd rfl h, fun _ _ => rfl, fun _ _ => .inl rfl⟩
  all_goals cases hm

/-- What one call does: the invariant holds, and a failure is published when all have failed. -/
theorem passing_step {T T' : Tracked A} (h : Passing T.session.policy T.session.reported T.latest T.failed)
    {c : Call A} (hr : T.session.Respects c) (hw : T.WholePass c) (hok : T.step c = .ok T') :
    Passing T'.session.policy T'.session.reported T'.latest T'.failed ∧
      (¬ c.ResolutionFails → T'.session.policy.Failing → ∀ a ∈ T'.latest, a ∈ T'.failed) := by
  obtain ⟨⟨p, r⟩, l, failed⟩ := T
  have h0 : Passing { p with effects := [] } r l failed :=
    ⟨h.known, h.cached, h.listed, h.selected, h.idle, fun hs hc =>
      (h.pass hs hc).imp_right fun hp => hp.congr rfl rfl rfl⟩
  simp only [step, bind, Except.bind] at hok
  split at hok
  · cases hok
  rename_i S hS
  cases hok
  obtain ⟨p', hp', rfl⟩ := Session.step_cases hS
  have hno (hf : p'.Failing → { p with effects := [] }.Failing) (addrs : List (Address A)) :
      p'.Failing → ∀ a ∈ l, a ∈ addrs :=
    fun hp => absurd (hf hp) (not_failing p)
  cases c with
  | resolverUpdate env u cn =>
    obtain ⟨res, hr⟩ := call_resolverUpdate hp'
    obtain ⟨hp, hf⟩ := passing_resolverUpdate h hw hr
    exact ⟨hp, fun hrs hp' => absurd hp' (hf hrs)⟩
  | subchannelUpdate sc s =>
    obtain ⟨hp, hf⟩ := passing_subchannelUpdate h0 hr hw hp'
    exact ⟨hp, fun _ hp' => (hf hp').resolve_left (not_failing p)⟩
  | work =>
    obtain ⟨hp, hf⟩ := passing_work h0 hw hp'
    exact ⟨hp, fun _ => hno hf _⟩
  | exitIdle =>
    by_cases hi : p.connectivityState = .idle
    · obtain ⟨hp, hf⟩ := passing_exitIdle h0 (.inr rfl) hw hi hp'
      exact ⟨hp, fun _ => hno hf _⟩
    · have hfl : failedAfter ⟨⟨p, r⟩, l, failed⟩ Call.exitIdle = failed :=
        if_neg (by simp [startsPass, hi])
      rw [PickFirstPolicy.call, exitIdle, if_neg fun h => hi h.1] at hp'
      cases hp'
      rw [hfl]
      exact ⟨h0, fun _ => hno id _⟩
  | timerExpires =>
    cases hp'
    refine ⟨⟨h.known, h.cached, h.listed, fun hs => ?_, h.idle, fun hs hc => ?_⟩, fun _ => hno id _⟩
    · refine ⟨?_, (h.selected hs).2⟩
      show p.timer.map _ = none
      rw [(h.selected hs).1]
      rfl
    · exact (h.pass hs hc).imp_right fun hp => hp.congr rfl rfl rfl

theorem Reachable.passing {T : Tracked A} (h : T.Reachable fun T c => T.session.Respects c ∧ T.WholePass c) :
    Passing T.session.policy T.session.reported T.latest T.failed := by
  induction h with
  | init => exact passing_init
  | step c _ hc hok ih => exact (passing_step ih hc.1 hc.2 hok).1

end Tracked

/-- In runs whose passes go over the whole list, a published failure means that each address has failed in the pass. -/
theorem failure_published_after_whole_list {T T' : Tracked A}
    (h : T.Reachable fun T call => T.session.Respects call ∧ T.WholePass call) (call : Call A)
    (hr : T.session.Respects call) (hw : T.WholePass call) (hok : T.step call = .ok T')
    (hres : ¬ call.ResolutionFails) {picker : Picker A}
    (hp : .updatePicker .transientFailure picker ∈ T'.session.policy.effects) :
    ∀ a ∈ T'.latest, a ∈ T'.failed :=
  (Tracked.passing_step h.passing hr hw hok).2 hres ⟨picker, hp⟩

/-- Two addresses fail one after the other. -/
theorem failure_published_after_two : ∃ T T' : Tracked Unit,
    T.Reachable (fun T c => T.session.Respects c ∧ T.WholePass c) ∧
    T.step (.subchannelUpdate ⟨1, tcpAddress "b"⟩ (.transientFailure "refused")) = .ok T' ∧
    .updatePicker .transientFailure (.failing "refused") ∈ T'.session.policy.effects ∧
    T'.latest = [tcpAddress "a", tcpAddress "b"] ∧ ∀ addr ∈ T'.latest, addr ∈ T'.failed := by
  have h := Tracked.Reachable.step (C := fun T c => T.session.Respects c ∧ T.WholePass c)
    (resolved .idle ["a", "b"]) .init ⟨fun _ => .inl rfl, fun _ addr _ => ⟨fun h => (by cases h), .inl rfl⟩⟩ rfl
  -- In a pass nothing is asked of an update.
  have hpass {T : Tracked Unit} (hs : T.session.policy.selected = none)
    (hc : T.session.policy.connectivityState ≠ .idle)
      (sc : Subchannel Unit) (s : SubchannelState) : T.WholePass (.subchannelUpdate sc s) :=
    fun hout => absurd hout (not_or.2 ⟨fun h => h hs, hc⟩)
  have h := h.step (reports 0 "a" .connecting) ⟨fun _ => rfl, hpass rfl (by decide) _ _⟩ rfl
  have h := h.step (reports 0 "a" (.transientFailure "refused")) ⟨fun _ => .inr ⟨_, rfl⟩, hpass rfl (by decide) _ _⟩ rfl
  have h := h.step (reports 1 "b" .connecting) ⟨fun _ => rfl, hpass rfl (by decide) _ _⟩ rfl
  refine ⟨_, _, h, rfl, .head _, rfl, ?_⟩
  exact failure_published_after_whole_list h (.subchannelUpdate ⟨1, tcpAddress "b"⟩ (.transientFailure "refused"))
    (fun _ => .inr ⟨_, rfl⟩) (hpass rfl (by decide) _ _) rfl id (.head _)

/-- After a lost connection only the winner is tried; its failure is published though the other address never failed. -/
theorem pruned_pass_publishes_failure : ∃ T : Tracked Unit, T.Reachable (fun T c => T.session.Respects c) ∧
    .updatePicker .transientFailure (.failing "refused") ∈ T.session.policy.effects ∧
    T.latest = [tcpAddress "a", tcpAddress "b"] ∧ T.failed = [tcpAddress "a"] := by
  have h := Tracked.Reachable.step (C := fun T c => T.session.Respects c)
    (resolved .idle ["a", "b"]) .init (fun _ => .inl rfl) rfl
  have h := h.step (reports 0 "a" .connecting) (fun _ => rfl) rfl
  have h := h.step (reports 0 "a" .ready) (fun _ => .inl rfl) rfl
  have h := h.step (reports 0 "a" .idle) (fun _ => rfl) rfl
  have h := h.step .exitIdle trivial rfl
  have h := h.step (reports 0 "a" .connecting) (fun _ => rfl) rfl
  have h := h.step (reports 0 "a" (.transientFailure "refused")) (fun _ => .inr ⟨_, rfl⟩) rfl
  exact ⟨_, h, .head _, rfl, rfl⟩

end LoadBalancing
