import GrpcRust.Client.Channel
/-!
# The config selector of a channel

An RPC loads the selector and then picks with the state published last; the work task lets the policy process an
update before it stores its selector. Each load and store is a step.
-/

namespace Client

open Lib LoadBalancing List

inductive Selector where
  | placeholder
  | resolver (update : Nat)
deriving DecidableEq

/-- The derived `Debug`. -/
def StatusCodeError.debug : StatusCodeError → String
  | .cancelled => "Cancelled"
  | .unknown => "Unknown"
  | .invalidArgument => "InvalidArgument"
  | .deadlineExceeded => "DeadlineExceeded"
  | .notFound => "NotFound"
  | .alreadyExists => "AlreadyExists"
  | .permissionDenied => "PermissionDenied"
  | .resourceExhausted => "ResourceExhausted"
  | .failedPrecondition => "FailedPrecondition"
  | .aborted => "Aborted"
  | .outOfRange => "OutOfRange"
  | .unimplemented => "Unimplemented"
  | .internal => "Internal"
  | .unavailable => "Unavailable"
  | .dataLoss => "DataLoss"
  | .unauthenticated => "Unauthenticated"

/-- `Display for StatusError`. -/
def StatusError.fmt (status : StatusError) : String :=
  if status.message.isEmpty then status.code.debug else status.code.debug ++ ": " ++ status.message

/-- A code that the control plane may not produce (gRFC A54) becomes `INTERNAL`. -/
def sanitizeConfigSelectorStatus (status : StatusError) : StatusError :=
  if status.isRestrictedControlPlaneCode then
    ⟨.internal, "config selector returned illegal status: " ++ status.fmt⟩
  else status

inductive WorkPhase where
  | idle
  | updating
  | updated
  | stored

inductive CallPhase where
  | waiting
  | resolved
  | failed (selector : Selector) (status : StatusError)
  | configured (selector : Selector) (interceptor : Bool)
  | invoked (selector : Selector)

/-- A run of `LbInvoker::invoke` for an RPC that got its configuration from the selector. -/
structure Attempt where
  selector : Selector
  rpc : Rpc

/-- `used`, `picks`, `history` and `returned` are records for the statements. -/
structure ConfiguredChannel where
  work : WorkPhase
  updates : Nat
  current : Selector
  resolved : Bool
  lbWatcher : Snapshot
  calls : List CallPhase
  attempts : List Attempt
  used : List Selector
  picks : List (Selector × Nat)
  history : List Nat
  returned : List Nat

inductive ConfigEvent where
  | resolverUpdate
  | updatePicker (state : ConnectivityState) (picker : Nat → PickResult)
  | lbReturn
  | storeSelector
  | setResolved
  | start
  | wait (call : Nat)
  /-- `select_config` of the selector that is loaded: a status, or a config with or without an interceptor. -/
  | selectConfig (call : Nat) (result : Except StatusError Bool)
  | invoke (call : Nat)
  | pick (attempt : Nat) (choice : Nat)
  | next (attempt : Nat)

namespace ConfiguredChannel

def init : ConfiguredChannel where
  work := .idle
  updates := 0
  current := .placeholder
  resolved := false
  lbWatcher := ⟨0, .connecting, fun _ => .queue⟩
  calls := []
  attempts := []
  used := []
  picks := []
  history := []
  returned := []

def selected (selector : Selector) : Except StatusError Bool → CallPhase
  | .ok interceptor => .configured selector interceptor
  | .error status => .failed selector (sanitizeConfigSelectorStatus status)

def apply (c : ConfiguredChannel) : ConfigEvent → Option ConfiguredChannel
  | .resolverUpdate =>
    match c.work with
    | .idle => some { c with work := .updating, updates := c.updates + 1 }
    | _ => none
  | .updatePicker state picker =>
    match c.work with
    | .idle | .updating =>
      some { c with lbWatcher := ⟨c.lbWatcher.version + 1, state, fun choice => unwrap (picker choice)⟩ }
    | _ => none
  | .lbReturn =>
    match c.work with
    | .updating => some { c with work := .updated, returned := c.returned ++ [c.history.length] }
    | _ => none
  | .storeSelector =>
    match c.work with
    | .updated => some { c with work := .stored, current := .resolver c.updates }
    | _ => none
  | .setResolved =>
    match c.work with
    | .stored => some { c with work := .idle, resolved := true }
    | _ => none
  | .start => some { c with calls := c.calls ++ [.waiting] }
  | .wait i =>
    match c.calls[i]? with
    | some .waiting => if c.resolved then some { c with calls := c.calls.set i .resolved } else none
    | _ => none
  | .selectConfig i result =>
    match c.calls[i]? with
    | some .resolved =>
      some { c with calls := c.calls.set i (selected c.current result), used := c.used ++ [c.current] }
    | _ => none
  | .invoke i =>
    match c.calls[i]? with
    | some (.configured selector interceptor) =>
      some { c with
        calls := c.calls.set i (if interceptor then .configured selector interceptor else .invoked selector)
        attempts := c.attempts ++ [⟨selector, .picking c.lbWatcher⟩] }
    | _ => none
  | .pick i choice =>
    match c.attempts[i]? with
    | some ⟨selector, .picking snapshot⟩ =>
      some { c with
        attempts := c.attempts.set i ⟨selector, .pick snapshot (snapshot.picker choice)⟩
        picks := c.picks ++ [(selector, snapshot.version)] }
    | _ => none
  | .next i =>
    match c.attempts[i]? with
    | some ⟨selector, .queued snapshot⟩ =>
      if c.lbWatcher.version = snapshot.version then none
      else some { c with attempts := c.attempts.set i ⟨selector, .picking c.lbWatcher⟩ }
    | _ => none

def step (c : ConfiguredChannel) (event : ConfigEvent) : Option ConfiguredChannel :=
  (c.apply event).map fun c' => { c' with history := c'.history ++ [c'.lbWatcher.version] }

end ConfiguredChannel

def configuring : Transition ConfiguredChannel ConfigEvent := ⟨.init, ConfiguredChannel.step⟩

/-! ## Current versions -/

theorem Rpc.snapshot_of_pick {snapshot snapshot' : Snapshot} {r : PickResult}
    (h : Rpc.pick snapshot r = .picking snapshot' ∨ Rpc.pick snapshot r = .queued snapshot') :
    snapshot' = snapshot := by
  cases r with
  | pick sc => cases sc <;> rcases h with h | h <;> cases h
  | queue =>
    rcases h with h | h <;> cases h
    rfl
  | fail s => rcases h with h | h <;> cases h
  | drop s => rcases h with h | h <;> cases h

namespace ConfiguredChannel
variable {c c' : ConfiguredChannel} {e : ConfigEvent} {selector : Selector} {version i : Nat} {α : Type}
  {history : List Nat}

/-- The version was current at or after the step in which the LB policy returned from the update. -/
def CurrentSince (c : ConfiguredChannel) (update version : Nat) : Prop :=
  ∃ moment, c.returned[update - 1]? = some moment ∧ ∃ time, moment ≤ time ∧ c.history[time]? = some version

def Processed (c : ConfiguredChannel) (selector : Selector) : Prop :=
  ∃ update, selector = .resolver update ∧ 0 < update ∧ update ≤ c.returned.length

def Fresh (c : ConfiguredChannel) (selector : Selector) (version : Nat) : Prop :=
  ∃ update, selector = .resolver update ∧ 0 < update ∧ c.CurrentSince update version

theorem getElem?_of_prefix {l l' : List α} (h : l <+: l') {a : α} (hi : l[i]? = some a) :
    l'[i]? = some a := by
  obtain ⟨r, rfl⟩ := h
  rw [getElem?_append_left (List.getElem?_eq_some_iff.1 hi).1, hi]

structure Later (c c' : ConfiguredChannel) : Prop where
  returned : c.returned <+: c'.returned
  history : c.history <+: c'.history

theorem Processed.later (h : c.Processed selector) (hl : c.Later c') : c'.Processed selector := by
  obtain ⟨u, rfl, hp, hle⟩ := h
  exact ⟨u, rfl, hp, hle.trans hl.returned.length_le⟩

theorem Fresh.later (h : c.Fresh selector version) (hl : c.Later c') : c'.Fresh selector version := by
  obtain ⟨u, rfl, hp, m, hm, t, hle, ht⟩ := h
  exact ⟨u, rfl, hp, m, getElem?_of_prefix hl.returned hm, t, hle, getElem?_of_prefix hl.history ht⟩

theorem Fresh.processed (h : c.Fresh selector version) : c.Processed selector := by
  obtain ⟨u, rfl, hp, m, hm, _⟩ := h
  have hlt := (List.getElem?_eq_some_iff.1 hm).1
  exact ⟨u, rfl, hp, by omega⟩

def CallSound (c : ConfiguredChannel) : CallPhase → Prop
  | .waiting => True
  | .resolved => c.resolved = true
  | .failed selector _ | .configured selector _ | .invoked selector => c.Processed selector

/-- A selector is loaded only after the policy has processed its update; picks are not older than that. -/
structure Inv (c : ConfiguredChannel) : Prop where
  updating : c.work = .updating → c.returned.length + 1 = c.updates
  counted : c.work ≠ .updating → c.returned.length = c.updates
  started : c.work ≠ .idle → 0 < c.updates
  moments : ∀ moment ∈ c.returned, moment < c.history.length
  stored : c.work = .stored → c.Processed c.current
  resolved : c.resolved = true → c.Processed c.current
  calls : ∀ call ∈ c.calls, c.CallSound call
  used : ∀ selector ∈ c.used, c.Processed selector
  attempts : ∀ attempt ∈ c.attempts, ∀ snapshot, attempt.rpc = .picking snapshot ∨ attempt.rpc = .queued snapshot →
    c.Fresh attempt.selector snapshot.version
  picks : ∀ selector version, (selector, version) ∈ c.picks → c.Fresh selector version

theorem inv_init : init.Inv where
  updating h := by cases h
  counted _ := rfl
  started h := absurd rfl h
  moments _ h := absurd h not_mem_nil
  stored h := by cases h
  resolved h := absurd h Bool.false_ne_true
  calls _ h := absurd h not_mem_nil
  used _ h := absurd h not_mem_nil
  attempts _ h := absurd h not_mem_nil
  picks _ _ h := absurd h not_mem_nil

theorem CallSound.later {call : CallPhase} (h : c.CallSound call) (hl : c.Later c')
    (hr : c.resolved = true → c'.resolved = true) : c'.CallSound call := by
  cases call with
  | waiting => trivial
  | resolved => exact hr h
  | failed | configured | invoked => exact Processed.later h hl

theorem Processed.fresh (hm : ∀ m ∈ c.returned, m < c.history.length) (h : c.Processed selector)
    (hr : c'.returned = c.returned) (hh : c'.history = c.history ++ [version]) : c'.Fresh selector version := by
  obtain ⟨u, rfl, hp, hle⟩ := h
  have hlt : u - 1 < c.returned.length := by omega
  refine ⟨u, rfl, hp, c.returned[u - 1], ?_, c.history.length, ?_, ?_⟩
  · rw [hr, getElem?_eq_getElem hlt]
  · exact (hm _ (getElem_mem hlt)).le
  · rw [hh, getElem?_concat_length]

theorem mem_concat_or {l : List α} {b : α} {P : α → Prop} (hb : P b) : ∀ a ∈ l ++ [b], a ∈ l ∨ P a :=
  forall_mem_append.2 ⟨fun _ => Or.inl, forall_mem_singleton.2 (Or.inr hb)⟩

theorem mem_set_or {l : List α} {b : α} {P : α → Prop} (hb : P b) :
    ∀ a ∈ l.set i b, a ∈ l ∨ P a := by
  intro a h
  rcases mem_or_eq_of_mem_set h with h | rfl
  · exact Or.inl h
  · exact Or.inr hb

theorem Inv.rpcStep (h : c.Inv) {calls : List CallPhase} {attempts : List Attempt} {used : List Selector}
    {picks : List (Selector × Nat)} (hh : history = c.history ++ [c.lbWatcher.version])
    (hc : ∀ call ∈ calls, call ∈ c.calls ∨ c.CallSound call) (hu : ∀ s ∈ used, s ∈ c.used ∨ c.Processed s)
    (ha : ∀ a ∈ attempts, a ∈ c.attempts ∨ (a.rpc = .picking c.lbWatcher ∧ c.Processed a.selector) ∨
      ∀ sn, a.rpc = .picking sn ∨ a.rpc = .queued sn → c.Fresh a.selector sn.version)
    (hpc : ∀ s v, (s, v) ∈ picks → (s, v) ∈ c.picks ∨ c.Fresh s v) :
    Inv { c with calls, attempts, used, picks, history } := by
  have hl : c.Later { c with calls, attempts, used, picks, history } := ⟨prefix_rfl, hh ▸ prefix_append _ _⟩
  have hln : history.length = c.history.length + 1 := by rw [hh, length_append, length_singleton]
  refine ⟨h.updating, h.counted, h.started, ?_, fun hw => (h.stored hw).later hl,
    fun hr => (h.resolved hr).later hl, ?_, ?_, ?_, ?_⟩
  · intro m hm
    exact hln ▸ Nat.lt_succ_of_lt (h.moments m hm)
  · intro call hcl
    exact ((hc call hcl).elim (h.calls call) id).later hl id
  · intro s hsl
    exact ((hu s hsl).elim (h.used s) id).later hl
  · intro a hat sn hs
    rcases ha a hat with ho | ⟨hn, hp⟩ | hk
    · exact (h.attempts a ho sn hs).later hl
    · rw [hn] at hs
      rcases hs with hs | hs
      · cases hs
        exact hp.fresh h.moments rfl hh
      · cases hs
    · exact (hk sn hs).later hl
  · intro s v hpk
    exact ((hpc s v hpk).elim (h.picks s v) id).later hl

theorem Inv.workStep (h : c.Inv) {work : WorkPhase} {updates : Nat} {current : Selector} {resolved : Bool}
    {lbWatcher : Snapshot} {returned : List Nat} (hh : history = c.history ++ [lbWatcher.version])
    (hr : returned = c.returned ∨ returned = c.returned ++ [c.history.length])
    (hu : work = .updating → returned.length + 1 = updates)
    (hc : work ≠ .updating → returned.length = updates) (hst : work ≠ .idle → 0 < updates)
    (hsr : work = .stored → ∃ u, current = .resolver u ∧ 0 < u ∧ u ≤ returned.length)
    (hk : c.resolved = true → resolved = true)
    (hrs : resolved = true → ∃ u, current = .resolver u ∧ 0 < u ∧ u ≤ returned.length) :
    Inv { c with work, updates, current, resolved, lbWatcher, returned, history } := by
  have hl : c.Later { c with work, updates, current, resolved, lbWatcher, returned, history } := by
    refine ⟨?_, hh ▸ prefix_append _ _⟩
    rcases hr with rfl | rfl
    · exact prefix_rfl
    · exact prefix_append _ _
  have hln : history.length = c.history.length + 1 := by rw [hh, length_append, length_singleton]
  refine ⟨hu, hc, hst, ?_, hsr, hrs, fun call hcl => (h.calls call hcl).later hl hk, fun s hs => (h.used s hs).later hl,
    fun a ha sn hsn => (h.attempts a ha sn hsn).later hl,
    fun s v hp => (h.picks s v hp).later hl⟩
  intro m hm
  rw [hln]
  rcases hr with rfl | rfl
  · exact Nat.lt_succ_of_lt (h.moments m hm)
  · rcases List.mem_append.1 hm with hm | hm
    · exact Nat.lt_succ_of_lt (h.moments m hm)
    · rw [List.mem_singleton.1 hm]
      exact Nat.lt_succ_self _

theorem Inv.step (h : c.Inv) (hst : c.step e = some c') : c'.Inv := by
  obtain ⟨next, ha, rfl⟩ := Option.map_eq_some_iff.1 hst
  cases e with
  | resolverUpdate =>
    simp only [apply] at ha
    split at ha
    · rename_i hwr
      cases ha
      have hcn := h.counted (hwr ▸ WorkPhase.noConfusion)
      exact h.workStep rfl (Or.inl rfl) (fun _ => congrArg (· + 1) hcn) (fun hw => absurd rfl hw)
        (fun _ => Nat.succ_pos _) (fun hw => (by cases hw)) id h.resolved
    · cases ha
  | updatePicker st p =>
    simp only [apply] at ha
    split at ha
    · rename_i hwr
      cases ha
      exact h.workStep rfl (Or.inl rfl) h.updating h.counted h.started h.stored id h.resolved
    · rename_i hwr
      cases ha
      exact h.workStep rfl (Or.inl rfl) h.updating h.counted h.started h.stored id h.resolved
    · cases ha
  | lbReturn =>
    simp only [apply] at ha
    split at ha
    · rename_i hwr
      cases ha
      refine h.workStep rfl (Or.inr rfl) (fun hw => (by cases hw)) (fun _ => ?_) (fun _ => ?_)
        (fun hw => (by cases hw)) id
        fun hr => ?_
      · rw [length_append]
        exact h.updating hwr
      · exact h.started (hwr ▸ WorkPhase.noConfusion)
      · obtain ⟨u, hcr, hps, hle⟩ := h.resolved hr
        exact ⟨u, hcr, hps, hle.trans (prefix_append _ _).length_le⟩
    · cases ha
  | storeSelector =>
    simp only [apply] at ha
    split at ha
    · rename_i hwr
      cases ha
      have hcn := h.counted (hwr ▸ WorkPhase.noConfusion)
      have hps := h.started (hwr ▸ WorkPhase.noConfusion)
      exact h.workStep rfl (Or.inl rfl) (fun hw => (by cases hw)) (fun _ => hcn) (fun _ => hps)
        (fun _ => ⟨_, rfl, hps, hcn.ge⟩) id fun _ => ⟨_, rfl, hps, hcn.ge⟩
    · cases ha
  | setResolved =>
    simp only [apply] at ha
    split at ha
    · rename_i hwr
      cases ha
      have hcn := h.counted (hwr ▸ WorkPhase.noConfusion)
      exact h.workStep rfl (Or.inl rfl) (fun hw => (by cases hw)) (fun _ => hcn) (fun hw => absurd rfl hw)
        (fun hw => (by cases hw)) (fun _ => rfl) fun _ => h.stored hwr
    · cases ha
  | start =>
    cases ha
    exact h.rpcStep rfl (mem_concat_or trivial) (fun _ => Or.inl) (fun _ => Or.inl) fun _ _ => Or.inl
  | wait i =>
    simp only [apply] at ha
    split at ha
    · split_ifs at ha with hr
      cases ha
      exact h.rpcStep rfl (mem_set_or hr) (fun _ => Or.inl) (fun _ => Or.inl) fun _ _ => Or.inl
    · cases ha
  | selectConfig i r =>
    simp only [apply] at ha
    split at ha
    · rename_i hc
      cases ha
      have hp := h.resolved (h.calls _ (mem_of_getElem? hc))
      refine h.rpcStep rfl (mem_set_or ?_) (mem_concat_or hp) (fun _ => Or.inl) fun _ _ => Or.inl
      cases r <;> exact hp
    · cases ha
  | invoke i =>
    simp only [apply] at ha
    split at ha
    · rename_i selector ir hc
      cases ha
      have hp : c.Processed selector := h.calls _ (mem_of_getElem? hc)
      refine h.rpcStep rfl (mem_set_or ?_) (fun _ => Or.inl) (mem_concat_or (Or.inl ⟨rfl, hp⟩)) fun _ _ => Or.inl
      cases ir <;> exact hp
    · cases ha
  | pick i ch =>
    simp only [apply] at ha
    split at ha
    · rename_i selector s hat
      cases ha
      have hf := h.attempts _ (mem_of_getElem? hat) s (Or.inl rfl)
      refine h.rpcStep rfl (fun _ => Or.inl) (fun _ => Or.inl) (mem_set_or (Or.inr fun s' hsn => ?_))
        fun _ _ hpc => mem_concat_or (P := fun pick => c.Fresh pick.1 pick.2) hf _ hpc
      -- A pick that is queued keeps its snapshot.
      rw [Rpc.snapshot_of_pick hsn]
      exact hf
    · cases ha
  | next i =>
    simp only [apply] at ha
    split at ha
    · rename_i selector s hat
      split_ifs at ha
      cases ha
      have hp := (h.attempts _ (mem_of_getElem? hat) s (Or.inr rfl)).processed
      exact h.rpcStep rfl (fun _ => Or.inl) (fun _ => Or.inl) (mem_set_or (Or.inl ⟨rfl, hp⟩)) fun _ _ => Or.inl
    · cases ha

end ConfiguredChannel

/-- No RPC uses the placeholder, and one with the selector of an update picks with no state older than that update. -/
theorem selector_after_lb_policy {c : ConfiguredChannel} (h : configuring.Reached c) :
    (∀ s ∈ c.used, s ≠ .placeholder) ∧
      ∀ s version, (s, version) ∈ c.picks → ∃ u, s = .resolver u ∧ 0 < u ∧ c.CurrentSince u version := by
  have hi : c.Inv := Transition.Reachable.inv ConfiguredChannel.inv_init (fun _ _ _ hi _ hst => hi.step hst) h
  refine ⟨fun s hs => ?_, hi.picks⟩
  obtain ⟨u, rfl, _⟩ := hi.used s hs
  exact Selector.noConfusion

/-- Two updates and an RPC between their stores, which is queued with the picker of the first. -/
def twoUpdates : List ConfigEvent :=
  [.start, .resolverUpdate, .updatePicker .connecting (fun _ => .queue), .lbReturn, .storeSelector, .setResolved,
    .wait 0,
    .resolverUpdate, .selectConfig 0 (.ok false), .invoke 0, .pick 0 0,
    .updatePicker .ready (fun _ => .pick (.shared 3)), .next 0, .pick 0 0, .lbReturn, .storeSelector]

theorem selector_after_lb_policy_queued :
    ∃ c, configuring.run twoUpdates = some c ∧ c.picks = [(.resolver 1, 1), (.resolver 1, 2)] ∧
      c.current = .resolver 2 ∧ ∀ s ∈ c.used, s ≠ .placeholder :=
  ⟨_, rfl, rfl, rfl, (selector_after_lb_policy (Transition.reached_of_run
    (show configuring.run twoUpdates = some _ from rfl))).1⟩

end Client
