import GrpcRust.Client.Subchannel
import GrpcRust.Grpc.Metadata
/-!
# RPCs on a channel

`LbInvoker` of `client/channel.rs`, with `dyn_invoke` of `client/subchannel.rs`. What a policy publishes is arbitrary,
up to the picker of `subchannel_sharing.rs`. Two `todo!`s and a `panic!` are results of type `ChannelPanic`.
-/

namespace Client

open Lib LoadBalancing

inductive StatusCodeError where
  | cancelled
  | unknown
  | invalidArgument
  | deadlineExceeded
  | notFound
  | alreadyExists
  | permissionDenied
  | resourceExhausted
  | failedPrecondition
  | aborted
  | outOfRange
  | unimplemented
  | internal
  | unavailable
  | dataLoss
  | unauthenticated
deriving DecidableEq

structure StatusError where
  code : StatusCodeError
  message : String
deriving DecidableEq

def StatusError.isRestrictedControlPlaneCode (status : StatusError) : Bool :=
  match status.code with
  | .invalidArgument | .notFound | .alreadyExists | .failedPrecondition | .aborted | .outOfRange | .dataLoss => true
  | _ => false

inductive SecurityLevel where
  | noSecurity
  | integrityOnly
  | privacyAndIntegrity
deriving DecidableEq

def SecurityLevel.rank : SecurityLevel → Nat
  | .noSecurity => 0
  | .integrityOnly => 1
  | .privacyAndIntegrity => 2

structure ConnectionInfo where
  securityLevel : SecurityLevel
deriving DecidableEq

/-- `Trailers` of `client/mod.rs`. -/
structure Trailers where
  status : Except StatusError Unit
  metadata : Grpc.MetadataMap
  connectionInfo : Option ConnectionInfo

def Trailers.new (status : Except StatusError Unit) : Trailers := ⟨status, ⟨[]⟩, none⟩

/-- What `recv` of a client's stream returns; a message comes with what was decoded. -/
inductive ResponseStreamItem (M : Type) where
  | headers (connectionInfo : ConnectionInfo) (metadata : Grpc.MetadataMap)
  | message (msg : M)
  | trailers (trailers : Trailers)
  | streamClosed

structure ReadyState where
  service : Nat
  connectionInfo : ConnectionInfo

/-! ## Pickers -/

/-- `dyn Subchannel`, by its type. The delegate of a shared one is one of the channel's. -/
inductive DynSubchannel where
  | internal (id : Nat)
  | shared (delegate : Nat)
  | other
deriving DecidableEq

inductive PickResult where
  | pick (subchannel : DynSubchannel)
  | queue
  | fail (status : StatusError)
  | drop (status : StatusError)
deriving DecidableEq

def unwrap : PickResult → PickResult
  | .pick (.shared delegate) => .pick (.internal delegate)
  | .pick _ => .fail ⟨.internal, "received unexpected subchannel type: "⟩
  | result => result

/-- A value of the watcher, compared by allocation. The number stands for what a picker may return each time. -/
structure Snapshot where
  version : Nat
  connectivityState : ConnectivityState
  picker : Nat → PickResult

/-! ## RPCs -/

inductive ChannelPanic where
  /-- "picked subchannel is not an implementation provided by the channel" -/
  | notProvided
  /-- "handle non-READY subchannel" -/
  | nonReady
  /-- "dropped pick" -/
  | droppedPick (status : StatusError)
deriving DecidableEq

inductive Rpc where
  | picking (snapshot : Snapshot)
  | queued (snapshot : Snapshot)
  | picked (id : Nat)
  | started (service : Nat)
  | failed (status : StatusError) (connectionInfo : Option ConnectionInfo)
  | panicked (panic : ChannelPanic)

def Rpc.pick (snapshot : Snapshot) : PickResult → Rpc
  | .pick (.internal id) => .picked id
  | .pick _ => .panicked .notProvided
  | .queue => .queued snapshot
  | .fail status => .failed status none
  | .drop status => .panicked (.droppedPick status)

variable (s : InternalSubchannel ReadyState) (snapshot : Snapshot) (rpc : Rpc)

/-- The call credentials have a minimum level, and `metadata` is what they give for the call. -/
def InternalSubchannel.dynInvoke (callCreds : Option SecurityLevel) (metadata : Except StatusError Unit) : Rpc :=
  match s.state with
  | .ready state =>
    match callCreds with
    | none => .started state.service
    | some minimum =>
      if state.connectionInfo.securityLevel.rank < minimum.rank then
        .failed ⟨.unauthenticated, "transport: cannot send secure credentials on an insecure connection"⟩
          (some state.connectionInfo)
      else
        match metadata with
        | .ok () => .started state.service
        | .error status =>
          .failed
            (if status.isRestrictedControlPlaneCode then
              ⟨.internal, "transport: received call credentials error with illegal status: " ++ status.message⟩
            else status)
            (some state.connectionInfo)
  | _ => .panicked .nonReady

/-! ## The channel -/

/-- The subchannels, the state published last, and the RPCs that use them. -/
structure Channel where
  callCreds : Option SecurityLevel
  subchannels : Nat → InternalSubchannel ReadyState
  lbWatcher : Snapshot
  rpcs : List Rpc

inductive ChannelEvent where
  | subchannel (id : Nat) (event : Event ReadyState)
  | updatePicker (state : ConnectivityState) (picker : Nat → PickResult)
  | invoke
  | pick (rpc : Nat) (choice : Nat)
  | next (rpc : Nat)
  | dynInvoke (rpc : Nat) (metadata : Except StatusError Unit)

namespace Channel

def new (callCreds : Option SecurityLevel) : Channel :=
  ⟨callCreds, fun _ => .new, ⟨0, .connecting, fun _ => .queue⟩, []⟩

def step (c : Channel) : ChannelEvent → Option Channel
  | .subchannel id event =>
    ((c.subchannels id).step event).map fun s => { c with subchannels := Function.update c.subchannels id s }
  | .updatePicker state picker =>
    some { c with lbWatcher := ⟨c.lbWatcher.version + 1, state, fun choice => unwrap (picker choice)⟩ }
  | .invoke => some { c with rpcs := c.rpcs ++ [.picking c.lbWatcher] }
  | .pick i choice =>
    match c.rpcs[i]? with
    | some (.picking snapshot) => some { c with rpcs := c.rpcs.set i (.pick snapshot (snapshot.picker choice)) }
    | _ => none
  | .next i =>
    match c.rpcs[i]? with
    | some (.queued snapshot) =>
      if c.lbWatcher.version = snapshot.version then none
      else some { c with rpcs := c.rpcs.set i (.picking c.lbWatcher) }
    | _ => none
  | .dynInvoke i metadata =>
    match c.rpcs[i]? with
    | some (.picked id) => some { c with rpcs := c.rpcs.set i ((c.subchannels id).dynInvoke c.callCreds metadata) }
    | _ => none

def machine (callCreds : Option SecurityLevel) : Transition Channel ChannelEvent := ⟨new callCreds, step⟩

end Channel

/-! ## What an RPC rests on -/

def InternalSubchannel.IsReady : Prop := ∃ svc, s.state = .ready svc

def Snapshot.Unwrapped : Prop := ∀ choice sc, snapshot.picker choice = .pick sc → ∃ id, sc = .internal id

theorem unwrap_internal {r : PickResult} {sc : DynSubchannel} (h : unwrap r = .pick sc) : ∃ id, sc = .internal id := by
  cases r with
  | pick sc' =>
    cases sc' with
    | shared d =>
      cases h
      exact ⟨d, rfl⟩
    | internal id => cases h
    | other => cases h
  | queue => cases h
  | fail s => cases h
  | drop s => cases h

def Rpc.Sound (subchannels : Nat → InternalSubchannel ReadyState) : Rpc → Prop
  | .picking snapshot => snapshot.Unwrapped
  | .picked id => (subchannels id).IsReady
  | .panicked _ => False
  | _ => True

def Rpc.PickedOn : Prop := (∃ id, rpc = .picked id) ∨ rpc = .queued snapshot ∨ ∃ status, rpc = .failed status none

def Rpc.Done : Prop := (∃ service, rpc = .started service) ∨ ∃ status info, rpc = .failed status info

theorem InternalSubchannel.done_dynInvoke {s : InternalSubchannel ReadyState} (h : s.IsReady)
    (cs : Option SecurityLevel) (m : Except StatusError Unit) : (s.dynInvoke cs m).Done := by
  obtain ⟨svc, hs⟩ := h
  unfold dynInvoke
  rw [hs]
  cases cs with
  | none => exact .inl ⟨_, rfl⟩
  | some mn =>
    dsimp only
    split
    · exact .inr ⟨_, _, rfl⟩
    · cases m with
      | ok u => exact .inl ⟨_, rfl⟩
      | error st => exact .inr ⟨_, _, rfl⟩

theorem Rpc.Done.sound {rpc : Rpc} (h : rpc.Done) (subchannels : Nat → InternalSubchannel ReadyState) :
    rpc.Sound subchannels := by
  rcases h with ⟨s, rfl⟩ | ⟨st, info, rfl⟩ <;> trivial

namespace Channel
variable {c c' : Channel}

/-- An RPC picks with a picker that is not stale and does not drop it, and its subchannel stays `READY`. -/
def Allowed (c : Channel) : ChannelEvent → Prop
  | .pick i choice => ∀ snapshot, c.rpcs[i]? = some (.picking snapshot) →
    (∀ status, snapshot.picker choice ≠ .drop status) ∧
      ∀ id, snapshot.picker choice = .pick (.internal id) → (c.subchannels id).IsReady
  | .subchannel id event => ∀ s, (c.subchannels id).step event = some s → .picked id ∈ c.rpcs →
    (c.subchannels id).IsReady → s.IsReady
  | _ => True

/-- No RPC panics, and a subchannel that was picked is ready. -/
structure Sound (c : Channel) : Prop where
  lbWatcher : c.lbWatcher.Unwrapped
  rpcs : ∀ rpc ∈ c.rpcs, rpc.Sound c.subchannels

theorem sound_new (cs : Option SecurityLevel) : (new cs).Sound := ⟨(fun _ _ h => by cases h), nofun⟩

theorem pickedOn (h : c.Sound) {i ch : Nat} {s : Snapshot} (hr : c.rpcs[i]? = some (.picking s))
    (hc : c.Allowed (.pick i ch)) :
    (Rpc.pick s (s.picker ch)).PickedOn s ∧ (Rpc.pick s (s.picker ch)).Sound c.subchannels := by
  obtain ⟨hd, hrd⟩ := hc s hr
  have hun : s.Unwrapped := h.rpcs _ (List.mem_of_getElem? hr)
  cases hp : s.picker ch with
  | pick sc =>
    obtain ⟨id, rfl⟩ := hun ch sc hp
    exact ⟨.inl ⟨id, rfl⟩, hrd id hp⟩
  | queue => exact ⟨.inr (.inl rfl), trivial⟩
  | fail st => exact ⟨.inr (.inr ⟨st, rfl⟩), trivial⟩
  | drop st => exact absurd hp (hd st)

theorem Sound.set (h : c.Sound) {rpc : Rpc} (hr : rpc.Sound c.subchannels) (i : Nat) :
    Sound { c with rpcs := c.rpcs.set i rpc } := by
  refine ⟨h.lbWatcher, fun rpc' hm => ?_⟩
  rcases List.mem_or_eq_of_mem_set hm with hm | rfl
  · exact h.rpcs rpc' hm
  · exact hr

theorem sound_step (h : c.Sound) {event : ChannelEvent} (hc : c.Allowed event) (hs : c.step event = some c') :
    c'.Sound := by
  cases event with
  | subchannel id event =>
    obtain ⟨s, hst, rfl⟩ := Option.map_eq_some_iff.1 hs
    refine ⟨h.lbWatcher, fun rpc hm => ?_⟩
    have hr := h.rpcs rpc hm
    cases rpc with
    | picked id' =>
      show (Function.update c.subchannels id s id').IsReady
      by_cases heq : id' = id
      · subst heq
        rw [Function.update_self]
        exact hc s hst hm hr
      · rw [Function.update_of_ne heq]
        exact hr
    | _ => exact hr
  | updatePicker state picker =>
    cases hs
    exact ⟨fun _ _ h => unwrap_internal h, h.rpcs⟩
  | invoke =>
    cases hs
    refine ⟨h.lbWatcher, fun rpc hm => ?_⟩
    rcases List.mem_append.1 hm with hm | hm
    · exact h.rpcs rpc hm
    · cases List.mem_singleton.1 hm
      exact h.lbWatcher
  | pick i choice =>
    simp only [step] at hs
    split at hs <;> cases hs
    rename_i snapshot hrp
    exact h.set (pickedOn h hrp hc).2 i
  | next i =>
    simp only [step] at hs
    split at hs
    · split at hs <;> cases hs
      have hp : (Rpc.picking c.lbWatcher).Sound c.subchannels := h.lbWatcher
      exact h.set hp i
    · cases hs
  | dynInvoke i metadata =>
    simp only [step] at hs
    split at hs <;> cases hs
    rename_i id hrp
    have hrd : (c.subchannels id).IsReady := h.rpcs _ (List.mem_of_getElem? hrp)
    exact h.set ((InternalSubchannel.done_dynInvoke hrd _ _).sound _) i

/-- In runs that meet the condition no RPC panics: it waits for a picker, starts a call or fails its stream. -/
theorem rpc_never_panics {callCreds : Option SecurityLevel} (h : (machine callCreds).Reachable Allowed c) :
    (∀ p, Rpc.panicked p ∉ c.rpcs) ∧
    (∀ i ch s, c.rpcs[i]? = some (.picking s) → c.Allowed (.pick i ch) →
      ∃ rpc, c.step (.pick i ch) = some { c with rpcs := c.rpcs.set i rpc } ∧ rpc.PickedOn s) ∧
    ∀ i id m, c.rpcs[i]? = some (.picked id) →
      ∃ rpc, c.step (.dynInvoke i m) = some { c with rpcs := c.rpcs.set i rpc } ∧ rpc.Done := by
  have hsn : c.Sound := h.inv (sound_new callCreds) fun _ _ _ h hc hs => sound_step h hc hs
  refine ⟨fun p hm => hsn.rpcs _ hm, fun i ch s hr hc => ?_, fun i id m hr => ?_⟩
  · exact ⟨_, by simp only [step, hr], (pickedOn hsn hr hc).1⟩
  · have hrd : (c.subchannels id).IsReady := hsn.rpcs _ (List.mem_of_getElem? hr)
    exact ⟨(c.subchannels id).dynInvoke c.callCreds m, by simp only [step, hr],
      InternalSubchannel.done_dynInvoke hrd _ _⟩

def connects (id : Nat) : List ChannelEvent :=
  [.subchannel id .connect, .subchannel id .poll, .subchannel id (.connected ⟨7, ⟨.noSecurity⟩⟩),
    .subchannel id .report, .subchannel id .register]

/-- An RPC picks the only subchannel and its call is started. -/
theorem rpc_never_panics_started : ∃ c : Channel, (machine none).Reachable Allowed c ∧ c.rpcs = [.started 7] ∧
    ∀ p, Rpc.panicked p ∉ c.rpcs := by
  have hi {c : Channel} (hn : c.rpcs = []) (id : Nat) (e : Event ReadyState) :
      c.Allowed (.subchannel id e) := fun _ _ hm => by
    rw [hn] at hm
    cases hm
  have h : (machine none).Reachable Allowed (new none) := .init
  have h := h.step (ChannelEvent.subchannel 0 .connect) (hi rfl 0 _) rfl
  have h := h.step (ChannelEvent.subchannel 0 .poll) (hi rfl 0 _) rfl
  have h := h.step (ChannelEvent.subchannel 0 (.connected ⟨7, ⟨.noSecurity⟩⟩)) (hi rfl 0 _) rfl
  have h := h.step (ChannelEvent.subchannel 0 .report) (hi rfl 0 _) rfl
  have h := h.step (ChannelEvent.updatePicker .ready fun _ => .pick (.shared 0)) trivial rfl
  have h := h.step ChannelEvent.invoke trivial rfl
  have h := h.step (ChannelEvent.pick 0 0)
    (fun s hs => by cases hs; exact ⟨nofun, fun id hp => by cases hp; exact ⟨_, rfl⟩⟩) rfl
  have h := h.step (ChannelEvent.dynInvoke 0 (.ok ())) trivial rfl
  exact ⟨_, h, rfl, (rpc_never_panics h).1⟩

/-- The picker is stale when the RPC picks or becomes so before the call; a picker drops the RPC. -/
theorem rpc_panics : ∃ c₁ c₂ c₃ : Channel,
    (machine none).run (connects 0 ++ [.updatePicker .ready fun _ => .pick (.shared 0), .invoke,
      .subchannel 0 .closed, .subchannel 0 .report, .pick 0 0, .dynInvoke 0 (.ok ())]) = some c₁ ∧
    c₁.rpcs = [.panicked .nonReady] ∧
    (machine none).run (connects 0 ++ [.updatePicker .ready fun _ => .pick (.shared 0), .invoke, .pick 0 0,
      .subchannel 0 .closed, .subchannel 0 .report, .dynInvoke 0 (.ok ())]) = some c₂ ∧
    c₂.rpcs = [.panicked .nonReady] ∧
    (machine none).run [.updatePicker .ready fun _ => .drop ⟨.unavailable, "no route"⟩, .invoke, .pick 0 0] = some c₃ ∧
    c₃.rpcs = [.panicked (.droppedPick ⟨.unavailable, "no route"⟩)] :=
  ⟨_, _, _, rfl, rfl, rfl, rfl, rfl, rfl⟩

end Channel

end Client
