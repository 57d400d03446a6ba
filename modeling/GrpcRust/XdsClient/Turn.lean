import GrpcRust.XdsClient.Methods
/-!
# What one turn of the worker can do

`Change` lists the ways a command changes the view; the rest of a turn writes requests, starts timers and
retires the stream (`Turn`). Every invariant is a case analysis of these two.
-/

namespace XdsClient

open Lib AdsWorker StreamContext

variable {B V : Type} {a : Actor B V} {s : SessionId} {cfg : Config B} {bs : B} {r : DiscoveryResponse B}

def WorkerCommand.readySession? : WorkerCommand B V → Option SessionId
  | .transport (.ready session) => some session
  | _ => none

namespace Actor

def types (a : Actor B V) : String → Option (TypeState B V) := a.worker.view.types

def timers (a : Actor B V) : Set (String × String) := a.worker.view.timers

def start (a : Actor B V) : View B V := { a.worker.view with events := [], requests := [] }

def received (cfg : Config B) (a : Actor B V) (bytes : B) : Option (SessionId × DiscoveryResponse B) :=
  match a.context.active, cfg.codec.decodeResponse bytes with
  | some session, .ok response => some (session, response)
  | _, _ => none

def sender (a : Actor B V) : WorkerCommand B V → Option SessionId
  | .transport (.ready session) => some session
  | .transport .failed => none
  | _ => a.context.active

def Quiet (cfg : Config B) (a : Actor B V) : WorkerCommand B V → Prop
  | .watcher (.watch ..) => False
  | .watcher (.unwatch id) => ∀ T ts, a.types T = some ts → ts.watchers.lookup id = none
  | .watcher (.resourceTimerExpired T n timerId) => a.worker.resourceTimers.lookup (T, n) ≠ some timerId
  | .transport (.ready _) => False
  | .transport (.response bytes _) => ∀ session response, a.received cfg bytes = some (session, response) →
      a.types response.typeUrl = none
  | .transport .failed => False
  | .transportStopped => True
  | .snapshot => True

end Actor

theorem typeStateFor_cases (a : Actor B V) (T : String) (d : DecoderFn B V) (required : Bool) :
    a.types T = some (a.worker.typeStateFor T d required) ∨
      a.types T = none ∧ a.worker.typeStateFor T d required = .new T d required := by
  rw [typeStateFor, Actor.types, view_types]
  cases h : a.worker.typeStates.lookup T with
  | some ts => exact .inl rfl
  | none => exact .inr ⟨rfl, rfl⟩

inductive Change (cfg : Config B) (env : Env) (a : Actor B V) : WorkerCommand B V → View B V → Prop
  | keep {cmd} (hq : a.Quiet cfg cmd) : Change cfg env a cmd a.start
  | watch (T name : String) (id : WatcherId) (decoder : DecoderFn B V) (required : Bool) :
      Change cfg env a (.watcher (.watch T name id decoder required))
        { a.start.setType T (registerWatcher (a.worker.typeStateFor T decoder required) name id).1 with
          events := replay (a.worker.typeStateFor T decoder required) name id }
  | unwatch {T id} {ts : TypeState B V} (hts : a.types T = some ts) (hid : (ts.watchers.lookup id).isSome)
      (hne : ∃ i, (ts.watchers.erase id).lookup i ≠ none) :
      Change cfg env a (.watcher (.unwatch id)) (a.start.setType T (dropWatcher ts id))
  | unwatchLast {T id} {ts : TypeState B V} (hts : a.types T = some ts) (hid : (ts.watchers.lookup id).isSome)
      (hlast : ∀ i, (ts.watchers.erase id).lookup i = none) :
      Change cfg env a (.watcher (.unwatch id))
        { a.start with types := Function.update a.types T none, timers := { k | k ∈ a.timers ∧ k.1 ≠ T } }
  | expire {T n timerId} {ts : TypeState B V} (hid : a.worker.resourceTimers.lookup (T, n) = some timerId)
      (hts : a.types T = some ts) (hp : ∀ c, ts.cache.lookup n = some c → c.state = .requested) :
      Change cfg env a (.watcher (.resourceTimerExpired T n timerId))
        (a.start.update env.order T ts .detached [.expire n])
  | lapse {T n timerId} (hid : a.worker.resourceTimers.lookup (T, n) = some timerId)
      (hp : ∀ ts, a.types T = some ts → ∃ c, ts.cache.lookup n = some c ∧ c.state ≠ .requested) :
      Change cfg env a (.watcher (.resourceTimerExpired T n timerId))
        { a.start with timers := { k | k ∈ a.timers ∧ k ≠ (T, n) } }
  | ready (session : SessionId) : Change cfg env a (.transport (.ready session))
        { a.start with types := fun T => (a.types T).map fun ts => { ts with nonce := "" } }
  | response {bytes done session response} {ts : TypeState B V} (hr : a.received cfg bytes = some (session, response))
      (hts : a.types response.typeUrl = some ts) :
      Change cfg env a (.transport (.response bytes done))
        (((a.start.update env.order response.typeUrl ts done (responseUpdates env ts response)).setType
          response.typeUrl (afterResponse env ts response)).ask session (reply cfg env ts response))
  | failed : Change cfg env a (.transport .failed) { a.start with timers := ∅ }

theorem Actor.active_of_sender {cmd : WorkerCommand B V} (h : a.sender cmd = some s)
    (hr : ∀ s, cmd ≠ .transport (.ready s)) : a.context.active = some s := by
  match cmd, hr with
  | .transport (.ready s'), hr => exact absurd rfl (hr s')
  | .transport .failed, _ => cases h
  | .watcher _, _ | .transport (.response ..), _ | .transportStopped, _ | .snapshot, _ => exact h

theorem active_of_received (h : a.received cfg bs = some (s, r)) : a.context.active = some s := by
  rw [Actor.received] at h
  split at h
  · obtain ⟨rfl, -⟩ : _ = s ∧ _ = r := by simpa using h
    assumption
  · cases h

theorem decode_of_received (h : a.received cfg bs = some (s, r)) : cfg.codec.decodeResponse bs = .ok r := by
  rw [Actor.received] at h
  split at h
  · obtain ⟨-, rfl⟩ : _ = s ∧ _ = r := by simpa using h
    assumption
  · cases h

theorem received_of_active (hs : a.context.active = some s) (hd : cfg.codec.decodeResponse bs = .ok r) :
    a.received cfg bs = some (s, r) := by
  rw [Actor.received, hs, hd]

theorem types_response (a : Actor B V) (o : IterOrder) (T : String) (ts ts' : TypeState B V) (done : ProcessingDone)
    (us : List (CacheUpdate B V)) (s : SessionId) (r : DiscoveryRequest) :
    (((a.start.update o T ts done us).setType T ts').ask s r).types = Function.update a.types T (some ts') :=
  Function.update_idem _ _ _

structure Turn (cfg : Config B) (env : Env) (a : Actor B V) (cmd : WorkerCommand B V) (v : View B V)
    (a' : Actor B V) : Prop where
  types : a'.types = v.types
  events : a'.worker.view.events = v.events
  requests : ∀ q ∈ a'.worker.view.requests, q ∈ v.requests ∨
    ∃ s T ts, a.sender cmd = some s ∧ v.types T = some ts ∧ q = (s, plainRequest cfg env T ts)
  reply : ∀ bytes done, cmd = .transport (.response bytes done) → a'.worker.view.requests = v.requests
  new_timers : ∀ k ∈ a'.timers, k ∈ v.timers ∨ ∃ ts, v.types k.1 = some ts ∧ ts.Pending k.2
  active : ∀ s, a'.context.active = some s → a.sender cmd = some s ∧ v.timers ⊆ a'.timers
  ready_timers : ∀ s, cmd = .transport (.ready s) → a'.context.active.isSome → ∀ T, TimersRun cfg a'.worker.view T
  watch_timers : ∀ T name id decoder required, cmd = .watcher (.watch T name id decoder required) →
    a'.context.active.isSome → TimersRun cfg a'.worker.view T

namespace Actor

/-! ## Ending a turn -/

theorem settle_ok (a : Actor B V) : a.settle (.ok ()) = a := rfl

theorem settle_cases (a : Actor B V) (r : Except Error Unit) :
    (a.settle r = a ∧ (r = .ok () ∨ a.context.active = none)) ∨
    ((a.settle r).worker.view = { a.worker.view with timers := ∅ } ∧ (a.settle r).context.active = none) := by
  cases r with
  | ok _ => exact .inl ⟨rfl, .inl rfl⟩
  | error e =>
    cases hs : a.context.session with
    | none => exact .inl ⟨by simp [settle, hs], .inr (by simp [active, hs])⟩
    | some ac =>
      refine .inr ⟨?_, by simp [settle, hs, active]⟩
      simp [settle, hs, view]

@[simp] theorem view_spawnTransport (a : Actor B V) : a.spawnTransport.worker.view = a.worker.view := by
  rw [spawnTransport]
  split
  · rfl
  · have he : XdsClient.events [(.spawnTransport : Effect B V)] = [] := rfl
    have hr : XdsClient.requests [(.spawnTransport : Effect B V)] = [] := rfl
    simp [view_emit, he, hr]

@[simp] theorem context_spawnTransport (a : Actor B V) : a.spawnTransport.context = a.context := by
  rw [spawnTransport]
  split <;> rfl

theorem turn_of_sends {cfg : Config B} {env : Env} {a a₁ : Actor B V} {cmd : WorkerCommand B V} {v : View B V}
    {r : Except Error Unit} (hs : a₁.worker.view = v ∨ ∃ s, a.sender cmd = some s ∧ Sends cfg env s v a₁.worker.view)
    (hrp : ∀ bytes done, cmd = .transport (.response bytes done) → a₁.worker.view.requests = v.requests)
    (ha : a₁.context.active = a.sender cmd)
    (hrd : ∀ s, cmd = .transport (.ready s) → r = .ok () → ∀ T, TimersRun cfg a₁.worker.view T)
    (hw : ∀ T name id decoder required, cmd = .watcher (.watch T name id decoder required) → a.context.active.isSome →
      r = .ok () → TimersRun cfg a₁.worker.view T) :
    Turn cfg env a cmd v (a₁.settle r) := by
  have ht : a₁.worker.view.types = v.types := hs.elim (· ▸ rfl) fun ⟨_, _, hs⟩ => hs.types
  have hev : a₁.worker.view.events = v.events := hs.elim (· ▸ rfl) fun ⟨_, _, hs⟩ => hs.events
  have hrq : ∀ q ∈ a₁.worker.view.requests, q ∈ v.requests ∨
      ∃ s T ts, a.sender cmd = some s ∧ v.types T = some ts ∧ q = (s, plainRequest cfg env T ts) := by
    intro q hq
    rcases hs with rfl | ⟨s, hsn, hs⟩
    · exact .inl hq
    · exact (hs.requests q hq).imp id fun ⟨T, ts, h⟩ => ⟨s, T, ts, hsn, h⟩
  have htm : ∀ k ∈ a₁.worker.view.timers, k ∈ v.timers ∨ ∃ ts, v.types k.1 = some ts ∧ ts.Pending k.2 := by
    intro k hk
    rcases hs with rfl | ⟨s, -, hs⟩
    · exact .inl hk
    · exact hs.new_timers k hk
  have hkp : v.timers ⊆ a₁.worker.view.timers := hs.elim (· ▸ subset_rfl) fun ⟨_, _, hs⟩ => hs.keeps_timers
  obtain ⟨he, hr⟩ | ⟨hv, hn⟩ := a₁.settle_cases r
  · rw [he]
    refine ⟨ht, hev, hrq, hrp, htm, fun s h => ⟨ha ▸ h, hkp⟩, fun s hc h => ?_, ?_⟩
    · exact hrd s hc (hr.resolve_right fun hn => by simp [hn] at h)
    · intro T name id decoder required hc h
      refine hw T name id decoder required hc ?_ (hr.resolve_right fun hn => by simp [hn] at h)
      subst hc
      rwa [ha] at h
  · refine ⟨?_, ?_, ?_, ?_, ?_, ?_, ?_, ?_⟩
    · rw [types, hv]; exact ht
    · rw [hv]; exact hev
    · rw [hv]; exact hrq
    · rw [hv]; exact hrp
    · intro k hk; rw [timers, hv] at hk; exact hk.elim
    · intro s h; rw [hn] at h; cases h
    · intro s _ h; rw [hn] at h; cases h
    · intro T name id decoder required _ h; rw [hn] at h; cases h

/-! ## One lemma a command -/

def fresh (a : Actor B V) : Actor B V := { a with worker := { a.worker with outbox := [] } }

theorem view_fresh (a : Actor B V) : a.fresh.worker.view = a.start := rfl

variable (cfg : Config B) (env : Env) (a : Actor B V)

theorem turn_watch (T n : String) (id : WatcherId) (d : DecoderFn B V) (r : Bool) :
    ∃ v, Change cfg env a (.watcher (.watch T n id d r)) v ∧ Turn cfg env a (.watcher (.watch T n id d r)) v
        (a.fresh.turn cfg env (.watcher (.watch T n id d r))) := by
  refine ⟨_, .watch T n id d r, ?_⟩
  have hv := view_addWatcher env a.fresh.worker T n id d r
  have hv' : (a.fresh.worker.addWatcher env T n id d r).1.view =
      { a.start.setType T (registerWatcher (a.worker.typeStateFor T d r) n id).1 with
        events := replay (a.worker.typeStateFor T d r) n id } := hv
  rw [← hv', turn]
  have hc : a.fresh.context = a.context := rfl
  cases hs : a.context.active with
  | none =>
    refine turn_of_sends (.inl ?_) nofun (by rw [context_spawnTransport]; rfl) nofun fun _ _ _ _ _ _ h => by
      simp [hs] at h
    rw [view_spawnTransport]
    simp [handleCommand, hc, hs]
  | some s =>
    have hsp : Sends cfg env s (a.fresh.worker.addWatcher env T n id d r).1.view
          (a.fresh.worker.handleCommand cfg env (some s) (.watch T n id d r)).1.view ∧
        ((a.fresh.worker.handleCommand cfg env (some s) (.watch T n id d r)).2 = .ok () →
          TimersRun cfg (a.fresh.worker.handleCommand cfg env (some s) (.watch T n id d r)).1.view T) := by
      simp only [handleCommand]
      split
      · exact sendRequest_spec cfg env s _ T
      · have h := startPendingResourceTimers_spec cfg env s
          (a.fresh.worker.addWatcher env T n id d r).1 T
        exact ⟨h.1, fun _ => h.2⟩
    rw [hc, hs]
    refine turn_of_sends (.inr ⟨s, hs, ?_⟩) nofun (by rw [context_spawnTransport]; rfl) nofun ?_
    · rw [view_spawnTransport]; exact hsp.1
    · rintro _ _ _ _ _ ⟨⟩ - hok
      rw [view_spawnTransport]; exact hsp.2 hok

theorem turn_unwatch (id : WatcherId) : ∃ v, Change cfg env a (.watcher (.unwatch id)) v ∧
      Turn cfg env a (.watcher (.unwatch id)) v (a.fresh.turn cfg env (.watcher (.unwatch id))) := by
  -- Whatever the removal did, at most one request follows.
  have ht : Turn cfg env a (.watcher (.unwatch id)) (a.fresh.worker.removeWatcher env id).1.view
      (a.fresh.turn cfg env (.watcher (.unwatch id))) := by
    rw [turn]
    refine turn_of_sends ?_ nofun (by rw [context_spawnTransport]; rfl) nofun nofun
    rw [view_spawnTransport]
    simp only [handleCommand]
    split
    · rename_i T s _ hs
      exact .inr ⟨s, hs, (sendRequest_spec cfg env s _ T).1⟩
    · exact .inl rfl
  obtain ⟨hr, hq⟩ | ⟨T, ts, hts, hid, -, ⟨hne, hv⟩ | ⟨hlast, hv⟩⟩ := removeWatcher_cases env a.fresh.worker id
  · rw [hr] at ht
    exact ⟨_, .keep hq, ht⟩
  · rw [hv] at ht
    exact ⟨_, .unwatch hts hid hne, ht⟩
  · rw [hv] at ht
    exact ⟨_, .unwatchLast hts hid hlast, ht⟩

theorem turn_resourceTimerExpired (T n : String) (t : UInt64) :
    ∃ v, Change cfg env a (.watcher (.resourceTimerExpired T n t)) v ∧
      Turn cfg env a (.watcher (.resourceTimerExpired T n t)) v
        (a.fresh.turn cfg env (.watcher (.resourceTimerExpired T n t))) := by
  have ht : Turn cfg env a (.watcher (.resourceTimerExpired T n t))
      (a.fresh.worker.handleResourceTimeout env T n t).view
      (a.fresh.turn cfg env (.watcher (.resourceTimerExpired T n t))) := by
    rw [turn]
    refine turn_of_sends (.inl ?_) nofun (by rw [context_spawnTransport]; rfl) nofun nofun
    rw [view_spawnTransport]
    rfl
  by_cases hid : a.worker.resourceTimers.lookup (T, n) = some t
  · by_cases hp : ∃ ts, a.types T = some ts ∧ ∀ c, ts.cache.lookup n = some c → c.state = .requested
    · obtain ⟨ts, hts, hp⟩ := hp
      rw [view_handleResourceTimeout env (w := a.fresh.worker) hid hts hp] at ht
      exact ⟨_, .expire hid hts hp, ht⟩
    · have hp' : ∀ ts, a.types T = some ts → ∃ c, ts.cache.lookup n = some c ∧ c.state ≠ .requested := by
        intro ts hts
        by_contra hc
        exact hp ⟨ts, hts, fun c hl => by_contra fun hr => hc ⟨c, hl, hr⟩⟩
      rw [view_handleResourceTimeout_lapse env (w := a.fresh.worker) hid hp'] at ht
      exact ⟨_, .lapse hid hp', ht⟩
  · rw [show a.fresh.worker.handleResourceTimeout env T n t = a.fresh.worker from if_pos hid] at ht
    exact ⟨_, .keep hid, ht⟩

theorem turn_ready (s : SessionId) : ∃ v, Change cfg env a (.transport (.ready s)) v ∧
      Turn cfg env a (.transport (.ready s)) v (a.fresh.turn cfg env (.transport (.ready s))) := by
  refine ⟨_, .ready s, ?_⟩
  let w : AdsWorker B V := { a.fresh.worker with
    typeStates := HashMap.mapValues (fun ts : TypeState B V => { ts with nonce := "" }) a.fresh.worker.typeStates }
  have hw : w.view = { a.start with types := fun T => (a.types T).map fun ts => { ts with nonce := "" } } := by
    simp only [view, start, w, View.mk.injEq]
    refine ⟨funext fun T => HashMap.lookup_mapValues _ _ _, rfl, rfl, rfl⟩
  obtain ⟨hs, ht⟩ := sendRequests_spec cfg env s
    (((env.order.entries w.typeStates.entries).filter fun e => !HashMap.isEmpty e.2.watchers).map (·.1)) w
  rw [← hw, turn]
  refine turn_of_sends (.inr ⟨s, rfl, hs⟩) (fun _ _ h => by cases h) rfl ?_ (fun _ _ _ _ _ h => by cases h)
  rintro _ ⟨⟩ hok T hto ts n hts hp
  refine ht hok T ?_ hto ts n hts hp
  -- A type with a pending name has a watcher, so its request was among those sent.
  have hl : w.typeStates.lookup T = some ts := (congrFun hs.types T).symm.trans hts
  obtain ⟨⟨i, e, he, -⟩, -⟩ := hp
  refine List.mem_map.2 ⟨⟨T, ts⟩, List.mem_filter.2 ⟨env.order.mem_entries.2 (HashMap.mem_entries.2 hl), ?_⟩, rfl⟩
  by_contra hne
  rw [Bool.not_eq_true, Bool.not_eq_false', HashMap.isEmpty_iff] at hne
  rw [hne i] at he
  cases he

theorem turn_response (bs : B) (done : ProcessingDone) : ∃ v, Change cfg env a (.transport (.response bs done)) v ∧
      Turn cfg env a (.transport (.response bs done)) v
        (a.fresh.turn cfg env (.transport (.response bs done))) := by
  have hc : a.fresh.context = a.context := rfl
  rw [turn, handleTransportEvent, hc]
  cases hs : a.context.session.filter (·.cancel) with
  | none =>
    have hn : a.context.active = none := by rw [active, hs]; rfl
    refine ⟨_, .keep (by simp [Actor.Quiet, received, hn]), ?_⟩
    exact turn_of_sends (.inl rfl) (fun _ _ _ => rfl) rfl nofun nofun
  | some ac =>
    have ha : a.context.active = some ac.writes := by rw [active, hs]; rfl
    have hcn : ac.cancel = true := by simpa using (Option.filter_eq_some_iff.1 hs).2
    cases hd : cfg.codec.decodeResponse bs with
    | error e =>
      refine ⟨_, .keep (by simp [Actor.Quiet, received, ha, hd]), ?_⟩
      exact turn_of_sends (.inl rfl) (fun _ _ _ => rfl) rfl nofun nofun
    | ok rs =>
      have hrc : a.received cfg bs = some (ac.writes, rs) := by simp [received, ha, hd]
      have hct : (⟨true, some { ac with sawResponse := true }⟩ : StreamContext).active = a.context.active := by
        rw [ha]; simp [active, Option.filter, hcn]
      have hh : (a.fresh.worker.recordHealthy a.context.healthy).view = a.start := view_recordHealthy _ _
      cases hts : a.types rs.typeUrl with
      | none =>
        refine ⟨_, .keep ?_, ?_⟩
        · intro s r hr
          rw [hrc] at hr
          obtain ⟨-, rfl⟩ : ac.writes = s ∧ rs = r := by simpa using hr
          exact hts
        · have hv : ((a.fresh.worker.recordHealthy a.context.healthy).handleResponse cfg env ac.writes rs
              done).1.view = a.start := by
            rw [handleResponse_none cfg env _ (lookup_none_of_view hh hts)]
            exact hh
          exact turn_of_sends (.inl hv) (fun _ _ _ => congrArg View.requests hv) hct nofun nofun
      | some ts =>
        have hv := view_handleResponse cfg env ac.writes (lookup_of_view hh hts) done
        rw [hh] at hv
        refine ⟨_, .response hrc hts, ?_⟩
        exact turn_of_sends (.inl hv) (fun _ _ _ => congrArg View.requests hv) hct nofun nofun

theorem turn_failed : ∃ v, Change cfg env a (.transport .failed) v ∧
      Turn cfg env a (.transport .failed) v (a.fresh.turn cfg env (.transport .failed)) := by
  refine ⟨_, .failed, ?_⟩
  rw [turn, handleTransportEvent]
  refine turn_of_sends (.inl ?_) nofun rfl nofun nofun
  have he : ∀ b, XdsClient.events [(.sawResponse b : Effect B V)] = [] := fun _ => rfl
  have hr : ∀ b, XdsClient.requests [(.sawResponse b : Effect B V)] = [] := fun _ => rfl
  have hv : ({ a.fresh.worker with resourceTimers := ∅ } : AdsWorker B V).view = { a.start with timers := ∅ } := by
    simp [view, start, fresh]
  rw [view_emit, he, hr]
  split
  · simp [hv]
  · rw [view_recordUnhealthy]
    simp [hv]

theorem turn_transportStopped : ∃ v, Change cfg env a .transportStopped v ∧
      Turn cfg env a .transportStopped v (a.fresh.turn cfg env .transportStopped) := by
  refine ⟨_, .keep trivial, ?_⟩
  rw [turn, ← settle_ok { a.fresh with worker := _, running := false }]
  refine turn_of_sends (.inl ?_) nofun rfl nofun nofun
  split
  · rw [view_emit_measure, view_fresh]
  · rfl

theorem turn_snapshot :
    ∃ v, Change cfg env a .snapshot v ∧ Turn cfg env a .snapshot v (a.fresh.turn cfg env .snapshot) := by
  refine ⟨_, .keep trivial, ?_⟩
  rw [turn, ← settle_ok { a.fresh with worker := _ }]
  refine turn_of_sends (.inl ?_) nofun rfl nofun nofun
  simp [view_emit, view_fresh, start, XdsClient.events, XdsClient.requests, Effect.event?, Effect.request?]

theorem turn_spec (cmd : WorkerCommand B V) :
    ∃ v, Change cfg env a cmd v ∧ Turn cfg env a cmd v (a.fresh.turn cfg env cmd) :=
  match cmd with
  | .watcher (.watch T name id d r) => turn_watch cfg env a T name id d r
  | .watcher (.unwatch id) => turn_unwatch cfg env a id
  | .watcher (.resourceTimerExpired T n t) => turn_resourceTimerExpired cfg env a T n t
  | .transport (.ready s) => turn_ready cfg env a s
  | .transport (.response bs done) => turn_response cfg env a bs done
  | .transport .failed => turn_failed cfg env a
  | .transportStopped => turn_transportStopped cfg env a
  | .snapshot => turn_snapshot cfg env a

end Actor

theorem types_init (cfg : Config B) (T : String) : (Actor.init cfg : Actor B V).types T = none := by
  rw [Actor.init]
  cases cfg.servers <;> rfl

theorem timers_init (cfg : Config B) (k : String × String) : k ∉ (Actor.init cfg : Actor B V).timers := by
  rw [Actor.init]
  cases cfg.servers <;> exact Bool.false_ne_true

theorem active_init (cfg : Config B) : (Actor.init cfg : Actor B V).context.active = none := by
  rw [Actor.init]
  cases cfg.servers <;> rfl

theorem step_of_running (cfg : Config B) (hr : a.running = true) (i : Env × WorkerCommand B V) :
    (worker cfg).step a i = (a.fresh.turn cfg i.1 i.2, (a.fresh.turn cfg i.1 i.2).worker.outbox) := by
  simp [worker, Actor.step, hr, Actor.fresh]

theorem step_cases (cfg : Config B) (a : Actor B V) (i : Env × WorkerCommand B V) :
    (a.running = false ∧ (worker cfg).next a i = a ∧ (worker cfg).out a i = []) ∨
    ∃ v, a.running = true ∧ Change cfg i.1 a i.2 v ∧ Turn cfg i.1 a i.2 v ((worker cfg).next a i) ∧
      events ((worker cfg).out a i) = v.events ∧
      requests ((worker cfg).out a i) = ((worker cfg).next a i).worker.view.requests := by
  cases hr : a.running with
  | false => exact .inl (by simp [Machine.next, Machine.out, worker, Actor.step, hr])
  | true =>
    obtain ⟨v, hc, ht⟩ := Actor.turn_spec cfg i.1 a i.2
    rw [Machine.next, Machine.out, step_of_running cfg hr]
    exact .inr ⟨v, rfl, hc, ht, ht.events, rfl⟩

end XdsClient
