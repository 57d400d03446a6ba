import GrpcRust.TonicXds.EndpointManager
import GrpcRust.TonicXds.ResourceManager
/-!
# Cluster channels

`client/cluster.rs` and `client/lb.rs`: the first request for a cluster builds its client, whose diff loop sends
changes through a bounded channel to the balancer. A run is any interleaving of these tasks.
-/

namespace TonicXds

open Lib XdsClient

def endpointChannelCapacity : Nat := 64

/-- A client with its diff loop, the channel between them, and what the balancer has been offered. -/
structure ClusterClient where
  loop : DiffLoop
  buffer : List (Change EndpointAddress)
  offered : Finset EndpointAddress

namespace ClusterClient

def new (watch : CacheWatch) : ClusterClient := ⟨.spawn watch, [], ∅⟩

def send (c : ClusterClient) : ClusterClient :=
  match c.loop.pending with
  | [] => c
  | change :: rest =>
    if c.buffer.length < endpointChannelCapacity then
      { c with loop := { c.loop with pending := rest }, buffer := c.buffer ++ [change] }
    else c

def poll (c : ClusterClient) : ClusterClient :=
  match c.buffer with
  | [] => c
  | change :: rest => { c with buffer := rest, offered := change.apply c.offered }

end ClusterClient

inductive ClientMove where
  | next (order : IterOrder)
  | send
  | poll

namespace ClusterClient

variable (endpoints : WatchMap EndpointsResource) (c : ClusterClient)

def step : ClientMove → ClusterClient
  | .next order => { c with loop := c.loop.next order endpoints }
  | .send => c.send
  | .poll => c.poll

def quiet : Prop :=
  c.buffer = [] ∧ c.loop.pending = [] ∧ (c.loop.finished = true ∨
      ∃ channel, endpoints.channels[c.loop.watch.channel]? = some channel ∧ c.loop.watch.rx.poll channel = .pending)

end ClusterClient

structure XdsChannel where
  manager : ResourceManager
  registry : HashMap String ClusterClient

inductive Move where
  | resource (order : IterOrder) (event : WatcherEvent)
  | request (cluster : String)
  | client (cluster : String) (move : ClientMove)

namespace XdsChannel

def getCluster (S : XdsChannel) (key : String) : XdsChannel :=
  match S.registry.lookup key with
  | some _ => S
  | none =>
    let (watch, cache) := S.manager.cache.watchEndpoints key
    ⟨{ S.manager with cache }, S.registry.insert key (.new watch)⟩

def withClient (S : XdsChannel) (key : String) (f : ClusterClient → ClusterClient) : XdsChannel :=
  match S.registry.lookup key with
  | some c => { S with registry := S.registry.insert key (f c) }
  | none => S

def step (S : XdsChannel) : Move → XdsChannel
  | .resource order event => { S with manager := (S.manager.step (order, event)).1 }
  | .request cluster => S.getCluster cluster
  | .client cluster move => S.withClient cluster (·.step S.manager.cache.endpoints move)

end XdsChannel

def xdsChannel : Machine XdsChannel Move Empty where
  init := ⟨.new, ∅⟩
  step S move := (S.step move, [])

/-! ## A client on its cluster's channel -/

def healthySet (snapshot : Option EndpointsResource) : Finset EndpointAddress :=
  snapshot.elim ∅ fun r => r.healthyAddresses.toFinset

/-- The client reads its cluster's channel; what it has read and not yet offered is on its way. -/
structure Feeds (endpoints : WatchMap EndpointsResource) (cluster : String) (c : ClusterClient) : Prop where
  channel : endpoints.inner.lookup cluster = some c.loop.watch.channel
  running : c.loop.finished = false
  seen : ∀ ch, endpoints.channels[c.loop.watch.channel]? = some ch →
    (∀ n, c.loop.watch.rx.seen = some n → n ≤ ch.version) ∧
    (c.loop.watch.rx.seen = some ch.version → c.loop.active.toFinset = healthySet ch.value) ∧
    (ch.value = none → c.loop.active.toFinset = ∅)
  replay : (c.buffer ++ c.loop.pending).foldl Change.apply c.offered = c.loop.active.toFinset

namespace Feeds

variable {endpoints endpoints' : WatchMap EndpointsResource} {cl : String} {c : ClusterClient}

theorem extend (h : Feeds endpoints cl c) (he : endpoints.Extends cl endpoints') : Feeds endpoints' cl c := by
  obtain ⟨ch, hch⟩ := endpoints.channel_of_lookup h.channel
  obtain ⟨hl, ch', hch', hle, hvl, hnone⟩ := he _ _ h.channel hch
  obtain ⟨hs, ha, hempty⟩ := h.seen ch hch
  refine ⟨hl, h.running, fun x hx => ?_, h.replay⟩
  obtain rfl : ch' = x := Option.some.inj (hch'.symm.trans hx)
  refine ⟨fun n hn => (hs n hn).trans hle, fun hn => ?_, fun hn => hempty (hnone hn)⟩
  -- Having seen the new version means that it is still the old one.
  have hv : ch'.version = ch.version := Nat.le_antisymm (hs _ hn) hle
  rw [ha (hv ▸ hn), hvl hv]

theorem new (es : WatchMap EndpointsResource) (c : String) : Feeds (es.watch c).2 c (.new (es.watch c).1) where
  channel := by rw [WatchMap.watch, WatchMap.lookup_ensure, if_pos rfl]; rfl
  running := rfl
  seen _ _ := ⟨fun _ hn => (by cases hn), fun hn => (by cases hn), fun _ => rfl⟩
  replay := rfl

section
variable (h : Feeds endpoints cl c)
include h

theorem send : Feeds endpoints cl c.send := by
  unfold ClusterClient.send
  split
  · exact h
  · rename_i change r hp
    split
    · refine ⟨h.channel, h.running, h.seen, ?_⟩
      rw [← h.replay, hp]
      simp
    · exact h

theorem poll : Feeds endpoints cl c.poll := by
  unfold ClusterClient.poll
  split
  · exact h
  · rename_i change r hb
    refine ⟨h.channel, h.running, h.seen, ?_⟩
    rw [← h.replay, hb]
    simp

theorem next (o : IterOrder) : Feeds endpoints cl { c with loop := c.loop.next o endpoints } := by
  unfold DiffLoop.next
  split
  · rename_i hw
    obtain ⟨ch, hch, hon⟩ := endpoints.live h.channel
    obtain ⟨hs, ha, hempty⟩ := h.seen ch hch
    have hp : c.loop.pending = [] := by simp [DiffLoop.waiting] at hw; exact hw.2
    have ho {ch'} (hx : endpoints.channels[c.loop.watch.channel]? = some ch') : ch' = ch :=
      Option.some.inj (hx.symm.trans hch)
    rw [hch]
    dsimp only
    obtain ⟨v, hv, hn⟩ | ⟨hv, hn⟩ | ⟨hv, hn⟩ := c.loop.watch.next_of_open hon
    · rw [hn]
      refine ⟨h.channel, rfl, fun x hx => ?_, ?_⟩
      · obtain rfl := ho hx
        refine ⟨fun n hn => (Option.some.inj hn).ge, fun _ => ?_, fun hnone => ?_⟩
        · rw [hv]; rfl
        · rw [hv] at hnone; cases hnone
      · have hr := h.replay
        rw [hp, List.append_nil] at hr
        rw [List.foldl_append, hr]
        exact replay_diff o _ _
    · rw [hn]
      refine ⟨h.channel, h.running, fun x hx => ?_, h.replay⟩
      obtain rfl := ho hx
      refine ⟨fun n hn => (Option.some.inj hn).ge, fun _ => ?_, hempty⟩
      rw [hv]; exact hempty hv
    · rw [hn]; exact h
  · exact h

theorem step (m : ClientMove) : Feeds endpoints cl (c.step endpoints m) := by
  cases m with
  | next o => exact h.next o
  | send => exact h.send
  | poll => exact h.poll

theorem offered (hq : c.quiet endpoints) : c.offered = healthySet (endpoints.get? cl) := by
  obtain ⟨hb, hp, hf | ⟨ch, hch, hpl⟩⟩ := hq
  · rw [h.running] at hf; cases hf
  · have hs : c.loop.watch.rx.seen = some ch.version := by
      by_contra hne
      simp [Watch.Receiver.poll, hne] at hpl
    have := h.replay
    rw [hb, hp] at this
    rw [endpoints.get?_of_lookup h.channel hch, ← (h.seen ch hch).2.1 hs, ← this]
    rfl

end

end Feeds

theorem ClusterClient.exists_drained (es : WatchMap EndpointsResource) (c : ClusterClient) :
    ∃ ms : List ClientMove, let c' := ms.foldl (·.step es ·) c
      c'.buffer = [] ∧ c'.loop = { c.loop with pending := [] } := by
  -- Each send or poll moves one change on.
  induction hn : 2 * c.loop.pending.length + c.buffer.length using Nat.strong_induction_on generalizing c with
  | _ n ih =>
    cases hb : c.buffer with
    | cons change r =>
      have hc : c.poll = { c with buffer := r, offered := change.apply c.offered } := by simp [poll, hb]
      obtain ⟨ms, h⟩ := ih (2 * c.loop.pending.length + r.length) (by rw [hb] at hn; simp at hn; omega)
        c.poll (by rw [hc])
      refine ⟨.poll :: ms, h.1, ?_⟩
      rw [show c.loop = c.poll.loop by rw [hc]]
      exact h.2
    | nil =>
      cases hp : c.loop.pending with
      | nil => exact ⟨[], hb, by rw [← hp]; rfl⟩
      | cons change r =>
        have hc : c.send = { c with loop := { c.loop with pending := r }, buffer := [change] } := by
          simp [send, hb, hp, endpointChannelCapacity]
        obtain ⟨ms, h⟩ := ih (2 * r.length + 1) (by rw [hb, hp] at hn; simp at hn; omega) c.send (by rw [hc]; rfl)
        refine ⟨.send :: ms, h.1, ?_⟩
        rw [show ({ c.loop with pending := [] } : DiffLoop) = { c.send.loop with pending := [] } by rw [hc]]
        exact h.2

namespace Feeds

variable {endpoints : WatchMap EndpointsResource} {cl : String} {c : ClusterClient}

theorem steps (h : Feeds endpoints cl c) (ms : List ClientMove) :
    Feeds endpoints cl (ms.foldl (·.step endpoints ·) c) := by
  induction ms generalizing c with
  | nil => exact h
  | cons m ms ih => exact ih (h.step m)

theorem seen_next (h : Feeds endpoints cl c) (hp : c.loop.pending = []) (o : IterOrder)
    {ch : Watch.Channel (Option EndpointsResource)} (hch : endpoints.channels[c.loop.watch.channel]? = some ch)
    (ho : ch.closed = false) : (c.loop.next o endpoints).watch = { c.loop.watch with rx := .update ch } := by
  have hw : c.loop.waiting = true := by simp [DiffLoop.waiting, h.running, hp]
  unfold DiffLoop.next
  rw [if_pos hw, hch]
  dsimp only
  obtain ⟨v, -, hn⟩ | ⟨-, hn⟩ | ⟨hs, hn⟩ := c.loop.watch.next_of_open ho
  · rw [hn]
  · rw [hn]
  · rw [hn]
    have : c.loop.watch.rx = .update ch := by rw [Watch.Receiver.update, ← hs]
    rw [← this]

theorem exists_quiet (h : Feeds endpoints cl c) :
    ∃ ms : List ClientMove, (ms.foldl (·.step endpoints ·) c).quiet endpoints := by
  obtain ⟨b, hb⟩ := c.exists_drained endpoints
  have h1 := h.steps b
  generalize hc1 : b.foldl (·.step endpoints ·) c = c1 at hb h1
  obtain ⟨ch, hch, ho⟩ := endpoints.live h1.channel
  have hs := h1.seen_next (by rw [hb.2]) .default hch ho
  obtain ⟨a, ha, hl⟩ := (c1.step endpoints (.next .default)).exists_drained endpoints
  refine ⟨b ++ .next .default :: a, ?_⟩
  rw [List.foldl_append, List.foldl_cons, hc1]
  refine ⟨ha, by rw [hl], .inr ⟨ch, ?_, ?_⟩⟩
  · rw [hl]
    change endpoints.channels[(c1.loop.next .default endpoints).watch.channel]? = some ch
    rw [hs]
    exact hch
  · rw [hl]
    change (c1.loop.next .default endpoints).watch.rx.poll ch = .pending
    rw [hs]
    simp [Watch.Receiver.poll, Watch.Receiver.update, ho]

end Feeds

variable {c : String}

theorem ResourceManager.extends_foldl_dropCluster (ns : List String) (m : ResourceManager)
    (h : c ∉ ns) : m.cache.endpoints.Extends c (ns.foldl dropCluster m).cache.endpoints := by
  induction ns generalizing m with
  | nil => exact .refl _ _
  | cons n ns ih =>
    rw [List.mem_cons, not_or] at h
    exact (m.cache.endpoints.extends_remove h.1).trans (ih (m.dropCluster n) h.2)

theorem ResourceManager.cache_foldl_watchCluster (ns : List String) (m : ResourceManager) :
    (ns.foldl watchCluster m).cache = m.cache := by
  induction ns generalizing m with
  | nil => rfl
  | cons n ns ih => exact ih (m.watchCluster n)

theorem ResourceManager.extends_reconcileClusters (o : IterOrder) (m : ResourceManager)
    (rc : RouteConfigResource) (h : c ∈ m.cdsWatchers → c ∈ rc.clusterNames) :
    m.cache.endpoints.Extends c (m.reconcileClusters o rc).cache.endpoints := by
  rw [reconcileClusters, cache_foldl_watchCluster]
  apply m.extends_foldl_dropCluster
  simp only [IterOrder.mem_elems, HashSet.mem_difference, HashSet.mem_keys]
  exact fun hm => hm.2 (h hm.1)

variable {m : ResourceManager} {e : Expected}

theorem Agrees.extends_handle (h : Agrees m e) (o : IterOrder) {ev : WatcherEvent}
    (hk : c ∈ referenced m.cache.routeConfig → c ∈ referenced (m.handle o ev).cache.routeConfig) :
    m.cache.endpoints.Extends c (m.handle o ev).cache.endpoints := by
  cases ev with
  | ldsClosed => exact .refl _ _
  | rdsClosed rx => exact .refl _ _
  | lds ev =>
    cases ev with
    | ambientError error done => exact .refl _ _
    | resourceChanged r done =>
      cases r with
      | error err => exact .refl _ _
      | ok l =>
        cases hs : l.routeSource with
        | inline rc =>
          have hp := (h.lds_inline o hs done).2
          simp only [ResourceManager.handle] at hk ⊢
          rw [hp, referenced_withListenerDefault] at hk
          simp only [ResourceManager.handleLds, hs]
          exact ResourceManager.extends_reconcileClusters o
            (ResourceManager.publishRouteConfig { m with
              rdsWatcher := none, rdsName := none, rdsRouteConfig := none,
              listenerMaxStreamDuration := l.maxStreamDuration } rc)
            rc fun hm => hk ((h.clusters.cds c).1 hm)
        | rds n =>
          simp only [ResourceManager.handle, ResourceManager.handleLds, hs]
          split
          · exact .refl _ _
          · split <;> exact .refl _ _
  | rds rx ev =>
    cases ev with
    | ambientError error done => exact .refl _ _
    | resourceChanged r done =>
      cases r with
      | error err => exact .refl _ _
      | ok rc =>
        have hp := (h.handleRds o rx (.resourceChanged (.ok rc) done)).2
        simp only [ResourceManager.handle] at hk ⊢
        rw [hp] at hk
        simp only [Expected.next, Expected.publication, Option.map_some, Option.some_or,
          referenced_withListenerDefault] at hk
        exact ResourceManager.extends_reconcileClusters o
          { m.publishRouteConfig rc with rdsRouteConfig := some rc } rc fun hm => hk ((h.clusters.cds c).1 hm)
  | cds n rx ev =>
    simp only [ResourceManager.handle, ResourceManager.handleCds]
    split
    · split <;> exact .refl _ _
    · exact .refl _ _
    · exact .refl _ _
  | eds n rx ev =>
    simp only [ResourceManager.handle, ResourceManager.handleEds]
    split
    · exact m.cache.endpoints.extends_update c n _
    · exact .refl _ _
    · exact .refl _ _

theorem Agrees.watchEndpoints (h : Agrees m e) (c : String) :
    Agrees { m with cache := (m.cache.watchEndpoints c).2 } e := by
  refine ⟨⟨h.clusters.cds, h.clusters.eds, h.clusters.edsNames, h.clusters.clusters, fun n hn => ?_⟩, h.tracks⟩
  apply h.clusters.endpoints
  rwa [← WatchMap.get?_ensure m.cache.endpoints c n]

def KeepsCluster (cluster : String) (S : XdsChannel) (move : Move) : Prop :=
  cluster ∈ S.registry → cluster ∈ referenced S.manager.cache.routeConfig →
    cluster ∈ referenced (S.step move).manager.cache.routeConfig

structure Served (cluster : String) (S : XdsChannel) : Prop where
  manager : ∃ e, Agrees S.manager e
  feeds : ∀ c, S.registry.lookup cluster = some c → Feeds S.manager.cache.endpoints cluster c

namespace Served

variable {cl : String} {S : XdsChannel}

theorem resource (h : Served cl S) (o : IterOrder) (ev : WatcherEvent)
    (hk : KeepsCluster cl S (.resource o ev)) : Served cl (S.step (.resource o ev)) := by
  obtain ⟨e, ha⟩ := h.manager
  refine ⟨⟨_, (ha.step (o, ev)).1⟩, fun c hc => ?_⟩
  refine (h.feeds c hc).extend ?_
  have hk := hk (HashMap.mem_iff.2 ⟨c, hc⟩)
  simp only [XdsChannel.step, ResourceManager.step] at hk ⊢
  split
  · rename_i hd
    rw [if_pos hd] at hk
    exact ha.extends_handle o hk
  · exact .refl _ _

theorem request (h : Served cl S) (key : String) : Served cl (S.step (.request key)) := by
  obtain ⟨e, ha⟩ := h.manager
  simp only [XdsChannel.step, XdsChannel.getCluster]
  split
  · exact h
  · refine ⟨⟨e, ha.watchEndpoints key⟩, fun c hc => ?_⟩
    rcases HashMap.lookup_insert_eq_some.1 hc with ⟨rfl, rfl⟩ | ⟨-, hc⟩
    · exact Feeds.new _ _
    · exact (h.feeds c hc).extend (WatchMap.extends_ensure _ _ _)

theorem client (h : Served cl S) (key : String) (m : ClientMove) : Served cl (S.step (.client key m)) := by
  simp only [XdsChannel.step, XdsChannel.withClient]
  split
  · rename_i c hl
    refine ⟨h.manager, fun c' hc => ?_⟩
    rcases HashMap.lookup_insert_eq_some.1 hc with ⟨rfl, rfl⟩ | ⟨-, hc⟩
    · exact (h.feeds c hl).step m
    · exact h.feeds c' hc
  · exact h

end Served

theorem served_run {cl : String} {ms : List Move}
    (h : Machine.Along (fun pre m => KeepsCluster cl (xdsChannel.run pre) m) ms) : Served cl (xdsChannel.run ms) := by
  induction ms using List.reverseRecOn with
  | nil => exact ⟨⟨_, agrees_new⟩, fun c hc => by simp [xdsChannel] at hc⟩
  | append_singleton ms m ih =>
    obtain ⟨hp, hk⟩ := Machine.along_snoc.1 h
    rw [Machine.run_snoc]
    change Served cl ((xdsChannel.run ms).step m)
    cases m with
    | resource o e => exact (ih hp).resource o e hk
    | request key => exact (ih hp).request key
    | client key m => exact (ih hp).client key m

namespace Sample

def routes (clusters : List String) : Move :=
  .resource .default (.lds (.resourceChanged (.ok ⟨"l", .inline ⟨"rc",
    [⟨"vh", ["*"], clusters.map (⟨.cluster ·, none⟩)⟩]⟩, none⟩) .detached))

variable (name : String)

def cluster (rx : Nat) : Move := .resource .default (.cds name rx (.resourceChanged (.ok ⟨name, none⟩) .detached))

def address (port : UInt16) : EndpointAddress := ⟨.hostname "localhost", port⟩

def endpoints (rx : Nat) (port : UInt16) : Move :=
  .resource .default (.eds name rx (.resourceChanged (.ok ⟨name, [⟨[⟨address port, .healthy⟩]⟩]⟩) .detached))

def offer : List Move := [.client name (.next .default), .client name .send, .client name .poll]

end Sample

/-- Unless a cluster with a client leaves the routes, its balancer is offered the healthy endpoints of the snapshot. -/
theorem offered_follows_snapshot {cluster : String} {moves : List Move}
    (h : Machine.Along (fun pre move => KeepsCluster cluster (xdsChannel.run pre) move) moves) {c : ClusterClient}
    (hc : (xdsChannel.run moves).registry.lookup cluster = some c) :
    let endpoints := (xdsChannel.run moves).manager.cache.endpoints
    (c.quiet endpoints → c.offered = healthySet (endpoints.get? cluster)) ∧
      ∃ s : List ClientMove, (s.foldl (·.step endpoints ·) c).quiet endpoints := by
  intro endpoints
  have hf := (served_run h).feeds c hc
  exact ⟨hf.offered, hf.exists_quiet⟩

/-- The client is built before the first snapshot arrives, and offers its endpoint. -/
theorem offered_follows_snapshot_first :
    let moves := [Sample.routes ["a"], .request "a", Sample.cluster "a" 0, Sample.endpoints "a" 1 80] ++
      Sample.offer "a"
    ∃ c, (xdsChannel.run moves).registry.lookup "a" = some c ∧
      c.quiet (xdsChannel.run moves).manager.cache.endpoints ∧ c.offered = {Sample.address 80} ∧
      c.offered = healthySet ((xdsChannel.run moves).manager.cache.endpoints.get? "a") := by
  intro moves
  have hk : Machine.Along (fun pre m => KeepsCluster "a" (xdsChannel.run pre) m) moves := by
    have hs : moves = [] ++ [Sample.routes ["a"]] ++ [Move.request "a"] ++ [Sample.cluster "a" 0] ++
      [Sample.endpoints "a" 1 80] ++ [Move.client "a" (.next .default)] ++ [Move.client "a" .send] ++
      [Move.client "a" .poll] := rfl
    rw [hs]
    iterate 6 refine Machine.along_snoc.2 ⟨?_, fun _ h => h⟩
    exact Machine.along_snoc.2 ⟨Machine.along_nil _, fun h => absurd h (by decide)⟩
  have hqt : ∃ c, (xdsChannel.run moves).registry.lookup "a" = some c ∧
      c.quiet (xdsChannel.run moves).manager.cache.endpoints ∧ c.offered = {Sample.address 80} :=
    ⟨_, rfl, ⟨rfl, rfl, .inr ⟨_, rfl, rfl⟩⟩, rfl⟩
  obtain ⟨c, hc, hq, ho⟩ := hqt
  exact ⟨c, hc, hq, ho, (offered_follows_snapshot hk hc).1 hq⟩

/-- Cluster `a` leaves the routes and comes back: its client never hears of the new endpoint. -/
theorem readded_cluster_keeps_stale_endpoints :
    let S := xdsChannel.run ([Sample.routes ["a"], Sample.cluster "a" 0, Sample.endpoints "a" 1 80, .request "a"] ++
      Sample.offer "a" ++ [Sample.routes [], Sample.routes ["a"], Sample.cluster "a" 2, Sample.endpoints "a" 3 81,
      .request "a"] ++ Sample.offer "a")
    "a" ∈ referenced S.manager.cache.routeConfig ∧
    ∃ c, S.registry.lookup "a" = some c ∧ c.quiet S.manager.cache.endpoints ∧
      c.offered = {Sample.address 80} ∧ healthySet (S.manager.cache.endpoints.get? "a") = {Sample.address 81} := by
  refine ⟨⟨_, rfl, ?_⟩, _, rfl, ⟨rfl, rfl, .inl rfl⟩, rfl, rfl⟩
  decide

end TonicXds
