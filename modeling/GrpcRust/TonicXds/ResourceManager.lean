import GrpcRust.Lib.Machine
import GrpcRust.TonicXds.Cache
import GrpcRust.XdsClient.Message
/-!
# The resource cascade

`xds/resource_manager.rs`: one task watches four kinds of resources and writes what it gets into the cache.
-/

namespace TonicXds

open Lib XdsClient

structure ResourceWatcher where
  rx : Nat
  name : String
deriving DecidableEq

structure CascadeState where
  rdsWatcher : Option ResourceWatcher
  rdsName : Option String
  rdsRouteConfig : Option RouteConfigResource
  listenerMaxStreamDuration : Option Duration
  cdsWatchers : HashMap String ResourceWatcher
  edsWatchers : HashMap String ResourceWatcher
  edsNames : HashMap String String

def CascadeState.new : CascadeState := ⟨none, none, none, none, ∅, ∅, ∅⟩

structure ResourceManager extends CascadeState where
  cache : XdsCache
  nextRx : Nat
  running : Bool

/-- What the four kinds of watchers deliver. Clusters and endpoints come with their key. -/
inductive WatcherEvent where
  | lds (event : ResourceEvent ListenerResource)
  | ldsClosed
  | rds (rx : Nat) (event : ResourceEvent RouteConfigResource)
  | rdsClosed (rx : Nat)
  | cds (name : String) (rx : Nat) (event : ResourceEvent ClusterResource)
  | eds (name : String) (rx : Nat) (event : ResourceEvent EndpointsResource)

namespace ResourceManager

def new : ResourceManager := { CascadeState.new with cache := .new, nextRx := 0, running := true }

variable (m : ResourceManager) (order : IterOrder) (name : String) (clusterName : String)

def watch : ResourceWatcher × ResourceManager := (⟨m.nextRx, name⟩, { m with nextRx := m.nextRx + 1 })

def publishRouteConfig (rc : RouteConfigResource) : ResourceManager :=
  { m with cache := m.cache.updateRouteConfig <|
      match m.listenerMaxStreamDuration with
      | some default => if default = 0 then rc else rc.withDefaultMaxStreamDuration default
      | none => rc }

def dropCluster : ResourceManager :=
  { m with
    cdsWatchers := m.cdsWatchers.erase name
    edsWatchers := m.edsWatchers.erase name
    edsNames := m.edsNames.erase name
    cache := (m.cache.removeCluster name).removeEndpoints name }

def watchCluster : ResourceManager :=
  { (m.watch name).2 with cdsWatchers := m.cdsWatchers.insert name (m.watch name).1 }

def reconcileClusters (m : ResourceManager) (rc : RouteConfigResource) : ResourceManager :=
  let newClusters := rc.clusterNames
  let oldClusters := HashSet.keys m.cdsWatchers
  let m := (order.elems (oldClusters.difference newClusters)).foldl dropCluster m
  (order.elems (newClusters.difference oldClusters)).foldl watchCluster m

def handleLds (m : ResourceManager) : ResourceEvent ListenerResource → ResourceManager
  | .resourceChanged (.ok listener) _ =>
    let msdChanged := decide (m.listenerMaxStreamDuration ≠ listener.maxStreamDuration)
    let m := { m with listenerMaxStreamDuration := listener.maxStreamDuration }
    match listener.routeSource with
    | .inline rc =>
      let m := { m with rdsWatcher := none, rdsName := none, rdsRouteConfig := none }
      (m.publishRouteConfig rc).reconcileClusters order rc
    | .rds name =>
      if m.rdsName ≠ some name then
        { (m.watch name).2 with rdsWatcher := some (m.watch name).1, rdsName := some name, rdsRouteConfig := none }
      else
        match msdChanged, m.rdsRouteConfig with
        | true, some rc => m.publishRouteConfig rc
        | _, _ => m
  | .resourceChanged (.error _) _ => m
  | .ambientError _ _ => m

def handleRds (m : ResourceManager) : ResourceEvent RouteConfigResource → ResourceManager
  | .resourceChanged (.ok rc) _ =>
    let m := m.publishRouteConfig rc
    let m := { m with rdsRouteConfig := some rc }
    m.reconcileClusters order rc
  | .resourceChanged (.error _) _ => m
  | .ambientError _ _ => m

def handleCds : ResourceEvent ClusterResource → ResourceManager
  | .resourceChanged (.ok cluster) _ =>
    let m := { m with cache := m.cache.updateCluster clusterName cluster }
    if m.edsNames.lookup clusterName ≠ some cluster.edsName then
      { (m.watch cluster.edsName).2 with
        edsWatchers := (m.edsWatchers.erase clusterName).insert clusterName (m.watch cluster.edsName).1
        edsNames := m.edsNames.insert clusterName cluster.edsName }
    else m
  | .resourceChanged (.error _) _ => m
  | .ambientError _ _ => m

def handleEds : ResourceEvent EndpointsResource → ResourceManager
  | .resourceChanged (.ok endpoints) _ => { m with cache := m.cache.updateEndpoints clusterName endpoints }
  | .resourceChanged (.error _) _ => m
  | .ambientError _ _ => m

def delivers : WatcherEvent → Bool
  | .lds _ => true
  | .ldsClosed => true
  | .rds rx _ => m.rdsWatcher.any (·.rx == rx)
  | .rdsClosed rx => m.rdsWatcher.any (·.rx == rx)
  | .cds name rx _ => (m.cdsWatchers.lookup name).any (·.rx == rx)
  | .eds name rx _ => (m.edsWatchers.lookup name).any (·.rx == rx)

def handle (m : ResourceManager) : WatcherEvent → ResourceManager
  | .lds event => m.handleLds order event
  | .ldsClosed => { m with running := false }
  | .rds _ event => m.handleRds order event
  | .rdsClosed _ => { m with rdsWatcher := none, rdsName := none, rdsRouteConfig := none }
  | .cds name _ event => m.handleCds name event
  | .eds name _ event => m.handleEds name event

def step (input : IterOrder × WatcherEvent) : ResourceManager × List WatcherEvent :=
  if m.running && m.delivers input.2 then (m.handle input.1 input.2, [input.2]) else (m, [])

end ResourceManager

def resourceManager : Machine ResourceManager (IterOrder × WatcherEvent) WatcherEvent where
  init := .new
  step := ResourceManager.step

/-! ## Clusters -/

/-- The watched clusters are `s`, endpoints are watched for some, and nothing else is cached. -/
structure Clusters (m : ResourceManager) (s : Set String) : Prop where
  cds : ∀ n, n ∈ m.cdsWatchers ↔ n ∈ s
  eds : ∀ n, n ∈ m.edsWatchers ↔ n ∈ m.edsNames
  edsNames : ∀ n, n ∈ m.edsNames → n ∈ s
  clusters : ∀ n, m.cache.clusters.get? n ≠ none → n ∈ s
  endpoints : ∀ n, m.cache.endpoints.get? n ≠ none → n ∈ s

def referenced (config : Option RouteConfigResource) : Set String :=
  {n | ∃ rc, config = some rc ∧ n ∈ rc.clusterNames}

namespace Clusters

variable {m : ResourceManager} {s : Set String} {name : String}

section
variable (h : Clusters m s)
include h

theorem dropCluster (name : String) : Clusters (m.dropCluster name) (s \ {name}) where
  cds n := by
    simp only [ResourceManager.dropCluster, AList.mem_erase, h.cds, Set.mem_sdiff, Set.mem_singleton_iff]
    tauto
  eds n := by simp [ResourceManager.dropCluster, AList.mem_erase, h.eds]
  edsNames n hn := by
    simp only [ResourceManager.dropCluster, AList.mem_erase] at hn
    exact ⟨h.edsNames n hn.2, hn.1⟩
  clusters n hn := by
    change (m.cache.clusters.remove name).get? n ≠ none at hn
    rw [WatchMap.get?_remove] at hn
    split at hn
    · exact absurd rfl hn
    · exact ⟨h.clusters n hn, ‹_›⟩
  endpoints n hn := by
    change (m.cache.endpoints.remove name).get? n ≠ none at hn
    rw [WatchMap.get?_remove] at hn
    split at hn
    · exact absurd rfl hn
    · exact ⟨h.endpoints n hn, ‹_›⟩

theorem watchCluster (name : String) : Clusters (m.watchCluster name) (insert name s) where
  cds n := by simp only [ResourceManager.watchCluster, AList.mem_insert, h.cds, Set.mem_insert_iff]
  eds := h.eds
  edsNames n hn := Set.mem_insert_of_mem _ (h.edsNames n hn)
  clusters n hn := Set.mem_insert_of_mem _ (h.clusters n hn)
  endpoints n hn := Set.mem_insert_of_mem _ (h.endpoints n hn)

theorem foldl_dropCluster (ns : List String) :
    Clusters (ns.foldl ResourceManager.dropCluster m) (s \ {n | n ∈ ns}) := by
  induction ns generalizing m s with
  | nil => simpa using h
  | cons name ns ih =>
    have := ih (h.dropCluster name)
    rwa [Set.sdiff_sdiff, show {name} ∪ {n | n ∈ ns} = {n | n ∈ name :: ns} by ext; simp] at this

theorem foldl_watchCluster (ns : List String) :
    Clusters (ns.foldl ResourceManager.watchCluster m) (s ∪ {n | n ∈ ns}) := by
  induction ns generalizing m s with
  | nil => simpa using h
  | cons name ns ih =>
    have := ih (h.watchCluster name)
    rwa [show insert name s ∪ {n | n ∈ ns} = s ∪ {n | n ∈ name :: ns} by ext; simp; tauto] at this

theorem reconcileClusters (o : IterOrder) (rc : RouteConfigResource) :
    Clusters (m.reconcileClusters o rc) {n | n ∈ rc.clusterNames} := by
  have hs : {n | n ∈ rc.clusterNames} =
      s \ {n | n ∈ o.elems ((HashSet.keys m.cdsWatchers).difference rc.clusterNames)} ∪
        {n | n ∈ o.elems (rc.clusterNames.difference (HashSet.keys m.cdsWatchers))} := by
    ext n
    simp only [IterOrder.mem_elems, HashSet.mem_difference, HashSet.mem_keys, h.cds, Set.mem_union, Set.mem_sdiff,
      Set.mem_ofPred_eq]
    tauto
  rw [hs]
  exact (h.foldl_dropCluster _).foldl_watchCluster _

theorem updateCluster (hn : name ∈ s) (c : ClusterResource) :
    Clusters { m with cache := m.cache.updateCluster name c } s := by
  refine ⟨h.cds, h.eds, h.edsNames, fun n hv => ?_, h.endpoints⟩
  change (m.cache.clusters.update name c).get? n ≠ none at hv
  rw [WatchMap.get?_update] at hv
  by_cases hk : n = name
  · exact hk ▸ hn
  · exact h.clusters n (by simpa [hk] using hv)

theorem updateEndpoints (hn : name ∈ s) (es : EndpointsResource) :
    Clusters { m with cache := m.cache.updateEndpoints name es } s := by
  refine ⟨h.cds, h.eds, h.edsNames, h.clusters, fun n hv => ?_⟩
  change (m.cache.endpoints.update name es).get? n ≠ none at hv
  rw [WatchMap.get?_update] at hv
  by_cases hk : n = name
  · exact hk ▸ hn
  · exact h.endpoints n (by simpa [hk] using hv)

theorem handleCds (hn : name ∈ s) (ev : ResourceEvent ClusterResource) : Clusters (m.handleCds name ev) s := by
  cases ev with
  | ambientError error done => exact h
  | resourceChanged r done =>
    cases r with
    | error e => exact h
    | ok c =>
      have hc := h.updateCluster hn c
      simp only [ResourceManager.handleCds]
      split
      · refine ⟨hc.cds, fun n => ?_, fun n hm => ?_, hc.clusters, hc.endpoints⟩
        · have := h.eds n
          simp only [AList.mem_insert, AList.mem_erase]
          tauto
        · rcases (AList.mem_insert _).1 hm with rfl | hm
          · exact hn
          · exact h.edsNames n hm
      · exact hc

theorem handleEds (hn : name ∈ s) (ev : ResourceEvent EndpointsResource) : Clusters (m.handleEds name ev) s := by
  cases ev with
  | ambientError error done => exact h
  | resourceChanged r done =>
    cases r with
    | error e => exact h
    | ok es => exact h.updateEndpoints hn es

end

end Clusters

/-! ## Routes -/

structure Routes where
  rdsWatcher : Option ResourceWatcher
  rdsName : Option String
  rdsRouteConfig : Option RouteConfigResource
  listenerMaxStreamDuration : Option Duration
  routeConfig : Option RouteConfigResource

variable (rc : RouteConfigResource) (m : ResourceManager) (is : List (IterOrder × WatcherEvent)) (d : Option Duration)

def ResourceManager.routes : Routes :=
  ⟨m.rdsWatcher, m.rdsName, m.rdsRouteConfig, m.listenerMaxStreamDuration, m.cache.routeConfig⟩

namespace ResourceManager

theorem routes_foldl {f : ResourceManager → String → ResourceManager} (hf : ∀ m n, (f m n).routes = m.routes)
    (ns : List String) (m : ResourceManager) : (ns.foldl f m).routes = m.routes := by
  induction ns generalizing m with
  | nil => rfl
  | cons n ns ih => rw [List.foldl_cons, ih, hf]

@[simp] theorem routes_reconcileClusters (o : IterOrder) (m : ResourceManager) (rc : RouteConfigResource) :
    (m.reconcileClusters o rc).routes = m.routes := by
  rw [reconcileClusters, routes_foldl (f := watchCluster) (fun _ _ => rfl),
    routes_foldl (f := dropCluster) (fun _ _ => rfl)]

theorem routes_handleCds (m : ResourceManager) (n : String) (e : ResourceEvent ClusterResource) :
    (m.handleCds n e).routes = m.routes := by
  unfold handleCds
  split
  · dsimp only
    split <;> rfl
  · rfl
  · rfl

theorem routes_handleEds (m : ResourceManager) (n : String) (e : ResourceEvent EndpointsResource) :
    (m.handleEds n e).routes = m.routes := by
  unfold handleEds
  split <;> rfl

end ResourceManager

def RouteConfigResource.withListenerDefault (default : Option Duration) : RouteConfigResource :=
  { rc with
    virtualHosts := rc.virtualHosts.map fun vh =>
      { vh with routes := vh.routes.map fun route =>
        { route with maxStreamDuration := route.maxStreamDuration.or (default.filter (· ≠ 0)) } } }

@[simp] theorem RouteConfigResource.clusterNames_withListenerDefault
    : (rc.withListenerDefault d).clusterNames = rc.clusterNames := by
  simp [clusterNames, withListenerDefault, List.flatMap_map]

theorem referenced_withListenerDefault : referenced (some (rc.withListenerDefault d)) = {n | n ∈ rc.clusterNames} := by
  ext n
  simp [referenced]

theorem ResourceManager.routeConfig_publishRouteConfig (rc : RouteConfigResource) :
    (m.publishRouteConfig rc).cache.routeConfig = some (rc.withListenerDefault m.listenerMaxStreamDuration) := by
  have hnone : rc.withListenerDefault none = rc := by simp [RouteConfigResource.withListenerDefault]
  unfold publishRouteConfig
  split
  · rename_i default hd
    rw [hd]
    split
    · subst default
      exact congrArg some hnone.symm
    · have : rc.withListenerDefault (some default) = rc.withDefaultMaxStreamDuration default := by
        simp [RouteConfigResource.withListenerDefault, RouteConfigResource.withDefaultMaxStreamDuration,
          Option.filter, *]
      exact congrArg some this.symm
  · rename_i hd
    rw [hd]
    exact congrArg some hnone.symm

theorem ResourceManager.routes_publishRouteConfig (rc : RouteConfigResource) : (m.publishRouteConfig rc).routes =
      { m.routes with routeConfig := some (rc.withListenerDefault m.listenerMaxStreamDuration) } := by
  rw [← m.routeConfig_publishRouteConfig rc]
  rfl

/-! ## The configuration of the current listener -/

/-- The listener's default, the route configuration it names, and the latest one received from it. -/
structure Expected where
  maxStreamDuration : Option Duration
  rdsName : Option String
  config : Option RouteConfigResource

namespace Expected

def next (e : Expected) : WatcherEvent → Expected
  | .lds (.resourceChanged (.ok listener) _) =>
    match listener.routeSource with
    | .inline rc => ⟨listener.maxStreamDuration, none, some rc⟩
    | .rds name => ⟨listener.maxStreamDuration, some name, if e.rdsName = some name then e.config else none⟩
  | .rds _ (.resourceChanged (.ok rc) _) => { e with config := some rc }
  | .rdsClosed _ => { e with rdsName := none, config := none }
  | _ => e

def publication (e : Expected) : Option RouteConfigResource :=
  e.config.map (·.withListenerDefault e.maxStreamDuration)

def after (is : List (IterOrder × WatcherEvent)) : Expected :=
  (resourceManager.outputs is).foldl next ⟨none, none, none⟩

end Expected

structure Tracks (r : Routes) (e : Expected) : Prop where
  name : r.rdsName = e.rdsName
  default : r.listenerMaxStreamDuration = e.maxStreamDuration
  config : r.rdsName ≠ none → r.rdsRouteConfig = e.config
  published : ∀ rc, e.publication = some rc → r.routeConfig = some rc

/-- The task after the history `e`: what it watches and caches is what it has published. -/
structure Agrees (m : ResourceManager) (e : Expected) : Prop where
  clusters : Clusters m (referenced m.cache.routeConfig)
  tracks : Tracks m.routes e

theorem Clusters.congr {m m' : ResourceManager} {s : Set String} (h : Clusters m s)
    (hcd : m'.cdsWatchers = m.cdsWatchers) (hed : m'.edsWatchers = m.edsWatchers) (hn : m'.edsNames = m.edsNames)
    (hc : m'.cache.clusters = m.cache.clusters) (he : m'.cache.endpoints = m.cache.endpoints) : Clusters m' s := by
  constructor
  · rw [hcd]; exact h.cds
  · rw [hed, hn]; exact h.eds
  · rw [hn]; exact h.edsNames
  · rw [hc]; exact h.clusters
  · rw [he]; exact h.endpoints

namespace Agrees

variable {m : ResourceManager} {e : Expected} {rc : RouteConfigResource} {l : ListenerResource}

theorem publication_or (h : Agrees m e) : m.cache.routeConfig = e.publication.or m.cache.routeConfig := by
  cases hp : e.publication with
  | none => rfl
  | some rc => exact h.tracks.published rc hp

theorem routeConfig_of_config (h : Agrees m e) (hc : e.config = some rc) :
    m.cache.routeConfig = some (rc.withListenerDefault e.maxStreamDuration) :=
  h.tracks.published _ (by rw [Expected.publication, hc]; rfl)

theorem of_publish {s : Set String} (hc : Clusters m s) (o : IterOrder) {d : Option Duration}
    (hp : m.cache.routeConfig = some (rc.withListenerDefault d)) (ht : Tracks m.routes e) :
    Agrees (m.reconcileClusters o rc) e ∧
      (m.reconcileClusters o rc).cache.routeConfig = some (rc.withListenerDefault d) := by
  have hm := m.routes_reconcileClusters o rc
  have hr : (m.reconcileClusters o rc).cache.routeConfig = some (rc.withListenerDefault d) :=
    (congrArg Routes.routeConfig hm).trans hp
  refine ⟨⟨?_, hm ▸ ht⟩, hr⟩
  rw [hr, referenced_withListenerDefault]
  exact hc.reconcileClusters o rc

section
variable (h : Agrees m e) {n : String}
include h

variable (o : IterOrder)

theorem lds_inline (hs : l.routeSource = .inline rc) (done : ProcessingDone) :
    Agrees (m.handleLds o (.resourceChanged (.ok l) done)) ⟨l.maxStreamDuration, none, some rc⟩ ∧
      (m.handleLds o (.resourceChanged (.ok l) done)).cache.routeConfig =
        some (rc.withListenerDefault l.maxStreamDuration) := by
  simp only [ResourceManager.handleLds, hs]
  refine of_publish (s := referenced m.cache.routeConfig) ?_ o ?_ ?_
  · exact h.clusters.congr rfl rfl rfl rfl rfl
  · exact ResourceManager.routeConfig_publishRouteConfig _ rc
  · rw [ResourceManager.routes_publishRouteConfig]
    exact ⟨rfl, rfl, fun h => absurd rfl h, fun _ h => h⟩

theorem lds_rename (hs : l.routeSource = .rds n) (hn : m.rdsName ≠ some n) (done : ProcessingDone) :
    Agrees (m.handleLds o (.resourceChanged (.ok l) done)) ⟨l.maxStreamDuration, some n, none⟩ ∧
      (m.handleLds o (.resourceChanged (.ok l) done)).cache.routeConfig = m.cache.routeConfig := by
  simp only [ResourceManager.handleLds, hs, if_pos hn]
  refine ⟨⟨h.clusters.congr rfl rfl rfl rfl rfl, ?_⟩, rfl⟩
  exact ⟨rfl, rfl, fun _ => rfl, nofun⟩

theorem lds_same (hs : l.routeSource = .rds n) (hn : m.rdsName = some n) (done : ProcessingDone) :
    Agrees (m.handleLds o (.resourceChanged (.ok l) done))
        ⟨l.maxStreamDuration, some n, e.config⟩ ∧
      (m.handleLds o (.resourceChanged (.ok l) done)).cache.routeConfig =
        (e.config.map (·.withListenerDefault l.maxStreamDuration)).or m.cache.routeConfig := by
  obtain ⟨-, hdf, hcn, -⟩ := h.tracks
  have hsm : m.routes.rdsName ≠ none := by rw [show m.routes.rdsName = some n from hn]; simp
  simp only [ResourceManager.handleLds, hs, if_neg (not_not.2 hn)]
  split
  · rename_i rc _ hrc
    have hec : e.config = some rc := (hcn hsm).symm.trans hrc
    have hp := ResourceManager.routeConfig_publishRouteConfig
      { m with listenerMaxStreamDuration := l.maxStreamDuration } rc
    refine ⟨⟨?_, ?_⟩, ?_⟩
    · -- The clusters are watched already: only the default changes.
      have hc := h.clusters
      rw [h.routeConfig_of_config hec, referenced_withListenerDefault] at hc
      rw [hp, referenced_withListenerDefault]
      exact hc.congr rfl rfl rfl rfl rfl
    · refine ⟨hn, rfl, hcn, fun rc' h => ?_⟩
      rw [Expected.publication, hec] at h
      exact hp.trans h
    · rw [hec]; exact hp
  · rename_i hno
    have hk : ∀ rc, e.config = some rc → m.cache.routeConfig = some (rc.withListenerDefault l.maxStreamDuration) := by
      intro rc hec
      have hd : m.listenerMaxStreamDuration = l.maxStreamDuration := by
        by_contra hd
        exact hno rc (decide_eq_true hd) ((hcn hsm).trans hec)
      rw [h.routeConfig_of_config hec, ← hd]
      exact congrArg (fun d => some (rc.withListenerDefault d)) hdf.symm
    refine ⟨⟨h.clusters.congr rfl rfl rfl rfl rfl, hn, rfl, hcn, fun rc h => ?_⟩, ?_⟩
    · obtain ⟨rc', hec, rfl⟩ := Option.map_eq_some_iff.1 h
      exact hk rc' hec
    · cases hec : e.config with
      | none => rfl
      | some rc => exact hk rc hec

theorem handleLds (ev : ResourceEvent ListenerResource) : Agrees (m.handleLds o ev) (e.next (.lds ev)) ∧
      (m.handleLds o ev).cache.routeConfig = (e.next (.lds ev)).publication.or m.cache.routeConfig := by
  cases ev with
  | ambientError error done => exact ⟨h, h.publication_or⟩
  | resourceChanged r done =>
    cases r with
    | error err => exact ⟨h, h.publication_or⟩
    | ok l =>
      cases hs : l.routeSource with
      | inline rc =>
        simp only [Expected.next, hs]
        exact h.lds_inline o hs done
      | rds n =>
        simp only [Expected.next, hs]
        by_cases hn : m.rdsName = some n
        · rw [if_pos (h.tracks.name.symm.trans hn)]
          exact h.lds_same o hs hn done
        · rw [if_neg (fun he => hn (h.tracks.name.trans he))]
          exact h.lds_rename o hs hn done

theorem handleRds (rx : Nat) (ev : ResourceEvent RouteConfigResource) :
    Agrees (m.handleRds o ev) (e.next (.rds rx ev)) ∧
      (m.handleRds o ev).cache.routeConfig = (e.next (.rds rx ev)).publication.or m.cache.routeConfig := by
  cases ev with
  | ambientError error done => exact ⟨h, h.publication_or⟩
  | resourceChanged r done =>
    cases r with
    | error err => exact ⟨h, h.publication_or⟩
    | ok rc =>
      obtain ⟨hname, hd, -, -⟩ := h.tracks
      have hp : (m.publishRouteConfig rc).cache.routeConfig = some (rc.withListenerDefault e.maxStreamDuration) := by
        rw [m.routeConfig_publishRouteConfig rc]
        exact congrArg (fun d => some (rc.withListenerDefault d)) hd
      exact of_publish (m := { m.publishRouteConfig rc with rdsRouteConfig := some rc })
        (h.clusters.congr rfl rfl rfl rfl rfl) o hp
        ⟨hname, hd, fun _ => rfl, fun _ h => hp.trans h⟩

theorem of_routes {m' : ResourceManager} (hc : Clusters m' (referenced m.cache.routeConfig))
    (hr : m'.routes = m.routes) : Agrees m' e ∧ m'.cache.routeConfig = e.publication.or m.cache.routeConfig := by
  have hp : m'.cache.routeConfig = m.cache.routeConfig := congrArg Routes.routeConfig hr
  refine ⟨⟨?_, hr ▸ h.tracks⟩, hp.trans h.publication_or⟩
  rw [hp]
  exact hc

theorem handle {ev : WatcherEvent} (hd : m.delivers ev = true) : Agrees (m.handle o ev) (e.next ev) ∧
      (m.handle o ev).cache.routeConfig = (e.next ev).publication.or m.cache.routeConfig := by
  cases ev with
  | lds ev => exact h.handleLds o ev
  | ldsClosed => exact ⟨⟨h.clusters.congr rfl rfl rfl rfl rfl, h.tracks⟩, h.publication_or⟩
  | rds rx ev => exact h.handleRds o rx ev
  | rdsClosed rx =>
    refine ⟨⟨h.clusters.congr rfl rfl rfl rfl rfl, ?_⟩, rfl⟩
    exact ⟨rfl, h.tracks.default, fun h => absurd rfl h, nofun⟩
  | cds n rx ev =>
    obtain ⟨hw, -⟩ := (Option.any_eq_true_iff_get _ _).1 hd
    have hm : n ∈ referenced m.cache.routeConfig := (h.clusters.cds n).1 (AList.lookup_isSome.1 hw)
    exact h.of_routes (h.clusters.handleCds hm ev) (m.routes_handleCds n ev)
  | eds n rx ev =>
    obtain ⟨hw, -⟩ := (Option.any_eq_true_iff_get _ _).1 hd
    have hm : n ∈ referenced m.cache.routeConfig :=
      h.clusters.edsNames n ((h.clusters.eds n).1 (AList.lookup_isSome.1 hw))
    exact h.of_routes (h.clusters.handleEds hm ev) (m.routes_handleEds n ev)

end

end Agrees

theorem Expected.after_snoc (i : IterOrder × WatcherEvent) : Expected.after (is ++ [i]) =
      (resourceManager.out (resourceManager.run is) i).foldl Expected.next (Expected.after is) := by
  simp [Expected.after]

theorem Agrees.step {m : ResourceManager} {e : Expected} (h : Agrees m e) (i : IterOrder × WatcherEvent) :
    Agrees (resourceManager.next m i) ((resourceManager.out m i).foldl Expected.next e) ∧
      (resourceManager.next m i).cache.routeConfig =
        ((resourceManager.out m i).foldl Expected.next e).publication.or m.cache.routeConfig := by
  change Agrees (m.step i).1 ((m.step i).2.foldl Expected.next e) ∧
    (m.step i).1.cache.routeConfig = ((m.step i).2.foldl Expected.next e).publication.or m.cache.routeConfig
  unfold ResourceManager.step
  split
  · rename_i hd
    exact h.handle i.1 (Bool.and_eq_true_iff.1 hd).2
  · exact ⟨h, h.publication_or⟩

theorem agrees_new : Agrees .new ⟨none, none, none⟩ where
  clusters := by
    constructor
    · intro n
      simp [ResourceManager.new, CascadeState.new, referenced, XdsCache.new]
    · exact fun _ => Iff.rfl
    · exact fun n hn => absurd hn (AList.notMem_empty n)
    · exact fun n hn => absurd rfl hn
    · exact fun n hn => absurd rfl hn
  tracks := ⟨rfl, rfl, fun h => absurd rfl h, nofun⟩

theorem agrees_run : Agrees (resourceManager.run is) (Expected.after is) := by
  induction is using List.reverseRecOn with
  | nil => exact agrees_new
  | append_singleton is i ih =>
    rw [Machine.run_snoc, Expected.after_snoc]
    exact (ih.step i).1

/-- Clusters are watched and cached as the publication names them, which is the latest of the current listener. -/
theorem watches_follow_publication (is : List (IterOrder × WatcherEvent)) :
    let m := resourceManager.run is
    (∀ n, n ∈ m.cdsWatchers ↔ ∃ rc, m.cache.routeConfig = some rc ∧ n ∈ rc.clusterNames) ∧
    (∀ n, n ∈ m.edsWatchers ↔ n ∈ m.edsNames) ∧
    (∀ n, n ∈ m.edsNames → n ∈ m.cdsWatchers) ∧
    (∀ n, m.cache.clusters.get? n ≠ none ∨ m.cache.endpoints.get? n ≠ none → n ∈ m.cdsWatchers) ∧
    ∀ i, (resourceManager.run (is ++ [i])).cache.routeConfig =
      (Expected.after (is ++ [i])).publication.or m.cache.routeConfig := by
  intro m
  have h := agrees_run is
  have hc := h.clusters
  refine ⟨hc.cds, hc.eds, fun n hn => (hc.cds n).2 (hc.edsNames n hn), ?_, fun i => ?_⟩
  · rintro n (hv | hv)
    · exact (hc.cds n).2 (hc.clusters n hv)
    · exact (hc.cds n).2 (hc.endpoints n hv)
  · rw [Machine.run_snoc, Expected.after_snoc]
    exact (h.step i).2

/-- From inline routes to RDS: until the new configuration arrives, the inline one stays published. -/
theorem inline_routes_outlive_listener :
    let rc : RouteConfigResource := ⟨"inline", [⟨"vh", ["*"], [⟨.cluster "a", none⟩]⟩]⟩
    let is : List (IterOrder × WatcherEvent) :=
      [(.default, .lds (.resourceChanged (.ok ⟨"l", .inline rc, none⟩) .detached)),
        (.default, .lds (.resourceChanged (.ok ⟨"l", .rds "r", none⟩) .detached))]
    (resourceManager.run is).cache.routeConfig = some rc ∧ (Expected.after is).publication = none :=
  ⟨rfl, rfl⟩

end TonicXds
