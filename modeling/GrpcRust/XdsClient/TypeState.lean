import GrpcRust.XdsClient.Message
/-!
# Per-type state of the ADS worker

The subscription, cache and watchers `client/worker.rs` keeps for one type URL.
-/

namespace XdsClient

open Lib ResourceEvent

variable {B V : Type} {name : String} {o : IterOrder}

/-! ## Subscriptions -/

structure WatcherId where
  val : UInt64
deriving DecidableEq

inductive SubscriptionMode where
  | wildcard
  | named (names : Finset String)
deriving DecidableEq

def SubscriptionMode.resourceNamesForRequest (order : IterOrder) : SubscriptionMode → List String
  | .wildcard => []
  | .named names => order.set names

def SubscriptionMode.includes (name : String) : SubscriptionMode → Bool
  | .wildcard => true
  | .named names => decide (name ∈ names)

inductive WatcherSubscription where
  | wildcard
  | named (name : String)
deriving DecidableEq

namespace WatcherSubscription

def fromName (name : String) : WatcherSubscription :=
  if name.isEmpty then .wildcard else .named name

def matchesName (resourceName : String) : WatcherSubscription → Bool
  | .wildcard => true
  | .named name => decide (name = resourceName)

def isWildcard : WatcherSubscription → Bool
  | .wildcard => true
  | .named _ => false

def name? : WatcherSubscription → Option String
  | .named name => some name
  | .wildcard => none

end WatcherSubscription

structure WatcherEntry where
  subscription : WatcherSubscription
deriving DecidableEq

/-! ## The cache -/

inductive ResourceState where
  | requested
  | received
  | nacked (rejected : RejectedUpdate)
  | doesNotExist
deriving DecidableEq

namespace ResourceState

def cacheStateLabel : ResourceState → String
  | .requested => "requested"
  | .received => "acked"
  | .nacked _ => "nacked"
  | .doesNotExist => "does_not_exist"

def status : ResourceState → ResourceStatus
  | .requested => .requested
  | .received => .acked
  | .nacked _ => .nacked
  | .doesNotExist => .doesNotExist

def isReceived : ResourceState → Bool
  | .received => true
  | _ => false

def rejected? : ResourceState → Option RejectedUpdate
  | .nacked rejected => some rejected
  | _ => none

end ResourceState

structure CachedResource (B V : Type) where
  state : ResourceState
  resource : Option (DecodedResource V)
  accepted : Option (AcceptedResource B)
  resource_isSome : resource.isSome = state.isReceived

namespace CachedResource
variable {c : CachedResource B V}

def requested : CachedResource B V := ⟨.requested, none, none, rfl⟩

def received (resource : DecodedResource V) (accepted : AcceptedResource B) : CachedResource B V :=
  ⟨.received, some resource, some accepted, rfl⟩

def doesNotExist (accepted : Option (AcceptedResource B)) : CachedResource B V := ⟨.doesNotExist, none, accepted, rfl⟩

def nacked (rejected : RejectedUpdate) (accepted : Option (AcceptedResource B)) : CachedResource B V :=
  ⟨.nacked rejected, none, accepted, rfl⟩

def isRequested (c : CachedResource B V) : Bool := decide (c.state = .requested)

def toEvent (c : CachedResource B V) : Option (ResourceEvent (DecodedResource V)) :=
  match c.state with
  | .received => c.resource.map fun r => .resourceChanged (.ok r) .detached
  | .doesNotExist => some (.resourceChanged (.error .resourceDoesNotExist) .detached)
  | .nacked rejected => some (.resourceChanged (.error (.validation rejected.details)) .detached)
  | .requested => none

def result? (c : CachedResource B V) : Option (Except Error (DecodedResource V)) := c.toEvent.bind (·.changed)

theorem result_of_doesNotExist (h : c.state = .doesNotExist) : c.result? = some (.error .resourceDoesNotExist) := by
  simp [result?, toEvent, h, changed]

theorem state_of_toEvent {done : ProcessingDone}
    (h : c.toEvent = some (.resourceChanged (.error .resourceDoesNotExist) done)) : c.state = .doesNotExist := by
  obtain ⟨s, r, a, hs⟩ := c
  cases s with
  | received => cases r <;> simp [toEvent] at h
  | requested | nacked _ => simp [toEvent] at h
  | doesNotExist => rfl

theorem result_eq_none : c.result? = none ↔ c.state = .requested := by
  obtain ⟨s, rs, a, h⟩ := c
  cases s with
  | received =>
    obtain ⟨r, rfl⟩ := Option.isSome_iff_exists.1 (h.trans rfl)
    simp [result?, toEvent, changed]
  | requested | nacked _ | doesNotExist => simp [result?, toEvent, changed]

theorem toEvent_eq (c : CachedResource B V) : c.toEvent = c.result?.map (.resourceChanged · .detached) := by
  obtain ⟨s, r, a, h⟩ := c
  cases s with
  | received => cases r <;> simp [result?, toEvent, changed]
  | requested | nacked _ | doesNotExist => simp [result?, toEvent, changed]

end CachedResource

/-! ## Type states -/

abbrev Cache (B V : Type) := HashMap String (CachedResource B V)

abbrev Watchers := HashMap WatcherId WatcherEntry

variable {ws : Watchers} {id : WatcherId}

structure TypeState (B V : Type) where
  typeUrl : String
  decoder : DecoderFn B V
  versionInfo : String
  nonce : String
  watchers : Watchers
  subscription : SubscriptionMode
  cache : Cache B V
  allResourcesRequiredInSotw : Bool

def Watchers.matching (order : IterOrder) (ws : Watchers) (name : String) : List WatcherId :=
  ((order.entries ws.entries).filter fun e => e.2.subscription.matchesName name).map (·.1)

def Watchers.subscription (ws : Watchers) : SubscriptionMode :=
  if ws.entries.any fun e => e.2.subscription.isWildcard then .wildcard
  else .named (ws.entries.filterMap fun e => e.2.subscription.name?).toFinset

namespace TypeState

def new (typeUrl : String) (decoder : DecoderFn B V) (allResourcesRequiredInSotw : Bool) : TypeState B V where
  typeUrl := typeUrl
  decoder := decoder
  versionInfo := ""
  nonce := ""
  watchers := ∅
  subscription := .named ∅
  cache := ∅
  allResourcesRequiredInSotw := allResourcesRequiredInSotw

def recalculateSubscriptions (ts : TypeState B V) : TypeState B V :=
  { ts with subscription := ts.watchers.subscription }

def resourceNamesForRequest (order : IterOrder) (ts : TypeState B V) : List String :=
  ts.subscription.resourceNamesForRequest order

def matchingWatchers (order : IterOrder) (ts : TypeState B V) (name : String) : List WatcherId :=
  ts.watchers.matching order name

def snapshot (ts : TypeState B V) : List (ResourceSnapshot B) :=
  (ts.cache.entries.filter fun e => ts.subscription.includes e.1).map fun e =>
    { typeUrl := ts.typeUrl, name := e.1, status := e.2.state.status, accepted := e.2.accepted,
      rejected := e.2.state.rejected? }

def resourceStateCounts (ts : TypeState B V) : HashMap String Int :=
  ts.cache.entries.foldl
    (fun counts e => counts.insert e.2.state.cacheStateLabel ((counts.lookup e.2.state.cacheStateLabel).getD 0 + 1)) ∅

end TypeState

/-! ## What a set of watchers subscribes to -/

theorem Watchers.mem_matching :
    id ∈ ws.matching o name ↔ ∃ e, ws.lookup id = some e ∧ e.subscription.matchesName name = true := by
  simp only [matching, List.mem_map, List.mem_filter, o.mem_entries]
  constructor
  · rintro ⟨⟨k, e⟩, ⟨he, hm⟩, rfl⟩
    exact ⟨e, HashMap.mem_entries.1 he, hm⟩
  · rintro ⟨e, he, hm⟩
    exact ⟨⟨id, e⟩, ⟨HashMap.mem_entries.2 he, hm⟩, rfl⟩

theorem Watchers.subscription_eq_wildcard :
    ws.subscription = .wildcard ↔ ∃ id e, ws.lookup id = some e ∧ e.subscription = .wildcard := by
  have hw : ∀ s : WatcherSubscription, s.isWildcard = true ↔ s = .wildcard := fun s => by
    cases s <;> simp [WatcherSubscription.isWildcard]
  rw [subscription]
  split
  · rename_i h
    obtain ⟨⟨id, e⟩, he, hs⟩ := List.any_eq_true.1 h
    exact iff_of_true rfl ⟨id, e, HashMap.mem_entries.1 he, (hw _).1 hs⟩
  · rename_i h
    simp only [reduceCtorEq, false_iff]
    rintro ⟨id, e, he, hs⟩
    exact h (List.any_eq_true.2 ⟨⟨id, e⟩, HashMap.mem_entries.2 he, (hw _).2 hs⟩)

theorem Watchers.mem_names {ns : Finset String} (h : ws.subscription = .named ns) :
    name ∈ ns ↔ ∃ id e, ws.lookup id = some e ∧ e.subscription = .named name := by
  have hn : ∀ s : WatcherSubscription, s.name? = some name ↔ s = .named name := fun s => by
    cases s <;> simp [WatcherSubscription.name?]
  rw [subscription] at h
  split at h
  · cases h
  · injection h with h
    simp only [← h, List.mem_toFinset, List.mem_filterMap, hn]
    constructor
    · rintro ⟨⟨id, e⟩, he, hs⟩
      exact ⟨id, e, HashMap.mem_entries.1 he, hs⟩
    · rintro ⟨id, e, he, hs⟩
      exact ⟨⟨id, e⟩, HashMap.mem_entries.2 he, hs⟩

theorem Watchers.includes_of_watched {e : WatcherEntry} (he : ws.lookup id = some e)
    (hs : e.subscription.matchesName name = true) : ws.subscription.includes name = true := by
  cases h : ws.subscription with
  | wildcard => rfl
  | named ns =>
    cases hk : e.subscription with
    | wildcard => rw [Watchers.subscription_eq_wildcard.2 ⟨id, e, he, hk⟩] at h; cases h
    | named n =>
      obtain rfl : n = name := by simpa [hk, WatcherSubscription.matchesName] using hs
      simpa [SubscriptionMode.includes] using (Watchers.mem_names h).2 ⟨id, e, he, hk⟩

theorem Watchers.names_eq_nil (h : ws.subscription.resourceNamesForRequest o = []) :
    ws.subscription = .wildcard ∨ ∀ id, ws.lookup id = none := by
  cases hs : ws.subscription with
  | wildcard => exact .inl rfl
  | named ns =>
    right
    intro id
    by_contra hne
    obtain ⟨e, he⟩ := Option.ne_none_iff_exists'.1 hne
    rw [hs] at h
    have hempty := o.set_eq_nil h
    cases hk : e.subscription with
    | wildcard => rw [Watchers.subscription_eq_wildcard.2 ⟨id, e, he, hk⟩] at hs; cases hs
    | named n =>
      have := (Watchers.mem_names hs).2 ⟨id, e, he, hk⟩
      simp [hempty] at this

end XdsClient
