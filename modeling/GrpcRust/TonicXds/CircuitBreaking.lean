import GrpcRust.Lib.HashMap
import GrpcRust.Lib.Transition
/-!
# Circuit breaking

`circuit_breaking.rs`: counters are shared by `{cluster, EDS service name}`; a registry has one state per cluster, and
a permit keeps its config. An `Arc` is a token in the place that holds it (`arcs`, `handles`).
-/

namespace TonicXds

open Lib

structure CounterKey where
  cluster : String
  edsServiceName : String
deriving DecidableEq

/-! ## The counters -/

structure InFlightCounter where
  inFlight : UInt32
  activeRefs : Nat
deriving DecidableEq, Inhabited

namespace InFlightCounter

variable (counter : InFlightCounter)

def activate : InFlightCounter := { counter with activeRefs := counter.activeRefs + 1 }

def deactivate (counter : InFlightCounter) : Except String InFlightCounter :=
  if counter.activeRefs = 0 then .error "attempted to deactivate an inactive circuit breaker counter"
  else .ok { counter with activeRefs := counter.activeRefs - 1 }

def tryAcquire (limit : UInt32) (counter : InFlightCounter) : Option InFlightCounter :=
  if counter.inFlight ≥ limit then none else some { counter with inFlight := counter.inFlight + 1 }

def release (counter : InFlightCounter) : Except String InFlightCounter :=
  if counter.inFlight > 0 then .ok { counter with inFlight := counter.inFlight - 1 }
  else .error "attempted to release an inactive circuit breaker permit"

def isUnused : Bool := counter.inFlight == 0 && counter.activeRefs == 0

end InFlightCounter

structure CircuitBreakerRuntimeConfig where
  maxRequests : UInt32
  counterKey : CounterKey
  counter : Nat
deriving DecidableEq

/-- `PartialEq` does not compare the counters. -/
def CircuitBreakerRuntimeConfig.eq (a b : CircuitBreakerRuntimeConfig) : Bool :=
  a.maxRequests == b.maxRequests && a.counterKey == b.counterKey

structure ConfigArc where
  address : Nat
  config : CircuitBreakerRuntimeConfig
deriving DecidableEq

structure ClusterCircuitBreakerState where
  config : Option ConfigArc
  droppedRequests : UInt64

structure ClusterCircuitBreakerRegistry where
  configs : HashMap String Nat
  dropped : Bool

/-- The process: the counters, all registries, and what is held of them outside and during a call. -/
structure CircuitBreakers where
  counters : HashMap CounterKey Nat
  cell : Nat → InFlightCounter
  nextCounter : Nat
  nextConfig : Nat
  states : List ClusterCircuitBreakerState
  registries : List ClusterCircuitBreakerRegistry
  breakers : List Nat
  permits : List ConfigArc
  arcs : List ConfigArc
  handles : List Nat

namespace CircuitBreakers

variable (w : CircuitBreakers) (state : Nat) (config : CircuitBreakerRuntimeConfig) (arc : ConfigArc)

def configured : List ConfigArc := w.states.filterMap (·.config)

def tokens : List ConfigArc := w.configured ++ w.permits ++ w.arcs

/-- `Arc::strong_count` of a counter: the map, the live configs and the running call have one each. -/
def strongCount (counter : Nat) : Nat :=
  w.counters.entries.countP (·.2 = counter) + w.tokens.dedup.countP (·.config.counter = counter) +
    w.handles.count counter

def setCell (counter : Nat) (value : InFlightCounter) (w : CircuitBreakers) : CircuitBreakers :=
  { w with cell := Function.update w.cell counter value }

def dropArc (w : CircuitBreakers) : CircuitBreakers := { w with arcs := w.arcs.erase arc }

def dropHandle (counter : Nat) (w : CircuitBreakers) : CircuitBreakers :=
  { w with handles := w.handles.erase counter }

def counter (key : CounterKey) (w : CircuitBreakers) : Nat × CircuitBreakers :=
  match w.counters.lookup key with
  | some address => (address, { w with handles := address :: w.handles })
  | none =>
    (w.nextCounter, { w with
      counters := w.counters.insert key w.nextCounter
      cell := Function.update w.cell w.nextCounter default
      nextCounter := w.nextCounter + 1
      handles := w.nextCounter :: w.handles })

def cleanupIfUnused (key : CounterKey) (w : CircuitBreakers) : CircuitBreakers :=
  match w.counters.lookup key with
  | some address =>
    if (w.cell address).isUnused ∧ w.strongCount address = 1 then { w with counters := w.counters.erase key } else w
  | none => w

/-- An `Arc` of the call is given up, and with the last one the counter goes if nothing else uses it. -/
def dropConfig (w : CircuitBreakers) : CircuitBreakers :=
  let w := w.dropArc arc
  -- `Arc::into_inner` returns `None` while another `Arc` is left.
  if arc ∈ w.tokens then w
  else
    let w := { w with handles := arc.config.counter :: w.handles }
    let shouldCleanup := (w.cell arc.config.counter).isUnused
    let w := w.dropHandle arc.config.counter
    if shouldCleanup then w.cleanupIfUnused arc.config.counterKey else w

/-! ## A state and its config -/

def currentConfig : Option ConfigArc := w.states[state]?.bind (·.config)

def swapConfig (config : Option ConfigArc) (w : CircuitBreakers) : Option ConfigArc × CircuitBreakers :=
  (w.currentConfig state, { w with
    states := w.states.modify state fun st => { st with config }
    arcs := (w.currentConfig state).toList ++ w.arcs.diff config.toList })

def newConfig (w : CircuitBreakers) : ConfigArc × CircuitBreakers :=
  (⟨w.nextConfig, config⟩, { w with
    nextConfig := w.nextConfig + 1
    handles := w.handles.erase config.counter
    arcs := ⟨w.nextConfig, config⟩ :: w.arcs })

def recordDrop (w : CircuitBreakers) : CircuitBreakers :=
  { w with states := w.states.modify state fun st => { st with droppedRequests := st.droppedRequests + 1 } }

def deactivateConfig (w : CircuitBreakers) : Except String CircuitBreakers :=
  (w.cell arc.config.counter).deactivate.map fun value =>
    ((w.setCell arc.config.counter value).dropArc arc).cleanupIfUnused arc.config.counterKey

def updateStateConfig (w : CircuitBreakers) : Except String CircuitBreakers :=
  let previous := w.currentConfig state
  let w := { w with arcs := previous.toList ++ w.arcs }
  if previous.any (·.config.eq config) then
    .ok (CircuitBreakers.dropHandle config.counter { w with arcs := w.arcs.diff previous.toList })
  else
    let counterKeyChanged := previous.all (·.config.counterKey ≠ config.counterKey)
    let w := if counterKeyChanged then w.setCell config.counter (w.cell config.counter).activate else w
    -- `drop(previous)`
    let w := { w with arcs := w.arcs.diff previous.toList }
    let (arc, w) := w.newConfig config
    let (previous, w) := w.swapConfig state (some arc)
    match previous with
    | none => .ok w
    | some previous => if counterKeyChanged then w.deactivateConfig previous else .ok (w.dropArc previous)

/-! ## The registries -/

def ensureState (registry : Nat) (cluster : String) (w : CircuitBreakers) : Nat × CircuitBreakers :=
  match w.registries[registry]?.bind (·.configs.lookup cluster) with
  | some state => (state, w)
  | none =>
    (w.states.length, { w with
      states := w.states ++ [⟨none, 0⟩]
      registries := w.registries.modify registry fun r =>
        { r with configs := r.configs.insert cluster w.states.length } })

def setClusterConfig (registry : Nat) (cluster edsServiceName : String) (maxRequests : UInt32) (w : CircuitBreakers) :
    Except String CircuitBreakers :=
  let counterKey : CounterKey := ⟨cluster, edsServiceName⟩
  let (counter, w) := w.counter counterKey
  let (state, w) := w.ensureState registry cluster
  w.updateStateConfig state { maxRequests, counterKey, counter }

def clusterBreaker (registry : Nat) (cluster : String) (w : CircuitBreakers) : CircuitBreakers :=
  let (state, w) := w.ensureState registry cluster
  { w with breakers := w.breakers ++ [state] }

/-- One turn of the loop of the registry's `drop`; it has the lines of `deactivate_config`. -/
def dropState (w : CircuitBreakers) : Except String CircuitBreakers :=
  let (previous, w) := w.swapConfig state none
  match previous with
  | none => .ok w
  | some previous => w.deactivateConfig previous

/-! ## Permits -/

/-- The results of `acquire`: no limit is configured, a permit, or the limit that is reached. -/
inductive Acquired where
  | unlimited
  | permit (config : ConfigArc)
  | limit (maxRequests : UInt32)
deriving DecidableEq

def acquire (w : CircuitBreakers) : Acquired × CircuitBreakers :=
  match w.currentConfig state with
  | none => (.unlimited, w)
  | some arc =>
    let w := { w with arcs := arc :: w.arcs }
    match (w.cell arc.config.counter).tryAcquire arc.config.maxRequests with
    | some value =>
      (.permit arc, { w.setCell arc.config.counter value with permits := w.permits ++ [arc], arcs := w.arcs.erase arc })
    | none => (.limit arc.config.maxRequests, (w.dropConfig arc).recordDrop state)

def dropPermit (permit : Nat) (arc : ConfigArc) (w : CircuitBreakers) : Except String CircuitBreakers :=
  (w.cell arc.config.counter).release.map fun value =>
    CircuitBreakers.dropConfig arc { w.setCell arc.config.counter value with
      permits := w.permits.eraseIdx permit, arcs := arc :: w.arcs }

end CircuitBreakers

inductive CircuitBreakerEvent where
  | newRegistry
  | setClusterConfig (registry : Nat) (cluster edsServiceName : String) (maxRequests : UInt32)
  | clusterBreaker (registry : Nat) (cluster : String)
  | acquire (breaker : Nat)
  | dropPermit (permit : Nat)
  | dropRegistry (registry : Nat)
  | dropState (registry : Nat) (cluster : String)

namespace CircuitBreakers

def init : CircuitBreakers where
  counters := ∅
  cell _ := default
  nextCounter := 0
  nextConfig := 0
  states := []
  registries := []
  breakers := []
  permits := []
  arcs := []
  handles := []

def step (w : CircuitBreakers) : CircuitBreakerEvent → Option (Except String CircuitBreakers)
  | .newRegistry => some (.ok { w with registries := w.registries ++ [⟨∅, false⟩] })
  | .setClusterConfig registry cluster edsServiceName maxRequests =>
    if w.registries[registry]?.any (!·.dropped) then
      some (w.setClusterConfig registry cluster edsServiceName maxRequests)
    else none
  | .clusterBreaker registry cluster =>
    if w.registries[registry]?.any (!·.dropped) then some (.ok (w.clusterBreaker registry cluster)) else none
  | .acquire breaker => w.breakers[breaker]?.map fun state => .ok (w.acquire state).2
  | .dropPermit permit => w.permits[permit]?.map fun arc => w.dropPermit permit arc
  | .dropRegistry registry =>
    if w.registries[registry]?.any (!·.dropped) then
      some (.ok { w with registries := w.registries.modify registry fun r => { r with dropped := true } })
    else none
  | .dropState registry cluster =>
    (w.registries[registry]?.bind fun r => if r.dropped then r.configs.lookup cluster else none).map fun state =>
      w.dropState state

end CircuitBreakers

def circuitBreaking : Transition (Except String CircuitBreakers) CircuitBreakerEvent where
  init := .ok .init
  step
    | .ok w, event => w.step event
    | .error _, _ => none

end TonicXds
