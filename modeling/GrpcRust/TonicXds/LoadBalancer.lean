import GrpcRust.Lib.Transition
import GrpcRust.TonicXds.EndpointManager
import GrpcRust.TonicXds.KeyedFutures
import GrpcRust.TonicXds.OutlierDetection
/-!
# The load balancer

`client/loadbalance/loadbalancer.rs`, with `channel_state.rs`: `poll_ready` moves endpoints in five phases. Sweeps go
on between any two steps; a step makes at most one call on the registry.
-/

namespace TonicXds

open Lib

/-! ## States -/

structure EjectedChannel where
  outlier : Nat
  due : Nat
  needsReconnect : Bool

inductive Discovered
  | pending
  | closed
  | failed
deriving DecidableEq

inductive PollReady
  | pending
  | ready
  | stagnation
deriving DecidableEq

inductive LbPhase (K : Type)
  | idle
  | discovering (membersChanged : Bool)
  | unejecting (discovered : Discovered)
  | connecting (discovered : Discovered)
  | placing (discovered : Discovered) (addr : K) (outlier : Nat)
  | requesting (discovered : Discovered)
  | ejecting (discovered : Discovered) (now : Nat) (rest : List K)
  /-- About to un-eject a channel whose time is over, for the loop over a snapshot if there is one. -/
  | restoring (discovered : Discovered) (addr : K) (outlier : Nat) (loop : Option (Nat × List K))
  | deciding (discovered : Discovered)

def LbPhase.inHand {K : Type} : LbPhase K → Option (K × Nat)
  | placing _ addr outlier | restoring _ addr outlier _ => some (addr, outlier)
  | _ => none

/-- `given` and `changes` record what discovery has sent. -/
structure LoadBalancer (K : Type) [DecidableEq K] where
  connecting : KeyedFutures K Unit
  ready : HashMap K Nat
  members : Finset K
  ejected : KeyedFutures K EjectedChannel
  given : Finset K
  changes : List (Change K)
  phase : LbPhase K
  polled : Option PollReady

namespace LoadBalancer
variable {K : Type} [DecidableEq K]

def new : LoadBalancer K where
  connecting := .new
  ready := ∅
  members := ∅
  ejected := .new
  given := ∅
  changes := []
  phase := .idle
  polled := none

def forget (lb : LoadBalancer K) (addr : K) : LoadBalancer K :=
  { lb with
    connecting := lb.connecting.without addr
    ready := lb.ready.erase addr
    ejected := lb.ejected.without addr }

def apply (lb : LoadBalancer K) (change : Change K) (membersChanged : Bool) : LoadBalancer K :=
  { lb with
    members := change.apply lb.members
    changes := lb.changes ++ [change]
    phase := .discovering (membersChanged || decide (change.apply lb.members ≠ lb.members)) }

end LoadBalancer

/-! ## The system -/

structure Balancing (K : Type) [DecidableEq K] where
  now : Nat
  registry : OutlierStatsRegistry K
  sweep : Sweep
  lb : LoadBalancer K
  inFlight : List Nat

inductive LbEvent (K : Type)
  | pollReady
  | discover (change : Change K)
  | discovered (result : Discovered)
  | reapEjected (token : Nat)
  | uneject (token : Nat)
  | unejected
  | reapConnecting (token : Nat)
  | connect (token : Nat)
  | connected
  | place
  | restore
  | pollSnapshot
  | request (addr : K)
  | requested
  | decide

inductive BalancingEvent (K : Type)
  | advance (time : Nat)
  | sweep (event : SweepEvent K)
  | lb (event : LbEvent K)
  | call (addr : K)
  | outcome (i : Nat) (success : Bool)

namespace Balancing
variable {K : Type} [DecidableEq K]

def new : Balancing K where
  now := 0
  registry := .new
  sweep := .idle
  lb := .new
  inFlight := []

variable (config : OutlierDetectionConfig) (s : Balancing K) (discovered : Discovered) (addr : K)

def makeReady (outlier : Nat) (phase : LbPhase K) : Balancing K :=
  { s with lb := { s.lb with ready := s.lb.ready.insert addr outlier, phase := phase } }

def eject (outlier remaining : Nat) (phase : LbPhase K) : Balancing K :=
  let channel : EjectedChannel := { outlier := outlier, due := s.now + remaining, needsReconnect := false }
  { s with lb := { s.lb with ejected := s.lb.ejected.including addr channel, phase := phase } }

def discover (membersChanged : Bool) : Change K → Balancing K
  | .insert addr =>
    let lb := s.lb.forget addr
    { s with lb := { lb with connecting := lb.connecting.including addr () }.apply (.insert addr) membersChanged }
  | .remove addr =>
    { s with
      lb := (s.lb.forget addr).apply (.remove addr) membersChanged
      registry := s.registry.removeChannel addr }

def uneject (channel : EjectedChannel) (ejected : KeyedFutures K EjectedChannel) : Balancing K :=
  let s := { s with lb := { s.lb with ejected := ejected } }
  if channel.needsReconnect then
    -- never so: no policy asks for a new connection
    let (outlier, registry) := s.registry.addChannel s.now addr
    { s with
      registry := registry.noteUneject outlier
      lb := { s.lb with connecting := s.lb.connecting.including addr () } }
  else
    let s := { s with registry := s.registry.noteUneject channel.outlier }
    s.makeReady addr channel.outlier (.unejecting discovered)

def place (outlier : Nat) : Balancing K :=
  match s.registry.remainingEjection config outlier s.now with
  | none => s.makeReady addr outlier (.connecting discovered)
  | some 0 => { s with lb := { s.lb with phase := .restoring discovered addr outlier none } }
  | some remaining => s.eject addr outlier remaining (.connecting discovered)

def request (started : Nat) (rest : List K) (addr : K) : Balancing K :=
  let next := LbPhase.ejecting discovered started (rest.erase addr)
  match s.lb.ready.lookup addr with
  | none => { s with lb := { s.lb with phase := next } }
  | some outlier =>
    let s := { s with lb := { s.lb with ready := s.lb.ready.erase addr } }
    match s.registry.remainingEjection config outlier started with
    | none => s.makeReady addr outlier next
    | some 0 =>
      { s with lb := { s.lb with phase := .restoring discovered addr outlier (some (started, rest.erase addr)) } }
    | some remaining => s.eject addr outlier remaining next

def decide (lb : LoadBalancer K) (discovered : Discovered) : PollReady :=
  if ¬ lb.ready.isEmpty then .ready
  else if discovered = .closed ∧ lb.connecting.isEmpty then .stagnation
  else .pending

def lbStep (event : LbEvent K) : Option (Balancing K) :=
  match s.lb.phase, event with
  | .idle, .pollReady => some { s with lb := { s.lb with phase := .discovering false } }
  | .discovering membersChanged, .discover change => some (s.discover membersChanged change)
  | .discovering membersChanged, .discovered result =>
    let given := if membersChanged then s.lb.members else s.lb.given
    some { s with lb := { s.lb with given := given, phase := .unejecting result } }
  | .unejecting _, .reapEjected token =>
    (s.lb.ejected.reap token).map fun ejected => { s with lb := { s.lb with ejected := ejected } }
  | .unejecting discovered, .uneject token =>
    match s.lb.ejected.complete token with
    | some (future, ejected) =>
      if future.payload.due ≤ s.now then some (s.uneject discovered future.key future.payload ejected) else none
    | none => none
  | .unejecting discovered, .unejected => some { s with lb := { s.lb with phase := .connecting discovered } }
  | .connecting _, .reapConnecting token =>
    (s.lb.connecting.reap token).map fun connecting => { s with lb := { s.lb with connecting := connecting } }
  | .connecting discovered, .connect token =>
    match s.lb.connecting.complete token with
    | some (future, connecting) =>
      let (outlier, registry) := s.registry.addChannel s.now future.key
      some { s with
        registry := registry
        lb := { s.lb with connecting := connecting, phase := .placing discovered future.key outlier } }
    | none => none
  | .connecting discovered, .connected => some { s with lb := { s.lb with phase := .requesting discovered } }
  | .placing discovered addr outlier, .place => some (s.place config discovered addr outlier)
  | .restoring discovered addr outlier loop, .restore =>
    let next := match loop with
      | some (started, rest) => .ejecting discovered started rest
      | none => .connecting discovered
    some ({ s with registry := s.registry.noteUneject outlier }.makeReady addr outlier next)
  | .requesting discovered, .pollSnapshot =>
    match s.registry.snapshot with
    | some snapshot =>
      some { s with
        registry := { s.registry with snapshot := none }
        lb := { s.lb with phase := .ejecting discovered s.now snapshot.elems } }
    | none => some { s with lb := { s.lb with phase := .deciding discovered } }
  | .ejecting discovered started rest, .request addr =>
    if addr ∈ rest then some (s.request config discovered started rest addr) else none
  | .ejecting discovered _ [], .requested => some { s with lb := { s.lb with phase := .deciding discovered } }
  | .deciding discovered, .decide =>
    some { s with lb := { s.lb with phase := .idle, polled := some (decide s.lb discovered) } }
  | _, _ => none

def step (config : OutlierDetectionConfig) (test : SuccessRateTest) (s : Balancing K) :
    BalancingEvent K → Option (Balancing K)
  | .advance time => some { s with now := s.now + time }
  | .sweep event =>
    (s.sweep.step config test s.now s.registry event).map fun (registry, sweep) =>
      { s with registry := registry, sweep := sweep }
  | .lb event => s.lbStep config event
  | .call addr =>
    match s.lb.phase, s.lb.ready.lookup addr with
    | .idle, some outlier => some { s with inFlight := s.inFlight ++ [outlier] }
    | _, _ => none
  | .outcome i success =>
    match s.inFlight[i]? with
    | some outlier =>
      some { s with
        registry := s.registry.modify outlier (·.recordOutcome success) fun s => s.addr_recordOutcome success
        inFlight := s.inFlight.eraseIdx i }
    | none => none

end Balancing

def balancing (K : Type) [DecidableEq K] (config : OutlierDetectionConfig) (test : SuccessRateTest) :
    Transition (Balancing K) (BalancingEvent K) where
  init := .new
  step := Balancing.step config test

end TonicXds
