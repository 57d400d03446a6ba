import GrpcRust.LoadBalancing.GracefulSwitch
/-!
# The priority policy

`client/load_balancing/priority/mod.rs`: children are created when needed; the first usable one is current. The child
policy is arbitrary. The debug assertion of `resolver_update` is a panic.
-/

namespace LoadBalancing

open Lib

variable {D R P C W K E : Type}

/-! ## Endpoints -/

structure PathEndpoint (D : Type) where
  endpoint : D
  path : Option (List String)

structure PathUpdate (D R : Type) where
  endpoints : Except String (List (PathEndpoint D))
  rest : R

def PathUpdate.withEndpoints (update : PathUpdate D R) (endpoints : Except String (List (PathEndpoint D))) :
    PathUpdate D R :=
  { update with endpoints := endpoints }

def groupByPath (endpoints : List (PathEndpoint D)) : HashMap String (List (PathEndpoint D)) :=
  endpoints.foldl (fun groups endpoint =>
    match endpoint.path with
    | some (name :: path) =>
      groups.insert name ((groups.lookup name).getD [] ++ [{ endpoint with path := some path }])
    | _ => groups) ∅

namespace Priority

/-! ## Children -/

structure PriorityChildConfig (C : Type) where
  config : C
  ignoreReresolutionRequests : Bool

structure PriorityConfig (C : Type) where
  priorities : List String
  children : HashMap String (PriorityChildConfig C)

def PriorityConfig.orderedChildren (config : PriorityConfig C) : List (String × PriorityChildConfig C) :=
  config.priorities.filterMap fun name => (config.children.lookup name).map (name, ·)

structure Timer where
  expired : Bool
deriving DecidableEq

def Timer.new : Timer := ⟨false⟩

inductive ChildState where
  | connecting (timer : Timer)
  | connectingExpired
  | transientFailure
  | readyOrIdle
deriving DecidableEq

def ChildState.fromConnectivityState : ConnectivityState → ChildState
  | .idle | .ready => .readyOrIdle
  | .connecting => .connecting .new
  | .transientFailure => .transientFailure

def ChildState.update : ChildState → ConnectivityState → ChildState
  | .connecting timer, .connecting => if timer.expired then .connectingExpired else .connecting timer
  -- No second timer before the child has been ready or idle.
  | .connectingExpired, .connecting => .connectingExpired
  | .transientFailure, .connecting => .connectingExpired
  | _, connectivityState => fromConnectivityState connectivityState

structure CreatedChild (P K : Type) where
  policy : Child P K
  state : ChildState
  deactivationTimer : Option Timer

def CreatedChild.updateState (child : CreatedChild P K) : CreatedChild P K :=
  { child with state := child.state.update child.policy.state.connectivityState }

structure ChildData (D R P C K : Type) where
  name : String
  childConfig : PriorityChildConfig C
  latestUpdate : PathUpdate D R
  child : Option (CreatedChild P K)

namespace ChildData

def prune (data : ChildData D R P C K) : ChildData D R P C K :=
  match data.child with
  | some child => if child.deactivationTimer.any (·.expired) then { data with child := none } else data
  | none => data

def updateState (data : ChildData D R P C K) : ChildData D R P C K :=
  { data with child := data.child.map .updateState }

def deactivate (data : ChildData D R P C K) : ChildData D R P C K :=
  { data with child := data.child.map fun child =>
      { child with deactivationTimer := child.deactivationTimer.or (some .new) } }

end ChildData

/-! ## The policy -/

inductive PriorityPanic (E : Type) where
  | child (panic : E)
  | index
  /-- "cannot set priority to uninitialized child; child must be initialized first" -/
  | uninitializedChild
  /-- "endpoints contain paths not belonging to any child" -/
  | unknownPaths

inductive PriorityWork (W : Type) where
  | timer
  | child (item : ChildWorkItem W)

/-- The policy, the next allocation for a handle or picker, and what it asks of the channel in this call. -/
structure PriorityPolicy (D R P C K : Type) where
  children : List (ChildData D R P C K)
  currentPriority : Option Nat
  publishedLbState : Option (LbState K)
  nextId : Nat
  requests : List (Request K)

namespace PriorityPolicy

def build : PriorityPolicy D R P C K := ⟨[], none, none, 0, []⟩

def emit (p : PriorityPolicy D R P C K) (requests : List (Request K)) : PriorityPolicy D R P C K :=
  { p with requests := p.requests ++ requests }

def handleDeactivationTimer (p : PriorityPolicy D R P C K) : PriorityPolicy D R P C K :=
  { p with children := p.children.map .prune }

def updateChildData (p : PriorityPolicy D R P C K) : PriorityPolicy D R P C K :=
  { p with children := p.children.map .updateState }

section
variable [DecidableEq K]

def updatePicker (p : PriorityPolicy D R P C K) (lbState : LbState K) : PriorityPolicy D R P C K :=
  if p.publishedLbState = some lbState then p
  else { p with publishedLbState := some lbState }.emit [.updatePicker lbState]

def setCurrentPriority (p : PriorityPolicy D R P C K) (index : Nat) (deactivateLowerPriorities : Bool) :
    Except (PriorityPanic E) (PriorityPolicy D R P C K) :=
  let p :=
    if deactivateLowerPriorities then
      { p with children := p.children.take (index + 1) ++ (p.children.drop (index + 1)).map .deactivate }
    else p
  let p := { p with currentPriority := some index }
  match p.children[index]? with
  | none => .error .index
  | some data =>
    match data.child with
    | none => .error .uninitializedChild
    | some child => .ok (p.updatePicker child.policy.state)

end

variable [LbPolicy P (PathUpdate D R) C W K E] (builder : LbPolicyBuilder P)

def updateChildPolicy (policy : Child P K) (update : PathUpdate D R) (childConfig : PriorityChildConfig C) :
    Except (PriorityPanic E) (Child P K × List (Request K) × Except String Unit) :=
  ((policy.setSuppressResolution childConfig.ignoreReresolutionRequests).resolverUpdate update
    childConfig.config).mapError .child

def activate (p : PriorityPolicy D R P C K) (data : ChildData D R P C K) :
    Except (PriorityPanic E) (PriorityPolicy D R P C K × CreatedChild P K) :=
  match data.child with
  | some child => .ok (p, { child with deactivationTimer := none })
  | none => do
    let (policy, requests, result) ← updateChildPolicy (.new builder p.nextId) data.latestUpdate data.childConfig
    let requests := match result with
      | .ok () => requests
      | .error _ => requests ++ [.requestResolution]
    return ({ p with nextId := p.nextId + 1 }.emit requests,
      ⟨policy, .fromConnectivityState policy.state.connectivityState, none⟩)

/-- The first loop of `choose_priority`, from `idx` on; with the arguments of `set_current_priority`. -/
def search (p : PriorityPolicy D R P C K) (idx : Nat) : List (ChildData D R P C K) →
    Except (PriorityPanic E) (PriorityPolicy D R P C K × List (ChildData D R P C K) × Option (Nat × Bool))
  | [] => .ok (p, [], none)
  | data :: rest => do
    let (p, child) ← p.activate builder data
    let data := { data with child := some child }
    match child.state with
    | .connecting _ => return (p, data :: rest, some (idx, false))
    | .readyOrIdle => return (p, data :: rest, some (idx, true))
    | .connectingExpired | .transientFailure =>
      let (p, rest, found) ← p.search (idx + 1) rest
      return (p, data :: rest, found)

variable [DecidableEq K]

def choosePriority (p : PriorityPolicy D R P C K) : Except (PriorityPanic E) (PriorityPolicy D R P C K) :=
  if p.children.isEmpty then
    .ok ({ p with currentPriority := none, nextId := p.nextId + 1 }.updatePicker
      ⟨.transientFailure, .failing p.nextId "priority policy has empty priority list"⟩)
  else do
    let (p, children, found) ← p.search builder 0 p.children
    let p := { p with children := children }
    match found with
    | some (idx, deactivate) => p.setCurrentPriority idx deactivate
    | none =>
      match p.children.findIdx? fun data => data.child.any fun child => decide (child.state = .connectingExpired) with
      | some idx => p.setCurrentPriority idx false
      | none => p.setCurrentPriority (p.children.length - 1) false

def reconcile (p : PriorityPolicy D R P C K) : Except (PriorityPanic E) (PriorityPolicy D R P C K) :=
  p.handleDeactivationTimer.updateChildData.choosePriority builder

end PriorityPolicy

/-! ## The calls of the channel -/

structure Reorder (D R P C K : Type) where
  sharded : Except String (HashMap String (List (PathEndpoint D)))
  old : HashMap String (ChildData D R P C K)
  children : List (ChildData D R P C K)

def Reorder.add (update : PathUpdate D R) (r : Reorder D R P C K) (entry : String × PriorityChildConfig C) :
    Reorder D R P C K :=
  let (name, childConfig) := entry
  let endpoints := r.sharded.map fun grouped => (grouped.lookup name).getD []
  let update := update.withEndpoints endpoints
  let data := match r.old.lookup name with
    | some data => { data with childConfig := childConfig, latestUpdate := update }
    | none => ⟨name, childConfig, update, none⟩
  { sharded := r.sharded.map (·.erase name), old := r.old.erase name, children := r.children ++ [data] }

namespace PriorityPolicy

def reorder (p : PriorityPolicy D R P C K) (update : PathUpdate D R) (config : PriorityConfig C) : Reorder D R P C K :=
  config.orderedChildren.foldl (Reorder.add update)
    ⟨update.endpoints.map groupByPath, p.children.foldl (fun old data => old.insert data.name data) ∅, []⟩

variable [LbPolicy P (PathUpdate D R) C W K E]

/-- The children that have been created are updated: what is passed on, and their errors. -/
def updateCreated : List (ChildData D R P C K) →
    Except (PriorityPanic E) (List (ChildData D R P C K) × List (Request K) × List String)
  | [] => .ok ([], [], [])
  | data :: rest =>
    match data.child with
    | none => do
      let (rest, requests, errs) ← updateCreated rest
      return (data :: rest, requests, errs)
    | some child => do
      let (policy, passed, result) ← updateChildPolicy child.policy data.latestUpdate data.childConfig
      let (rest, requests, errs) ← updateCreated rest
      let errs := match result with
        | .ok () => errs
        | .error err => err :: errs
      return ({ data with child := some { child with policy := policy } } :: rest, passed ++ requests, errs)

def offerWork (item : ChildWorkItem W) : List (ChildData D R P C K) →
    Except (PriorityPanic E) (List (ChildData D R P C K) × List (Request K))
  | [] => .ok ([], [])
  | data :: rest =>
    match data.child with
    | none => do
      let (rest, requests) ← offerWork item rest
      return (data :: rest, requests)
    | some child => do
      match ← (child.policy.tryWork item).mapError PriorityPanic.child with
      | some (policy, requests) =>
        return ({ data with child := some { child with policy := policy } } :: rest, requests)
      | none =>
        let (rest, requests) ← offerWork item rest
        return (data :: rest, requests)

variable [DecidableEq K] (builder : LbPolicyBuilder P)

def resolverUpdate (p : PriorityPolicy D R P C K) (update : PathUpdate D R) (config : PriorityConfig C) :
    Except (PriorityPanic E) (PriorityPolicy D R P C K × Except String Unit) :=
  let r := p.reorder update config
  if r.sharded.toOption.all HashMap.isEmpty then do
    let (children, requests, errs) ← updateCreated r.children
    let p ← ({ p with children := children }.emit requests).reconcile builder
    return (p, if errs.isEmpty then .ok () else .error ("; ".intercalate errs))
  else .error .unknownPaths

def work (p : PriorityPolicy D R P C K) (data : Option (PriorityWork W)) :
    Except (PriorityPanic E) (PriorityPolicy D R P C K) :=
  match data with
  | some (.child item) => do
    let (children, requests) ← offerWork item p.children
    ({ p with children := children }.emit requests).reconcile builder
  | _ => p.reconcile builder

def exitIdle (p : PriorityPolicy D R P C K) : Except (PriorityPanic E) (PriorityPolicy D R P C K) :=
  match p.currentPriority with
  | none => .ok p
  | some idx =>
    match p.children[idx]? with
    | none => .error .index
    | some data =>
      match data.child with
      | none => .ok p
      | some child => do
        let (policy, requests) ← child.policy.exitIdle.mapError PriorityPanic.child
        let data := { data with child := some { child with policy := policy } }
        ({ p with children := p.children.set idx data }.emit requests).reconcile builder

end PriorityPolicy

end Priority

end LoadBalancing
