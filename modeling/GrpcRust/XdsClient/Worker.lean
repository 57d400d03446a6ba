import GrpcRust.Lib.Machine
import GrpcRust.XdsClient.TypeState
import GrpcRust.XdsClient.Metrics
/-!
# The ADS worker

`client/worker.rs`: `Actor.step` is one iteration of the loop of `AdsWorker::run`. What a turn sends is its output.
The world enters through `Env`.
-/

namespace XdsClient

open Lib

variable {B V : Type}

abbrev SessionId := Nat

inductive Effect (B V : Type) where
  /-- A request handed to the codec and the write channel of `session`, and how that went. -/
  | request (session : SessionId) (request : DiscoveryRequest) (outcome : Except Error Unit)
  | event (watcher : WatcherId) (event : ResourceEvent (DecodedResource V))
  | startTimer (typeUrl name : String) (timerId : UInt64)
  | measure (m : Measurement)
  | sawResponse (reply : Bool)
  | snapshot (reply : List (ResourceSnapshot B))
  | spawnTransport

structure Env where
  order : IterOrder
  now : Nat
  writable : DiscoveryRequest → Bool

structure Config (B : Type) where
  codec : Codec B
  node : Node
  resourceInitialTimeout : Option Nat
  servers : List String
  target : Option String
  recorder : Bool

inductive WatchEvent (B V : Type) where
  | watch (typeUrl name : String) (watcherId : WatcherId) (decoder : DecoderFn B V)
      (allResourcesRequiredInSotw : Bool)
  | unwatch (watcherId : WatcherId)
  | resourceTimerExpired (typeUrl name : String) (timerId : UInt64)

inductive TransportEvent (B : Type) where
  | ready (session : SessionId)
  | response (bytes : B) (done : ProcessingDone)
  | failed

inductive WorkerCommand (B V : Type) where
  | watcher (event : WatchEvent B V)
  | transport (event : TransportEvent B)
  | transportStopped
  | snapshot

structure ActiveStream where
  writes : SessionId
  cancel : Bool
  sawResponse : Bool

structure StreamContext where
  healthy : Bool
  session : Option ActiveStream

def StreamContext.active (context : StreamContext) : Option SessionId :=
  (context.session.filter (·.cancel)).map (·.writes)

structure AdsWorker (B V : Type) where
  typeStates : HashMap String (TypeState B V)
  resourceTimers : HashMap (String × String) UInt64
  nextResourceTimerId : UInt64
  recorder : RecorderHandle
  outbox : List (Effect B V)

namespace AdsWorker

def new (cfg : Config B) : AdsWorker B V where
  typeStates := ∅
  resourceTimers := ∅
  nextResourceTimerId := 0
  recorder := .new cfg.recorder (cfg.target.getD "")
  outbox := []

variable (cfg : Config B) (env : Env) (w : AdsWorker B V) (typeUrl : String)

def emit (effects : List (Effect B V)) : AdsWorker B V := { w with outbox := w.outbox ++ effects }

def setTypeState (ts : TypeState B V) : AdsWorker B V := { w with typeStates := w.typeStates.insert typeUrl ts }

def cancelTimer (typeUrl name : String) : AdsWorker B V :=
  { w with resourceTimers := w.resourceTimers.erase (typeUrl, name) }

def syncResourceCounts (env : Env) (w : AdsWorker B V) (typeUrl : String) (counts : HashMap String Int) :
    AdsWorker B V :=
  let synced := w.recorder.syncResourceCounts env.order typeUrl counts
  { w with recorder := synced.1 }.emit (synced.2.map .measure)

def notify (ts : TypeState B V) (name : String)
    (result : Except Error (DecodedResource V)) (done : ProcessingDone) : AdsWorker B V :=
  w.emit ((ts.matchingWatchers env.order name).map fun id => .event id (.resourceChanged result done))

/-! ## Watchers -/

/-- The new watcher's type state, what it is replayed, and whether its name is new to the cache. -/
def registerWatcher (typeState : TypeState B V) (name : String) (watcherId : WatcherId) :
    TypeState B V × List (Effect B V) × Bool :=
  let watcherSubscription := WatcherSubscription.fromName name
  let watchers := typeState.watchers.insert watcherId ⟨watcherSubscription⟩
  match watcherSubscription with
  | .wildcard => ({ typeState with watchers }.recalculateSubscriptions, [], false)
  | .named resourceName =>
    match typeState.cache.lookup resourceName with
    | none =>
      ({ typeState with watchers, cache := typeState.cache.insert resourceName .requested }.recalculateSubscriptions,
        [], true)
    | some cached =>
      ({ typeState with watchers }.recalculateSubscriptions, (cached.toEvent.map (.event watcherId)).toList, false)

def addWatcher (typeUrl name : String) (watcherId : WatcherId)
    (decoder : DecoderFn B V) (allResourcesRequiredInSotw : Bool) : AdsWorker B V × Bool :=
  let typeState := (w.typeStates.lookup typeUrl).getD (.new typeUrl decoder allResourcesRequiredInSotw)
  let registered := registerWatcher typeState name watcherId
  let ts := registered.1
  let w := (w.setTypeState typeUrl ts).emit registered.2.1
  let w := if registered.2.2 then w.syncResourceCounts env ts.typeUrl ts.resourceStateCounts else w
  (w, decide (ts.subscription ≠ typeState.subscription))

def dropWatcher (typeState : TypeState B V) (watcherId : WatcherId) : TypeState B V :=
  { typeState with watchers := typeState.watchers.erase watcherId }.recalculateSubscriptions

def removeType (typeState : TypeState B V) : AdsWorker B V :=
  let w := { w with typeStates := w.typeStates.erase typeUrl }.syncResourceCounts env typeState.typeUrl ∅
  { w with resourceTimers := HashMap.retain (fun key _ => decide (key.1 ≠ typeUrl)) w.resourceTimers }

def removeWatcher (watcherId : WatcherId) : AdsWorker B V × Option (String × Bool) :=
  match (env.order.entries w.typeStates.entries).find? fun e => (e.2.watchers.lookup watcherId).isSome with
  | none => (w, none)
  | some ⟨typeUrl, typeState⟩ =>
    let ts := dropWatcher typeState watcherId
    let subscriptionsChanged := decide (ts.subscription ≠ typeState.subscription)
    if HashMap.isEmpty ts.watchers then (w.removeType env typeUrl ts, some (typeUrl, subscriptionsChanged))
    else (w.setTypeState typeUrl ts, some (typeUrl, subscriptionsChanged))

/-! ## Requests and resource timers -/

def write (session : SessionId) (request : DiscoveryRequest) : AdsWorker B V × Except Error Unit :=
  let outcome := match cfg.codec.encodeRequest request with
    | .error e => .error e
    | .ok _ => if env.writable request then .ok () else .error .streamClosed
  (w.emit [.request session request outcome], outcome)

def startResourceTimer (w : AdsWorker B V) (name : String) : AdsWorker B V :=
  -- An existing timer is not reset: the timeout starts on the first request.
  if (w.resourceTimers.lookup (typeUrl, name)).isSome then w
  else
    { w with
      resourceTimers := w.resourceTimers.insert (typeUrl, name) w.nextResourceTimerId
      nextResourceTimerId := w.nextResourceTimerId + 1 }.emit [.startTimer typeUrl name w.nextResourceTimerId]

def pendingNames (ts : TypeState B V) : List String :=
  (env.order.entries ts.watchers.entries).filterMap fun e =>
    match e.2.subscription with
    | .named name => if (ts.cache.lookup name).any (·.isRequested) then some name else none
    | .wildcard => none

def startPendingResourceTimers : AdsWorker B V :=
  match cfg.resourceInitialTimeout, w.typeStates.lookup typeUrl with
  | some _, some ts => (pendingNames env ts).foldl (startResourceTimer typeUrl) w
  | _, _ => w

def plainRequest (ts : TypeState B V) : DiscoveryRequest :=
  { node := cfg.node, typeUrl, resourceNames := ts.resourceNamesForRequest env.order,
    versionInfo := ts.versionInfo, responseNonce := ts.nonce, errorDetail := none }

def sendRequest (session : SessionId) (typeUrl : String) : AdsWorker B V × Except Error Unit :=
  match w.typeStates.lookup typeUrl with
  | none => (w, .ok ())
  | some ts =>
    let sent := w.write cfg env session (plainRequest cfg env typeUrl ts)
    match sent.2 with
    | .ok () => (sent.1.startPendingResourceTimers cfg env typeUrl, .ok ())
    | .error e => (sent.1, .error e)

def sendRequests (cfg : Config B) (env : Env) (session : SessionId) :
    AdsWorker B V → List String → AdsWorker B V × Except Error Unit
  | w, [] => (w, .ok ())
  | w, typeUrl :: rest =>
    let sent := w.sendRequest cfg env session typeUrl
    match sent.2 with
    | .ok () => sendRequests cfg env session sent.1 rest
    | .error e => (sent.1, .error e)

def sendInitialRequests (session : SessionId) : AdsWorker B V × Except Error Unit :=
  sendRequests cfg env session w
    (((env.order.entries w.typeStates.entries).filter fun e => !HashMap.isEmpty e.2.watchers).map (·.1))

def handleResourceTimeout (typeUrl name : String) (timerId : UInt64) : AdsWorker B V :=
  -- Cancellation cannot retract an expiration already in the command queue.
  if w.resourceTimers.lookup (typeUrl, name) ≠ some timerId then w
  else
    let w := w.cancelTimer typeUrl name
    match w.typeStates.lookup typeUrl with
    | none => w
    | some ts =>
      if ((ts.cache.lookup name).map (·.isRequested)).getD true then
        let ts := { ts with cache := ts.cache.insert name (.doesNotExist none) }
        ((w.setTypeState typeUrl ts).syncResourceCounts env ts.typeUrl ts.resourceStateCounts).notify env ts name
          (.error .resourceDoesNotExist) .detached
      else w

/-! ## Responses -/

def validResources (decoder : DecoderFn B V) (now : Nat) (response : DiscoveryResponse B) :
    List (DecodedResource V × AcceptedResource B) :=
  response.resources.filterMap fun any =>
    match decoder any.value with
    | .success _ resource => some (resource, ⟨response.versionInfo, any, now⟩)
    | _ => none

def perResourceErrors (decoder : DecoderFn B V) (response : DiscoveryResponse B) : List (String × String) :=
  response.resources.filterMap fun any =>
    match decoder any.value with
    | .resourceError name error => some (name, error.toString)
    | _ => none

def topLevelErrors (decoder : DecoderFn B V) (response : DiscoveryResponse B) : List String :=
  response.resources.filterMap fun any =>
    match decoder any.value with
    | .topLevelError error => some error.toString
    | _ => none

def nackErrorMessage (topLevelErrors : List String) (perResourceErrors : List (String × String)) : Option String :=
  let errorParts :=
    (if topLevelErrors.isEmpty then [] else ["top level errors: " ++ "; ".intercalate topLevelErrors]) ++
      (if perResourceErrors.isEmpty then []
        else ["; ".intercalate (perResourceErrors.map fun (name, err) => name ++ ": " ++ err)])
  if errorParts.isEmpty then none else some ("; ".intercalate errorParts)

def dispatchResource (done : ProcessingDone) (w : AdsWorker B V) (ts : TypeState B V)
    (resource : DecodedResource V) (accepted : AcceptedResource B) : AdsWorker B V × TypeState B V :=
  let ts := { ts with cache := ts.cache.insert resource.name (.received resource accepted) }
  ((w.cancelTimer typeUrl resource.name).notify env ts resource.name (.ok resource) done.share, ts)

def dispatchResources
    (resources : List (DecodedResource V × AcceptedResource B)) (done : ProcessingDone) : AdsWorker B V :=
  match w.typeStates.lookup typeUrl with
  | none => w
  | some ts =>
    let dispatched := resources.foldl (fun p r => dispatchResource env typeUrl done p.1 p.2 r.1 r.2) (w, ts)
    let ts := dispatched.2
    (dispatched.1.setTypeState typeUrl ts).syncResourceCounts env ts.typeUrl ts.resourceStateCounts

def notifyResourceError (typeUrl resourceName : String) (rejected : RejectedUpdate)
    (done : ProcessingDone) : AdsWorker B V :=
  match w.typeStates.lookup typeUrl with
  | none => w
  | some ts =>
    let accepted := (ts.cache.lookup resourceName).bind (·.accepted)
    let ts := { ts with cache := ts.cache.insert resourceName (.nacked rejected accepted) }
    let w := (w.setTypeState typeUrl ts).syncResourceCounts env ts.typeUrl ts.resourceStateCounts
    (w.cancelTimer typeUrl resourceName).notify env ts resourceName (.error (.validation rejected.details)) done.share

def deletedNames (ts : TypeState B V) (receivedNames : Finset String) : List String :=
  ((env.order.entries ts.cache.entries).filter fun e =>
    e.2.state.isReceived && decide (e.1 ∉ receivedNames)).map (·.1)

def deleteResource (done : ProcessingDone) (w : AdsWorker B V) (ts : TypeState B V) (name : String) :
    AdsWorker B V × TypeState B V :=
  let accepted := (ts.cache.lookup name).bind (·.accepted)
  let ts := { ts with cache := ts.cache.insert name (.doesNotExist accepted) }
  (w.notify env ts name (.error .resourceDoesNotExist) done.share, ts)

def detectDeletedResources (receivedNames : Finset String) (done : ProcessingDone) : AdsWorker B V :=
  match w.typeStates.lookup typeUrl with
  | none => w
  | some ts =>
    if ts.allResourcesRequiredInSotw then
      let swept := (deletedNames env ts receivedNames).foldl (fun p name => deleteResource env done p.1 p.2 name)
        (w, ts)
      let ts := swept.2
      (swept.1.setTypeState typeUrl ts).syncResourceCounts env ts.typeUrl ts.resourceStateCounts
    else w

def sendAck (session : SessionId) (response : DiscoveryResponse B) : AdsWorker B V × Except Error Unit :=
  match w.typeStates.lookup response.typeUrl with
  | none => (w, .ok ())
  | some ts =>
    w.write cfg env session
      { node := cfg.node, typeUrl := response.typeUrl, resourceNames := ts.resourceNamesForRequest env.order,
        versionInfo := response.versionInfo, responseNonce := response.nonce, errorDetail := none }

def sendNack (session : SessionId) (response : DiscoveryResponse B)
    (errorMessage : String) : AdsWorker B V × Except Error Unit :=
  match w.typeStates.lookup response.typeUrl with
  | none => (w, .ok ())
  | some ts =>
    w.write cfg env session
      { node := cfg.node, typeUrl := response.typeUrl, resourceNames := ts.resourceNamesForRequest env.order,
        -- A NACK keeps the old version. 3 is INVALID_ARGUMENT.
        versionInfo := ts.versionInfo, responseNonce := response.nonce, errorDetail := some ⟨3, errorMessage⟩ }

def modifyTypeState (f : TypeState B V → TypeState B V) : AdsWorker B V :=
  match w.typeStates.lookup typeUrl with
  | none => w
  | some ts => w.setTypeState typeUrl (f ts)

def handleResponse (session : SessionId)
    (response : DiscoveryResponse B) (done : ProcessingDone) : AdsWorker B V × Except Error Unit :=
  let typeUrl := response.typeUrl
  match w.typeStates.lookup typeUrl with
  | none => (w, .ok ())
  | some s =>
    let valid := validResources s.decoder env.now response
    let perResource := perResourceErrors s.decoder response
    let topLevel := topLevelErrors s.decoder response
    let w := w.emit ((w.recorder.recordResourceUpdates s.typeUrl valid.length
      (topLevel.length + perResource.length)).map .measure)
    let w := w.modifyTypeState typeUrl fun ts => { ts with nonce := response.nonce }
    let receivedNames := (valid.map (·.1.name)).toFinset
    let w := w.dispatchResources env typeUrl valid done
    let w := perResource.foldl
      (fun w e => w.notifyResourceError env typeUrl e.1 ⟨response.versionInfo, e.2, env.now⟩ done) w
    let w := w.detectDeletedResources env typeUrl receivedNames done
    match nackErrorMessage topLevel perResource with
    | none =>
      let w := w.modifyTypeState typeUrl fun ts => { ts with versionInfo := response.versionInfo }
      w.sendAck cfg env session response
    | some error => w.sendNack cfg env session response error

/-! ## Commands and transport events -/

def handleCommand (sender : Option SessionId) : WatchEvent B V → AdsWorker B V × Except Error Unit
  | .watch typeUrl name watcherId decoder allResourcesRequiredInSotw =>
    let added := w.addWatcher env typeUrl name watcherId decoder allResourcesRequiredInSotw
    match sender with
    | none => (added.1, .ok ())
    | some session =>
      if added.2 then added.1.sendRequest cfg env session typeUrl
      else (added.1.startPendingResourceTimers cfg env typeUrl, .ok ())
  | .unwatch watcherId =>
    let removed := w.removeWatcher env watcherId
    match removed.2, sender with
    | some (typeUrl, true), some session => removed.1.sendRequest cfg env session typeUrl
    | _, _ => (removed.1, .ok ())
  | .resourceTimerExpired typeUrl name timerId => (w.handleResourceTimeout env typeUrl name timerId, .ok ())

def recordHealthy (healthy : Bool) : AdsWorker B V :=
  if healthy then w else w.emit ((w.recorder.recordConnected true).map .measure)

def recordUnhealthy (healthy : Bool) : AdsWorker B V :=
  if healthy then w.emit ((w.recorder.recordServerFailure ++ w.recorder.recordConnected false).map .measure) else w

def handleTransportEvent (context : StreamContext) :
    TransportEvent B → (AdsWorker B V × StreamContext) × Except Error Unit
  | .ready session =>
    let w := { w with typeStates := HashMap.mapValues (fun ts : TypeState B V => { ts with nonce := "" }) w.typeStates }
    let sent := w.sendInitialRequests cfg env session
    ((sent.1, { context with session := some ⟨session, true, false⟩ }), sent.2)
  | .response bytes done =>
    match context.session.filter (·.cancel) with
    -- Queued responses of a retired stream are ignored.
    | none => ((w, context), .ok ())
    | some active =>
      match cfg.codec.decodeResponse bytes with
      | .error e => ((w, context), .error e)
      | .ok response =>
        let handled := (w.recordHealthy context.healthy).handleResponse cfg env active.writes response done
        ((handled.1, ⟨true, some { active with sawResponse := true }⟩), handled.2)
  | .failed =>
    let sawResponse := context.session.any (·.sawResponse)
    let w := { w with resourceTimers := ∅ }
    let w := if sawResponse then w else w.recordUnhealthy context.healthy
    ((w.emit [.sawResponse sawResponse], ⟨if sawResponse then context.healthy else false, none⟩), .ok ())

def snapshot (w : AdsWorker B V) : List (ResourceSnapshot B) :=
  (w.typeStates.entries.flatMap fun e => e.2.snapshot).mergeSort fun a b =>
    decide (a.typeUrl < b.typeUrl) || (decide (a.typeUrl = b.typeUrl) && decide (a.name ≤ b.name))

end AdsWorker

/-! ## The event loop -/

structure Actor (B V : Type) where
  worker : AdsWorker B V
  context : StreamContext
  transportSpawned : Bool
  running : Bool

namespace Actor

variable (cfg : Config B) (a : Actor B V)

def settle (result : Except Error Unit) : Actor B V :=
  match result, a.context.session with
  | .error _, some active =>
    { a with
      worker := { a.worker with resourceTimers := ∅ }
      context := { a.context with session := some { active with cancel := false } } }
  | _, _ => a

def spawnTransport (a : Actor B V) : Actor B V :=
  if a.transportSpawned || HashMap.isEmpty a.worker.typeStates then a
  else { a with worker := a.worker.emit [.spawnTransport], transportSpawned := true }

def turn (env : Env) (a : Actor B V) : WorkerCommand B V → Actor B V
  | .watcher cmd =>
    let handled := a.worker.handleCommand cfg env a.context.active cmd
    ({ a with worker := handled.1 }.spawnTransport).settle handled.2
  | .transport event =>
    let handled := a.worker.handleTransportEvent cfg env a.context event
    { a with worker := handled.1.1, context := handled.1.2 }.settle handled.2
  | .transportStopped =>
    let w := if a.context.healthy then a.worker.emit ((a.worker.recorder.recordConnected false).map .measure)
      else a.worker
    { a with worker := w, running := false }
  | .snapshot => { a with worker := a.worker.emit [.snapshot a.worker.snapshot] }

def step (i : Env × WorkerCommand B V) : Actor B V × List (Effect B V) :=
  if a.running then
    let a := { a with worker := { a.worker with outbox := [] } }.turn cfg i.1 i.2
    (a, a.worker.outbox)
  else (a, [])

def init : Actor B V :=
  let w : AdsWorker B V := .new cfg
  match cfg.servers with
  | [] => { worker := w, context := ⟨true, none⟩, transportSpawned := false, running := false }
  | server :: _ =>
    let w := { w with recorder := w.recorder.setServer server }
    { worker := w.emit ((w.recorder.recordConnected true).map .measure)
      context := ⟨true, none⟩
      transportSpawned := false
      running := true }

end Actor

def worker (cfg : Config B) : Machine (Actor B V) (Env × WorkerCommand B V) (Effect B V) := ⟨.init cfg, Actor.step cfg⟩

/-!
## A small client

Messages are numbers, and `table` says what each decodes to.
-/

namespace Small

def cfg (table : Nat → Except Error (DiscoveryResponse Nat)) : Config Nat where
  codec := ⟨fun _ => .ok 0, table⟩
  node := ⟨none, none, none, "grpc-rust", "0"⟩
  resourceInitialTimeout := some 15000
  servers := ["xds.example.com"]
  target := none
  recorder := false

def decoder : DecoderFn Nat Unit
  | 0 => .success "a" ⟨"T", "a", ()⟩
  | 1 => .resourceError "a" (.validation "bad")
  | _ => .topLevelError (.decode "bad")

def response (version nonce : String) (payloads : List Nat) : DiscoveryResponse Nat :=
  ⟨version, payloads.map (⟨"T", ·⟩), "T", nonce⟩

def env : Env := ⟨.default, 0, fun _ => true⟩

def watch (name : String) (id : UInt64) : Env × WorkerCommand Nat Unit :=
  (env, .watcher (.watch "T" name ⟨id⟩ decoder true))

def unwatch (id : UInt64) : Env × WorkerCommand Nat Unit := (env, .watcher (.unwatch ⟨id⟩))

def expired (name : String) (timerId : UInt64) : Env × WorkerCommand Nat Unit :=
  (env, .watcher (.resourceTimerExpired "T" name timerId))

def ready (session : SessionId) : Env × WorkerCommand Nat Unit := (env, .transport (.ready session))

def receive (message : Nat) : Env × WorkerCommand Nat Unit := (env, .transport (.response message .detached))

end Small

end XdsClient
