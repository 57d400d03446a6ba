import GrpcRust.Lib.FirstOccurrences
import GrpcRust.Lib.HashMap
/-!
# The cluster graph

`dependency_manager/cluster_graph.rs`: a depth-first walk that visits a cluster once, unless the visit was too deep.
The recursion is on the levels that are left, `MAX_AGGREGATE_DEPTH - depth`.
-/

namespace GrpcXds

open Lib

variable {V D : Type}

/-! ## Resources -/

inductive WatchState (α : Type) where
  | pending
  | ready (value : α) (note : Option String)
  | failed (reason : String)

inductive ClusterDiscovery where
  | eds (edsServiceName : String)
  | logicalDns (hostname : String) (port : Nat)
  | aggregate (children : List String)
deriving DecidableEq

structure ClusterResource where
  name : String
  discovery : ClusterDiscovery
deriving DecidableEq

structure DnsTarget where
  host : String
  port : Nat
deriving DecidableEq

structure CachedResources (V D : Type) where
  clusters : HashMap String (WatchState ClusterResource)
  endpoints : HashMap String (WatchState V)
  dns : HashMap DnsTarget (WatchState D)

structure ClusterResolutionError where
  message : String
deriving DecidableEq

inductive LeafEndpointSource (V D : Type) where
  | eds (endpoints : V)
  | logicalDns (addresses : D)

structure LeafEndpoints (V D : Type) where
  source : Option (LeafEndpointSource V D)
  resolutionNote : Option String

structure AggregateClusters where
  leafClusters : List String
  resolutionNote : Option String

inductive ClusterChildren (V D : Type) where
  | leaf (endpoints : LeafEndpoints V D)
  | aggregate (clusters : AggregateClusters)

structure ClusterConfig (V D : Type) where
  cluster : ClusterResource
  children : ClusterChildren V D

abbrev ClusterResult (V D : Type) := Except ClusterResolutionError (ClusterConfig V D)

structure RequiredWatches where
  clusters : HashSet String
  edsServices : HashSet String
  dnsTargets : HashSet DnsTarget

structure ClusterGraph (V D : Type) where
  clusterConfigs : HashMap String (ClusterResult V D)
  requiredWatches : RequiredWatches

def ClusterGraph.default : ClusterGraph V D := ⟨∅, ⟨.empty, .empty, .empty⟩⟩

/-! ## The walk -/

def maxAggregateDepth : Nat := 16

inductive DepthExceeded where
  | depthExceeded
deriving DecidableEq

def DepthExceeded.toError : DepthExceeded → ClusterResolutionError
  | .depthExceeded => ⟨"aggregate cluster graph exceeds max depth"⟩

inductive LeafClusters where
  | pending
  | resolved (names : List String) (notes : List String)
deriving DecidableEq

structure Visited where
  leaves : LeafClusters
  height : Nat
deriving DecidableEq

namespace Visited

def pending : Visited := ⟨.pending, 0⟩

def leaf (name : String) : Visited := ⟨.resolved [name] [], 0⟩

def noLeaves (reason : String) : Visited := ⟨.resolved [] [reason], 0⟩

end Visited

inductive Mark where
  | onPath
  | done (visited : Visited)

structure WalkInput (V D : Type) where
  cache : CachedResources V D
  baseNotes : List String
  nodeIdNote : Option String

def WalkInput.new (cache : CachedResources V D) (baseNotes : List String) (nodeId : Option String) : WalkInput V D :=
  ⟨cache, baseNotes, nodeId.map fun nodeId => "xDS node ID:" ++ nodeId⟩

/-- The marks of the search, and the graph built so far. -/
structure GraphWalker (V D : Type) where
  marks : HashMap String Mark
  graph : ClusterGraph V D

def joinNotes (notes : List String) : Option String :=
  let notes := notes.filter (decide <| · ≠ "")
  if notes.isEmpty then none else some ("; ".intercalate notes)

namespace GraphWalker

variable (w : GraphWalker V D) (name : String)

def record (result : ClusterResult V D) : GraphWalker V D :=
  { w with graph := { w.graph with clusterConfigs := w.graph.clusterConfigs.insert name result } }

def clear : GraphWalker V D :=
  { w with graph := { w.graph with clusterConfigs := w.graph.clusterConfigs.erase name } }

def mark (w : GraphWalker V D) (name : String) (mark : Mark) : GraphWalker V D :=
  { w with marks := w.marks.insert name mark }

def unmark : GraphWalker V D := { w with marks := w.marks.erase name }

def watch (f : RequiredWatches → RequiredWatches) : GraphWalker V D :=
  { w with graph := { w.graph with requiredWatches := f w.graph.requiredWatches } }

end GraphWalker

/-- The local variables of `aggregate`. What has been seen is what is in the lists. -/
structure Flattening where
  leafClusters : List String
  notes : List String
  pending : Bool
  height : Nat

namespace Flattening

def new (cdsNote : Option String) : Flattening := ⟨[], cdsNote.toList, false, 0⟩

variable (f : Flattening)

def add (visited : Visited) : Flattening :=
  let f := { f with height := max f.height (visited.height + 1) }
  match visited.leaves with
  | .pending => { f with pending := true }
  | .resolved names notes =>
    { f with leafClusters := extendNew f.leafClusters names, notes := extendNew f.notes notes }

def visited : Visited := ⟨if f.pending then .pending else .resolved f.leafClusters f.notes, f.height⟩

def result (name : String) (cluster : ClusterResource) : Option (ClusterResult V D) :=
  if f.pending then none
  else
    let note := joinNotes f.notes
    if f.leafClusters.isEmpty then
      let message := "aggregate cluster dependency graph for " ++ name ++ " has no leaf clusters"
      some (.error ⟨message ++ note.elim "" fun note => ": " ++ note⟩)
    else some (.ok ⟨cluster, .aggregate ⟨f.leafClusters, note⟩⟩)

end Flattening

namespace WalkInput
variable (i : WalkInput V D)

def leafNote (cdsNote endpointsNote : Option String) : Option String :=
  (joinNotes (i.baseNotes ++ cdsNote.toList ++ endpointsNote.toList)).or i.nodeIdNote

def leaf {α : Type} (w : GraphWalker V D) (name : String) (cluster : ClusterResource) (cdsNote : Option String)
    (endpoints : Option (WatchState α)) (toSource : α → LeafEndpointSource V D) : GraphWalker V D × Visited :=
  match endpoints with
  | none | some .pending => (w, .pending)
  | some (.ready value note) =>
    (w.record name (.ok ⟨cluster, .leaf ⟨some (toSource value), i.leafNote cdsNote note⟩⟩), .leaf name)
  | some (.failed reason) =>
    (w.record name (.ok ⟨cluster, .leaf ⟨none, i.leafNote cdsNote (some reason)⟩⟩), .leaf name)

def visitChildren (visit : GraphWalker V D → String → GraphWalker V D × Except DepthExceeded Visited) (name : String) :
    GraphWalker V D → Flattening → List String → GraphWalker V D × Except DepthExceeded Flattening
  | w, f, [] => (w, .ok f)
  | w, f, child :: children =>
    match visit w child with
    -- Every aggregate above a cluster that is too deep fails too.
    | (w, .error e) => (w.record name (.error e.toError), .error e)
    | (w, .ok visited) => visitChildren visit name w (f.add visited) children

def aggregate (visit : GraphWalker V D → String → GraphWalker V D × Except DepthExceeded Visited) (w : GraphWalker V D)
    (name : String) (cluster : ClusterResource) (cdsNote : Option String) (children : List String) :
    GraphWalker V D × Except DepthExceeded Visited :=
  match visitChildren visit name w (.new cdsNote) children with
  | (w, .error e) => (w, .error e)
  | (w, .ok f) =>
    match f.result name cluster with
    | none => (w, .ok f.visited)
    | some result => (w.record name result, .ok f.visited)

def visitUncached (visit : GraphWalker V D → String → GraphWalker V D × Except DepthExceeded Visited)
    (w : GraphWalker V D) (name : String) : GraphWalker V D × Except DepthExceeded Visited :=
  let w := w.watch fun r => { r with clusters := r.clusters.insert name }
  match i.cache.clusters.lookup name with
  | none | some .pending => (w, .ok .pending)
  | some (.failed reason) => (w.record name (.error ⟨reason⟩), .ok (.noLeaves reason))
  | some (.ready cluster cdsNote) =>
    match cluster.discovery with
    | .eds edsServiceName =>
      let w := w.watch fun r => { r with edsServices := r.edsServices.insert edsServiceName }
      let (w, visited) := i.leaf w name cluster cdsNote (i.cache.endpoints.lookup edsServiceName) .eds
      (w, .ok visited)
    | .logicalDns hostname port =>
      let w := w.watch fun r => { r with dnsTargets := r.dnsTargets.insert ⟨hostname, port⟩ }
      let (w, visited) := i.leaf w name cluster cdsNote (i.cache.dns.lookup ⟨hostname, port⟩) .logicalDns
      (w, .ok visited)
    | .aggregate children => aggregate visit w name cluster cdsNote children

def visit : Nat → GraphWalker V D → String → GraphWalker V D × Except DepthExceeded Visited
  | 0, w, _ => (w, .error .depthExceeded)
  | left + 1, w, name =>
    match w.marks.lookup name with
    | some .onPath => (w, .ok (.noLeaves ("aggregate cluster " ++ name ++ " is part of a cycle")))
    | some (.done visited) =>
      if left + 1 ≤ visited.height then (w, .error .depthExceeded) else (w, .ok visited)
    | none =>
      -- An attempt that was too deep may have left an error.
      match i.visitUncached (visit left) ((w.clear name).mark name .onPath) name with
      | (w, .ok visited) => (w.mark name (.done visited), .ok visited)
      -- On a shorter path, the cluster may be fine.
      | (w, .error e) => (w.unmark name, .error e)

end WalkInput

def walk (cache : CachedResources V D) (roots : List String) (baseNotes : List String) (nodeId : Option String) :
    ClusterGraph V D :=
  let i := WalkInput.new cache baseNotes nodeId
  ((roots.toFinset.sort (· ≤ ·)).foldl (fun w root => (i.visit maxAggregateDepth w root).1) ⟨∅, .default⟩).graph

end GrpcXds
