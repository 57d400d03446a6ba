import GrpcRust.Lib.HashMap
/-!
# Validated resources

`xds/resource/` and `client/endpoint.rs`: what validation leaves, as far as the two managers read it.
-/

namespace TonicXds

open Lib

abbrev Duration := Nat

/-! ## Route configurations -/

structure WeightedCluster where
  name : String
  weight : UInt32
deriving DecidableEq

inductive RouteConfigAction where
  | cluster (name : String)
  | weightedClusters (clusters : List WeightedCluster)
deriving DecidableEq

structure RouteConfig where
  action : RouteConfigAction
  maxStreamDuration : Option Duration
deriving DecidableEq

structure VirtualHostConfig where
  name : String
  domains : List String
  routes : List RouteConfig
deriving DecidableEq

structure RouteConfigResource where
  name : String
  virtualHosts : List VirtualHostConfig
deriving DecidableEq

def RouteConfigAction.clusters : RouteConfigAction → List String
  | .cluster name => [name]
  | .weightedClusters clusters => clusters.map (·.name)

namespace RouteConfigResource

def clusterNames (rc : RouteConfigResource) : HashSet String :=
  .ofList (rc.virtualHosts.flatMap fun vh => vh.routes.flatMap fun route => route.action.clusters)

def withDefaultMaxStreamDuration (rc : RouteConfigResource) (default : Duration) : RouteConfigResource :=
  { rc with
    virtualHosts := rc.virtualHosts.map fun vh =>
      { vh with routes := vh.routes.map fun route =>
        { route with maxStreamDuration := some (route.maxStreamDuration.getD default) } } }

end RouteConfigResource

/-! ## Listeners and clusters -/

inductive RouteSource where
  | rds (name : String)
  | inline (rc : RouteConfigResource)
deriving DecidableEq

structure ListenerResource where
  name : String
  routeSource : RouteSource
  maxStreamDuration : Option Duration
deriving DecidableEq

structure ClusterResource where
  name : String
  edsServiceName : Option String
deriving DecidableEq

def ClusterResource.edsName (c : ClusterResource) : String := c.edsServiceName.getD c.name

/-! ## Endpoints -/

inductive EndpointHost where
  | ipv4 (addr : BitVec 32)
  | ipv6 (addr : BitVec 128)
  | hostname (name : String)
deriving DecidableEq

structure EndpointAddress where
  host : EndpointHost
  port : UInt16
deriving DecidableEq

inductive HealthStatus where
  | unknown
  | healthy
  | unhealthy
  | draining
deriving DecidableEq

structure ResolvedEndpoint where
  address : EndpointAddress
  healthStatus : HealthStatus
deriving DecidableEq

structure LocalityEndpoints where
  endpoints : List ResolvedEndpoint
deriving DecidableEq

structure EndpointsResource where
  clusterName : String
  localities : List LocalityEndpoints
deriving DecidableEq

/-- `Unknown` counts as healthy. -/
def HealthStatus.usable : HealthStatus → Bool
  | .unknown => true
  | .healthy => true
  | .unhealthy => false
  | .draining => false

def EndpointsResource.healthyEndpoints (r : EndpointsResource) : List ResolvedEndpoint :=
  (r.localities.flatMap (·.endpoints)).filter (·.healthStatus.usable)

def EndpointsResource.healthyAddresses (r : EndpointsResource) : HashSet EndpointAddress :=
  .ofList (r.healthyEndpoints.map (·.address))

theorem EndpointsResource.mem_healthyAddresses {r : EndpointsResource} {address : EndpointAddress} :
    address ∈ r.healthyAddresses ↔ ∃ l ∈ r.localities, ∃ e ∈ l.endpoints,
      e.healthStatus.usable ∧ e.address = address := by
  simp only [healthyAddresses, healthyEndpoints, HashSet.mem_ofList, List.mem_map, List.mem_filter, List.mem_flatMap]
  constructor
  · rintro ⟨e, ⟨⟨l, hl, hmem⟩, hu⟩, ha⟩
    exact ⟨l, hl, e, hmem, hu, ha⟩
  · rintro ⟨l, hl, e, hmem, hu, ha⟩
    exact ⟨e, ⟨⟨l, hl, hmem⟩, hu⟩, ha⟩

end TonicXds
