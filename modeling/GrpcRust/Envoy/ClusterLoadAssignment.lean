/-!
# The message `envoy.config.endpoint.v3.ClusterLoadAssignment`

The endpoints of a cluster, as far as one of the two client stacks reads them. A `oneof` that may be unset is an
`Option`.
-/

namespace Envoy

inductive HealthStatus where
  | unknown
  | healthy
  | unhealthy
  | draining
  | timeout
  | degraded
  | unrecognized (value : Int)
deriving DecidableEq

inductive PortSpecifier where
  | portValue (port : UInt32)
  | namedPort (name : String)
deriving DecidableEq

structure SocketAddress where
  address : String
  portSpecifier : Option PortSpecifier
deriving DecidableEq

inductive AddressKind where
  | socketAddress (sa : SocketAddress)
  | other
deriving DecidableEq

structure Address where
  address : Option AddressKind
deriving DecidableEq

structure Endpoint where
  address : Option Address
  additionalAddresses : List (Option Address)
deriving DecidableEq

inductive HostIdentifier where
  | endpoint (ep : Endpoint)
  | endpointName (name : String)
deriving DecidableEq

structure LbEndpoint where
  hostIdentifier : Option HostIdentifier
  healthStatus : HealthStatus
  loadBalancingWeight : Option UInt32
deriving DecidableEq

structure Locality where
  region : String
  zone : String
  subZone : String
deriving DecidableEq

structure LocalityLbEndpoints where
  locality : Option Locality
  lbEndpoints : List LbEndpoint
  loadBalancingWeight : Option UInt32
  priority : UInt32
deriving DecidableEq

structure ClusterLoadAssignment where
  clusterName : String
  endpoints : List LocalityLbEndpoints
deriving DecidableEq

end Envoy
