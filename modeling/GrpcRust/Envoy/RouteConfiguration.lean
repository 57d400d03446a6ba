import GrpcRust.Lib.Bytes
/-!
# The message `envoy.config.route.v3.RouteConfiguration`

As far as one of the two client stacks reads it. A `oneof` that may be unset is an `Option`. Strings are UTF-8:
both decoders refuse any other.
-/

namespace Envoy

open Lib

inductive MatchPattern where
  | exact (value : Bytes)
  | prefixed (value : Bytes)
  | suffixed (value : Bytes)
  | safeRegex (regex : Bytes)
  | contains (value : Bytes)
  | custom
deriving DecidableEq

structure StringMatcher where
  matchPattern : Option MatchPattern
  ignoreCase : Bool
deriving DecidableEq

structure Duration where
  seconds : Int
  nanos : Int
deriving DecidableEq

structure MaxStreamDuration where
  grpcTimeoutHeaderMax : Option Duration
  maxStreamDuration : Option Duration
deriving DecidableEq

structure ClusterWeight where
  name : Bytes
  weight : Option UInt32
deriving DecidableEq

inductive ClusterSpecifier where
  | cluster (name : Bytes)
  | weightedClusters (clusters : List ClusterWeight)
  | other
deriving DecidableEq

structure RouteAction where
  clusterSpecifier : Option ClusterSpecifier
  maxStreamDuration : Option MaxStreamDuration
deriving DecidableEq

end Envoy
