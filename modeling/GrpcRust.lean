import GrpcRust.Client.Authority
import GrpcRust.Client.ConfigSelector
import GrpcRust.Client.Deadline
import GrpcRust.Client.HttpConnect
import GrpcRust.Client.ServiceConfigDuration
import GrpcRust.Client.StreamValidator
import GrpcRust.Client.Watcher
import GrpcRust.Grpc.Attributes
import GrpcRust.Grpc.MetadataEntries
import GrpcRust.GrpcTimeoutEncoding
import GrpcRust.GrpcXds.VirtualHosts
import GrpcRust.GrpcXds.WalkExtent
import GrpcRust.HyperServer.Connection
import GrpcRust.HyperServer.Observed
import GrpcRust.InMemory.Streams
import GrpcRust.LoadBalancing.PickFirstPasses
import GrpcRust.LoadBalancing.PickFirstTimer
import GrpcRust.LoadBalancing.PriorityChoice
import GrpcRust.LoadBalancing.RoundRobin
import GrpcRust.LoadBalancing.SharingUpdates
import GrpcRust.LoadBalancing.WeightedTarget
import GrpcRust.Server.Graceful
import GrpcRust.Tonic.AcceptStream
import GrpcRust.Tonic.ConnectionAge
import GrpcRust.Tonic.Fused
import GrpcRust.Tonic.MetadataValue
import GrpcRust.Tonic.Reconnect
import GrpcRust.Tonic.RoundTrip
import GrpcRust.Tonic.StatusHeaders
import GrpcRust.Tonic.Truncation
import GrpcRust.TonicReflection.Server
import GrpcRust.TonicWeb.BodyContract
import GrpcRust.TonicWeb.ClientResponse
import GrpcRust.TonicWeb.TextBody
import GrpcRust.TonicWeb.Truncation
import GrpcRust.TonicXds.CallDeadline
import GrpcRust.TonicXds.CircuitBreakingCounters
import GrpcRust.TonicXds.ClusterChannels
import GrpcRust.TonicXds.EndpointChanges
import GrpcRust.TonicXds.FailurePercentage
import GrpcRust.TonicXds.HappyEyeballs
import GrpcRust.TonicXds.HashPolicy
import GrpcRust.TonicXds.RingHash
import GrpcRust.TonicXds.SanMatcher
import GrpcRust.TonicXds.Stagnation
import GrpcRust.TonicXds.WeightedClusters
import GrpcRust.XdsClient.DoesNotExist
import GrpcRust.XdsClient.FlowControl
import GrpcRust.XdsClient.Gauges
import GrpcRust.XdsClient.Nonces
import GrpcRust.XdsClient.Timers
import GrpcRust.XdsClient.Versions
import GrpcRust.XdsStacks.Endpoints
import GrpcRust.XdsStacks.StringMatchers
