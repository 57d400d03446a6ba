import GrpcRust.Envoy.RouteConfiguration
import GrpcRust.Lib.Validation
/-!
# Validated routes of `tonic-xds`

Of `xds/resource/route_config.rs` the action of a route and its `max_stream_duration`; `string_matcher.rs` and
`safe_regex.rs`. A validator returns the validated value, or the text of an `Error::Validation`.
-/

namespace TonicXds.Rds

open Lib Lib.Bytes

abbrev Duration := Nat

structure SafeRegex (R : Type) where
  regex : R

inductive StringMatcher (R : Type) where
  | exact (value : Bytes) (ignoreCase : Bool)
  | prefixed (value : Bytes) (ignoreCase : Bool)
  | suffixed (value : Bytes) (ignoreCase : Bool)
  | contains (value : Bytes) (ignoreCase : Bool)
  | safeRegex (regex : SafeRegex R)

structure WeightedCluster where
  name : Bytes
  weight : UInt32
deriving DecidableEq

inductive RouteConfigAction where
  | cluster (name : Bytes)
  | weightedClusters (clusters : List WeightedCluster)
deriving DecidableEq

/-! ## The limit of a route -/

def maxProtoDurationSeconds : Int := 315576000000

def protoDuration (d : Envoy.Duration) : Option Duration :=
  if 0 ≤ d.seconds ∧ d.seconds ≤ maxProtoDurationSeconds ∧ 0 ≤ d.nanos ∧ d.nanos ≤ 999999999 then
    some (d.seconds.toNat * 1000000000 + d.nanos.toNat)
  else
    none

def parseMaxStreamDuration (msd : Envoy.MaxStreamDuration) : Except Bytes (Option Duration) :=
  let parse (field : String) (value : Envoy.Duration) : Except Bytes (Option Duration) :=
    match protoDuration value with
    | some d => .ok (some d)
    | none => .error (utf8 ("route_action.max_stream_duration." ++ field ++ " is not a valid duration"))
  match msd.grpcTimeoutHeaderMax, msd.maxStreamDuration with
  | some headerMax, _ => parse "grpc_timeout_header_max" headerMax
  | none, some max => parse "max_stream_duration" max
  | none, none => .ok none

/-- What `validate_route` makes of the `max_stream_duration` of an action that it keeps. -/
def routeMaxStreamDuration (ra : Envoy.RouteAction) : Except Bytes (Option Duration) :=
  match ra.maxStreamDuration with
  | none => .ok none
  | some msd => parseMaxStreamDuration msd

/-- What a limit is that validation lets through: a duration of the message that `proto_duration` accepts. -/
def IsProtoDuration (limit : Duration) : Prop := ∃ d, protoDuration d = some limit

theorem IsProtoDuration.lt {limit : Duration} (h : IsProtoDuration limit) :
    limit < (maxProtoDurationSeconds.toNat + 1) * 1000000000 := by
  obtain ⟨d, h⟩ := h
  unfold protoDuration at h
  split_ifs at h with hd
  cases h
  unfold maxProtoDurationSeconds at hd
  change d.seconds.toNat * 1000000000 + d.nanos.toNat < (315576000000 + 1) * 1000000000
  omega

theorem parseMaxStreamDuration_isProtoDuration {msd : Envoy.MaxStreamDuration} {limit : Duration}
    (h : parseMaxStreamDuration msd = .ok (some limit)) : IsProtoDuration limit := by
  unfold parseMaxStreamDuration at h
  rcases msd with ⟨_ | max, _ | headerMax⟩ <;> dsimp only at h
  · cases h
  all_goals
    split at h
    · cases h
      exact ⟨_, ‹_›⟩
    · cases h

theorem routeMaxStreamDuration_isProtoDuration {ra : Envoy.RouteAction} {own : Option Duration}
    (h : routeMaxStreamDuration ra = .ok own) : ∀ limit ∈ own, IsProtoDuration limit := by
  rintro limit rfl
  unfold routeMaxStreamDuration at h
  split at h
  · cases h
  · exact parseMaxStreamDuration_isProtoDuration h

/-! ## Matchers -/

variable {R : Type} [RegexEngine R]

def anchorPrefix : Bytes := utf8 "\\A(?:"
def anchorSuffix : Bytes := utf8 ")\\z"

def SafeRegex.new (pattern : Bytes) : Except Bytes (SafeRegex R) := do
  let _ ← RegexEngine.new (R := R) pattern
  let regex ← RegexEngine.new (anchorPrefix ++ pattern ++ anchorSuffix)
  return ⟨regex⟩

def regexOr (what : String) (pattern : Bytes) : Except Bytes (SafeRegex R) :=
  (SafeRegex.new pattern).mapError fun e => utf8 (what ++ " '") ++ pattern ++ utf8 "': " ++ e

def StringMatcher.fromProto (proto : Envoy.StringMatcher) : Except Bytes (StringMatcher R) :=
  match proto.matchPattern with
  | some (.exact value) => .ok (.exact value proto.ignoreCase)
  | some (.prefixed value) => .ok (.prefixed value proto.ignoreCase)
  | some (.suffixed value) => .ok (.suffixed value proto.ignoreCase)
  | some (.contains value) => .ok (.contains value proto.ignoreCase)
  | some (.safeRegex pattern) => do
    let re ← regexOr "invalid regex" pattern
    return .safeRegex re
  | none => .error (utf8 "StringMatcher has no match_pattern set")
  | some .custom => .error (utf8 "unsupported StringMatcher pattern")

/-! ## The action of a route -/

def validateRouteAction (ra : Envoy.RouteAction) : Except Bytes (Option RouteConfigAction) :=
  match ra.clusterSpecifier with
  | some (.cluster name) =>
    if name.isEmpty then .error (utf8 "cluster name is empty") else .ok (some (.cluster name))
  | some (.weightedClusters wc) =>
    if wc.isEmpty then
      .error (utf8 "weighted_clusters is empty")
    else
      .ok (some (.weightedClusters (wc.map fun c => { name := c.name, weight := c.weight.getD 0 })))
  | some .other => .ok none
  | none => .error (utf8 "route action missing cluster specifier")

end TonicXds.Rds
