import GrpcRust.Grpc.Metadata
import GrpcRust.Tonic.Status
/-!
# Headers of a server's response

Metadata loses the reserved names; what a response has under one is the transport's.
-/

namespace HyperServer

open Lib Lib.Bytes Grpc Tonic HeaderMap

/-! ## Statuses -/

inductive StatusCodeError
  | cancelled
  | unknown
  | invalidArgument
  | deadlineExceeded
  | notFound
  | alreadyExists
  | permissionDenied
  | resourceExhausted
  | failedPrecondition
  | aborted
  | outOfRange
  | unimplemented
  | internal
  | unavailable
  | dataLoss
  | unauthenticated
deriving DecidableEq

structure StatusError where
  code : StatusCodeError
  message : Bytes
deriving DecidableEq

structure Trailers where
  status : Except StatusError Unit
  metadata : MetadataMap

def Trailers.new (code : StatusCodeError) (message : String) : Trailers where
  status := .error { code := code, message := utf8 message }
  metadata := { headers := [] }

def tonicCodeFromStatusCode : StatusCodeError → Tonic.Code
  | .cancelled => .cancelled
  | .unknown => .unknown
  | .invalidArgument => .invalidArgument
  | .deadlineExceeded => .deadlineExceeded
  | .notFound => .notFound
  | .alreadyExists => .alreadyExists
  | .permissionDenied => .permissionDenied
  | .resourceExhausted => .resourceExhausted
  | .failedPrecondition => .failedPrecondition
  | .aborted => .aborted
  | .outOfRange => .outOfRange
  | .unimplemented => .unimplemented
  | .internal => .internal
  | .unavailable => .unavailable
  | .dataLoss => .dataLoss
  | .unauthenticated => .unauthenticated

theorem tonicCodeFromStatusCode_ne_ok (c : StatusCodeError) : tonicCodeFromStatusCode c ≠ .ok := by
  cases c <;> exact nofun

/-! ## Reserved names -/

def contentType : Bytes := utf8 "content-type"

def reservedHeaders : List Bytes :=
  [utf8 "te", contentType, utf8 "grpc-timeout", utf8 "grpc-encoding", utf8 "grpc-accept-encoding",
    utf8 "grpc-message-type", utf8 "grpc-status", utf8 "grpc-message"]

def isReservedHeader (key : Bytes) : Bool := reservedHeaders.elem key

variable (ts : Trailers) (status : Option Tonic.Status) (metadata : MetadataMap) (trailers : Trailers) {head : Bool}
  {map : HeaderMap}

def retainUnreserved : MetadataMap where
  headers := metadata.headers.filter fun e => !isReservedHeader e.key

theorem valuesOf_retainUnreserved (m : MetadataMap) {name : Bytes} (h : isReservedHeader name = true) :
    (retainUnreserved m).intoHeaders.valuesOf name = [] := by
  simp only [valuesOf, MetadataMap.intoHeaders, retainUnreserved, List.map_eq_nil_iff, List.filter_eq_nil_iff,
    List.mem_map, List.mem_filter]
  rintro _ ⟨e, ⟨_, he⟩, rfl⟩ heq
  have hk : e.key = name := eq_of_beq heq
  rw [hk, h] at he
  cases he

def tonicStatusFromTrailers : Tonic.Status :=
  let metadata := (retainUnreserved trailers.metadata).intoHeaders
  match trailers.status with
  | .ok () => { code := .ok, message := [], metadata := metadata }
  | .error err => { code := tonicCodeFromStatusCode err.code, message := err.message, metadata := metadata }

def streamingHead : HeaderMap :=
  (HeaderMap.empty.extend (retainUnreserved metadata).intoHeaders).insert contentType (utf8 "application/grpc")

def trailersOnlyHead : Except Tonic.Status HeaderMap := (tonicStatusFromTrailers trailers).intoHttp

/-! ## What the transport sets -/

theorem code_eq_ok {ts : Trailers} (h : (tonicStatusFromTrailers ts).code = .ok) : ts.status = .ok () := by
  unfold tonicStatusFromTrailers at h
  cases hs : ts.status with
  | ok u => rfl
  | error err =>
    rw [hs] at h
    exact absurd h (tonicCodeFromStatusCode_ne_ok err.code)

theorem metadata_tonicStatusFromTrailers :
    (tonicStatusFromTrailers ts).metadata = (retainUnreserved ts.metadata).intoHeaders := by
  unfold tonicStatusFromTrailers
  cases ts.status <;> rfl

/-- The values under a reserved name, for the status that is carried if there is one. -/
def transportValues (head : Bool) (name : Bytes) : List Bytes :=
  if name = contentType then if head then [utf8 "application/grpc"] else []
  else
    match status with
    | none => []
    | some status =>
      if name = Tonic.Status.grpcStatus then [status.code.toHeaderValue]
      else if name = Tonic.Status.grpcMessage ∧ status.message ≠ [] then
        [percentEncode Tonic.Status.encodingSet status.message]
      else []

def Reserved (head : Bool) (map : HeaderMap) : Prop :=
  ∀ name, isReservedHeader name = true → map.valuesOf name = transportValues status head name

theorem Reserved.grpcStatus {s : Option Status} (h : Reserved s head map) :
    map.valuesOf Status.grpcStatus = (s.map fun s => s.code.toHeaderValue).toList := by
  have hne : Status.grpcStatus ≠ contentType := by decide
  rw [h _ (by decide)]
  cases s with
  | none => simp [transportValues, hne]
  | some s => simp [transportValues, hne]

theorem reserved_streamingHead (m : MetadataMap) : Reserved none true (streamingHead m) := by
  intro n hname
  unfold streamingHead transportValues
  split
  · rename_i h
    rw [h, valuesOf_insert_self]
    rfl
  · rename_i h
    rw [valuesOf_insert_of_ne _ _ h, valuesOf_extend, valuesOf_retainUnreserved _ hname]
    rfl

theorem reserved_headersOn {s : Status}
    (hmt : ∀ n, isReservedHeader n = true → s.metadata.valuesOf n = [])
    (hmp : ∀ n, isReservedHeader n = true → map.valuesOf n = transportValues none head n) :
    Reserved (some s) head (s.headersOn map) := by
  intro n hname
  by_cases hs : n = Status.grpcStatus
  · have ht : Status.grpcStatus ≠ contentType := by decide
    rw [hs, Status.valuesOf_headersOn_grpcStatus]
    simp [transportValues, ht]
  by_cases hm : n = Status.grpcMessage
  · rw [hm] at hname ⊢
    have ht : Status.grpcMessage ≠ contentType := by decide
    have hc : Status.grpcMessage ≠ Status.grpcStatus := by decide
    have hnone : map.valuesOf Status.grpcMessage = [] := by
      rw [hmp _ hname]
      simp [transportValues, ht]
    rw [Status.valuesOf_headersOn_grpcMessage _ hnone]
    by_cases hempty : s.message = [] <;> simp [transportValues, ht, hc, hempty]
  · have hd : n ≠ Status.grpcStatusDetails := by
      rintro rfl
      exact absurd hname (by decide)
    rw [Status.valuesOf_headersOn _ _ hs hm hd, valuesOf_extend,
      Status.valuesOf_intoSanitizedHeaders, hmt n hname, ite_self, if_pos rfl, hmp n hname]
    simp [transportValues, hs, hm]

theorem valuesOf_metadata_tonicStatusFromTrailers (n : Bytes) (h : isReservedHeader n = true) :
    (tonicStatusFromTrailers ts).metadata.valuesOf n = [] := by
  rw [metadata_tonicStatusFromTrailers]
  exact valuesOf_retainUnreserved _ h

theorem reserved_trailers :
    Reserved (some (tonicStatusFromTrailers ts)) false (tonicStatusFromTrailers ts).headers := by
  rw [Status.headers_eq]
  refine reserved_headersOn (valuesOf_metadata_tonicStatusFromTrailers ts) fun n _ => ?_
  simp [transportValues]

theorem reserved_trailersOnlyHead :
    ∃ head, trailersOnlyHead ts = .ok head ∧ Reserved (some (tonicStatusFromTrailers ts)) true head := by
  refine ⟨_, Status.addHeader_eq _ _, reserved_headersOn (valuesOf_metadata_tonicStatusFromTrailers ts) fun n _ => ?_⟩
  unfold transportValues
  split
  · rename_i h
    rw [h]
    exact valuesOf_insert_self _ _ _
  · rename_i h
    exact valuesOf_insert_of_ne _ _ h

end HyperServer
