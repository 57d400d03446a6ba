import GrpcRust.Tonic.Codec
/-!
# Decoding a body into messages

`codec/decode.rs`: `Reader` holds the bytes not decoded yet, `StreamSettings` what never changes. A body is the list
of what polling it returns.
-/

namespace Tonic

open Lib Lib.Bytes

inductive Direction
  | request
  | response (status : StatusCode)
  | emptyResponse
deriving DecidableEq

inductive State
  | readHeader
  | readBody (compression : Option CompressionEncoding) (len : Nat)
  | error (status : Option Status)
deriving DecidableEq

structure StreamSettings where
  direction : Direction
  encoding : Option CompressionEncoding
  maxMessageSize : Option Nat

structure Reader (σ : Type) where
  decoder : σ
  state : State
  buf : Bytes
deriving DecidableEq

inductive BodyPoll
  | pending
  | data (bytes : Bytes)
  | trailers (trailers : HeaderMap)
  | error (status : Status)
deriving DecidableEq

structure Streaming (σ : Type) where
  reader : Reader σ
  body : List BodyPoll
  trailers : Option HeaderMap
deriving DecidableEq

def requestSettings (maxMessageSize : Option Nat) : StreamSettings where
  direction := .request
  encoding := none
  maxMessageSize := maxMessageSize

def responseSettings : StreamSettings where
  direction := .response { asU16 := 200, display := "200 OK" }
  encoding := none
  maxMessageSize := none

def okTrailers : HeaderMap := { entries := [(utf8 "grpc-status", utf8 "0")] }

def Streaming.new {σ : Type} (decoder : σ) (body : List BodyPoll) : Streaming σ where
  reader := { decoder := decoder, state := .readHeader, buf := [] }
  body := body
  trailers := none

/-! ## Reading a frame -/

namespace StreamSettings
variable (c : StreamSettings)

def limit : Nat := c.maxMessageSize.getD defaultMaxRecvMessageSize

def invalidFlag (flag : UInt8) : Status :=
  let message := "protocol error: received message with invalid compression flag: " ++ toString flag.toNat ++
    " (valid flags are 0 and 1)"
  match c.direction with
  | .response status => .internal (message ++ " while receiving response with status: " ++ status.display)
  | _ => .internal (message ++ ", while sending request")

def compressionOf (flag : UInt8) : Except Status (Option CompressionEncoding) :=
  if flag = 0 then .ok none
  else if flag = 1 then
    match c.encoding with
    | some encoding => .ok (some encoding)
    | none =>
      .error (.internal "protocol error: received message with compressed-flag but no grpc-encoding was specified")
  else .error (c.invalidFlag flag)

def tooLarge (len : Nat) : Status :=
  .outOfRange ("Error, decoded message length too large: found " ++ toString len ++ " bytes, the limit is: " ++
    toString c.limit ++ " bytes")

def decompressError : IoError → Status
  | .writeZero =>
    .resourceExhausted ("Error decompressing: size limit, of " ++ toString c.limit ++
      " bytes, exceeded while decompressing message")
  | .other err =>
    match c.direction with
    | .response status =>
      .internal ("Error decompressing: " ++ err ++ ", while receiving response with status: " ++ status.display)
    | _ => .internal ("Error decompressing: " ++ err ++ ", while sending request")

end StreamSettings

structure DecodeBuf where
  bytes : Bytes
  inPlace : Bool

namespace Reader
variable {σ T : Type} (C : Compression) (D : Decoder σ T) (c : StreamSettings)

/-- The first half of `StreamingInner::decode_chunk`. Returns whether a header has been read. -/
def readHeader (r : Reader σ) : Except Status Bool × Reader σ :=
  match r.state with
  | .readHeader =>
    match header? r.buf with
    | none => (.ok false, r)
    | some (flag, len, rest) =>
      match c.compressionOf flag with
      -- only the flag has been taken off the buffer
      | .error status => (.error status, { r with buf := r.buf.drop 1 })
      | .ok compression =>
        if c.limit < len then (.error (c.tooLarge len), { r with buf := rest })
        else (.ok true, { r with buf := rest, state := .readBody compression len })
  | _ => (.ok true, r)

def readBody (bufferSize : Nat) (r : Reader σ) : Except Failure (Option DecodeBuf) × Reader σ :=
  match r.state with
  | .readBody compression len =>
    if r.buf.length < len then (.ok none, r)
    else
      match compression with
      | none => (.ok (some { bytes := r.buf.take len, inPlace := true }), r)
      | some encoding =>
        match decompress C encoding bufferSize c.limit (r.buf.take len) with
        | .error panic => (.error (.panic panic), r)
        | .ok (.error err) => (.error (.status (c.decompressError err)), r)
        | .ok (.ok bytes) => (.ok (some { bytes := bytes, inPlace := false }), { r with buf := r.buf.drop len })
  | _ => (.ok none, r)

def readFrame (bufferSize : Nat) (r : Reader σ) : Except Failure (Option DecodeBuf) × Reader σ :=
  match r.readHeader c with
  | (.error status, r) => (.error (.status status), r)
  | (.ok false, r) => (.ok none, r)
  | (.ok true, r) => r.readBody C c bufferSize

def decoded (r : Reader σ) (payload : DecodeBuf) (d : Decoded σ T) : Reader σ :=
  { r with decoder := d.decoder, buf := if payload.inPlace then r.buf.drop d.consumed else r.buf }

def decodeChunk (r : Reader σ) : Except Failure (Option T) × Reader σ :=
  match r.readFrame C c D.bufferSettings.bufferSize with
  | (.error failure, r) => (.error failure, r)
  | (.ok none, r) => (.ok none, r)
  | (.ok (some payload), r) =>
    let d := D.decode r.decoder payload.bytes
    match d.result with
    | .error status => (.error (.status status), r.decoded payload d)
    | .ok none => (.ok none, r.decoded payload d)
    | .ok (some msg) => (.ok (some msg), { r.decoded payload d with state := .readHeader })

end Reader

/-! ## Polling -/

namespace Streaming
variable {σ T : Type} (C : Compression) (D : Decoder σ T) (c : StreamSettings)

variable (s : Streaming σ)

def beforeFrame : Option (Poll Failure T) × Streaming σ :=
  match s.reader.state with
  | .error status =>
    (some (status.elim .ended fun status => .failed (.status status)),
      { s with reader := { s.reader with state := .error none } })
  | _ =>
    match s.reader.decodeChunk C D c with
    | (.error failure, r) => (some (.failed failure), { s with reader := r })
    | (.ok (some msg), r) => (some (.item msg), { s with reader := r })
    | (.ok none, r) => (none, { s with reader := r })

def response (s : Streaming σ) : Except Panic (Except Status Unit × Streaming σ) :=
  match c.direction with
  | .response status =>
    match inferGrpcStatus s.trailers status with
    | .error panic => .error panic
    | .ok (.error (some e)) => .ok (.error e, { s with trailers := none })
    | .ok _ => .ok (.ok (), s)
  | _ => .ok (.ok (), s)

/-- `poll_frame` found no more frames. The next turn of the loop yields a failure. -/
def finish : Poll Failure T × Streaming σ :=
  match s.response c with
  | .error panic => (.failed (.panic panic), s)
  | .ok (.ok (), s) => (.ended, s)
  | .ok (.error err, s) => (.failed (.status err), { s with reader := { s.reader with state := .error none } })

def unexpectedEof : Status := .internal "Unexpected EOF decoding stream."

def endOfBody : Poll Failure T × Streaming σ :=
  if s.reader.buf.isEmpty then s.finish c else (.failed (.status unexpectedEof), s)

def storeTrailers (trailers : HeaderMap) : Streaming σ :=
  { s with trailers := some (s.trailers.elim trailers (·.extend trailers)) }

def bodyError (status : Status) : Poll Failure T × Streaming σ :=
  if c.direction = .request ∧ status.code = .cancelled then s.finish c
  else (.failed (.status status), { s with reader := { s.reader with state := .error (some status) } })

def pollLoop (s : Streaming σ) : List BodyPoll → Poll Failure T × Streaming σ
  | [] =>
    match s.beforeFrame C D c with
    | (some polled, s) => (polled, s)
    | (none, s) => s.endOfBody c
  | frame :: rest =>
    match s.beforeFrame C D c with
    | (some polled, s) => (polled, s)
    | (none, s) =>
      match frame with
      | .pending => (.pending, { s with body := rest })
      | .data bytes => pollLoop { s with reader := { s.reader with buf := s.reader.buf ++ bytes }, body := rest } rest
      | .trailers trailers => finish c (storeTrailers { s with body := rest } trailers)
      | .error status => bodyError c { s with body := rest } status

def pollNext : Poll Failure T × Streaming σ := s.pollLoop C D c s.body

def takeTrailers : Option HeaderMap × Streaming σ := (s.trailers, { s with trailers := none })

/-! ## The status of the peer -/

/-- Only a response stream reads a status from its trailers. -/
theorem response_ok_iff : (∃ result, s.response c = .ok result) ↔
    ((∃ status, c.direction = .response status) → ∀ map ∈ s.trailers, Status.Readable map) := by
  unfold response
  cases c.direction with
  | request => simp
  | emptyResponse => simp
  | response status =>
    rw [← inferGrpcStatus_ok_iff s.trailers status]
    cases hi : inferGrpcStatus s.trailers status with
    | error panic => simp [hi]
    | ok inferred => rcases inferred with (_ | e) | _ <;> simp [hi]

end Streaming

/-- Reading a status, also at the end of a response stream, panics exactly if there is a status whose details are
not base64. -/
theorem status_read_without_panic (trailers : Option HeaderMap) :
    ((∀ map ∈ trailers, ∃ st, Status.fromHeaderMap map = .ok st) ↔ ∀ map ∈ trailers, Status.Readable map) ∧
      (∀ sc, (∃ ir, inferGrpcStatus trailers sc = .ok ir) ↔ ∀ map ∈ trailers, Status.Readable map) ∧
      ∀ (σ : Type) (c : StreamSettings) (s : Streaming σ), s.trailers = trailers →
        ((∃ result, s.response c = .ok result) ↔
          ((∃ st, c.direction = .response st) → ∀ map ∈ trailers, Status.Readable map)) := by
  refine ⟨?_, inferGrpcStatus_ok_iff trailers, ?_⟩
  · exact forall₂_congr fun map _ => Status.fromHeaderMap_ok_iff
  · rintro σ c s rfl
    exact s.response_ok_iff c

/-- Trailers with a message that is not UTF-8 and details without padding are read. -/
theorem status_read_without_panic_details :
    Status.Readable { entries := [(utf8 "grpc-status", utf8 "99"), (utf8 "grpc-message", utf8 "%ff"),
      (utf8 "grpc-status-details-bin", utf8 "YWI")] } ∧
    ∃ inferred, inferGrpcStatus (some { entries := [(utf8 "grpc-status", utf8 "99"), (utf8 "grpc-message", utf8 "%ff"),
      (utf8 "grpc-status-details-bin", utf8 "YWI")] }) { asU16 := 200, display := "200 OK" } = .ok inferred := by
  have hr : Status.Readable { entries := [(utf8 "grpc-status", utf8 "99"), (utf8 "grpc-message", utf8 "%ff"),
      (utf8 "grpc-status-details-bin", utf8 "YWI")] } := by
    refine .inr fun hd hg => ?_
    have : hd = utf8 "YWI" := by
      rw [show HeaderMap.get _ Status.grpcStatusDetails = some (utf8 "YWI") by decide] at hg
      exact (Option.some.inj hg).symm
    rw [this]
    decide
  refine ⟨hr, ((status_read_without_panic (some _)).2.1 _).2 ?_⟩
  rintro map ⟨⟩
  exact hr

/-- Details that are not base64 panic, also after success and at the end of a response stream. -/
theorem invalid_details_panic :
    let map : HeaderMap := { entries := [(utf8 "grpc-status", utf8 "0"), (utf8 "grpc-status-details-bin", utf8 "!")] }
    let panic := Panic.expect "Invalid status header, expected base64 encoded value"
    let ok : StatusCode := { asU16 := 200, display := "200 OK" }
    Status.fromHeaderMap map = .error panic ∧ inferGrpcStatus (some map) ok = .error panic ∧
      Streaming.response responseSettings { Streaming.new () [] with trailers := some map } = .error panic := by
  decide

end Tonic
