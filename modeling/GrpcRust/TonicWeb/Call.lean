import GrpcRust.Tonic.Encode
import GrpcRust.TonicWeb.Trailers
/-!
# The body of a gRPC-web call

`GrpcWebCall` of `call.rs`: the server decodes requests and encodes responses, the client the reverse. The loops take
fuel, one unit for each poll of the inner body.
-/

namespace TonicWeb

open Lib Lib.Bytes Tonic

/-! ## Bodies -/

structure SizeHint where
  lower : Nat
  upper : Option Nat
deriving DecidableEq

structure Body (σ : Type) where
  pollFrame : σ → Poll String HttpFrame × σ
  isEndStream : σ → Bool
  sizeHint : σ → SizeHint

inductive Failure
  | status (status : Status)
  | base64
  | panic (message : String)
deriving DecidableEq

def internalError (e : String) : Failure := .status (.internal ("tonic-web: " ++ e))

def dataLoss (e : String) : Failure := .status (.dataLoss ("tonic-web: " ++ e))

inductive Direction
  | decode
  | encode
  | empty
deriving DecidableEq

inductive Encoding
  | base64
  | none
deriving DecidableEq

structure Held where
  decoded : Bytes
  trailers : Option HeaderMap
deriving DecidableEq

structure Call (σ : Type) where
  inner : σ
  buf : Bytes := []
  held : Held := { decoded := [], trailers := none }
  direction : Direction
  encoding : Encoding
  client : Bool
deriving DecidableEq

namespace Call
variable {σ : Type}

variable (inner : σ) (encoding : Encoding)

def request : Call σ := { inner := inner, direction := .decode, encoding := encoding, client := false }

def response : Call σ := { inner := inner, direction := .encode, encoding := encoding, client := false }

def clientRequest : Call σ := { inner := inner, direction := .encode, encoding := .none, client := true }

def clientResponse : Call σ := { inner := inner, direction := .decode, encoding := .none, client := true }

end Call

/-! ## Frames in a buffer -/

inductive FindTrailers
  | trailer (len : Nat)
  | incompleteBuf
  | done (len : Nat)
deriving DecidableEq

def invalidHeaderBit (header : UInt8) : Status :=
  .internal ("Invalid header bit " ++ toString header.toNat ++ " expected 0 or 1")

/-- `len` bytes of whole frames have been passed. A turn passes five or more: the buffer's length is enough fuel. -/
def findTrailersFrom (buf : Bytes) : Nat → Nat → Except Status FindTrailers
  | 0, len => .ok (.done len)
  | fuel + 1, len =>
    match header? (buf.drop len) with
    | none => .ok (.done len)
    | some (header, msgLen, _) =>
      if header = trailersBit then .ok (.trailer len)
      else if ¬(header = 0 ∨ header = 1) then .error (invalidHeaderBit header)
      else if buf.length < len + (msgLen + 4 + 1) then .ok .incompleteBuf
      else findTrailersFrom buf fuel (len + (msgLen + 4 + 1))

def findTrailers (buf : Bytes) : Except Status FindTrailers := findTrailersFrom buf buf.length 0

def grpcWebFrameTotalLen (buf : Bytes) : Option Nat := (header? buf).map fun (_, len, _) => 5 + len

/-! ## Responses at the client -/

namespace Held

variable (h : Held) (eof : Bool) (msgBuf : Bytes)

/-- The stored trailers if there are any, the end if nothing more comes, another turn otherwise. -/
def trailersOrMore : Option (Poll Failure HttpFrame) × Held :=
  match h.trailers with
  | some trailers => (some (.item (.trailers trailers)), { h with trailers := none })
  | none => (if eof then some .ended else none, h)

def dataOrTrailers : Option (Poll Failure HttpFrame) × Held :=
  if !msgBuf.isEmpty then (some (.item (.data msgBuf)), h) else h.trailersOrMore eof

def trailersFound : Option (Poll Failure HttpFrame) × Held :=
  match (grpcWebFrameTotalLen h.decoded).filter (· ≤ h.decoded.length) with
  | some totalLen =>
    let rest := { h with decoded := h.decoded.drop totalLen }
    match decodeTrailersFrame (h.decoded.take totalLen) with
    | .ok (some trailers) => dataOrTrailers { rest with trailers := some trailers } eof msgBuf
    | .ok none => rest.dataOrTrailers eof msgBuf
    | .error e => (some (.failed (.status e)), rest)
  | none =>
    if eof && msgBuf.isEmpty then (some (.failed (dataLoss "incomplete grpc-web trailers frame")), h)
    else h.dataOrTrailers eof msgBuf

def scan : Option (Poll Failure HttpFrame) × Held :=
  match findTrailers h.decoded with
  | .error e => (some (.failed (.status e)), h)
  | .ok (.trailer len) => trailersFound { h with decoded := h.decoded.drop len } eof (h.decoded.take len)
  | .ok .incompleteBuf => (if eof then some (.failed (dataLoss "incomplete grpc-web message frame")) else none, h)
  | .ok (.done len) =>
    if len = 0 then h.trailersOrMore eof
    else (some (.item (.data (h.decoded.take len))), { h with decoded := h.decoded.drop len })

def storeTrailers (trailers : HeaderMap) : Held :=
  { h with trailers := some (h.trailers.elim trailers (·.extend trailers)) }

def turn : Poll Failure HttpFrame → Option (Poll Failure HttpFrame) × Held
  | .pending => (some .pending, h)
  | .failed e => (some (.failed e), h)
  | .item (.data bytes) => scan { h with decoded := h.decoded ++ bytes } false
  | .item (.trailers trailers) => (none, h.storeTrailers trailers)
  | .ended => h.scan true

end Held

/-! ## Polling -/

namespace Call
variable {σ : Type} (B : Body σ)

variable (c : Call σ) (fuel : Nat)

def decodeChunk : Except Failure (Option Bytes) × Call σ :=
  if c.buf.length < 4 then (.ok none, c)
  else
    let index := c.buf.length / 4 * 4
    let c' := { c with buf := c.buf.drop index }
    match Base64.decode (c.buf.take index) with
    | some bytes => (.ok (some bytes), c')
    | none => (.error .base64, c')

def endOfBase64 : Poll Failure HttpFrame × Call σ :=
  if !c.buf.isEmpty then (.failed (internalError "malformed base64 request"), c)
  else
    match c.held.trailers with
    | some trailers => (.item (.trailers trailers), { c with held := { c.held with trailers := none } })
    | none => (.ended, c)

def pollBase64 : Nat → Call σ → Option (Poll Failure HttpFrame × Call σ)
  | 0, _ => none
  | fuel + 1, c =>
    match c.decodeChunk with
    | (.error e, c) => some (.failed e, c)
    | (.ok (some bytes), c) => some (.item (.data bytes), c)
    | (.ok none, c) =>
      match B.pollFrame c.inner with
      | (.pending, inner) => some (.pending, { c with inner := inner })
      | (.item (.data bytes), inner) => pollBase64 fuel { c with inner := inner, buf := c.buf ++ bytes }
      | (.item (.trailers _), inner) =>
        some (.failed (internalError "malformed base64 request has unencoded trailers"), { c with inner := inner })
      | (.failed e, inner) => some (.failed (internalError e), { c with inner := inner })
      | (.ended, inner) => some (endOfBase64 { c with inner := inner })

def passed : Poll String HttpFrame → Poll Failure HttpFrame
  | .pending => .pending
  | .ended => .ended
  | .item frame => .item frame
  | .failed e => .failed (internalError e)

def pollDecode (c : Call σ) : Option (Poll Failure HttpFrame × Call σ) :=
  match c.encoding with
  | .base64 => c.pollBase64 B fuel
  | .none => some (passed (B.pollFrame c.inner).1, { c with inner := (B.pollFrame c.inner).2 })

def encodeData (bytes : Bytes) : HttpFrame :=
  match c.encoding with
  | .base64 => .data (Base64.encode true bytes)
  | .none => .data bytes

def pollEncode : Poll Failure HttpFrame × Call σ :=
  match B.pollFrame c.inner with
  | (.pending, inner) => (.pending, { c with inner := inner })
  | (.item (.data bytes), inner) => (.item (c.encodeData bytes), { c with inner := inner })
  | (.item (.trailers trailers), inner) =>
    match makeTrailersFrame trailers with
    | .ok bytes => (.item (c.encodeData bytes), { c with inner := inner })
    | .error message => (.failed (.panic message), { c with inner := inner })
  | (.failed e, inner) => (.failed (internalError e), { c with inner := inner })
  | (.ended, inner) => (.ended, { c with inner := inner })

def pollClientLoop : Nat → Call σ → Option (Poll Failure HttpFrame × Call σ)
  | 0, _ => none
  | fuel + 1, c =>
    match c.pollDecode B (fuel + 1) with
    | none => none
    | some (polled, c) =>
      match c.held.turn polled with
      | (some polled, held) => some (polled, { c with held := held })
      | (none, held) => pollClientLoop fuel { c with held := held }

def pollClient (c : Call σ) : Option (Poll Failure HttpFrame × Call σ) :=
  match c.held with
  | { decoded := [], trailers := some trailers } =>
    some (.item (.trailers trailers), { c with held := { decoded := [], trailers := none } })
  | _ => c.pollClientLoop B fuel

def pollFrame (c : Call σ) : Option (Poll Failure HttpFrame × Call σ) :=
  match c.direction with
  | .decode => if c.client then c.pollClient B fuel else c.pollDecode B fuel
  | .encode => some (c.pollEncode B)
  | .empty => some (.ended, c)

def isEndStream (c : Call σ) : Bool := B.isEndStream c.inner

def sizeHint (c : Call σ) : SizeHint := B.sizeHint c.inner

end Call

end TonicWeb
