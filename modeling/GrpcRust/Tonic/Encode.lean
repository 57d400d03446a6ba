import GrpcRust.Tonic.Decode
/-!
# Encoding messages into a body

`codec/encode.rs`: `EncodedBytes` fills a buffer, `EncodeBody` makes frames of an HTTP body from it. A source is the
list of what polling it returns.
-/

namespace Tonic

open Lib Lib.Bytes

inductive SourcePoll (T : Type)
  | pending
  | item (item : T)
  | error (status : Status)

structure EncodeSettings where
  compressionEncoding : Option CompressionEncoding
  maxMessageSize : Option Nat

structure EncodedBytes (ε T : Type) where
  source : List (SourcePoll T)
  encoder : ε
  buf : Bytes
  error : Option Status

def EncodedBytes.new {ε T : Type} (encoder : ε) (source : List (SourcePoll T)) : EncodedBytes ε T where
  source := source
  encoder := encoder
  buf := []
  error := none

/-! ## One message -/

namespace EncodeSettings
variable (c : EncodeSettings)

def limit : Nat := c.maxMessageSize.getD defaultMaxSendMessageSize

def flag : UInt8 := if c.compressionEncoding.isSome then 1 else 0

def finishEncoding (len : Nat) : Except Status Unit :=
  if c.limit < len then
    .error (.outOfRange ("Error, encoded message length too large: found " ++ toString len ++
      " bytes, the limit is: " ++ toString c.limit ++ " bytes"))
  else if 2 ^ 32 - 1 < len then
    .error (.resourceExhausted ("Cannot return body with more than 4GB of data but got " ++ toString len ++ " bytes"))
  else .ok ()

end EncodeSettings

section Encode
variable {ε T : Type} (C : Compression) (E : Encoder ε T) (c : EncodeSettings)

def encodePayload (encoder : ε) (item : T) : Except Failure Unit × ε × Bytes :=
  let e := E.encode encoder item
  let encodingFailed (err : String) : Failure := .status (.internal ("Error encoding: " ++ err))
  match c.compressionEncoding with
  | some encoding =>
    match e.result with
    -- what was written is in a buffer of its own
    | .error err => (.error (encodingFailed err), e.encoder, [])
    | .ok () =>
      match compress C encoding E.bufferSettings.bufferSize e.written with
      | .error panic => (.error (.panic panic), e.encoder, [])
      | .ok (out, some err) => (.error (.status (.internal ("Error compressing: " ++ err))), e.encoder, out)
      | .ok (out, none) => (.ok (), e.encoder, out)
  | none =>
    match e.result with
    | .error err => (.error (encodingFailed err), e.encoder, e.written)
    | .ok () => (.ok (), e.encoder, e.written)

/-- On failure the space for the header and what was written of the payload stay in the buffer. -/
def encodeItem (encoder : ε) (buf : Bytes) (item : T) : Except Failure Unit × ε × Bytes :=
  let unfinished (payload : Bytes) := buf ++ List.replicate headerSize 0 ++ payload
  match encodePayload C E c encoder item with
  | (.error failure, encoder, payload) => (.error failure, encoder, unfinished payload)
  | (.ok (), encoder, payload) =>
    match c.finishEncoding payload.length with
    | .error status => (.error (.status status), encoder, unfinished payload)
    | .ok () => (.ok (), encoder, buf ++ (c.flag :: be32 payload.length ++ payload))

namespace EncodedBytes

def pollSource (b : EncodedBytes ε T) : List (SourcePoll T) → Poll Failure Bytes × EncodedBytes ε T
  | [] => if b.buf.isEmpty then (.ended, b) else (.item b.buf, { b with buf := [] })
  | .pending :: rest =>
    if b.buf.isEmpty then (.pending, { b with source := rest })
    else (.item b.buf, { b with source := rest, buf := [] })
  | .item item :: rest =>
    match encodeItem C E c b.encoder b.buf item with
    | (.error failure, encoder, buf) => (.failed failure, { b with source := rest, encoder := encoder, buf := buf })
    | (.ok (), encoder, buf) =>
      if E.bufferSettings.yieldThreshold ≤ buf.length then
        (.item buf, { b with source := rest, encoder := encoder, buf := [] })
      else pollSource { b with source := rest, encoder := encoder, buf := buf } rest
  | .error status :: rest =>
    if b.buf.isEmpty then (.failed (.status status), { b with source := rest })
    else (.item b.buf, { b with source := rest, buf := [], error := some status })

def pollNext (b : EncodedBytes ε T) : Poll Failure Bytes × EncodedBytes ε T :=
  match b.error with
  | some status => (.failed (.status status), { b with error := none })
  | none => b.pollSource C E c b.source

end EncodedBytes

/-! ## Frames of a body -/

inductive HttpFrame
  | data (bytes : Bytes)
  | trailers (trailers : HeaderMap)
deriving DecidableEq

inductive Role
  | client
  | server
deriving DecidableEq

structure EncodeBody (ε T : Type) where
  inner : EncodedBytes ε T
  error : Option Status
  role : Role
  isEndStream : Bool

namespace EncodeBody

def new (role : Role) (encoder : ε) (source : List (SourcePoll T)) : EncodeBody ε T where
  inner := .new encoder source
  error := none
  role := role
  isEndStream := false

def trailers (b : EncodeBody ε T) : Option (Except Status HeaderMap) × EncodeBody ε T :=
  match b.role with
  | .client => (none, b)
  | .server =>
    if b.isEndStream then (none, b)
    else
      let status := b.error.getD (.new .ok "")
      (some status.toHeaderMap, { b with isEndStream := true, error := none })

/-- `poll_frame`. `cancelled` is whether the body has a cancellation token that is cancelled. -/
def pollFrame (cancelled : Bool) (b : EncodeBody ε T) : Poll Failure HttpFrame × EncodeBody ε T :=
  if cancelled then (.failed (.status (.cancelled "client cancelled")), b)
  else
    match b.inner.pollNext C E c with
    | (.pending, inner) => (.pending, { b with inner := inner })
    | (.failed (.panic panic), inner) => (.failed (.panic panic), { b with inner := inner })
    | (.item bytes, inner) => (.item (.data bytes), { b with inner := inner })
    | (.failed (.status status), inner) =>
      match b.role with
      | .client => (.failed (.status status), { b with inner := inner })
      | .server =>
        let b := { b with inner := inner, isEndStream := true }
        match status.toHeaderMap with
        | .ok map => (.item (.trailers map), b)
        | .error err => (.failed (.status err), b)
    | (.ended, inner) =>
      match trailers { b with inner := inner } with
      | (none, b) => (.ended, b)
      | (some (.ok map), b) => (.item (.trailers map), b)
      | (some (.error err), b) => (.failed (.status err), b)

end EncodeBody

end Encode

end Tonic
