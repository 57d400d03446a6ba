import GrpcRust.Lib.Frames
import GrpcRust.Lib.Polling
import GrpcRust.Tonic.Status
/-!
# Codecs of tonic

`codec/mod.rs`, `codec/buffer.rs` and `codec/compression.rs`. Allocation is not modelled, but a buffer size of
zero panics once something is compressed.
-/

namespace Tonic

open Lib Lib.Bytes

def headerSize : Nat := 5

def usizeMax : Nat := 2 ^ 64 - 1

def defaultMaxRecvMessageSize : Nat := 4 * 1024 * 1024
def defaultMaxSendMessageSize : Nat := usizeMax

structure BufferSettings where
  bufferSize : Nat := 8 * 1024
  yieldThreshold : Nat := 32 * 1024

inductive Failure
  | status (status : Status)
  | panic (panic : Panic)
deriving DecidableEq

/-! ## Messages -/

/-- What `Encoder::encode` did. Nothing is done with an error but to print it. -/
structure Encoded (ε : Type) where
  encoder : ε
  written : Bytes
  result : Except String Unit

structure Encoder (ε T : Type) where
  encode : ε → T → Encoded ε
  bufferSettings : BufferSettings

/-- What `Decoder::decode` did: the decoder after it, how much it read and what it returned. -/
structure Decoded (σ T : Type) where
  decoder : σ
  consumed : Nat
  result : Except Status (Option T)

structure Decoder (σ T : Type) where
  decode : σ → Bytes → Decoded σ T
  bufferSettings : BufferSettings
  consumed_le : ∀ decoder payload, (decode decoder payload).consumed ≤ payload.length

def Decoder.Decides {σ T : Type} (D : Decoder σ T) : Prop :=
  ∀ decoder payload, (D.decode decoder payload).result ≠ .ok none

def Decoder.ReadsAll {σ T : Type} (D : Decoder σ T) : Prop :=
  ∀ decoder payload msg, (D.decode decoder payload).result = .ok (some msg) →
    (D.decode decoder payload).consumed = payload.length

/-- The decoder reads what the encoder wrote as the same message; `related` ties the two states together. -/
structure RoundTrips {ε σ T : Type} (E : Encoder ε T) (D : Decoder σ T) (related : ε → σ → Prop) : Prop where
  decoded : ∀ encoder decoder msg, related encoder decoder → (E.encode encoder msg).result = .ok () →
    (D.decode decoder (E.encode encoder msg).written).result = .ok (some msg) ∧
    (D.decode decoder (E.encode encoder msg).written).consumed = (E.encode encoder msg).written.length ∧
    related (E.encode encoder msg).encoder (D.decode decoder (E.encode encoder msg).written).decoder

/-! ## Compression -/

inductive CompressionEncoding
  | gzip
  | deflate
  | zstd
deriving DecidableEq

/-- The compression libraries: what `std::io::copy` gets out of them, up to their end or an
error. -/
structure Compression where
  compress : CompressionEncoding → Bytes → Bytes × Option String
  decompress : CompressionEncoding → Bytes → Bytes × Option String

def Compression.RoundTrips (C : Compression) : Prop :=
  ∀ encoding bytes compressed, C.compress encoding bytes = (compressed, none) →
    C.decompress encoding compressed = (bytes, none)

inductive IoError
  | writeZero
  | other (message : String)
deriving DecidableEq

def compress (C : Compression) (encoding : CompressionEncoding) (bufferGrowthInterval : Nat) (input : Bytes) :
    Except Panic (Bytes × Option String) :=
  if bufferGrowthInterval = 0 then .error .divisionByZero else .ok (C.compress encoding input)

def decompress (C : Compression) (encoding : CompressionEncoding) (bufferGrowthInterval limit : Nat) (input : Bytes) :
    Except Panic (Except IoError Bytes) :=
  if bufferGrowthInterval = 0 then .error .divisionByZero
  else
    let (written, err) := C.decompress encoding input
    if limit < written.length then .ok (.error .writeZero)
    else
      match err with
      | some message => .ok (.error (.other message))
      | none => .ok (.ok written)

/-! ## Bytes as messages

The codec of raw bytes, and compression that stores them as they are. -/

def rawEncoder (bufferSettings : BufferSettings) : Encoder Unit Bytes where
  encode _ msg := { encoder := (), written := msg, result := .ok () }
  bufferSettings := bufferSettings

def rawDecoder : Decoder Unit Bytes where
  decode _ payload := { decoder := (), consumed := payload.length, result := .ok (some payload) }
  bufferSettings := {}
  consumed_le _ _ := le_rfl

def stored : Compression where
  compress _ bytes := (bytes, none)
  decompress _ bytes := (bytes, none)

theorem rawDecoder_decides : rawDecoder.Decides := fun _ _ h => nomatch h

theorem rawDecoder_readsAll : rawDecoder.ReadsAll := fun _ _ _ _ => rfl

end Tonic
