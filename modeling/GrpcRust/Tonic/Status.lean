import GrpcRust.Lib.Base64
import GrpcRust.Lib.HeaderMap
import GrpcRust.Lib.Text
/-!
# Statuses of tonic

`status.rs`: a status, its headers, and the status of a response that ended. The source error is left out.
-/

namespace Tonic

open Lib Lib.Bytes

inductive Panic
  | expect (message : String)
  | divisionByZero
deriving DecidableEq

inductive Code
  | ok
  | cancelled
  | unknown
  | invalidArgument
  | deadlineExceeded
  | notFound
  | alreadyExists
  | permissionDenied
  | resourceExhausted
  | failedPrecondition
  | aborted
  | outOfRange
  | unimplemented
  | internal
  | unavailable
  | dataLoss
  | unauthenticated
deriving DecidableEq

namespace Code

def fromBytes : Bytes → Code
  | [48] => ok
  | [49] => cancelled
  | [50] => unknown
  | [51] => invalidArgument
  | [52] => deadlineExceeded
  | [53] => notFound
  | [54] => alreadyExists
  | [55] => permissionDenied
  | [56] => resourceExhausted
  | [57] => failedPrecondition
  | [49, 48] => aborted
  | [49, 49] => outOfRange
  | [49, 50] => unimplemented
  | [49, 51] => internal
  | [49, 52] => unavailable
  | [49, 53] => dataLoss
  | [49, 54] => unauthenticated
  | _ => unknown

def toHeaderValue : Code → Bytes
  | ok => utf8 "0"
  | cancelled => utf8 "1"
  | unknown => utf8 "2"
  | invalidArgument => utf8 "3"
  | deadlineExceeded => utf8 "4"
  | notFound => utf8 "5"
  | alreadyExists => utf8 "6"
  | permissionDenied => utf8 "7"
  | resourceExhausted => utf8 "8"
  | failedPrecondition => utf8 "9"
  | aborted => utf8 "10"
  | outOfRange => utf8 "11"
  | unimplemented => utf8 "12"
  | internal => utf8 "13"
  | unavailable => utf8 "14"
  | dataLoss => utf8 "15"
  | unauthenticated => utf8 "16"

end Code

/-! ## Statuses -/

structure Status where
  code : Code
  message : Bytes
  details : Bytes := []
  metadata : HeaderMap := .empty
deriving DecidableEq

namespace Status
variable {hm : HeaderMap} {name : Bytes}

def new (code : Code) (message : String) : Status := { code := code, message := utf8 message }

def cancelled (message : String) : Status := new .cancelled message
def unknown (message : String) : Status := new .unknown message
def resourceExhausted (message : String) : Status := new .resourceExhausted message
def outOfRange (message : String) : Status := new .outOfRange message
def internal (message : String) : Status := new .internal message
def dataLoss (message : String) : Status := new .dataLoss message

def grpcStatus : Bytes := utf8 "grpc-status"
def grpcMessage : Bytes := utf8 "grpc-message"
def grpcStatusDetails : Bytes := utf8 "grpc-status-details-bin"

/-! ### From headers -/

variable (headerMap : HeaderMap) (status : Status) (s : Status) (hr : HeaderMap)

def detailsOf : Except Panic Bytes :=
  match headerMap.get grpcStatusDetails with
  | some header =>
    match Base64.decode header with
    | some details => .ok details
    | none => .error (.expect "Invalid status header, expected base64 encoded value")
  | none => .ok []

def messageOf : Except Utf8Error Bytes :=
  match headerMap.get grpcMessage with
  | some header => fromUtf8 (percentDecode header)
  | none => .ok []

def fromHeaderMap : Except Panic (Option Status) :=
  match headerMap.get grpcStatus with
  | none => .ok none
  | some header => do
    let code := Code.fromBytes header
    let errorMessage := messageOf headerMap
    let details ← detailsOf headerMap
    let otherHeaders := ((headerMap.remove grpcStatus).remove grpcMessage).remove grpcStatusDetails
    let (code, message) :=
      match errorMessage with
      | .ok message => (code, message)
      | .error e => (.unknown, utf8 ("Error deserializing status message header: " ++ e.display))
    .ok (some { code := code, message := message, details := details, metadata := otherHeaders })

/-- There is no status, or its details are base64. -/
def Readable : Prop :=
  headerMap.get grpcStatus = none ∨
    ∀ header, headerMap.get grpcStatusDetails = some header → (Base64.decode header).isSome = true

theorem detailsOf_ok_iff : (∃ details, detailsOf hm = .ok details) ↔
    ∀ header, hm.get grpcStatusDetails = some header → (Base64.decode header).isSome = true := by
  unfold detailsOf
  cases hm.get grpcStatusDetails with
  | none => simp
  | some header => cases hd : Base64.decode header <;> simp [hd]

theorem fromHeaderMap_ok_iff : (∃ status, fromHeaderMap hm = .ok status) ↔ Readable hm := by
  unfold fromHeaderMap Readable
  cases hm.get grpcStatus with
  | none => simp
  | some header =>
    -- Past the code only the details can panic: a message that is not UTF-8 gives another status.
    rw [← detailsOf_ok_iff]
    cases detailsOf hm with
    | error panic => simp [bind, Except.bind]
    | ok details => simp [bind, Except.bind]

/-! ### Into headers -/

/-- `ENCODING_SET`: the control characters, and what else has to be escaped in a message. -/
def encodingSet (b : UInt8) : Bool := b < 32 || b == 127 || (utf8 " \"#%<>`?\x7b\x7d").elem b

def grpcReservedHeaders : List Bytes :=
  [utf8 "te", utf8 "content-type", utf8 "grpc-message", utf8 "grpc-message-type", utf8 "grpc-status"]

def intoSanitizedHeaders (metadata : HeaderMap) : HeaderMap := grpcReservedHeaders.foldl (·.remove ·) metadata

def invalidHeaderValueByte : Status := internal "Couldn't serialize non-text grpc status header"

def insertUnlessEmpty (name content value : Bytes) : Except Status HeaderMap :=
  if content.isEmpty then .ok headerMap
  else
    match headerValue? value with
    | some value => .ok (headerMap.insert name value)
    | none => .error invalidHeaderValueByte

def addHeader (headerMap : HeaderMap) : Except Status HeaderMap := do
  let headerMap := headerMap.extend (intoSanitizedHeaders status.metadata)
  let headerMap := headerMap.insert grpcStatus status.code.toHeaderValue
  let headerMap ←
    insertUnlessEmpty headerMap grpcMessage status.message (percentEncode encodingSet status.message)
  insertUnlessEmpty headerMap grpcStatusDetails status.details (Base64.encode false status.details)

def toHeaderMap : Except Status HeaderMap := status.addHeader .empty

theorem visible_of_not_encodingSet (b : UInt8) (h : encodingSet b = false) : 32 ≤ b ∧ b ≠ 127 := by
  simp only [encodingSet, Bool.or_eq_false_iff, decide_eq_false_iff_not, beq_eq_false_iff_ne] at h
  refine ⟨?_, h.1.2⟩
  have := h.1.1
  rw [UInt8.lt_iff_toNat_lt] at this
  rw [UInt8.le_iff_toNat_le]
  omega

theorem insertUnlessEmpty_eq {c v : Bytes} (h : headerValue? v = some v) :
    insertUnlessEmpty hm name c v = .ok (if c.isEmpty then hm else hm.insert name v) := by
  unfold insertUnlessEmpty
  split
  · rfl
  · rw [h]

/-- The fields of the status written over a header map. -/
def headersOn (headerMap : HeaderMap) : HeaderMap :=
  let headerMap := (headerMap.extend (intoSanitizedHeaders status.metadata)).insert grpcStatus status.code.toHeaderValue
  let headerMap :=
    if status.message.isEmpty then headerMap
    else headerMap.insert grpcMessage (percentEncode encodingSet status.message)
  if status.details.isEmpty then headerMap
  else headerMap.insert grpcStatusDetails (Base64.encode false status.details)

def headers : HeaderMap := status.headersOn .empty

theorem headers_eq : s.headers = s.headersOn .empty := rfl

theorem addHeader_eq : s.addHeader hr = .ok (s.headersOn hr) := by
  have hm : headerValue? (percentEncode encodingSet s.message) = _ :=
    headerValue?_of_visible fun _ hb => visible_of_mem_percentEncode visible_of_not_encodingSet hb
  have hd : headerValue? (Base64.encode false s.details) = _ :=
    headerValue?_of_visible fun _ hb => Base64.visible_of_mem_encode hb
  unfold addHeader headersOn
  simp only [insertUnlessEmpty_eq hm, insertUnlessEmpty_eq hd]
  rfl

theorem toHeaderMap_eq : s.toHeaderMap = .ok s.headers := s.addHeader_eq .empty

def intoHttp : Except Status HeaderMap :=
  status.addHeader (HeaderMap.empty.insert (utf8 "content-type") (utf8 "application/grpc"))

/-! ### Reserved names -/

theorem valuesOf_foldl_remove (ns : List Bytes) (hm : HeaderMap) (name : Bytes) :
    (ns.foldl (·.remove ·) hm).valuesOf name = if name ∈ ns then [] else hm.valuesOf name := by
  induction ns generalizing hm with
  | nil => rfl
  | cons first ns ih =>
    rw [List.foldl_cons, ih]
    by_cases hname : name = first
    · simp [hname]
    · simp [hname, hm.valuesOf_remove_of_ne hname]

theorem valuesOf_intoSanitizedHeaders (m : HeaderMap) (name : Bytes) :
    (intoSanitizedHeaders m).valuesOf name = if name ∈ grpcReservedHeaders then [] else m.valuesOf name :=
  valuesOf_foldl_remove ..

theorem valuesOf_headersOn_grpcStatus : (s.headersOn hr).valuesOf grpcStatus = [s.code.toHeaderValue] := by
  have hm : grpcStatus ≠ grpcMessage := by decide
  have hd : grpcStatus ≠ grpcStatusDetails := by decide
  unfold headersOn
  split <;> split <;> simp [HeaderMap.valuesOf_insert_of_ne, hm, hd]

theorem valuesOf_headersOn (hs : name ≠ grpcStatus) (hm : name ≠ grpcMessage) (hd : name ≠ grpcStatusDetails) :
    (s.headersOn hr).valuesOf name = (hr.extend (intoSanitizedHeaders s.metadata)).valuesOf name := by
  unfold headersOn
  split <;> split <;> simp [HeaderMap.valuesOf_insert_of_ne, hs, hm, hd]

theorem valuesOf_headersOn_grpcMessage (h : hm.valuesOf grpcMessage = []) : (s.headersOn hm).valuesOf grpcMessage =
      if s.message.isEmpty then [] else [percentEncode encodingSet s.message] := by
  have hst : grpcMessage ≠ grpcStatus := by decide
  have hd : grpcMessage ≠ grpcStatusDetails := by decide
  have hs : (intoSanitizedHeaders s.metadata).valuesOf grpcMessage = [] :=
    (valuesOf_intoSanitizedHeaders ..).trans (if_pos (by decide))
  unfold headersOn
  split <;> split <;>
    simp_all [HeaderMap.valuesOf_insert_of_ne, HeaderMap.valuesOf_extend]

end Status

/-! ## The status of a response that ended -/

structure StatusCode where
  asU16 : Nat
  display : String
deriving DecidableEq

def missingStatusText : String :=
  "protocol error: missing grpc-status trailer, stream was terminated without a final status (possible truncation " ++
    "by a proxy or load balancer)"

def mappedStatus (statusCode : StatusCode) : Status :=
  if statusCode.asU16 = 200 then .unknown missingStatusText
  else
    let code : Code :=
      match statusCode.asU16 with
      | 400 => .internal
      | 401 => .unauthenticated
      | 403 => .permissionDenied
      | 404 => .unimplemented
      | 429 | 502 | 503 | 504 => .unavailable
      | _ => .unknown
    .new code ("grpc-status header missing, mapped from HTTP status code " ++ toString statusCode.asU16)

def inferGrpcStatus (trailers : Option HeaderMap) (statusCode : StatusCode) :
    Except Panic (Except (Option Status) Unit) :=
  let inferred (fromTrailers : Option Status) : Except (Option Status) Unit :=
    match fromTrailers with
    | some status => if status.code = .ok then .ok () else .error (some status)
    | none => .error (some (mappedStatus statusCode))
  match trailers with
  | some trailers => (Status.fromHeaderMap trailers).map inferred
  | none => .ok (inferred none)

theorem inferGrpcStatus_ok_iff (trailers : Option HeaderMap) (statusCode : StatusCode) :
    (∃ inferred, inferGrpcStatus trailers statusCode = .ok inferred) ↔ ∀ map ∈ trailers, Status.Readable map := by
  unfold inferGrpcStatus
  cases trailers with
  | none => simp
  | some map =>
    simp only [Option.mem_some_iff, forall_eq', ← Status.fromHeaderMap_ok_iff]
    cases Status.fromHeaderMap map <;> simp [Except.map]

theorem inferGrpcStatus_ne_error_none (trailers : Option HeaderMap) (statusCode : StatusCode) :
    inferGrpcStatus trailers statusCode ≠ .ok (.error none) := by
  unfold inferGrpcStatus
  cases trailers with
  | none => simp
  | some map =>
    rcases hmap : Status.fromHeaderMap map with panic | _ | status
    · simp [hmap, Except.map]
    · simp [hmap, Except.map]
    · by_cases hcode : status.code = .ok <;> simp [hmap, Except.map, hcode]

end Tonic
