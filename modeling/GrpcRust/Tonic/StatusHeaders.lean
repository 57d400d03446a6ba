import GrpcRust.Tonic.Status
/-!
# What the headers of a status say

A status is written into headers and read back, and a status is read from headers with malformed fields.
-/

namespace Tonic.Status

open Lib Lib.Bytes HeaderMap

variable {headerMap : HeaderMap} {name : Bytes} {s : Status}

variable (status : Status) (hm : HeaderMap)

theorem get_grpcStatus : hm.get grpcStatus = (hm.valuesOf grpcStatus).head? := by
  have hname : headerName? grpcStatus = some grpcStatus := by decide
  simp only [HeaderMap.get, hname, Option.bind_some]

theorem get_grpcMessage : hm.get grpcMessage = (hm.valuesOf grpcMessage).head? := by
  have hname : headerName? grpcMessage = some grpcMessage := by decide
  simp only [HeaderMap.get, hname, Option.bind_some]

theorem get_grpcStatusDetails : hm.get grpcStatusDetails = (hm.valuesOf grpcStatusDetails).head? := by
  have hname : headerName? grpcStatusDetails = some grpcStatusDetails := by decide
  simp only [HeaderMap.get, hname, Option.bind_some]

/-! ## The code -/

def codeOf (headerMap : HeaderMap) : Except Panic (Option Code) := (fromHeaderMap headerMap).map (·.map (·.code))

/-- The details are base64, and the message is UTF-8 unless the code is `Unknown` in any case. -/
def CodeKept (headerMap : HeaderMap) : Prop :=
  ∀ header, headerMap.get grpcStatus = some header →
    (detailsOf headerMap).isOk = true ∧ ((messageOf headerMap).isOk = true ∨ Code.fromBytes header = .unknown)

theorem codeOf_of_codeKept (h : CodeKept headerMap) :
    codeOf headerMap = .ok ((headerMap.get grpcStatus).map Code.fromBytes) := by
  unfold codeOf fromHeaderMap
  cases hs : headerMap.get grpcStatus with
  | none => rfl
  | some hr =>
    obtain ⟨hdt, hms⟩ := h hr hs
    cases hd : detailsOf headerMap with
    | error e => simp [hd, Except.isOk, Except.toBool] at hdt
    | ok ds =>
      cases hm : messageOf headerMap with
      | ok m => rfl
      | error e =>
        have hu := hms.resolve_left (by simp [hm, Except.isOk, Except.toBool])
        simp only [Option.map_some, hu]
        rfl

theorem codeKept_of_codeOf (h : codeOf headerMap = .ok ((headerMap.get grpcStatus).map Code.fromBytes)) :
    CodeKept headerMap := by
  intro hr hs
  unfold codeOf fromHeaderMap at h
  simp only [hs, Option.map_some] at h
  cases hd : detailsOf headerMap with
  | error e =>
    rw [hd] at h
    cases h
  | ok ds =>
    refine ⟨rfl, ?_⟩
    cases hm : messageOf headerMap with
    | ok m => exact .inl rfl
    | error e =>
      rw [hd, hm] at h
      injection h with h
      injection h with h
      exact .inr h.symm

/-- Maps with one code are read as one code exactly if the other fields of the second leave it alone. -/
theorem code_of_headers (headerMap headerMap' : HeaderMap) (h : headerMap.get grpcStatus = headerMap'.get grpcStatus)
    (hkept : CodeKept headerMap) : codeOf headerMap = codeOf headerMap' ↔ CodeKept headerMap' := by
  rw [codeOf_of_codeKept hkept, h]
  exact ⟨fun heq => codeKept_of_codeOf heq.symm, fun hk' => (codeOf_of_codeKept hk').symm⟩

def notFoundHeaders : HeaderMap := { entries := [(grpcStatus, utf8 "5")] }

theorem codeKept_notFoundHeaders : CodeKept notFoundHeaders := fun _ _ => ⟨rfl, .inl rfl⟩

theorem code_of_notFoundHeaders :
    codeOf notFoundHeaders = codeOf (notFoundHeaders.insert grpcMessage (utf8 "no%20such")) :=
  (code_of_headers _ _ rfl codeKept_notFoundHeaders).2 fun _ _ => ⟨rfl, .inl rfl⟩

/-- A message that is not UTF-8 replaces the code, and details that are not base64 are a panic. -/
theorem code_of_malformed_headers : codeOf notFoundHeaders = .ok (some .notFound) ∧
      codeOf (notFoundHeaders.insert grpcMessage (utf8 "%FF")) = .ok (some .unknown) ∧
      codeOf (notFoundHeaders.insert grpcStatusDetails (utf8 "!")) =
        .error (.expect "Invalid status header, expected base64 encoded value") :=
  ⟨rfl, rfl, rfl⟩

/-! ## The round trip -/

/-- The status is written, and what is read back is the same, with the same metadata apart from what is reserved. -/
def RoundTrips (encoded : Except Status HeaderMap) : Prop :=
  ∃ headers decoded, encoded = .ok headers ∧ fromHeaderMap headers = .ok (some decoded) ∧
    decoded.code = status.code ∧ decoded.message = status.message ∧ decoded.details = status.details ∧
    ∀ name, name ∉ grpcReservedHeaders → name ≠ grpcStatusDetails →
      decoded.metadata.valuesOf name = status.metadata.valuesOf name

def OnlyReserved (headerMap : HeaderMap) : Prop := ∀ name, name ∉ grpcReservedHeaders → headerMap.valuesOf name = []

theorem fromBytes_toHeaderValue (code : Code) : Code.fromBytes code.toHeaderValue = code := by cases code <;> rfl

theorem messageOf_headersOn (hu8 : fromUtf8 s.message = .ok s.message)
    (hnone : headerMap.valuesOf grpcMessage = []) : messageOf (s.headersOn headerMap) = .ok s.message := by
  unfold messageOf
  rw [get_grpcMessage, valuesOf_headersOn_grpcMessage s hnone]
  cases hm : s.message with
  | nil => rfl
  | cons b r =>
    simp only [List.isEmpty_cons, Bool.false_eq_true, if_false, List.head?_cons]
    rw [percentDecode_percentEncode (by decide), ← hm]
    exact hu8

def withoutFields (headerMap : HeaderMap) : HeaderMap :=
  ((headerMap.remove grpcStatus).remove grpcMessage).remove grpcStatusDetails

theorem fromHeaderMap_headersOn (hu8 : fromUtf8 s.message = .ok s.message)
    (hnone : headerMap.valuesOf grpcMessage = []) :
    fromHeaderMap (s.headersOn headerMap) = (detailsOf (s.headersOn headerMap)).map fun details =>
      some { s with details := details, metadata := withoutFields (s.headersOn headerMap) } := by
  unfold fromHeaderMap
  rw [get_grpcStatus, valuesOf_headersOn_grpcStatus, messageOf_headersOn hu8 hnone]
  cases hd : detailsOf (s.headersOn headerMap) <;>
    simp [fromBytes_toHeaderValue, Except.map, bind, Except.bind, withoutFields]

theorem valuesOf_headersOn_grpcStatusDetails (s : Status) (hnone : headerMap.valuesOf grpcStatusDetails = []) :
    (s.headersOn headerMap).valuesOf grpcStatusDetails = if s.details = [] then s.metadata.valuesOf grpcStatusDetails
      else [Base64.encode false s.details] := by
  have hs : grpcStatusDetails ≠ grpcStatus := by decide
  have hm : grpcStatusDetails ≠ grpcMessage := by decide
  have hr : grpcStatusDetails ∉ grpcReservedHeaders := by decide
  unfold headersOn
  split <;> split <;>
    simp_all [valuesOf_insert_of_ne, valuesOf_extend, valuesOf_intoSanitizedHeaders]

theorem valuesOf_withoutFields_headersOn (s : Status) (hb : OnlyReserved headerMap)
    (hr : name ∉ grpcReservedHeaders) (hd : name ≠ grpcStatusDetails) :
    (withoutFields (s.headersOn headerMap)).valuesOf name = s.metadata.valuesOf name := by
  have hs : name ≠ grpcStatus := fun h => hr (h ▸ by decide)
  have hm : name ≠ grpcMessage := fun h => hr (h ▸ by decide)
  rw [withoutFields, valuesOf_remove_of_ne _ hd, valuesOf_remove_of_ne _ hm,
    valuesOf_remove_of_ne _ hs, valuesOf_headersOn _ _ hs hm hd,
    valuesOf_extend, valuesOf_intoSanitizedHeaders, if_neg hr, hb name hr]
  split <;> simp_all

def DetailsKept : Prop :=
  status.details ≠ [] ∨ ∀ header, status.metadata.get grpcStatusDetails = some header → Base64.decode header = some []

theorem detailsOf_headersOn (hnone : headerMap.valuesOf grpcStatusDetails = []) :
    detailsOf (status.headersOn headerMap) = .ok status.details ↔ DetailsKept status := by
  unfold detailsOf DetailsKept
  rw [get_grpcStatusDetails, get_grpcStatusDetails, valuesOf_headersOn_grpcStatusDetails status hnone]
  by_cases hd : status.details = []
  · rw [if_pos hd, hd]
    cases (status.metadata.valuesOf grpcStatusDetails).head? with
    | none => simp
    | some hr => cases hdc : Base64.decode hr <;> simp [hdc]
  · simp [hd, Base64.decode_encode]

theorem roundTrips_headersOn {status : Status} (hu8 : fromUtf8 status.message = .ok status.message)
    (hb : OnlyReserved headerMap) (hnone : headerMap.valuesOf grpcMessage = []) :
    RoundTrips status (.ok (status.headersOn headerMap)) ↔ DetailsKept status := by
  have hr := fromHeaderMap_headersOn hu8 hnone
  rw [← detailsOf_headersOn status (hb _ (by decide))]
  constructor
  · rintro ⟨hs, d, hh, hd, -, -, hdt, -⟩
    cases hh
    rw [hr] at hd
    cases hf : detailsOf (status.headersOn headerMap) with
    | error e => rw [hf] at hd; cases hd
    | ok ds =>
      rw [hf] at hd
      cases hd
      exact congrArg Except.ok hdt
  · intro hf
    rw [hf] at hr
    exact ⟨_, _, rfl, hr, rfl, rfl, rfl, fun _ => valuesOf_withoutFields_headersOn status hb⟩

/-- A status comes back exactly if no header of its metadata is taken for details it does not have. -/
theorem status_round_trips (status : Status) (hutf8 : fromUtf8 status.message = .ok status.message) :
    (RoundTrips status status.toHeaderMap ↔ DetailsKept status) ∧
      (RoundTrips status status.intoHttp ↔ DetailsKept status) := by
  rw [toHeaderMap_eq, headers_eq, intoHttp, addHeader_eq]
  refine ⟨roundTrips_headersOn hutf8 (fun _ _ => rfl) rfl, roundTrips_headersOn hutf8 ?_ rfl⟩
  intro n hr
  exact HeaderMap.valuesOf_insert_of_ne _ _ fun h => hr (h ▸ by decide)

def statusWithDetails : Status :=
  { code := .aborted, message := utf8 "50% ü", details := [0, 255], metadata := { entries := [(utf8 "x", utf8 "1")] } }

theorem statusWithDetails_round_trips : RoundTrips statusWithDetails statusWithDetails.toHeaderMap :=
  (status_round_trips statusWithDetails rfl).1.2 (.inl (by decide))

def statusWithoutDetails : Status :=
  { code := .aborted, message := [], metadata := { entries := [(grpcStatusDetails, utf8 "AQID")] } }

/-- The details that are read back are those of a header of the metadata. -/
theorem details_from_metadata : ∃ hs d, statusWithoutDetails.toHeaderMap = .ok hs ∧ fromHeaderMap hs = .ok (some d) ∧
      statusWithoutDetails.details = [] ∧ d.details = [1, 2, 3] :=
  ⟨_, _, toHeaderMap_eq _, rfl, rfl, rfl⟩

end Tonic.Status
