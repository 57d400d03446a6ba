import GrpcRust.Lib.Base64
import GrpcRust.Lib.HeaderMap
/-!
# Metadata of the `grpc` crate

`metadata/`: the map an application fills, and the header map it becomes, with `-bin` values as base64.
-/

namespace Grpc

open Lib Lib.Bytes List

/-! ## Keys and values -/

def binSuffix : Bytes := utf8 "-bin"

def isValidKeyByte (b : UInt8) : Bool := (48 ≤ b && b ≤ 57) || (97 ≤ b && b ≤ 122) || b == 95 || b == 45 || b == 46

def isValidKey (key : Bytes) : Bool := !key.isEmpty && key.all isValidKeyByte

def Ascii.isValidKey (key : Bytes) : Bool := !key.endsWith binSuffix && Grpc.isValidKey key

def Binary.isValidKey (key : Bytes) : Bool := key.endsWith binSuffix && Grpc.isValidKey key

variable (value : Bytes)

def Ascii.isValidValue : Bool := value.all fun b => 0x20 ≤ b && b ≤ 0x7E

def Binary.encode (value : Bytes) : Bytes := Base64.encode false value

/-! ## Maps -/

structure Entry where
  key : Bytes
  value : Bytes
  valid : Binary.isValidKey key = true ∨ Ascii.isValidKey key = true ∧ Ascii.isValidValue value = true
  short : key.length ≤ maxHeaderNameLen

structure MetadataMap where
  headers : List Entry

namespace MetadataMap

variable (metadata : MetadataMap) (key : Bytes)

def valuesOf : List Bytes := (metadata.headers.filter (·.key == key)).map (·.value)

def intoHeaders : HeaderMap where
  entries := metadata.headers.map fun h =>
    (h.key, if h.key.endsWith binSuffix then Binary.encode h.value else h.value)

end MetadataMap

/-! ## From headers, and back -/

def Ascii.fromBytes : Option Bytes :=
  let value := value.trimAscii
  if value.isEmpty || !isValidValue value then none else some value

def Ascii.fromShared : Option Bytes :=
  let trimmed := value.trimAscii
  if isValidValue trimmed then some (if trimmed.length = value.length then value else trimmed) else none

def Ascii.fromStatic : Except Bytes Bytes :=
  let value := value.trimAscii
  if isValidValue value then .ok value else .error (utf8 "Invalid ASCII metadata value: " ++ value)

inductive Ascii.Constructed (value : Bytes) : Prop
  | fromBytes (source : Bytes) (h : fromBytes source = some value)
  | fromShared (source : Bytes) (h : fromShared source = some value)
  | fromStatic (source : Bytes) (h : fromStatic source = .ok value)

def readHeader (h : Bytes × Bytes) : Except Bytes (Option (Bytes × Bytes)) :=
  if Ascii.isValidKey h.1 then .ok ((Ascii.fromBytes h.2).map (h.1, ·))
  else if Binary.isValidKey h.1 then
    match Base64.decode h.2 with
    | some value => .ok (some (h.1, value))
    | none =>
      .error (utf8 "failed to decode base64 value for key '" ++ h.1 ++ utf8 "': failed to parse metadata value")
  else .ok none

def fromHeaders (headers : HeaderMap) : Except Bytes (List (Bytes × Bytes)) :=
  (headers.iter.mapM readHeader).map List.reduceOption

theorem Ascii.Constructed.trimAscii_eq {value : Bytes} (h : Constructed value) : value.trimAscii = value := by
  rcases h with ⟨source, h⟩ | ⟨source, h⟩ | ⟨source, h⟩
  · simp only [Ascii.fromBytes, Option.ite_none_left_eq_some, Option.some.injEq] at h
    rw [← h.2, trimAscii_trimAscii]
  · simp only [Ascii.fromShared, Option.ite_none_right_eq_some, Option.some.injEq] at h
    obtain ⟨-, rfl⟩ := h
    split
    · rename_i hl
      have hs : List.Sublist source.trimAscii source := ( rdropWhile_prefix ..).sublist.trans (dropWhile_sublist _)
      exact hs.eq_of_length hl
    · exact trimAscii_trimAscii source
  · unfold Ascii.fromStatic at h
    dsimp only at h
    split at h
    · cases h
      exact trimAscii_trimAscii source
    · cases h

theorem Ascii.fromBytes_of_constructed {value : Bytes} (h : Constructed value) (hv : isValidValue value = true) :
    fromBytes value = if value = [] then none else some value := by
  unfold fromBytes
  simp only [h.trimAscii_eq, hv]
  cases value <;> rfl

namespace MetadataMap

def Built (metadata : MetadataMap) : Prop :=
  ∀ e ∈ metadata.headers, e.key.endsWith binSuffix = false → Ascii.Constructed e.value

def readValue (key value : Bytes) : Option Bytes := (readHeader (key, value)).toOption.join.map (·.2)

def reread (key value : Bytes) : Option Bytes := if key.endsWith binSuffix ∨ value ≠ [] then some value else none

theorem readHeader_wire {e : Entry} (h : e.key.endsWith binSuffix = false → Ascii.Constructed e.value) :
    readHeader (e.key, if e.key.endsWith binSuffix then Binary.encode e.value else e.value) =
      .ok ((reread e.key e.value).map (e.key, ·)) := by
  unfold readHeader reread
  rcases e.valid with hb | ⟨ha, hv⟩
  · have hbn : e.key.endsWith binSuffix = true := by
      simp only [Binary.isValidKey, Bool.and_eq_true] at hb
      exact hb.1
    simp [Ascii.isValidKey, hb, hbn, Binary.encode, Base64.decode_encode]
  · have hbn : e.key.endsWith binSuffix = false := by
      simp only [Ascii.isValidKey, Bool.and_eq_true, Bool.not_eq_true'] at ha
      exact ha.1
    simp only [ha, if_true, hbn, Bool.false_eq_true, if_false, Ascii.fromBytes_of_constructed (h hbn) hv]
    by_cases hvl : e.value = [] <;> simp [hvl]

theorem mapM_readHeader {l : List (Bytes × Bytes)}
    (h : ∀ x ∈ l, readHeader x = .ok ((readValue x.1 x.2).map (x.1, ·))) :
    (l.mapM readHeader).map List.reduceOption = .ok (l.filterMap fun x => (readValue x.1 x.2).map (x.1, ·)) := by
  induction l with
  | nil => rfl
  | cons x l ih =>
    have hrest := ih fun y hy => h y (mem_cons_of_mem x hy)
    rw [mapM_cons, h x mem_cons_self]
    cases hl : l.mapM readHeader with
    | error e => rw [hl] at hrest; cases hrest
    | ok r =>
      rw [hl] at hrest
      have hrest : r.reduceOption = _ := Except.ok.inj hrest
      rw [filterMap_cons, ← hrest]
      cases hx : readValue x.1 x.2 <;> rfl

theorem values_filterMap (l : List (Bytes × Bytes)) (key : Bytes) :
    ((l.filterMap fun x => (readValue x.1 x.2).map (x.1, ·)).filter (·.1 == key)).map (·.2) =
      ((l.filter (·.1 == key)).map (·.2)).filterMap (readValue key) := by
  induction l with
  | nil => rfl
  | cons x l ih =>
    by_cases hk : x.1 = key
    · subst hk
      cases hx : readValue x.1 x.2 <;> simp [hx, ih]
    · cases hx : readValue x.1 x.2 <;> simp [hx, hk, ih]

theorem filterMap_reread_eq (m : MetadataMap) : (∀ key, (m.valuesOf key).filterMap (reread key) = m.valuesOf key) ↔
      ∀ e ∈ m.headers, e.value = [] → e.key.endsWith binSuffix = true := by
  constructor
  · intro h e he hv
    have hmem : [] ∈ m.valuesOf e.key := hv ▸ mem_map_of_mem (List.mem_filter.2 ⟨he, beq_self_eq_true e.key⟩)
    rw [← h e.key] at hmem
    obtain ⟨v, -, hr⟩ := List.mem_filterMap.1 hmem
    simp only [reread, Option.ite_none_right_eq_some, Option.some.injEq] at hr
    exact hr.1.resolve_right fun hne => hne hr.2
  · intro h key
    refine (filterMap_congr fun v hv => ?_).trans filterMap_some
    obtain ⟨e, he, rfl⟩ := List.mem_map.1 hv
    obtain ⟨he, hk⟩ := List.mem_filter.1 he
    refine if_pos (or_iff_not_imp_right.2 fun hempty => ?_)
    exact eq_of_beq hk ▸ h e he (not_not.1 hempty)

/-- Headers give the map back, with the values of every key exactly if no ASCII value is empty. -/
theorem metadata_round_trips (metadata : MetadataMap) (hbuilt : metadata.Built) :
    ∃ r, fromHeaders metadata.intoHeaders = .ok r ∧
      ((∀ key, (r.filter (·.1 == key)).map (·.2) = metadata.valuesOf key) ↔
        ∀ e ∈ metadata.headers, e.value = [] → e.key.endsWith binSuffix = true) := by
  have hr : ∀ e ∈ metadata.headers,
      readValue e.key (if e.key.endsWith binSuffix then Binary.encode e.value else e.value) = reread e.key e.value := by
    intro e he
    unfold readValue
    rw [readHeader_wire (hbuilt e he)]
    cases reread e.key e.value <;> rfl
  refine ⟨_, mapM_readHeader fun x hx => ?_, ?_⟩
  · obtain ⟨e, he, rfl⟩ := List.mem_map.1 (HeaderMap.mem_of_mem_iter hx)
    rw [hr e he]
    exact readHeader_wire (hbuilt e he)
  · rw [← filterMap_reread_eq]
    refine forall_congr' fun key => ?_
    rw [values_filterMap, HeaderMap.valuesOf_iter]
    unfold HeaderMap.valuesOf valuesOf intoHeaders
    rw [filter_map, map_map, filterMap_map, filterMap_map]
    refine Eq.congr_left (filterMap_congr fun e he => ?_)
    obtain ⟨he, hk⟩ := List.mem_filter.1 he
    exact eq_of_beq hk ▸ hr e he

theorem isValidKey_a : Ascii.isValidKey (utf8 "a") = true := by decide

theorem length_a : (utf8 "a").length ≤ maxHeaderNameLen := by decide

def asciiMap (value : Bytes) (h : Ascii.isValidValue value = true) : MetadataMap where
  headers := [{ key := utf8 "a", value := value, valid := .inr ⟨isValidKey_a, h⟩, short := length_a }]

/-- Two values of one key around a binary one, and an empty binary value. -/
def mixedMap : MetadataMap where
  headers := (asciiMap (utf8 "1") rfl).headers ++
    [{ key := utf8 "b-bin", value := [0, 255], valid := .inl (by decide), short := by decide },
      { key := utf8 "c-bin", value := [], valid := .inl (by decide), short := by decide }] ++
    (asciiMap (utf8 "2 3") rfl).headers

theorem metadata_round_trips_trimmed : ∃ r, fromHeaders mixedMap.intoHeaders = .ok r ∧
    ∀ key, (r.filter (·.1 == key)).map (·.2) = mixedMap.valuesOf key := by
  have hbuilt : mixedMap.Built := by
    intro e he hascii
    fin_cases he
    · exact .fromStatic (utf8 " 1") (by decide)
    · cases hascii
    · cases hascii
    · exact .fromBytes (utf8 "2 3 ") (by decide)
  obtain ⟨r, hr, hsame⟩ := metadata_round_trips mixedMap hbuilt
  refine ⟨r, hr, hsame.2 fun e he hempty => ?_⟩
  fin_cases he
  · cases hempty
  · cases hempty
  · rfl
  · cases hempty

/-- Two constructors accept an empty value, and it is not read back. -/
theorem empty_value_lost : Ascii.fromStatic [] = .ok [] ∧ Ascii.fromShared (utf8 " ") = some [] ∧
      (asciiMap [] rfl).valuesOf (utf8 "a") = [[]] ∧ fromHeaders (asciiMap [] rfl).intoHeaders = .ok [] := by
  decide

end MetadataMap

end Grpc
