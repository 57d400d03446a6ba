import GrpcRust.Tonic.Batches
import GrpcRust.Tonic.Chunks
/-!
# Messages there and back

The frames an `EncodeBody` emits, cut into chunks in any way, are decoded to the messages
they were made from.
-/

namespace Tonic

open Lib Lib.Bytes Streaming Reader

variable {ε σ T : Type} {C : Compression} {E : Encoder ε T} {D : Decoder σ T} {c : EncodeSettings} {d : StreamSettings}
  {related : ε → σ → Prop}
  {e e' : ε} {decoder : σ}

/-! ## One message -/

variable (C D c d) in
structure Compatible : Prop where
  compression : C.RoundTrips
  encoding : ∀ encoding, c.compressionEncoding = some encoding → d.encoding = some encoding
  bufferSize : c.compressionEncoding.isSome = true → 0 < D.bufferSettings.bufferSize

theorem encodePayload_ok {item : T} {p : Bytes} (h : encodePayload C E c e item = (.ok (), e', p)) :
    (E.encode e item).result = .ok () ∧ e' = (E.encode e item).encoder ∧
      match c.compressionEncoding with
      | some en => C.compress en (E.encode e item).written = (p, none)
      | none => p = (E.encode e item).written := by
  unfold encodePayload at h
  cases hc : c.compressionEncoding with
  | some en =>
    simp only [hc, compress] at h
    cases hr : (E.encode e item).result with
    | error err =>
      simp only [hr] at h
      cases h
    | ok u =>
      simp only [hr] at h
      by_cases hs : E.bufferSettings.bufferSize = 0
      · simp only [if_pos hs] at h
        cases h
      · simp only [if_neg hs] at h
        rcases hout : C.compress en (E.encode e item).written with ⟨out, _ | err⟩
        · simp only [hout] at h
          cases h
          exact ⟨rfl, rfl, hout⟩
        · simp only [hout] at h
          cases h
  | none =>
    simp only [hc] at h
    cases hr : (E.encode e item).result with
    | error err =>
      simp only [hr] at h
      cases h
    | ok u =>
      simp only [hr] at h
      cases h
      exact ⟨rfl, rfl, rfl⟩

theorem Compatible.compressionOf (h : Compatible C D c d) : d.compressionOf c.flag = .ok c.compressionEncoding := by
  unfold StreamSettings.compressionOf EncodeSettings.flag
  cases hc : c.compressionEncoding with
  | none => rfl
  | some e => simp [h.encoding e hc]

theorem Compatible.decompress (h : Compatible C D c d) {e : CompressionEncoding} (hc : c.compressionEncoding = some e)
    {w p : Bytes} (hp : C.compress e w = (p, none)) (hl : w.length ≤ d.limit) :
    Tonic.decompress C e D.bufferSettings.bufferSize d.limit p = .ok (.ok w) := by
  have hs := h.bufferSize (by rw [hc]; rfl)
  have hb := h.compression e w p hp
  simp only [Tonic.decompress, if_neg hs.ne', hb, if_neg (not_lt.2 hl)]

theorem decodeChunk_frame (hrt : RoundTrips E D related) (hcm : Compatible C D c d) {item : T} {f : Frame}
    (hr : related e decoder) (h : Encodes C E c e item f e') (hpy : f.payload.length ≤ d.limit)
    (hw : (E.encode e item).written.length ≤ d.limit) (r : Bytes) : ∃ decoder', related e' decoder' ∧
      decodeChunk C D d { decoder := decoder, state := .readHeader, buf := f.bytes ++ r } =
        (.ok (some item), { decoder := decoder', state := .readHeader, buf := r }) := by
  obtain ⟨hrs, rfl, hp⟩ := encodePayload_ok h.payload
  obtain ⟨hd, hcn, hr'⟩ := hrt.decoded e decoder item hr hrs
  refine ⟨_, hr', ?_⟩
  have hh : readHeader d { decoder := decoder, state := .readHeader, buf := f.bytes ++ r } =
      (.ok true, ⟨decoder, .readBody c.compressionEncoding f.payload.length, f.payload ++ r⟩) :=
    headerRead_iff.2 (.header rfl (f.header?_bytes r) (h.flag ▸ hcm.compressionOf) hpy)
  cases hc : c.compressionEncoding with
  | none =>
    rw [hc] at hp hh
    have hb : readBody C d D.bufferSettings.bufferSize
        ⟨decoder, .readBody none f.payload.length, f.payload ++ r⟩ =
        (.ok (some { bytes := (f.payload ++ r).take f.payload.length, inPlace := true }), _) :=
      bodyRead_iff.2 (.plain rfl (by simp))
    rw [List.take_left' rfl, hp] at hb
    simp only [decodeChunk, readFrame, hh, hp, hb, hd, decoded, if_true, hcn, List.drop_left]
  | some en =>
    rw [hc] at hp hh
    have hb : readBody C d D.bufferSettings.bufferSize
        ⟨decoder, .readBody (some en) f.payload.length, f.payload ++ r⟩ =
        (.ok (some { bytes := (E.encode e item).written, inPlace := false }), _) :=
      bodyRead_iff.2 (.decompressed rfl (by simp) (by
        rw [List.take_left' rfl]
        exact hcm.decompress hc hp hw))
    simp only [decodeChunk, readFrame, hh, hb, hd, decoded, Bool.false_eq_true, if_false, List.drop_left]

def itemsOf (source : List (SourcePoll T)) : List T :=
  source.filterMap fun polled =>
    match polled with
    | .item item => some item
    | _ => none

variable (C E c d) in
/-- The items are within the limits of the decoder, before and after they are compressed. -/
def WithinLimits : ε → List (SourcePoll T) → Prop
  | _, [] => True
  | encoder, .item item :: rest =>
    (E.encode encoder item).written.length ≤ d.limit ∧ (encodePayload C E c encoder item).2.2.length ≤ d.limit ∧
      WithinLimits (E.encode encoder item).encoder rest
  | encoder, _ :: rest => WithinLimits encoder rest

theorem drains_frames (hrt : RoundTrips E D related) (hc : Compatible C D c d) {s : List (SourcePoll T)}
    {fs : List Frame} (hr : related e decoder) (h : EncodesAll C E c e s fs e') (hl : WithinLimits C E c d e s) :
    ∃ decoder', Drains C D d { decoder := decoder, state := .readHeader, buf := framesBytes fs }
      (itemsOf s) none { decoder := decoder', state := .readHeader, buf := [] } := by
  induction h generalizing decoder with
  | nil => exact ⟨decoder, .more rfl⟩
  | pending _ ih => exact ih hr hl
  | item hi _ ih =>
    obtain ⟨hw, hp, hrest⟩ := hl
    rw [hi.payload] at hp
    obtain ⟨decoder₁, hr₁, hdc⟩ := decodeChunk_frame hrt hc hr hi hp hw (framesBytes _)
    obtain ⟨_, heq, _⟩ := encodePayload_ok hi.payload
    obtain ⟨decoder', hd⟩ := ih hr₁ (heq ▸ hrest)
    exact ⟨decoder', .item hdc hd⟩

/-! ## Whole calls -/

def DecodedAs : Role → Direction → Prop
  | .client, direction => direction = .request
  | .server, direction => ∃ status, direction = .response status

def tailOf : Role → List BodyPoll
  | .client => []
  | .server => [.trailers (Status.new .ok "").headers]

theorem inferGrpcStatus_ok_headers (s : StatusCode) :
    inferGrpcStatus (some (Status.new .ok "").headers) s = .ok (.ok ()) := by
  have hr : Status.fromHeaderMap (Status.new .ok "").headers = .ok (some (Status.new .ok "")) := by decide
  simp only [inferGrpcStatus, hr]
  rfl

theorem yields_tail {r : Role} (hr : DecodedAs r d.direction) (decoder : σ) : Streaming.Yields C D d
      { reader := { decoder := decoder, state := .readHeader, buf := [] }, body := tailOf r, trailers := none }
      [] none := by
  have hl : Live { decoder := decoder, state := .readHeader, buf := [] } := fun _ h => nomatch h
  have hp := pollNext_more (C := C) (D := D) (c := d)
    (s := { reader := { decoder := decoder, state := .readHeader, buf := [] }, body := tailOf r, trailers := none })
    hl rfl
  cases r with
  | client =>
    have hd : d.direction = .request := hr
    simp only [pollBody, tailOf, endOfBody, List.isEmpty_nil, if_true, finish, response, hd] at hp
    exact (yields_of_ended hp).2 ⟨rfl, rfl⟩
  | server =>
    obtain ⟨st, hd⟩ := hr
    simp only [pollBody, tailOf, storeTrailers, Option.elim_none, finish,
      response, hd, inferGrpcStatus_ok_headers] at hp
    exact (yields_of_ended hp).2 ⟨rfl, rfl⟩

/-- What a body emits is decoded to its messages however it is cut; a decoder without `Ok(None)` never sees the cuts. -/
theorem round_trip_in_any_chunks (hrt : RoundTrips E D related) (hcomp : Compatible C D c d) :
    (∀ (r : Role) (e e' : ε) (dc : σ) (s : List (SourcePoll T)) (fs : List Frame),
      DecodedAs r d.direction → related e dc → EncodesAll C E c e s fs e' →
      WithinLimits C E c d e s →
      ∃ cs : List Bytes, (EncodeBody.new r e s).Emits C E c (cs.map .data ++ (EncodeBody.ending r none).1)
          (EncodeBody.ending r none).2 ∧
        ∀ b, Chunks b → dataOf b = cs.flatten → (Streaming.new dc (b ++ tailOf r)).Yields C D d (itemsOf s) none) ∧
    (D.Decides → ∀ (ss : StreamSettings) (dc : σ) (b₁ b₂ tail : List BodyPoll), Chunks b₁ →
      Chunks b₂ → dataOf b₁ = dataOf b₂ → ∃ msgs f, (Streaming.new dc (b₁ ++ tail)).Yields C D ss msgs f ∧
        (Streaming.new dc (b₂ ++ tail)).Yields C D ss msgs f) := by
  constructor
  · intro r e e' dc s fs hr hrl h hlm
    obtain ⟨cs, hf, he⟩ := EncodeBody.emits_all r h
    refine ⟨cs, he, fun b hb hdt => ?_⟩
    obtain ⟨dc', hd⟩ := drains_frames hrt hcomp hrl h hlm
    have hl : (Streaming.new dc (b ++ tailOf r)).reader.Live := fun _ h => nomatch h
    rw [← hf, ← hdt] at hd
    refine (Streaming.yields_iff_of_drains hb rfl hl hd).2 ⟨[], (List.append_nil _).symm, ?_⟩
    exact yields_tail hr dc'
  · intro hD ss dc b₁ b₂ tail h₁ h₂ hdt
    have hl : (Streaming.new dc (b₁ ++ tail)).reader.Live := fun _ h => nomatch h
    obtain ⟨msgs, f, hy⟩ := Streaming.exists_yields (C := C) (c := ss) hD hl
    exact ⟨msgs, f, hy, (Streaming.yields_iff_of_dataOf_eq hD h₁ h₂ hdt dc).1 hy⟩

theorem raw_roundTrips (bs : BufferSettings) : RoundTrips (rawEncoder bs) rawDecoder fun _ _ => True where
  decoded _ _ _ _ _ := ⟨rfl, rfl, trivial⟩

/-- Compression that puts a byte in front, and decompression that asks for it. -/
def withMagic : Compression where
  compress _ bytes := (31 :: bytes, none)
  decompress _ bytes := (bytes.tail, if bytes.head? = some 31 then none else some "invalid gzip header")

/-- Two compressed messages of raw bytes, with a pause between them. -/
theorem round_trip_in_any_chunks_gzip :
    let c : EncodeSettings := { compressionEncoding := some .gzip, maxMessageSize := none }
    let d : StreamSettings := { responseSettings with encoding := some .gzip }
    let source : List (SourcePoll Bytes) := [.item [7], .pending, .item []]
    ∃ cs : List Bytes, (EncodeBody.new .server () source).Emits withMagic (rawEncoder {}) c
        (cs.map .data ++ (EncodeBody.ending .server none).1) (EncodeBody.ending .server none).2 ∧
      ∀ b, Chunks b → dataOf b = cs.flatten →
        (Streaming.new () (b ++ tailOf .server)).Yields withMagic rawDecoder d [[7], []] none := by
  intro c d source
  have hc : Compatible withMagic rawDecoder c d := by
    refine ⟨?_, fun encoding h => h, fun _ => by decide⟩
    rintro encoding bs _ ⟨⟩
    rfl
  have hall : EncodesAll withMagic (rawEncoder {}) c () source
      [{ flag := 1, payload := [31, 7], short := by decide }, { flag := 1, payload := [31], short := by decide }] () :=
    .item ⟨rfl, by decide, rfl⟩ (.pending (.item ⟨rfl, by decide, rfl⟩ .nil))
  have hl : WithinLimits withMagic (rawEncoder {}) c d () source :=
    ⟨by decide, by decide, by decide, by decide, trivial⟩
  exact (round_trip_in_any_chunks (raw_roundTrips {}) hc).1 .server () () () source _ ⟨_, rfl⟩
    trivial hall hl

def byteEncoder : Encoder Unit UInt8 where
  encode _ msg := { encoder := (), written := [msg], result := .ok () }
  bufferSettings := {}

def byteDecoder : Decoder Unit UInt8 where
  decode _ payload :=
    { decoder := ()
      consumed := payload.length
      result :=
        match payload with
        | [msg] => .ok (some msg)
        | _ => .ok none }
  bufferSettings := {}
  consumed_le _ _ := le_rfl

/-- The same data ends in an error or cleanly, depending on its cuts; a buffer size of zero panics. -/
theorem chunks_matter_after_none : RoundTrips byteEncoder byteDecoder (fun _ _ => True) ∧
      dataOf [.data [0, 0, 0, 0, 2, 1, 1, 5, 5]] = dataOf [.data [0, 0, 0, 0, 2, 1, 1], .data [5, 5]] ∧
      (Streaming.new () [.data [0, 0, 0, 0, 2, 1, 1, 5, 5]]).Yields stored byteDecoder (requestSettings none) []
        (some (.status Streaming.unexpectedEof)) ∧
      (Streaming.new () [.data [0, 0, 0, 0, 2, 1, 1], .data [5, 5]]).Yields stored byteDecoder (requestSettings none) []
        none ∧
      (Streaming.new () [.data [1, 0, 0, 0, 1, 7]]).Yields stored
        { rawDecoder with bufferSettings := { bufferSize := 0 } }
        { requestSettings none with encoding := some .gzip } [] (some (.panic .divisionByZero)) := by
  refine ⟨⟨fun _ _ _ _ _ => ⟨rfl, rfl, trivial⟩⟩, rfl, ⟨1, by decide⟩, ⟨1, by decide⟩, ⟨1, by decide⟩⟩

end Tonic
