import GrpcRust.Tonic.Chunks
/-!
# Bodies cut inside a frame

`Leaves` is what the frames of the data leave over. A stream whose data is cut inside a frame ends cleanly only if the
reader accepts what it has seen and the body ends in one of the ways of `Unnoticed`.
-/

namespace Tonic

open Lib Lib.Bytes

variable {σ T : Type} {C : Compression} {D : Decoder σ T} {c : StreamSettings}

/-! ## What the frames leave over -/

/-- The payload of a frame as the decoder gets to see it. -/
def Inflates (C : Compression) (c : StreamSettings) (bufferSize : Nat) (payload : Bytes) :
    Option CompressionEncoding → Bytes → Prop
  | none, bytes => bytes = payload
  | some encoding, bytes => decompress C encoding bufferSize c.limit payload = .ok (.ok bytes)

/-- Every whole frame of the bytes is accepted and decoded, and so is the header of a frame that is cut; the last
argument is what is left of them. -/
inductive Leaves (C : Compression) (D : Decoder σ T) (c : StreamSettings) : σ → Bytes → Bytes → Prop
  | short {decoder : σ} {bytes : Bytes} : header? bytes = none → Leaves C D c decoder bytes bytes
  | cut {decoder : σ} {bytes rest : Bytes} {flag : UInt8} {len : Nat} {compression : Option CompressionEncoding} :
      header? bytes = some (flag, len, rest) → c.compressionOf flag = .ok compression → len ≤ c.limit →
      rest.length < len → Leaves C D c decoder bytes bytes
  | frame {decoder : σ} {bytes rest payload left : Bytes} {flag : UInt8} {len : Nat}
      {compression : Option CompressionEncoding} {msg : T} :
      header? bytes = some (flag, len, rest) → c.compressionOf flag = .ok compression → len ≤ c.limit →
      len ≤ rest.length → Inflates C c D.bufferSettings.bufferSize (rest.take len) compression payload →
      (D.decode decoder payload).result = .ok (some msg) →
      Leaves C D c (D.decode decoder payload).decoder (rest.drop len) left → Leaves C D c decoder bytes left

namespace Leaves
variable {decoder : σ} {bytes left : Bytes}

theorem exists_frames (h : Leaves C D c decoder bytes left) : ∃ frames, bytes = framesBytes frames ++ left := by
  induction h with
  | short => exact ⟨[], rfl⟩
  | cut => exact ⟨[], rfl⟩
  | frame hh _ _ hle _ _ _ ih =>
    obtain ⟨frames, hframes⟩ := ih
    obtain ⟨heq, hlt⟩ := eq_of_header? hh
    obtain ⟨f, _, hf⟩ := Frame.exists_bytes_append_drop _ hlt hle
    refine ⟨f :: frames, ?_⟩
    rw [heq, hf, hframes, framesBytes_cons, List.append_assoc]

/-- What is left over does not begin with a frame. -/
theorem left_ne (h : Leaves C D c decoder bytes left) (f : Frame) (more : Bytes) : left ≠ f.bytes ++ more := by
  induction h with
  | short hh =>
    rintro rfl
    rw [f.header?_bytes] at hh
    cases hh
  | cut hh _ _ hlt =>
    rintro rfl
    rw [f.header?_bytes] at hh
    obtain ⟨_, rfl, rfl⟩ : _ ∧ _ ∧ _ := by simpa using hh
    simp at hlt
  | frame _ _ _ _ _ _ _ ih => exact ih

theorem whole_iff (h : Leaves C D c decoder bytes left) : (∃ frames, bytes = framesBytes frames) ↔ left = [] := by
  obtain ⟨done, hdone⟩ := h.exists_frames
  constructor
  · rintro ⟨frames, hframes⟩
    have heq : framesBytes frames ++ [] = framesBytes done ++ left := by
      rw [List.append_nil, ← hframes, hdone]
    obtain ⟨todo, -, htodo⟩ := exists_todo_frames (p := fun _ => True) (fun _ _ => trivial)
      (fun f more _ => h.left_ne f more) heq
    exact (List.append_eq_nil_iff.1 htodo.symm).2
  · rintro rfl
    exact ⟨done, by rw [hdone, List.append_nil]⟩

end Leaves

/-! ## Readers -/

namespace Reader
variable {r r' : Reader σ} {left : Bytes} {msg : T}

/-- The bytes of a frame of which the reader has seen a part. -/
def Holds (r : Reader σ) (bytes : Bytes) : Prop :=
  match r.state with
  | .readHeader => bytes = r.buf
  | .readBody _ len => ∃ flag, bytes = flag :: be32 len ++ r.buf
  | .error _ => False

theorem waits_iff_of_readHeader (hs : r.state = .readHeader) : Waits C D c r r' ↔
    (header? r.buf = none ∧ r' = r) ∨
      ∃ flag len rest compression, header? r.buf = some (flag, len, rest) ∧ c.compressionOf flag = .ok compression ∧
        len ≤ c.limit ∧ rest.length < len ∧ r' = { r with buf := rest, state := .readBody compression len } := by
  unfold Waits readFrame
  constructor
  · intro h
    split at h
    · cases h
    · rename_i hh
      cases h
      cases headerRead_iff.1 hh with
      | short _ hnone => exact .inl ⟨hnone, rfl⟩
    · rename_i hh
      cases headerRead_iff.1 hh with
      | header _ hheader hc hl =>
        cases bodyRead_iff.1 h with
        | short hs' hlt =>
          cases hs'
          exact .inr ⟨_, _, _, _, hheader, hc, hl, hlt, rfl⟩
        | notReading hn => exact absurd rfl (hn _ _)
      | already hn => exact absurd hs hn
  · rintro (⟨hnone, rfl⟩ | ⟨flag, len, rest, compression, hh, hc, hl, hlt, rfl⟩)
    · rw [headerRead_iff.2 (.short hs hnone)]
    · rw [headerRead_iff.2 (.header hs hh hc hl)]
      exact bodyRead_iff.2 (.short rfl hlt)

/-- A message takes its frame off the buffer, if the decoder reads all of the payload. -/
theorem item_iff_of_readHeader (hall : D.ReadsAll) (hs : r.state = .readHeader) :
    r.decodeChunk C D c = (.ok (some msg), r') ↔
      ∃ flag len rest compression payload, header? r.buf = some (flag, len, rest) ∧
        c.compressionOf flag = .ok compression ∧ len ≤ c.limit ∧ len ≤ rest.length ∧
        Inflates C c D.bufferSettings.bufferSize (rest.take len) compression payload ∧
        (D.decode r.decoder payload).result = .ok (some msg) ∧
        r' = { decoder := (D.decode r.decoder payload).decoder, state := .readHeader, buf := rest.drop len } := by
  have hconsumed {rest : Bytes} {len : Nat} (hle : len ≤ rest.length)
      (hd : (D.decode r.decoder (rest.take len)).result = .ok (some msg)) :
      (D.decode r.decoder (rest.take len)).consumed = len := by
    rw [hall _ _ _ hd, List.length_take, min_eq_left hle]
  constructor
  · intro h
    unfold decodeChunk at h
    split at h
    · cases h
    · cases h
    · rename_i hrd
      dsimp only at h
      split at h
      · cases h
      · cases h
      · rename_i hd
        cases h
        unfold readFrame at hrd
        split at hrd
        · cases hrd
        · cases hrd
        · rename_i hh
          cases headerRead_iff.1 hh with
          | header _ hheader hc hl =>
            cases bodyRead_iff.1 hrd with
            | plain hs' hle =>
              cases hs'
              refine ⟨_, _, _, _, _, hheader, hc, hl, hle, rfl, hd, ?_⟩
              simp only [decoded, if_true, hconsumed hle hd]
            | decompressed hs' hle hinflated =>
              cases hs'
              exact ⟨_, _, _, _, _, hheader, hc, hl, hle, hinflated, hd, rfl⟩
          | already hn => exact absurd hs hn
  · rintro ⟨flag, len, rest, compression, payload, hh, hc, hl, hle, hinflated, hd, rfl⟩
    unfold decodeChunk readFrame
    rw [headerRead_iff.2 (.header hs hh hc hl)]
    cases compression with
    | none =>
      cases hinflated
      dsimp only
      rw [bodyRead_iff.2 (.plain rfl hle)]
      simp only [hd, decoded, if_true, hconsumed hle hd]
    | some encoding =>
      have hread : BodyRead C c D.bufferSettings.bufferSize
          { r with buf := rest, state := .readBody (some encoding) len }
          (.ok (some { bytes := payload, inPlace := false }))
          { r with buf := rest.drop len, state := .readBody (some encoding) len } :=
        .decompressed rfl hle hinflated
      dsimp only
      rw [bodyRead_iff.2 hread]
      simp only [hd, decoded, Bool.false_eq_true, if_false]

theorem Drains.leaves (hall : D.ReadsAll) {msgs : List T} (h : Drains C D c r msgs none r')
    (hs : r.state = .readHeader) : ∃ left, Leaves C D c r.decoder r.buf left ∧ r'.Holds left := by
  generalize he : (none : Option Failure) = e at h
  induction h with
  | more h =>
    rcases (waits_iff_of_readHeader hs).1 h with ⟨hnone, rfl⟩ | ⟨flag, len, rest, compression, hh, hc, hl, hlt, rfl⟩
    · exact ⟨_, .short hnone, by simp only [Holds, hs]⟩
    · exact ⟨_, .cut hh hc hl hlt, flag, (eq_of_header? hh).1⟩
  | failed => cases he
  | item h _ ih =>
    obtain ⟨_, _, _, _, _, hh, hc, hl, hle, hinflated, hd, rfl⟩ := (item_iff_of_readHeader hall hs).1 h
    obtain ⟨left, hleft, hholds⟩ := ih rfl he
    exact ⟨left, .frame hh hc hl hle hinflated hd hleft, hholds⟩

end Reader

theorem Leaves.drains (hall : D.ReadsAll) {decoder : σ} {bytes left : Bytes} (h : Leaves C D c decoder bytes left) :
    ∃ msgs r', Reader.Drains C D c { decoder := decoder, state := .readHeader, buf := bytes } msgs none r' ∧
      r'.Holds left := by
  induction h with
  | short hnone => exact ⟨[], _, .more ((Reader.waits_iff_of_readHeader rfl).2 (.inl ⟨hnone, rfl⟩)), rfl⟩
  | cut hh hc hl hlt =>
    refine ⟨[], _, .more ((Reader.waits_iff_of_readHeader rfl).2 (.inr ⟨_, _, _, _, hh, hc, hl, hlt, rfl⟩)), ?_⟩
    exact ⟨_, (eq_of_header? hh).1⟩
  | @frame decoder _ _ _ _ _ _ _ msg hh hc hl hle hinflated hd _ ih =>
    obtain ⟨msgs, r', hdrains, hholds⟩ := ih
    refine ⟨msg :: msgs, r', .item ?_ hdrains, hholds⟩
    exact (Reader.item_iff_of_readHeader hall rfl).2 ⟨_, _, _, _, _, hh, hc, hl, hle, hinflated, hd, rfl⟩

/-- Nothing of a frame is left in the buffer of a reader that waits, unless the frame has more than a header. -/
theorem Reader.Holds.buf_eq_nil_iff {r : Reader σ} {left : Bytes} (h : r.Holds left) (hw : Waits C D c r r) :
    r.buf = [] ↔ left = [] ∨ left.length = headerSize := by
  unfold Holds at h
  split at h
  · rename_i hs
    rw [h]
    rcases (waits_iff_of_readHeader hs).1 hw with ⟨hnone, -⟩ | ⟨_, _, _, _, hh, _, _, _, heq⟩
    · have hlt := header?_eq_none.1 hnone
      constructor
      · exact .inl
      · rintro (hnil | hlen)
        · exact hnil
        · exact absurd hlen (Nat.ne_of_lt hlt)
    · -- reading a header leaves the state
      rw [heq] at hs
      cases hs
  · obtain ⟨flag, rfl⟩ := h
    simp [be32, headerSize]
  · exact h.elim

/-! ## Streams -/

/-- The data before the body ends, brings trailers or fails. Nothing after that is read. -/
def received : List BodyPoll → Bytes
  | .pending :: rest => received rest
  | .data bytes :: rest => bytes ++ received rest
  | _ => []

/-- The trailers or the error after the data. -/
def ending : List BodyPoll → Option BodyPoll
  | .pending :: rest => ending rest
  | .data _ :: rest => ending rest
  | body => body.head?

/-- No status is read, or it is OK. -/
def StatusOk (c : StreamSettings) (trailers : Option HeaderMap) : Prop :=
  ∀ status, c.direction = .response status → inferGrpcStatus trailers status = .ok (.ok ())

/-- The ways to end a body, with some of a frame left, that are not an error. -/
def EndsCleanly (c : StreamSettings) (left : Bytes) : Option BodyPoll → Prop
  | none => (left = [] ∨ left.length = headerSize) ∧ ∀ status, c.direction ≠ .response status
  | some (.trailers trailers) => StatusOk c (some trailers)
  | some (.error status) => c.direction = .request ∧ status.code = .cancelled
  | some _ => False

theorem statusOk_none : StatusOk c none ↔ ∀ status, c.direction ≠ .response status := by
  refine forall_congr' fun status => ?_
  simp [inferGrpcStatus]

theorem exists_chunks (body : List BodyPoll) : ∃ chunks tail, body = chunks ++ tail ∧ Chunks chunks ∧
    received body = dataOf chunks ∧ ending body = tail.head? ∧ ∀ polled ∈ tail.head?, ¬ polled.IsChunk := by
  induction body with
  | nil => exact ⟨[], [], rfl, by simp [Chunks], rfl, rfl, by simp⟩
  | cons polled body ih =>
    obtain ⟨chunks, tail, rfl, hchunks, hreceived, hending, htail⟩ := ih
    have hcons (hpolled : polled.IsChunk) : Chunks (polled :: chunks) := List.forall_mem_cons.2 ⟨hpolled, hchunks⟩
    cases polled with
    | pending => exact ⟨.pending :: chunks, tail, rfl, hcons trivial, hreceived, hending, htail⟩
    | data bytes =>
      refine ⟨.data bytes :: chunks, tail, rfl, hcons trivial, ?_, hending, htail⟩
      rw [received, hreceived]
      rfl
    | trailers trailers =>
      exact ⟨[], .trailers trailers :: (chunks ++ tail), rfl, by simp [Chunks], rfl, rfl, by simp [BodyPoll.IsChunk]⟩
    | error status =>
      exact ⟨[], .error status :: (chunks ++ tail), rfl, by simp [Chunks], rfl, rfl, by simp [BodyPoll.IsChunk]⟩

namespace Streaming
variable {s : Streaming σ} {msgs : List T}

theorem finish_ended_iff : (s.finish c : Poll Failure T × Streaming σ).1 = .ended ↔ StatusOk c s.trailers := by
  unfold finish response StatusOk
  cases hd : c.direction with
  | request => simp
  | emptyResponse => simp
  | response status =>
    simp only [Direction.response.injEq, forall_eq']
    cases hi : inferGrpcStatus s.trailers status with
    | error panic => simp
    | ok inferred =>
      rcases inferred with (_ | e) | _
      · exact absurd hi (inferGrpcStatus_ne_error_none _ _)
      · simp
      · simp

theorem yields_none_of_last (hlast : (s.pollNext C D c).1.Last) :
    (∃ msgs, s.Yields C D c msgs none) ↔ (s.pollNext C D c).1 = .ended := by
  rcases hp : s.pollNext C D c with ⟨_ | _ | msg | failure, s'⟩
  · rw [hp] at hlast
    exact hlast.elim
  · exact iff_of_true ⟨[], (yields_of_ended hp).2 ⟨rfl, rfl⟩⟩ rfl
  · rw [hp] at hlast
    exact hlast.elim
  · refine iff_of_false (fun ⟨_, h⟩ => ?_) (fun h => nomatch h)
    cases ((yields_of_failed hp).1 h).2

/-- A stream whose reader waits ends as its body does. -/
theorem ends_iff_of_waits {r : Reader σ} {tail : List BodyPoll} {left : Bytes} (hl : r.Live) (hw : r.Waits C D c r)
    (hholds : r.Holds left) (htail : ∀ polled ∈ tail.head?, ¬ polled.IsChunk) :
    (∃ msgs, Streaming.Yields C D c { reader := r, body := tail, trailers := none } msgs none) ↔
      EndsCleanly c left tail.head? := by
  have hp := pollNext_more (s := { reader := r, body := tail, trailers := none }) hl hw.decodeChunk_eq
  cases tail with
  | nil =>
    rw [yields_none_of_last (by rw [hp]; exact last_endOfBody _), hp]
    simp only [pollBody, endOfBody, List.isEmpty_iff, List.head?_nil, EndsCleanly, ← hholds.buf_eq_nil_iff hw]
    split
    · rename_i hbuf
      rw [finish_ended_iff, statusOk_none]
      simp [hbuf]
    · rename_i hbuf
      simp [hbuf]
  | cons polled rest =>
    cases polled with
    | pending => exact absurd trivial (htail _ rfl)
    | data bytes => exact absurd trivial (htail _ rfl)
    | trailers trailers =>
      rw [yields_none_of_last (by rw [hp]; exact last_finish _), hp]
      exact finish_ended_iff
    | error status =>
      rw [yields_none_of_last (by rw [hp]; exact last_bodyError _ _), hp]
      simp only [pollBody, bodyError, List.head?_cons, EndsCleanly]
      split
      · rename_i hcancelled
        rw [finish_ended_iff]
        simp [StatusOk, hcancelled]
      · rename_i hcancelled
        simp [hcancelled]

/-- A stream ends cleanly exactly if its reader accepts the data and the body ends cleanly with what is left. -/
theorem ends_iff (hD : D.Decides) (hall : D.ReadsAll) (decoder : σ) (body : List BodyPoll) :
    (∃ msgs, (Streaming.new decoder body).Yields C D c msgs none) ↔
      ∃ left, Leaves C D c decoder (received body) left ∧ EndsCleanly c left (ending body) := by
  obtain ⟨chunks, tail, rfl, hchunks, hreceived, hending, htail⟩ := exists_chunks body
  have hl : (Streaming.new decoder (chunks ++ tail)).reader.Live := fun _ h => nomatch h
  have hreader : (Streaming.new decoder (chunks ++ tail)).reader.append (dataOf chunks) =
      { decoder := decoder, state := .readHeader, buf := dataOf chunks } := rfl
  rw [hreceived, hending]
  constructor
  · rintro ⟨msgs, hyields⟩
    obtain ⟨first, out, r', hdrains⟩ := Reader.exists_drains (C := C) (c := c) hD
      ((Streaming.new decoder (chunks ++ tail)).reader.append (dataOf chunks))
    rw [yields_iff_of_drains hchunks rfl hl hdrains] at hyields
    cases out with
    | some failure => cases hyields.2
    | none =>
      obtain ⟨rest, _, hrest⟩ := hyields
      obtain ⟨left, hleft, hholds⟩ := hdrains.leaves hall rfl
      rw [hreader] at hleft
      exact ⟨left, hleft, (ends_iff_of_waits (hdrains.live (hl.append _)) hdrains.waiting hholds htail).1 ⟨rest, hrest⟩⟩
  · rintro ⟨left, hleft, hends⟩
    obtain ⟨first, r', hdrains, hholds⟩ := hleft.drains hall
    rw [← hreader] at hdrains
    obtain ⟨rest, hrest⟩ := (ends_iff_of_waits (hdrains.live (hl.append _)) hdrains.waiting hholds htail).2 hends
    exact ⟨first ++ rest, (yields_iff_of_drains hchunks rfl hl hdrains).2 ⟨rest, rfl, hrest⟩⟩

end Streaming

/-- The data is cut inside a frame, the reader accepts what there is of it, and the body ends in a way that is not an
error: right after a header, with trailers that report no error, or with the cancellation of a request. -/
def CutUnnoticed (C : Compression) (D : Decoder σ T) (c : StreamSettings) (decoder : σ) (body : List BodyPoll) : Prop :=
  ∃ left, Leaves C D c decoder (received body) left ∧ left ≠ [] ∧ EndsCleanly c left (ending body)

/-- Every stream reaches an end or an error, and a clean end means that the data is whole frames exactly for bodies
whose cut is not of the unnoticed kind. -/
theorem clean_end_after_whole_frames (hD : D.Decides) (hall : D.ReadsAll) (decoder : σ) (body : List BodyPoll) :
    (∃ msgs fl, (Streaming.new decoder body).Yields C D c msgs fl) ∧
      ((∀ msgs, (Streaming.new decoder body).Yields C D c msgs none → ∃ frames, received body = framesBytes frames) ↔
        ¬ CutUnnoticed C D c decoder body) := by
  have hends := Streaming.ends_iff (C := C) (c := c) hD hall decoder body
  refine ⟨Streaming.exists_yields hD (fun _ h => nomatch h), ?_⟩
  constructor
  · rintro hwhole ⟨left, hleft, hne, hend⟩
    obtain ⟨msgs, hyields⟩ := hends.2 ⟨left, hleft, hend⟩
    exact hne (hleft.whole_iff.1 (hwhole msgs hyields))
  · intro hcut msgs hyields
    obtain ⟨left, hleft, hend⟩ := hends.1 ⟨msgs, hyields⟩
    by_contra hwhole
    exact hcut ⟨left, hleft, fun hnil => hwhole (hleft.whole_iff.2 hnil), hend⟩

/-- Trailers after whole frames, and data that stops inside a header. -/
theorem clean_end_after_whole_frames_read :
    ((Streaming.new () [.data [0, 0, 0, 0, 1], .pending, .data [7], .trailers okTrailers]).Yields stored rawDecoder
        responseSettings [[7]] none ∧
      ∀ msgs, (Streaming.new () [.data [0, 0, 0, 0, 1], .pending, .data [7], .trailers okTrailers]).Yields stored
        rawDecoder responseSettings msgs none → ∃ frames, [0, 0, 0, 0, 1, 7] = framesBytes frames) ∧
      ∀ msgs, (Streaming.new () [.data [0, 0], .pending, .data [0]]).Yields stored rawDecoder (requestSettings none)
        msgs none → ∃ frames, [0, 0, 0] = framesBytes frames := by
  refine ⟨⟨⟨3, by decide⟩, ?_⟩, ?_⟩
  · refine (clean_end_after_whole_frames rawDecoder_decides rawDecoder_readsAll () _).2.2 ?_
    rintro ⟨left, hleft, hne, -⟩
    refine hne (hleft.whole_iff.1 ⟨[{ flag := 0, payload := [7], short := by decide }], ?_⟩)
    decide
  · refine (clean_end_after_whole_frames rawDecoder_decides rawDecoder_readsAll () _).2.2 ?_
    rintro ⟨left, hleft, hne, hend, -⟩
    have hlen := hend.resolve_left hne
    obtain ⟨frames, hframes⟩ := hleft.exists_frames
    have := congrArg List.length hframes
    simp [received, hlen, headerSize] at this

/-- A request that stops after a header, and a response with trailers inside a payload, end cleanly. -/
theorem truncated_bodies_end_cleanly :
    ((Streaming.new () [.data [0, 0, 0, 0, 5]]).Yields stored rawDecoder (requestSettings none) [] none ∧
      ∀ fs, received [.data [0, 0, 0, 0, 5]] ≠ framesBytes fs) ∧
    ((Streaming.new () [.data [0, 0, 0, 0, 5, 1, 2], .trailers okTrailers]).Yields stored rawDecoder
        responseSettings [] none ∧
      ∀ fs, received [.data [0, 0, 0, 0, 5, 1, 2], .trailers okTrailers] ≠ framesBytes fs) := by
  refine ⟨⟨⟨1, by decide⟩, ?_⟩, ⟨1, by decide⟩, ?_⟩
  · exact not_framesBytes_of_short rfl (by decide)
  · exact not_framesBytes_of_short rfl (by decide)

end Tonic
