import GrpcRust.Lib.Frames
import GrpcRust.Tonic.Status
/-!
# Trailers in a body

`call.rs` of tonic-web: a frame whose flag has its top bit set and whose payload is an HTTP/1 header block.
-/

namespace TonicWeb

open Lib Lib.Bytes Tonic List

def trailersBit : UInt8 := 0x80

variable (map : HeaderMap) (trailers : HeaderMap) (e : Bytes × Bytes)

def trailerLine : Bytes := e.1 ++ 58 :: (e.2 ++ [13, 10])

def encodeTrailers : Bytes := trailers.iter.flatMap trailerLine

def makeTrailersFrame : Except String Bytes :=
  let block := encodeTrailers trailers
  if block.length ≤ 2 ^ 32 - 1 then .ok (trailersBit :: be32 block.length ++ block)
  else .error "assertion failed: len <= u32::MAX as usize"

/-! ## Reading -/

/-- The pieces that end in a CRLF, the first beginning with `line`. What comes after the last is ignored. -/
def terminatedLines (line : Bytes) : Bytes → List Bytes
  | 13 :: 10 :: rest => line :: terminatedLines [] rest
  | b :: rest => terminatedLines (line ++ [b]) rest
  | [] => []

def trimAsciiStart (bytes : Bytes) : Bytes := bytes.dropWhile isAsciiWhitespace

def insertTrailer (trailer : Bytes) : Except Status HeaderMap :=
  match trailer.findIdx? (· == 58) with
  | none => .error (.internal "trailers couldn't parse key/value")
  | some pos =>
    match headerName? (trailer.take pos) with
    | none => .error (.internal "Unable to parse HeaderName: invalid HTTP header name")
    | some key =>
      match headerValue? (trimAsciiStart (trailer.drop (pos + 1))) with
      | none => .error (.internal "Unable to parse HeaderValue: failed to parse header value")
      | some value => .ok (map.insert key value)

def decodeTrailersFrame (buf : Bytes) : Except Status (Option HeaderMap) :=
  match header? buf with
  | none => .ok none
  | some (_, _, block) => ((terminatedLines [] block).foldlM insertTrailer .empty).map some

example : decodeTrailersFrame (utf8 "\x00\x00\x00\x00\x00grpc-status: 0\r\nGRPC-message:a:b\r\nrest") =
    .ok (some { entries := [(utf8 "grpc-status", utf8 "0"), (utf8 "grpc-message", utf8 "a:b")] }) := by
  decide

theorem decodeTrailersFrame_bytes (f : Frame) : decodeTrailersFrame f.bytes ≠ .ok none := by
  have hh := f.header?_bytes []
  rw [append_nil] at hh
  unfold decodeTrailersFrame
  simp only [hh]
  rcases (terminatedLines [] _).foldlM insertTrailer .empty with e | map
  · exact nofun
  · exact nofun

/-! ## Lines -/

theorem terminatedLines_append (l rest : Bytes) {piece : Bytes} (h : 13 ∉ piece) :
    terminatedLines l (piece ++ 13 :: 10 :: rest) = (l ++ piece) :: terminatedLines [] rest := by
  induction piece generalizing l with
  | nil => simp [terminatedLines]
  | cons b piece ih =>
    have hb : b ≠ 13 := fun heq => h (heq ▸ mem_cons_self)
    have hrest : 13 ∉ piece := fun hmem => h (mem_cons_of_mem _ hmem)
    rw [cons_append, terminatedLines]
    · rw [ih _ hrest, append_assoc, singleton_append]
    · intro _ heq
      exact absurd heq hb

theorem not_mem_of_headerName? {name name' : Bytes} (h : headerName? name = some name') : 13 ∉ name ∧ 58 ∉ name := by
  unfold headerName? at h
  split at h
  · rename_i hname
    simp only [Bool.and_eq_true] at hname
    have hall := List.all_eq_true.1 hname.2
    exact ⟨fun hmem => absurd (hall _ hmem) (by decide), fun hmem => absurd (hall _ hmem) (by decide)⟩
  · cases h

theorem not_mem_of_headerValue? {value value' : Bytes} (h : headerValue? value = some value') : 13 ∉ value := by
  unfold headerValue? at h
  split at h
  · rename_i hv
    intro hmem
    exact absurd (List.all_eq_true.1 hv _ hmem) (by decide)
  · cases h

theorem headerValue?_trimAsciiStart {v : Bytes} (h : headerValue? v = some v) :
    headerValue? (trimAsciiStart v) = some (trimAsciiStart v) := by
  unfold headerValue? at h ⊢
  split at h
  · rename_i hall
    exact if_pos (List.all_eq_true.2 fun b hb =>
      List.all_eq_true.1 hall b ((dropWhile_sublist isAsciiWhitespace).subset hb))
  · cases h

def readEntry : HeaderMap := map.insert e.1 (trimAsciiStart e.2)

theorem insertTrailer_line {e : Bytes × Bytes} (hname : headerName? e.1 = some e.1)
    (hv : headerValue? e.2 = some e.2) : insertTrailer map (e.1 ++ 58 :: e.2) = .ok (readEntry map e) := by
  have hp : (e.1 ++ 58 :: e.2).findIdx? (· == 58) = some e.1.length := by
    rw [findIdx?_append, List.findIdx?_eq_none_iff.2, findIdx?_cons]
    · simp
    · intro b hb
      have hne : b ≠ 58 := fun heq => (not_mem_of_headerName? hname).2 (heq ▸ hb)
      simpa using hne
  have hd : (e.1 ++ 58 :: e.2).drop (e.1.length + 1) = e.2 := by simp
  unfold insertTrailer
  simp only [hp, take_left, hname, hd, headerValue?_trimAsciiStart hv, readEntry]

/-! ## Round trip -/

theorem foldlM_insertTrailer (r : HeaderMap) {es : List (Bytes × Bytes)}
    (hv : ∀ e ∈ es, headerName? e.1 = some e.1 ∧ headerValue? e.2 = some e.2) :
    (terminatedLines [] (es.flatMap trailerLine)).foldlM insertTrailer r = .ok (es.foldl readEntry r) := by
  induction es generalizing r with
  | nil => rfl
  | cons e es ih =>
    obtain ⟨hname, hvl⟩ := hv e mem_cons_self
    have hcr : 13 ∉ e.1 ++ 58 :: e.2 := by
      simp only [mem_append, mem_cons, not_or]
      exact ⟨(not_mem_of_headerName? hname).1, by decide, not_mem_of_headerValue? hvl⟩
    have hl : (e :: es).flatMap trailerLine = (e.1 ++ 58 :: e.2) ++ 13 :: 10 :: es.flatMap trailerLine := by
      simp [trailerLine]
    rw [hl, terminatedLines_append _ _ hcr, nil_append, foldlM_cons, insertTrailer_line r hname hvl]
    exact ih _ fun e he => hv e (mem_cons_of_mem _ he)

variable {ts : HeaderMap} {bs : Bytes}

theorem makeTrailersFrame_ok (h : makeTrailersFrame ts = .ok bs) :
    ∃ f : Frame, f.flag = trailersBit ∧ f.payload = encodeTrailers ts ∧ bs = f.bytes := by
  unfold makeTrailersFrame at h
  dsimp only at h
  split at h
  · rename_i hle
    cases h
    exact ⟨{ flag := trailersBit, payload := encodeTrailers ts, short := by omega }, rfl, rfl, rfl⟩
  · cases h

theorem decodeTrailersFrame_eq (hv : ts.Valid) (hb : makeTrailersFrame ts = .ok bs) :
    decodeTrailersFrame bs = .ok (some (ts.iter.foldl readEntry .empty)) := by
  obtain ⟨f, _, hp, rfl⟩ := makeTrailersFrame_ok hb
  have hh := f.header?_bytes []
  rw [append_nil, append_nil, hp] at hh
  unfold decodeTrailersFrame
  simp only [hh, encodeTrailers, foldlM_insertTrailer _ fun e he => hv e (HeaderMap.mem_of_mem_iter he)]
  rfl

/-- The value does not begin with whitespace. -/
def Trimmed (value : Bytes) : Prop := trimAsciiStart value = value

/-- Trailers that a trailers frame carries unchanged. -/
structure Kept (trailers : HeaderMap) : Prop where
  valid : trailers.Valid
  namesDistinct : trailers.NamesDistinct
  trimmed : ∀ e ∈ trailers.entries, Trimmed e.2

theorem foldl_readEntry {r entries : List (Bytes × Bytes)} (ht : ∀ e ∈ entries, Trimmed e.2)
    (hn : ((r ++ entries).map (·.1)).Nodup) :
    entries.foldl readEntry { entries := r } = { entries := r ++ entries } := by
  induction entries generalizing r with
  | nil => simp
  | cons e entries ih =>
    have hnw : e.1 ∉ r.map (·.1) := by
      rw [map_append, map_cons] at hn
      intro hmem
      exact (List.nodup_append.1 hn).2.2 _ hmem _ mem_cons_self rfl
    have hr : readEntry { entries := r } e = { entries := r ++ [e] } := by
      rw [readEntry, ht e mem_cons_self, HeaderMap.insert_of_not_mem hnw]
    have ha : r ++ e :: entries = (r ++ [e]) ++ entries := by simp
    rw [ha] at hn ⊢
    rw [foldl_cons, hr]
    exact ih (fun e he => ht e (mem_cons_of_mem _ he)) hn

theorem decodeTrailersFrame_makeTrailersFrame (h : Kept ts)
    (hb : makeTrailersFrame ts = .ok bs) : decodeTrailersFrame bs = .ok (some ts) := by
  have hr : ts.entries.foldl readEntry { entries := [] } = { entries := [] ++ ts.entries } :=
    foldl_readEntry h.trimmed h.namesDistinct
  rw [decodeTrailersFrame_eq h.valid hb, HeaderMap.iter_of_namesDistinct h.namesDistinct, HeaderMap.empty, hr]
  rfl

theorem valuesOf_foldl_readEntry (es : List (Bytes × Bytes)) (n : Bytes) : (es.foldl readEntry .empty).valuesOf n =
      (((es.filter (·.1 == n)).map (·.2)).getLast?.map trimAsciiStart).toList := by
  induction es using List.reverseRecOn with
  | nil => rfl
  | append_singleton es e ih =>
    rw [foldl_append, foldl_cons, foldl_nil, filter_append, map_append]
    by_cases hname : e.1 = n
    · rw [← hname, readEntry, HeaderMap.valuesOf_insert_self]
      simp
    · rw [readEntry, HeaderMap.valuesOf_insert_of_ne _ _ (Ne.symm hname), ih]
      simp [hname]

theorem namesDistinct_foldl_readEntry (es : List (Bytes × Bytes)) : (es.foldl readEntry .empty).NamesDistinct := by
  induction es using List.reverseRecOn with
  | nil => exact nodup_nil
  | append_singleton es e ih =>
    rw [foldl_append, foldl_cons, foldl_nil, readEntry]
    exact ih.insert _ _

theorem getLast?_trimmed_eq (vs : List Bytes) :
    (vs.getLast?.map trimAsciiStart).toList = vs ↔ vs = [] ∨ ∃ value, vs = [value] ∧ Trimmed value := by
  match vs with
  | [] => simp
  | [value] => simp [Trimmed]
  | first :: s :: r =>
    simp only [getLast?_cons_cons, reduceCtorEq, List.cons.injEq, and_false, false_and, exists_false, or_self,
      iff_false]
    intro heq
    have := congrArg List.length heq
    cases h : (s :: r).getLast? <;> simp [h] at this

theorem kept_of_decodeTrailersFrame (hv : ts.Valid) (hb : makeTrailersFrame ts = .ok bs)
    (hd : decodeTrailersFrame bs = .ok (some ts)) : Kept ts := by
  rw [decodeTrailersFrame_eq hv hb, Except.ok.injEq, Option.some.injEq] at hd
  have hdistinct : ts.NamesDistinct := hd ▸ namesDistinct_foldl_readEntry _
  refine ⟨hv, hdistinct, fun e he => ?_⟩
  have hvs := HeaderMap.valuesOf_of_namesDistinct hdistinct he
  have hread : (((ts.iter.filter (·.1 == e.1)).map (·.2)).getLast?.map trimAsciiStart).toList = ts.valuesOf e.1 := by
    rw [← valuesOf_foldl_readEntry, hd]
  rw [HeaderMap.valuesOf_iter, hvs] at hread
  simpa [Trimmed] using hread

/-- The frame gives back every value exactly if no name has two of them and none begins with whitespace. -/
theorem trailers_frame_round_trips (trailers : HeaderMap) (bytes : Bytes) (hvalid : trailers.Valid)
    (hbytes : makeTrailersFrame trailers = .ok bytes) :
    ∃ map, decodeTrailersFrame bytes = .ok (some map) ∧ ((∀ n, map.valuesOf n = trailers.valuesOf n) ↔
        ∀ n, trailers.valuesOf n = [] ∨ ∃ v, trailers.valuesOf n = [v] ∧ Trimmed v) := by
  refine ⟨_, decodeTrailersFrame_eq hvalid hbytes, forall_congr' fun n => ?_⟩
  rw [valuesOf_foldl_readEntry, HeaderMap.valuesOf_iter, getLast?_trimmed_eq]

theorem trailers_frame_round_trips_colon :
    ∃ map, decodeTrailersFrame ([0x80, 0, 0, 0, 6] ++ utf8 "a:b:\r\n") = .ok (some map) ∧
      ((∀ name, map.valuesOf name = HeaderMap.valuesOf { entries := [(utf8 "a", utf8 "b:")] } name) ↔
        ∀ name, HeaderMap.valuesOf { entries := [(utf8 "a", utf8 "b:")] } name = [] ∨
          ∃ v, HeaderMap.valuesOf { entries := [(utf8 "a", utf8 "b:")] } name = [v] ∧ Trimmed v) :=
  trailers_frame_round_trips _ _ (by unfold HeaderMap.Valid; decide) (by decide)

theorem trailers_frame_changes :
    (∃ bs map, makeTrailersFrame { entries := [(utf8 "a", utf8 "1"), (utf8 "a", utf8 "2")] } = .ok bs ∧
        decodeTrailersFrame bs = .ok (some map) ∧ map.valuesOf (utf8 "a") = [utf8 "2"]) ∧
      ∃ bs map, makeTrailersFrame { entries := [(utf8 "a", utf8 " 2")] } = .ok bs ∧
        decodeTrailersFrame bs = .ok (some map) ∧ map.valuesOf (utf8 "a") = [utf8 "2"] :=
  ⟨⟨_, _, rfl, rfl, rfl⟩, _, _, rfl, rfl, rfl⟩

end TonicWeb
