import GrpcRust.TonicWeb.Call
/-!
# What the scan of a buffer finds

`findTrailers` passes the message frames; its result tells what stands after them (`findTrailers_scanned`).
-/

namespace TonicWeb

open Lib Lib.Bytes Tonic List

def isMessageFlag (flag : UInt8) : Bool := flag == 0 || flag == 1

def Messages (frames : List Frame) : Prop := ∀ frame ∈ frames, isMessageFlag frame.flag = true

theorem messages_nil : Messages [] := fun _ h => nomatch h

variable {frames : List Frame}

theorem messages_cons {f : Frame} : Messages (f :: frames) ↔ isMessageFlag f.flag = true ∧ Messages frames :=
  forall_mem_cons

theorem messages_append {fs more : List Frame} : Messages (fs ++ more) ↔ Messages fs ∧ Messages more :=
  forall_mem_append

inductive Scanned : Bytes → Except Status FindTrailers → Prop
  | done {frames : List Frame} {rest : Bytes} (messages : Messages frames) (short : rest.length < 5) :
      Scanned (framesBytes frames ++ rest) (.ok (.done (framesBytes frames).length))
  | trailer {frames : List Frame} {rest payload : Bytes} {len : Nat} (messages : Messages frames)
      (header : header? rest = some (trailersBit, len, payload)) :
      Scanned (framesBytes frames ++ rest) (.ok (.trailer (framesBytes frames).length))
  | incomplete {frames : List Frame} {rest payload : Bytes} {flag : UInt8} {len : Nat} (messages : Messages frames)
      (header : header? rest = some (flag, len, payload)) (message : isMessageFlag flag = true)
      (short : payload.length < len) : Scanned (framesBytes frames ++ rest) (.ok .incompleteBuf)
  | invalid {frames : List Frame} {rest payload : Bytes} {flag : UInt8} {len : Nat} (messages : Messages frames)
      (header : header? rest = some (flag, len, payload)) (notTrailers : flag ≠ trailersBit)
      (notMessage : isMessageFlag flag = false) : Scanned (framesBytes frames ++ rest) (.error (invalidHeaderBit flag))

theorem findTrailersFrom_scanned (hm : Messages frames) {rest : Bytes} {fuel : Nat} (hfl : rest.length ≤ fuel) :
    Scanned (framesBytes frames ++ rest)
      (findTrailersFrom (framesBytes frames ++ rest) fuel (framesBytes frames).length) := by
  induction fuel generalizing frames rest with
  | zero =>
    rw [findTrailersFrom]
    exact .done hm (by omega)
  | succ fuel ih =>
    rw [findTrailersFrom, drop_left]
    cases hh : header? rest with
    | none => exact .done hm (header?_eq_none.1 hh)
    | some header =>
      obtain ⟨flag, len, payload⟩ := header
      obtain ⟨heq, hlt⟩ := eq_of_header? hh
      have hln := length_of_header? hh
      dsimp only
      by_cases ht : flag = trailersBit
      · rw [if_pos ht]
        exact .trailer hm (ht ▸ hh)
      rw [if_neg ht]
      by_cases hms : flag = 0 ∨ flag = 1
      · rw [if_neg (not_not.2 hms)]
        have hf : isMessageFlag flag = true := by simpa [isMessageFlag] using hms
        by_cases hs : payload.length < len
        · rw [if_pos (by simp only [length_append]; omega)]
          exact .incomplete hm hh hf hs
        · rw [if_neg (by simp only [length_append]; omega)]
          -- the frame joins those passed
          obtain ⟨frame, hfr, hb⟩ := Frame.exists_bytes_append_drop flag hlt (not_lt.1 hs)
          have hp : framesBytes frames ++ rest = framesBytes (frames ++ [frame]) ++ payload.drop len := by
            rw [heq, hb]
            simp
          have hl : (framesBytes frames).length + (len + 4 + 1) = (framesBytes (frames ++ [frame])).length := by
            have := congrArg List.length hp
            simp only [length_append, length_drop] at this
            omega
          rw [hp, hl]
          refine ih (messages_append.2 ⟨hm, messages_cons.2 ⟨hfr ▸ hf, messages_nil⟩⟩) ?_
          simp only [length_drop]
          omega
      · rw [if_pos hms]
        exact .invalid hm hh ht (by simpa [isMessageFlag] using hms)

theorem findTrailers_scanned (buf : Bytes) : Scanned buf (findTrailers buf) :=
  findTrailersFrom_scanned messages_nil le_rfl

/-! ## The trailers frame -/

namespace Held

theorem dataOrTrailers_nil (h : Held) (eof : Bool) : h.dataOrTrailers eof [] = h.trailersOrMore eof := rfl

theorem dataOrTrailers_of_ne_nil (h : Held) (eof : Bool) {m : Bytes} (hne : m ≠ []) :
    h.dataOrTrailers eof m = (some (.item (.data m)), h) := by
  unfold dataOrTrailers
  rw [if_pos]
  simpa using hne

section Found
variable {h : Held} {flag : UInt8} {len : Nat} {p : Bytes}

theorem trailersFound_cut (hh : header? h.decoded = some (flag, len, p)) (hc : p.length < len) (eof : Bool)
    (msgBuf : Bytes) : h.trailersFound eof msgBuf =
      if eof && msgBuf.isEmpty then (some (.failed (dataLoss "incomplete grpc-web trailers frame")), h)
      else h.dataOrTrailers eof msgBuf := by
  have hl := length_of_header? hh
  have hnone : (grpcWebFrameTotalLen h.decoded).filter (· ≤ h.decoded.length) = none := by
    rw [grpcWebFrameTotalLen, hh, Option.map_some, Option.filter_some, if_neg]
    simp only [decide_eq_true_eq]
    omega
  unfold trailersFound
  rw [hnone]

theorem trailersFound_whole (hh : header? h.decoded = some (flag, len, p)) (hw : len ≤ p.length) (eof : Bool)
    (m : Bytes) : h.trailersFound eof m =
      match decodeTrailersFrame (h.decoded.take (5 + len)) with
      | .ok (some trailers) => dataOrTrailers { decoded := h.decoded.drop (5 + len), trailers := some trailers } eof m
      | .ok none => dataOrTrailers { h with decoded := h.decoded.drop (5 + len) } eof m
      | .error e => (some (.failed (.status e)), { h with decoded := h.decoded.drop (5 + len) }) := by
  have hl := length_of_header? hh
  have hs : (grpcWebFrameTotalLen h.decoded).filter (· ≤ h.decoded.length) = some (5 + len) := by
    rw [grpcWebFrameTotalLen, hh, Option.map_some, Option.filter_some, if_pos]
    simp only [decide_eq_true_eq]
    omega
  rcases hr : decodeTrailersFrame (h.decoded.take (5 + len)) with e | _ | trailers <;>
    simp only [trailersFound, hs, hr]

end Found

end Held

section Sent
variable {fs done : List Frame} {tf : Frame} {rest : Bytes}

theorem exists_todo (hd : Messages done) (ht : tf.flag = trailersBit)
    (h : framesBytes done ++ rest = framesBytes fs ++ tf.bytes) :
    ∃ t, fs = done ++ t ∧ rest = framesBytes t ++ tf.bytes := by
  refine exists_todo_frames (p := fun f => isMessageFlag f = true) hd ?_ h
  intro fr m hf heq
  obtain ⟨rfl, _⟩ := Frame.bytes_append_inj ((append_nil _).trans heq)
  rw [ht] at hf
  exact absurd hf (by decide)

theorem header_of_sent {m p : Bytes} {flag : UInt8} {len : Nat}
    (hh : header? rest = some (flag, len, p)) (h : rest ++ m = framesBytes fs ++ tf.bytes) :
    (fs = [] ∧ flag = tf.flag ∧ p ++ m = tf.payload ∧ len = tf.payload.length) ∨
      ∃ f ∈ fs, flag = f.flag ∧ len ≤ (p ++ m).length := by
  have ha := header?_append hh m
  rw [h] at ha
  cases fs with
  | nil =>
    have hb := tf.header?_bytes []
    rw [framesBytes_nil, nil_append] at ha
    rw [append_nil, append_nil, ha] at hb
    obtain ⟨hf, hl, hp⟩ : _ ∧ _ ∧ _ := by simpa using hb
    exact .inl ⟨rfl, hf, hp, hl⟩
  | cons f fs =>
    rw [framesBytes_cons, append_assoc, f.header?_bytes] at ha
    obtain ⟨hf, hl, hp⟩ : _ ∧ _ ∧ _ := by simpa using ha
    refine .inr ⟨f, mem_cons_self, hf.symm, ?_⟩
    rw [← hp, ← hl]
    simp

end Sent

end TonicWeb
