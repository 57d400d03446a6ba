import GrpcRust.Tonic.Reader
/-!
# Chunk boundaries do not matter

A stream yields what its reader makes of all the data at once. A decoder that returns `Ok(None)` breaks this: the
reader then asks for another frame.
-/

namespace Tonic

open Lib Lib.Bytes List

variable {σ T : Type} {C : Compression} {D : Decoder σ T} {c : StreamSettings}
  {r' : Reader σ}

/-! ## Bodies in chunks -/

namespace BodyPoll

def data? : BodyPoll → Bytes
  | .data bytes => bytes
  | _ => []

def IsChunk : BodyPoll → Prop
  | .pending => True
  | .data _ => True
  | _ => False

end BodyPoll

def dataOf (body : List BodyPoll) : Bytes := body.flatMap BodyPoll.data?

def Chunks (body : List BodyPoll) : Prop := ∀ polled ∈ body, polled.IsChunk

namespace Streaming
variable {s : Streaming σ} {first msgs : List T} {out failure : Option Failure}

variable (C D c) in
abbrev Yields (s : Streaming σ) (msgs : List T) (failure : Option Failure) : Prop :=
  Lib.Yields (Streaming.pollNext C D c) s msgs failure

/-! ### One poll -/

section Poll
variable {s : Streaming σ} {r : Reader σ}

theorem beforeFrame_of_live (hl : s.reader.Live) : s.beforeFrame C D c =
      match s.reader.decodeChunk C D c with
      | (.error failure, r) => (some (.failed failure), { s with reader := r })
      | (.ok (some msg), r) => (some (.item msg), { s with reader := r })
      | (.ok none, r) => (none, { s with reader := r }) := by
  unfold beforeFrame
  split
  · rename_i st hs
    exact absurd hs (hl st)
  · rcases s.reader.decodeChunk C D c with ⟨f | _ | msg, r⟩ <;> rfl

theorem pollNext_of_beforeFrame {p : Poll Failure T} {s' : Streaming σ} (h : s.beforeFrame C D c = (some p, s')) :
    s.pollNext C D c = (p, s') := by
  unfold pollNext
  cases hb : s.body with
  | nil => simp only [pollLoop, h]
  | cons f r => simp only [pollLoop, h]

theorem pollNext_item {msg : T} (hl : s.reader.Live) (h : s.reader.decodeChunk C D c = (.ok (some msg), r)) :
    s.pollNext C D c = (.item msg, { s with reader := r }) :=
  pollNext_of_beforeFrame (by rw [beforeFrame_of_live hl, h])

theorem pollNext_failed {f : Failure} (hl : s.reader.Live) (h : s.reader.decodeChunk C D c = (.error f, r)) :
    s.pollNext C D c = (.failed f, { s with reader := r }) :=
  pollNext_of_beforeFrame (by rw [beforeFrame_of_live hl, h])

variable (C D c) in
def pollBody (s : Streaming σ) : Poll Failure T × Streaming σ :=
  match s.body with
  | [] => s.endOfBody c
  | .pending :: rest => (.pending, { s with body := rest })
  | .data bytes :: rest => Streaming.pollNext C D c { s with reader := s.reader.append bytes, body := rest }
  | .trailers trailers :: rest => Streaming.finish c (Streaming.storeTrailers { s with body := rest } trailers)
  | .error status :: rest => Streaming.bodyError c { s with body := rest } status

theorem pollNext_more (hl : s.reader.Live) (h : s.reader.decodeChunk C D c = (.ok none, r)) :
    s.pollNext C D c = pollBody C D c { s with reader := r } := by
  have hs : s.beforeFrame C D c = (none, { s with reader := r }) := by rw [beforeFrame_of_live hl, h]
  unfold pollNext pollBody
  cases hb : s.body with
  | nil => simp only [pollLoop, hs, hb]
  | cons f rest =>
    simp only [pollLoop, hs]
    cases f <;> rfl

theorem pollNext_again (hl : s.reader.Live) (h : s.reader.Waits C D c r) :
    Streaming.pollNext C D c { s with reader := r } = s.pollNext C D c := by
  rw [pollNext_more hl h.decodeChunk_eq]
  exact pollNext_more (Reader.live_readFrame hl h) h.again.decodeChunk_eq

end Poll

/-! ### Whole bodies -/

def GoesOn (C : Compression) (D : Decoder σ T) (c : StreamSettings) (s : Streaming σ) (first : List T)
    (out : Option Failure) (msgs : List T) (failure : Option Failure) : Prop :=
  match out with
  | some f => msgs = first ∧ failure = some f
  | none => ∃ rest, msgs = first ++ rest ∧ s.Yields C D c rest failure

theorem goesOn_append {first' : List T} : GoesOn C D c s (first ++ first') out msgs failure ↔
      ∃ r, msgs = first ++ r ∧ GoesOn C D c s first' out r failure := by
  cases out with
  | some f =>
    constructor
    · rintro ⟨rfl, rfl⟩
      exact ⟨_, rfl, rfl, rfl⟩
    · rintro ⟨_, rfl, rfl, rfl⟩
      exact ⟨rfl, rfl⟩
  | none =>
    constructor
    · rintro ⟨r, rfl, h⟩
      exact ⟨_, append_assoc _ _ _, r, rfl, h⟩
    · rintro ⟨_, rfl, r, rfl, h⟩
      exact ⟨r, (append_assoc _ _ _).symm, h⟩

theorem yields_iff_of_drains_buf (hl : s.reader.Live) (h : s.reader.Drains C D c first out r') :
    s.Yields C D c msgs failure ↔ GoesOn C D c { s with reader := r' } first out msgs failure := by
  obtain ⟨r, body, trailers⟩ := s
  dsimp only at hl h ⊢
  induction h generalizing msgs with
  | @more r r' h =>
    refine (Yields.congr (pollNext_again (s := { reader := r, body := body, trailers := trailers }) hl h)).symm.trans ?_
    exact ⟨fun h => ⟨msgs, rfl, h⟩, fun ⟨_, heq, h⟩ => heq ▸ h⟩
  | @failed r r' f h =>
    exact yields_of_failed (pollNext_failed (s := { reader := r, body := body, trailers := trailers }) hl h)
  | @item r r₁ r' msg rest f h _ ih =>
    refine (yields_of_item (pollNext_item (s := { reader := r, body := body, trailers := trailers }) hl h)).trans ?_
    rw [← singleton_append, goesOn_append]
    simp only [singleton_append, ih (Reader.live_decodeChunk hl h)]

theorem yields_iff_of_drains {frames tail : List BodyPoll} (hf : Chunks frames) (hb : s.body = frames ++ tail)
    (hl : s.reader.Live) (h : (s.reader.append (dataOf frames)).Drains C D c first out r') :
    s.Yields C D c msgs failure ↔ GoesOn C D c { s with reader := r', body := tail } first out msgs failure := by
  induction frames generalizing s first msgs with
  | nil =>
    rw [show dataOf [] = [] from rfl, Reader.append_nil] at h
    rw [nil_append] at hb
    rw [yields_iff_of_drains_buf hl h, ← hb]
  | cons fr frames ih =>
    obtain ⟨r, body, trailers⟩ := s
    dsimp only at hb hl h ⊢
    subst hb
    rcases h.split with ⟨f, r₁, rfl, h₁⟩ | ⟨first₁, first₂, r₁, rfl, h₁, h₂⟩
    · rw [yields_iff_of_drains_buf hl h₁]
      exact Iff.rfl
    · rw [yields_iff_of_drains_buf hl h₁, goesOn_append]
      refine exists_congr fun rest => and_congr_right fun _ => ?_
      have hl₁ : r₁.Live := h₁.live hl
      have hf' : Chunks frames := fun p hp => hf p (mem_cons_of_mem _ hp)
      have hpl := pollNext_more (s := { reader := r₁, body := fr :: (frames ++ tail), trailers := trailers }) hl₁
        h₁.waiting.decodeChunk_eq
      cases fr with
      | pending =>
        refine (yields_of_pending hpl).trans ?_
        exact ih hf' (s := { reader := r₁, body := frames ++ tail, trailers := trailers }) rfl hl₁ h₂
      | data bs =>
        refine (Yields.congr hpl).trans ?_
        refine ih hf' (s := { reader := r₁.append bs, body := frames ++ tail, trailers := trailers }) rfl
          (hl₁.append bs) ?_
        rw [Reader.append_append]
        exact h₂
      | trailers t => exact (hf _ mem_cons_self).elim
      | error st => exact (hf _ mem_cons_self).elim

theorem last_finish (s : Streaming σ) : (s.finish c : Poll Failure T × Streaming σ).1.Last := by
  unfold finish
  split <;> trivial

theorem last_endOfBody (s : Streaming σ) : (s.endOfBody c : Poll Failure T × Streaming σ).1.Last := by
  unfold endOfBody
  split
  · exact last_finish s
  · trivial

theorem last_bodyError (s : Streaming σ) (st : Status) : (s.bodyError c st : Poll Failure T × Streaming σ).1.Last := by
  unfold bodyError
  split
  · exact last_finish s
  · trivial

theorem exists_yields_of_waiting (hD : D.Decides) (hl : s.reader.Live)
    (h : ∀ r : Reader σ, r.Live → r.Waits C D c r →
      ∃ msgs failure, Streaming.Yields C D c { s with reader := r } msgs failure) :
    ∃ msgs failure, s.Yields C D c msgs failure := by
  obtain ⟨first, out, r', hd⟩ := Reader.exists_drains (C := C) (c := c) hD s.reader
  cases out with
  | some f => exact ⟨first, some f, (yields_iff_of_drains_buf hl hd).2 ⟨rfl, rfl⟩⟩
  | none =>
    obtain ⟨msgs, failure, hy⟩ := h r' (hd.live hl) hd.waiting
    exact ⟨_, _, (yields_iff_of_drains_buf hl hd).2 ⟨msgs, rfl, hy⟩⟩

theorem exists_yields (hD : D.Decides) (hl : s.reader.Live) : ∃ msgs failure, s.Yields C D c msgs failure := by
  obtain ⟨r, body, trailers⟩ := s
  induction body generalizing r with
  | nil =>
    refine exists_yields_of_waiting hD hl fun r' hl' hw => exists_yields_of_last ?_
    rw [pollNext_more (s := { reader := r', body := [], trailers := trailers }) hl' hw.decodeChunk_eq]
    exact last_endOfBody _
  | cons f rest ih =>
    refine exists_yields_of_waiting hD hl fun r' hl' hw => ?_
    have hp := pollNext_more (s := { reader := r', body := f :: rest, trailers := trailers }) hl'
      hw.decodeChunk_eq
    cases f with
    | pending =>
      obtain ⟨msgs, failure, hy⟩ := ih r' hl'
      exact ⟨msgs, failure, (yields_of_pending hp).2 hy⟩
    | data bs =>
      obtain ⟨msgs, failure, hy⟩ := ih (r'.append bs) (hl'.append bs)
      exact ⟨msgs, failure, (Yields.congr hp).2 hy⟩
    | trailers t =>
      refine exists_yields_of_last ?_
      rw [hp]
      exact last_finish _
    | error st =>
      refine exists_yields_of_last ?_
      rw [hp]
      exact last_bodyError _ _

theorem yields_iff_of_dataOf_eq (hD : D.Decides) {fs₁ fs₂ tail : List BodyPoll} (h₁ : Chunks fs₁) (h₂ : Chunks fs₂)
    (h : dataOf fs₁ = dataOf fs₂) (d : σ) : (Streaming.new d (fs₁ ++ tail)).Yields C D c msgs failure ↔
      (Streaming.new d (fs₂ ++ tail)).Yields C D c msgs failure := by
  have hl : (Streaming.new d tail).reader.Live := fun _ h => nomatch h
  obtain ⟨first, out, r', hd⟩ :=
    Reader.exists_drains (C := C) (c := c) hD ((Streaming.new d tail).reader.append (dataOf fs₁))
  have hd' := hd
  rw [h] at hd'
  exact (yields_iff_of_drains h₁ (s := Streaming.new d (fs₁ ++ tail)) rfl hl hd).trans
    (yields_iff_of_drains h₂ (s := Streaming.new d (fs₂ ++ tail)) rfl hl hd').symm

end Streaming

end Tonic
