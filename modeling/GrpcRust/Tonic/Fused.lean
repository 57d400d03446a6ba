import GrpcRust.Tonic.Chunks
/-!
# What a stream gives after its end

Before an `Intact` stream's end there is nothing the decoder fails on. After it every poll ends, unless trailers were
taken in between.
-/

namespace Tonic

open Lib Lib.Bytes List

variable {σ T : Type} {C : Compression} {D : Decoder σ T} {c : StreamSettings}
  {s' : Streaming σ}

/-! ## Calls of the user -/

/-- A poll for the next message, or `inner.trailers.take()`; `trailers` polls to the end before it. -/
inductive Op
  | poll
  | takeTrailers
deriving DecidableEq

def Final : Poll Failure T → Prop
  | .ended => True
  | .failed (.status _) => True
  | _ => False

namespace Streaming
variable {s : Streaming σ} {ops : List Op}

variable (C D c) in
def run (s : Streaming σ) : List Op → List (Poll Failure T)
  | [] => []
  | .takeTrailers :: ops => run s.takeTrailers.2 ops
  | .poll :: ops =>
    match s.pollNext C D c with
    | (.failed (.panic panic), _) => [.failed (.panic panic)]
    | (polled, s) => polled :: run s ops

variable (C D c) in
def Polite (s : Streaming σ) : List Op → Prop
  | [] => True
  | .poll :: ops => Polite (s.pollNext C D c).2 ops
  | .takeTrailers :: ops =>
    ((∃ status, c.direction = .response status) → s.trailers.isSome = true → .poll ∉ ops) ∧ Polite s.takeTrailers.2 ops

/-! ## Streams that have ended -/

variable (C D c) in
structure AtEnd (s : Streaming σ) : Prop where
  live : s.reader.Live
  waiting : s.reader.Waits C D c s.reader
  buf : s.reader.buf = []
  body : s.body = []

variable (C D c) in
/-- Every further poll returns the end. -/
inductive Settled (s : Streaming σ) : Prop
  | failed : s.reader.state = .error none → Settled s
  | ended : s.AtEnd C D c → s.response c = .ok (.ok (), s) → Settled s

theorem AtEnd.pollNext (h : s.AtEnd C D c) : s.pollNext C D c = s.finish c := by
  rw [pollNext_more h.live h.waiting.decodeChunk_eq, pollBody, h.body]
  simp only [endOfBody, h.buf, isEmpty_nil, if_true]
  rw [← h.body]

theorem Settled.pollNext (h : s.Settled C D c) : s.pollNext C D c = (.ended, s) := by
  cases h with
  | failed hs =>
    refine pollNext_of_beforeFrame ?_
    unfold beforeFrame
    rw [hs]
    dsimp only [Option.elim]
    rw [← hs]
  | ended hend hr => rw [hend.pollNext, finish, hr]

theorem response_eq_self (h : s.response c = .ok (.ok (), s')) : s' = s := by
  unfold response at h
  split at h
  · split at h
    · cases h
    · cases h
    · cases h
      rfl
  · cases h
    rfl

theorem AtEnd.settled_finish (h : s.AtEnd C D c) {p : Poll Failure T}
    (hf : s.finish c = (p, s')) (hfn : Final p) : s'.Settled C D c := by
  unfold finish at hf
  split at hf
  · cases hf
    exact hfn.elim
  · rename_i s₁ hr
    cases hf
    obtain rfl := response_eq_self hr
    exact .ended h hr
  · cases hf
    exact .failed rfl

theorem response_takeTrailers (hc : ¬ ∃ st, c.direction = .response st) :
    s.takeTrailers.2.response c = .ok (.ok (), s.takeTrailers.2) := by
  unfold response
  split
  · rename_i st hd
    exact absurd ⟨st, hd⟩ hc
  · rfl

theorem not_mem_run_of_not_poll (h : .poll ∉ ops) : s.run C D c ops = [] := by
  induction ops generalizing s with
  | nil => rfl
  | cons op ops ih =>
    cases op with
    | poll => exact absurd mem_cons_self h
    | takeTrailers => exact ih fun hmem => h (mem_cons_of_mem _ hmem)

theorem Settled.takeTrailers (h : s.Settled C D c) :
    s.takeTrailers.2.Settled C D c ∨ ((∃ st, c.direction = .response st) ∧ s.trailers.isSome = true) := by
  cases h with
  | failed hs => exact .inl (.failed hs)
  | ended hend hr =>
    by_cases hc : ∃ st, c.direction = .response st
    · cases ht : s.trailers with
      | some ts => exact .inr ⟨hc, rfl⟩
      | none =>
        refine .inl (.ended ⟨hend.live, hend.waiting, hend.buf, hend.body⟩ ?_)
        have : s.takeTrailers.2 = s := by
          simp only [Streaming.takeTrailers]
          rw [← ht]
        rw [this, hr]
    · exact .inl (.ended ⟨hend.live, hend.waiting, hend.buf, hend.body⟩ (response_takeTrailers hc))

theorem Settled.run (h : s.Settled C D c) (hp : s.Polite C D c ops) : ∀ p ∈ s.run C D c ops, p = .ended := by
  induction ops generalizing s with
  | nil => simp [Streaming.run]
  | cons op ops ih =>
    cases op with
    | poll =>
      simp only [Polite, h.pollNext] at hp
      simp only [Streaming.run, h.pollNext, mem_cons]
      rintro p (rfl | hmem)
      · rfl
      · exact ih h hp p hmem
    | takeTrailers =>
      rcases h.takeTrailers with h' | ⟨hc, ht⟩
      · exact ih h' hp.2
      · simp only [Streaming.run, not_mem_run_of_not_poll (hp.1 hc ht)]
        intro p hmem
        cases hmem

/-! ## Streams before their end -/

/-- A body ends well with its data, with trailers, or because the client of a request went away. -/
inductive EndsWell (c : StreamSettings) : List BodyPoll → Prop
  | data : EndsWell c []
  | trailers (trailers : HeaderMap) : EndsWell c [.trailers trailers]
  | cancelled {status : Status} : c.direction = .request → status.code = .cancelled → EndsWell c [.error status]

variable (C D c) in
/-- All the data there is decodes to messages, and the body ends well with nothing left of it. -/
structure Intact (s : Streaming σ) : Prop where
  live : s.reader.Live
  trailers : s.trailers = none
  body : ∃ frames tail msgs r', s.body = frames ++ tail ∧ Chunks frames ∧ EndsWell c tail ∧
    (s.reader.append (dataOf frames)).Drains C D c msgs none r' ∧ r'.buf = []

variable (C D c) in
def After : Poll Failure T × Streaming σ → Prop
  | (.pending, s) => s.Intact C D c
  | (.item _, s) => s.Intact C D c
  | (.failed (.panic _), _) => True
  | (_, s) => s.Settled C D c

theorem after_finish (h : s.AtEnd C D c) : After C D c (s.finish c) := by
  have hlast : (s.finish c : Poll Failure T × Streaming σ).1.Last := last_finish s
  rcases hf : (s.finish c : Poll Failure T × Streaming σ) with ⟨_ | _ | msg | (st | panic), s'⟩
  · rw [hf] at hlast
    exact hlast.elim
  · exact h.settled_finish hf trivial
  · rw [hf] at hlast
    exact hlast.elim
  · exact h.settled_finish hf trivial
  · trivial

theorem after_pollBody {r : Reader σ} {fs tail : List BodyPoll} {msgs : List T} {r' : Reader σ} (hl : r.Live)
    (hw : r.Waits C D c r) (hf : Chunks fs) (ht : EndsWell c tail)
    (hd : (r.append (dataOf fs)).Drains C D c msgs none r') (hb : r'.buf = [])
    (ih : ∀ bs rest, fs = .data bs :: rest →
      After C D c (Streaming.pollNext C D c { reader := r.append bs, body := rest ++ tail, trailers := none })) :
    After C D c (pollBody C D c { reader := r, body := fs ++ tail, trailers := none }) := by
  cases fs with
  | nil =>
    -- a reader that waits for more of nothing is the one that has decoded everything
    have hr : r' = r := by
      rw [show dataOf [] = [] from rfl, Reader.append_nil] at hd
      have := hd.waits_of_none hw.decodeChunk_eq
      rw [Reader.Waits, show r.readFrame C c D.bufferSettings.bufferSize = _ from hw] at this
      cases this
      rfl
    subst hr
    have hend (trailers : Option HeaderMap) : AtEnd C D c { reader := r', body := [], trailers := trailers } :=
      ⟨hl, hw, hb, rfl⟩
    cases ht with
    | data =>
      simp only [pollBody, append_nil, endOfBody, hb, isEmpty_nil, if_true]
      exact after_finish (hend none)
    | trailers trailers => exact after_finish (hend (some trailers))
    | cancelled hdr hc =>
      simp only [pollBody, nil_append, bodyError, hdr, hc, and_self, if_true]
      exact after_finish (hend none)
  | cons f rest =>
    cases f with
    | pending =>
      have hf' : Chunks rest := fun p hp => hf p (mem_cons_of_mem _ hp)
      exact ⟨hl, rfl, rest, tail, msgs, r', rfl, hf', ht, hd, hb⟩
    | data bs => exact ih bs rest rfl
    | trailers t => exact (hf _ mem_cons_self).elim
    | error s => exact (hf _ mem_cons_self).elim

theorem Intact.after (h : s.Intact C D c) : After C D c (s.pollNext C D c) := by
  obtain ⟨r, body, trailers⟩ := s
  obtain ⟨hl, rfl, fs, tail, msgs, r', rfl, hf, ht, hd, hb⟩ := h
  dsimp only at hl hd
  induction hn : fs.length using Nat.strong_induction_on generalizing fs r msgs with
  | _ n ih =>
    rcases hd.split with ⟨f, r₁, hnone, _⟩ | ⟨first, rest, r₁, rfl, h₁, h₂⟩
    · cases hnone
    · cases h₁ with
      | more hw =>
        have hl₁ := Reader.live_readFrame hl hw
        rw [pollNext_more (s := { reader := r, body := fs ++ tail, trailers := none }) hl hw.decodeChunk_eq]
        refine after_pollBody hl₁ hw.again hf ht h₂ hb ?_
        rintro bs rest' rfl
        have hf' : Chunks rest' := fun p hp => hf p (mem_cons_of_mem _ hp)
        refine ih rest'.length (by simp [← hn]) _ rest' rest (hl₁.append bs) hf' ?_ rfl
        rw [Reader.append_append]
        exact h₂
      | item hdc _ =>
        rw [pollNext_item (s := { reader := r, body := fs ++ tail, trailers := none }) hl hdc]
        have hdc' := Reader.decodeChunk_append hdc (Reader.not_waits hdc fun h => nomatch h) (dataOf fs)
        obtain ⟨rest', _, hd₁⟩ := hd.of_item hdc'
        exact ⟨Reader.live_decodeChunk hl hdc, rfl, fs, tail, rest', r', rfl, hf, ht, hd₁, hb⟩

theorem Settled.pairwise_run (h : s.Settled C D c) (hp : s.Polite C D c ops) {first : Poll Failure T} :
    (first :: s.run C D c ops).Pairwise fun e l => Final e → l = .ended := by
  refine List.pairwise_cons.2 ⟨fun l hl _ => h.run hp l hl, ?_⟩
  exact pairwise_of_forall_mem_list fun _ _ l hl _ => h.run hp l hl

end Streaming

/-- Of an intact stream every poll after an error or the end gives the end, if trailers are not taken in between. -/
theorem ended_after_error_or_end {s : Streaming σ} (h : s.Intact C D c) {ops : List Op}
    (hp : s.Polite C D c ops) :
    (s.run C D c ops).Pairwise fun e l => Final e → l = .ended := by
  induction ops generalizing s with
  | nil => exact .nil
  | cons op ops ih =>
    cases op with
    | takeTrailers =>
      have hs : s.takeTrailers.2 = s := by
        simp only [Streaming.takeTrailers]
        rw [← h.trailers]
      simp only [Streaming.Polite, hs] at hp
      simp only [Streaming.run, hs]
      exact ih h hp.2
    | poll =>
      have ha := h.after
      simp only [Streaming.Polite] at hp
      simp only [Streaming.run]
      rcases hpl : s.pollNext C D c with ⟨_ | _ | msg | (st | panic), s'⟩
      all_goals rw [hpl] at ha hp
      -- before the end the stream stays intact, after it it is settled
      · exact List.pairwise_cons.2 ⟨fun _ _ hf => hf.elim, ih ha hp⟩
      · exact ha.pairwise_run hp
      · exact List.pairwise_cons.2 ⟨fun _ _ hf => hf.elim, ih ha hp⟩
      · exact ha.pairwise_run hp
      · exact pairwise_singleton _ _

/-- A response of one message that fails with the status of its trailers. -/
theorem ended_after_error_or_end_not_found :
    let s : Streaming Unit := .new () [.data [0, 0, 0], .data [0, 1, 7],
      .trailers { entries := [(utf8 "grpc-status", utf8 "5")] }]
    let ops : List Op := [.poll, .poll, .takeTrailers, .poll]
    s.Intact stored rawDecoder responseSettings ∧ s.Polite stored rawDecoder responseSettings ops ∧
      (s.run stored rawDecoder responseSettings ops).Pairwise fun e l => Final e → l = .ended := by
  intro s ops
  have hi : s.Intact stored rawDecoder responseSettings := by
    refine ⟨(fun _ h => nomatch h), rfl, [.data [0, 0, 0], .data [0, 1, 7]], _, [[7]],
      { decoder := (), state := .readHeader, buf := [] }, rfl, ?_, .trailers _, ?_, rfl⟩
    · intro p hp
      simp only [mem_cons, not_mem_nil, or_false] at hp
      rcases hp with rfl | rfl <;> trivial
    · exact .item rfl (.more rfl)
  have hpl : s.Polite stored rawDecoder responseSettings ops := ⟨fun _ h => absurd h (by decide), trivial⟩
  exact ⟨hi, hpl, ended_after_error_or_end hi hpl⟩

/-- A payload is read after its oversized header, errors are given twice, and an ended response fails. -/
theorem streams_go_on_after_error_or_end :
    (Streaming.new () [.data [0, 0, 0, 0, 6, 0, 0, 0, 0, 1, 7]]).run stored rawDecoder (requestSettings (some 4))
        [.poll, .poll] = [.failed (.status ((requestSettings (some 4)).tooLarge 6)), .item [7]] ∧
      (Streaming.new () [.error (.internal "reset")]).run stored rawDecoder (requestSettings none) [.poll, .poll] =
        [.failed (.status (.internal "reset")), .failed (.status (.internal "reset"))] ∧
      (Streaming.new () [.data [0]]).run stored rawDecoder (requestSettings none) [.poll, .poll] =
        [.failed (.status Streaming.unexpectedEof), .failed (.status Streaming.unexpectedEof)] ∧
      (Streaming.new () [.trailers okTrailers]).run stored rawDecoder responseSettings [.poll, .takeTrailers, .poll] =
        [.ended, .failed (.status (.unknown missingStatusText))] := by
  decide

end Tonic
