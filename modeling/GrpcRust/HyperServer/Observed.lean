import GrpcRust.HyperServer.Shapes
import GrpcRust.Tonic.Batches
/-!
# What the client of a call observes

One status, whatever the interleaving. Messages that do not fit a frame are the exception: the encoder fails on them,
and loses what it had buffered.
-/

namespace HyperServer

open Lib Lib.Bytes Grpc Tonic List

/-! ## The body -/

/-- `BufEncoder`. -/
def bufEncoder : Encoder Unit Bytes := rawEncoder {}

def encodeSettings : EncodeSettings := { compressionEncoding := none, maxMessageSize := none }

variable (polled : List (SourcePoll Bytes)) (head : HeaderMap) (frames : List HttpFrame) (message : Bytes)

def responseBody : EncodeBody Unit Bytes := .new .server () polled

abbrev BodyEmits : Prop := (responseBody polled).Emits stored bufEncoder encodeSettings frames none

theorem encodes_of_lt {m : Bytes} (h : m.length < 2 ^ 32) :
    Encodes stored bufEncoder encodeSettings () m { flag := 0, payload := m, short := h } () where
  payload := rfl
  fits := by
    have hl : encodeSettings.limit = 2 ^ 64 - 1 := rfl
    simp only [EncodeSettings.finishEncoding, hl]
    rw [if_neg (by omega), if_neg (by omega)]
  flag := rfl

theorem exists_encodesAll {polled : List (SourcePoll Bytes)} (hpl : NoErrors polled)
    (hs : ∀ m ∈ messagesOf polled, m.length < 2 ^ 32) :
    ∃ fs : List Frame, EncodesAll stored bufEncoder encodeSettings () polled fs () ∧
      fs.map (·.payload) = messagesOf polled ∧ ∀ f ∈ fs, f.flag = 0 := by
  induction polled with
  | nil => exact ⟨[], .nil, rfl, nofun⟩
  | cons p polled ih =>
    have hrest : NoErrors polled := fun s hmem => hpl s (mem_cons_of_mem _ hmem)
    cases p with
    | pending =>
      obtain ⟨fs, hall, hp, hf⟩ := ih hrest hs
      exact ⟨fs, .pending hall, hp, hf⟩
    | error s => exact absurd mem_cons_self (hpl s)
    | item m =>
      have hc : messagesOf (.item m :: polled) = m :: messagesOf polled := rfl
      rw [hc, forall_mem_cons] at hs
      obtain ⟨fs, hall, hp, hf⟩ := ih hrest hs.2
      refine ⟨_ :: fs, .item (encodes_of_lt hs.1) hall, ?_, ?_⟩
      · rw [hc, map_cons, hp]
      · exact List.forall_mem_cons.2 ⟨rfl, hf⟩

theorem exists_bodyEmits {p : List (SourcePoll Bytes)} (hpl : NoErrors p) (hs : ∀ m ∈ messagesOf p, m.length < 2 ^ 32)
    (s : Tonic.Status) : ∃ (cs : List Bytes) (fs : List Frame), fs.map (·.payload) = messagesOf p ∧
      (∀ f ∈ fs, f.flag = 0) ∧ cs.flatten = framesBytes fs ∧
      BodyEmits (p ++ [.error s]) (cs.map .data ++ [.trailers s.headers]) := by
  obtain ⟨fs, hall, hp, hf⟩ := exists_encodesAll hpl hs
  obtain ⟨l, hlast, hend⟩ := EncodeBody.emits_error .server () (buffered stored bufEncoder encodeSettings () [] p) s []
  obtain ⟨cs, hc, he⟩ := EncodeBody.emits_new hall hlast hend
  exact ⟨cs, fs, hp, hf, hc, he⟩

/-! ## Observations -/

inductive Observes (c : Call) : HeaderMap → List HttpFrame → Prop
  | trailersOnly {head : HeaderMap} (response : c.response = some (.trailersOnly (.ok head))) : Observes c head []
  | streaming {head : HeaderMap} {polled : List (SourcePoll Bytes)} {frames : List HttpFrame}
      (response : c.response = some (.streaming head polled true)) (emits : BodyEmits polled frames) :
      Observes c head frames

def statuses : List Bytes :=
  head.valuesOf Status.grpcStatus ++ frames.flatMap fun
    | .trailers trailers => trailers.valuesOf Status.grpcStatus
    | .data _ => []

theorem statuses_data (cs : List Bytes) (frames : List HttpFrame) :
    statuses head (cs.map .data ++ frames) = statuses head frames := by
  simp [statuses, flatMap_append, flatMap_map]

def MessagesThenTrailers (messages : List Bytes) (status : Tonic.Status) (frames : List HttpFrame) : Prop :=
  ∃ (chunks : List Bytes) (msgFrames : List Frame) (trailers : HeaderMap),
    frames = chunks.map .data ++ [.trailers trailers] ∧ chunks.flatten = framesBytes msgFrames ∧
    msgFrames.map (·.payload) = messages ∧ (∀ frame ∈ msgFrames, frame.flag = 0) ∧ Reserved (some status) false trailers

structure OneStatus (c : Call) (e : Ending) (status : Tonic.Status) (head : HeaderMap) (frames : List HttpFrame) :
    Prop where
  one : statuses head frames = [status.code.toHeaderValue]
  ok : status.code = .ok → ∃ trailers, e = .returned trailers false ∧ trailers.status = .ok ()
  trailersOnly : c.begun = false → frames = [] ∧ Reserved (some status) true head
  streaming : c.begun = true → MessagesThenTrailers c.sent status frames ∧ Reserved none true head

namespace Ending

variable {e : Ending}

theorem returned_of_ok {ts : Trailers} (he : e.trailers = some ts)
    (hok : (tonicStatusFromTrailers ts).code = .ok) : ∃ late, e = .returned ts late := by
  cases e with
  | returned ts late =>
    cases he
    exact ⟨late, rfl⟩
  | cutOff =>
    cases he
    cases hok
  | panicked => cases he

theorem returned_of_streamStatus (h : e.streamStatus.code = .ok) : ∃ ts l, e = .returned ts l ∧ ts.status = .ok () := by
  cases he : e.trailers with
  | none =>
    rw [streamStatus, he] at h
    cases h
  | some ts =>
    rw [streamStatus, he] at h
    obtain ⟨l, rfl⟩ := returned_of_ok he h
    exact ⟨ts, l, rfl, code_eq_ok h⟩

theorem returned_of_onlyTrailers (h : (tonicStatusFromTrailers e.onlyTrailers).code = .ok) :
    ∃ ts l, e = .returned ts l ∧ ts.status = .ok () := by
  cases he : e.trailers with
  | none =>
    rw [onlyTrailers, he] at h
    cases h
  | some ts =>
    rw [onlyTrailers, he] at h
    obtain ⟨l, rfl⟩ := returned_of_ok he h
    exact ⟨ts, l, rfl, code_eq_ok h⟩

theorem reserved_streamStatus (e : Ending) : Reserved (some e.streamStatus) false e.streamStatus.headers := by
  unfold streamStatus
  cases e.trailers with
  | some trailers => exact reserved_trailers trailers
  | none => exact reserved_trailers (.new .internal "handler ended without sending trailers")

end Ending

section
variable {task : Task} {en : Option Ending} {il : Initial} {b : Bool} {sent : List Bytes}
  {q : List (Except Trailers Bytes)}

theorem Shape.of_trailersOnly {head : Except Tonic.Status HeaderMap}
    (h : Shape task en il (some (.trailersOnly head)) b sent q) :
    ∃ e, en = some e ∧ b = false ∧ head = trailersOnlyHead e.onlyTrailers := by
  cases h with
  | answered e => exact ⟨e, rfl, rfl, rfl⟩

theorem Shape.of_finished {head : HeaderMap} {p : List (SourcePoll Bytes)}
    (h : Shape task en il (some (.streaming head p true)) b sent q) :
    ∃ e m messages, en = some e ∧ b = true ∧ head = streamingHead m ∧
      p = messages ++ [.error e.streamStatus] ∧ NoErrors messages ∧ sent = messagesOf messages := by
  cases h with
  | @finished e m messages hne => exact ⟨e, m, messages, rfl, rfl, rfl, rfl, hne, rfl⟩

end

section
variable {d : Bool} {c : Call} {head : HeaderMap} {frames : List HttpFrame}

theorem Observes.oneStatus (hi : Inv d c) (hsm : ∀ mg ∈ c.sent, mg.length < 2 ^ 32)
    (h : Observes c head frames) : ∃ e s, c.ending = some e ∧ OneStatus c e s head frames := by
  have hs := hi.shape
  cases h with
  | trailersOnly hrs =>
    rw [hrs] at hs
    obtain ⟨e, he, hb, hh⟩ := hs.of_trailersOnly
    obtain ⟨head', hok, hr⟩ := reserved_trailersOnlyHead e.onlyTrailers
    rw [hok] at hh
    cases hh
    refine ⟨e, tonicStatusFromTrailers e.onlyTrailers, he, ?_, ?_, ?_, ?_⟩
    · rw [statuses, hr.grpcStatus]
      rfl
    · intro hc
      obtain ⟨ts, l, rfl, hst⟩ := Ending.returned_of_onlyTrailers hc
      obtain rfl := hi.returned _ _ he
      exact ⟨ts, rfl, hst⟩
    · exact fun _ => ⟨rfl, hr⟩
    · intro ht
      rw [hb] at ht
      cases ht
  | streaming hrs hem =>
    rw [hrs] at hs
    obtain ⟨e, m, me, he, hb, rfl, rfl, hne, hsn⟩ := hs.of_finished
    obtain ⟨cs, ms, hp, hfg, hfl, hem'⟩ := exists_bodyEmits hne (hsn ▸ hsm) e.streamStatus
    obtain ⟨rfl, _⟩ := hem.unique hem'
    have hr := e.reserved_streamStatus
    refine ⟨e, e.streamStatus, he, ?_, ?_, ?_, ?_⟩
    · rw [statuses_data, statuses, (reserved_streamingHead m).grpcStatus]
      simpa using hr.grpcStatus
    · intro hc
      obtain ⟨ts, l, rfl, hst⟩ := Ending.returned_of_streamStatus hc
      obtain rfl := hi.returned _ _ he
      exact ⟨ts, rfl, hst⟩
    · intro hf
      rw [hb] at hf
      cases hf
    · exact fun _ => ⟨⟨cs, ms, _, rfl, hfl, hp.trans hsn.symm, hfg, hr⟩, reserved_streamingHead m⟩

end

/-! ## To the end of a call -/

def Event.IsTransport : Event → Prop
  | .sendTrailers => True
  | .receiveInitial => True
  | .pollBody => True
  | _ => False

def Call.work (c : Call) : Nat :=
  2 * c.queue.length + (match c.task with
      | .sendingTrailers _ => 3
      | _ => 0) +
    match c.response with
    | none => 2
    | some (.streaming _ _ false) => 1
    | _ => 0

def Call.Complete (c : Call) : Prop :=
  (∃ head, c.response = some (.trailersOnly head)) ∨ ∃ head polled, c.response = some (.streaming head polled true)

section
variable {d : Bool} {c : Call}

theorem Inv.exists_transport_step (h : Inv d c) (he : c.ending ≠ none) (hn : ¬c.Complete) :
    ∃ ev c', ev.IsTransport ∧ c.step d ev = some c' ∧ c'.work < c.work ∧ c'.sent = c.sent ∧ c'.ending = c.ending := by
  have hs := h.shape
  have hl := h.live
  obtain ⟨t, ip, p, el, il, q, r, b, s, en⟩ := c
  dsimp only at hs hl he
  cases hs with
  | held hen hq =>
    cases t with
    | running => exact absurd (hl.2 trivial) he
    | queueing buf => exact absurd rfl (hq buf)
    | ended => exact absurd rfl hen
    | sendingTrailers ts => exact ⟨.sendTrailers, _, trivial, rfl, by simp [Call.work], rfl, rfl⟩
  | trailersSent => exact ⟨.receiveInitial, _, trivial, rfl, by simp [Call.work], rfl, rfl⟩
  | dropped => exact ⟨.receiveInitial, _, trivial, rfl, by simp [Call.work], rfl, rfl⟩
  | answered e => exact absurd (.inl ⟨_, rfl⟩) hn
  | waiting => exact ⟨.receiveInitial, _, trivial, rfl, by simp [Call.work], rfl, rfl⟩
  | streaming hqd =>
    cases q with
    | cons item q =>
      cases item with
      | ok m => exact ⟨.pollBody, _, trivial, rfl, by simp [Call.work, Call.pollMessages], rfl, rfl⟩
      | error ts => exact ⟨.pollBody, _, trivial, rfl, by simp [Call.work, Call.pollMessages], rfl, rfl⟩
    | nil =>
      cases t with
      | running => exact absurd (hl.2 trivial) he
      | queueing buf => exact absurd (hl.2 trivial) he
      | ended => exact ⟨.pollBody, _, trivial, rfl, by simp [Call.work, Call.pollMessages], rfl, rfl⟩
      | sendingTrailers ts => exact ⟨.sendTrailers, _, trivial, rfl, by simp [Call.work], rfl, rfl⟩
  | finished => exact absurd (.inr ⟨_, _, rfl⟩) hn

theorem Inv.exists_complete (h : Inv d c) (he : c.ending ≠ none) :
    ∃ (es : List Event) (c' : Call), (∀ e ∈ es, e.IsTransport) ∧ es.foldlM (Call.step d) c = some c' ∧
      Inv d c' ∧ c'.sent = c.sent ∧ c'.Complete := by
  induction hn : c.work using Nat.strong_induction_on generalizing c with
  | _ n ih =>
    subst hn
    by_cases hc : c.Complete
    · exact ⟨[], c, nofun, rfl, h, rfl, hc⟩
    · obtain ⟨e, c₁, ht, hst, hw, hs, hsame⟩ := h.exists_transport_step he hc
      obtain ⟨es, c', hall, hr, hi, hs', hc'⟩ := ih _ hw (h.step hst) (hsame ▸ he) rfl
      refine ⟨e :: es, c', List.forall_mem_cons.2 ⟨ht, hall⟩, ?_, hi, hs'.trans hs, hc'⟩
      rw [foldlM_cons, hst]
      exact hr

theorem Inv.exists_observes (h : Inv d c) (hsm : ∀ m ∈ c.sent, m.length < 2 ^ 32)
    (hc : c.Complete) : ∃ head frames, Observes c head frames := by
  have hs := h.shape
  rcases hc with ⟨head, hr⟩ | ⟨head, p, hr⟩
  · rw [hr] at hs
    obtain ⟨e, _, _, rfl⟩ := hs.of_trailersOnly
    obtain ⟨head, hok, _⟩ := reserved_trailersOnlyHead e.onlyTrailers
    rw [hok] at hr
    exact ⟨head, [], .trailersOnly hr⟩
  · rw [hr] at hs
    obtain ⟨e, _, ms, _, _, _, rfl, hne, hsn⟩ := hs.of_finished
    obtain ⟨cs, _, _, _, _, he⟩ := exists_bodyEmits hne (hsn ▸ hsm) e.streamStatus
    exact ⟨head, _, .streaming hr he⟩

end

/-- In every interleaving the client observes one status, in its place and with the messages, once the handler ended. -/
theorem one_status {deadline : Bool} {c : Call} (h : (calls deadline).Reached c)
    (hsmall : ∀ message ∈ c.sent, message.length < 2 ^ 32) :
    (∀ head fs, Observes c head fs → ∃ e s, c.ending = some e ∧ OneStatus c e s head fs) ∧
      (c.ending ≠ none → ∃ (es : List Event) (c' : Call), (∀ ev ∈ es, ev.IsTransport) ∧
        es.foldlM (Call.step deadline) c = some c' ∧ c'.sent = c.sent ∧ ∃ head fs, Observes c' head fs) := by
  have hi := inv_of_reachable h
  refine ⟨fun head fs ho => ho.oneStatus hi hsmall, fun he => ?_⟩
  obtain ⟨es, c', hall, hr, hi', hs, hc⟩ := hi.exists_complete he
  exact ⟨es, c', hall, hr, hs, hi'.exists_observes (hs ▸ hsmall) hc⟩

def okTrailers : Trailers := { status := .ok (), metadata := { headers := [] } }

def cutOffRun : List Event :=
  [.wake, .sendMessage (.ok [7]), .queue, .sendMessage (.ok [8]), .yield, .elapse, .wake, .receiveInitial, .pollBody,
    .pollBody, .sendTrailers, .pollBody]

theorem one_status_cut_off :
    ∃ c : Call, (calls true).run cutOffRun = some c ∧ c.sent = [[7]] ∧ (∃ head frames, Observes c head frames) ∧
      ∀ head frames, Observes c head frames → ∃ e s, c.ending = some e ∧ OneStatus c e s head frames := by
  refine ⟨_, rfl, rfl, ?_, (one_status (Transition.reached_of_run (?_ : (calls true).run cutOffRun = some _)) ?_).1⟩
  · have hm : NoErrors [.item [7], .pending] := by
      intro s hmem
      simp at hmem
    obtain ⟨cs, _, _, _, _, he⟩ := exists_bodyEmits hm (by decide) (tonicStatusFromTrailers deadlineExceeded)
    exact ⟨_, _, .streaming rfl he⟩
  · rfl
  · decide

def oneMessageRun : List Event :=
  [.wake, .sendMessage (.ok message), .queue, .returns okTrailers, .receiveInitial, .pollBody, .sendTrailers, .pollBody]

def MessageLost : Prop :=
  ∃ (c : Call) (head trailers : HeaderMap), (calls false).run (oneMessageRun message) = some c ∧ c.sent = [message] ∧
    c.ending = some (.returned okTrailers false) ∧ Observes c head [.trailers trailers] ∧
    trailers.valuesOf Status.grpcStatus = [utf8 "8"]

theorem messageLost_of_le {message : Bytes} (h : 2 ^ 32 ≤ message.length) (hl : message.length < 2 ^ 64) :
    MessageLost message := by
  let s := Status.resourceExhausted ("Cannot return body with more than 4GB of data but got " ++
    toString message.length ++ " bytes")
  have hf : FailsToEncode stored bufEncoder encodeSettings () message (.status s) := by
    have hp : encodePayload stored bufEncoder encodeSettings () message = (.ok (), (), message) := rfl
    have hm : encodeSettings.limit = 2 ^ 64 - 1 := rfl
    simp only [FailsToEncode, encodeItem, hp, EncodeSettings.finishEncoding, hm]
    rw [if_neg (by omega), if_pos (by omega)]
  have he : BodyEmits [.item message, .error (tonicStatusFromTrailers okTrailers)] [.trailers s.headers] :=
    EncodeBody.emits_failing_item .server [] hf _
  exact ⟨_, _, _, rfl, rfl, rfl, .streaming rfl he, Status.valuesOf_headersOn_grpcStatus ..⟩

/-- A message that does not fit a frame is sent with success; the client gets neither it nor the status. -/
theorem too_large_message_lost : MessageLost (List.replicate (2 ^ 32) 0) := by
  have hl : (List.replicate (2 ^ 32) (0 : UInt8)).length = 2 ^ 32 := length_replicate
  apply messageLost_of_le
  · rw [hl]
  · rw [hl]
    decide

end HyperServer
