import GrpcRust.Client.Channel
/-!
# Validated response streams

`RecvStreamValidator` of `client/stream_util.rs`. The stream below is what its polls return, one after the other.
-/

namespace StreamUtil

open Client (ConnectionInfo ResponseStreamItem Trailers)

inductive RecvStreamState
  | awaitingHeaders
  | awaitingMessagesOrTrailers
  | awaitingTrailers
  | done
deriving DecidableEq

structure RecvStreamValidator (M : Type) where
  recvStream : Nat → ResponseStreamItem M
  polled : Nat
  state : RecvStreamState
  unary : Bool

namespace RecvStreamValidator
variable {M : Type}

def new (recvStream : Nat → ResponseStreamItem M) (unary : Bool) : RecvStreamValidator M :=
  { recvStream, polled := 0, state := .awaitingHeaders, unary }

def error (v : RecvStreamValidator M) (s : String) : ResponseStreamItem M × RecvStreamValidator M :=
  (.trailers (.new (.error { code := .internal, message := s })), { v with state := .done })

def received (v : RecvStreamValidator M) (item : ResponseStreamItem M) : ResponseStreamItem M × RecvStreamValidator M :=
  match item with
  | .headers _ _ =>
    if v.state = .awaitingHeaders then (item, { v with state := .awaitingMessagesOrTrailers })
    else v.error "stream received multiple headers"
  | .message _ =>
    if v.state = .awaitingMessagesOrTrailers then (item, if v.unary then { v with state := .awaitingTrailers } else v)
    else if v.state = .awaitingTrailers then v.error "unary stream received multiple messages"
    else v.error "stream received messages without headers"
  | .trailers t =>
    if v.unary ∧ v.state ≠ .awaitingTrailers ∧ t.status = .ok () then v.error "unary stream received zero messages"
    else (.trailers t, { v with state := .done })
  | .streamClosed => v.error "stream ended without trailers"

def recv (v : RecvStreamValidator M) : ResponseStreamItem M × RecvStreamValidator M :=
  if v.state = .done then (.streamClosed, v) else { v with polled := v.polled + 1 }.received (v.recvStream v.polled)

def calls (v : RecvStreamValidator M) : Nat → List (ResponseStreamItem M) × RecvStreamValidator M
  | 0 => ([], v)
  | n + 1 => ((v.calls n).1 ++ [(v.calls n).2.recv.1], (v.calls n).2.recv.2)

/-! ## What is let through -/

/-- `(Headers Message*)?`, with one message at most if the call is unary, and the state it leads to. -/
inductive Opening (unary : Bool) : List (ResponseStreamItem M) → RecvStreamState → Prop
  | start : Opening unary [] .awaitingHeaders
  | messages (info : ConnectionInfo) (metadata : Grpc.MetadataMap) (msgs : List M) (h : unary = true → msgs = []) :
    Opening unary (.headers info metadata :: msgs.map .message) .awaitingMessagesOrTrailers
  | single (info : ConnectionInfo) (metadata : Grpc.MetadataMap) (msg : M) (h : unary = true) :
    Opening unary [.headers info metadata, .message msg] .awaitingTrailers

def Violates (unary : Bool) (before : List (ResponseStreamItem M)) : ResponseStreamItem M → Prop
  | .headers _ _ => before ≠ []
  | .message _ => before = [] ∨ unary = true ∧ before.length = 2
  | .trailers t => unary = true ∧ t.status = .ok () ∧ before.length ≠ 2
  | .streamClosed => True

variable {v : RecvStreamValidator M} {im : List (ResponseStreamItem M)}

/-- A violation becomes an error, trailers are the last item, and anything else is returned as it is. -/
theorem received_cases (h : Opening v.unary im v.state) (item : ResponseStreamItem M) :
    (Violates v.unary im item ∧ ∃ s, v.received item = v.error s) ∨
      (¬ Violates v.unary im item ∧ ∃ t, item = .trailers t ∧ v.received item = (item, { v with state := .done })) ∨
      ∃ state, Opening v.unary (im ++ [item]) state ∧ v.received item = (item, { v with state := state }) := by
  obtain ⟨sr, p, state, u⟩ := v
  cases h with
  | start =>
    cases item with
    | headers info mt => exact .inr (.inr ⟨_, .messages info mt [] fun _ => rfl, rfl⟩)
    | message m => exact .inl ⟨.inl rfl, _, rfl⟩
    | trailers t =>
      by_cases hz : u = true ∧ t.status = .ok ()
      · exact .inl ⟨⟨hz.1, hz.2, by simp⟩, _, if_pos ⟨hz.1, by simp, hz.2⟩⟩
      · exact .inr (.inl ⟨fun hv => hz ⟨hv.1, hv.2.1⟩, t, rfl, if_neg fun hv => hz ⟨hv.1, hv.2.2⟩⟩)
    | streamClosed => exact .inl ⟨trivial, _, rfl⟩
  | messages info mt msgs ho =>
    cases item with
    | headers info mt => exact .inl ⟨by simp [Violates], _, rfl⟩
    | message m =>
      refine .inr (.inr ?_)
      cases u with
      | true =>
        obtain rfl := ho rfl
        exact ⟨_, .single info mt m rfl, rfl⟩
      | false =>
        have hm : Opening false _ _ := .messages info mt (msgs ++ [m]) (by simp)
        exact ⟨_, by simpa using hm, rfl⟩
    | trailers t =>
      by_cases hz : u = true ∧ t.status = .ok ()
      · exact .inl ⟨⟨hz.1, hz.2, by simp [ho hz.1]⟩, _, if_pos ⟨hz.1, by simp, hz.2⟩⟩
      · exact .inr (.inl ⟨fun hv => hz ⟨hv.1, hv.2.1⟩, t, rfl, if_neg fun hv => hz ⟨hv.1, hv.2.2⟩⟩)
    | streamClosed => exact .inl ⟨trivial, _, rfl⟩
  | single info mt m hu =>
    cases item with
    | headers info mt => exact .inl ⟨by simp [Violates], _, rfl⟩
    | message m => exact .inl ⟨.inr ⟨hu, rfl⟩, _, rfl⟩
    | trailers t => exact .inr (.inl ⟨fun hv => hv.2.2 rfl, t, rfl, if_neg fun hv => hv.2.1 rfl⟩)
    | streamClosed => exact .inl ⟨trivial, _, rfl⟩

/-- What has been returned, how often the stream below was polled for it, and the state. -/
inductive Returned (unary : Bool) (source : Nat → ResponseStreamItem M) :
    List (ResponseStreamItem M) → Nat → RecvStreamState → Prop
  | opening {items state} (h : Opening unary items state) (hitems : items = (List.range items.length).map source) :
    Returned unary source items items.length state
  | ended {items state} (trailers : Trailers) (closed : Nat) (h : Opening unary items state)
    (hitems : items = (List.range items.length).map source)
    (hlast : source items.length = .trailers trailers ∧ ¬ Violates unary items (.trailers trailers) ∨
      Violates unary items (source items.length) ∧ ∃ s, trailers = .new (.error { code := .internal, message := s }))
    (hok : unary = true → trailers.status = .ok () →
      ∃ info metadata msg, items = [.headers info metadata, .message msg]) :
    Returned unary source (items ++ .trailers trailers :: List.replicate closed .streamClosed) (items.length + 1) .done

theorem Returned.recv (h : Returned v.unary v.recvStream im v.polled v.state) :
    v.recv.2.unary = v.unary ∧ v.recv.2.recvStream = v.recvStream ∧
      Returned v.unary v.recvStream (im ++ [v.recv.1]) v.recv.2.polled v.recv.2.state := by
  obtain ⟨sr, p, state, u⟩ := v
  cases h with
  | ended ts c h hitems hlast hok =>
    refine ⟨rfl, rfl, ?_⟩
    have := Returned.ended ts (c + 1) h hitems hlast hok
    rw [List.replicate_succ', ← List.cons_append, ← List.append_assoc] at this
    exact this
  | opening h hitems =>
    have hd : state ≠ .done := by rintro rfl; cases h
    simp only [RecvStreamValidator.recv, hd, if_false]
    rcases received_cases (v := ⟨sr, im.length + 1, state, u⟩) h (sr im.length) with
      ⟨hv, s, hr⟩ | ⟨hv, t, ht, hr⟩ | ⟨state', h', hr⟩ <;> rw [hr] <;> refine ⟨rfl, rfl, ?_⟩
    · exact .ended _ 0 h hitems (.inr ⟨hv, s, rfl⟩) fun _ hok => by cases hok
    · rw [ht] at hv ⊢
      refine .ended t 0 h hitems (.inl ⟨ht, hv⟩) fun hu hok => ?_
      simp only [Violates, hu, hok, true_and, not_not] at hv
      cases h with
      | start => cases hv
      | messages info m msgs ho => simp [ho hu] at hv
      | single info m msg => exact ⟨info, m, msg, rfl⟩
    · have hl : (im ++ [sr im.length]).length = im.length + 1 := by simp
      have := Returned.opening h' (by rw [hl, List.range_succ, List.map_append, ← hitems]; rfl)
      rwa [hl] at this

/-- Whatever the stream below returns, and however often `recv` is called. -/
theorem response_validated (unary : Bool) (source : Nat → ResponseStreamItem M) (n : Nat) :
    Returned unary source ((new source unary).calls n).1 ((new source unary).calls n).2.polled
      ((new source unary).calls n).2.state := by
  suffices h : ((new source unary).calls n).2.unary = unary ∧ ((new source unary).calls n).2.recvStream = source ∧
      Returned unary source ((new source unary).calls n).1 ((new source unary).calls n).2.polled
        ((new source unary).calls n).2.state from h.2.2
  induction n with
  | zero => exact ⟨rfl, rfl, .opening .start rfl⟩
  | succ n ih =>
    rw [calls]
    generalize (new source unary).calls n = c at ih
    obtain ⟨rfl, rfl, h⟩ := ih
    exact h.recv

end RecvStreamValidator

end StreamUtil
