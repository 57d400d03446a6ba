import GrpcRust.Tonic.Encode
/-!
# What a body emits

What is emitted and what is buffered are the frames of the messages so far (`EncodeBody.emits_batches`).
-/

namespace Tonic

open Lib Lib.Bytes List EncodedBytes

variable {ε T : Type} {C : Compression} {E : Encoder ε T} {c : EncodeSettings} {encoder : ε} {item : T}
  {fl : Failure}

/-! ## Messages -/

variable (C E c) in
structure Encodes (encoder : ε) (item : T) (f : Frame) (encoder' : ε) : Prop where
  payload : encodePayload C E c encoder item = (.ok (), encoder', f.payload)
  fits : c.finishEncoding f.payload.length = .ok ()
  flag : f.flag = c.flag

variable (C E c) in
def FailsToEncode (encoder : ε) (item : T) (failure : Failure) : Prop :=
  (encodeItem C E c encoder [] item).1 = .error failure

theorem finishEncoding_lt {len : Nat} (h : c.finishEncoding len = .ok ()) : len < 2 ^ 32 := by
  unfold EncodeSettings.finishEncoding at h
  split at h
  · cases h
  · split at h
    · cases h
    · omega

theorem Encodes.encodeItem_eq {encoder' : ε} {f : Frame} (h : Encodes C E c encoder item f encoder')
    (buf : Bytes) : encodeItem C E c encoder buf item = (.ok (), encoder', buf ++ f.bytes) := by
  unfold encodeItem
  simp only [h.payload, h.fits, Frame.bytes, h.flag]

theorem FailsToEncode.encodeItem_eq (h : FailsToEncode C E c encoder item fl) (buf : Bytes) :
    ∃ encoder' buf', encodeItem C E c encoder buf item = (.error fl, encoder', buf') := by
  unfold FailsToEncode at h
  unfold encodeItem at h ⊢
  rcases hp : encodePayload C E c encoder item with ⟨f | u, encoder', p⟩
  · rw [hp] at h
    cases h
    exact ⟨_, _, rfl⟩
  · rw [hp] at h
    dsimp only at h ⊢
    cases hf : c.finishEncoding p.length with
    | error s =>
      rw [hf] at h
      cases h
      exact ⟨_, _, rfl⟩
    | ok u =>
      rw [hf] at h
      cases h

theorem encodes_or_fails (e : ε) (item : T) :
    (∃ fr e', Encodes C E c e item fr e') ∨ ∃ failure, FailsToEncode C E c e item failure := by
  unfold FailsToEncode
  rcases hp : encodePayload C E c e item with ⟨f | ⟨⟩, e', payload⟩
  · refine .inr ⟨f, ?_⟩
    simp only [encodeItem, hp]
  · cases hf : c.finishEncoding payload.length with
    | error s =>
      refine .inr ⟨.status s, ?_⟩
      simp only [encodeItem, hp, hf]
    | ok u => exact .inl ⟨{ flag := c.flag, payload := payload, short := finishEncoding_lt hf }, e', hp, hf, rfl⟩

/-- The item would be compressed into a buffer that cannot grow. -/
def CompressPanics (E : Encoder ε T) (c : EncodeSettings) (encoder : ε) (item : T) : Prop :=
  c.compressionEncoding.isSome = true ∧ (E.encode encoder item).result = .ok () ∧ E.bufferSettings.bufferSize = 0

theorem encodePayload_panics_iff : (∃ p e bytes, encodePayload C E c encoder item = (.error (.panic p), e, bytes)) ↔
    CompressPanics E c encoder item := by
  unfold encodePayload CompressPanics
  cases c.compressionEncoding with
  | none => cases hr : (E.encode encoder item).result <;> simp [hr]
  | some encoding =>
    cases hr : (E.encode encoder item).result with
    | error err => simp [hr]
    | ok u =>
      by_cases hsize : E.bufferSettings.bufferSize = 0
      · simp [hr, compress, hsize]
      · rcases hcompress : C.compress encoding (E.encode encoder item).written with ⟨out, _ | err⟩
        · simp [hr, compress, hsize, hcompress]
        · simp [hr, compress, hsize, hcompress]

/-- Every failure but the panic of the compression is a status. -/
theorem FailsToEncode.status_iff (h : FailsToEncode C E c encoder item fl) :
    (∃ status, fl = .status status) ↔ ¬ CompressPanics E c encoder item := by
  rw [← encodePayload_panics_iff (C := C)]
  unfold FailsToEncode encodeItem at h
  rcases hp : encodePayload C E c encoder item with ⟨f | u, encoder', payload⟩
  · rw [hp] at h
    cases h
    cases fl <;> simp
  · rw [hp] at h
    dsimp only at h
    cases hf : c.finishEncoding payload.length with
    | error status =>
      rw [hf] at h
      cases h
      simp
    | ok u =>
      rw [hf] at h
      cases h

theorem Encodes.unique {f g : Frame} {e₁ e₂ : ε} (h : Encodes C E c encoder item f e₁)
    (h' : Encodes C E c encoder item g e₂) : f = g ∧ e₁ = e₂ := by
  have hp := h.payload.symm.trans h'.payload
  obtain ⟨he, hpayload⟩ : e₁ = e₂ ∧ f.payload = g.payload := by simpa using hp
  exact ⟨Frame.eq_of_payload_eq (h.flag.trans h'.flag.symm) hpayload, he⟩

theorem Encodes.not_fails {f : Frame} {encoder' : ε} (h : Encodes C E c encoder item f encoder') :
    ¬ FailsToEncode C E c encoder item fl := by
  intro hf
  rw [FailsToEncode, h.encodeItem_eq] at hf
  cases hf

/-! ## Sources -/

variable (C E c) in
inductive EncodesAll : ε → List (SourcePoll T) → List Frame → ε → Prop
  | nil {encoder : ε} : EncodesAll encoder [] [] encoder
  | pending {encoder encoder' : ε} {ps : List (SourcePoll T)} {fs : List Frame} :
      EncodesAll encoder ps fs encoder' → EncodesAll encoder (.pending :: ps) fs encoder'
  | item {encoder encoder₁ encoder' : ε} {item : T} {f : Frame} {ps : List (SourcePoll T)}
      {fs : List Frame} : Encodes C E c encoder item f encoder₁ → EncodesAll encoder₁ ps fs encoder' →
      EncodesAll encoder (.item item :: ps) (f :: fs) encoder'

variable (C E c) in
/-- The frames of the items before the first that fails, and the status it fails with. -/
inductive EncodesUntil (encoder : ε) : List (SourcePoll T) → List Frame → Option Status → Prop
  | all {source : List (SourcePoll T)} {fs : List Frame} {encoder' : ε} :
      EncodesAll C E c encoder source fs encoder' → EncodesUntil encoder source fs none
  | error {ps rest : List (SourcePoll T)} {fs : List Frame} {encoder' : ε} {s : Status} :
      EncodesAll C E c encoder ps fs encoder' →
      EncodesUntil encoder (ps ++ .error s :: rest) fs (some s)
  | item {ps rest : List (SourcePoll T)} {fs : List Frame} {encoder' : ε} {item : T} {s : Status} :
      EncodesAll C E c encoder ps fs encoder' → FailsToEncode C E c encoder' item (.status s) →
      EncodesUntil encoder (ps ++ .item item :: rest) fs (some s)

variable (C E c) in
def buffered (encoder : ε) (buf : Bytes) : List (SourcePoll T) → Bytes
  | [] => buf
  | .item item :: rest =>
    let (_, encoder, buf) := encodeItem C E c encoder buf item
    buffered encoder (if E.bufferSettings.yieldThreshold ≤ buf.length then [] else buf) rest
  | _ :: rest => buffered encoder [] rest

/-! ### The first failure -/

section First
variable {fs : List Frame} {stop : Option Status} {source : List (SourcePoll T)}

theorem encodesUntil_pending : EncodesUntil C E c encoder (.pending :: source) fs stop ↔
    EncodesUntil C E c encoder source fs stop := by
  constructor
  · intro h
    generalize hs : SourcePoll.pending :: source = s at h
    cases h with
    | all h =>
      subst hs
      cases h with
      | pending h => exact .all h
    | error h =>
      cases h with
      | nil => cases hs
      | pending h =>
        cases hs
        exact .error h
      | item => cases hs
    | item h hf =>
      cases h with
      | nil => cases hs
      | pending h =>
        cases hs
        exact .item h hf
      | item => cases hs
  · rintro (h | h | ⟨h, hf⟩)
    · exact .all (.pending h)
    · exact .error (.pending h)
    · exact .item (.pending h) hf

theorem EncodesUntil.cons {f : Frame} {encoder' : ε} (hi : Encodes C E c encoder item f encoder')
    (h : EncodesUntil C E c encoder' source fs stop) :
    EncodesUntil C E c encoder (.item item :: source) (f :: fs) stop := by
  cases h with
  | all h => exact .all (.item hi h)
  | error h => exact .error (.item hi h)
  | item h hf => exact .item (.item hi h) hf

theorem EncodesUntil.item_cases (h : EncodesUntil C E c encoder (.item item :: source) fs stop) :
    (∃ f encoder' rest, Encodes C E c encoder item f encoder' ∧ fs = f :: rest ∧
        EncodesUntil C E c encoder' source rest stop) ∨
      ∃ status, fs = [] ∧ stop = some status ∧ FailsToEncode C E c encoder item (.status status) := by
  generalize hs : SourcePoll.item item :: source = s at h
  cases h with
  | all h =>
    subst hs
    cases h with
    | item hi h => exact .inl ⟨_, _, _, hi, rfl, .all h⟩
  | error h =>
    cases h with
    | nil => cases hs
    | pending => cases hs
    | item hi h =>
      cases hs
      exact .inl ⟨_, _, _, hi, rfl, .error h⟩
  | item h hf =>
    cases h with
    | nil =>
      cases hs
      exact .inr ⟨_, rfl, rfl, hf⟩
    | pending => cases hs
    | item hi h =>
      cases hs
      exact .inl ⟨_, _, _, hi, rfl, .item h hf⟩

/-- The first failing item is the one the items before it lead to. -/
theorem EncodesAll.until_failing {ps rest : List (SourcePoll T)} {frames : List Frame} {encoder' : ε}
    (hp : EncodesAll C E c encoder ps fs encoder') (hf : FailsToEncode C E c encoder' item fl)
    (h : EncodesUntil C E c encoder (ps ++ .item item :: rest) frames stop) :
    ∃ status, fl = .status status ∧ frames = fs ∧ stop = some status := by
  induction hp generalizing frames with
  | nil =>
    rcases h.item_cases with ⟨f, _, _, hi, _, _⟩ | ⟨status, rfl, rfl, hf'⟩
    · exact absurd hf hi.not_fails
    · have heq : (.error (.status status) : Except Failure Unit) = .error fl := hf'.symm.trans hf
      cases heq
      exact ⟨status, rfl, rfl, rfl⟩
  | pending _ ih => exact ih hf (encodesUntil_pending.1 h)
  | item hi _ ih =>
    rcases h.item_cases with ⟨f, _, frames, hi', rfl, h⟩ | ⟨_, _, _, hf'⟩
    · obtain ⟨rfl, rfl⟩ := hi.unique hi'
      obtain ⟨status, hfl, rfl, hstop⟩ := ih hf h
      exact ⟨status, hfl, rfl, hstop⟩
    · exact absurd hf' hi.not_fails

variable (C E c) in
/-- The source has a first failure with a status or none at all, or an item panics. -/
theorem encodesUntil_or_panics (encoder : ε) (source : List (SourcePoll T)) :
    (∃ fs stop, EncodesUntil C E c encoder source fs stop) ∨
      ∃ ps item rest fs encoder' panic, source = ps ++ .item item :: rest ∧ EncodesAll C E c encoder ps fs encoder' ∧
        FailsToEncode C E c encoder' item (.panic panic) := by
  induction source generalizing encoder with
  | nil => exact .inl ⟨[], none, .all .nil⟩
  | cons polled rest ih =>
    cases polled with
    | pending =>
      rcases ih encoder with ⟨fs, stop, h⟩ | ⟨ps, item, rest, fs, encoder', panic, rfl, h, hf⟩
      · exact .inl ⟨fs, stop, encodesUntil_pending.2 h⟩
      · exact .inr ⟨.pending :: ps, item, rest, fs, encoder', panic, rfl, .pending h, hf⟩
    | error status => exact .inl ⟨[], some status, .error .nil⟩
    | item item =>
      rcases encodes_or_fails (C := C) (E := E) (c := c) encoder item with ⟨f, encoder₁, hi⟩ | ⟨failure, hf⟩
      · rcases ih encoder₁ with ⟨fs, stop, h⟩ | ⟨ps, item', rest, fs, encoder', panic, rfl, h, hf⟩
        · exact .inl ⟨f :: fs, stop, .cons hi h⟩
        · exact .inr ⟨.item item :: ps, item', rest, f :: fs, encoder', panic, rfl, .item hi h, hf⟩
      · cases failure with
        | status status => exact .inl ⟨[], some status, .item .nil hf⟩
        | panic panic => exact .inr ⟨[], item, rest, [], encoder, panic, rfl, .nil, hf⟩

end First

/-! ## Bodies -/

namespace EncodeBody

variable (C E c) in
def poll (b : EncodeBody ε T) : Poll Failure HttpFrame × EncodeBody ε T :=
  if b.isEndStream then (.ended, b) else b.pollFrame C E c false

variable (C E c) in
abbrev Emits (b : EncodeBody ε T) (fs : List HttpFrame) (failure : Option Failure) : Prop :=
  Yields (EncodeBody.poll C E c) b fs failure

def ending (role : Role) (stop : Option Status) : List HttpFrame × Option Failure :=
  match role with
  | .client => ([], stop.map .status)
  | .server => ([.trailers (stop.getD (.new .ok "")).headers], none)

section Ending
variable {b : EncodeBody ε T} {inner : EncodedBytes ε T}

theorem emits_isEndStream (h : b.isEndStream = true) : b.Emits C E c [] none := by
  have hp : b.poll C E c = (.ended, b) := by rw [poll, if_pos h]
  exact (yields_of_ended hp).2 ⟨rfl, rfl⟩

theorem emits_ended (hb : b.isEndStream = false) (he : b.error = none) (h : b.inner.pollNext C E c = (.ended, inner)) :
    b.Emits C E c (ending b.role none).1 (ending b.role none).2 := by
  unfold ending
  cases hr : b.role with
  | client =>
    have hp : b.poll C E c = (.ended, { b with inner := inner }) := by
      simp only [poll, hb, Bool.false_eq_true, if_false, pollFrame, h, trailers, hr]
    exact (yields_of_ended hp).2 ⟨rfl, rfl⟩
  | server =>
    have hp : b.poll C E c = (.item (.trailers (Status.new .ok "").headers),
        { b with inner := inner, isEndStream := true, error := none }) := by
      simp only [poll, hb, Bool.false_eq_true, if_false, pollFrame, h, trailers, hr, he, Option.getD_none,
        Status.toHeaderMap_eq]
    exact (yields_of_item hp).2 ⟨[], rfl, emits_isEndStream rfl⟩

theorem emits_failed {s : Status} (hb : b.isEndStream = false)
    (h : b.inner.pollNext C E c = (.failed (.status s), inner)) :
    b.Emits C E c (ending b.role (some s)).1 (ending b.role (some s)).2 := by
  unfold ending
  cases hr : b.role with
  | client =>
    have hp : b.poll C E c = (.failed (.status s), { b with inner := inner }) := by
      simp only [poll, hb, Bool.false_eq_true, if_false, pollFrame, h, hr]
    exact (yields_of_failed hp).2 ⟨rfl, rfl⟩
  | server =>
    have hp : b.poll C E c = (.item (.trailers s.headers), { b with inner := inner, isEndStream := true }) := by
      simp only [poll, hb, Bool.false_eq_true, if_false, pollFrame, h, hr, Status.toHeaderMap_eq]
    exact (yields_of_item hp).2 ⟨[], rfl, emits_isEndStream rfl⟩

theorem emits_data {bs : Bytes} (hb : b.isEndStream = false) (h : b.inner.pollNext C E c = (.item bs, inner))
    {fs : List HttpFrame} {failure : Option Failure} (hrest : Emits C E c { b with inner := inner } fs failure) :
    b.Emits C E c (.data bs :: fs) failure := by
  have hp : b.poll C E c = (.item (.data bs), { b with inner := inner }) := by
    simp only [poll, hb, Bool.false_eq_true, if_false, pollFrame, h]
  exact (yields_of_item hp).2 ⟨fs, rfl, hrest⟩

end Ending

def inState (role : Role) (encoder : ε) (buf : Bytes) (source : List (SourcePoll T)) : EncodeBody ε T where
  inner := { source := source, encoder := encoder, buf := buf, error := none }
  error := none
  role := role
  isEndStream := false

section Steps
variable {role : Role} {encoder encoder' : ε} {buf : Bytes} {rest : List (SourcePoll T)} {out : List HttpFrame}
  {failure : Option Failure} {fs : List Frame} {ps : List (SourcePoll T)}

theorem emits_pending (buf : Bytes) (h : (inState role encoder [] rest).Emits C E c out failure) :
    ∃ cs : List Bytes, cs.flatten = buf ∧
      (inState role encoder buf (.pending :: rest)).Emits C E c (cs.map .data ++ out) failure := by
  by_cases hb : buf = []
  · subst hb
    have hp : (inState role encoder [] (.pending :: rest)).poll C E c = (.pending, inState role encoder [] rest) := rfl
    exact ⟨[], rfl, (yields_of_pending hp).2 h⟩
  · refine ⟨[buf], by simp, emits_data rfl ?_ h⟩
    simp only [pollNext, inState, pollSource, List.isEmpty_iff, if_neg hb]

theorem emits_item {item : T} {f : Frame} (hi : Encodes C E c encoder item f encoder')
    (h : (inState role encoder' (if E.bufferSettings.yieldThreshold ≤ (buf ++ f.bytes).length then []
        else buf ++ f.bytes) rest).Emits C E c out failure) :
    ∃ cs : List Bytes, cs.flatten ++ (if E.bufferSettings.yieldThreshold ≤ (buf ++ f.bytes).length then []
        else buf ++ f.bytes) = buf ++ f.bytes ∧
      (inState role encoder buf (.item item :: rest)).Emits C E c (cs.map .data ++ out) failure := by
  by_cases hl : E.bufferSettings.yieldThreshold ≤ (buf ++ f.bytes).length
  · simp only [if_pos hl] at h ⊢
    refine ⟨[buf ++ f.bytes], by simp, emits_data rfl ?_ h⟩
    simp only [pollNext, inState, pollSource, hi.encodeItem_eq, if_pos hl]
  · simp only [if_neg hl] at h ⊢
    refine ⟨[], rfl, (Yields.congr ?_).2 h⟩
    -- the same poll goes on with the next item
    have hp : (inState role encoder buf (.item item :: rest)).inner.pollNext C E c =
        (inState role encoder' (buf ++ f.bytes) rest).inner.pollNext C E c := by
      simp only [pollNext, inState, pollSource, hi.encodeItem_eq, if_neg hl]
    simp only [poll, pollFrame, hp]
    rfl

theorem emits_batches (hp : EncodesAll C E c encoder ps fs encoder')
    (h : (inState role encoder' (buffered C E c encoder buf ps) rest).Emits C E c out failure) :
    ∃ cs : List Bytes, cs.flatten ++ buffered C E c encoder buf ps = buf ++ framesBytes fs ∧
      (inState role encoder buf (ps ++ rest)).Emits C E c (cs.map .data ++ out) failure := by
  induction hp generalizing buf out with
  | nil => exact ⟨[], by simp [buffered], h⟩
  | pending _ ih =>
    obtain ⟨cs, heq, he⟩ := ih h
    obtain ⟨first, hf, he'⟩ := emits_pending buf he
    refine ⟨first ++ cs, ?_, ?_⟩
    · rw [flatten_append, hf, append_assoc]
      exact congrArg (buf ++ ·) heq
    · rw [map_append, append_assoc]
      exact he'
  | item hi _ ih =>
    simp only [buffered, hi.encodeItem_eq] at h ⊢
    obtain ⟨cs, heq, he⟩ := ih h
    obtain ⟨first, hf, he'⟩ := emits_item hi he
    refine ⟨first ++ cs, ?_, ?_⟩
    · rw [flatten_append, append_assoc, heq, ← append_assoc, hf, framesBytes_cons, append_assoc]
    · rw [map_append, append_assoc]
      exact he'

/-! ### The end of the source, or its first failure -/

theorem emits_end (r : Role) (e : ε) (buf : Bytes) : ∃ cs : List Bytes, cs.flatten = buf ∧
      (inState r e buf ([] : List (SourcePoll T))).Emits C E c (cs.map .data ++ (ending r none).1)
        (ending r none).2 := by
  have hend : (inState r e [] ([] : List (SourcePoll T))).Emits C E c (ending r none).1 (ending r none).2 :=
    emits_ended rfl rfl rfl
  by_cases hb : buf = []
  · exact ⟨[], hb.symm, hb ▸ hend⟩
  · refine ⟨[buf], by simp, emits_data rfl ?_ hend⟩
    simp only [pollNext, inState, pollSource, List.isEmpty_iff, if_neg hb]

theorem emits_error (r : Role) (encoder : ε) (buf : Bytes) (s : Status) (rest : List (SourcePoll T)) :
    ∃ cs : List Bytes, cs.flatten = buf ∧
      (inState r encoder buf (.error s :: rest)).Emits C E c (cs.map .data ++ (ending r (some s)).1)
        (ending r (some s)).2 := by
  by_cases hb : buf = []
  · subst hb
    have hp : (inState r encoder [] (.error s :: rest)).inner.pollNext C E c =
        (.failed (.status s), (inState r encoder [] rest).inner) := rfl
    exact ⟨[], rfl, emits_failed rfl hp⟩
  · have hp : (inState r encoder buf (.error s :: rest)).inner.pollNext C E c =
        (.item buf, { source := rest, encoder := encoder, buf := [], error := some s }) := by
      simp only [pollNext, inState, pollSource, List.isEmpty_iff, if_neg hb]
    exact ⟨[buf], by simp, emits_data rfl hp (emits_failed rfl rfl)⟩

theorem emits_failing_item (r : Role) (buf : Bytes) {item : T} {s : Status}
    (h : FailsToEncode C E c encoder item (.status s)) (rest : List (SourcePoll T)) :
    (inState r encoder buf (.item item :: rest)).Emits C E c (ending r (some s)).1
      (ending r (some s)).2 := by
  obtain ⟨encoder', buf', heq⟩ := h.encodeItem_eq buf
  have hp : (inState r encoder buf (.item item :: rest)).inner.pollNext C E c =
      (.failed (.status s), (inState r encoder' buf' rest).inner) := by
    simp only [pollNext, inState, pollSource, heq]
  exact emits_failed rfl hp

theorem emits_new {s : Option Status} {l : List Bytes}
    (hp : EncodesAll C E c encoder ps fs encoder') (hlast : l.flatten = buffered C E c encoder [] ps)
    (h : (inState role encoder' (buffered C E c encoder [] ps) rest).Emits C E c
      (l.map .data ++ (ending role s).1) (ending role s).2) :
    ∃ cs : List Bytes, cs.flatten = framesBytes fs ∧
      (new role encoder (ps ++ rest)).Emits C E c (cs.map .data ++ (ending role s).1) (ending role s).2 := by
  obtain ⟨cs, heq, hall⟩ := emits_batches hp h
  refine ⟨cs ++ l, ?_, ?_⟩
  · rw [flatten_append, hlast, heq, nil_append]
  · rw [map_append, append_assoc]
    exact hall

theorem emits_all (r : Role) {s : List (SourcePoll T)} (h : EncodesAll C E c encoder s fs encoder') :
    ∃ cs : List Bytes, cs.flatten = framesBytes fs ∧
      (new r encoder s).Emits C E c (cs.map .data ++ (ending r none).1) (ending r none).2 := by
  obtain ⟨l, hlast, hend⟩ := emits_end r encoder' (buffered C E c encoder [] s)
  have := emits_new h hlast hend
  rwa [append_nil] at this

end Steps

end EncodeBody

/-! ## Failing items -/

variable (C E c) in
/-- An item that fails does so while nothing is buffered, and not in the compression's panic. -/
def FailsAlone (encoder : ε) (source : List (SourcePoll T)) : Prop :=
  ∀ ps item rest fs encoder' failure, source = ps ++ .item item :: rest →
    EncodesAll C E c encoder ps fs encoder' → FailsToEncode C E c encoder' item failure →
    buffered C E c encoder [] ps = [] ∧ ¬ CompressPanics E c encoder' item

theorem buffered_eq_nil (h : E.bufferSettings.yieldThreshold ≤ headerSize) {encoder' : ε} {ps : List (SourcePoll T)}
    {fs : List Frame} (hp : EncodesAll C E c encoder ps fs encoder') : buffered C E c encoder [] ps = [] := by
  induction hp with
  | nil => rfl
  | pending _ ih => exact ih
  | @item _ _ _ _ f _ _ hi _ ih =>
    have hl : E.bufferSettings.yieldThreshold ≤ ([] ++ f.bytes).length := by
      rw [nil_append, f.length_bytes]
      exact h.trans (Nat.le_add_right _ _)
    simp only [buffered, hi.encodeItem_eq, if_pos hl]
    exact ih

variable (C E c) in
/-- The frames of the items before the first failing one are emitted, then the error or the trailers, and nothing
else. -/
def EmitsUntilFailure (role : Role) (encoder : ε) (source : List (SourcePoll T)) : Prop :=
  ∃ (fs : List Frame) (s : Option Status) (cs : List Bytes), EncodesUntil C E c encoder source fs s ∧
    cs.flatten = framesBytes fs ∧
    (EncodeBody.new role encoder source).Emits C E c (cs.map .data ++ (EncodeBody.ending role s).1)
      (EncodeBody.ending role s).2

theorem emitsUntilFailure_of_failsAlone (role : Role) {source : List (SourcePoll T)}
    (halone : FailsAlone C E c encoder source) : EmitsUntilFailure C E c role encoder source := by
  rcases encodesUntil_or_panics C E c encoder source with ⟨fs, s, h⟩ | ⟨ps, item, rest, fs, encoder', panic, hs, h, hf⟩
  · cases h with
    | all h =>
      obtain ⟨cs, hfl, he⟩ := EncodeBody.emits_all role h
      exact ⟨fs, none, cs, .all h, hfl, he⟩
    | error h =>
      obtain ⟨l, hlast, hend⟩ := EncodeBody.emits_error role _ _ _ _
      obtain ⟨cs, hfl, he⟩ := EncodeBody.emits_new h hlast hend
      exact ⟨fs, _, cs, .error h, hfl, he⟩
    | item h hf =>
      have hn : ([] : List Bytes).flatten = buffered C E c encoder [] _ := (halone _ _ _ _ _ _ rfl h hf).1.symm
      obtain ⟨cs, hfl, he⟩ := EncodeBody.emits_new h hn (EncodeBody.emits_failing_item role _ hf _)
      exact ⟨fs, _, cs, .item h hf, hfl, he⟩
  · obtain ⟨_, hstatus⟩ := hf.status_iff.2 (halone _ _ _ _ _ _ hs h hf).2
    cases hstatus

theorem failsAlone_of_emitsUntilFailure {role : Role} {source : List (SourcePoll T)}
    (hemits : EmitsUntilFailure C E c role encoder source) : FailsAlone C E c encoder source := by
  rintro ps item rest fs encoder' failure rfl h hf
  obtain ⟨frames, stop, cs, huntil, hcs, he⟩ := hemits
  obtain ⟨status, rfl, rfl, rfl⟩ := h.until_failing hf huntil
  refine ⟨?_, hf.status_iff.1 ⟨status, rfl⟩⟩
  -- The body is polled in one way only, and what it gives out lacks the buffer.
  obtain ⟨given, hgiven, he'⟩ := EncodeBody.emits_batches h
    (EncodeBody.emits_failing_item role (buffered C E c encoder [] ps) hf rest)
  have hframes : cs.map HttpFrame.data = given.map HttpFrame.data := append_cancel_right (he.unique he').1
  have heq : cs = given := map_injective_iff.2 (fun _ _ h => HttpFrame.data.inj h) hframes
  rw [← heq, hcs, nil_append] at hgiven
  exact append_right_eq_self.1 hgiven

/-- The items before the first failing one are emitted, then the error, exactly if no item fails while others are
buffered or in the compression's panic. -/
theorem items_before_failure_emitted (role : Role) (encoder : ε) (source : List (SourcePoll T)) :
    EmitsUntilFailure C E c role encoder source ↔ FailsAlone C E c encoder source :=
  ⟨failsAlone_of_emitsUntilFailure, emitsUntilFailure_of_failsAlone role⟩

/-- With every item given out at once, the one before an item that is too large is sent. -/
theorem items_before_failure_emitted_at_once :
    let E := rawEncoder { yieldThreshold := 0 }
    let c : EncodeSettings := { compressionEncoding := none, maxMessageSize := some 3 }
    let source : List (SourcePoll Bytes) := [.item [7], .item [1, 2, 3, 4], .item [8]]
    FailsAlone stored E c () source ∧ EmitsUntilFailure stored E c .server () source := by
  intro E c source
  have halone : FailsAlone stored E c () source :=
    fun _ _ _ _ _ _ _ h _ => ⟨buffered_eq_nil (Nat.zero_le _) h, fun hpanics => nomatch hpanics.1⟩
  exact ⟨halone, (items_before_failure_emitted .server () source).2 halone⟩

/-- An item that is too large takes the buffered one with it; a buffer size of zero panics under compression. -/
theorem buffered_item_lost :
    let c : EncodeSettings := { compressionEncoding := none, maxMessageSize := some 3 }
    let s : List (SourcePoll Bytes) := [.item [7], .item [1, 2, 3, 4]]
    let t := Status.outOfRange "Error, encoded message length too large: found 4 bytes, the limit is: 3 bytes"
    Encodes stored (rawEncoder {}) c () [7] { flag := 0, payload := [7], short := by decide } () ∧
      (EncodeBody.new .client () s).Emits stored (rawEncoder {}) c [] (some (.status t)) ∧
      (EncodeBody.new .server () s).Emits stored (rawEncoder {}) c [.trailers t.headers] none ∧
      (EncodeBody.new .client () [.item [7]]).Emits stored (rawEncoder { bufferSize := 0 })
        { compressionEncoding := some .gzip, maxMessageSize := none } [] (some (.panic .divisionByZero)) := by
  refine ⟨⟨rfl, by decide, rfl⟩, ⟨1, by decide⟩, ⟨2, by decide⟩, ⟨1, by decide⟩⟩

end Tonic
