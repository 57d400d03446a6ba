import GrpcRust.Tonic.Decode
/-!
# What a reader makes of its bytes

`Reader.Drains`: the messages in the bytes, and whether the reader then fails or waits. Bytes that arrive later do not
change this (`Reader.Drains.append`).
-/

namespace Tonic

open Lib Lib.Bytes

variable {σ T : Type} {C : Compression} {D : Decoder σ T} {c : StreamSettings}
  {r₁ : Reader σ}

/-! ## More bytes -/

namespace Reader
variable {r r' : Reader σ} {read : Except Failure (Option DecodeBuf)} {bufferSize : Nat}
  {rs : Except Failure (Option T)} {msgs : List T} {fl : Option Failure}

def append (r : Reader σ) (more : Bytes) : Reader σ := { r with buf := r.buf ++ more }

@[simp] theorem append_nil (r : Reader σ) : r.append [] = r := by simp [append]

@[simp] theorem append_append (r : Reader σ) (a b : Bytes) : (r.append a).append b = r.append (a ++ b) := by
  simp [append]

@[simp] theorem append_state (r : Reader σ) (m : Bytes) : (r.append m).state = r.state := rfl

@[simp] theorem append_decoder (r : Reader σ) (m : Bytes) : (r.append m).decoder = r.decoder := rfl

@[simp] theorem append_buf (r : Reader σ) (more : Bytes) : (r.append more).buf = r.buf ++ more := rfl

/-! ### The header -/

inductive HeaderRead (c : StreamSettings) (r : Reader σ) : Except Status Bool → Reader σ → Prop
  | short : r.state = .readHeader → header? r.buf = none → HeaderRead c r (.ok false) r
  | badFlag {flag : UInt8} {len : Nat} {rest : Bytes} {status : Status} : r.state = .readHeader →
      header? r.buf = some (flag, len, rest) → c.compressionOf flag = .error status →
      HeaderRead c r (.error status) { r with buf := r.buf.drop 1 }
  | tooLarge {flag : UInt8} {len : Nat} {rest : Bytes} {compression : Option CompressionEncoding} :
      r.state = .readHeader → header? r.buf = some (flag, len, rest) → c.compressionOf flag = .ok compression →
      c.limit < len → HeaderRead c r (.error (c.tooLarge len)) { r with buf := rest }
  | header {flag : UInt8} {len : Nat} {rest : Bytes} {compression : Option CompressionEncoding} :
      r.state = .readHeader → header? r.buf = some (flag, len, rest) → c.compressionOf flag = .ok compression →
      len ≤ c.limit → HeaderRead c r (.ok true) { r with buf := rest, state := .readBody compression len }
  | already : r.state ≠ .readHeader → HeaderRead c r (.ok true) r

theorem headerRead (c : StreamSettings) (r : Reader σ) : HeaderRead c r (r.readHeader c).1 (r.readHeader c).2 := by
  unfold readHeader
  split
  · rename_i hs
    split
    · rename_i hh
      exact .short hs hh
    · rename_i f len rest hh
      split
      · rename_i hc
        exact .badFlag hs hh hc
      · rename_i hc
        split
        · rename_i hl
          exact .tooLarge hs hh hc hl
        · rename_i hl
          exact .header hs hh hc (not_lt.1 hl)
  · rename_i hs
    exact .already hs

theorem headerRead_iff {read : Except Status Bool} : r.readHeader c = (read, r') ↔ HeaderRead c r read r' := by
  constructor
  · intro h
    have := r.headerRead c
    rwa [h] at this
  · intro h
    unfold readHeader
    cases h with
    | short hs hh => simp only [hs, hh]
    | badFlag hs hh hc => simp only [hs, hh, hc]
    | tooLarge hs hh hc hl => simp only [hs, hh, hc, if_pos hl]
    | header hs hh hc hl => simp only [hs, hh, hc, if_neg (not_lt.2 hl)]
    | already hs =>
      split
      · rename_i h
        exact absurd h hs
      · rfl

theorem HeaderRead.append {read : Except Status Bool} (h : HeaderRead c r read r') (hr : read ≠ .ok false)
    (m : Bytes) : HeaderRead c (r.append m) read (r'.append m) := by
  cases h with
  | short => exact absurd rfl hr
  | badFlag hs hh hc =>
    have hp : 1 ≤ r.buf.length := by
      by_contra hlt
      rw [header?_eq_none.2 (by omega)] at hh
      cases hh
    have := badFlag (r := r.append m) hs (header?_append hh m) hc
    rwa [append_buf, List.drop_append_of_le_length hp] at this
  | tooLarge hs hh hc hl => exact tooLarge (r := r.append m) hs (header?_append hh m) hc hl
  | header hs hh hc hl => exact header (r := r.append m) hs (header?_append hh m) hc hl
  | already hs => exact already (r := r.append m) hs

theorem HeaderRead.again (h : HeaderRead c r (.ok true) r') : HeaderRead c r' (.ok true) r' := by
  cases h with
  | header hs hh hc hl => exact .already fun h => nomatch h
  | already hs => exact .already hs

/-! ### The payload -/

inductive BodyRead (C : Compression) (c : StreamSettings) (bufferSize : Nat) (r : Reader σ) :
    Except Failure (Option DecodeBuf) → Reader σ → Prop
  | short {compression : Option CompressionEncoding} {len : Nat} : r.state = .readBody compression len →
      r.buf.length < len → BodyRead C c bufferSize r (.ok none) r
  | plain {len : Nat} : r.state = .readBody none len → len ≤ r.buf.length →
      BodyRead C c bufferSize r (.ok (some { bytes := r.buf.take len, inPlace := true })) r
  | panic {encoding : CompressionEncoding} {len : Nat} {panic : Panic} : r.state = .readBody (some encoding) len →
      len ≤ r.buf.length → decompress C encoding bufferSize c.limit (r.buf.take len) = .error panic →
      BodyRead C c bufferSize r (.error (.panic panic)) r
  | corrupt {encoding : CompressionEncoding} {len : Nat} {err : IoError} : r.state = .readBody (some encoding) len →
      len ≤ r.buf.length → decompress C encoding bufferSize c.limit (r.buf.take len) = .ok (.error err) →
      BodyRead C c bufferSize r (.error (.status (c.decompressError err))) r
  | decompressed {encoding : CompressionEncoding} {len : Nat} {bytes : Bytes} :
      r.state = .readBody (some encoding) len → len ≤ r.buf.length →
      decompress C encoding bufferSize c.limit (r.buf.take len) = .ok (.ok bytes) →
      BodyRead C c bufferSize r (.ok (some { bytes := bytes, inPlace := false })) { r with buf := r.buf.drop len }
  | notReading : (∀ compression len, r.state ≠ .readBody compression len) → BodyRead C c bufferSize r (.ok none) r

theorem bodyRead (C : Compression) (c : StreamSettings) (b : Nat) (r : Reader σ) :
    BodyRead C c b r (r.readBody C c b).1 (r.readBody C c b).2 := by
  unfold readBody
  split
  · rename_i cm len hs
    split
    · rename_i hl
      exact .short hs hl
    · rename_i hl
      split
      · exact .plain hs (not_lt.1 hl)
      · split
        · rename_i hd
          exact .panic hs (not_lt.1 hl) hd
        · rename_i hd
          exact .corrupt hs (not_lt.1 hl) hd
        · rename_i hd
          exact .decompressed hs (not_lt.1 hl) hd
  · rename_i hs
    exact .notReading fun cm len => hs cm len

theorem bodyRead_iff : r.readBody C c bufferSize = (read, r') ↔ BodyRead C c bufferSize r read r' := by
  constructor
  · intro h
    have := r.bodyRead C c bufferSize
    rwa [h] at this
  · intro h
    unfold readBody
    cases h with
    | short hs hl => simp only [hs, if_pos hl]
    | plain hs hl => simp only [hs, if_neg (not_lt.2 hl)]
    | panic hs hl hd => simp only [hs, if_neg (not_lt.2 hl), hd]
    | corrupt hs hl hd => simp only [hs, if_neg (not_lt.2 hl), hd]
    | decompressed hs hl hd => simp only [hs, if_neg (not_lt.2 hl), hd]
    | notReading hs =>
      split
      · rename_i h
        exact absurd h (hs _ _)
      · rfl

theorem BodyRead.append (h : BodyRead C c bufferSize r read r') (hr : read ≠ .ok none) (m : Bytes) :
    BodyRead C c bufferSize (r.append m) read (r'.append m) := by
  have hl {len : Nat} (h : len ≤ r.buf.length) : len ≤ (r.append m).buf.length := by
    simp
    omega
  have ht {len : Nat} (h : len ≤ r.buf.length) : (r.append m).buf.take len = r.buf.take len :=
    List.take_append_of_le_length h
  cases h with
  | short => exact absurd rfl hr
  | plain hs h =>
    rw [← ht h]
    exact plain (r := r.append m) hs (hl h)
  | panic hs h hd => exact panic (r := r.append m) hs (hl h) ((ht h).symm ▸ hd)
  | corrupt hs h hd => exact corrupt (r := r.append m) hs (hl h) ((ht h).symm ▸ hd)
  | decompressed hs h hd =>
    have := decompressed (r := r.append m) hs (hl h) ((ht h).symm ▸ hd)
    rwa [append_buf, List.drop_append_of_le_length h] at this
  | notReading => exact absurd rfl hr

theorem BodyRead.eq_of_none (h : BodyRead C c bufferSize r (.ok none) r') : r' = r := by
  cases h with
  | short => rfl
  | notReading => rfl

theorem readFrame_append (h : r.readFrame C c bufferSize = (read, r')) (hr : read ≠ .ok none) (m : Bytes) :
    (r.append m).readFrame C c bufferSize = (read, r'.append m) := by
  unfold readFrame at h ⊢
  split at h
  · rename_i s r₁ hh
    cases h
    rw [headerRead_iff.2 ((headerRead_iff.1 hh).append (fun h => nomatch h) m)]
  · cases h
    exact absurd rfl hr
  · rename_i r₁ hh
    rw [headerRead_iff.2 ((headerRead_iff.1 hh).append (fun h => nomatch h) m)]
    exact bodyRead_iff.2 ((bodyRead_iff.1 h).append hr m)

theorem readFrame_append_of_none (h : r.readFrame C c bufferSize = (.ok none, r')) (m : Bytes) :
    (r.append m).readFrame C c bufferSize = (r'.append m).readFrame C c bufferSize := by
  unfold readFrame at h
  split at h
  · cases h
  · rename_i r₁ hh
    cases h
    have heq : r' = r := by
      cases headerRead_iff.1 hh with
      | short => rfl
    rw [heq]
  · rename_i r₁ hh
    have heq : r' = r₁ := (bodyRead_iff.1 h).eq_of_none
    subst heq
    have hr := headerRead_iff.1 hh
    unfold readFrame
    rw [headerRead_iff.2 (hr.append (fun h => nomatch h) m), headerRead_iff.2 (hr.again.append (fun h => nomatch h) m)]

theorem length_le_of_inPlace {p : DecodeBuf} (h : r.readFrame C c bufferSize = (.ok (some p), r'))
    (hin : p.inPlace = true) : p.bytes.length ≤ r'.buf.length := by
  unfold readFrame at h
  split at h
  · cases h
  · cases h
  · cases bodyRead_iff.1 h with
    | plain hs hl => simp
    | decompressed => cases hin

/-! ### A message -/

variable (C D c) in
def Waits (r r' : Reader σ) : Prop := r.readFrame C c D.bufferSettings.bufferSize = (.ok none, r')

theorem Waits.decodeChunk_eq (h : Waits C D c r r') : r.decodeChunk C D c = (.ok none, r') := by
  unfold decodeChunk
  rw [h]

theorem Waits.append (h : Waits C D c r r') (m : Bytes) :
    (r.append m).decodeChunk C D c = (r'.append m).decodeChunk C D c := by
  unfold decodeChunk
  rw [readFrame_append_of_none h m]

theorem Waits.again (h : Waits C D c r r') : Waits C D c r' r' := by
  have := readFrame_append_of_none h []
  rw [append_nil, append_nil] at this
  exact this.symm.trans h

theorem waits_of_decodeChunk (hD : D.Decides) (h : r.decodeChunk C D c = (.ok none, r')) : Waits C D c r r' := by
  unfold decodeChunk at h
  split at h
  · cases h
  · rename_i hr
    cases h
    exact hr
  · dsimp only at h
    split at h
    · cases h
    · rename_i hd
      exact absurd hd (hD _ _)
    · cases h

theorem decodeChunk_append (h : r.decodeChunk C D c = (rs, r')) (hw : ∀ r₁, ¬ Waits C D c r r₁) (more : Bytes) :
    (r.append more).decodeChunk C D c = (rs, r'.append more) := by
  unfold decodeChunk at h ⊢
  split at h
  · rename_i f r₁ hr
    cases h
    rw [readFrame_append hr (fun h => nomatch h) more]
  · rename_i r₁ hr
    exact absurd hr (hw r₁)
  · rename_i p r₁ hr
    rw [readFrame_append hr (fun h => nomatch h) more]
    have hd : (r₁.append more).decoded p (D.decode r₁.decoder p.bytes) =
        (r₁.decoded p (D.decode r₁.decoder p.bytes)).append more := by
      unfold decoded append
      cases hin : p.inPlace with
      | true =>
        have hle := (D.consumed_le r₁.decoder p.bytes).trans (length_le_of_inPlace hr hin)
        simp [List.drop_append_of_le_length hle]
      | false => simp
    dsimp only [append_decoder] at h ⊢
    rw [hd]
    split at h
    · cases h
      rfl
    · cases h
      rfl
    · cases h
      rfl

theorem not_waits_append (h : ∀ r₁, ¬ Waits C D c r r₁) (m : Bytes) (r₁ : Reader σ) :
    ¬ Waits C D c (r.append m) r₁ := by
  intro hw
  rcases hr : r.readFrame C c D.bufferSettings.bufferSize with ⟨read, r₂⟩
  have hne : read ≠ .ok none := by
    rintro rfl
    exact h r₂ hr
  rw [Waits, readFrame_append hr hne m] at hw
  cases hw
  exact hne rfl

theorem not_waits (h : r.decodeChunk C D c = (rs, r')) (hr : rs ≠ .ok none) (r₁ : Reader σ) : ¬ Waits C D c r r₁ := by
  intro hw
  rw [hw.decodeChunk_eq] at h
  cases h
  exact hr rfl

/-! ### Every message there is -/

/-- What a reader decodes from the bytes it has, until it fails or waits for more. -/
inductive Drains (C : Compression) (D : Decoder σ T) (c : StreamSettings) :
    Reader σ → List T → Option Failure → Reader σ → Prop
  | more {r r' : Reader σ} : Waits C D c r r' → Drains C D c r [] none r'
  | failed {r r' : Reader σ} {failure : Failure} : r.decodeChunk C D c = (.error failure, r') →
      Drains C D c r [] (some failure) r'
  | item {r r₁ r' : Reader σ} {msg : T} {msgs : List T} {failure : Option Failure} :
      r.decodeChunk C D c = (.ok (some msg), r₁) → Drains C D c r₁ msgs failure r' →
      Drains C D c r (msg :: msgs) failure r'

/-- How far a reader is from having nothing to decode. A message takes a header with it. -/
def left (r : Reader σ) : Nat := 2 * r.buf.length + if r.state = .readHeader then 0 else 1

theorem HeaderRead.length_le (h : HeaderRead c r (.ok true) r') :
    r'.buf.length ≤ r.buf.length ∧ (r.state = .readHeader → r'.buf.length < r.buf.length) := by
  cases h with
  | header hs hh hc hl =>
    have hln := congrArg List.length (eq_of_header? hh).1
    simp only [List.length_append, List.length_cons] at hln
    constructor
    · dsimp only
      omega
    · intro _
      dsimp only
      omega
  | already hs => exact ⟨le_rfl, fun h => absurd h hs⟩

theorem BodyRead.length_le (h : BodyRead C c bufferSize r read r') : r'.buf.length ≤ r.buf.length := by
  cases h with
  | decompressed => simp
  | short => exact le_rfl
  | plain => exact le_rfl
  | panic => exact le_rfl
  | corrupt => exact le_rfl
  | notReading => exact le_rfl

theorem left_lt {msg : T} (h : r.decodeChunk C D c = (.ok (some msg), r')) : r'.left < r.left := by
  unfold decodeChunk at h
  split at h
  · cases h
  · cases h
  · rename_i p r₁ hr
    dsimp only at h
    split at h
    · cases h
    · cases h
    · cases h
      unfold readFrame at hr
      split at hr
      · cases hr
      · cases hr
      · rename_i r₂ hh
        have hb := (bodyRead_iff.1 hr).length_le
        have hhd := (headerRead_iff.1 hh).length_le
        have hd : (r₁.decoded p (D.decode r₁.decoder p.bytes)).buf.length ≤ r₁.buf.length := by
          unfold decoded
          split
          · simp
          · exact le_rfl
        simp only [left, if_true]
        split
        · rename_i hs
          have := hhd.2 hs
          omega
        · omega

theorem exists_drains (hD : D.Decides) (r : Reader σ) : ∃ msgs f r', Drains C D c r msgs f r' := by
  induction hn : r.left using Nat.strong_induction_on generalizing r with
  | _ n ih =>
    rcases h : r.decodeChunk C D c with ⟨_ | _ | msg, r₁⟩
    · exact ⟨_, _, _, .failed h⟩
    · exact ⟨_, _, _, .more (waits_of_decodeChunk hD h)⟩
    · obtain ⟨msgs, f, r', hr⟩ := ih r₁.left (hn ▸ left_lt h) r₁ rfl
      exact ⟨_, _, _, .item h hr⟩

theorem Drains.eq_of_failed {f : Failure} (hd : r.decodeChunk C D c = (.error f, r₁))
    (h : Drains C D c r msgs fl r') : msgs = [] ∧ fl = some f := by
  cases h with
  | more h =>
    rw [h.decodeChunk_eq] at hd
    cases hd
  | failed h =>
    rw [h] at hd
    cases hd
    exact ⟨rfl, rfl⟩
  | item h =>
    rw [h] at hd
    cases hd

theorem Drains.of_item {msg : T} (hd : r.decodeChunk C D c = (.ok (some msg), r₁))
    (h : Drains C D c r msgs fl r') : ∃ rest, msgs = msg :: rest ∧ Drains C D c r₁ rest fl r' := by
  cases h with
  | more h =>
    rw [h.decodeChunk_eq] at hd
    cases hd
  | failed h =>
    rw [h] at hd
    cases hd
  | item h hr =>
    rw [h] at hd
    cases hd
    exact ⟨_, rfl, hr⟩

theorem Drains.waits_of_none (hd : r.decodeChunk C D c = (.ok none, r₁))
    (h : Drains C D c r msgs fl r') : Waits C D c r r' := by
  cases h with
  | more h => exact h
  | failed h =>
    rw [h] at hd
    cases hd
  | item h =>
    rw [h] at hd
    cases hd

theorem Drains.after_waits {more : Bytes} (hw : Waits C D c r r₁)
    (h : Drains C D c (r.append more) msgs fl r') : Drains C D c (r₁.append more) msgs fl r' := by
  cases h with
  | more h => exact .more ((readFrame_append_of_none hw more).symm.trans h)
  | failed h => exact .failed ((hw.append more).symm.trans h)
  | item h hr => exact .item ((hw.append more).symm.trans h) hr

theorem Drains.split {m : Bytes} (h : Drains C D c (r.append m) msgs fl r') :
    (∃ f r₁, fl = some f ∧ Drains C D c r msgs (some f) r₁) ∨
      ∃ first rest r₁, msgs = first ++ rest ∧ Drains C D c r first none r₁ ∧ Drains C D c (r₁.append m) rest fl r' := by
  induction hn : r.left using Nat.strong_induction_on generalizing r msgs with
  | _ n ih =>
    by_cases hw : ∃ r₁, Waits C D c r r₁
    · obtain ⟨r₁, hw⟩ := hw
      exact .inr ⟨[], msgs, r₁, rfl, .more hw, h.after_waits hw⟩
    · have hnt : ∀ r₁, ¬ Waits C D c r r₁ := not_exists.1 hw
      rcases hd : r.decodeChunk C D c with ⟨f | _ | msg, r₁⟩
      · obtain ⟨rfl, rfl⟩ := h.eq_of_failed (decodeChunk_append hd hnt m)
        exact .inl ⟨f, r₁, rfl, .failed hd⟩
      · -- the decoder returned none, with the other bytes too
        have hw' := h.waits_of_none (decodeChunk_append hd hnt m)
        exact absurd hw' (not_waits_append hnt m r')
      · obtain ⟨rest, rfl, hr⟩ := h.of_item (decodeChunk_append hd hnt m)
        rcases ih r₁.left (hn ▸ left_lt hd) hr rfl with ⟨f, r₂, rfl, hf⟩ | ⟨first, rest', r₂, rfl, hfr, hrest⟩
        · exact .inl ⟨f, r₂, rfl, .item hd hf⟩
        · exact .inr ⟨msg :: first, rest', r₂, rfl, .item hd hfr, hrest⟩

theorem Drains.waiting (h : Drains C D c r msgs none r') : Waits C D c r' r' := by
  generalize he : (none : Option Failure) = e at h
  induction h with
  | more h => exact h.again
  | failed => cases he
  | item _ _ ih => exact ih he

/-! ### Readers that did not fail -/

def Live (r : Reader σ) : Prop := ∀ status, r.state ≠ .error status

theorem Live.append (h : r.Live) (m : Bytes) : (r.append m).Live := h

theorem HeaderRead.live {read : Except Status Bool} (h : HeaderRead c r read r') (hr : r.Live) : r'.Live := by
  cases h with
  | short => exact hr
  | badFlag => exact hr
  | tooLarge => exact hr
  | header => exact fun _ h => nomatch h
  | already => exact hr

theorem live_readFrame (hr : r.Live) (h : r.readFrame C c bufferSize = (read, r')) : r'.Live := by
  unfold readFrame at h
  split at h
  · rename_i hh
    cases h
    exact (headerRead_iff.1 hh).live hr
  · rename_i hh
    cases h
    exact (headerRead_iff.1 hh).live hr
  · rename_i hh
    have hr₁ := (headerRead_iff.1 hh).live hr
    cases bodyRead_iff.1 h <;> exact hr₁

theorem live_decodeChunk (hr : r.Live) (h : r.decodeChunk C D c = (rs, r')) : r'.Live := by
  unfold decodeChunk at h
  split at h
  · rename_i hrd
    cases h
    exact live_readFrame hr hrd
  · rename_i hrd
    cases h
    exact live_readFrame hr hrd
  · rename_i hrd
    have hr₁ := live_readFrame hr hrd
    dsimp only at h
    split at h
    · cases h
      exact hr₁
    · cases h
      exact hr₁
    · cases h
      exact fun _ h => nomatch h

theorem Drains.live (h : Drains C D c r msgs fl r') (hr : r.Live) : r'.Live := by
  induction h with
  | more h => exact live_readFrame hr h
  | failed h => exact live_decodeChunk hr h
  | item h _ ih => exact ih (live_decodeChunk hr h)

end Reader

end Tonic
