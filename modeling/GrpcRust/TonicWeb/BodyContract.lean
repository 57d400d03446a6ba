import GrpcRust.TonicWeb.Script
/-!
# The contract of a body

At its reported end a body yields nothing more, and what it has yet to yield is within its bounds.
-/

namespace TonicWeb

open Lib Lib.Bytes Tonic List

/-! ## The contract -/

def dataLength {ε : Type} : Poll ε HttpFrame → Nat
  | .item (.data bytes) => bytes.length
  | _ => 0

def totalData {ε : Type} (polls : List (Poll ε HttpFrame)) : Nat := (polls.map dataLength).sum

section
variable {σ ε : Type} (step : σ → Poll ε HttpFrame → σ → Prop)

def Ends (s : σ) : Prop := (∃ s', step s .ended s') ∧ ∀ p s', step s p s' → p = .ended

/-- What is yielded from now on is never above the upper bound, nor below the lower one at the end. -/
structure Within (hint : SizeHint) (s : σ) : Prop where
  lower : ∀ {polls : List (Poll ε HttpFrame)} {s' : σ}, Polls step s (polls ++ [.ended]) s' →
    hint.lower ≤ totalData polls
  upper : ∀ {polls : List (Poll ε HttpFrame)} {s' : σ}, Polls step s polls s' → ∀ n ∈ hint.upper, totalData polls ≤ n

structure Contract (isEndStream : σ → Bool) (sizeHint : σ → SizeHint) (s : σ) : Prop where
  endStream : ∀ {polls : List (Poll ε HttpFrame)} {s' : σ}, Polls step s polls s' → isEndStream s' = true → Ends step s'
  size : ∀ {polls : List (Poll ε HttpFrame)} {s' : σ}, Polls step s polls s' → Within step (sizeHint s') s'

end

namespace Body
variable {σ : Type} (B : Body σ)

def step (s : σ) (p : Poll String HttpFrame) (s' : σ) : Prop := B.pollFrame s = (p, s')

def Obeys (s : σ) : Prop := Contract B.step B.isEndStream B.sizeHint s

end Body

namespace Call
variable {σ : Type} (B : Body σ)

def step (c : Call σ) (p : Poll Failure HttpFrame) (c' : Call σ) : Prop :=
  ∃ fuel, c.pollFrame B (fuel + 1) = some (p, c')

def Obeys (c : Call σ) : Prop := Contract (step B) (isEndStream B) (sizeHint B) c

def HoldsNothing (c : Call σ) : Prop := c.buf = [] ∧ c.held = { decoded := [], trailers := none }

/-- The data of the inner body, which brings no trailers if they would become data, is passed on. -/
structure PassesData (c : Call σ) : Prop where
  encoding : c.encoding = .none
  direction : c.direction = .decode ∧ c.client = false ∨
    c.direction = .encode ∧ ∀ {polls s'}, Polls B.step c.inner polls s' → ∀ trailers, .item (.trailers trailers) ∉ polls

end Call

/-! ## Polls of the inner body -/

namespace Call
variable {σ : Type} {B : Body σ} {c c' : Call σ} {p : Poll Failure HttpFrame} {f : Nat} {inner : σ}

theorem inner_decodeChunk (c : Call σ) : c.decodeChunk.2.inner = c.inner := by
  unfold decodeChunk
  dsimp only
  split
  · rfl
  · cases Base64.decode _ <;> rfl

theorem inner_endOfBase64 (c : Call σ) : c.endOfBase64.2.inner = c.inner := by
  unfold endOfBase64
  split
  · rfl
  · cases c.held.trailers <;> rfl

theorem exists_polls_pollBase64 (h : c.pollBase64 B f = some (p, c')) : ∃ ps, Polls B.step c.inner ps c'.inner := by
  induction f generalizing c with
  | zero => cases h
  | succ f ih =>
    have hi := c.inner_decodeChunk
    rw [pollBase64] at h
    rcases hc : c.decodeChunk with ⟨e | _ | bytes, c₁⟩ <;> rw [hc] at h hi <;> dsimp only at h hi
    · cases h
      exact ⟨[], hi ▸ .nil _⟩
    · rw [hi] at h
      rcases hp : B.pollFrame c.inner with ⟨_ | _ | (bytes | trailers) | e, inner⟩ <;> rw [hp] at h <;> dsimp only at h
      · cases h
        exact ⟨_, .single hp⟩
      · have hend := inner_endOfBase64 { c₁ with inner := inner }
        rw [Option.some.inj h] at hend
        exact ⟨_, .single (hp.trans (Prod.ext rfl hend.symm))⟩
      · obtain ⟨ps, hpl⟩ := ih h
        exact ⟨_, .cons hp hpl⟩
      · cases h
        exact ⟨_, .single hp⟩
      · cases h
        exact ⟨_, .single hp⟩
    · cases h
      exact ⟨[], hi ▸ .nil _⟩

theorem exists_polls_pollDecode (h : c.pollDecode B f = some (p, c')) : ∃ ps, Polls B.step c.inner ps c'.inner := by
  unfold pollDecode at h
  cases he : c.encoding with
  | base64 =>
    rw [he] at h
    exact exists_polls_pollBase64 h
  | none =>
    rw [he] at h
    cases h
    exact ⟨_, .single rfl⟩

theorem exists_polls_pollClientLoop (h : c.pollClientLoop B f = some (p, c')) :
    ∃ ps, Polls B.step c.inner ps c'.inner := by
  induction f generalizing c with
  | zero => cases h
  | succ f ih =>
    rw [pollClientLoop] at h
    rcases hd : c.pollDecode B (f + 1) with _ | ⟨polled, c₁⟩ <;> rw [hd] at h <;> dsimp only at h
    · cases h
    · obtain ⟨ps, hp⟩ := exists_polls_pollDecode hd
      rcases ht : c₁.held.turn polled with ⟨_ | polled, held⟩ <;> rw [ht] at h <;> dsimp only at h
      · obtain ⟨ps', hp'⟩ := ih h
        exact ⟨_, hp.append hp'⟩
      · cases h
        exact ⟨ps, hp⟩

theorem inner_pollEncode (c : Call σ) : (c.pollEncode B).2.inner = (B.pollFrame c.inner).2 := by
  unfold pollEncode
  rcases B.pollFrame c.inner with ⟨_ | _ | (bs | trailers) | e, ir⟩
  case item.trailers =>
    dsimp only
    cases makeTrailersFrame trailers <;> rfl
  all_goals rfl

theorem exists_polls_of_step (h : step B c p c') : ∃ ps, Polls B.step c.inner ps c'.inner := by
  obtain ⟨f, h⟩ := h
  unfold pollFrame at h
  cases hd : c.direction <;> rw [hd] at h <;> dsimp only at h
  · split at h
    · unfold pollClient at h
      split at h
      · cases h
        exact ⟨[], .nil _⟩
      · exact exists_polls_pollClientLoop h
    · exact exists_polls_pollDecode h
  · have hi := c.inner_pollEncode (B := B)
    rw [Option.some.inj h] at hi
    exact ⟨_, .single (Prod.ext rfl hi.symm)⟩
  · cases h
    exact ⟨[], .nil _⟩

theorem exists_polls_of_polls {ps : List (Poll Failure HttpFrame)} (h : Polls (step B) c ps c') :
    ∃ pl, Polls B.step c.inner pl c'.inner := by
  induction h with
  | nil => exact ⟨[], .nil _⟩
  | cons first _ ih =>
    obtain ⟨pl, hp⟩ := exists_polls_of_step first
    obtain ⟨pl', hp'⟩ := ih
    exact ⟨_, hp.append hp'⟩

theorem pollDecode_of_ended (hh : c.HoldsNothing) (he : B.pollFrame c.inner = (.ended, inner))
    (f : Nat) : c.pollDecode B (f + 1) = some (.ended, { c with inner := inner }) := by
  obtain ⟨hb, hh⟩ := hh
  unfold pollDecode
  cases hen : c.encoding with
  | none => simp only [he, passed]
  | base64 =>
    have hc : c.decodeChunk = (.ok none, c) := by simp [decodeChunk, hb]
    simp [pollBase64, hc, he, endOfBase64, hb, hh, hen]

theorem ends_of_ended (hh : c.HoldsNothing) (he : B.pollFrame c.inner = (.ended, inner)) : Ends (step B) c := by
  have hd := pollDecode_of_ended hh he
  have hp (f : Nat) : ∃ c', c.pollFrame B (f + 1) = some (.ended, c') := by
    unfold pollFrame
    cases c.direction with
    | decode =>
      dsimp only
      split
      · have hc : c.pollClient B (f + 1) = c.pollClientLoop B (f + 1) := by
          unfold pollClient
          rw [hh.2]
        rw [hc, pollClientLoop, hd]
        simp only [Held.turn, hh.2]
        exact ⟨_, rfl⟩
      · exact ⟨_, hd f⟩
    | encode => exact ⟨{ c with inner := inner }, by simp only [pollEncode, he]⟩
    | empty => exact ⟨c, rfl⟩
  refine ⟨?_, ?_⟩
  · obtain ⟨c', h⟩ := hp 0
    exact ⟨c', _, h⟩
  · rintro p c'' ⟨f, h⟩
    obtain ⟨c', h'⟩ := hp f
    rw [h'] at h
    cases h
    rfl

/-! ## Data passed on -/

theorem dataLength_passed (p : Poll String HttpFrame) : dataLength (passed p) = dataLength p := by
  rcases p with _ | _ | (bs | trailers) | e <;> rfl

theorem totalData_map_passed (polls : List (Poll String HttpFrame)) :
    totalData (polls.map passed) = totalData polls := by
  simp only [totalData, map_map]
  exact congrArg _ (map_congr_left fun p _ => dataLength_passed p)

theorem passed_eq_ended {p : Poll String HttpFrame} : passed p = .ended ↔ p = .ended := by
  rcases p with _ | _ | frame | e <;> simp [passed]

section
variable (hc : c.PassesData B)
include hc

theorem PassesData.step_iff :
    step B c p c' ↔ p = passed (B.pollFrame c.inner).1 ∧ c' = { c with inner := (B.pollFrame c.inner).2 } := by
  have hp (f : Nat) : c.pollFrame B f =
      some (passed (B.pollFrame c.inner).1, { c with inner := (B.pollFrame c.inner).2 }) := by
    unfold pollFrame
    rcases hc.direction with ⟨hd, hcl⟩ | ⟨hd, hnone⟩
    · simp [hd, hcl, pollDecode, hc.encoding]
    · simp only [hd, pollEncode]
      rcases hi : B.pollFrame c.inner with ⟨_ | _ | (bs | trailers) | e, inner⟩
      case item.trailers => exact absurd mem_cons_self (hnone (.single hi) trailers)
      all_goals simp [passed, encodeData, hc.encoding]
  unfold step
  simp only [hp, Option.some.injEq, Prod.mk.injEq, exists_const]
  constructor
  · rintro ⟨rfl, rfl⟩
    exact ⟨rfl, rfl⟩
  · rintro ⟨rfl, rfl⟩
    exact ⟨rfl, rfl⟩

theorem PassesData.ends (h : Ends B.step c.inner) : Ends (step B) c := by
  obtain ⟨ir, he⟩ := h.1
  have hp : passed (B.pollFrame c.inner).1 = .ended := by
    rw [show B.pollFrame c.inner = (.ended, ir) from he]
    rfl
  refine ⟨⟨_, hc.step_iff.2 ⟨hp.symm, rfl⟩⟩, fun p c' hs => ?_⟩
  exact (hc.step_iff.1 hs).1.trans hp

theorem PassesData.next (h : step B c p c') : c'.PassesData B := by
  obtain ⟨_, rfl⟩ := hc.step_iff.1 h
  refine ⟨hc.encoding, ?_⟩
  rcases hc.direction with hd | ⟨hd, hnone⟩
  · exact .inl hd
  · refine .inr ⟨hd, fun hp ts hmem => ?_⟩
    exact hnone (.cons rfl hp) ts (mem_cons_of_mem _ hmem)

theorem PassesData.exists_polls {ps : List (Poll Failure HttpFrame)} (h : Polls (step B) c ps c') :
    c'.PassesData B ∧ ∃ pl, ps = pl.map passed ∧ Polls B.step c.inner pl c'.inner := by
  induction h with
  | nil => exact ⟨hc, [], rfl, .nil _⟩
  | cons first _ ih =>
    obtain ⟨hc', pl, rfl, hp⟩ := ih (hc.next first)
    obtain ⟨rfl, rfl⟩ := hc.step_iff.1 first
    exact ⟨hc', _ :: pl, rfl, .cons rfl hp⟩

theorem PassesData.within {hint : SizeHint} (h : Within B.step hint c.inner) : Within (step B) hint c := by
  constructor
  · intro ps c' hps
    obtain ⟨_, polls, hm, hpl⟩ := hc.exists_polls hps
    obtain ⟨before, last, rfl, rfl, hlast⟩ := List.map_eq_append_iff.1 hm.symm
    obtain ⟨p, rfl, hp⟩ := List.map_eq_singleton_iff.1 hlast
    rw [passed_eq_ended.1 hp] at hpl
    rw [totalData_map_passed]
    exact h.lower hpl
  · intro ps c' hps n hn
    obtain ⟨_, polls, rfl, hpl⟩ := hc.exists_polls hps
    rw [totalData_map_passed]
    exact h.upper hpl n hn

end

end Call

/-! ## Scripted bodies -/

namespace Polled

theorem dataLength_poll (p : Polled) : dataLength p.poll = p.data.length := by
  rcases p with _ | (bs | trailers) | e <;> rfl

end Polled

theorem script_step_cons {pl : Polled} {rest b : List Polled} {p : Poll String HttpFrame}
    (h : script.step (pl :: rest) p b) : p = pl.poll ∧ b = rest := by
  cases h
  exact ⟨rfl, rfl⟩

theorem script_step_nil {b : List Polled} {p : Poll String HttpFrame} (h : script.step [] p b) :
    p = .ended ∧ b = [] := by
  cases h
  exact ⟨rfl, rfl⟩

variable {ps : List (Poll String HttpFrame)}

theorem totalData_script {b b' : List Polled}
    (h : Polls script.step b ps b') : totalData ps + (dataOf b').length = (dataOf b).length := by
  induction h with
  | nil => simp [totalData]
  | @cons b _ _ p ps first _ ih =>
    cases b with
    | nil =>
      obtain ⟨rfl, rfl⟩ := script_step_nil first
      simpa [totalData, dataLength] using ih
    | cons pl r =>
      obtain ⟨rfl, rfl⟩ := script_step_cons first
      simp only [totalData, map_cons, sum_cons, dataOf_cons, length_append, Polled.dataLength_poll] at ih ⊢
      omega

theorem script_nil_of_ended {b b' : List Polled} (h : Polls script.step b (ps ++ [.ended]) b') : b' = [] := by
  induction ps generalizing b with
  | nil =>
    obtain _ | ⟨first, r⟩ := h
    cases r
    cases b with
    | nil => exact (script_step_nil first).2
    | cons pl r =>
      rcases pl with _ | frame | e <;> cases (script_step_cons first).1
  | cons p ps ih =>
    obtain _ | ⟨first, r⟩ := h
    exact ih r

theorem totalData_append {ε : Type} (ps qs : List (Poll ε HttpFrame)) :
    totalData (ps ++ qs) = totalData ps + totalData qs := by
  simp [totalData]

theorem script_obeys (body : List Polled) : script.Obeys body := by
  constructor
  · intro ps body' _ hend
    obtain rfl : body' = [] := List.isEmpty_iff.1 hend
    exact ⟨⟨[], rfl⟩, fun p s h => (script_step_nil h).1⟩
  · intro ps body' _
    constructor
    · intro qs body'' hqs
      have ht := totalData_script hqs
      rw [script_nil_of_ended hqs, totalData_append] at ht
      simp only [script, totalData, dataLength, map_cons, map_nil, sum_cons, sum_nil, dataOf_nil, length_nil] at ht ⊢
      omega
    · rintro qs body'' hqs n ⟨⟩
      have ht := totalData_script hqs
      omega

/-! ## What holds and what does not -/

inductive Call.IsNew {σ : Type} (inner : σ) : Call σ → Prop
  | request (encoding : Encoding) : IsNew inner (.request inner encoding)
  | response (encoding : Encoding) : IsNew inner (.response inner encoding)
  | clientRequest : IsNew inner (.clientRequest inner)
  | clientResponse : IsNew inner (.clientResponse inner)

theorem Call.IsNew.inner {σ : Type} {inner : σ} {c : Call σ} (h : c.IsNew inner) : c.inner = inner := by
  cases h <;> rfl

/-- Over a lawful inner body a call is right about its end, and obeys the contract where it passes the data on. -/
theorem call_obeys_contract {σ : Type} (B : Body σ) {inner : σ} (hinner : B.Obeys inner) {c : Call σ}
    (hnew : c.IsNew inner) :
    (∀ {ps c'}, Polls (Call.step B) c ps c' → c'.HoldsNothing → c'.isEndStream B = true → Ends (Call.step B) c') ∧
      (c.PassesData B → c.Obeys B) := by
  refine ⟨?_, fun hpa => ⟨?_, ?_⟩⟩
  · intro ps c' hps hh hend
    obtain ⟨pl, hp⟩ := Call.exists_polls_of_polls hps
    rw [hnew.inner] at hp
    obtain ⟨⟨inner', he⟩, _⟩ := hinner.endStream hp hend
    exact Call.ends_of_ended hh he
  · intro ps c' hps hend
    obtain ⟨hpa', pl, _, hp⟩ := hpa.exists_polls hps
    rw [hnew.inner] at hp
    exact hpa'.ends (hinner.endStream hp hend)
  · intro ps c' hps
    obtain ⟨hpa', pl, _, hp⟩ := hpa.exists_polls hps
    rw [hnew.inner] at hp
    exact hpa'.within (hinner.size hp)

/-- A request that is not base64. -/
theorem call_obeys_contract_request :
    let b : List Polled := [.frame (.data [0, 0, 0]), .pending, .frame (.data [0, 0])]
    script.Obeys b ∧ (Call.request b .none).Obeys script := by
  intro b
  exact ⟨script_obeys b, (call_obeys_contract script (script_obeys b) (.request .none)).2 ⟨rfl, .inl ⟨rfl, rfl⟩⟩⟩

/-- Trailers come after the reported end; base64 and trailers change the number of bytes. -/
theorem call_breaks_contract :
    let trailers : HeaderMap := { entries := [(utf8 "a", utf8 "1")] }
    (∀ b, script.Obeys b) ∧
      ¬(Call.clientResponse [.frame (.data ([0, 0, 0, 0, 0, 0x80, 0, 0, 0, 5] ++ utf8 "a:1\r\n"))]).Obeys script ∧
      ¬(Call.request [.frame (.data (utf8 "YQ=="))] .base64).Obeys script ∧
      ¬(Call.response [.frame (.data (utf8 "a"))] .base64).Obeys script ∧
      ¬(Call.response [.frame (.trailers trailers)] .none).Obeys script := by
  intro trailers
  refine ⟨script_obeys, ?_, ?_, ?_, ?_⟩
  · intro h
    have hf : Call.step script
        (.clientResponse [.frame (.data ([0, 0, 0, 0, 0, 0x80, 0, 0, 0, 5] ++ utf8 "a:1\r\n"))])
        (.item (.data [0, 0, 0, 0, 0])) (Call.clientState { decoded := [], trailers := some trailers } []) :=
      ⟨0, by decide⟩
    have he := h.endStream (.single hf) rfl
    cases he.2 (.item (.trailers trailers)) (Call.clientState { decoded := [], trailers := none } []) ⟨0, rfl⟩
  · intro h
    have hf : Call.step script (.request [.frame (.data (utf8 "YQ=="))] .base64) (.item (.data (utf8 "a")))
        (.request [] .base64) := ⟨1, by decide⟩
    have hend : Call.step script (.request [] .base64) .ended (.request [] .base64) := ⟨0, by decide⟩
    have hle : 4 ≤ totalData [Poll.item (HttpFrame.data (utf8 "a"))] :=
      (h.size (.nil _)).lower (.cons hf (.single hend))
    exact absurd hle (by decide)
  · intro h
    have hf : Call.step script (.response [.frame (.data (utf8 "a"))] .base64) (.item (.data (utf8 "YQ==")))
        (.response [] .base64) := ⟨0, by decide⟩
    exact absurd ((h.size (.nil _)).upper (.single hf) 1 rfl) (by decide)
  · intro h
    have hf : Call.step script (.response [.frame (.trailers trailers)] .none)
        (.item (.data ([0x80, 0, 0, 0, 5] ++ utf8 "a:1\r\n"))) (.response [] .none) := ⟨0, by decide⟩
    exact absurd ((h.size (.nil _)).upper (.single hf) 0 rfl) (by decide)

end TonicWeb
