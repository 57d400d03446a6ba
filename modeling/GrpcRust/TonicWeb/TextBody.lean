import GrpcRust.TonicWeb.Script
/-!
# Bodies in base64

The server's side of a gRPC-web text request: `poll_decode` decodes the whole groups of four digits it has.
-/

namespace TonicWeb

open Lib Lib.Bytes Tonic List Base64

theorem encode_split {bs : Bytes} {k : Nat} (h : k * 4 ≤ (Base64.encode true bs).length) :
    ∃ x y, bs = x ++ y ∧ (Base64.encode true bs).take (k * 4) = Base64.encode true x ∧
      (Base64.encode true bs).drop (k * 4) = Base64.encode true y := by
  induction k generalizing bs with
  | zero => exact ⟨[], bs, rfl, by simp [Base64.encode], by simp⟩
  | succ k ih =>
    rcases bs with _ | ⟨a, _ | ⟨b, _ | ⟨c, r⟩⟩⟩
    · simp [Base64.encode] at h
    · have hl : (Base64.encode true [a]).length ≤ (k + 1) * 4 := by simp [Base64.encode, padding]
      exact ⟨[a], [], rfl, take_of_length_le hl, drop_of_length_le hl⟩
    · have hl : (Base64.encode true [a, b]).length ≤ (k + 1) * 4 := by simp [Base64.encode, padding]
      exact ⟨[a, b], [], rfl, take_of_length_le hl, drop_of_length_le hl⟩
    · obtain ⟨x, y, rfl, hx, hy⟩ := @ih r (by simp [Base64.encode] at h; omega)
      exact ⟨a :: b :: c :: x, y, rfl, by simpa [Base64.encode, Nat.add_mul] using hx,
        by simpa [Base64.encode, Nat.add_mul] using hy⟩

theorem encode_short {bs : Bytes} (h : (Base64.encode true bs).length < 4) : bs = [] := by
  match bs with
  | [] => rfl
  | [a] => simp [Base64.encode, padding] at h
  | [a, b] => simp [Base64.encode, padding] at h
  | a :: b :: c :: r => simp only [Base64.encode, length_cons] at h; omega

namespace Call
variable {buf bs : Bytes} {body rest : List Polled}

def textState (buf : Bytes) (body : List Polled) : Call (List Polled) := { request body .base64 with buf }

theorem poll_text (buf : Bytes) (b : List Polled) :
    (textState buf b).poll = ((textState buf b).pollBase64 script (b.length + 1)).getD (.pending, textState buf b) :=
  rfl

theorem decodeChunk_text (buf : Bytes) (b : List Polled) : (textState buf b).decodeChunk =
    if buf.length < 4 then (.ok none, textState buf b)
    else match decode (buf.take (buf.length / 4 * 4)) with
      | some x => (.ok (some x), textState (buf.drop (buf.length / 4 * 4)) b)
      | none => (.error .base64, textState (buf.drop (buf.length / 4 * 4)) b) := rfl

theorem isSome_pollBase64 (buf : Bytes) (b : List Polled) :
    ((textState buf b).pollBase64 script (b.length + 1)).isSome = true := by
  induction b generalizing buf with
  | nil =>
    rw [pollBase64, decodeChunk_text]
    by_cases hl : buf.length < 4
    · rw [if_pos hl]
      rfl
    · rw [if_neg hl]
      cases decode (buf.take (buf.length / 4 * 4)) <;> rfl
  | cons p r ih =>
    rw [pollBase64, decodeChunk_text]
    by_cases hl : buf.length < 4
    · rw [if_pos hl]
      match p with
      | .frame (.data bs) => exact ih (buf ++ bs)
      | .frame (.trailers _) => rfl
      | .pending => rfl
      | .error _ => rfl
    · rw [if_neg hl]
      cases decode (buf.take (buf.length / 4 * 4)) <;> rfl

theorem poll_data_text (h : buf.length < 4) :
    (textState buf (.frame (.data bs) :: rest)).poll = (textState (buf ++ bs) rest).poll := by
  obtain ⟨r, hr⟩ := Option.isSome_iff_exists.1 (isSome_pollBase64 (buf ++ bs) rest)
  have he : (textState buf (.frame (.data bs) :: rest)).pollBase64 script (rest.length + 2) = some r := by
    rw [pollBase64, decodeChunk_text, if_pos h]
    exact hr
  rw [poll_text, poll_text, hr, length_cons, he]
  rfl

theorem poll_pending_text (h : buf.length < 4) :
    (textState buf (.pending :: rest)).poll = (.pending, textState buf rest) := by
  rw [poll_text, pollBase64, decodeChunk_text, if_pos h]
  rfl

theorem poll_groups {x : Bytes} (h : ¬ buf.length < 4) (hx : decode (buf.take (buf.length / 4 * 4)) = some x) :
    (textState buf body).poll = (.item (.data x), textState (buf.drop (buf.length / 4 * 4)) body) := by
  rw [poll_text, pollBase64, decodeChunk_text, if_neg h, hx]
  rfl

theorem poll_invalid_groups (h : ¬ buf.length < 4) (hx : decode (buf.take (buf.length / 4 * 4)) = none) :
    (textState buf body).poll = (.failed .base64, textState (buf.drop (buf.length / 4 * 4)) body) := by
  rw [poll_text, pollBase64, decodeChunk_text, if_neg h, hx]
  rfl

def YieldsText (buf : Bytes) (body : List Polled) : Prop :=
  ∀ bytes, buf ++ dataOf body = Base64.encode true bytes →
    ∃ datas : List Bytes, datas.flatten = bytes ∧ Yields poll (textState buf body) (datas.map .data) none

theorem yieldsText_of_rest (h : ∀ buf, buf.length < 4 → YieldsText buf body) (buf : Bytes) : YieldsText buf body := by
  by_cases hl : buf.length < 4
  · exact h buf hl
  intro bs he
  obtain ⟨x, y, rfl, hx, hy⟩ := @encode_split bs (buf.length / 4) (by rw [← he]; simp; omega)
  rw [← he, take_append_of_le_length (by omega)] at hx
  rw [← he, drop_append_of_le_length (by omega)] at hy
  obtain ⟨ds, hd, hys⟩ := h _ (by simp; omega) y hy
  refine ⟨x :: ds, by simp [hd], (yields_of_item (poll_groups hl ?_)).2 ⟨_, rfl, hys⟩⟩
  rw [hx, decode_encode]

theorem yieldsText (hb : Chunks body) (buf : Bytes) : YieldsText buf body := by
  induction body generalizing buf with
  | nil =>
    refine yieldsText_of_rest (fun buf hl bs he => ?_) buf
    rw [dataOf_nil, append_nil] at he
    obtain rfl := encode_short (he ▸ hl)
    obtain rfl : buf = [] := he
    have hp : (textState [] []).poll = (.ended, textState [] []) := rfl
    exact ⟨[], rfl, (yields_of_ended hp).2 ⟨rfl, rfl⟩⟩
  | cons p r ih =>
    obtain ⟨hp, hrest⟩ := List.forall_mem_cons.1 hb
    refine yieldsText_of_rest (fun buf hl bs he => ?_) buf
    match p, hp with
    | .pending, _ =>
      obtain ⟨ds, hd, hy⟩ := ih hrest buf bs he
      exact ⟨ds, hd, (yields_of_pending (poll_pending_text hl)).2 hy⟩
    | .frame (.data pc), _ =>
      obtain ⟨ds, hd, hy⟩ := ih hrest (buf ++ pc) bs (by rw [append_assoc]; exact he)
      exact ⟨ds, hd, (Yields.congr (poll_data_text hl)).2 hy⟩

/-- Every chunk before a non-empty one fills its last group, so that padding stands at the end of the text only. -/
def Aligned : List Bytes → Prop
  | [] => True
  | chunk :: rest => (chunk.length % 3 = 0 ∨ rest.flatten = []) ∧ Aligned rest

theorem encode_flatten {cs : List Bytes} (h : Aligned cs) :
    cs.flatMap (Base64.encode true) = Base64.encode true cs.flatten := by
  induction cs with
  | nil => rfl
  | cons c r ih =>
    rw [flatMap_cons, flatten_cons, ih h.2]
    rcases h.1 with hl | he
    · rw [Base64.encode_append true hl]
    · simp [he, Base64.encode]

theorem aligned_of_flatten {cs : List Bytes} (h : cs.flatten = []) : Aligned cs := by
  induction cs with
  | nil => trivial
  | cons c r ih =>
    rw [flatten_cons, append_eq_nil_iff] at h
    exact ⟨.inr h.2, ih h.2⟩

theorem aligned_of_decode {cs : List Bytes} {bs : Bytes} (h : decode (cs.flatMap (Base64.encode true)) = some bs) :
    Aligned cs := by
  induction cs generalizing bs with
  | nil => trivial
  | cons c r ih =>
    rw [flatMap_cons] at h
    by_cases hc : c.length % 3 = 0
    · rw [decode_encode_append true hc] at h
      obtain ⟨bs', hr, -⟩ := Option.map_eq_some_iff.1 h
      exact ⟨.inl hc, ih hr⟩
    · -- The chunk ends in padding, and only padding decodes after it.
      obtain ⟨text, ht⟩ := encode_eq_concat hc
      rw [ht, append_assoc, singleton_append] at h
      have hpad := eq_padding_of_decode h
      have hr : r.flatten = [] := by
        refine List.flatten_eq_nil_iff.2 fun c' hc' => eq_nil_of_encode_padding fun b hb => hpad b ?_
        exact List.mem_flatMap.2 ⟨c', hc', hb⟩
      exact ⟨.inr hr, aligned_of_flatten hr⟩

theorem length_text_mod (cs : List Bytes) : (cs.flatMap (Base64.encode true)).length % 4 = 0 := by
  induction cs with
  | nil => rfl
  | cons c r ih =>
    have := length_encode_mod c
    rw [flatMap_cons, length_append]
    omega

theorem aligned_of_yields {cs : List Bytes} {items : List HttpFrame}
    (h : Yields poll (request [.frame (.data (cs.flatMap (Base64.encode true)))] .base64) items none) :
    Aligned cs := by
  cases hd : decode (cs.flatMap (Base64.encode true)) with
  | some bs => exact aligned_of_decode hd
  | none =>
    have hl : ¬ (cs.flatMap (Base64.encode true)).length < 4 := by
      intro hlt
      have := length_text_mod cs
      rw [List.length_eq_zero_iff.1 (by omega : (cs.flatMap (Base64.encode true)).length = 0)] at hd
      cases hd
    have hwhole : (cs.flatMap (Base64.encode true)).length / 4 * 4 = (cs.flatMap (Base64.encode true)).length := by
      have := length_text_mod cs
      omega
    have hp : (request [.frame (.data (cs.flatMap (Base64.encode true)))] .base64).poll =
        (textState (cs.flatMap (Base64.encode true)) []).poll := poll_data_text (by decide : ([] : Bytes).length < 4)
    have hf := @poll_invalid_groups _ [] hl (by rw [hwhole, take_length, hd])
    rw [← hp] at hf
    cases ((yields_of_failed hf).1 h).2

/-- A text of separately encoded chunks is decoded, however it is split, exactly if padding stands at its end only. -/
theorem text_decoded (chunks : List Bytes) :
    (∀ body, Chunks body → dataOf body = chunks.flatMap (Base64.encode true) →
      ∃ ds : List Bytes, ds.flatten = chunks.flatten ∧ Yields poll (request body .base64) (ds.map .data) none) ↔
        Aligned chunks := by
  constructor
  · intro h
    have hb : Chunks [.frame (.data (chunks.flatMap (Base64.encode true)))] := by
      intro p hp
      obtain rfl := List.mem_singleton.1 hp
      trivial
    obtain ⟨ds, -, hy⟩ := h _ hb (append_nil _)
    exact aligned_of_yields hy
  · intro h body hb ht
    exact yieldsText hb [] chunks.flatten (by rw [nil_append, ht, encode_flatten h])

/-- `YWJjYQ==` in two pieces. -/
theorem text_decoded_in_two : ∃ ds : List Bytes, ds.flatten = [97, 98, 99, 97] ∧
      Yields poll (request [.frame (.data [89, 87, 74, 106, 89]), .pending, .frame (.data [81, 61, 61])] .base64)
        (ds.map .data) none := by
  refine (text_decoded [[97, 98, 99], [97]]).2 ⟨.inl rfl, .inr rfl, trivial⟩ _ ?_ (by decide +kernel)
  intro p hp
  fin_cases hp <;> trivial

/-- `YQ==YQ==` in one piece. -/
theorem padding_inside : [[97], [97]].flatMap (Base64.encode true) = [89, 81, 61, 61, 89, 81, 61, 61] ∧
      ∀ im, ¬ Yields poll (request [.frame (.data [89, 81, 61, 61, 89, 81, 61, 61])] .base64) im none := by
  refine ⟨by decide +kernel, fun im h => ?_⟩
  have hp : (request [.frame (.data [89, 81, 61, 61, 89, 81, 61, 61])] .base64).poll =
      (.failed .base64, textState [] []) := by decide +kernel
  cases ((yields_of_failed hp).1 h).2

end Call

end TonicWeb
