import GrpcRust.Lib.Bytes
/-!
# Length-prefixed frames

A flag byte, the length as a big-endian `u32`, and the payload. Chunks know nothing of frames.
-/

namespace Lib
open List
variable {rest : Bytes} {flag : UInt8} {len : Nat} {bs : Bytes}

/-! ## Lengths -/

def be32 (n : Nat) : Bytes :=
  [UInt8.ofNat (n / 2 ^ 24), UInt8.ofNat (n / 2 ^ 16), UInt8.ofNat (n / 2 ^ 8), UInt8.ofNat n]

def fromBe32 (a b c d : UInt8) : Nat := a.toNat * 2 ^ 24 + b.toNat * 2 ^ 16 + c.toNat * 2 ^ 8 + d.toNat

theorem fromBe32_lt (a b c d : UInt8) : fromBe32 a b c d < 2 ^ 32 := by
  have := a.toNat_lt
  have := b.toNat_lt
  have := c.toNat_lt
  have := d.toNat_lt
  unfold fromBe32
  omega

theorem fromBe32_ofNat {n : Nat} (h : n < 2 ^ 32) :
    fromBe32 (.ofNat (n / 2 ^ 24)) (.ofNat (n / 2 ^ 16)) (.ofNat (n / 2 ^ 8)) (.ofNat n) = n := by
  unfold fromBe32
  simp only [UInt8.toNat_ofNat']
  omega

theorem be32_fromBe32 (a b c d : UInt8) : be32 (fromBe32 a b c d) = [a, b, c, d] := by
  have ha := a.toNat_lt
  have hb := b.toNat_lt
  have hc := c.toNat_lt
  have hd := d.toNat_lt
  unfold be32 fromBe32
  simp only [List.cons.injEq, and_true, ← UInt8.toNat_inj, UInt8.toNat_ofNat']
  refine ⟨?_, ?_, ?_, ?_⟩ <;> omega

/-! ## Headers -/

def header? : Bytes → Option (UInt8 × Nat × Bytes)
  | flag :: a :: b :: c :: d :: rest => some (flag, fromBe32 a b c d, rest)
  | _ => none

theorem header?_eq_none : header? bs = none ↔ bs.length < 5 := by
  unfold header?
  split
  · simp
  · rename_i h
    simp only [true_iff]
    match bs, h with
    | [], _ => simp
    | [_], _ => simp
    | [_, _], _ => simp
    | [_, _, _], _ => simp
    | [_, _, _, _], _ => simp
    | a :: b :: c :: d :: e :: r, h => exact absurd rfl (h a b c d e r)

theorem header?_append (h : header? bs = some (flag, len, rest)) (m : Bytes) :
    header? (bs ++ m) = some (flag, len, rest ++ m) := by
  unfold header? at h
  split at h
  · obtain ⟨rfl, rfl, rfl⟩ : _ ∧ _ ∧ _ := by simpa using h
    rfl
  · cases h

theorem eq_of_header? (h : header? bs = some (flag, len, rest)) : bs = flag :: be32 len ++ rest ∧ len < 2 ^ 32 := by
  unfold header? at h
  split at h
  · obtain ⟨rfl, rfl, rfl⟩ : _ ∧ _ ∧ _ := by simpa using h
    rw [be32_fromBe32]
    exact ⟨rfl, fromBe32_lt _ _ _ _⟩
  · cases h

theorem length_of_header? (h : header? bs = some (flag, len, rest)) : bs.length = 5 + rest.length := by
  rw [(eq_of_header? h).1]
  simp [be32]
  omega

theorem header?_cons_be32 (h : len < 2 ^ 32) (r : Bytes) : header? (flag :: be32 len ++ r) = some (flag, len, r) := by
  simp only [be32, cons_append, nil_append, header?, fromBe32_ofNat h]

/-! ## Frames -/

structure Frame where
  flag : UInt8
  payload : Bytes
  short : payload.length < 2 ^ 32

namespace Frame

theorem eq_of_payload_eq {f g : Frame} (hf : f.flag = g.flag) (hp : f.payload = g.payload) : f = g := by
  cases f
  cases g
  cases hf
  cases hp
  rfl

def bytes (frame : Frame) : Bytes := frame.flag :: be32 frame.payload.length ++ frame.payload

theorem length_bytes (f : Frame) : f.bytes.length = 5 + f.payload.length := by
  simp [bytes, be32]
  omega

theorem header?_bytes (f : Frame) (m : Bytes) :
    header? (f.bytes ++ m) = some (f.flag, f.payload.length, f.payload ++ m) := by
  unfold bytes
  rw [append_assoc, header?_cons_be32 f.short]

theorem bytes_append_inj {f g : Frame} {a b : Bytes} (h : f.bytes ++ a = g.bytes ++ b) : f = g ∧ a = b := by
  have hh := f.header?_bytes a
  rw [h, g.header?_bytes b] at hh
  obtain ⟨hf, hl, hrest⟩ : _ ∧ _ ∧ _ := by simpa using hh
  obtain ⟨hp, hm⟩ := append_inj hrest hl
  exact ⟨eq_of_payload_eq hf.symm hp.symm, hm.symm⟩

theorem exists_bytes_append_drop (flag : UInt8) {len : Nat} {buf : Bytes} (hlt : len < 2 ^ 32)
    (hle : len ≤ buf.length) :
    ∃ f : Frame, f.flag = flag ∧ flag :: be32 len ++ buf = f.bytes ++ buf.drop len := by
  have ht : (buf.take len).length = len := by simpa using hle
  refine ⟨{ flag := flag, payload := buf.take len, short := by rw [ht]; exact hlt }, rfl, ?_⟩
  show flag :: be32 len ++ buf = (flag :: be32 (buf.take len).length ++ buf.take len) ++ buf.drop len
  rw [ht, append_assoc, take_append_drop]

end Frame

def framesBytes (frames : List Frame) : Bytes := frames.flatMap Frame.bytes

@[simp] theorem framesBytes_nil : framesBytes [] = [] := rfl

@[simp] theorem framesBytes_cons (f : Frame) (frames : List Frame) :
    framesBytes (f :: frames) = f.bytes ++ framesBytes frames :=
  flatMap_cons

theorem framesBytes_eq_nil {fs : List Frame} : framesBytes fs = [] ↔ fs = [] := by
  constructor
  · intro h
    cases fs with
    | nil => rfl
    | cons f fs => simp [Frame.bytes] at h
  · rintro rfl
    rfl

@[simp] theorem framesBytes_append (fs more : List Frame) :
    framesBytes (fs ++ more) = framesBytes fs ++ framesBytes more :=
  flatMap_append

theorem exists_todo_frames {p : UInt8 → Prop} {done fs : List Frame} (hd : ∀ f ∈ done, p f.flag)
    (hrest : ∀ (f : Frame) (m : Bytes), p f.flag → rest ≠ f.bytes ++ m)
    (h : framesBytes done ++ bs = framesBytes fs ++ rest) : ∃ t, fs = done ++ t ∧ bs = framesBytes t ++ rest := by
  induction done generalizing fs with
  | nil => exact ⟨fs, rfl, h⟩
  | cons f done ih =>
    obtain ⟨hf, hd⟩ := List.forall_mem_cons.1 hd
    rw [framesBytes_cons, append_assoc] at h
    cases fs with
    | nil => exact absurd h.symm (hrest f _ hf)
    | cons f' fs =>
      rw [framesBytes_cons, append_assoc] at h
      obtain ⟨rfl, ht⟩ := Frame.bytes_append_inj h
      obtain ⟨t, rfl, htd⟩ := ih hd ht
      exact ⟨t, rfl, htd⟩

theorem not_framesBytes_of_short (h : header? bs = some (flag, len, rest))
    (hl : rest.length < len) (frames : List Frame) : bs ≠ framesBytes frames := by
  rintro rfl
  cases frames with
  | nil => cases h
  | cons f frames =>
    rw [framesBytes_cons, f.header?_bytes] at h
    obtain ⟨_, rfl, rfl⟩ : _ ∧ _ ∧ _ := by simpa using h
    simp at hl

end Lib
