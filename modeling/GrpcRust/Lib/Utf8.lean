import GrpcRust.Lib.Bytes
/-!
# Characters and their bytes

The bytes of a character after the first are never first bytes. So searching may be done on bytes.
-/

namespace Lib.Bytes

open List

def encode (l : List Char) : Bytes := l.flatMap String.utf8EncodeChar

theorem utf8_eq_encode (s : String) : utf8 s = encode s.toList := by
  rw [utf8, String.toUTF8_eq_toByteArray, ← String.utf8Encode_toList, List.utf8Encode]
  exact toList_data_toByteArray ..

theorem encode_cons (c : Char) (l : List Char) : encode (c :: l) = String.utf8EncodeChar c ++ encode l := rfl

theorem encode_append (l l' : List Char) : encode (l ++ l') = encode l ++ encode l' := flatMap_append

theorem encode_eq_nil {l : List Char} : encode l = [] ↔ l = [] := by
  cases l with
  | nil => simp [encode]
  | cons c l => simp [encode_cons, String.utf8EncodeChar_ne_nil]

theorem exists_encode_eq_cons {l : List Char} (h : l ≠ []) : ∃ b r, encode l = b :: r ∧ b.IsUTF8FirstByte := by
  cases l with
  | nil => exact absurd rfl h
  | cons c l =>
    cases hc : String.utf8EncodeChar c with
    | nil => exact absurd hc String.utf8EncodeChar_ne_nil
    | cons b bs =>
      refine ⟨b, bs ++ encode l, by rw [encode_cons, hc, cons_append], ?_⟩
      have hf := UInt8.isUTF8FirstByte_getElem_zero_utf8EncodeChar (c := c)
      simpa only [hc, getElem_cons_zero] using hf

theorem exists_of_encode_eq_append {l : List Char} {a : Bytes} {b : UInt8} {rest : Bytes} (hb : b.IsUTF8FirstByte)
    (h : encode l = a ++ b :: rest) : ∃ l₁ l₂, l = l₁ ++ l₂ ∧ encode l₁ = a ∧ encode l₂ = b :: rest := by
  induction l generalizing a with
  | nil => simp [encode] at h
  | cons c l ih =>
    by_cases ha : a = []
    · subst ha
      exact ⟨[], c :: l, rfl, rfl, h⟩
    · rw [encode_cons] at h
      rcases List.append_eq_append_iff.1 h with ⟨a', rfl, ht⟩ | ⟨c', hc, ht⟩
      · obtain ⟨l₁, l₂, rfl, rfl, hl₂⟩ := ih ht
        exact ⟨c :: l₁, l₂, rfl, encode_cons c l₁, hl₂⟩
      · -- the cut is inside the character, or right behind it
        cases c' with
        | nil =>
          rw [append_nil] at hc
          exact ⟨[c], l, rfl, by simpa [encode] using hc, by simpa using ht.symm⟩
        | cons b' c' =>
          obtain ⟨rfl, -⟩ := List.cons.inj ht
          have hlt : a.length < (String.utf8EncodeChar c).length := by simp [hc]
          have hg : (String.utf8EncodeChar c).get ⟨a.length, hlt⟩ = b := by simp [hc]
          have hz : a.length = 0 := by
            rw [get_eq_getElem] at hg
            exact UInt8.isUTF8FirstByte_getElem_utf8EncodeChar.1 (hg ▸ hb)
          exact absurd (List.length_eq_zero_iff.1 hz) ha

/-! ## Searching -/

variable {p l : List Char}

theorem encode_prefix_iff : encode p <+: encode l ↔ p <+: l := by
  constructor
  · rintro ⟨r, h⟩
    refine isPrefix_of_utf8Encode_append_eq_utf8Encode r.toByteArray ?_
    rw [List.utf8Encode, List.utf8Encode, ← toByteArray_append]
    exact congrArg List.toByteArray h
  · rintro ⟨r, rfl⟩
    exact ⟨encode r, (encode_append p r).symm⟩

theorem encode_inj : encode p = encode l ↔ p = l := by
  constructor
  · intro h
    have hp : p <+: l := encode_prefix_iff.1 (h ▸ prefix_rfl)
    have hl : l <+: p := encode_prefix_iff.1 (h ▸ prefix_rfl)
    exact hp.eq_of_length_le hl.length_le
  · rintro rfl
    rfl

theorem encode_infix_iff : encode p <:+: encode l ↔ p <:+: l := by
  constructor
  · rintro ⟨a, b, h⟩
    by_cases hp : p = []
    · subst hp
      exact nil_infix
    · obtain ⟨first, r, hf, hb⟩ := exists_encode_eq_cons hp
      obtain ⟨l₁, l₂, rfl, -, hl₂⟩ := exists_of_encode_eq_append hb
        (show encode l = a ++ first :: (r ++ b) by rw [← h, hf, append_assoc, cons_append])
      have hpr : encode p <+: encode l₂ := ⟨b, by rw [hl₂, hf, cons_append]⟩
      exact (encode_prefix_iff.1 hpr).isInfix.trans (suffix_append l₁ l₂).isInfix
  · rintro ⟨a, b, rfl⟩
    exact ⟨encode a, encode b, by rw [encode_append, encode_append]⟩

theorem encode_suffix_iff : encode p <:+ encode l ↔ p <:+ l := by
  constructor
  · rintro ⟨a, h⟩
    by_cases hp : p = []
    · subst hp
      exact nil_suffix
    · obtain ⟨first, r, hf, hb⟩ := exists_encode_eq_cons hp
      obtain ⟨l₁, l₂, rfl, -, hl₂⟩ := exists_of_encode_eq_append hb
        (show encode l = a ++ first :: r by rw [← h, hf])
      rw [← hf, encode_inj] at hl₂
      exact hl₂ ▸ suffix_append l₁ l₂
  · rintro ⟨a, rfl⟩
    exact ⟨encode a, (encode_append a p).symm⟩

/-! ## ASCII case -/

theorem lowerByte_or {x k : UInt8} (hk : 128 ≤ k) : lowerByte (x ||| k) = x ||| k := by
  refine if_neg fun h => ?_
  have hle := Nat.right_le_or (n := x.toNat) (m := k.toNat)
  rw [← UInt8.toNat_or] at hle
  simp only [UInt8.le_iff_toNat_le] at hk h
  have : (128 : UInt8).toNat = 128 := rfl
  have : (90 : UInt8).toNat = 90 := rfl
  omega

theorem toLower_of_not_ascii {c : Char} (h : ¬ c.utf8Size = 1) : c.toLower = c := by
  rw [Char.utf8Size_eq_one_iff, UInt32.le_iff_toNat_le] at h
  refine dif_neg fun hu => h ?_
  have hle := UInt32.le_iff_toNat_le.1 hu.2
  exact hle.trans (by decide)

theorem utf8EncodeChar_toLower_of_ascii {c : Char} (h : c.utf8Size = 1) :
    String.utf8EncodeChar c.toLower = [lowerByte c.val.toUInt8] := by
  have hv : c.val.toNat ≤ 127 := UInt32.le_iff_toNat_le.1 (Char.utf8Size_eq_one_iff.1 h)
  have hb : c.val.toUInt8.toNat = c.val.toNat := by
    rw [UInt32.toNat_toUInt8]
    exact Nat.mod_eq_of_lt (by omega)
  by_cases hu : 65 ≤ c.val.toNat ∧ c.val.toNat ≤ 90
  · have hl : c.toLower.val = c.val + 32 := by
      unfold Char.toLower
      rw [dif_pos ⟨UInt32.le_iff_toNat_le.2 hu.1, UInt32.le_iff_toNat_le.2 hu.2⟩]
      rfl
    have hn : c.toLower.val.toNat = c.val.toNat + 32 := by
      rw [hl, UInt32.toNat_add]
      exact Nat.mod_eq_of_lt (show c.val.toNat + 32 < 2 ^ 32 by omega)
    have hs : c.toLower.utf8Size = 1 := by
      rw [Char.utf8Size_eq_one_iff, UInt32.le_iff_toNat_le, hn]
      show c.val.toNat + 32 ≤ 127
      omega
    rw [String.utf8EncodeChar_eq_singleton hs, lowerByte, if_pos]
    · rw [List.cons.injEq, ← UInt8.toNat_inj, UInt32.toNat_toUInt8, hn, UInt8.toNat_add, hb]
      exact ⟨rfl, rfl⟩
    · simp only [UInt8.le_iff_toNat_le, hb]
      exact hu
  · have hl : c.toLower = c := by
      refine dif_neg fun hc => hu ?_
      exact ⟨UInt32.le_iff_toNat_le.1 hc.1, UInt32.le_iff_toNat_le.1 hc.2⟩
    rw [hl, String.utf8EncodeChar_eq_singleton h, lowerByte, if_neg]
    simp only [UInt8.le_iff_toNat_le, hb]
    exact hu

theorem map_lowerByte_utf8EncodeChar (c : Char) :
    (String.utf8EncodeChar c).map lowerByte = String.utf8EncodeChar c.toLower := by
  by_cases ha : c.utf8Size = 1
  · rw [utf8EncodeChar_toLower_of_ascii ha, String.utf8EncodeChar_eq_singleton ha, map_singleton]
  · rw [toLower_of_not_ascii ha]
    rcases c.utf8Size_eq with hs | hs | hs | hs
    · exact absurd hs ha
    · rw [String.utf8EncodeChar_eq_cons_cons hs]
      simp [lowerByte_or]
    · rw [String.utf8EncodeChar_eq_cons_cons_cons hs]
      simp [lowerByte_or]
    · rw [String.utf8EncodeChar_eq_cons_cons_cons_cons hs]
      simp [lowerByte_or]

theorem toAsciiLowercase_encode (l : List Char) : (encode l).toAsciiLowercase = encode (l.map Char.toLower) := by
  induction l with
  | nil => rfl
  | cons c l ih =>
    rw [encode_cons, toAsciiLowercase_append, ih, map_cons, encode_cons, toAsciiLowercase, map_lowerByte_utf8EncodeChar]

end Lib.Bytes
