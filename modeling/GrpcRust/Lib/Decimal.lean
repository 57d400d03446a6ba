import GrpcRust.Lib.Text
/-!
# Decimal texts

What a text of digits stands for, and what `str::parse::<u64>` makes of a text.
-/

namespace Lib

open List

namespace Bytes
variable {b : UInt8} {n : Nat} {s : Bytes}

def IsDigit (b : UInt8) : Prop := 48 ≤ b ∧ b ≤ 57

instance (b : UInt8) : Decidable (IsDigit b) := inferInstanceAs (Decidable (_ ∧ _))

def digitsValue (n : Nat) (s : Bytes) : Nat := s.foldl (fun n b => n * 10 + (b.toNat - 48)) n

/-- `str::parse::<u64>`: an optional plus sign, at least one digit, and a value that fits. -/
def parseU64 (s : Bytes) : Option Nat :=
  let value : Option Nat :=
    match s with
    | 43 :: digits => parseDigits digits
    | digits => parseDigits digits
  value.filter fun n => n < 2 ^ 64

example : parseU64 (utf8 "+42") = some 42 := by decide

/-! ## Digits -/

theorem digit?_eq_some : digit? b = some n ↔ IsDigit b ∧ n = b.toNat - 48 := by
  unfold digit? IsDigit
  split
  · rename_i h
    simp [h, eq_comm]
  · rename_i h
    simp [h]

theorem foldlM_digit? {m : Nat} :
    s.foldlM (fun n b => (digit? b).map (n * 10 + ·)) n = some m ↔ (∀ b ∈ s, IsDigit b) ∧ m = digitsValue n s := by
  induction s generalizing n with
  | nil => simp [digitsValue, eq_comm]
  | cons b r ih =>
    rw [foldlM_cons, Option.bind_eq_bind, Option.bind_eq_some_iff, forall_mem_cons]
    constructor
    · rintro ⟨k, hk, hrest⟩
      obtain ⟨d, hd, rfl⟩ := Option.map_eq_some_iff.1 hk
      obtain ⟨hdt, rfl⟩ := digit?_eq_some.1 hd
      obtain ⟨hdg, hm⟩ := ih.1 hrest
      exact ⟨⟨hdt, hdg⟩, hm⟩
    · rintro ⟨⟨hdt, hdg⟩, hm⟩
      exact ⟨_, Option.map_eq_some_iff.2 ⟨_, digit?_eq_some.2 ⟨hdt, rfl⟩, rfl⟩, ih.2 ⟨hdg, hm⟩⟩

theorem parseDigits_eq_some : parseDigits s = some n ↔ s ≠ [] ∧ (∀ b ∈ s, IsDigit b) ∧ n = digitsValue 0 s := by
  unfold parseDigits
  by_cases hs : s = []
  · simp [hs]
  · have hempty : s.isEmpty = false := by simpa using hs
    rw [hempty, if_neg Bool.false_ne_true, foldlM_digit?]
    simp [hs]

theorem digitsValue_lt (h : ∀ b ∈ s, IsDigit b) (n : Nat) : digitsValue n s < (n + 1) * 10 ^ s.length := by
  induction s generalizing n with
  | nil => simp [digitsValue]
  | cons b r ih =>
    rw [forall_mem_cons] at h
    have hb : b.toNat ≤ 57 := h.1.2
    have hs : n * 10 + (b.toNat - 48) + 1 ≤ (n + 1) * 10 := by omega
    calc digitsValue n (b :: r)
        < (n * 10 + (b.toNat - 48) + 1) * 10 ^ r.length := ih h.2 _
      _ ≤ (n + 1) * 10 * 10 ^ r.length := Nat.mul_le_mul_right _ hs
      _ = (n + 1) * 10 ^ (b :: r).length := by rw [length_cons, pow_succ]; ring

/-! ## Numbers of 64 bits -/

def unsigned : Bytes → Bytes
  | 43 :: digits => digits
  | digits => digits

theorem unsigned_of_ne (h : s.head? ≠ some 43) : unsigned s = s := by
  unfold unsigned
  split
  · simp at h
  · rfl

theorem length_unsigned_le (s : Bytes) : (unsigned s).length ≤ s.length := by
  unfold unsigned
  split <;> simp

theorem mem_unsigned_or (h : b ∈ s) : b = 43 ∨ b ∈ unsigned s := by
  unfold unsigned
  split
  · exact List.mem_cons.1 h
  · exact Or.inr h

theorem parseU64_eq (s : Bytes) : parseU64 s = (parseDigits (unsigned s)).filter fun n => n < 2 ^ 64 := by
  unfold parseU64 unsigned
  split <;> rfl

theorem parseU64_eq_some (hs : s.length ≤ 8) :
    parseU64 s = some n ↔ unsigned s ≠ [] ∧ (∀ b ∈ unsigned s, IsDigit b) ∧ n = digitsValue 0 (unsigned s) := by
  rw [parseU64_eq, Option.filter_eq_some_iff, parseDigits_eq_some]
  constructor
  · exact And.left
  · rintro ⟨hne, hd, rfl⟩
    refine ⟨⟨hne, hd, rfl⟩, ?_⟩
    have hlt := digitsValue_lt hd 0
    have hp : 10 ^ (unsigned s).length ≤ 10 ^ 8 := Nat.pow_le_pow_right (by omega) ((length_unsigned_le s).trans hs)
    simp only [decide_eq_true_eq]
    omega

theorem parseU64_lt (hs : s.length ≤ 8) (h : parseU64 s = some n) : n < 10 ^ 8 := by
  obtain ⟨_, hd, rfl⟩ := (parseU64_eq_some hs).1 h
  have hlt := digitsValue_lt hd 0
  have hp : 10 ^ (unsigned s).length ≤ 10 ^ 8 := Nat.pow_le_pow_right (by omega) ((length_unsigned_le s).trans hs)
  omega

/-! ## Writing a number -/

def decimal (n : Nat) : Bytes := (Nat.toDigits 10 n).map Char.toUInt8

theorem toNat_toUInt8_of_isDigit {c : Char} (h : c.isDigit = true) : c.toUInt8.toNat = c.toNat := by
  have hc : c.toNat ≤ 57 := (Char.isDigit_iff_toNat.1 h).2
  change c.val.toNat % 2 ^ 8 = c.val.toNat
  exact Nat.mod_eq_of_lt (by change c.val.toNat ≤ 57 at hc; omega)

theorem isDigit_of_mem_decimal (h : b ∈ decimal n) : IsDigit b := by
  obtain ⟨c, hc, rfl⟩ := List.mem_map.1 h
  have hd : c.isDigit = true := Nat.isDigit_of_mem_toDigits (by omega) (by omega) hc
  obtain ⟨hl, hh⟩ := Char.isDigit_iff_toNat.1 hd
  rw [← toNat_toUInt8_of_isDigit hd] at hl hh
  exact ⟨hl, hh⟩

theorem length_decimal_pos (n : Nat) : 1 ≤ (decimal n).length := by
  rw [decimal, length_map]
  exact Nat.length_toDigits_pos

theorem length_decimal_le {k : Nat} (hk : 0 < k) (h : n < 10 ^ k) : (decimal n).length ≤ k := by
  rw [decimal, length_map]
  exact (Nat.length_toDigits_le_iff (by omega) hk).2 h

theorem digitsValue_map {l : List Char} (h : ∀ c ∈ l, c.isDigit = true) (n : Nat) :
    digitsValue n (l.map Char.toUInt8) = Nat.ofDigitChars 10 l n := by
  induction l generalizing n with
  | nil => rfl
  | cons c l ih =>
    rw [forall_mem_cons] at h
    have hs : n * 10 + (c.toUInt8.toNat - 48) = 10 * n + (c.toNat - '0'.toNat) := by
      rw [toNat_toUInt8_of_isDigit h.1, Nat.mul_comm]
      rfl
    rw [Nat.ofDigitChars_cons, ← ih h.2, ← hs]
    rfl

theorem digitsValue_decimal (n : Nat) : digitsValue 0 (decimal n) = n := by
  rw [decimal, digitsValue_map fun c hc => Nat.isDigit_of_mem_toDigits (by omega) (by omega) hc]
  exact Nat.ofDigitChars_ten_toDigits

end Bytes

open Bytes

/-- `str::is_char_boundary`. -/
def isCharBoundary (s : Bytes) (i : Nat) : Bool :=
  i == 0 || match s[i]? with
    | some b => !inRange 0x80 0xbf b
    | none => i == s.length

def splitAtChecked (s : Bytes) (mid : Nat) : Option (Bytes × Bytes) :=
  if isCharBoundary s mid then some (s.take mid, s.drop mid) else none

theorem splitAtChecked_append_singleton (s : Bytes) (b : UInt8) : splitAtChecked (s ++ [b]) ((s ++ [b]).length - 1) =
      if s = [] ∨ inRange 0x80 0xbf b = false then some (s, [b]) else none := by
  have hl : (s ++ [b]).length - 1 = s.length := by simp
  have hb : isCharBoundary (s ++ [b]) s.length = true ↔ s = [] ∨ inRange 0x80 0xbf b = false := by
    simp [isCharBoundary]
  rw [hl, splitAtChecked, take_left, drop_left]
  simp only [hb]

end Lib
