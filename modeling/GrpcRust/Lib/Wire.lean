import GrpcRust.Lib.Bytes
import GrpcRust.Lib.Validation
import Mathlib.Data.Nat.Digits.Defs
/-!
# The wire format of protocol buffers

What an encoder may write, and functions that read it back (`Reader`). A varint need not be minimal. `reader` is the
one `prost` documents.
-/

namespace Lib.Wire

open List

inductive WireType
  | varint
  | sixtyFourBit
  | lengthDelimited
  | startGroup
  | endGroup
  | thirtyTwoBit
deriving DecidableEq

def WireType.code : WireType → Nat
  | .varint => 0
  | .sixtyFourBit => 1
  | .lengthDelimited => 2
  | .startGroup => 3
  | .endGroup => 4
  | .thirtyTwoBit => 5

def WireType.tryFrom (code : Nat) : Option WireType :=
  [.varint, .sixtyFourBit, .lengthDelimited, .startGroup, .endGroup, .thirtyTwoBit][code]?

theorem WireType.tryFrom_code (t : WireType) : tryFrom t.code = some t := by cases t <;> rfl

/-- At most `n + 1` bytes. With ten of them the last one has a single bit of the 64. -/
def decodeVarintFrom : Nat → Bytes → Except String (Nat × Bytes)
  | _, [] => .error "invalid varint"
  | 0, b :: buf => if b < 2 then .ok (b.toNat, buf) else .error "invalid varint"
  | n + 1, b :: buf =>
    if b < 128 then .ok (b.toNat, buf)
    else do
      let (value, buf) ← decodeVarintFrom n buf
      return (b.toNat % 128 + 128 * value, buf)

def decodeVarint (buf : Bytes) : Except String (Nat × Bytes) := decodeVarintFrom 9 buf

def splitKey (key : Nat) : Except String (Nat × WireType) :=
  if 2 ^ 32 - 1 < key then .error s!"invalid key value: {key}"
  else match WireType.tryFrom (key % 8) with
    | none => .error s!"invalid wire type value: {key % 8}"
    | some wireType => if key / 8 < 1 then .error "invalid tag value: 0" else .ok (key / 8, wireType)

def decodeKey (buf : Bytes) : Except String ((Nat × WireType) × Bytes) := do
  let (key, buf) ← decodeVarint buf
  let key ← splitKey key
  return (key, buf)

/-! ## What an encoder writes -/

structure IsVarint (n : Nat) (bytes : Bytes) : Prop where
  ended : ∃ init last, bytes = init ++ [last] ∧ (∀ b ∈ init, 128 ≤ b) ∧ last < 128
  length : bytes.length ≤ 10
  value : Nat.ofDigits 128 (bytes.map (·.toNat % 128)) = n
  fits : n < 2 ^ 64

inductive Field
  | varint (n : Nat)
  | sixtyFourBit (bytes : Bytes)
  | lengthDelimited (bytes : Bytes)
  | thirtyTwoBit (bytes : Bytes)

def Field.wireType : Field → WireType
  | .varint _ => .varint
  | .sixtyFourBit _ => .sixtyFourBit
  | .lengthDelimited _ => .lengthDelimited
  | .thirtyTwoBit _ => .thirtyTwoBit

def Field.Encodes : Field → Bytes → Prop
  | .varint n, body => IsVarint n body
  | .sixtyFourBit bytes, body => bytes.length = 8 ∧ body = bytes
  | .lengthDelimited bytes, body => ∃ len, IsVarint bytes.length len ∧ body = len ++ bytes
  | .thirtyTwoBit bytes, body => bytes.length = 4 ∧ body = bytes

/-- The number of the field is positive and less than 2^29. -/
def Encodes (tag : Nat) (field : Field) (bytes : Bytes) : Prop :=
  0 < tag ∧ tag < 2 ^ 29 ∧ ∃ key body, bytes = key ++ body ∧ IsVarint (8 * tag + field.wireType.code) key ∧
    field.Encodes body

variable {n tag : Nat} {bytes rest buf : Bytes}

theorem decodeVarintFrom_append {m : Nat} {init : Bytes} {last : UInt8} (hi : ∀ b ∈ init, 128 ≤ b) (hl : last < 128)
    (hm : init.length ≤ m) (hn : Nat.ofDigits 128 ((init ++ [last]).map (·.toNat % 128)) < 2 * 128 ^ m) :
    decodeVarintFrom m (init ++ [last] ++ rest) =
      .ok (Nat.ofDigits 128 ((init ++ [last]).map (·.toNat % 128)), rest) := by
  induction init generalizing m with
  | nil =>
    have hmod : last.toNat % 128 = last.toNat := Nat.mod_eq_of_lt hl
    simp only [nil_append, map_cons, map_nil, Nat.ofDigits_singleton, hmod, singleton_append] at hn ⊢
    cases m with
    | zero => exact if_pos hn
    | succ m => exact if_pos hl
  | cons b init ih =>
    obtain ⟨hb, hi⟩ := forall_mem_cons.1 hi
    simp only [cons_append, map_cons, Nat.ofDigits_cons] at hn ih ⊢
    cases m with
    | zero => cases hm
    | succ m =>
      rw [pow_succ] at hn
      rw [decodeVarintFrom, if_neg (UInt8.not_lt.2 hb), ih hi (Nat.le_of_succ_le_succ hm) (by omega)]
      rfl

theorem IsVarint.decode (h : IsVarint n bytes) (rest : Bytes) : decodeVarint (bytes ++ rest) = .ok (n, rest) := by
  obtain ⟨⟨init, last, rfl, hi, hl⟩, hlen, rfl, hn⟩ := h
  rw [length_append] at hlen
  exact decodeVarintFrom_append hi hl (Nat.le_of_succ_le_succ hlen) hn

theorem decodeKey_append {t : WireType} (hpos : 0 < tag) (hlt : tag < 2 ^ 29) (h : IsVarint (8 * tag + t.code) bytes) :
    decodeKey (bytes ++ rest) = .ok ((tag, t), rest) := by
  have ht : t.code < 8 := by cases t <;> decide
  have hkey : splitKey (8 * tag + t.code) = .ok (tag, t) := by
    have hmod : (8 * tag + t.code) % 8 = t.code := by omega
    have hdiv : (8 * tag + t.code) / 8 = tag := by omega
    rw [splitKey, if_neg (by omega), hmod, WireType.tryFrom_code, hdiv]
    exact if_neg (Nat.not_lt.2 hpos)
  rw [decodeKey, h.decode]
  change (splitKey _ >>= _) = _
  rw [hkey]
  rfl

theorem decodeVarintFrom_shorter {m : Nat} (h : decodeVarintFrom m buf = .ok (n, rest)) : rest.length < buf.length := by
  fun_induction decodeVarintFrom m buf generalizing n rest with
  | case1 => cases h
  | case2 => cases h; exact Nat.lt_succ_self _
  | case3 => cases h
  | case4 => cases h; exact Nat.lt_succ_self _
  | case5 m b buf hb ih =>
    obtain ⟨r, hd, h⟩ := bind_eq_ok.1 h
    cases h
    exact (ih hd).trans (Nat.lt_succ_self _)

theorem decodeKey_shorter {key : Nat × WireType} (h : decodeKey buf = .ok (key, rest)) : rest.length < buf.length := by
  obtain ⟨r, hd, h⟩ := bind_eq_ok.1 h
  obtain ⟨key, -, h⟩ := bind_eq_ok.1 h
  cases h
  exact decodeVarintFrom_shorter hd

/-! ## Readers -/

/-- `decode_varint` and `decode_key`: they read what an encoder writes, and to read takes bytes. -/
structure Reader where
  decodeVarint : Bytes → Except String (Nat × Bytes)
  decodeKey : Bytes → Except String ((Nat × WireType) × Bytes)
  decodeVarint_append : ∀ {n bytes}, IsVarint n bytes → ∀ rest, decodeVarint (bytes ++ rest) = .ok (n, rest)
  decodeKey_append : ∀ {tag bytes rest} {t : WireType}, 0 < tag → tag < 2 ^ 29 → IsVarint (8 * tag + t.code) bytes →
    decodeKey (bytes ++ rest) = .ok ((tag, t), rest)
  decodeVarint_shorter : ∀ {buf n rest}, decodeVarint buf = .ok (n, rest) → rest.length < buf.length
  decodeKey_shorter : ∀ {buf key rest}, decodeKey buf = .ok (key, rest) → rest.length < buf.length

def reader : Reader where
  decodeVarint := decodeVarint
  decodeKey := decodeKey
  decodeVarint_append := IsVarint.decode
  decodeKey_append := decodeKey_append
  decodeVarint_shorter := decodeVarintFrom_shorter
  decodeKey_shorter := decodeKey_shorter

end Lib.Wire
