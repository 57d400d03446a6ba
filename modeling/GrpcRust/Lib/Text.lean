import GrpcRust.Lib.Bytes
/-!
# Text on the wire

UTF-8 validation with the errors of a standard library, and percent encoding.
-/

namespace Lib

open Bytes

/-! ## UTF-8 -/

/-- How much is valid, and the length of the bad sequence unless the text stops inside a character. -/
structure Utf8Error where
  validUpTo : Nat
  errorLen : Option Nat
deriving DecidableEq

namespace Utf8Error

def display (e : Utf8Error) : String :=
  match e.errorLen with
  | some len => "invalid utf-8 sequence of " ++ toString len ++ " bytes from index " ++ toString e.validUpTo
  | none => "incomplete utf-8 byte sequence from index " ++ toString e.validUpTo

end Utf8Error

def inRange (low high : UInt8) (b : UInt8) : Bool := low ≤ b && b ≤ high

def continuationTests (first : UInt8) : Option (List (UInt8 → Bool)) :=
  let tail := inRange 0x80 0xbf
  if first < 0x80 then some []
  else if inRange 0xc2 0xdf first then some [tail]
  else if first = 0xe0 then some [inRange 0xa0 0xbf, tail]
  else if first = 0xed then some [inRange 0x80 0x9f, tail]
  else if inRange 0xe1 0xef first then some [tail, tail]
  else if first = 0xf0 then some [inRange 0x90 0xbf, tail, tail]
  else if inRange 0xf1 0xf3 first then some [tail, tail, tail]
  else if first = 0xf4 then some [inRange 0x80 0x8f, tail, tail]
  else none

/-- `start` is where the character begins, `good` how many of its bytes were read, `tests` what is still to come. -/
def validateUtf8 (start good : Nat) (tests : List (UInt8 → Bool)) : Bytes → Option Utf8Error
  | [] => if tests.isEmpty then none else some { validUpTo := start, errorLen := none }
  | b :: rest =>
    match tests with
    | test :: tests =>
      if test b then validateUtf8 start (good + 1) tests rest
      else some { validUpTo := start, errorLen := some good }
    | [] =>
      match continuationTests b with
      | some tests => validateUtf8 (start + good) 1 tests rest
      | none => some { validUpTo := start + good, errorLen := some 1 }

/-- `str::from_utf8`. -/
def fromUtf8 (bytes : Bytes) : Except Utf8Error Bytes :=
  match validateUtf8 0 0 [] bytes with
  | none => .ok bytes
  | some e => .error e

example : fromUtf8 [97, 0xe2, 0x82, 97] = .error { validUpTo := 1, errorLen := some 2 } := by decide

/-! ## Percent encoding -/

def hexDigit? (b : UInt8) : Option Nat :=
  if inRange 48 57 b then some (b.toNat - 48)
  else if inRange 65 70 b then some (b.toNat - 55)
  else if inRange 97 102 b then some (b.toNat - 87)
  else none

def hexDigit (n : Nat) : UInt8 := (utf8 "0123456789ABCDEF").getD n 0

def escapedByte? : Bytes → Option UInt8
  | h :: l :: _ => (hexDigit? h).bind fun high => (hexDigit? l).map fun low => UInt8.ofNat (high * 16 + low)
  | _ => none

/-- `skip` bytes were read as part of an escape. -/
def percentDecodeFrom (skip : Nat) : Bytes → Bytes
  | [] => []
  | b :: rest =>
    match skip with
    | skip + 1 => percentDecodeFrom skip rest
    | 0 =>
      if b = 37 then
        match escapedByte? rest with
        | some c => c :: percentDecodeFrom 2 rest
        | none => b :: percentDecodeFrom 0 rest
      else b :: percentDecodeFrom 0 rest

def percentDecode (s : Bytes) : Bytes := percentDecodeFrom 0 s

def percentEncode (set : UInt8 → Bool) (s : Bytes) : Bytes :=
  s.flatMap fun b =>
    if 128 ≤ b || set b then [37, hexDigit (b.toNat / 16), hexDigit (b.toNat % 16)] else [b]

theorem hexDigit_visible {n : Nat} (h : n < 16) : 32 ≤ hexDigit n ∧ hexDigit n < 127 := by
  have : ∀ k : Fin 16, 32 ≤ hexDigit k ∧ hexDigit k < 127 := by decide
  exact this ⟨n, h⟩

variable {set : UInt8 → Bool}

theorem visible_of_mem_percentEncode (hs : ∀ b : UInt8, set b = false → 32 ≤ b ∧ b ≠ 127)
    {s : Bytes} {b : UInt8} (h : b ∈ percentEncode set s) : 32 ≤ b ∧ b < 127 := by
  obtain ⟨x, _, hx⟩ := List.mem_flatMap.1 h
  have := x.toNat_lt
  split at hx
  · simp only [List.mem_cons, List.not_mem_nil, or_false] at hx
    rcases hx with rfl | rfl | rfl
    · decide
    · exact hexDigit_visible (by omega)
    · exact hexDigit_visible (by omega)
  · rename_i hx'
    simp only [List.mem_cons, List.not_mem_nil, or_false] at hx
    subst hx
    simp only [Bool.or_eq_true, decide_eq_true_eq, not_or, Bool.not_eq_true, UInt8.le_iff_toNat_le] at hx'
    obtain ⟨hl, hne⟩ := hs b hx'.2
    refine ⟨hl, ?_⟩
    rw [ne_eq, ← UInt8.toNat_inj] at hne
    rw [UInt8.lt_iff_toNat_lt]
    have := hx'.1
    simp at this hne ⊢
    omega

theorem hexDigit?_hexDigit {n : Nat} (h : n < 16) : hexDigit? (hexDigit n) = some n := by
  have hall : ∀ k : Fin 16, hexDigit? (hexDigit k) = some k.val := by decide
  exact hall ⟨n, h⟩

theorem percentDecode_percentEncode (hs : set 37 = true) (s : Bytes) : percentDecode (percentEncode set s) = s := by
  unfold percentDecode percentEncode
  induction s with
  | nil => rfl
  | cons b s ih =>
    rw [List.flatMap_cons]
    split
    · have := b.toNat_lt
      have hb : b.toNat / 16 * 16 + b.toNat % 16 = b.toNat := by omega
      simpa [percentDecodeFrom, escapedByte?, hexDigit?_hexDigit (show b.toNat / 16 < 16 by omega),
        hexDigit?_hexDigit (show b.toNat % 16 < 16 by omega), -UInt8.ofNat_add, hb] using ih
    · rename_i hp
      have hne : b ≠ 37 := by
        rintro rfl
        simp [hs] at hp
      simpa [percentDecodeFrom, hne] using ih

example : percentDecode (utf8 "100%25%e2%82%ac%zz%4") = utf8 "100%€%zz%4" := by decide

end Lib
