import Mathlib.Data.List.DropRight
import Mathlib.Data.List.Infix
import Mathlib.Tactic
/-!
# Byte strings

Text as its UTF-8 bytes, with the ASCII operations of a standard library on it. Each of them is about bytes
only.
-/

namespace Lib

open List

abbrev Bytes := List UInt8

namespace Bytes

def utf8 (s : String) : Bytes := s.toUTF8.data.toList

def isAsciiWhitespace (b : UInt8) : Bool := b == 32 || b == 9 || b == 10 || b == 12 || b == 13

def trimAscii (s : Bytes) : Bytes := (s.dropWhile isAsciiWhitespace).rdropWhile isAsciiWhitespace

theorem trimAscii_trimAscii (s : Bytes) : trimAscii (trimAscii s) = trimAscii s := by
  have hs : (trimAscii s).dropWhile isAsciiWhitespace = trimAscii s := by
    refine List.dropWhile_eq_self_iff.2 fun hps hsp => ?_
    have hp : trimAscii s <+: s.dropWhile isAsciiWhitespace := rdropWhile_prefix ..
    rw [hp.getElem hps] at hsp
    have hi := dropWhile_idempotent (p := isAsciiWhitespace) s
    exact List.dropWhile_eq_self_iff.1 hi (Nat.lt_of_lt_of_le hps hp.length_le) hsp
  unfold trimAscii at hs ⊢
  rw [hs, rdropWhile_idempotent]

/-! ## ASCII case -/

def lowerByte (b : UInt8) : UInt8 := if 65 ≤ b ∧ b ≤ 90 then b + 32 else b

def toAsciiLowercase (s : Bytes) : Bytes := s.map lowerByte

def eqIgnoreAsciiCase (s t : Bytes) : Bool := s.toAsciiLowercase == t.toAsciiLowercase

@[simp] theorem toAsciiLowercase_nil : toAsciiLowercase [] = [] := rfl

@[simp] theorem length_toAsciiLowercase (s : Bytes) : s.toAsciiLowercase.length = s.length := length_map _

theorem toAsciiLowercase_take (s : Bytes) (n : Nat) : toAsciiLowercase (s.take n) = s.toAsciiLowercase.take n :=
  map_take

theorem toAsciiLowercase_drop (s : Bytes) (n : Nat) : toAsciiLowercase (s.drop n) = s.toAsciiLowercase.drop n :=
  map_drop

theorem toAsciiLowercase_append (s t : Bytes) : toAsciiLowercase (s ++ t) = s.toAsciiLowercase ++ t.toAsciiLowercase :=
  map_append

theorem lowerByte_lowerByte (b : UInt8) : lowerByte (lowerByte b) = lowerByte b := by
  unfold lowerByte
  split
  · rename_i h
    rw [if_neg]
    simp only [UInt8.le_iff_toNat_le, UInt8.toNat_add] at *
    simp at *
    omega
  · rfl

@[simp] theorem toAsciiLowercase_toAsciiLowercase (s : Bytes) :
    s.toAsciiLowercase.toAsciiLowercase = s.toAsciiLowercase := by
  simp [toAsciiLowercase, lowerByte_lowerByte]

theorem eqIgnoreAsciiCase_iff {s t : Bytes} :
    s.eqIgnoreAsciiCase t = true ↔ s.toAsciiLowercase = t.toAsciiLowercase := by
  simp [eqIgnoreAsciiCase]

theorem mem_toAsciiLowercase {s : Bytes} {b : UInt8} (hb : ∀ c, lowerByte c = b ↔ c = b) :
    b ∈ s.toAsciiLowercase ↔ b ∈ s := by
  simp [toAsciiLowercase, hb]

theorem lowerByte_eq_star (b : UInt8) : lowerByte b = 42 ↔ b = 42 := by
  unfold lowerByte
  split
  · rename_i h
    simp only [UInt8.le_iff_toNat_le] at h
    rw [← UInt8.toNat_inj, ← UInt8.toNat_inj, UInt8.toNat_add]
    simp at *
    omega
  · rfl

/-! ## Searching -/

def startsWith (s p : Bytes) : Bool := p.isPrefixOf s

def endsWith (s p : Bytes) : Bool := p.isSuffixOf s

def contains (s p : Bytes) : Bool := decide (p <:+: s)

variable {s p : Bytes}

theorem startsWith_iff : s.startsWith p = true ↔ p <+: s := isPrefixOf_iff_prefix

theorem endsWith_iff : s.endsWith p = true ↔ p <:+ s := isSuffixOf_iff_suffix

theorem contains_iff : s.contains p = true ↔ p <:+: s := by simp [contains]

theorem take_eqIgnoreAsciiCase_iff :
    eqIgnoreAsciiCase (s.take p.length) p = true ↔ p.toAsciiLowercase <+: s.toAsciiLowercase := by
  rw [eqIgnoreAsciiCase_iff, toAsciiLowercase_take, prefix_iff_eq_take, length_toAsciiLowercase]
  exact eq_comm

theorem drop_eqIgnoreAsciiCase_iff :
    eqIgnoreAsciiCase (s.drop (s.length - p.length)) p = true ↔ p.toAsciiLowercase <:+ s.toAsciiLowercase := by
  rw [eqIgnoreAsciiCase_iff, toAsciiLowercase_drop, suffix_iff_eq_drop, length_toAsciiLowercase,
    length_toAsciiLowercase]
  exact eq_comm

theorem not_prefix_of_longer (h : ¬ p.length ≤ s.length) : ¬ p.toAsciiLowercase <+: s.toAsciiLowercase :=
  fun hp => h (by simpa using hp.length_le)

theorem not_suffix_of_longer (h : ¬ p.length ≤ s.length) : ¬ p.toAsciiLowercase <:+ s.toAsciiLowercase :=
  fun hp => h (by simpa using hp.length_le)

theorem infix_iff_exists_window {α : Type} {s p : List α} (h : p.length ≤ s.length) :
    p <:+: s ↔ ∃ i < s.length - p.length + 1, (s.drop i).take p.length = p := by
  constructor
  · rintro ⟨a, b, rfl⟩
    refine ⟨a.length, ?_, ?_⟩
    · simp
      omega
    · simp
  · rintro ⟨i, _, hw⟩
    refine ⟨s.take i, (s.drop i).drop p.length, ?_⟩
    nth_rewrite 1 [← hw]
    rw [append_assoc, take_append_drop, take_append_drop]

/-! ## Numbers -/

def digit? (b : UInt8) : Option Nat := if 48 ≤ b ∧ b ≤ 57 then some (b.toNat - 48) else none

def parseDigits (s : Bytes) : Option Nat :=
  if s.isEmpty then none else s.foldlM (fun n b => (digit? b).map (n * 10 + ·)) 0

end Bytes

/-- A regular expression library: a pattern compiles or is refused, and matches somewhere in a text or not. -/
class RegexEngine (R : Type) where
  new : Bytes → Except Bytes R
  isMatch : R → Bytes → Bool

/-- The library that refuses every pattern. -/
instance noRegex : RegexEngine Empty where
  new _ := .error []
  isMatch regex _ := regex.elim

end Lib
