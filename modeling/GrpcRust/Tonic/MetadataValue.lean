import GrpcRust.Lib.Base64
/-!
# Equality, hash and order of binary metadata values

`metadata/value.rs` and `metadata/encoding.rs`. Two values are equal if they decode to the same bytes or both do
not decode; the order is that of the stored bytes.
-/

namespace Tonic.MetadataValue

open Lib

structure Hasher (H : Type) where
  writeLengthPrefix : H → Nat → H
  write : H → Bytes → H

structure Binary where
  inner : Bytes
deriving DecidableEq

namespace Binary
variable {H : Type} {a b : Binary}

def toBytes (a : Binary) : Option Bytes := Base64.decode a.inner

def valuesEqual (a b : Binary) : Bool :=
  match a.toBytes, b.toBytes with
  | some a, some b => a == b
  | none, none => true
  | _, _ => false

def cmp (a b : Binary) : Ordering := compare a.inner b.inner

def hash (h : Hasher H) (a : Binary) (state : H) : H :=
  match a.toBytes with
  | some b => h.write (h.writeLengthPrefix state b.length) b
  | none => state

theorem valuesEqual_iff : valuesEqual a b = true ↔ a.toBytes = b.toBytes := by
  cases ha : a.toBytes <;> cases hb : b.toBytes <;> simp [valuesEqual, ha, hb]

theorem cmp_eq_iff : cmp a b = .eq ↔ a = b := by
  cases a
  cases b
  simp [cmp]

/-- The stored text up to its padding. -/
def digits (a : Binary) : Bytes := a.inner.takeWhile (· ≠ 61)

/-- The values are stored alike, or only one is base64, or both are and differ in more than their padding. -/
def Separated (a b : Binary) : Prop :=
  a = b ∨ a.toBytes.isSome ≠ b.toBytes.isSome ∨ a.toBytes.isSome ∧ b.toBytes.isSome ∧ a.digits ≠ b.digits

theorem eq_of_separated (hs : Separated a b) (h : valuesEqual a b = true) : a = b := by
  rw [valuesEqual_iff] at h
  rcases hs with heq | hne | ⟨ha, hb, hd⟩
  · exact heq
  · exact absurd (congrArg Option.isSome h) hne
  · obtain ⟨x, hx⟩ := Option.isSome_iff_exists.1 ha
    obtain ⟨y, hy⟩ := Option.isSome_iff_exists.1 hb
    rw [hx, hy, Option.some.injEq] at h
    exact absurd ((Base64.decode_eq_iff hx hy).1 h) hd

theorem separated_of_eq (h : valuesEqual a b = true → a = b) : Separated a b := by
  by_cases hsome : a.toBytes.isSome = b.toBytes.isSome
  · cases hx : a.toBytes with
    | none =>
      have hy : b.toBytes = none := by simpa [hx] using hsome.symm
      exact .inl (h (valuesEqual_iff.2 (hx.trans hy.symm)))
    | some x =>
      obtain ⟨y, hy⟩ := Option.isSome_iff_exists.1 (by rw [← hsome, hx]; rfl : b.toBytes.isSome = true)
      by_cases hd : a.digits = b.digits
      · refine .inl (h (valuesEqual_iff.2 ?_))
        rw [hx, hy, (Base64.decode_eq_iff hx hy).2 hd]
      · exact .inr (.inr ⟨by rw [hx]; rfl, by rw [hy]; rfl, hd⟩)
  · exact .inr (.inl hsome)

/-- Equality and hash agree and the order is total; it agrees with equality exactly for separated values. -/
theorem binary_values_lawful (a b : Binary) : Equivalence (fun a b => valuesEqual a b = true) ∧
      (valuesEqual a b = true → ∀ {H : Type} (h : Hasher H), hash h a = hash h b) ∧
      cmp b a = (cmp a b).swap ∧
      (∀ c, (cmp a b).isLE = true → (cmp b c).isLE = true → (cmp a c).isLE = true) ∧
      (cmp a b = .eq → valuesEqual a b = true) ∧
      ((cmp a b = .eq ↔ valuesEqual a b = true) ↔ Separated a b) := by
  have hcmp : cmp a b = .eq → valuesEqual a b = true := by
    intro h
    rw [cmp_eq_iff.1 h, valuesEqual_iff]
  refine ⟨⟨?_, ?_, ?_⟩, ?_, ?_, ?_, hcmp, ?_, ?_⟩
  · intro a
    simp [valuesEqual_iff]
  · intro a b h
    exact valuesEqual_iff.2 (valuesEqual_iff.1 h).symm
  · intro a b c h h'
    exact valuesEqual_iff.2 ((valuesEqual_iff.1 h).trans (valuesEqual_iff.1 h'))
  · intro h H hs
    funext state
    simp [hash, valuesEqual_iff.1 h]
  · unfold cmp
    exact Std.OrientedCmp.eq_swap
  · intro c
    unfold cmp
    exact Std.TransCmp.isLE_trans
  · intro h
    exact separated_of_eq fun he => cmp_eq_iff.1 (h.2 he)
  · intro hs
    exact ⟨hcmp, fun he => cmp_eq_iff.2 (eq_of_separated hs he)⟩

/-- `YQ` and `YQ==`. -/
theorem cmp_of_padded :
    valuesEqual ⟨[89, 81]⟩ ⟨[89, 81, 61, 61]⟩ = true ∧ cmp ⟨[89, 81]⟩ ⟨[89, 81, 61, 61]⟩ = .lt := by decide +kernel

end Binary

end Tonic.MetadataValue
