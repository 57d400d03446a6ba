import GrpcRust.Lib.Decimal
import GrpcRust.XdsStacks.StringMatchers
/-!
# Matching the names of a certificate

`xds/resource/san_matcher.rs`. An IP address is given by its text.
-/

namespace TonicXds.San

open Lib Lib.Bytes TonicXds.Rds XdsStacks.Strings List
open GrpcXds.Rds (foldCase)

variable {R : Type} [RegexEngine R] {m : StringMatcher R} {s t r : Bytes}

inductive SanMatcher (R : Type)
  | dns (m : StringMatcher R)
  | uri (m : StringMatcher R)
  | email (m : StringMatcher R)
  | ipAddress (m : StringMatcher R)
  | anyType (m : StringMatcher R)

inductive SanEntry
  | dns (v : String)
  | uri (v : String)
  | email (v : String)
  | ipAddress (v : String)

def stripSuffixIgnoreAsciiCase (s suffix : Bytes) : Option Bytes := do
  let split ← checkedSub s.length suffix.length
  let (head, tail) ← splitAtChecked s split
  if tail.eqIgnoreAsciiCase suffix then some head else none

def dnsMatches (matcher : StringMatcher R) (certDns : Bytes) : Except SlicePanic Bool := do
  if ← Tonic.isMatch matcher certDns then return true
  match matcher with
  | .exact value ignoreCase =>
    match stripPrefix certDns (utf8 "*.") with
    | none => return false
    | some suffix =>
      let stripped := if ignoreCase then stripSuffixIgnoreAsciiCase value suffix else stripSuffix value suffix
      match stripped.bind (stripSuffix · (utf8 ".")) with
      | none => return false
      | some label => return !label.isEmpty && !label.elem 46
  | _ => return false

def SanMatcher.matchesEntry : SanMatcher R → SanEntry → Except SlicePanic Bool
  | .dns m, .dns v => dnsMatches m (utf8 v)
  | .uri m, .uri v | .email m, .email v | .ipAddress m, .ipAddress v => Tonic.isMatch m (utf8 v)
  | .anyType m, .dns v | .anyType m, .uri v | .anyType m, .email v | .anyType m, .ipAddress v =>
    Tonic.isMatch m (utf8 v)
  | _, _ => return false

def SanMatcher.matchesAny (matcher : SanMatcher R) (sans : List SanEntry) : Except SlicePanic Bool :=
  anyInOrder matcher.matchesEntry sans

def Names (ignoreCase : Bool) (value entry : Bytes) : Prop :=
  foldCase entry ignoreCase = foldCase value ignoreCase ∨
    ∃ s label tail, entry = 42 :: 46 :: s ∧ value = label ++ 46 :: tail ∧
      foldCase tail ignoreCase = foldCase s ignoreCase ∧ label ≠ [] ∧ 46 ∉ label

theorem stripSuffix_eq_some : stripSuffix s t = some r ↔ s = r ++ t := by
  simp only [stripSuffix, endsWith_iff, Option.ite_none_right_eq_some, Option.some.injEq]
  constructor
  · rintro ⟨⟨r', rfl⟩, h⟩
    simpa using h
  · rintro rfl
    simp

theorem stripPrefix_eq_some : stripPrefix s t = some r ↔ s = t ++ r := by
  simp only [stripPrefix, startsWith_iff, Option.ite_none_right_eq_some, Option.some.injEq]
  constructor
  · rintro ⟨⟨r', rfl⟩, h⟩
    simpa using h
  · rintro rfl
    simp

theorem isCharBoundary_dot {s : String} {l tail : Bytes} (h : utf8 s = l ++ 46 :: tail) :
    isCharBoundary (utf8 s) (l ++ [46]).length = true := by
  have hall : ∀ n : Fin 256, (UInt8.ofNat n).IsUTF8FirstByte → inRange 0x80 0xbf (UInt8.ofNat n) = false := by
    decide +kernel
  have h' := h
  rw [utf8_eq_encode] at h'
  obtain ⟨l₁, l₂, -, -, hl⟩ := exists_of_encode_eq_append (b := 46) (by decide) h'
  obtain ⟨l₃, rfl⟩ : ['.'] <+: l₂ := encode_prefix_iff.1 ⟨tail, hl.symm⟩
  have ht : encode l₃ = tail := (List.cons.inj hl).2
  rw [h, ← ht]
  by_cases hl₃ : l₃ = []
  · simp [isCharBoundary, hl₃, encode]
  · obtain ⟨b, r, hb, hf⟩ := exists_encode_eq_cons hl₃
    have := hall ⟨b.toNat, b.toNat_lt⟩
    simp at this
    simp [isCharBoundary, hb, this hf]

theorem stripped_dot {v : String} {s : Bytes} (ignoreCase : Bool) (l : Bytes) :
    (if ignoreCase then stripSuffixIgnoreAsciiCase (utf8 v) s else stripSuffix (utf8 v) s).bind
        (stripSuffix · (utf8 ".")) = some l ↔
      ∃ tail, utf8 v = l ++ 46 :: tail ∧ foldCase tail ignoreCase = foldCase s ignoreCase := by
  have hd : utf8 "." = [46] := by decide
  rw [Option.bind_eq_some_iff, hd]
  simp only [stripSuffix_eq_some]
  cases ignoreCase with
  | false => simp [stripSuffix_eq_some, foldCase]
  | true =>
    simp only [if_true, stripSuffixIgnoreAsciiCase, checkedSub, splitAtChecked, foldCase]
    constructor
    · rintro ⟨head, h, rfl⟩
      simp only [Option.bind_eq_bind, Option.bind_eq_some_iff, Option.ite_none_right_eq_some, Option.some.injEq] at h
      obtain ⟨_, ⟨-, rfl⟩, _, ⟨-, rfl⟩, ht, hh⟩ := h
      refine ⟨_, ?_, eqIgnoreAsciiCase_iff.1 ht⟩
      rw [← singleton_append, ← append_assoc, ← hh, take_append_drop]
    · rintro ⟨tail, hv, ht⟩
      have hl : tail.length = s.length := by simpa [toAsciiLowercase] using congrArg List.length ht
      have hv' : utf8 v = (l ++ [46]) ++ tail := by simp [hv]
      have hs : (utf8 v).length - s.length = (l ++ [46]).length := by rw [hv', length_append, hl]; omega
      refine ⟨l ++ [46], ?_, rfl⟩
      rw [if_pos (by rw [hv', length_append]; omega)]
      simp only [Option.bind_eq_bind, Option.bind_some, hs, isCharBoundary_dot hv, if_true]
      rw [hv', drop_left, take_left, if_pos (eqIgnoreAsciiCase_iff.2 ht)]

theorem dnsMatches_exact (v : String) (e : Bytes) (ignoreCase : Bool) :
    ∃ b, dnsMatches (R := R) (.exact (utf8 v) ignoreCase) e = .ok b ∧ (b = true ↔ Names ignoreCase (utf8 v) e) := by
  have hm : (StringMatcher.exact (R := R) (utf8 v) ignoreCase).isMatch e = true ↔
      foldCase e ignoreCase = foldCase (utf8 v) ignoreCase := by
    cases ignoreCase with
    | true => exact eqIgnoreAsciiCase_iff
    | false => exact beq_iff_eq
  unfold dnsMatches Names
  rw [Tonic.isMatch_eq, ← hm]
  cases (StringMatcher.exact (R := R) (utf8 v) ignoreCase).isMatch e with
  | true => exact ⟨true, rfl, by simp⟩
  | false =>
    simp only [bind, Except.bind, Bool.false_eq_true, if_false, false_or]
    cases hp : stripPrefix e (utf8 "*.") with
    | none =>
      refine ⟨false, rfl, by simp, ?_⟩
      rintro ⟨s, l, tail, rfl, -⟩
      rw [stripPrefix_eq_some.2 (by rfl)] at hp
      cases hp
    | some s =>
      obtain rfl : e = 42 :: 46 :: s := stripPrefix_eq_some.1 hp
      have hs := stripped_dot (v := v) (s := s) ignoreCase
      dsimp only
      split
      · rename_i hn
        refine ⟨false, rfl, by simp, ?_⟩
        rintro ⟨s', l, tail, he, hv, ht, -⟩
        cases he
        rw [(hs l).2 ⟨tail, hv, ht⟩] at hn
        cases hn
      · rename_i l hl
        obtain ⟨tail, hv, ht⟩ := (hs l).1 hl
        refine ⟨_, rfl, fun hb => ⟨s, l, tail, rfl, hv, ht, by simpa using hb⟩, ?_⟩
        rintro ⟨s', l', tail', he, hv', ht', hn⟩
        cases he
        rw [(hs l').2 ⟨tail', hv', ht'⟩] at hl
        cases hl
        simpa using hn

theorem dnsMatches_other (h : ∀ v ic, m ≠ .exact v ic) (e : Bytes) : dnsMatches m e = .ok (m.isMatch e) := by
  unfold dnsMatches
  rw [Tonic.isMatch_eq]
  cases hm : m.isMatch e with
  | true => rfl
  | false => cases m <;> first | rfl | exact absurd rfl (h _ _)

theorem dnsMatches_ok (m : StringMatcher R) (e : Bytes) : ∃ b, dnsMatches m e = .ok b := by
  unfold dnsMatches
  rw [Tonic.isMatch_eq]
  simp only [bind, Except.bind]
  repeat' split
  all_goals exact ⟨_, rfl⟩

theorem matchesEntry_ok (m : SanMatcher R) (e : SanEntry) : ∃ b, m.matchesEntry e = .ok b := by
  unfold SanMatcher.matchesEntry
  split <;> first | exact dnsMatches_ok .. | exact ⟨_, Tonic.isMatch_eq ..⟩ | exact ⟨_, rfl⟩

theorem matchesAny_dns {P : String → Prop} (sans : List SanEntry)
    (h : ∀ d, ∃ b, dnsMatches m (utf8 d) = .ok b ∧ (b = true ↔ P d)) :
    (SanMatcher.dns m).matchesAny sans = .ok true ↔ ∃ d, .dns d ∈ sans ∧ P d := by
  choose g hg using matchesEntry_ok (SanMatcher.dns m)
  have hd : ∀ e, g e = true ↔ ∃ d, e = .dns d ∧ P d := by
    intro e
    cases e with
    | dns d =>
      obtain ⟨b, hb, hP⟩ := h d
      obtain rfl : b = g (.dns d) := Except.ok.inj (hb.symm.trans (hg (.dns d)))
      simpa using hP
    | _ => simpa using Except.ok.inj (hg _).symm
  rw [SanMatcher.matchesAny, anyInOrder_eq fun e _ => hg e, Except.ok.injEq, any_eq_true]
  constructor
  · rintro ⟨e, he, hge⟩
    obtain ⟨d, rfl, hP⟩ := (hd e).1 hge
    exact ⟨d, he, hP⟩
  · rintro ⟨d, he, hP⟩
    exact ⟨_, he, (hd _).2 ⟨d, rfl, hP⟩⟩

/-- No matcher panics; one for a DNS name accepts what its string matcher does, and an exact one wildcards too. -/
theorem san_matched (sans : List SanEntry) : (∀ mt : SanMatcher R, ∃ b, mt.matchesAny sans = .ok b) ∧
      (∀ (v : String) (ic : Bool), (SanMatcher.dns (R := R) (.exact (utf8 v) ic)).matchesAny sans = .ok true ↔
        ∃ d, .dns d ∈ sans ∧ Names ic (utf8 v) (utf8 d)) ∧
      ∀ m : StringMatcher R, (∀ vl ic, m ≠ .exact vl ic) →
        ((SanMatcher.dns m).matchesAny sans = .ok true ↔ ∃ d, .dns d ∈ sans ∧ m.isMatch (utf8 d) = true) := by
  refine ⟨fun mt => ?_, fun v ic => matchesAny_dns sans fun d => dnsMatches_exact v _ ic,
    fun m hm => matchesAny_dns sans fun d => ⟨_, dnsMatches_other hm _, Iff.rfl⟩⟩
  choose g hg using matchesEntry_ok mt
  exact ⟨_, anyInOrder_eq fun e _ => hg e⟩

end TonicXds.San
