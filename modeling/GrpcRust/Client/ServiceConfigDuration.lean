import GrpcRust.Lib.Decimal
/-!
# Durations of the service config

`parse_duration` of `client/service_config/duration.rs`, without the texts of the integer parser. A call that panics
has no result.
-/

namespace ServiceConfig

open Lib Lib.Bytes

/-- `str::parse::<u32>`. -/
def parseU32 (s : Bytes) : Option Nat := (parseDigits (unsigned s)).filter (· < 2 ^ 32)

def durationNew (secs nanos : Nat) : Option Nat :=
  if secs + nanos / 10 ^ 9 < 2 ^ 64 then some (secs * 10 ^ 9 + nanos) else none

def scale (fractionVal pad : Nat) : Option Nat :=
  if 10 ^ pad < 2 ^ 32 ∧ fractionVal * 10 ^ pad < 2 ^ 32 then some (fractionVal * 10 ^ pad) else none

def maxDurationSeconds : Nat := 315576000000

def parseFraction (secs : Nat) (fractionStr : Bytes) : Option (Except String Nat) :=
  if fractionStr.isEmpty then some (.error "empty fraction part")
  else if 9 < fractionStr.length then some (.error "fraction part has more than 9 digits")
  else match parseU32 fractionStr with
    | none => some (.error "failed to parse fraction")
    | some fractionVal => (scale fractionVal (9 - fractionStr.length)).bind fun nanos =>
      (durationNew secs nanos).map .ok

def parseParts (s : Bytes) : Option (Except String Nat) :=
  match parseU64 (s.takeWhile (· ≠ 46)) with
  | none => some (.error "failed to parse seconds")
  | some secs =>
    if maxDurationSeconds < secs then some (.error "duration exceeds max of 315576000000s")
    else match s.dropWhile (· ≠ 46) with
      | [] => (durationNew secs 0).map .ok
      | _ :: fractionStr => parseFraction secs fractionStr

def parseDuration (s : Bytes) : Option (Except String Nat) :=
  if s.getLast? ≠ some 115 ∨ 43 ∈ s then some (.error "invalid duration string")
  else (splitAtChecked s (s.length - 1)).bind fun parts => parseParts parts.1

/-- One or more digits, and a dot and one to nine digits or nothing: the text without the final `s`. -/
structure Decimal (s whole fraction : Bytes) : Prop where
  text : s = whole ++ if fraction = [] then [] else 46 :: fraction
  whole_ne : whole ≠ []
  whole_digits : ∀ b ∈ whole, IsDigit b
  fraction_digits : ∀ b ∈ fraction, IsDigit b
  fraction_length : fraction.length ≤ 9
  bound : digitsValue 0 whole ≤ maxDurationSeconds

def nanoseconds (whole fraction : Bytes) : Nat :=
  digitsValue 0 whole * 10 ^ 9 + digitsValue 0 fraction * 10 ^ (9 - fraction.length)

def Yields (x : Option (Except String Nat)) (P : Nat → Prop) : Prop := ∃ r, x = some r ∧ ∀ n, r = .ok n ↔ P n

theorem Yields.error {e : String} {P : Nat → Prop} (h : ∀ n, ¬ P n) : Yields (some (.error e)) P :=
  ⟨_, rfl, fun n => ⟨fun he => (by cases he), fun hp => (h n hp).elim⟩⟩

theorem Yields.ok {k : Nat} {P : Nat → Prop} (h : ∀ n, P n ↔ n = k) : Yields (some (.ok k)) P :=
  ⟨_, rfl, fun n => by rw [h, Except.ok.injEq, eq_comm]⟩

theorem parse_eq_some {s : Bytes} {n k : Nat} (hs : 43 ∉ s) : (parseDigits (unsigned s)).filter (· < k) = some n ↔
      s ≠ [] ∧ (∀ b ∈ s, IsDigit b) ∧ n = digitsValue 0 s ∧ n < k := by
  have hu : unsigned s = s := unsigned_of_ne fun h => hs (List.mem_of_head? h)
  rw [hu, Option.filter_eq_some_iff, parseDigits_eq_some]
  simp [and_assoc]

theorem durationNew_of_le {secs ns : Nat} (hs : secs ≤ maxDurationSeconds) (hn : ns < 10 ^ 9) :
    durationNew secs ns = some (secs * 10 ^ 9 + ns) := by
  rw [durationNew, Nat.div_eq_of_lt hn, if_pos]
  unfold maxDurationSeconds at hs
  omega

section Fraction
variable {f : Bytes} (hd : ∀ b ∈ f, IsDigit b) (hl : f.length ≤ 9)
include hd hl

theorem scaled_lt : digitsValue 0 f * 10 ^ (9 - f.length) < 10 ^ 9 := by
  have hv := digitsValue_lt hd 0
  calc digitsValue 0 f * 10 ^ (9 - f.length)
      < (0 + 1) * 10 ^ f.length * 10 ^ (9 - f.length) := Nat.mul_lt_mul_of_pos_right hv (by positivity)
    _ = 10 ^ 9 := by rw [Nat.zero_add, Nat.one_mul, ← pow_add, Nat.add_sub_cancel' hl]

theorem scale_digits : scale (digitsValue 0 f) (9 - f.length) = some (digitsValue 0 f * 10 ^ (9 - f.length)) := by
  have hlt := scaled_lt hd hl
  have hp : 10 ^ (9 - f.length) ≤ 10 ^ 9 := Nat.pow_le_pow_right (by omega) (by omega)
  exact if_pos ⟨by omega, by omega⟩

theorem digitsValue_fraction_lt : digitsValue 0 f < 2 ^ 32 := by
  have hv := digitsValue_lt hd 0
  have hp : 10 ^ f.length ≤ 10 ^ 9 := Nat.pow_le_pow_right (by omega) hl
  omega

end Fraction

theorem parseFraction_yields {secs : Nat} {f : Bytes} (hs : secs ≤ maxDurationSeconds) (hp : 43 ∉ f) :
    Yields (parseFraction secs f) fun n => f ≠ [] ∧ (∀ b ∈ f, IsDigit b) ∧ f.length ≤ 9 ∧
      n = secs * 10 ^ 9 + digitsValue 0 f * 10 ^ (9 - f.length) := by
  unfold parseFraction
  by_cases hn : f = []
  · rw [if_pos (by simp [hn])]
    exact .error fun n h => h.1 hn
  rw [if_neg (by simp [hn])]
  by_cases hl : 9 < f.length
  · rw [if_pos hl]
    exact .error fun n h => absurd h.2.2.1 (by omega)
  rw [if_neg hl]
  have hl' : f.length ≤ 9 := by omega
  cases hv : parseU32 f with
  | none =>
    refine .error fun n h => ?_
    have he := (parse_eq_some hp).2 ⟨hn, h.2.1, rfl, digitsValue_fraction_lt h.2.1 hl'⟩
    rw [parseU32, he] at hv
    cases hv
  | some v =>
    obtain ⟨-, hd, rfl, -⟩ := (parse_eq_some hp).1 hv
    simp only [scale_digits hd hl', Option.bind_some]
    rw [durationNew_of_le hs (scaled_lt hd hl')]
    exact .ok fun n => ⟨fun h => h.2.2.2, fun h => ⟨hn, hd, hl', h⟩⟩

theorem parts_of_decimal {s w f : Bytes} (h : Decimal s w f) :
    s.takeWhile (· ≠ 46) = w ∧ s.dropWhile (· ≠ 46) = if f = [] then [] else 46 :: f := by
  have hw : ∀ b ∈ w, decide (b ≠ 46) = true := by
    intro b hb
    rw [decide_eq_true_eq]
    rintro rfl
    exact absurd (h.whole_digits _ hb) (by decide)
  rw [h.text, List.takeWhile_append_of_pos hw, List.dropWhile_append_of_pos hw]
  split <;> simp

theorem not_mem_of_decimal {s w f : Bytes} (h : Decimal s w f) : 43 ∉ s := by
  have hd : ¬ IsDigit 43 := by decide
  have hw : 43 ∉ w := fun hb => hd (h.whole_digits _ hb)
  have hf : 43 ∉ f := fun hb => hd (h.fraction_digits _ hb)
  rw [h.text]
  split <;> simp [hw, hf]

theorem parseParts_yields {s : Bytes} (hp : 43 ∉ s) :
    Yields (parseParts s) fun n => ∃ w f, Decimal s w f ∧ n = nanoseconds w f := by
  have hs := List.takeWhile_append_dropWhile (p := fun b : UInt8 => decide (b ≠ 46)) (l := s)
  have hpw : 43 ∉ s.takeWhile (· ≠ 46) := fun h => hp ((List.takeWhile_prefix _).subset h)
  unfold parseParts
  rw [parseU64_eq]
  cases hv : (parseDigits (unsigned (s.takeWhile (· ≠ 46)))).filter (· < 2 ^ 64) with
  | none =>
    refine .error ?_
    rintro n ⟨w, f, h, -⟩
    rw [(parts_of_decimal h).1] at hv hpw
    have hb : digitsValue 0 w < 2 ^ 64 := h.bound.trans_lt (by decide)
    rw [(parse_eq_some hpw).2 ⟨h.whole_ne, h.whole_digits, rfl, hb⟩] at hv
    cases hv
  | some secs =>
    obtain ⟨hne, hd, rfl, -⟩ := (parse_eq_some hpw).1 hv
    by_cases hm : maxDurationSeconds < digitsValue 0 (s.takeWhile (· ≠ 46))
    · simp only [hm, if_true]
      refine .error ?_
      rintro n ⟨w, f, h, -⟩
      rw [(parts_of_decimal h).1] at hm
      exact absurd h.bound (by omega)
    simp only [hm, if_false]
    have hw : ∀ {f}, f.length ≤ 9 → (∀ b ∈ f, IsDigit b) → (s.dropWhile (· ≠ 46) = if f = [] then [] else 46 :: f) →
        Decimal s (s.takeWhile (· ≠ 46)) f :=
      fun hl hf h => ⟨h ▸ hs.symm, hne, hd, hf, hl, by omega⟩
    cases hr : s.dropWhile (· ≠ 46) with
    | nil =>
      rw [durationNew_of_le (by omega) (by omega)]
      refine .ok fun n => ⟨?_, fun h => ⟨_, [], hw (by simp) (by simp) hr, h⟩⟩
      rintro ⟨w, f, h, rfl⟩
      obtain ⟨rfl, ht⟩ := parts_of_decimal h
      have hf : f = [] := by
        rw [hr] at ht
        by_contra hf
        simp [hf] at ht
      simp [hf, nanoseconds, digitsValue]
    | cons c f =>
      obtain rfl : c = 46 := by
        have hc := List.head?_dropWhile_not (fun b : UInt8 => decide (b ≠ 46)) s
        rw [hr] at hc
        simpa using hc
      have hpf : 43 ∉ f := fun h => hp (by rw [← hs, hr]; simp [h])
      obtain ⟨r, hpr, hr'⟩ := parseFraction_yields (Nat.not_lt.1 hm) hpf
      refine ⟨r, hpr, fun n => (hr' n).trans ⟨?_, ?_⟩⟩
      · rintro ⟨hf, hfd, hl, hn⟩
        exact ⟨_, f, hw hl hfd (by rw [hr, if_neg hf]), hn⟩
      · rintro ⟨w, g, h, rfl⟩
        obtain ⟨rfl, ht⟩ := parts_of_decimal h
        have hg : g ≠ [] ∧ f = g := by
          rw [hr] at ht
          by_cases hg : g = [] <;> simp_all
        obtain ⟨hg, rfl⟩ := hg
        exact ⟨hg, h.fraction_digits, h.fraction_length, rfl⟩

/-- Exactly the decimal texts are accepted, with the number they denote, and none panics. -/
theorem duration_parsed (s : Bytes) : ∃ r, parseDuration s = some r ∧
      ∀ n, r = .ok n ↔ ∃ wh fraction, (∃ t, s = t ++ [115] ∧ Decimal t wh fraction) ∧ n = nanoseconds wh fraction := by
  change Yields _ _
  unfold parseDuration
  by_cases h : s.getLast? ≠ some 115 ∨ 43 ∈ s
  · rw [if_pos h]
    refine .error ?_
    rintro n ⟨w, f, ⟨t, rfl, hd⟩, -⟩
    have ht := not_mem_of_decimal hd
    simp_all
  · obtain ⟨hl, hp⟩ := not_or.1 h
    obtain ⟨t, rfl⟩ := List.getLast?_eq_some_iff.1 (not_not.1 hl)
    rw [if_neg h, splitAtChecked_append_singleton, if_pos (Or.inr (by decide))]
    obtain ⟨r, hr, hr'⟩ := parseParts_yields (s := t) fun ht => hp (by simp [ht])
    refine ⟨r, hr, fun n => (hr' n).trans ?_⟩
    simp

end ServiceConfig
