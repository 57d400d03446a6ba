import GrpcRust.GrpcTimeout
import GrpcRust.Lib.Rounding
/-!
# Writing the `grpc-timeout` header

The encoders of `tonic-xds` and tonic take the smallest unit in which eight digits are enough. The first rounds up,
the second rounds down.
-/

namespace GrpcTimeout

open Lib Lib.Bytes List TimeoutUnit

namespace Duration

def asNanos (d : Duration) : Nat := d

def asMicros (d : Duration) : Nat := d / 10 ^ 3

def asMillis (d : Duration) : Nat := d / 10 ^ 6

def asSecs (d : Duration) : Nat := d / 10 ^ 9

end Duration

def formatTimeout (value : Nat) (unit : UInt8) : Bytes := decimal value ++ [unit]

/-! ## The encoders -/

namespace TonicXds

def maxValue : Nat := 99999999

def units : List (Nat × UInt8) :=
  [(1, 'n'.toUInt8), (1000, 'u'.toUInt8), (1000000, 'm'.toUInt8), (1000000000, 'S'.toUInt8),
    (60 * 1000000000, 'M'.toUInt8),
    (3600 * 1000000000, 'H'.toUInt8)]

def encodeGrpcTimeout (duration : Duration) : Bytes :=
  let fitting := units.findSome? fun (unitNanos, unit) =>
    let value := duration.asNanos ⌈/⌉ unitNanos
    if value ≤ maxValue then some (formatTimeout value unit) else none
  fitting.getD (formatTimeout maxValue 'H'.toUInt8)

end TonicXds

namespace TonicRequest

inductive Panic
  | unrealisticallyLarge
deriving DecidableEq

def tryFormat (duration : Duration) (unit : UInt8) (convert : Duration → Nat) : Option Bytes :=
  let maxSize := 99999999
  let value := convert duration
  if value > maxSize then none else some (formatTimeout value unit)

def durationToGrpcTimeout (duration : Duration) : Except Panic Bytes :=
  let text :=
    tryFormat duration 'n'.toUInt8 (·.asNanos)
      |>.or (tryFormat duration 'u'.toUInt8 (·.asMicros))
      |>.or (tryFormat duration 'm'.toUInt8 (·.asMillis))
      |>.or (tryFormat duration 'S'.toUInt8 (·.asSecs))
      |>.or (tryFormat duration 'M'.toUInt8 (·.asSecs / 60))
      |>.or (tryFormat duration 'H'.toUInt8 (·.asSecs / 60 / 60))
  match text with
  | some value => .ok value
  | none => .error .unrealisticallyLarge

end TonicRequest

/-! ## The unit that is chosen -/

def TimeoutUnit.ascending : List TimeoutUnit := [nanosecond, microsecond, millisecond, second, minute, hour]

theorem TimeoutUnit.nanos_pos (u : TimeoutUnit) : 0 < u.nanos := by
  cases u <;> decide

theorem TimeoutUnit.nanos_le_hour (u : TimeoutUnit) : u.nanos ≤ hour.nanos := by
  cases u <;> decide

theorem accepted_le {value : Bytes} {d : Duration} (h : Accepted value d) : d ≤ 99999999 * hour.nanos := by
  obtain ⟨digits, unit, n, _, hlength, hparse, rfl⟩ := h
  have hn := parseU64_lt hlength hparse
  exact Nat.mul_le_mul (by omega) unit.nanos_le_hour

def shortTimeout? (value : Nat) (unit : UInt8) : Option Bytes :=
  if value ≤ 99999999 then some (formatTimeout value unit) else none

def chosenUnit (value : TimeoutUnit → Nat) : Option TimeoutUnit :=
  TimeoutUnit.ascending.find? fun unit => value unit ≤ 99999999

theorem findSome?_shortTimeout? (v : TimeoutUnit → Nat) : ascending.findSome? (fun u => shortTimeout? (v u) u.symbol) =
      (chosenUnit v).map fun u => formatTimeout (v u) u.symbol := by
  unfold chosenUnit
  induction ascending with
  | nil => rfl
  | cons u l ih =>
    rw [find?_cons, findSome?_cons, ih]
    by_cases hf : v u ≤ 99999999 <;> simp [shortTimeout?, hf]

variable {v : TimeoutUnit → Nat}

theorem chosenUnit_le {u : TimeoutUnit} (h : chosenUnit v = some u) : v u ≤ 99999999 := by
  have hf := find?_some h
  simpa using hf

theorem chosenUnit_eq_none (h : chosenUnit v = none) : 99999999 < v .hour := by
  have hh := List.find?_eq_none.1 h .hour (by simp [ascending])
  simpa using hh

theorem TonicXds.encodeGrpcTimeout_eq (d : Duration) : encodeGrpcTimeout d =
      ((chosenUnit fun u => d ⌈/⌉ u.nanos).map fun u =>
        formatTimeout (d ⌈/⌉ u.nanos) u.symbol).getD (formatTimeout 99999999 TimeoutUnit.hour.symbol) := by
  have hu : units = ascending.map fun u => (u.nanos, u.symbol) := by decide
  rw [← findSome?_shortTimeout?, encodeGrpcTimeout, hu, findSome?_map]
  rfl

theorem TonicRequest.tryFormat_eq (d : Duration) (unit : UInt8) (convert : Duration → Nat) :
    tryFormat d unit convert = shortTimeout? (convert d) unit := by
  unfold tryFormat shortTimeout?
  by_cases hf : convert d ≤ 99999999
  · simp [hf]
  · simp [hf, not_le.1 hf]

theorem TonicRequest.durationToGrpcTimeout_eq (duration : Duration) : durationToGrpcTimeout duration =
      match (chosenUnit fun u => duration / u.nanos).map fun u =>
        formatTimeout (duration / u.nanos) u.symbol with
      | some v => .ok v
      | none => .error .unrealisticallyLarge := by
  have hn : duration / 1 = duration := Nat.div_one duration
  have hm : duration / (60 * 10 ^ 9) = duration / 10 ^ 9 / 60 := by rw [Nat.div_div_eq_div_mul, Nat.mul_comm]
  have hh : duration / (3600 * 10 ^ 9) = duration / 10 ^ 9 / 60 / 60 := by
    rw [Nat.div_div_eq_div_mul, Nat.div_div_eq_div_mul, Nat.mul_comm]
  have hc (u : TimeoutUnit) (l : List TimeoutUnit) (f : TimeoutUnit → Option Bytes) :
      (u :: l).findSome? f = (f u).or (l.findSome? f) := by
    rw [findSome?_cons]
    cases f u <;> rfl
  rw [← findSome?_shortTimeout?, durationToGrpcTimeout]
  simp only [tryFormat_eq, ascending, hc, findSome?_nil, Option.or_none, Option.or_assoc,
    TimeoutUnit.nanos, symbol, hn, hm, hh, Duration.asNanos, Duration.asMicros,
    Duration.asMillis, Duration.asSecs]

/-! ## Reading it back -/

theorem isTimeout_formatTimeout {v : Nat} (h : v ≤ 99999999) (u : TimeoutUnit) :
    IsTimeout (formatTimeout v u.symbol) (v * u.nanos) := by
  have hl : (decimal v).length ≤ 8 := length_decimal_le (by omega) (by omega)
  refine ⟨decimal v, u, rfl, length_decimal_pos v, hl, fun b hb => isDigit_of_mem_decimal hb, ?_⟩
  rw [digitsValue_decimal]

theorem accepted_formatTimeout {v : Nat} (h : v ≤ 99999999) (u : TimeoutUnit) :
    Accepted (formatTimeout v u.symbol) (v * u.nanos) := by
  have ht := isTimeout_formatTimeout h u
  refine (accepted_iff_isTimeout ?_ _).2 ht
  intro hp
  obtain ⟨ds, _, heq, hps, _, hd, _⟩ := ht
  rw [heq, head?_append_of_ne_nil _ (List.length_pos_iff.1 hps)] at hp
  have hdg := hd _ (mem_of_head? hp)
  exact absurd hdg (by decide)

theorem TonicXds.encodeGrpcTimeout_of_chosen {d : Duration} {u : TimeoutUnit}
    (h : (chosenUnit fun u => d ⌈/⌉ u.nanos) = some u) :
    encodeGrpcTimeout d = formatTimeout (d ⌈/⌉ u.nanos) u.symbol := by
  rw [encodeGrpcTimeout_eq, h]
  rfl

theorem TonicXds.encodeGrpcTimeout_accepted (d : Duration) :
    ∃ t, Accepted (encodeGrpcTimeout d) t ∧ min d (99999999 * TimeoutUnit.hour.nanos) ≤ t := by
  cases hc : chosenUnit fun u => d ⌈/⌉ u.nanos with
  | some u =>
    rw [encodeGrpcTimeout_of_chosen hc]
    exact ⟨_, accepted_formatTimeout (chosenUnit_le hc) u, min_le_of_left_le (le_ceilDiv_mul u.nanos_pos d)⟩
  | none =>
    have he : encodeGrpcTimeout d = formatTimeout 99999999 TimeoutUnit.hour.symbol := by
      rw [encodeGrpcTimeout_eq, hc, Option.map_none, Option.getD_none]
    exact ⟨_, he ▸ accepted_formatTimeout le_rfl .hour, min_le_right _ _⟩

/-- The timeout is not shorter than the duration, and longer by less than its unit, up to the longest timeout. -/
theorem TonicXds.encoded_timeout_covers (duration : Duration) :
    ∃ (ds : Bytes) (u : TimeoutUnit), encodeGrpcTimeout duration = ds ++ [u.symbol] ∧
      1 ≤ ds.length ∧ ds.length ≤ 8 ∧ (∀ b ∈ ds, IsDigit b) ∧
      (duration ≤ 99999999 * TimeoutUnit.hour.nanos →
        ∃ p, parseGrpcTimeout (encodeGrpcTimeout duration) = .ok p ∧ duration ≤ p ∧ p < duration + u.nanos) ∧
      (99999999 * TimeoutUnit.hour.nanos < duration → encodeGrpcTimeout duration = utf8 "99999999H") := by
  cases hc : chosenUnit fun u => duration ⌈/⌉ u.nanos with
  | some u =>
    have hf := chosenUnit_le hc
    have hr : duration ≤ 99999999 * TimeoutUnit.hour.nanos := by
      calc duration
          ≤ (duration ⌈/⌉ u.nanos) * u.nanos := le_ceilDiv_mul u.nanos_pos duration
        _ ≤ 99999999 * TimeoutUnit.hour.nanos := Nat.mul_le_mul hf u.nanos_le_hour
    rw [encodeGrpcTimeout_of_chosen hc]
    refine ⟨decimal (duration ⌈/⌉ u.nanos), u, rfl, length_decimal_pos _, length_decimal_le (by omega) (by omega),
      fun b hb => isDigit_of_mem_decimal hb, fun _ => ?_, fun hl => absurd hr (not_le.2 hl)⟩
    refine ⟨_, (parseGrpcTimeout_eq_ok _ _).2 (accepted_formatTimeout hf u), ?_, ?_⟩
    · exact le_ceilDiv_mul u.nanos_pos duration
    · exact ceilDiv_mul_lt u.nanos_pos duration
  | none =>
    have hl : 99999999 * TimeoutUnit.hour.nanos < duration := by
      by_contra hr
      have hf : duration ⌈/⌉ TimeoutUnit.hour.nanos ≤ 99999999 := by
        rw [ceilDiv_le_iff_le_smul TimeoutUnit.hour.nanos_pos, smul_eq_mul, Nat.mul_comm]
        exact not_lt.1 hr
      exact absurd (chosenUnit_eq_none hc) (not_lt.2 hf)
    have hln : encodeGrpcTimeout duration = utf8 "99999999H" := by
      rw [encodeGrpcTimeout_eq, hc, Option.map_none, Option.getD_none]
      decide
    rw [hln]
    exact ⟨decimal 99999999, .hour, by decide, length_decimal_pos _, length_decimal_le (by omega) (by omega),
      fun b hb => isDigit_of_mem_decimal hb, fun hr => absurd hr (not_le.2 hl), fun _ => rfl⟩

/-- The timeout is not longer than the duration, and shorter by less than its unit; too many hours panic. -/
theorem TonicRequest.encoded_timeout_parses (duration : Duration) : (duration < 10 ^ 8 * TimeoutUnit.hour.nanos →
      ∃ (ds : Bytes) (u : TimeoutUnit), durationToGrpcTimeout duration = .ok (ds ++ [u.symbol]) ∧
        ∀ hd : HeaderMap, hd.get grpcTimeoutHeader = some (ds ++ [u.symbol]) →
          ∃ p, TonicTransport.tryParseGrpcTimeout hd = .ok (.ok (some p)) ∧ p ≤ duration ∧ duration < p + u.nanos) ∧
    (10 ^ 8 * TimeoutUnit.hour.nanos ≤ duration → durationToGrpcTimeout duration = .error .unrealisticallyLarge) := by
  rw [durationToGrpcTimeout_eq]
  cases hc : chosenUnit fun u => duration / u.nanos with
  | some u =>
    have hf := chosenUnit_le hc
    have hr : duration < (duration / u.nanos) * u.nanos + u.nanos := Nat.lt_div_mul_add u.nanos_pos
    refine ⟨fun _ => ⟨decimal (duration / u.nanos), u, rfl, fun hd hv => ?_⟩, fun hl => ?_⟩
    · exact ⟨_, (TonicTransport.tryParseGrpcTimeout_eq_some hv _).2 (accepted_formatTimeout hf u),
        Nat.div_mul_le_self .., hr⟩
    · have hs : duration < 10 ^ 8 * TimeoutUnit.hour.nanos :=
        calc duration
            < (duration / u.nanos + 1) * u.nanos := by rw [Nat.add_one_mul]; exact hr
          _ ≤ 10 ^ 8 * TimeoutUnit.hour.nanos := Nat.mul_le_mul (by omega) u.nanos_le_hour
      exact absurd hl (not_le.2 hs)
  | none =>
    refine ⟨fun hs => ?_, fun _ => rfl⟩
    have hf : duration / TimeoutUnit.hour.nanos < 10 ^ 8 := (Nat.div_lt_iff_lt_mul TimeoutUnit.hour.nanos_pos).2 hs
    exact absurd (chosenUnit_eq_none hc) (not_lt.2 (Nat.le_of_lt_succ hf))

/-- The longest `Duration`. -/
theorem TonicRequest.longest_duration_panics :
    durationToGrpcTimeout ((2 ^ 64 - 1) * 10 ^ 9 + 999999999) = .error .unrealisticallyLarge := by
  decide

end GrpcTimeout
