import GrpcRust.Lib.Decimal
import GrpcRust.Lib.HeaderMap
/-!
# The `grpc-timeout` header

Three parsers, of `tonic-xds`, tonic's transport and the hyper server, against the format. All leave the digits to
`str::parse::<u64>`, which takes a plus sign.
-/

namespace GrpcTimeout

open Lib Lib.Bytes List

abbrev Duration := Nat

variable {n : Nat} {s value : Bytes} {hd : HeaderMap} {d : Duration} {b : UInt8} {α : Type}

namespace Duration

def fromSecs (secs : Nat) : Duration := secs * 10 ^ 9

def fromMillis (millis : Nat) : Duration := millis * 10 ^ 6

def fromMicros (micros : Nat) : Duration := micros * 10 ^ 3

def fromNanos (nanos : Nat) : Duration := nanos

end Duration

def mulU64 (a b : Nat) : Nat := a * b % 2 ^ 64

def grpcTimeoutHeader : Bytes := utf8 "grpc-timeout"

/-! ## The format -/

inductive TimeoutUnit
  | hour
  | minute
  | second
  | millisecond
  | microsecond
  | nanosecond

namespace TimeoutUnit

def symbol : TimeoutUnit → UInt8
  | hour => 'H'.toUInt8
  | minute => 'M'.toUInt8
  | second => 'S'.toUInt8
  | millisecond => 'm'.toUInt8
  | microsecond => 'u'.toUInt8
  | nanosecond => 'n'.toUInt8

def nanos : TimeoutUnit → Nat
  | hour => 3600 * 10 ^ 9
  | minute => 60 * 10 ^ 9
  | second => 10 ^ 9
  | millisecond => 10 ^ 6
  | microsecond => 10 ^ 3
  | nanosecond => 1

end TimeoutUnit

/-- One to eight digits and a unit, and what they stand for. -/
def IsTimeout (value : Bytes) (duration : Duration) : Prop :=
  ∃ (digits : Bytes) (unit : TimeoutUnit), value = digits ++ [unit.symbol] ∧ 1 ≤ digits.length ∧ digits.length ≤ 8 ∧
    (∀ b ∈ digits, IsDigit b) ∧ duration = digitsValue 0 digits * unit.nanos

/-! ## The parsers -/

namespace TonicXds

inductive GrpcTimeoutParseError
  | empty
  | invalidFormat (s : Bytes)
  | nonDigitValue
  | invalidUnit (unit : UInt8)
  | timeoutNotAscii
  | timeoutValueTooBig
deriving DecidableEq

def grpcTimeoutValueMaxLen : Nat := 8

def parseGrpcTimeout (s : Bytes) : Except GrpcTimeoutParseError Duration :=
  if s.isEmpty then .error .empty
  else if s.length > grpcTimeoutValueMaxLen + 1 then .error .timeoutValueTooBig
  else
    match splitAtChecked s (s.length - 1) with
    | none => .error (.invalidFormat s)
    | some (digits, unit) =>
      match parseU64 digits with
      | none => .error .nonDigitValue
      | some value =>
        match unit with
        | [] => .error (.invalidFormat s)
        -- cut off whole, so the byte is a character
        | unitChar :: _ =>
          if unitChar = 'H'.toUInt8 then .ok (.fromSecs (mulU64 value 3600))
          else if unitChar = 'M'.toUInt8 then .ok (.fromSecs (mulU64 value 60))
          else if unitChar = 'S'.toUInt8 then .ok (.fromSecs value)
          else if unitChar = 'm'.toUInt8 then .ok (.fromMillis value)
          else if unitChar = 'u'.toUInt8 then .ok (.fromMicros value)
          else if unitChar = 'n'.toUInt8 then .ok (.fromNanos value)
          else .error (.invalidUnit unitChar)

def extractGrpcTimeout (headers : HeaderMap) : Except GrpcTimeoutParseError (Option Duration) :=
  match headers.get grpcTimeoutHeader with
  | none => .ok none
  | some headerValue =>
    match headerStr? headerValue with
    | none => .error .timeoutNotAscii
    | some s => (parseGrpcTimeout s).map some

end TonicXds

inductive SplitPanic
  | notCharBoundary
deriving DecidableEq

namespace TonicTransport

def secondsInHour : Nat := 60 * 60

def secondsInMinute : Nat := 60

def tryParseGrpcTimeout (headers : HeaderMap) : Except SplitPanic (Except Bytes (Option Duration)) :=
  match headers.get grpcTimeoutHeader with
  | none => .ok (.ok none)
  | some val =>
    match headerStr? val with
    | none => .ok (.error val)
    | some s =>
      if s.isEmpty then .ok (.error val)
      else
        match splitAtChecked s (val.length - 1) with
        | none => .error .notCharBoundary
        | some (timeoutValue, timeoutUnit) =>
          if timeoutValue.length > 8 then .ok (.error val)
          else
            match parseU64 timeoutValue with
            | none => .ok (.error val)
            | some timeoutValue =>
              if timeoutUnit = utf8 "H" then .ok (.ok (some (.fromSecs (mulU64 timeoutValue secondsInHour))))
              else if timeoutUnit = utf8 "M" then .ok (.ok (some (.fromSecs (mulU64 timeoutValue secondsInMinute))))
              else if timeoutUnit = utf8 "S" then .ok (.ok (some (.fromSecs timeoutValue)))
              else if timeoutUnit = utf8 "m" then .ok (.ok (some (.fromMillis timeoutValue)))
              else if timeoutUnit = utf8 "u" then .ok (.ok (some (.fromMicros timeoutValue)))
              else if timeoutUnit = utf8 "n" then .ok (.ok (some (.fromNanos timeoutValue)))
              else .ok (.error val)

end TonicTransport

namespace HyperServer

def parseGrpcTimeout (s : Bytes) : Except SplitPanic (Option Duration) :=
  if s.isEmpty then .ok none
  else
    match splitAtChecked s (s.length - 1) with
    | none => .error .notCharBoundary
    | some (valStr, unit) =>
      if valStr.length > 8 then .ok none
      else
        match parseU64 valStr with
        | none => .ok none
        | some val =>
          if unit = utf8 "H" then .ok (some (.fromSecs (mulU64 val 3600)))
          else if unit = utf8 "M" then .ok (some (.fromSecs (mulU64 val 60)))
          else if unit = utf8 "S" then .ok (some (.fromSecs val))
          else if unit = utf8 "m" then .ok (some (.fromMillis val))
          else if unit = utf8 "u" then .ok (some (.fromMicros val))
          else if unit = utf8 "n" then .ok (some (.fromNanos val))
          else .ok none

end HyperServer

/-! ## What they accept -/

/-- The value parses, if it is no longer than eight bytes, and the unit is one of the six. -/
def Accepted (value : Bytes) (duration : Duration) : Prop :=
  ∃ (digits : Bytes) (unit : TimeoutUnit) (n : Nat), value = digits ++ [unit.symbol] ∧ digits.length ≤ 8 ∧
    parseU64 digits = some n ∧ duration = n * unit.nanos

theorem mulU64_of_lt {k : Nat} (hn : n < 10 ^ 8) (hk : k ≤ 3600) : mulU64 n k = n * k := by
  have hle : n * k ≤ 10 ^ 8 * 3600 := Nat.mul_le_mul hn.le hk
  exact Nat.mod_eq_of_lt (by omega)

theorem unit_match (a : Duration → α) (hi : a.Injective) {r : α} (hr : ∀ dr, r ≠ a dr) (hn : n < 10 ^ 8) (b : UInt8)
    (dr : Duration) : (if b = 'H'.toUInt8 then a (.fromSecs (mulU64 n 3600))
      else if b = 'M'.toUInt8 then a (.fromSecs (mulU64 n 60))
      else if b = 'S'.toUInt8 then a (.fromSecs n)
      else if b = 'm'.toUInt8 then a (.fromMillis n)
      else if b = 'u'.toUInt8 then a (.fromMicros n)
      else if b = 'n'.toUInt8 then a (.fromNanos n)
      else r) = a dr ↔ ∃ u : TimeoutUnit, b = u.symbol ∧ dr = n * u.nanos := by
  rw [mulU64_of_lt hn (by decide), mulU64_of_lt hn (by decide)]
  constructor
  · intro h
    have hu (u : TimeoutUnit) (hb : b = u.symbol) {d : Duration} (hd : d = n * u.nanos)
        (h : a d = a dr) : ∃ u : TimeoutUnit, b = u.symbol ∧ dr = n * u.nanos :=
      ⟨u, hb, hi h ▸ hd⟩
    split_ifs at h with h1 h2 h3 h4 h5 h6
    · exact hu .hour h1 (Nat.mul_assoc ..) h
    · exact hu .minute h2 (Nat.mul_assoc ..) h
    · exact hu .second h3 rfl h
    · exact hu .millisecond h4 rfl h
    · exact hu .microsecond h5 rfl h
    · exact hu .nanosecond h6 (Nat.mul_one n).symm h
    · exact absurd h (hr dr)
  · rintro ⟨u, rfl, rfl⟩
    cases u
    · exact congrArg a (Nat.mul_assoc ..)
    · exact congrArg a (Nat.mul_assoc ..)
    · rfl
    · rfl
    · rfl
    · exact congrArg a (Nat.mul_one n).symm

theorem unit_match_text (a : Duration → α) (hi : a.Injective) (r : α) (hr : ∀ d, r ≠ a d) (hn : n < 10 ^ 8)
    (b : UInt8) (d : Duration) : (if [b] = utf8 "H" then a (.fromSecs (mulU64 n 3600))
      else if [b] = utf8 "M" then a (.fromSecs (mulU64 n 60))
      else if [b] = utf8 "S" then a (.fromSecs n)
      else if [b] = utf8 "m" then a (.fromMillis n)
      else if [b] = utf8 "u" then a (.fromMicros n)
      else if [b] = utf8 "n" then a (.fromNanos n)
      else r) = a d ↔ ∃ unit : TimeoutUnit, b = unit.symbol ∧ d = n * unit.nanos := by
  have hh : utf8 "H" = ['H'.toUInt8] := by decide
  have hmn : utf8 "M" = ['M'.toUInt8] := by decide
  have hs : utf8 "S" = ['S'.toUInt8] := by decide
  have hm : utf8 "m" = ['m'.toUInt8] := by decide
  have hmc : utf8 "u" = ['u'.toUInt8] := by decide
  have hnn : utf8 "n" = ['n'.toUInt8] := by decide
  simp only [hh, hmn, hs, hm, hmc, hnn, singleton_inj]
  exact unit_match a hi hr hn b d

theorem accepted_append_singleton : Accepted (s ++ [b]) d ↔ s.length ≤ 8 ∧
      ∃ n, parseU64 s = some n ∧ ∃ u : TimeoutUnit, b = u.symbol ∧ d = n * u.nanos := by
  constructor
  · rintro ⟨ds, u, n, heq, hl, hp, hd⟩
    obtain ⟨rfl, hb⟩ := append_inj' heq rfl
    exact ⟨hl, n, hp, u, List.singleton_inj.1 hb, hd⟩
  · rintro ⟨hl, n, hp, u, rfl, hd⟩
    exact ⟨s, u, n, rfl, hl, hp, hd⟩

theorem not_accepted_nil (duration : Duration) : ¬ Accepted [] duration := by
  rintro ⟨ds, u, n, heq, _⟩
  simp at heq

theorem not_accepted_of_split (h : ¬ (s = [] ∨ inRange 0x80 0xbf b = false)) (duration : Duration) :
    ¬ Accepted (s ++ [b]) duration := by
  rw [accepted_append_singleton]
  rintro ⟨_, _, _, u, rfl, _⟩
  apply h
  right
  cases u <;> decide

theorem TonicXds.parseGrpcTimeout_eq_ok (s : Bytes) (duration : Duration) :
    parseGrpcTimeout s = .ok duration ↔ Accepted s duration := by
  rcases eq_nil_or_concat s with rfl | ⟨s, b, rfl⟩
  · exact iff_of_false nofun (not_accepted_nil duration)
  rw [concat_eq_append]
  have hempty : (s ++ [b]).isEmpty = false := by simp
  have hm : (s ++ [b]).length > grpcTimeoutValueMaxLen + 1 ↔ ¬ s.length ≤ 8 := by
    rw [length_append, length_singleton, grpcTimeoutValueMaxLen]
    omega
  simp only [parseGrpcTimeout, hempty, Bool.false_eq_true, if_false, splitAtChecked_append_singleton, hm]
  by_cases hl : s.length ≤ 8
  · rw [if_neg (not_not.2 hl)]
    by_cases hs : s = [] ∨ inRange 0x80 0xbf b = false
    · simp only [if_pos hs, accepted_append_singleton, hl, true_and]
      cases hp : parseU64 s with
      | none => simp
      | some n =>
        simp only [Option.some.injEq, exists_eq_left']
        exact unit_match Except.ok (fun _ _ => Except.ok.inj) (fun _ h => by cases h) (parseU64_lt hl hp) b duration
    · simp only [if_neg hs]
      exact iff_of_false nofun (not_accepted_of_split hs duration)
  · rw [if_pos hl, accepted_append_singleton]
    exact iff_of_false nofun (fun h => hl h.1)

theorem HyperServer.parseGrpcTimeout_eq_some (s : Bytes) (duration : Duration) :
    parseGrpcTimeout s = .ok (some duration) ↔ Accepted s duration := by
  rcases eq_nil_or_concat s with rfl | ⟨s, b, rfl⟩
  · exact iff_of_false nofun (not_accepted_nil duration)
  rw [concat_eq_append]
  have hempty : (s ++ [b]).isEmpty = false := by simp
  simp only [parseGrpcTimeout, hempty, Bool.false_eq_true, if_false, splitAtChecked_append_singleton]
  by_cases hs : s = [] ∨ inRange 0x80 0xbf b = false
  · simp only [if_pos hs, accepted_append_singleton, gt_iff_lt, ← not_le]
    by_cases hl : s.length ≤ 8
    · rw [if_neg (not_not.2 hl)]
      simp only [hl, true_and]
      cases hp : parseU64 s with
      | none => simp
      | some n =>
        simp only [Option.some.injEq, exists_eq_left']
        have hi : (fun d : Duration => (.ok (some d) : Except SplitPanic (Option Duration))).Injective := by
          intro d d' h
          cases h
          rfl
        exact unit_match_text _ hi (.ok none) (fun _ h => by cases h) (parseU64_lt hl hp) b duration
    · rw [if_pos hl]
      exact iff_of_false nofun (fun h => hl h.1)
  · simp only [if_neg hs]
    exact iff_of_false nofun (not_accepted_of_split hs duration)

theorem TonicTransport.tryParseGrpcTimeout_eq {val : Bytes} (h : hd.get grpcTimeoutHeader = some val) :
    tryParseGrpcTimeout hd =
      match headerStr? val with
      | none => .ok (.error val)
      | some s => (HyperServer.parseGrpcTimeout s).map fun
        | some d => .ok (some d)
        | none => .error val := by
  simp only [tryParseGrpcTimeout, h]
  unfold headerStr?
  split_ifs with hs
  · dsimp only
    unfold HyperServer.parseGrpcTimeout
    by_cases hempty : val.isEmpty = true
    · simp only [if_pos hempty, Except.map]
    · simp only [if_neg hempty]
      rcases splitAtChecked val (val.length - 1) with _ | ⟨t, tu⟩
      · rfl
      · dsimp only
        by_cases hl : t.length > 8
        · simp only [if_pos hl, Except.map]
        · simp only [if_neg hl]
          cases parseU64 t with
          | none => rfl
          | some v =>
            split_ifs <;> rfl
  · rfl

theorem visible_of_accepted (h : Accepted value d) : ∀ b ∈ value, 32 ≤ b ∧ b < 127 := by
  obtain ⟨ds, u, n, rfl, hl, hp, _⟩ := h
  obtain ⟨_, hd, _⟩ := (parseU64_eq_some hl).1 hp
  have hs : 32 ≤ u.symbol ∧ u.symbol < 127 := by cases u <;> decide
  intro b hb
  rcases List.mem_append.1 hb with hb | hb
  · rcases mem_unsigned_or hb with rfl | hb
    · decide
    · obtain ⟨hlw, hh⟩ := hd b hb
      have hsp : (32 : UInt8) ≤ 48 := by decide
      have hdl : (57 : UInt8) < 127 := by decide
      exact ⟨UInt8.le_trans hsp hlw, UInt8.lt_of_le_of_lt hh hdl⟩
  · rw [List.mem_singleton.1 hb]
    exact hs

theorem headerStr?_of_accepted (h : Accepted value d) : headerStr? value = some value := by
  unfold headerStr?
  rw [if_pos]
  refine List.all_eq_true.2 fun b hb => ?_
  simp [visible_of_accepted h b hb]

theorem eq_of_headerStr? (h : headerStr? value = some s) : s = value := by
  unfold headerStr? at h
  split_ifs at h
  exact (Option.some.inj h).symm

theorem TonicXds.extractGrpcTimeout_eq_some (h : hd.get grpcTimeoutHeader = some value) (duration : Duration) :
    extractGrpcTimeout hd = .ok (some duration) ↔ Accepted value duration := by
  simp only [extractGrpcTimeout, h]
  cases hs : headerStr? value with
  | none =>
    refine iff_of_false nofun fun ha => ?_
    rw [headerStr?_of_accepted ha] at hs
    cases hs
  | some s =>
    rw [eq_of_headerStr? hs, ← parseGrpcTimeout_eq_ok]
    dsimp only
    cases parseGrpcTimeout value <;> simp [Except.map]

theorem TonicTransport.tryParseGrpcTimeout_eq_some (h : hd.get grpcTimeoutHeader = some value)
    (duration : Duration) : tryParseGrpcTimeout hd = .ok (.ok (some duration)) ↔ Accepted value duration := by
  rw [tryParseGrpcTimeout_eq h]
  cases hs : headerStr? value with
  | none =>
    refine iff_of_false nofun fun ha => ?_
    rw [headerStr?_of_accepted ha] at hs
    cases hs
  | some s =>
    rw [eq_of_headerStr? hs, ← HyperServer.parseGrpcTimeout_eq_some]
    dsimp only
    cases HyperServer.parseGrpcTimeout value with
    | error e => simp [Except.map]
    | ok p => cases p <;> simp [Except.map]

theorem accepted_iff_isTimeout (h : value.head? ≠ some '+'.toUInt8) (duration : Duration) :
    Accepted value duration ↔ IsTimeout value duration := by
  constructor
  · rintro ⟨ds, u, n, rfl, hl, hp, rfl⟩
    obtain ⟨hne, hd, rfl⟩ := (parseU64_eq_some hl).1 hp
    have hd' : ds ≠ [] := by
      rintro rfl
      exact hne rfl
    rw [head?_append_of_ne_nil _ hd'] at h
    rw [unsigned_of_ne h] at hd ⊢
    exact ⟨ds, u, rfl, List.length_pos_iff.2 hd', hl, hd, rfl⟩
  · rintro ⟨ds, u, rfl, hps, hl, hd, rfl⟩
    have hne : ds ≠ [] := List.length_pos_iff.1 hps
    rw [head?_append_of_ne_nil _ hne] at h
    have hu := unsigned_of_ne h
    refine ⟨ds, u, _, rfl, hl, (parseU64_eq_some hl).2 ?_, rfl⟩
    rw [hu]
    exact ⟨hne, hd, rfl⟩

/-- A plus sign, one to seven digits and a unit. -/
def IsSigned (value : Bytes) : Prop :=
  ∃ (digits : Bytes) (unit : TimeoutUnit), value = '+'.toUInt8 :: (digits ++ [unit.symbol]) ∧ 1 ≤ digits.length ∧
    digits.length ≤ 7 ∧ ∀ b ∈ digits, IsDigit b

theorem head?_of_isTimeout (h : IsTimeout value d) : value.head? ≠ some '+'.toUInt8 := by
  obtain ⟨ds, u, rfl, hps, -, hd, -⟩ := h
  cases ds with
  | nil => cases hps
  | cons b ds =>
    rw [cons_append, head?_cons, ne_eq, Option.some.injEq]
    rintro rfl
    exact absurd (hd _ mem_cons_self) (by decide)

theorem isSigned_of_accepted (hplus : value.head? = some '+'.toUInt8) (h : Accepted value d) : IsSigned value := by
  obtain ⟨ds, u, n, rfl, hl, hp, rfl⟩ := h
  obtain ⟨hne, hd, -⟩ := (parseU64_eq_some hl).1 hp
  cases ds with
  | nil => exact absurd rfl hne
  | cons b ds =>
    obtain rfl : b = '+'.toUInt8 := by simpa using hplus
    rw [length_cons] at hl
    exact ⟨ds, u, rfl, List.length_pos_iff.2 hne, by omega, hd⟩

theorem accepted_of_isSigned (h : IsSigned value) : ∃ duration, Accepted value duration := by
  obtain ⟨ds, u, rfl, hps, hl, hd⟩ := h
  have hl' : ('+'.toUInt8 :: ds).length ≤ 8 := by
    rw [length_cons]
    omega
  exact ⟨_, '+'.toUInt8 :: ds, u, _, rfl, hl', (parseU64_eq_some hl').2 ⟨List.length_pos_iff.1 hps, hd, rfl⟩, rfl⟩

/-- Among the texts with a plus sign only the signed timeouts are accepted, and none of them is a timeout. -/
theorem accepted_iff_isTimeout_iff :
    (∀ duration, Accepted value duration ↔ IsTimeout value duration) ↔ ¬ IsSigned value := by
  constructor
  · intro h hs
    obtain ⟨duration, ha⟩ := accepted_of_isSigned hs
    refine head?_of_isTimeout ((h duration).1 ha) ?_
    obtain ⟨ds, u, rfl, -⟩ := hs
    rfl
  · intro hs duration
    by_cases hplus : value.head? = some '+'.toUInt8
    · exact iff_of_false (fun ha => hs (isSigned_of_accepted hplus ha)) fun ht => head?_of_isTimeout ht hplus
    · exact accepted_iff_isTimeout hplus duration

/-- The parsers agree; they accept exactly the timeouts, as what these stand for, unless the value is a timeout of at
most seven digits with a plus sign before it. -/
theorem parsers_agree (value : Bytes) {headers : HeaderMap} (hvalue : headers.get grpcTimeoutHeader = some value) :
    (∀ duration,
      (TonicXds.parseGrpcTimeout value = .ok duration ↔ TonicXds.extractGrpcTimeout headers = .ok (some duration)) ∧
      (TonicXds.parseGrpcTimeout value = .ok duration ↔
        TonicTransport.tryParseGrpcTimeout headers = .ok (.ok (some duration))) ∧
      (TonicXds.parseGrpcTimeout value = .ok duration ↔ HyperServer.parseGrpcTimeout value = .ok (some duration))) ∧
    ((∀ duration, TonicXds.parseGrpcTimeout value = .ok duration ↔ IsTimeout value duration) ↔ ¬ IsSigned value) := by
  simp only [TonicXds.parseGrpcTimeout_eq_ok, TonicXds.extractGrpcTimeout_eq_some hvalue,
    TonicTransport.tryParseGrpcTimeout_eq_some hvalue, HyperServer.parseGrpcTimeout_eq_some]
  exact ⟨fun _ => ⟨trivial, trivial, trivial⟩, accepted_iff_isTimeout_iff⟩

def timeoutHeaders (value : Bytes) : HeaderMap := { entries := [(grpcTimeoutHeader, value)] }

theorem parsers_agree_ninety_minutes : IsTimeout (utf8 "90M") (5400 * 10 ^ 9) := by
  have hv : (timeoutHeaders (utf8 "90M")).get grpcTimeoutHeader = some (utf8 "90M") := by decide
  refine ((parsers_agree (utf8 "90M") hv).2.2 ?_ _).1 (by decide)
  rintro ⟨ds, u, heq, -⟩
  have hhead : (utf8 "90M").head? = some '+'.toUInt8 := congrArg List.head? heq
  exact absurd hhead (by decide)

/-- A plus sign before the digits is accepted by all three. -/
theorem plus_sign_accepted :
    (∀ d, ¬ IsTimeout (utf8 "+5S") d) ∧ TonicXds.parseGrpcTimeout (utf8 "+5S") = .ok (.fromSecs 5) ∧
      TonicTransport.tryParseGrpcTimeout (timeoutHeaders (utf8 "+5S")) = .ok (.ok (some (.fromSecs 5))) ∧
      HyperServer.parseGrpcTimeout (utf8 "+5S") = .ok (some (.fromSecs 5)) := by
  refine ⟨?_, by decide, by decide, by decide⟩
  rintro d ⟨ds, u, heq, _, _, hd, _⟩
  have hp : utf8 "+5S" = [43, 53] ++ [83] := by decide
  obtain ⟨rfl, _⟩ := append_inj' (hp.symm.trans heq) rfl
  exact absurd (hd 43 mem_cons_self) (by decide)

end GrpcTimeout
