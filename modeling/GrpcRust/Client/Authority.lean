import GrpcRust.Lib.Decimal
/-!
# Authorities

`Authority` of `credentials/mod.rs`, and `authority_with_default_port` of the proxy resolver.
-/

namespace Credentials

open Lib Lib.Bytes List

structure Authority where
  host : Bytes
  port : Option UInt16
deriving DecidableEq

/-- `str::parse::<u16>`. -/
def parseU16 (s : Bytes) : Option UInt16 := ((parseDigits (unsigned s)).filter (· < 2 ^ 16)).map UInt16.ofNat

/-- `split_once("]:")`. -/
def splitOnce : Bytes → Option (Bytes × Bytes)
  | 93 :: 58 :: rest => some ([], rest)
  | b :: rest => (splitOnce rest).map fun (host, port) => (b :: host, port)
  | [] => none

/-- `rsplit_once(':')`. -/
def rsplitOnce (s : Bytes) : Option (Bytes × Bytes) :=
  match s.reverse.dropWhile (· ≠ 58) with
  | [] => none
  | _ :: host => some (host.reverse, (s.reverse.takeWhile (· ≠ 58)).reverse)

namespace Authority

def fromBracketed : Bytes → Option Authority
  | 91 :: stripped => (splitOnce stripped).bind fun (host, port) => (parseU16 port).map fun port => ⟨host, some port⟩
  | _ => none

def fromUnbracketed (s : Bytes) : Option Authority :=
  (rsplitOnce s).bind fun (host, port) =>
    if 58 ∈ host then none else (parseU16 port).map fun port => ⟨host, some port⟩

def fromHostPortStr (s : Bytes) : Authority := (fromBracketed s <|> fromUnbracketed s).getD ⟨s, none⟩

def hostPortString (a : Authority) : Bytes :=
  match a.port with
  | none => a.host
  | some port =>
    if 58 ∈ a.host then 91 :: a.host ++ 93 :: 58 :: decimal port.toNat else a.host ++ 58 :: decimal port.toNat

def withDefaultPort (s : Bytes) (defaultPort : UInt16) : Bytes :=
  let a := fromHostPortStr s
  hostPortString (if a.port = none then { a with port := some defaultPort } else a)

end Authority

/-! ## Hosts and their texts -/

structure Host where
  text : Bytes
  ipv6 : Bool
  colon : 58 ∈ text ↔ ipv6 = true
  brackets : 91 ∉ text ∧ 93 ∉ text

def Host.authorityText (host : Host) (port : Option UInt16) : Bytes :=
  (if host.ipv6 then 91 :: host.text ++ [93] else host.text) ++ port.elim [] fun port => 58 :: decimal port.toNat

section
variable {s host port : Bytes}

theorem parseU16_decimal (port : UInt16) : parseU16 (decimal port.toNat) = some port := by
  have hd : ∀ b ∈ decimal port.toNat, IsDigit b := fun b hb => isDigit_of_mem_decimal hb
  have hu : unsigned (decimal port.toNat) = decimal port.toNat :=
    unsigned_of_ne fun h => absurd (hd _ (mem_of_head? h)) (by decide)
  have hne : decimal port.toNat ≠ [] := ne_nil_of_length_pos (length_decimal_pos _)
  have hp : parseDigits (decimal port.toNat) = some port.toNat :=
    parseDigits_eq_some.2 ⟨hne, hd, (digitsValue_decimal _).symm⟩
  rw [parseU16, hu, hp, Option.filter_some, if_pos (by simpa using port.toNat_lt)]
  simp

theorem parseU16_none (h : 93 ∈ s) : parseU16 s = none := by
  cases hp : parseDigits (unsigned s) with
  | none => simp [parseU16, hp]
  | some n =>
    obtain ⟨-, hd, -⟩ := parseDigits_eq_some.1 hp
    rcases mem_unsigned_or h with he | he
    · cases he
    · exact absurd (hd _ he) (by decide)

theorem colon_not_mem_decimal (n : Nat) : 58 ∉ decimal n := fun h => absurd (isDigit_of_mem_decimal h) (by decide)

theorem splitOnce_cons {b : UInt8} (h : b ≠ 93) (r : Bytes) :
    splitOnce (b :: r) = (splitOnce r).map fun (host, p) => (b :: host, p) := by
  rw [splitOnce]
  simp [h]

theorem splitOnce_append (h : 93 ∉ host) : splitOnce (host ++ 93 :: 58 :: port) = some (host, port) := by
  induction host with
  | nil => rfl
  | cons b host ih =>
    rw [mem_cons, not_or] at h
    rw [cons_append, splitOnce_cons (Ne.symm h.1), ih h.2]
    rfl

theorem splitOnce_last (h : 93 ∉ host) : splitOnce (host ++ [93]) = none := by
  induction host with
  | nil => rfl
  | cons b host ih =>
    rw [mem_cons, not_or] at h
    rw [cons_append, splitOnce_cons (Ne.symm h.1), ih h.2]
    rfl

theorem rsplitOnce_append (h : 58 ∉ port) : rsplitOnce (host ++ 58 :: port) = some (host, port) := by
  have hp : ∀ b ∈ port.reverse, decide (b ≠ 58) = true := by
    intro b hb
    rw [decide_eq_true_eq]
    rintro rfl
    exact h (List.mem_reverse.1 hb)
  have hr : (host ++ 58 :: port).reverse = port.reverse ++ 58 :: host.reverse := by simp
  rw [rsplitOnce, hr, dropWhile_append_of_pos hp, takeWhile_append_of_pos hp]
  simp

theorem rsplitOnce_none (h : 58 ∉ s) : rsplitOnce s = none := by
  have hd : s.reverse.dropWhile (· ≠ 58) = [] := by
    rw [dropWhile_eq_nil_iff]
    intro b hb
    rw [decide_eq_true_eq]
    rintro rfl
    exact h (List.mem_reverse.1 hb)
  rw [rsplitOnce, hd]

theorem fromBracketed_none (h : 91 ∉ s) : Authority.fromBracketed s = none := by
  unfold Authority.fromBracketed
  split
  · simp at h
  · rfl

end

namespace Authority

theorem fromHostPortStr_authorityText (host : Host) (port : Option UInt16) : fromHostPortStr (host.authorityText port) =
      if host.ipv6 = true ∧ port = none then ⟨91 :: host.text ++ [93], none⟩ else ⟨host.text, port⟩ := by
  have h91 : ∀ n, 91 ∉ decimal n := fun n h => absurd (isDigit_of_mem_decimal h) (by decide)
  cases hv : host.ipv6 with
  | false =>
    have hc : 58 ∉ host.text := fun h => by simp [host.colon.1 h] at hv
    have hb : fromBracketed (host.authorityText port) = none := by
      cases port <;> exact fromBracketed_none (by simp [Host.authorityText, hv, host.brackets, h91])
    cases port with
    | none =>
      have hu : host.authorityText none = host.text := by simp [Host.authorityText, hv]
      rw [fromHostPortStr, hb, hu, fromUnbracketed, rsplitOnce_none hc]
      simp
    | some p =>
      have hu : host.authorityText (some p) = host.text ++ 58 :: decimal p.toNat := by simp [Host.authorityText, hv]
      rw [fromHostPortStr, hb, hu, fromUnbracketed, rsplitOnce_append (colon_not_mem_decimal _)]
      simp [hc, parseU16_decimal]
  | true =>
    cases port with
    | none =>
      obtain ⟨x, y, hxy, hx⟩ := eq_append_cons_of_mem (List.mem_reverse.2 (host.colon.2 hv))
      have hs : 91 :: host.text ++ [93] = (91 :: y.reverse) ++ 58 :: (x.reverse ++ [93]) := by
        rw [← reverse_reverse host.text, hxy]
        simp
      have hu : host.authorityText none = 91 :: host.text ++ [93] := by simp [Host.authorityText, hv]
      have hb : fromBracketed (91 :: (host.text ++ [93])) = none := by
        simp [fromBracketed, splitOnce_last host.brackets.2]
      have hr : fromUnbracketed (91 :: host.text ++ [93]) = none := by
        rw [fromUnbracketed, hs, rsplitOnce_append (by simpa using hx)]
        simp [parseU16_none]
      rw [fromHostPortStr, hu, cons_append, hb, ← cons_append, hr]
      simp
    | some p =>
      have hu : host.authorityText (some p) = 91 :: (host.text ++ 93 :: 58 :: decimal p.toNat) := by
        simp [Host.authorityText, hv]
      rw [fromHostPortStr, hu, fromBracketed, splitOnce_append host.brackets.2]
      simp [parseU16_decimal]

/-- The text is that of the same host and port; an IPv6 address without port keeps its brackets. -/
theorem authority_rendered (host : Host) (port : Option UInt16) (defaultPort : UInt16) :
    withDefaultPort (host.authorityText port) defaultPort = host.authorityText (some (port.getD defaultPort)) ↔
      (host.ipv6 = true → port ≠ none) := by
  rw [withDefaultPort, fromHostPortStr_authorityText]
  cases hv : host.ipv6 with
  | false =>
    have hc : 58 ∉ host.text := fun h => by simp [host.colon.1 h] at hv
    cases port <;> simp [hostPortString, Host.authorityText, hv, hc]
  | true =>
    have hc := host.colon.2 hv
    cases port with
    | some p => simp [hostPortString, Host.authorityText, hv, hc]
    | none =>
      simp only [hostPortString, Host.authorityText, hv]
      refine iff_of_false (fun h => ?_) (by simp)
      have hl := congrArg List.length h
      simp [hc] at hl
      omega

/-- `[::1]`. -/
theorem ipv6_without_port : withDefaultPort (utf8 "[::1]") 443 = utf8 "[[::1]]:443" := by decide +kernel

end Authority

end Credentials
