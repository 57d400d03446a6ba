import GrpcRust.Lib.Bytes
/-!
# Base64

The standard alphabet. Encoding pads or not; decoding does not mind, as an engine with
`DecodePaddingMode::Indifferent`.
-/

namespace Lib.Base64

open Bytes List

def alphabet : Bytes := utf8 "ABCDEFGHIJKLMNOPQRSTUVWXYZabcdefghijklmnopqrstuvwxyz0123456789+/"

def digit (n : Nat) : UInt8 := alphabet.getD n 0

def padding (pad : Bool) (n : Nat) : Bytes := if pad then List.replicate n 61 else []

def encode (pad : Bool) : Bytes → Bytes
  | a :: b :: c :: rest =>
    digit (a.toNat / 4) :: digit (a.toNat % 4 * 16 + b.toNat / 16) ::
      digit (b.toNat % 16 * 4 + c.toNat / 64) :: digit (c.toNat % 64) :: encode pad rest
  | [a, b] =>
    [digit (a.toNat / 4), digit (a.toNat % 4 * 16 + b.toNat / 16), digit (b.toNat % 16 * 4)] ++ padding pad 1
  | [a] => [digit (a.toNat / 4), digit (a.toNat % 4 * 16)] ++ padding pad 2
  | [] => []

theorem length_alphabet : alphabet.length = 64 := by decide

theorem digit_mem_alphabet {n : Nat} (h : n < 64) : digit n ∈ alphabet := by
  have hlt : n < alphabet.length := length_alphabet ▸ h
  simp [digit, hlt]

theorem digit_visible {n : Nat} (h : n < 64) : 32 ≤ digit n ∧ digit n < 127 := by
  have hall : alphabet.all (fun b => 32 ≤ b && b < 127) = true := by decide
  simpa using List.all_eq_true.1 hall _ (digit_mem_alphabet h)

variable {bs : Bytes}

theorem digit_ne_padding {n : Nat} (h : n < 64) : digit n ≠ 61 := by
  have hall : ∀ b ∈ alphabet, b ≠ 61 := by decide +kernel
  exact hall _ (digit_mem_alphabet h)

theorem encode_eq_map_digit (bs : Bytes) : ∃ ns : List Nat, (∀ n ∈ ns, n < 64) ∧ encode false bs = ns.map digit := by
  induction bs using encode.induct with
  | case1 a b c bs ih =>
    have := a.toNat_lt
    have := b.toNat_lt
    have := c.toNat_lt
    obtain ⟨ns, hlt, he⟩ := ih
    refine ⟨a.toNat / 4 :: (a.toNat % 4 * 16 + b.toNat / 16) :: (b.toNat % 16 * 4 + c.toNat / 64) ::
      c.toNat % 64 :: ns, ?_, by simp [encode, he]⟩
    simp only [forall_mem_cons]
    exact ⟨by omega, by omega, by omega, by omega, hlt⟩
  | case2 a b =>
    have := a.toNat_lt
    have := b.toNat_lt
    refine ⟨[a.toNat / 4, a.toNat % 4 * 16 + b.toNat / 16, b.toNat % 16 * 4], ?_, by simp [encode, padding]⟩
    simp only [forall_mem_cons, not_mem_nil, false_implies, implies_true, and_true]
    omega
  | case3 a =>
    have := a.toNat_lt
    refine ⟨[a.toNat / 4, a.toNat % 4 * 16], ?_, by simp [encode, padding]⟩
    simp only [forall_mem_cons, not_mem_nil, false_implies, implies_true, and_true]
    omega
  | case4 => exact ⟨[], nofun, rfl⟩

theorem visible_of_mem_encode {b : UInt8} (h : b ∈ encode false bs) : 32 ≤ b ∧ b < 127 := by
  obtain ⟨ns, hlt, he⟩ := encode_eq_map_digit bs
  obtain ⟨n, hn, rfl⟩ := List.mem_map.1 (he ▸ h)
  exact digit_visible (hlt n hn)

theorem padding_notMem_encode : 61 ∉ encode false bs := by
  obtain ⟨ns, hlt, he⟩ := encode_eq_map_digit bs
  rw [he]
  intro h
  obtain ⟨n, hn, hd⟩ := List.mem_map.1 h
  exact digit_ne_padding (hlt n hn) hd

/-! ## Decoding -/

def value? (b : UInt8) : Option Nat := alphabet.idxOf? b

def decodeDigits (digits : Bytes) : Option Bytes :=
  match digits.mapM value? with
  | some [x, y] => if y % 16 = 0 then some [UInt8.ofNat (x * 4 + y / 16)] else none
  | some [x, y, z] =>
    if z % 4 = 0 then some [UInt8.ofNat (x * 4 + y / 16), UInt8.ofNat (y % 16 * 16 + z / 4)] else none
  | some [x, y, z, w] =>
    some [UInt8.ofNat (x * 4 + y / 16), UInt8.ofNat (y % 16 * 16 + z / 4), UInt8.ofNat (z % 4 * 64 + w)]
  | _ => none

def decodeSuffix (suffix : Bytes) : Option Bytes :=
  let digits := suffix.takeWhile (· ≠ 61)
  if (suffix.drop digits.length).all (· == 61) then decodeDigits digits else none

def decode : Bytes → Option Bytes
  | [] => some []
  | a :: b :: c :: d :: rest =>
    if rest.isEmpty then decodeSuffix [a, b, c, d]
    else (decodeDigits [a, b, c, d]).bind fun bytes => (decode rest).map (bytes ++ ·)
  | suffix => decodeSuffix suffix

example : decode (utf8 "YR") = none := by decide

/-! ## Decoding what was encoded -/

theorem mapM_value?_digit : ∀ {ns : List Nat}, (∀ n ∈ ns, n < 64) → (ns.map digit).mapM value? = some ns
  | [], _ => rfl
  | n :: ns, h => by
    have hall : ∀ k : Fin 64, value? (digit k) = some k.val := by decide +kernel
    have hn : value? (digit n) = some n := hall ⟨n, h n mem_cons_self⟩
    simp [hn, mapM_value?_digit fun k hk => h k (mem_cons_of_mem n hk)]

theorem decodeSuffix_append {ns : List Nat} (h : ∀ n ∈ ns, n < 64) (k : Nat) :
    decodeSuffix (ns.map digit ++ List.replicate k 61) = decodeDigits (ns.map digit) := by
  have hdg : ∀ d ∈ ns.map digit, decide (d ≠ 61) = true := by
    intro d hd
    obtain ⟨n, hn, rfl⟩ := List.mem_map.1 hd
    exact decide_eq_true (digit_ne_padding (h n hn))
  have ht : (ns.map digit ++ List.replicate k 61).takeWhile (· ≠ 61) = ns.map digit := by
    rw [takeWhile_append_of_pos hdg]
    cases k <;> simp [replicate_succ]
  simp only [decodeSuffix, ht, drop_left]
  simp

theorem decode_encode_three (pad : Bool) (a b c : UInt8) (rest : Bytes) :
    decode (encode pad [a, b, c] ++ rest) = (decode rest).map ([a, b, c] ++ ·) := by
  have := a.toNat_lt
  have := b.toNat_lt
  have := c.toNat_lt
  have ha : a.toNat / 4 * 4 + (a.toNat % 4 * 16 + b.toNat / 16) / 16 = a.toNat := by omega
  have hb : (a.toNat % 4 * 16 + b.toNat / 16) % 16 * 16 + (b.toNat % 16 * 4 + c.toNat / 64) / 4 = b.toNat := by omega
  have hc : (b.toNat % 16 * 4 + c.toNat / 64) % 4 * 64 + c.toNat % 64 = c.toNat := by omega
  let ns := [a.toNat / 4, a.toNat % 4 * 16 + b.toNat / 16, b.toNat % 16 * 4 + c.toNat / 64, c.toNat % 64]
  have hns : ∀ n ∈ ns, n < 64 := by simp [ns]; omega
  have hd : decodeDigits (ns.map digit) = some [a, b, c] := by
    simp only [decodeDigits, mapM_value?_digit hns, ns, ha, hb, hc, UInt8.ofNat_toNat]
  have hs := decodeSuffix_append hns 0
  rw [hd, replicate_zero, append_nil] at hs
  cases rest with
  | nil => exact hs
  | cons r rest => exact congrArg (·.bind fun bs => (decode (r :: rest)).map (bs ++ ·)) hd

theorem decode_encode_append (pad : Bool) (h : bs.length % 3 = 0) (r : Bytes) :
    decode (encode pad bs ++ r) = (decode r).map (bs ++ ·) := by
  induction bs using encode.induct with
  | case1 a b c bs ih =>
    have hl : bs.length % 3 = 0 := by simp only [length_cons] at h; omega
    have := decode_encode_three pad a b c (encode pad bs ++ r)
    rw [ih hl, Option.map_map] at this
    exact this
  | case2 a b => cases h
  | case3 a => cases h
  | case4 => exact (Option.map_id' (x := decode r)).symm

theorem decode_encode_short (pad : Bool) {bytes : Bytes} (h : bytes.length < 3) :
    decode (encode pad bytes) = some bytes := by
  match bytes, h with
  | [], _ => rfl
  | [a], _ =>
    have := a.toNat_lt
    have ha : a.toNat / 4 * 4 + a.toNat % 4 * 16 / 16 = a.toNat := by omega
    have hlast : a.toNat % 4 * 16 % 16 = 0 := by omega
    let ns := [a.toNat / 4, a.toNat % 4 * 16]
    have hns : ∀ n ∈ ns, n < 64 := by simp [ns]; omega
    have hd : decodeDigits (ns.map digit) = some [a] := by
      simp only [decodeDigits, mapM_value?_digit hns, ns, hlast, if_true, ha, UInt8.ofNat_toNat]
    cases pad
    · exact (decodeSuffix_append hns 0).trans hd
    · exact (decodeSuffix_append hns 2).trans hd
  | [a, b], _ =>
    have := a.toNat_lt
    have := b.toNat_lt
    have ha : a.toNat / 4 * 4 + (a.toNat % 4 * 16 + b.toNat / 16) / 16 = a.toNat := by omega
    have hb : (a.toNat % 4 * 16 + b.toNat / 16) % 16 * 16 + b.toNat % 16 * 4 / 4 = b.toNat := by omega
    have hlast : b.toNat % 16 * 4 % 4 = 0 := by omega
    let ns := [a.toNat / 4, a.toNat % 4 * 16 + b.toNat / 16, b.toNat % 16 * 4]
    have hns : ∀ n ∈ ns, n < 64 := by simp [ns]; omega
    have hd : decodeDigits (ns.map digit) = some [a, b] := by
      simp only [decodeDigits, mapM_value?_digit hns, ns, hlast, if_true, ha, hb, UInt8.ofNat_toNat]
    cases pad
    · exact (decodeSuffix_append hns 0).trans hd
    · exact (decodeSuffix_append hns 1).trans hd

theorem encode_append (pad : Bool) (h : bs.length % 3 = 0) (rest : Bytes) :
    encode pad (bs ++ rest) = encode pad bs ++ encode pad rest := by
  induction bs using encode.induct with
  | case1 a b c bs ih =>
    have hl : bs.length % 3 = 0 := by simp only [length_cons] at h; omega
    simp [encode, ih hl]
  | case2 a b => cases h
  | case3 a => cases h
  | case4 => rfl

theorem decode_encode (pad : Bool) (bytes : Bytes) : decode (encode pad bytes) = some bytes := by
  have hw : (bytes.take (bytes.length / 3 * 3)).length % 3 = 0 := by rw [length_take]; omega
  have hrest : (bytes.drop (bytes.length / 3 * 3)).length < 3 := by rw [length_drop]; omega
  rw [← take_append_drop (bytes.length / 3 * 3) bytes, encode_append pad hw, decode_encode_append pad hw,
    decode_encode_short pad hrest]
  rfl

/-! ## What decodes -/

theorem eq_digit_of_value? {b : UInt8} {n : Nat} (h : value? b = some n) : n < 64 ∧ b = digit n := by
  obtain ⟨hn, hb, -⟩ := List.idxOf?_eq_some_iff.1 h
  refine ⟨length_alphabet ▸ hn, ?_⟩
  simp [digit, hn, hb]

theorem eq_map_digit_of_mapM {ds : Bytes} {ns : List Nat} (h : ds.mapM value? = some ns) :
    (∀ n ∈ ns, n < 64) ∧ ds = ns.map digit := by
  induction ds generalizing ns with
  | nil =>
    obtain rfl : [] = ns := by simpa using h
    exact ⟨nofun, rfl⟩
  | cons d ds ih =>
    rw [mapM_cons] at h
    obtain ⟨n, hn, h⟩ := Option.bind_eq_some_iff.1 h
    obtain ⟨ns, hns, h⟩ := Option.bind_eq_some_iff.1 h
    cases h
    obtain ⟨hlt, rfl⟩ := eq_digit_of_value? hn
    obtain ⟨hall, rfl⟩ := ih hns
    exact ⟨forall_mem_cons.2 ⟨hlt, hall⟩, rfl⟩

theorem decodeDigits_eq_some {ds bytes : Bytes} (h : decodeDigits ds = some bytes) :
    ds = encode false bytes ∧ (ds.length = 4 → bytes.length = 3) := by
  unfold decodeDigits at h
  split at h
  · rename_i x y hd
    obtain ⟨hlt, rfl⟩ := eq_map_digit_of_mapM hd
    simp only [forall_mem_cons, not_mem_nil, false_implies, implies_true, and_true] at hlt
    split at h
    · cases h
      have hx : (x * 4 + y / 16) % 2 ^ 8 / 4 = x := by omega
      have hy : (x * 4 + y / 16) % 2 ^ 8 % 4 * 16 = y := by omega
      simp only [encode, UInt8.toNat_ofNat', hx, hy]
      simp [padding]
    · cases h
  · rename_i x y z hd
    obtain ⟨hlt, rfl⟩ := eq_map_digit_of_mapM hd
    simp only [forall_mem_cons, not_mem_nil, false_implies, implies_true, and_true] at hlt
    split at h
    · cases h
      have hx : (x * 4 + y / 16) % 2 ^ 8 / 4 = x := by omega
      have hy : (x * 4 + y / 16) % 2 ^ 8 % 4 * 16 + (y % 16 * 16 + z / 4) % 2 ^ 8 / 16 = y := by omega
      have hz : (y % 16 * 16 + z / 4) % 2 ^ 8 % 16 * 4 = z := by omega
      simp only [encode, UInt8.toNat_ofNat', hx, hy, hz]
      simp [padding]
    · cases h
  · rename_i x y z w hd
    obtain ⟨hlt, rfl⟩ := eq_map_digit_of_mapM hd
    simp only [forall_mem_cons, not_mem_nil, false_implies, implies_true, and_true] at hlt
    cases h
    have hx : (x * 4 + y / 16) % 2 ^ 8 / 4 = x := by omega
    have hy : (x * 4 + y / 16) % 2 ^ 8 % 4 * 16 + (y % 16 * 16 + z / 4) % 2 ^ 8 / 16 = y := by omega
    have hz : (y % 16 * 16 + z / 4) % 2 ^ 8 % 16 * 4 + (z % 4 * 64 + w) % 2 ^ 8 / 64 = z := by omega
    have hw : (z % 4 * 64 + w) % 2 ^ 8 % 64 = w := by omega
    simp only [encode, UInt8.toNat_ofNat', hx, hy, hz, hw]
    simp
  · cases h

theorem decodeSuffix_eq_some {suffix bytes : Bytes} (h : decodeSuffix suffix = some bytes) :
    ∃ k, suffix = encode false bytes ++ List.replicate k 61 := by
  unfold decodeSuffix at h
  dsimp only at h
  split at h
  · rename_i hall
    refine ⟨(suffix.drop (suffix.takeWhile (· ≠ 61)).length).length, ?_⟩
    have hr : suffix.drop (suffix.takeWhile (· ≠ 61)).length = List.replicate _ 61 :=
      List.eq_replicate_length.2 fun b hb => eq_of_beq (List.all_eq_true.1 hall b hb)
    rw [← (decodeDigits_eq_some h).1, ← hr]
    exact (List.prefix_iff_eq_append.1 ( takeWhile_prefix _)).symm
  · cases h

/-- A text that decodes is the encoding, and padding. -/
theorem decode_eq_some {text bytes : Bytes} (h : decode text = some bytes) :
    ∃ k, text = encode false bytes ++ List.replicate k 61 := by
  induction text using decode.induct generalizing bytes with
  | case1 =>
    cases h
    exact ⟨0, rfl⟩
  | case2 a b c d rest hr =>
    rw [decode, if_pos hr] at h
    rw [List.isEmpty_iff.1 hr]
    exact decodeSuffix_eq_some h
  | case3 a b c d rest hr ih =>
    rw [decode, if_neg hr] at h
    obtain ⟨first, hf, h⟩ := Option.bind_eq_some_iff.1 h
    obtain ⟨others, ho, rfl⟩ := Option.map_eq_some_iff.1 h
    obtain ⟨k, hk⟩ := ih ho
    obtain ⟨hd, hl⟩ := decodeDigits_eq_some hf
    refine ⟨k, ?_⟩
    rw [encode_append false (by rw [hl rfl]), ← hd, hk]
    simp
  | case4 suffix h1 h2 =>
    rw [decode] at h
    · exact decodeSuffix_eq_some h
    · exact h1
    · exact h2

theorem takeWhile_of_decode {text bytes : Bytes} (h : decode text = some bytes) :
    text.takeWhile (· ≠ 61) = encode false bytes := by
  obtain ⟨k, rfl⟩ := decode_eq_some h
  rw [takeWhile_append_of_pos]
  · cases k <;> simp [replicate_succ]
  · intro b hb
    exact decide_eq_true fun heq => padding_notMem_encode (heq ▸ hb)

/-- Two texts that decode have the same bytes exactly if they differ in padding only. -/
theorem decode_eq_iff {text text' bytes bytes' : Bytes} (h : decode text = some bytes)
    (h' : decode text' = some bytes') : bytes = bytes' ↔ text.takeWhile (· ≠ 61) = text'.takeWhile (· ≠ 61) := by
  rw [takeWhile_of_decode h, takeWhile_of_decode h']
  constructor
  · rintro rfl
    rfl
  · intro he
    have := congrArg decode he
    rwa [decode_encode, decode_encode, Option.some.injEq] at this

theorem eq_padding_of_decode {text rest bytes : Bytes} (h : decode (text ++ 61 :: rest) = some bytes) :
    ∀ b ∈ rest, b = 61 := by
  obtain ⟨k, hk⟩ := decode_eq_some h
  -- The first padding character is past the digits, and after them there is nothing else.
  have hd : (text ++ 61 :: rest).takeWhile (· ≠ 61) = text.takeWhile (· ≠ 61) := by
    rw [takeWhile_append]
    split
    · rename_i hl
      rw [( takeWhile_prefix _).eq_of_length hl]
      simp
    · rfl
  rw [takeWhile_of_decode h] at hd
  intro b hb
  have hl : (encode false bytes).length ≤ text.length := by
    rw [hd]
    exact ( takeWhile_prefix _).length_le
  have hr : 61 :: rest = (List.replicate k 61).drop (text.length - (encode false bytes).length) := by
    have := congrArg (List.drop text.length) hk
    rwa [drop_left, drop_append, drop_of_length_le hl, nil_append] at this
  have hmem : b ∈ List.replicate k 61 := by
    refine mem_of_mem_drop (i := text.length - (encode false bytes).length) ?_
    rw [← hr]
    exact mem_cons_of_mem _ hb
  exact eq_of_mem_replicate hmem

theorem length_encode_mod (bs : Bytes) : (encode true bs).length % 4 = 0 := by
  induction bs using encode.induct with
  | case1 a b c bs ih =>
    simp only [encode, length_cons]
    omega
  | case2 a b => simp [encode, padding]
  | case3 a => simp [encode, padding]
  | case4 => rfl

/-- Padding ends the encoding of bytes that do not fill their last group. -/
theorem encode_eq_concat (h : bs.length % 3 ≠ 0) : ∃ text, encode true bs = text ++ [61] := by
  induction bs using encode.induct with
  | case1 a b c bs ih =>
    have hl : bs.length % 3 ≠ 0 := by simp only [length_cons] at h; omega
    obtain ⟨text, ht⟩ := ih hl
    rw [encode, ht]
    exact ⟨_ :: _ :: _ :: _ :: text, rfl⟩
  | case2 a b => exact ⟨_, rfl⟩
  | case3 a => exact ⟨[_, _, 61], rfl⟩
  | case4 => exact absurd rfl h

theorem eq_nil_of_encode_padding (h : ∀ b ∈ encode true bs, b = 61) : bs = [] := by
  have hfirst : ∀ a : UInt8, digit (a.toNat / 4) ≠ 61 := fun a =>
    digit_ne_padding (by have := a.toNat_lt; omega)
  match bs with
  | [] => rfl
  | [a] => exact absurd (h _ mem_cons_self) (hfirst a)
  | [a, _] => exact absurd (h _ mem_cons_self) (hfirst a)
  | a :: _ :: _ :: _ => exact absurd (h _ mem_cons_self) (hfirst a)

end Lib.Base64
