import GrpcRust.Lib.Utf8
import GrpcRust.GrpcXds.RouteMatching
import GrpcRust.TonicXds.StringMatcher
/-!
# Two string matchers

`resource/string_matcher.rs` of both stacks, which cut bytes by offsets, against the characters in lower case.
-/

namespace XdsStacks.Strings

open Lib Lib.Bytes

/-! ## Slices -/

structure SlicePanic where
  start : Nat
  stop : Nat
  len : Nat

def slice (s : Bytes) (start stop : Nat) : Except SlicePanic Bytes :=
  if start ≤ stop ∧ stop ≤ s.length then .ok ((s.take stop).drop start) else .error ⟨start, stop, s.length⟩

theorem slice_of_le {s : Bytes} {st stop : Nat} (hs : st ≤ stop) (hst : stop ≤ s.length) :
    slice s st stop = .ok ((s.take stop).drop st) := if_pos ⟨hs, hst⟩

def checkedSub (n m : Nat) : Option Nat := if m ≤ n then some (n - m) else none

def endEqIgnoreAsciiCase (s pat : Bytes) : Except SlicePanic Bool :=
  match checkedSub s.length pat.length with
  | some start => do return eqIgnoreAsciiCase (← slice s start s.length) pat
  | none => return false

theorem endEqIgnoreAsciiCase_eq (s pat : Bytes) : endEqIgnoreAsciiCase s pat =
    .ok ((if pat.length ≤ s.length then some (s.length - pat.length) else none).any fun st =>
      eqIgnoreAsciiCase (s.drop st) pat) := by
  unfold endEqIgnoreAsciiCase checkedSub
  split_ifs with h
  · dsimp only
    rw [slice_of_le (Nat.sub_le ..) le_rfl, List.take_length]
    rfl
  · rfl

/-- `iter.any(f)`: the first `true` ends it. -/
def anyInOrder {α : Type} (f : α → Except SlicePanic Bool) : List α → Except SlicePanic Bool
  | [] => .ok false
  | a :: l => do
    if ← f a then return true else anyInOrder f l

theorem anyInOrder_eq {α : Type} {f : α → Except SlicePanic Bool} {g : α → Bool} {l : List α}
    (h : ∀ a ∈ l, f a = .ok (g a)) : anyInOrder f l = .ok (l.any g) := by
  induction l with
  | nil => rfl
  | cons a l ih =>
    obtain ⟨hh, ht⟩ := List.forall_mem_cons.1 h
    rw [anyInOrder, hh, List.any_cons]
    cases hg : g a with
    | true => rfl
    | false => exact ih ht

variable {R : Type} [RegexEngine R]

/-! ## `tonic-xds` -/

namespace Tonic

variable (s pat : Bytes)

def startsWithIgnoreAsciiCase : Except SlicePanic Bool :=
  if pat.length ≤ s.length then do return eqIgnoreAsciiCase (← slice s 0 pat.length) pat else return false

def endsWithIgnoreAsciiCase : Except SlicePanic Bool := endEqIgnoreAsciiCase s pat

def containsIgnoreAsciiCase : Except SlicePanic Bool :=
  match checkedSub s.length pat.length with
  | none => return false
  | some maxStart =>
    anyInOrder (fun i => do return eqIgnoreAsciiCase (← slice s i (i + pat.length)) pat) (List.range (maxStart + 1))

def isMatch (matcher : TonicXds.Rds.StringMatcher R) (v : Bytes) : Except SlicePanic Bool :=
  match matcher with
  | .exact value ignoreCase => return if ignoreCase then v.eqIgnoreAsciiCase value else v == value
  | .prefixed value ignoreCase =>
    if ignoreCase then startsWithIgnoreAsciiCase v value else return v.startsWith value
  | .suffixed value ignoreCase =>
    if ignoreCase then endsWithIgnoreAsciiCase v value else return v.endsWith value
  | .contains value ignoreCase =>
    if ignoreCase then containsIgnoreAsciiCase v value else return v.contains value
  | .safeRegex re => return re.isMatch v

theorem startsWithIgnoreAsciiCase_eq :
    startsWithIgnoreAsciiCase s pat = .ok (TonicXds.Rds.startsWithIgnoreAsciiCase s pat) := by
  unfold startsWithIgnoreAsciiCase TonicXds.Rds.startsWithIgnoreAsciiCase
  split_ifs with h
  · rw [slice_of_le (Nat.zero_le _) h]
    simp [h, pure, Except.pure, bind, Except.bind]
  · simp [h, pure, Except.pure]

theorem containsIgnoreAsciiCase_eq :
    containsIgnoreAsciiCase s pat = .ok (TonicXds.Rds.containsIgnoreAsciiCase s pat) := by
  unfold containsIgnoreAsciiCase TonicXds.Rds.containsIgnoreAsciiCase checkedSub
  split_ifs with h
  · refine anyInOrder_eq fun i hi => ?_
    rw [List.mem_range] at hi
    rw [slice_of_le (Nat.le_add_right ..) (by omega), List.drop_take, Nat.add_sub_cancel_left]
    rfl
  · rfl

theorem isMatch_eq (m : TonicXds.Rds.StringMatcher R) (v : Bytes) : isMatch m v = .ok (m.isMatch v) := by
  cases m with
  | exact vl ic => rfl
  | prefixed vl ic =>
    cases ic with
    | true => exact startsWithIgnoreAsciiCase_eq v vl
    | false => rfl
  | suffixed vl ic =>
    cases ic with
    | true => exact endEqIgnoreAsciiCase_eq v vl
    | false => rfl
  | contains vl ic =>
    cases ic with
    | true => exact containsIgnoreAsciiCase_eq v vl
    | false => rfl
  | safeRegex re => rfl

end Tonic

namespace Grpc

def endsWithIgnoreAsciiCase (input suffix : Bytes) : Except SlicePanic Bool := endEqIgnoreAsciiCase input suffix

def isMatch (matcher : GrpcXds.Rds.StringMatcher R) (input : Bytes) : Except SlicePanic Bool :=
  match matcher with
  | .exact l => return if l.ignoreCase then input.eqIgnoreAsciiCase l.value else input == l.value
  | .prefixed l =>
    return if l.ignoreCase then GrpcXds.Rds.startsWithIgnoreAsciiCase input l.value else input.startsWith l.value
  | .suffixed l => if l.ignoreCase then endsWithIgnoreAsciiCase input l.value else return input.endsWith l.value
  | .contains l => return if l.ignoreCase then input.toAsciiLowercase.contains l.value else input.contains l.value
  | .safeRegex regex => return regex.isMatch input

theorem isMatch_eq (m : GrpcXds.Rds.StringMatcher R) (ip : Bytes) : isMatch m ip = .ok (m.isMatch ip) := by
  cases m with
  | exact l => rfl
  | prefixed l => rfl
  | suffixed l =>
    unfold isMatch GrpcXds.Rds.StringMatcher.isMatch
    dsimp only
    split_ifs
    · exact endEqIgnoreAsciiCase_eq ip l.value
    · rfl
  | contains l => rfl
  | safeRegex r => rfl

end Grpc

/-! ## The characters in lower case -/

inductive LiteralKind
  | exact
  | prefixed
  | suffixed
  | contains
deriving DecidableEq

namespace LiteralKind

def pattern : LiteralKind → Bytes → Envoy.MatchPattern
  | exact => .exact
  | prefixed => .prefixed
  | suffixed => .suffixed
  | contains => .contains

def Matches {α : Type} (value input : List α) : LiteralKind → Prop
  | exact => input = value
  | prefixed => value <+: input
  | suffixed => value <:+ input
  | contains => value <:+: input

instance {α : Type} [DecidableEq α] (kind : LiteralKind) (value input : List α) :
    Decidable (kind.Matches value input) :=
  match kind with
  | exact => inferInstanceAs (Decidable (input = value))
  | prefixed => inferInstanceAs (Decidable (value <+: input))
  | suffixed => inferInstanceAs (Decidable (value <:+ input))
  | contains => inferInstanceAs (Decidable (value <:+: input))

theorem matches_encode {v input : List Char} (k : LiteralKind) :
    k.Matches (encode v) (encode input) ↔ k.Matches v input := by
  cases k with
  | exact => exact encode_inj
  | prefixed => exact encode_prefix_iff
  | suffixed => exact encode_suffix_iff
  | contains => exact encode_infix_iff

end LiteralKind

def foldChars (ignoreCase : Bool) (s : String) : List Char := if ignoreCase then s.toList.map Char.toLower else s.toList

theorem foldCase_utf8 (ic : Bool) (s : String) : GrpcXds.Rds.foldCase (utf8 s) ic = encode (foldChars ic s) := by
  cases ic with
  | true => exact (congrArg toAsciiLowercase (utf8_eq_encode s)).trans (toAsciiLowercase_encode s.toList)
  | false => exact utf8_eq_encode s

section
open TonicXds.Rds (StringMatcher)

theorem tonic_isMatch_iff (k : LiteralKind) (v ip : Bytes) (ic : Bool) :
    ∃ t : StringMatcher R, StringMatcher.fromProto ⟨some (k.pattern v), ic⟩ = .ok t ∧
      (t.isMatch ip = true ↔ k.Matches (GrpcXds.Rds.foldCase v ic) (GrpcXds.Rds.foldCase ip ic)) := by
  cases k with
  | exact =>
    refine ⟨_, rfl, ?_⟩
    cases ic with
    | true => exact eqIgnoreAsciiCase_iff
    | false => exact beq_iff_eq
  | prefixed =>
    refine ⟨_, rfl, ?_⟩
    cases ic with
    | true => exact TonicXds.Rds.startsWithIgnoreAsciiCase_iff
    | false => exact startsWith_iff
  | suffixed =>
    refine ⟨_, rfl, ?_⟩
    cases ic with
    | true => exact TonicXds.Rds.endsWithIgnoreAsciiCase_iff
    | false => exact endsWith_iff
  | contains =>
    refine ⟨_, rfl, ?_⟩
    cases ic with
    | true => exact TonicXds.Rds.containsIgnoreAsciiCase_iff
    | false => exact contains_iff

end

section
open GrpcXds.Rds (StringMatcher)

theorem grpc_fromProto_error {k : LiteralKind} {v : Bytes} {ic : Bool} {e : Bytes}
    (h : StringMatcher.fromProto (R := R) ⟨some (k.pattern v), ic⟩ = .error e) : k ≠ .exact ∧ v = [] := by
  cases v with
  | nil =>
    refine ⟨?_, rfl⟩
    rintro rfl
    cases h
  | cons b v => cases k <;> cases h

end

/-! ## One message, two matchers -/

section
open GrpcXds.Rds TonicXds.Rds.StringMatcher

variable {v p : Bytes} {ic : Bool} {g : GrpcXds.Rds.StringMatcher R}

theorem regex_eq {g : SafeRegex R} {t : TonicXds.Rds.SafeRegex R} (hg : SafeRegex.fromStr p = .ok g)
    (ht : TonicXds.Rds.SafeRegex.new p = .ok t) : g.regex = t.regex := by
  unfold SafeRegex.fromStr at hg
  split at hg
  · cases hg
  · obtain ⟨_, _, hg⟩ := bind_eq_ok.1 hg
    obtain ⟨g, hg', hg⟩ := bind_eq_ok.1 hg
    obtain ⟨_, _, ht⟩ := bind_eq_ok.1 ht
    obtain ⟨t, ht', ht⟩ := bind_eq_ok.1 ht
    cases hg
    cases ht
    -- both anchor the pattern in the same way, so one program was compiled
    exact Except.ok.inj (hg'.symm.trans ht')

def Agree (g : GrpcXds.Rds.StringMatcher R) (t : TonicXds.Rds.StringMatcher R) : Prop :=
  ∀ input, g.isMatch input = t.isMatch input

theorem agree_exact (v : Bytes) (ic : Bool) : Agree (R := R) (.ofExact v ic) (.exact v ic) := by
  intro ip
  cases ic with
  | true =>
    rw [Bool.eq_iff_iff]
    simp [StringMatcher.isMatch, StringMatcher.ofExact, Literal.ofValue, foldCase, isMatch, eqIgnoreAsciiCase_iff]
  | false => rfl

theorem agree_prefix (hg : StringMatcher.ofPrefix v ic = .ok g) : Agree g (.prefixed v ic) := by
  obtain ⟨out, hout, hm⟩ := bind_eq_ok.1 hg
  obtain rfl := nonEmptyMatchValue_ok hout
  cases hm
  intro ip
  cases ic with
  | true =>
    rw [Bool.eq_iff_iff]
    simp [StringMatcher.isMatch, Literal.ofValue, foldCase, isMatch, startsWithIgnoreAsciiCase_iff,
      TonicXds.Rds.startsWithIgnoreAsciiCase_iff]
  | false => rfl

theorem agree_suffix (hg : StringMatcher.ofSuffix v ic = .ok g) : Agree g (.suffixed v ic) := by
  obtain ⟨out, hout, hm⟩ := bind_eq_ok.1 hg
  obtain rfl := nonEmptyMatchValue_ok hout
  cases hm
  intro ip
  cases ic with
  | true =>
    rw [Bool.eq_iff_iff]
    simp [StringMatcher.isMatch, Literal.ofValue, foldCase, isMatch, endsWithIgnoreAsciiCase_iff,
      TonicXds.Rds.endsWithIgnoreAsciiCase_iff]
  | false => rfl

theorem agree_contains (hg : StringMatcher.ofContains v ic = .ok g) : Agree g (.contains v ic) := by
  obtain ⟨out, hout, hm⟩ := bind_eq_ok.1 hg
  obtain rfl := nonEmptyMatchValue_ok hout
  cases hm
  intro ip
  cases ic with
  | true =>
    rw [Bool.eq_iff_iff]
    simp [StringMatcher.isMatch, Literal.ofValue, foldCase,
      isMatch, contains_iff, TonicXds.Rds.containsIgnoreAsciiCase_iff]
  | false => rfl

theorem agree_regex {w w' : String} {t : TonicXds.Rds.SafeRegex R} (hg : StringMatcher.ofRegex w p = .ok g)
    (ht : TonicXds.Rds.regexOr w' p = .ok t) : Agree g (.safeRegex t) := by
  obtain ⟨r, hr, hg⟩ := bind_eq_ok.1 hg
  cases hg
  have heq := regex_eq (mapError_eq_ok.1 hr) (mapError_eq_ok.1 ht)
  intro ip
  exact congrArg (RegexEngine.isMatch · ip) heq

theorem agree_fromProto {p : Envoy.StringMatcher} {t : TonicXds.Rds.StringMatcher R}
    (hg : StringMatcher.fromProto p = .ok g) (ht : fromProto p = .ok t) : Agree g t := by
  unfold StringMatcher.fromProto at hg
  unfold fromProto at ht
  rcases p with ⟨_ | ⟨v⟩ | ⟨v⟩ | ⟨v⟩ | ⟨pt⟩ | ⟨v⟩ | _, ic⟩
  · cases hg
  · cases hg
    cases ht
    exact agree_exact v ic
  · cases ht
    exact agree_prefix hg
  · cases ht
    exact agree_suffix hg
  · obtain ⟨re, hre, ht⟩ := bind_eq_ok.1 ht
    cases ht
    exact agree_regex hg hre
  · cases ht
    exact agree_contains hg
  · cases hg

end

/-- Both answer with the plain match, in lower case if case is ignored, and neither panics. -/
theorem string_matchers_agree (kind : LiteralKind) (value input : String) (ignoreCase : Bool) :
    (∃ t : TonicXds.Rds.StringMatcher R,
      TonicXds.Rds.StringMatcher.fromProto ⟨some (kind.pattern (utf8 value)), ignoreCase⟩ = .ok t ∧
      Tonic.isMatch t (utf8 input) =
        .ok (decide (kind.Matches (foldChars ignoreCase value) (foldChars ignoreCase input)))) ∧
    match GrpcXds.Rds.StringMatcher.fromProto (R := R) ⟨some (kind.pattern (utf8 value)), ignoreCase⟩ with
    | .ok g =>
      Grpc.isMatch g (utf8 input) =
        .ok (decide (kind.Matches (foldChars ignoreCase value) (foldChars ignoreCase input)))
    | .error _ => kind ≠ .exact ∧ value = "" := by
  obtain ⟨t, ht, hi⟩ := tonic_isMatch_iff (R := R) kind (utf8 value) (utf8 input) ignoreCase
  rw [foldCase_utf8, foldCase_utf8, LiteralKind.matches_encode] at hi
  have ha : t.isMatch (utf8 input) =
      decide (kind.Matches (foldChars ignoreCase value) (foldChars ignoreCase input)) := by
    rw [Bool.eq_iff_iff, hi, decide_eq_true_eq]
  refine ⟨⟨t, ht, by rw [Tonic.isMatch_eq, ha]⟩, ?_⟩
  split
  · rename_i g hg
    rw [Grpc.isMatch_eq, agree_fromProto hg ht, ha]
  · rename_i e he
    obtain ⟨hk, hv⟩ := grpc_fromProto_error he
    rw [utf8_eq_encode, encode_eq_nil] at hv
    exact ⟨hk, String.toList_eq_nil_iff.1 hv⟩

end XdsStacks.Strings
