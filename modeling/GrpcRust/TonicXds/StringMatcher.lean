import GrpcRust.TonicXds.RouteConfig
/-!
# The string matcher of `tonic-xds`

`xds/resource/string_matcher.rs`, with the methods of `str` that it and the SAN matcher use.
-/

namespace TonicXds.Rds

open Lib Lib.Bytes List

/-! ## Strings -/

def startsWithIgnoreAsciiCase (s pat : Bytes) : Bool :=
  pat.length ≤ s.length && eqIgnoreAsciiCase (s.take pat.length) pat

def endsWithIgnoreAsciiCase (s pat : Bytes) : Bool :=
  (if pat.length ≤ s.length then some (s.length - pat.length) else none).any fun start =>
    eqIgnoreAsciiCase (s.drop start) pat

def containsIgnoreAsciiCase (s pat : Bytes) : Bool :=
  if pat.length ≤ s.length then
    (List.range (s.length - pat.length + 1)).any fun i => eqIgnoreAsciiCase ((s.drop i).take pat.length) pat
  else
    false

variable {s pat : Bytes}

theorem startsWithIgnoreAsciiCase_iff :
    startsWithIgnoreAsciiCase s pat = true ↔ pat.toAsciiLowercase <+: s.toAsciiLowercase := by
  unfold startsWithIgnoreAsciiCase
  rw [Bool.and_eq_true, decide_eq_true_eq, take_eqIgnoreAsciiCase_iff]
  exact ⟨fun h => h.2, fun h => ⟨by simpa using h.length_le, h⟩⟩

theorem endsWithIgnoreAsciiCase_iff :
    endsWithIgnoreAsciiCase s pat = true ↔ pat.toAsciiLowercase <:+ s.toAsciiLowercase := by
  unfold endsWithIgnoreAsciiCase
  split
  · exact drop_eqIgnoreAsciiCase_iff
  · rename_i h
    simp [not_suffix_of_longer h]

theorem containsIgnoreAsciiCase_iff :
    containsIgnoreAsciiCase s pat = true ↔ pat.toAsciiLowercase <:+: s.toAsciiLowercase := by
  unfold containsIgnoreAsciiCase
  split
  · rename_i h
    rw [infix_iff_exists_window (by simpa using h), any_eq_true]
    simp only [mem_range, eqIgnoreAsciiCase_iff, toAsciiLowercase_take, toAsciiLowercase_drop, length_toAsciiLowercase]
  · rename_i h
    simp only [Bool.false_eq_true, false_iff]
    exact fun hp => h (by simpa using hp.length_le)

def stripPrefix (s start : Bytes) : Option Bytes :=
  if s.startsWith start then some (s.drop start.length) else none

def stripSuffix (s suffix : Bytes) : Option Bytes :=
  if s.endsWith suffix then some (s.take (s.length - suffix.length)) else none

variable {R : Type} [RegexEngine R]

/-! ## Matching -/

def SafeRegex.isMatch (re : SafeRegex R) (haystack : Bytes) : Bool := RegexEngine.isMatch re.regex haystack

def StringMatcher.isMatch (matcher : StringMatcher R) (v : Bytes) : Bool :=
  match matcher with
  | .exact value ignoreCase => if ignoreCase then v.eqIgnoreAsciiCase value else v == value
  | .prefixed value ignoreCase => if ignoreCase then startsWithIgnoreAsciiCase v value else v.startsWith value
  | .suffixed value ignoreCase => if ignoreCase then endsWithIgnoreAsciiCase v value else v.endsWith value
  | .contains value ignoreCase => if ignoreCase then containsIgnoreAsciiCase v value else v.contains value
  | .safeRegex re => re.isMatch v

end TonicXds.Rds
