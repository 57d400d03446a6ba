import GrpcRust.Envoy.RouteConfiguration
import GrpcRust.Lib.Validation
/-!
# Validated route configurations of `grpc-xds`

`resource/route.rs`, `resource/string_matcher.rs` and `resource/safe_regex.rs`. A
validator returns the validated value, or the text of an `Error::Validation`.
-/

namespace GrpcXds.Rds

open Lib Lib.Bytes List

structure SafeRegex (R : Type) where
  regex : R

structure Literal where
  value : Bytes
  ignoreCase : Bool
  folded : ignoreCase = true → value.toAsciiLowercase = value

inductive StringMatcher (R : Type) where
  | exact (literal : Literal)
  | prefixed (literal : Literal)
  | suffixed (literal : Literal)
  | contains (literal : Literal)
  | safeRegex (regex : SafeRegex R)

inductive DomainMatcher where
  | exact (domain : Bytes)
  | suffixed (suffix : Bytes)
  | prefixed (start : Bytes)
  | universal
deriving DecidableEq

/-- `R` is the type of the routes, which the choice of a host does not read. -/
structure VirtualHost (R : Type) where
  name : Bytes
  domains : List DomainMatcher
  routes : List R

/-! ## Domains -/

def wildcard : UInt8 := 42

def DomainMatcher.tryFrom (domain : Bytes) : Option DomainMatcher :=
  if domain.isEmpty then
    none
  else
    let domain := domain.toAsciiLowercase
    match domain.idxOf? wildcard with
    | none => some (.exact domain)
    | some index =>
      if index = 0 ∧ domain.length = 1 then some .universal
      else if index = 0 ∧ wildcard ∉ domain.drop 1 then some (.suffixed (domain.drop 1))
      else if index = domain.length - 1 then some (.prefixed (domain.take index))
      else none

theorem mem_lowercase_wildcard {s : Bytes} : wildcard ∈ s.toAsciiLowercase ↔ wildcard ∈ s :=
  mem_toAsciiLowercase lowerByte_eq_star

theorem idxOf?_wildcard {s r : Bytes} (h : wildcard ∉ s) :
    (toAsciiLowercase (s ++ wildcard :: r)).idxOf? wildcard = some s.length := by
  have hl : toAsciiLowercase (s ++ wildcard :: r) = s.toAsciiLowercase ++ wildcard :: r.toAsciiLowercase := by
    rw [toAsciiLowercase_append]
    rfl
  rw [idxOf?_eq_some_iff, hl]
  refine ⟨by simp, by simp [getElem_append_right], ?_⟩
  intro j hj heq
  rw [getElem_append_left (by simpa using hj)] at heq
  exact h (mem_lowercase_wildcard.1 (heq ▸ getElem_mem _))

inductive DomainMatcher.Accepted : Bytes → DomainMatcher → Prop where
  | exact {domain : Bytes} (hw : wildcard ∉ domain) : Accepted domain (.exact domain.toAsciiLowercase)
  | universal : Accepted [wildcard] .universal
  | suffixed {suffix : Bytes} (hne : suffix ≠ []) (hw : wildcard ∉ suffix) :
    Accepted (wildcard :: suffix) (.suffixed suffix.toAsciiLowercase)
  | prefixed {start : Bytes} (hne : start ≠ []) (hw : wildcard ∉ start) :
    Accepted (start ++ [wildcard]) (.prefixed start.toAsciiLowercase)

theorem DomainMatcher.accepted_of_tryFrom {d : Bytes} {m : DomainMatcher} (h : tryFrom d = some m) : Accepted d m := by
  unfold tryFrom at h
  split at h
  · cases h
  by_cases hw : wildcard ∈ d
  · -- everything is decided by what stands around the first `*`
    obtain ⟨s, r, rfl, hs⟩ := eq_append_cons_of_mem hw
    simp only [idxOf?_wildcard hs, length_toAsciiLowercase, length_append, length_cons] at h
    rcases s with _ | ⟨b, s⟩
    · rcases r with _ | ⟨c, r⟩
      · cases h
        exact .universal
      · simp only [length_nil, nil_append, ← toAsciiLowercase_drop, drop_succ_cons, drop_zero,
          mem_lowercase_wildcard] at h
        split at h
        · rename_i hl
          simp at hl
        split at h
        · rename_i hrest
          cases h
          exact .suffixed (by simp) hrest.2
        split at h
        · rename_i hl
          simp at hl
        · cases h
    · simp only [length_cons, Nat.succ_ne_zero, false_and, if_false] at h
      split at h
      · rename_i hl
        obtain rfl : r = [] := List.length_eq_zero_iff.1 (by omega)
        cases h
        rw [← toAsciiLowercase_take, show (b :: s ++ [wildcard]).take (s.length + 1) = b :: s by simp]
        exact .prefixed (by simp) hs
      · cases h
  · simp only [List.idxOf?_eq_none_iff.2 (mem_lowercase_wildcard.not.2 hw)] at h
    cases h
    exact .exact hw

variable {R : Type} [RegexEngine R]

/-! ## Regular expressions and strings -/

def anchorPrefix : Bytes := utf8 "\\A(?:"
def anchorSuffix : Bytes := utf8 ")\\z"

def SafeRegex.fromStr (pattern : Bytes) : Except Bytes (SafeRegex R) :=
  if pattern.isEmpty then
    .error (utf8 "empty regex is not allowed")
  else do
    let _ ← RegexEngine.new (R := R) pattern
    let regex ← RegexEngine.new (anchorPrefix ++ pattern ++ anchorSuffix)
    return ⟨regex⟩

variable (value : Bytes) (ignoreCase : Bool)

def foldCase : Bytes :=
  if ignoreCase then value.toAsciiLowercase else value

def Literal.ofValue : Literal where
  value := foldCase value ignoreCase
  ignoreCase := ignoreCase
  folded h := by simp [foldCase, h]

def nonEmptyMatchValue (kind : String) : Except Bytes Bytes :=
  if value.isEmpty then .error (utf8 ("empty " ++ kind ++ " match is not allowed")) else .ok value

theorem nonEmptyMatchValue_ok {value out : Bytes} {k : String} (h : nonEmptyMatchValue value k = .ok out) :
    out = value := by
  unfold nonEmptyMatchValue at h
  split at h
  · cases h
  · exact (Except.ok.inj h).symm

namespace StringMatcher

variable (value : Bytes) (ignoreCase : Bool)

def ofExact : StringMatcher R := .exact (.ofValue value ignoreCase)

def ofPrefix : Except Bytes (StringMatcher R) := do
  let value ← nonEmptyMatchValue value "prefix"
  return .prefixed (.ofValue value ignoreCase)

def ofSuffix : Except Bytes (StringMatcher R) := do
  let value ← nonEmptyMatchValue value "suffix"
  return .suffixed (.ofValue value ignoreCase)

def ofContains : Except Bytes (StringMatcher R) := do
  let value ← nonEmptyMatchValue value "contains"
  return .contains (.ofValue value ignoreCase)

def ofRegex (what : String) (pattern : Bytes) : Except Bytes (StringMatcher R) := do
  let regex ← (SafeRegex.fromStr pattern).mapError fun e => utf8 (what ++ " '") ++ pattern ++ utf8 "': " ++ e
  return .safeRegex regex

def fromProto (proto : Envoy.StringMatcher) : Except Bytes (StringMatcher R) :=
  match proto.matchPattern with
  | some (.exact value) => .ok (ofExact value proto.ignoreCase)
  | some (.prefixed value) => ofPrefix value proto.ignoreCase
  | some (.suffixed value) => ofSuffix value proto.ignoreCase
  | some (.contains value) => ofContains value proto.ignoreCase
  | some (.safeRegex pattern) => ofRegex "invalid string matcher regex" pattern
  | none => .error (utf8 "StringMatcher has no match_pattern set")
  | some .custom => .error (utf8 "unsupported StringMatcher pattern")

end StringMatcher

end GrpcXds.Rds
