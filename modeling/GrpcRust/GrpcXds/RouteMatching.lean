import GrpcRust.GrpcXds.RouteConfig
import GrpcRust.Lib.Selection
/-!
# Route matching of `grpc-xds`

`routing/virtual_host.rs`, and the string matcher of `routing/route.rs`.
-/

namespace GrpcXds.Rds

open Lib Lib.Bytes

/-! ## Virtual hosts -/

inductive DomainMatchScore where
  | exact
  | suffixed (len : Nat)
  | prefixed (len : Nat)
  | universal
deriving DecidableEq

def DomainMatchScore.key : DomainMatchScore → ℕ ×ₗ ℕᵒᵈ
  | .exact => toLex (0, 0)
  | .suffixed len => toLex (1, OrderDual.toDual len)
  | .prefixed len => toLex (2, OrderDual.toDual len)
  | .universal => toLex (3, 0)

theorem DomainMatchScore.key_injective : Function.Injective key := by
  intro a b h
  cases a <;> cases b <;> first | rfl | cases h; rfl | cases h

instance : LinearOrder DomainMatchScore := LinearOrder.lift' DomainMatchScore.key DomainMatchScore.key_injective

def DomainMatcher.matchAuthority (domain : DomainMatcher) (authority : Bytes) : Option DomainMatchScore :=
  match domain with
  | .exact domain => if authority = domain then some .exact else none
  | .suffixed suffix =>
    if suffix.length < authority.length ∧ authority.endsWith suffix then some (.suffixed suffix.length) else none
  | .prefixed start =>
    if start.length < authority.length ∧ authority.startsWith start then some (.prefixed start.length) else none
  | .universal => if !authority.isEmpty then some .universal else none

def hostScore {R : Type} (authority : Bytes) (host : VirtualHost R) : Option DomainMatchScore :=
  iterMin (host.domains.filterMap (·.matchAuthority authority))

def findVirtualHostIndex {R : Type} (authority : Bytes) (virtualHosts : List (VirtualHost R)) : Option Nat :=
  ((scored (hostScore authority.toAsciiLowercase) virtualHosts).argmin toLex).map (·.2)

/-! ## Strings -/

def startsWithIgnoreAsciiCase (input start : Bytes) : Bool :=
  (if start.length ≤ input.length then some (input.take start.length) else none).any fun head =>
    eqIgnoreAsciiCase head start

def endsWithIgnoreAsciiCase (input suffix : Bytes) : Bool :=
  (if suffix.length ≤ input.length then some (input.length - suffix.length) else none).any fun start =>
    eqIgnoreAsciiCase (input.drop start) suffix

theorem startsWithIgnoreAsciiCase_iff {ip s : Bytes} :
    startsWithIgnoreAsciiCase ip s = true ↔ s.toAsciiLowercase <+: ip.toAsciiLowercase := by
  unfold startsWithIgnoreAsciiCase
  split
  · exact take_eqIgnoreAsciiCase_iff
  · rename_i h
    simp [not_prefix_of_longer h]

theorem endsWithIgnoreAsciiCase_iff {ip s : Bytes} :
    endsWithIgnoreAsciiCase ip s = true ↔ s.toAsciiLowercase <:+ ip.toAsciiLowercase := by
  unfold endsWithIgnoreAsciiCase
  split
  · exact drop_eqIgnoreAsciiCase_iff
  · rename_i h
    simp [not_suffix_of_longer h]

variable {R : Type} [RegexEngine R]

def SafeRegex.isMatch (regex : SafeRegex R) (value : Bytes) : Bool := RegexEngine.isMatch regex.regex value

def StringMatcher.isMatch (matcher : StringMatcher R) (input : Bytes) : Bool :=
  match matcher with
  | .exact l => if l.ignoreCase then input.eqIgnoreAsciiCase l.value else input == l.value
  | .prefixed l => if l.ignoreCase then startsWithIgnoreAsciiCase input l.value else input.startsWith l.value
  | .suffixed l => if l.ignoreCase then endsWithIgnoreAsciiCase input l.value else input.endsWith l.value
  | .contains l => if l.ignoreCase then input.toAsciiLowercase.contains l.value else input.contains l.value
  | .safeRegex regex => regex.isMatch input

end GrpcXds.Rds
