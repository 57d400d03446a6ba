import GrpcRust.Lib.HeaderMap
/-!
# Response heads

What the CONNECT handshake needs of the parser of the `httparse` crate: it decides on the bytes of a head and takes no
others. `headParser` is such a parser, which reads a head as the crate's documentation says.
-/

namespace HttpConnect

open Lib Bytes List

inductive Parse
  | needMore
  | complete (len : Nat) (code : Option Nat)
  | error
deriving DecidableEq

/-- A correct and incremental parser: what it has decided stays, and a head it has found is decided by itself. -/
structure Parser where
  parse : Bytes → Parse
  empty : parse [] = .needMore
  more : ∀ s rest, parse s ≠ .needMore → parse (s ++ rest) = parse s
  head : ∀ s len code, parse s = .complete len code → len ≤ s.length ∧ parse (s.take len) = .complete len code

/-! ## Reading byte by byte -/

inductive Scan (S : Type)
  | more (state : S)
  | done (code : Nat)
  | bad

section
variable {S : Type} (step : S → UInt8 → Scan S)

def scan : S → Nat → Bytes → Parse
  | _, _, [] => .needMore
  | s, n, b :: bytes =>
    match step s b with
    | .more s => scan s (n + 1) bytes
    | .done code => .complete (n + 1) (some code)
    | .bad => .error

variable {step}

theorem scan_append {s : S} {n : Nat} {bytes : Bytes} (rest : Bytes) (h : scan step s n bytes ≠ .needMore) :
    scan step s n (bytes ++ rest) = scan step s n bytes := by
  induction bytes generalizing s n with
  | nil => exact absurd rfl h
  | cons b bytes ih =>
    rw [cons_append, scan, scan]
    rw [scan] at h
    cases hs : step s b with
    | more s' =>
      rw [hs] at h
      exact ih h
    | done code => rfl
    | bad => rfl

theorem scan_complete {s : S} {n len : Nat} {code : Option Nat} {bytes : Bytes}
    (h : scan step s n bytes = .complete len code) :
    n < len ∧ len ≤ n + bytes.length ∧ scan step s n (bytes.take (len - n)) = .complete len code := by
  induction bytes generalizing s n with
  | nil => cases h
  | cons b bytes ih =>
    rw [scan] at h
    cases hs : step s b with
    | more s' =>
      rw [hs] at h
      obtain ⟨hlt, hle, ht⟩ := ih h
      obtain ⟨k, rfl⟩ : ∃ k, len = n + 1 + k := ⟨len - (n + 1), by omega⟩
      refine ⟨by omega, by rw [length_cons]; omega, ?_⟩
      rw [show n + 1 + k - n = k + 1 by omega, take_succ_cons, scan, hs]
      simpa using ht
    | done c =>
      rw [hs] at h
      cases h
      refine ⟨by omega, by rw [length_cons]; omega, ?_⟩
      rw [show n + 1 - n = 1 by omega, take_succ_cons, scan, hs]
    | bad =>
      rw [hs] at h
      cases h

def Parser.ofScan (step : S → UInt8 → Scan S) (s : S) : Parser where
  parse := scan step s 0
  empty := rfl
  more _ rest h := scan_append rest h
  head bytes len code h := by
    obtain ⟨-, hle, ht⟩ := scan_complete h
    exact ⟨by omega, by simpa using ht⟩

end

/-! ## Heads -/

/-- What is read next. -/
inductive Part
  | start
  | startLf
  | version (rest : Bytes)
  | minor
  | space
  | code (digits : Nat)
  | codeEnd
  | reason
  | lineLf
  | fieldStart
  | fieldName
  | fieldValue
  | headLf

structure HeadState where
  part : Part
  code : Nat
  fields : Nat

/-- The headers there is space for. -/
def maxHeaders : Nat := 16

/-- Bytes of reason phrases and values: no control characters other than tabs. -/
def isTextByte (b : UInt8) : Bool := b == 9 || (32 ≤ b && b != 127)

namespace HeadState
variable (s : HeadState)

def goOn (part : Part) : Scan HeadState := .more { s with part := part }

/-- The rest of a line; it ends with or without a carriage return. -/
def stepLine (part : Part) (b : UInt8) : Scan HeadState :=
  if b = 13 then s.goOn .lineLf
  else if b = 10 then s.goOn .fieldStart
  else if isTextByte b then s.goOn part
  else .bad

def step (b : UInt8) : Scan HeadState :=
  match s.part with
  | .start =>
    if b = 13 then s.goOn .startLf
    else if b = 10 then s.goOn .start
    else if b = 72 then s.goOn (.version (utf8 "TTP/1."))
    else .bad
  | .startLf => if b = 10 then s.goOn .start else .bad
  | .version (v :: rest) => if b = v then s.goOn (if rest.isEmpty then .minor else .version rest) else .bad
  | .version [] => .bad
  | .minor => if b = 48 ∨ b = 49 then s.goOn .space else .bad
  | .space => if b = 32 then s.goOn (.code 3) else .bad
  | .code digits =>
    if 48 ≤ b ∧ b ≤ 57 then
      { s with code := s.code * 10 + (b - 48).toNat }.goOn (if digits ≤ 1 then .codeEnd else .code (digits - 1))
    else .bad
  | .codeEnd => if b = 32 then s.goOn .reason else if b = 13 ∨ b = 10 then s.stepLine .reason b else .bad
  | .reason => s.stepLine .reason b
  | .lineLf => if b = 10 then s.goOn .fieldStart else .bad
  | .fieldStart =>
    if b = 13 then s.goOn .headLf
    else if b = 10 then .done s.code
    else if isTokenByte b ∧ s.fields < maxHeaders then { s with fields := s.fields + 1 }.goOn .fieldName
    else .bad
  | .fieldName => if b = 58 then s.goOn .fieldValue else if isTokenByte b then s.goOn .fieldName else .bad
  | .fieldValue => s.stepLine .fieldValue b
  | .headLf => if b = 10 then .done s.code else .bad

end HeadState

def headParser : Parser := .ofScan HeadState.step ⟨.start, 0, 0⟩

example : headParser.parse (utf8 "HTTP/1.1 407 Proxy Authentication Required\nProxy-Authenticate: Basic\r\n\r\nrest") =
    .complete 72 (some 407) := by decide
example : headParser.parse (utf8 "HTTP/1.1 200 OK\r\n") = .needMore := by decide
example : headParser.parse (utf8 "NOT HTTP RESPONSE\r\n\r\n") = .error := by decide

end HttpConnect
