import Mathlib.Tactic
/-!
# Reconnecting

`Reconnect` of `transport/channel/service/reconnect.rs`. The answers of the connector, the future and the service are
the input; a completed future panics if it is polled.
-/

namespace Tonic

/-- A connecting future may have completed; a service may have been ready when it was polled last. -/
inductive Reconnect.State
  | idle
  | connecting (completed : Bool)
  | connected (ready : Bool)
deriving DecidableEq

structure Reconnect (E : Type) where
  state : Reconnect.State
  error : Option E
  hasBeenConnected : Bool
  isLazy : Bool
deriving DecidableEq

namespace Reconnect
variable {E : Type}

inductive Answer (E : Type)
  | pending
  | ok
  | err (e : E)

def new (isLazy : Bool) : Reconnect E := ⟨.idle, none, false, isLazy⟩

inductive Turn (E : Type)
  | next (r : Reconnect E)
  | done (result : Answer E) (r : Reconnect E)
  | panicked

/-- A turn of the loop of `poll_ready`. When the first connection of an eager service fails, the state is left. -/
def turn (r : Reconnect E) (answer : Answer E) : Turn E :=
  match r.state, answer with
  | .idle, .ok => .next { r with state := .connecting false }
  | .idle, answer => .done answer r
  | .connecting true, _ => .panicked
  | .connecting false, .ok => .next { r with state := .connected false }
  | .connecting false, .pending => .done .pending r
  | .connecting false, .err e =>
    if !(r.hasBeenConnected || r.isLazy) then .done (.err e) { r with state := .connecting true }
    else .done .ok { r with state := .idle, error := some e }
  | .connected _, .ok => .done .ok { r with state := .connected true, hasBeenConnected := true }
  | .connected _, .pending => .done .pending { r with state := .connected false, hasBeenConnected := true }
  | .connected _, .err _ => .next { r with state := .idle, hasBeenConnected := true }

def loop (r : Reconnect E) : List (Answer E) → Option (Option (Answer E) × Reconnect E)
  | [] => none
  | answer :: answers =>
    match turn r answer with
    | .next r => loop r answers
    | .done result r => some (some result, r)
    | .panicked => some (none, r)

def pollReady (r : Reconnect E) (answers : List (Answer E)) : Option (Option (Answer E) × Reconnect E) :=
  if r.error.isSome then some (some .ok, r) else loop r answers

inductive Called (E : Type)
  | failed (e : E)
  | passed
  | panicked
deriving DecidableEq

def call (r : Reconnect E) : Called E × Reconnect E :=
  match r.error, r.state with
  | some e, _ => (.failed e, { r with error := none })
  | none, .connected _ => (.passed, r)
  | none, _ => (.panicked, r)

/-- Callers that call after `Ok` only, with the last result, the errors recorded and those that failed a request. -/
inductive Run (isLazy : Bool) : Reconnect E → Option (Answer E) → List E → List E → Prop
  | start : Run isLazy (new isLazy) none [] []
  | poll {r last recorded failed result r'} (h : Run isLazy r last recorded failed) (answers : List (Answer E))
    (hp : pollReady r answers = some (some result, r')) :
    Run isLazy r' (some result) (if r.error.isSome then recorded else recorded ++ r'.error.toList) failed
  | failed {r recorded failed e r'} (h : Run isLazy r (some .ok) recorded failed) (hc : call r = (.failed e, r')) :
    Run isLazy r' none recorded (failed ++ [e])
  | passed {r recorded failed r'} (h : Run isLazy r (some .ok) recorded failed) (hc : call r = (.passed, r')) :
    Run isLazy r' none recorded failed

/-- The protocol of services: one that has returned an error from `poll_ready` is dropped. `Connection::connect` does
so with an eager service, and a lazy one returns an error only if the connector does. -/
def InUse (last : Option (Answer E)) : Prop := ∀ e, last ≠ some (.err e)

/-! ## What holds between calls -/

/-- An error is kept only while idle, and readiness means an error or a live connection. -/
structure Inv (r : Reconnect E) (last : Option (Answer E)) : Prop where
  error : r.error.isSome = true → r.state = .idle
  ready : last = some .ok → r.error.isSome = true ∨ r.state = .connected true
  completed : r.state = .connecting true → ∃ e, last = some (.err e)

section
variable {r r' : Reconnect E} {a result : Answer E} {answers : List (Answer E)}

theorem turn_done (he : r.error = none) (h : turn r a = .done result r') : Inv r' (some result) := by
  unfold turn at h
  split at h
  all_goals first | (split at h <;> cases h) | cases h
  all_goals constructor <;> simp_all

theorem turn_next (he : r.error = none) (h : turn r a = .next r') : r'.error = none ∧ r'.state ≠ .connecting true := by
  unfold turn at h
  split at h
  all_goals first | (split at h <;> cases h) | cases h
  all_goals simp [he]

theorem turn_panicked (h : turn r a = .panicked) : r.state = .connecting true := by
  unfold turn at h
  split at h
  all_goals first | (split at h <;> cases h) | cases h
  assumption

theorem loop_inv (he : r.error = none) (h : loop r answers = some (some result, r')) : Inv r' (some result) := by
  induction answers generalizing r with
  | nil => cases h
  | cons a answers ih =>
    rw [loop] at h
    cases ht : turn r a with
    | next r₁ => exact ih (turn_next he ht).1 (by simpa [ht] using h)
    | done result₁ r₁ =>
      simp only [ht, Option.some.injEq, Prod.mk.injEq] at h
      obtain ⟨rfl, rfl⟩ := h
      exact turn_done he ht
    | panicked => simp [ht] at h

theorem loop_panicked (he : r.error = none) (h : loop r answers = some (none, r')) : r.state = .connecting true := by
  induction answers generalizing r with
  | nil => cases h
  | cons a answers ih =>
    rw [loop] at h
    cases ht : turn r a with
    | next r₁ =>
      have hn := turn_next he ht
      exact absurd (ih hn.1 (by simpa [ht] using h)) hn.2
    | done rs₁ r₁ => simp [ht] at h
    | panicked => exact turn_panicked ht

theorem Run.inv {isLazy : Bool} {last : Option (Answer E)} {recorded failed : List E}
    (h : Run isLazy r last recorded failed) : Inv r last ∧ recorded = failed ++ r.error.toList := by
  induction h with
  | start => exact ⟨⟨by simp [new], by simp, by simp [new]⟩, rfl⟩
  | @poll r last recorded failed result r' h answers hp ih =>
    unfold pollReady at hp
    cases he : r.error with
    | some e =>
      simp only [he, Option.isSome_some, if_true, Option.some.injEq, Prod.mk.injEq] at hp
      obtain ⟨rfl, rfl⟩ := hp
      have hs := ih.1.error (by simp [he])
      exact ⟨⟨ih.1.error, by simp [he], by simp [hs]⟩, by simp [ih.2, he]⟩
    | none =>
      simp only [he, Option.isSome_none, Bool.false_eq_true, if_false] at hp ⊢
      exact ⟨loop_inv he hp, by simp [ih.2, he]⟩
  | @failed r recorded failed e r' h hc ih =>
    unfold call at hc
    split at hc <;> cases hc
    rename_i he
    have hi := ih.1.error (by simp [he])
    exact ⟨⟨by simp, by simp, by simp [hi]⟩, by simp [ih.2, he]⟩
  | @passed r recorded failed r' h hc ih =>
    unfold call at hc
    split at hc <;> cases hc
    rename_i hs
    exact ⟨⟨ih.1.error, by simp, by simp [hs]⟩, ih.2⟩

end

/-- Each recorded error fails one request; a call after `Ok` finds a ready service or fails with the error; and
neither a call nor a poll of a service in use panics. -/
theorem requests_and_errors {isLazy : Bool} {r : Reconnect E} {last : Option (Answer E)} {recorded failed : List E}
    (h : Run isLazy r last recorded failed) :
    recorded = failed ++ r.error.toList ∧
      (last = some .ok → (call r).1 ≠ .panicked ∧ ((call r).1 = .passed → r.state = .connected true)) ∧
      (InUse last → ∀ answers r', pollReady r answers ≠ some (none, r')) := by
  obtain ⟨hi, hr⟩ := h.inv
  refine ⟨hr, fun hl => ?_, fun hlast answers r' hp => ?_⟩
  · unfold call
    cases he : r.error with
    | some e => simp
    | none =>
      have hs := (hi.ready hl).resolve_left (by simp [he])
      simp [hs]
  · unfold pollReady at hp
    split at hp
    · simp at hp
    · rename_i he
      obtain ⟨e, he⟩ := hi.completed (loop_panicked (by simpa using he) hp)
      exact hlast e he

/-- A lazy service: the first connection fails a request, the second one serves one and is lost, and the third one
fails again. -/
theorem requests_and_errors_lazy : ∃ r : Reconnect Nat, Run true r (some .ok) [7, 8] [7] ∧
    [7, 8] = [7] ++ r.error.toList ∧ call r = (.failed 8, ⟨.idle, none, true, true⟩) ∧ (call r).1 ≠ .panicked ∧
    ∀ answers r', pollReady r answers ≠ some (none, r') := by
  have hrecorded : Run (E := Nat) true ⟨.idle, some 7, false, true⟩ (some .ok) [7] [] := .poll .start [.ok, .err 7] rfl
  have hfailed : Run true ⟨.idle, none, false, true⟩ none [7] [7] := hrecorded.failed rfl
  have hready : Run true ⟨.connected true, none, true, true⟩ (some .ok) [7] [7] := hfailed.poll [.ok, .ok, .ok] rfl
  have hpassed : Run true ⟨.connected true, none, true, true⟩ none [7] [7] := hready.passed rfl
  have hlost : Run true ⟨.idle, some 8, true, true⟩ (some .ok) [7, 8] [7] := hpassed.poll [.err 3, .ok, .err 8] rfl
  obtain ⟨herrors, hcall, hpoll⟩ := requests_and_errors hlost
  exact ⟨_, hlost, herrors, rfl, (hcall rfl).1, hpoll nofun⟩

-- An eager service is not in use after its first connection has failed: the future it keeps has completed.
example : ∃ r, pollReady (E := Nat) (new false) [.ok, .err 7] = some (some (.err 7), r) ∧
    pollReady r [.ok] = some (none, r) := ⟨_, rfl, rfl⟩

end Reconnect

end Tonic
