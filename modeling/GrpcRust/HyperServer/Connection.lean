import Mathlib.Tactic
/-!
# A serving connection

`HyperServingConnection` of `server/transport/hyper/connection.rs`. A future polled after its end has no answer.
-/

namespace HyperServer.Connection

structure Sleep where
  deadline : Nat
  completed : Bool

def Sleep.new (deadline : Nat) : Sleep := ⟨deadline, false⟩

def Sleep.poll (now : Nat) (s : Sleep) : Option (Bool × Sleep) :=
  if s.completed then none else some (s.deadline ≤ now, { s with completed := s.deadline ≤ now })

inductive ServingPhase
  | handshaking (completed : Bool) (handshakeTimer : Sleep) (shutdownRequested : Bool)
  | serving

inductive ConnectionAgeState
  | unlimited
  | aging (timer : Sleep)
  | gracePeriod (timer : Sleep)
  | drainingIndefinitely

/-- With the times at which graceful shutdown was initiated, and whether that was during the handshake. -/
structure Conn where
  phase : ServingPhase
  age : ConnectionAgeState
  initiated : List (Nat × Bool)

inductive Answer
  | pending
  | ok
  | err

inductive Output
  | pending
  | ok
  | forceClosed
  | handshakeTimedOut
  | handshakeFailed
  | connFailed
deriving DecidableEq

def new (handshakeDeadline : Nat) (ageDeadline : Option Nat) : Conn :=
  ⟨.handshaking false (.new handshakeDeadline) false, ageDeadline.elim .unlimited fun d => .aging (.new d), []⟩

variable (grace : Option Nat) (now : Nat) (handshake conn : Answer)

def initiateGracefulShutdown (c : Conn) : Conn :=
  match c.phase with
  | .handshaking completed timer _ =>
    { c with phase := .handshaking completed timer true, initiated := c.initiated ++ [(now, true)] }
  | .serving => { c with initiated := c.initiated ++ [(now, false)] }

def checkAge (c : Conn) : Option Conn :=
  match c.age with
  | .aging timer => (timer.poll now).map fun (ready, timer) =>
    if ready then
      { initiateGracefulShutdown now c with
        age := grace.elim .drainingIndefinitely fun grace => .gracePeriod (.new (now + grace)) }
    else { c with age := .aging timer }
  | _ => some c

def checkGrace (c : Conn) : Option (Bool × Conn) :=
  match c.age with
  | .gracePeriod timer => (timer.poll now).map fun (ready, timer) => (ready, { c with age := .gracePeriod timer })
  | _ => some (false, c)

def driveHandshake (c : Conn) : Option (Option Output × Conn) :=
  match c.phase with
  | .serving => some (none, c)
  | .handshaking completed timer shutdownRequested =>
    if shutdownRequested then some (some .ok, c)
    else (timer.poll now).bind fun (ready, timer) =>
      if ready then some (some .handshakeTimedOut, { c with phase := .handshaking completed timer false })
      else if completed then none
      else match handshake with
        | .pending => some (some .pending, { c with phase := .handshaking false timer false })
        | .err => some (some .handshakeFailed, { c with phase := .handshaking true timer false })
        | .ok => some (none, { c with phase := .serving })

def driveServing : Output :=
  match conn with
  | .pending => .pending
  | .ok => .ok
  | .err => .connFailed

def poll (c : Conn) : Option (Output × Conn) :=
  (checkAge grace now c).bind fun c =>
    (checkGrace now c).bind fun (forced, c) =>
      if forced then some (.forceClosed, c)
      else (driveHandshake now handshake c).map fun (out, c) => (out.getD (driveServing conn), c)

/-- Polls until the connection is ready, and calls of `graceful_shutdown`, in any order. -/
inductive Run : Conn → Prop
  | start (handshakeDeadline : Nat) (ageDeadline : Option Nat) : Run (new handshakeDeadline ageDeadline)
  | poll {c c'} (h : Run c) (now : Nat) (handshake conn : Answer)
    (hp : poll grace now handshake conn c = some (.pending, c')) : Run c'
  | shutdown {c} (h : Run c) (now : Nat) : Run (initiateGracefulShutdown now c)

/-! ## Invariants -/

/-- Futures that may be polled have not completed; the grace period began when shutdown was initiated. -/
structure Inv (c : Conn) : Prop where
  aging : ∀ t, c.age = .aging t → t.completed = false
  grace : ∀ t, c.age = .gracePeriod t → t.completed = false ∧ ∃ g ∈ grace, ∃ p ∈ c.initiated, p.1 + g ≤ t.deadline
  handshaking : ∀ d t, c.phase = .handshaking d t false → d = false ∧ t.completed = false ∧ c.initiated = []
  serving : c.phase = .serving → ∀ p ∈ c.initiated, p.2 = false

variable {grace} {c : Conn}

theorem Sleep.poll_of {s : Sleep} (h : s.completed = false) (now : Nat) :
    s.poll now = some (decide (s.deadline ≤ now), { s with completed := decide (s.deadline ≤ now) }) := by
  simp [Sleep.poll, h]

theorem Inv.initiate (h : Inv grace c) (now : Nat) : Inv grace (initiateGracefulShutdown now c) := by
  unfold initiateGracefulShutdown
  cases hp : c.phase with
  | handshaking d t r =>
    refine ⟨h.aging, fun t ht => ?_, by simp, by simp⟩
    obtain ⟨hc, g, hg, p, hm, hl⟩ := h.grace t ht
    exact ⟨hc, g, hg, p, List.mem_append_left _ hm, hl⟩
  | serving =>
    refine ⟨h.aging, fun t ht => ?_, by simp, fun _ p hm => ?_⟩
    · obtain ⟨hc, g, hg, p, hm, hl⟩ := h.grace t ht
      exact ⟨hc, g, hg, p, List.mem_append_left _ hm, hl⟩
    · rcases List.mem_append.1 hm with hm | hm
      · exact h.serving hp p hm
      · simp_all

theorem mem_initiate (now : Nat) (c : Conn) : ∃ p ∈ (initiateGracefulShutdown now c).initiated, p.1 = now := by
  unfold initiateGracefulShutdown
  cases c.phase <;> simp

theorem Inv.checkAge (h : Inv grace c) (now : Nat) : ∃ c', checkAge grace now c = some c' ∧ Inv grace c' := by
  unfold Connection.checkAge
  cases ha : c.age with
  | aging tm =>
    dsimp only
    rw [Sleep.poll_of (h.aging tm ha)]
    refine ⟨_, rfl, ?_⟩
    by_cases hd : tm.deadline ≤ now
    · have hi := h.initiate now
      obtain ⟨p, hm, hp⟩ := mem_initiate now c
      simp only [hd, decide_true, if_true]
      refine ⟨?_, ?_, hi.handshaking, hi.serving⟩ <;> cases grace
      · simp
      · simp
      · simp
      · simp only [Option.elim, ConnectionAgeState.gracePeriod.injEq]
        rintro t rfl
        exact ⟨rfl, _, rfl, p, hm, by simp [Sleep.new, hp]⟩
    · simp only [hd, decide_false, Bool.false_eq_true, if_false]
      exact ⟨by simp, by simp, h.handshaking, h.serving⟩
  | _ => exact ⟨c, rfl, h⟩

theorem Inv.checkGrace (h : Inv grace c) (now : Nat) : ∃ f c', checkGrace now c = some (f, c') ∧
    (f = false → Inv grace c') ∧ c'.phase = c.phase ∧ c'.initiated = c.initiated ∧
    (f = true → ∃ g ∈ grace, ∃ p ∈ c.initiated, p.1 + g ≤ now) := by
  unfold Connection.checkGrace
  cases ha : c.age with
  | gracePeriod tm =>
    obtain ⟨hc, g, hg, p, hm, hl⟩ := h.grace tm ha
    dsimp only
    rw [Sleep.poll_of hc]
    refine ⟨_, _, rfl, fun hf => ⟨by simp, ?_, h.handshaking, h.serving⟩, rfl, rfl, fun hf => ?_⟩
    · simp only [ConnectionAgeState.gracePeriod.injEq]
      rintro t rfl
      exact ⟨hf, g, hg, p, hm, hl⟩
    · exact ⟨g, hg, p, hm, hl.trans (of_decide_eq_true hf)⟩
  | _ => exact ⟨false, c, rfl, fun _ => h, rfl, rfl, by simp⟩

theorem Inv.driveHandshake (h : Inv grace c) (now : Nat) (hn : Answer) :
    ∃ out c', driveHandshake now hn c = some (out, c') ∧ (out = none ∨ out = some .pending → Inv grace c') ∧
      (out = none ∨ out ≠ some .forceClosed) ∧ (c'.phase = .serving → ∀ p ∈ c'.initiated, p.2 = false) := by
  unfold Connection.driveHandshake
  cases hp : c.phase with
  | serving => exact ⟨_, _, rfl, fun _ => h, .inl rfl, h.serving⟩
  | handshaking d t r =>
    cases r with
    | true => exact ⟨_, _, rfl, by simp, .inr (by simp), by simp [hp]⟩
    | false =>
      obtain ⟨rfl, ht, hi⟩ := h.handshaking d t hp
      simp only [Bool.false_eq_true, if_false, Sleep.poll_of ht, Option.bind_some]
      by_cases hd : t.deadline ≤ now
      · simp [hd]
      · simp only [hd, decide_false, Bool.false_eq_true, if_false]
        cases hn with
        | pending => exact ⟨_, _, rfl, fun _ => ⟨h.aging, h.grace, by simp_all, by simp⟩, .inr (by simp), by simp⟩
        | err => exact ⟨_, _, rfl, by simp, .inr (by simp), by simp⟩
        | ok => exact ⟨_, _, rfl, fun _ => ⟨h.aging, h.grace, by simp, by simp [hi]⟩, .inl rfl, by simp [hi]⟩

theorem Inv.poll (h : Inv grace c) (now : Nat) (hn conn : Answer) :
    ∃ out c', poll grace now hn conn c = some (out, c') ∧ (out = .pending → Inv grace c') ∧
      (out = .forceClosed → ∃ g ∈ grace, ∃ p ∈ c'.initiated, p.1 + g ≤ now) ∧
      (c'.phase = .serving → ∀ p ∈ c'.initiated, p.2 = false) := by
  obtain ⟨c₁, hc₁, h₁⟩ := h.checkAge now
  obtain ⟨f, c₂, hc₂, h₂, hp, hi, hf⟩ := h₁.checkGrace now
  simp only [Connection.poll, hc₁, hc₂, Option.bind_some]
  cases f with
  | true => exact ⟨_, _, rfl, by simp, fun _ => hi ▸ hf rfl, hi ▸ hp ▸ h₁.serving⟩
  | false =>
    obtain ⟨out, c₃, hc₃, h₃, ho, hs⟩ := (h₂ rfl).driveHandshake now hn
    rw [if_neg (by simp), hc₃]
    refine ⟨_, _, rfl, fun hp => h₃ ?_, fun hfc => ?_, hs⟩
    · cases out <;> simp_all
    · cases out with
      | none => cases conn <;> cases hfc
      | some o => simp_all

theorem Run.inv (h : Run grace c) : Inv grace c := by
  induction h with
  | start _ a => cases a <;> exact ⟨by simp [new, Sleep.new], by simp [new], by simp [new, Sleep.new], by simp [new]⟩
  | poll _ now hn conn hp ih =>
    obtain ⟨out, c', hc, hi, -⟩ := ih.poll now hn conn
    cases hp.symm.trans hc
    exact hi rfl
  | shutdown _ now ih => exact ih.initiate now

/-- No future is polled after its end; force comes only a grace period after a graceful shutdown, which stops HTTP/2. -/
theorem connection_lawful (h : Run grace c) (now : Nat) (handshake conn : Answer) :
    ∃ out c', poll grace now handshake conn c = some (out, c') ∧
      (out = .forceClosed → ∃ g ∈ grace, ∃ p ∈ c'.initiated, p.1 + g ≤ now) ∧
      (c'.phase = .serving → ∀ p ∈ c'.initiated, p.2 = false) := by
  obtain ⟨out, c', hc, -, hl⟩ := h.inv.poll now handshake conn
  exact ⟨out, c', hc, hl⟩

theorem connection_lawful_aged :
    ∃ out c', poll (some 3) 8 .pending .pending ⟨.serving, .gracePeriod (.new 8), [(5, false)]⟩ = some (out, c') ∧
      (out = .forceClosed → ∃ g ∈ some 3, ∃ p ∈ c'.initiated, p.1 + g ≤ 8) ∧
      (c'.phase = .serving → ∀ p ∈ c'.initiated, p.2 = false) :=
  connection_lawful (((Run.start 9 (some 5)).poll 0 .ok .pending rfl).poll 5 .pending .pending rfl) 8 .pending .pending

end HyperServer.Connection
