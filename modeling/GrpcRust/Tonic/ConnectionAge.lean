import Mathlib.Data.List.Perm.Basic
/-!
# The age of a connection

`serve_connection` of `transport/server/mod.rs`. A turn polls the branches of the `select!` in any order, up to the
first that is ready.
-/

namespace Tonic.ConnectionAge

structure Settings where
  maxConnectionAge : Option Nat
  maxConnectionAgeGrace : Option Nat

inductive TimeoutAction
  | gracefulShutdown
  | forcefulShutdown
deriving DecidableEq

inductive TimeoutFuture
  | start
  | age (deadline : Nat)
  | grace (deadline : Nat)
  | pending
deriving DecidableEq

namespace TimeoutFuture
variable (c : Settings) (now : Nat)

def pollGrace (deadline : Nat) : Option TimeoutAction × TimeoutFuture :=
  if now < deadline then (none, .grace deadline) else (some .forcefulShutdown, .grace deadline)

def pollAge (deadline : Nat) : Option TimeoutAction × TimeoutFuture :=
  if now < deadline then (none, .age deadline)
  else match c.maxConnectionAgeGrace with
    | some period => pollGrace now (now + period)
    | none => (some .gracefulShutdown, .age deadline)

def poll : TimeoutFuture → Option TimeoutAction × TimeoutFuture
  | .start => match c.maxConnectionAge with
    | some period => pollAge c now (now + period)
    | none => (none, .pending)
  | .age deadline => pollAge c now deadline
  | .grace deadline => pollGrace now deadline
  | .pending => (none, .pending)

end TimeoutFuture

inductive Branch
  | conn
  | connectionTimeout
  | sig
deriving DecidableEq

/-- The time, the order of the branches, and whether the connection has completed and the signal changed. -/
structure Turn where
  now : Nat
  order : List Branch
  connDone : Bool
  sigDone : Bool

inductive Closed
  | completed
  | forced (now : Nat)
deriving DecidableEq

structure Serving where
  timeout : Option TimeoutFuture
  sig : Bool
  graceful : List Nat
  closed : Option Closed
deriving DecidableEq

variable (c : Settings) (s : Serving)

def pollBranch (t : Turn) (s : Serving) : Branch → Bool × Serving
  | .conn => if t.connDone then (true, { s with closed := some .completed }) else (false, s)
  | .connectionTimeout =>
    match s.timeout.map (TimeoutFuture.poll c t.now) with
    | none => (false, s)
    | some (none, timeout) => (false, { s with timeout := some timeout })
    | some (some .gracefulShutdown, _) => (true, { s with timeout := none, graceful := s.graceful ++ [t.now] })
    | some (some .forcefulShutdown, _) => (true, { s with timeout := none, closed := some (.forced t.now) })
  | .sig =>
    if s.sig && t.sigDone then (true, { s with sig := false, graceful := s.graceful ++ [t.now] }) else (false, s)

def select (c : Settings) (t : Turn) : List Branch → Serving → Serving
  | [], s => s
  | b :: order, s =>
    match pollBranch c t s b with
    | (true, s) => s
    | (false, s) => select c t order s

def turn (t : Turn) : Serving := if s.closed.isSome then s else select c t t.order s

def serveConnection (watched : Bool) (turns : List Turn) : Serving :=
  turns.foldl (turn c) ⟨some .start, watched, [], none⟩

def Turns (turns : List Turn) : Prop :=
  turns.Pairwise (·.now ≤ ·.now) ∧ ∀ t ∈ turns, t.order.Perm [.conn, .connectionTimeout, .sig]

/-- The connection was closed by force only after a graceful shutdown and the grace period. -/
def Lawful : Prop := ∀ now, s.closed = some (.forced now) → ∃ t ∈ s.graceful, t + c.maxConnectionAgeGrace.getD 0 ≤ now

/-! ## Without an age or a grace period -/

def Calm : TimeoutFuture → Prop
  | .start => c.maxConnectionAge = none ∨ c.maxConnectionAgeGrace = none
  | .age _ => c.maxConnectionAgeGrace = none
  | .grace _ => False
  | .pending => True

structure Unforced (c : Settings) (s : Serving) : Prop where
  calm : ∀ f ∈ s.timeout, Calm c f
  closed : ∀ now, s.closed ≠ some (.forced now)

section
variable {c : Settings} {now : Nat} {t : Turn} {s : Serving}

theorem pollAge_calm (h : c.maxConnectionAgeGrace = none) (d : Nat) :
    (TimeoutFuture.pollAge c now d).1 ≠ some .forcefulShutdown ∧ Calm c (TimeoutFuture.pollAge c now d).2 := by
  unfold TimeoutFuture.pollAge
  split <;> simp [h, Calm]

theorem poll_calm {f : TimeoutFuture} (h : Calm c f) (now : Nat) :
    (f.poll c now).1 ≠ some .forcefulShutdown ∧ Calm c (f.poll c now).2 := by
  cases f with
  | start =>
    cases ha : c.maxConnectionAge with
    | none => simp [TimeoutFuture.poll, ha, Calm]
    | some p =>
      have hg : c.maxConnectionAgeGrace = none := h.resolve_left (by simp [ha])
      simpa only [TimeoutFuture.poll, ha] using pollAge_calm hg _
  | age d => exact pollAge_calm h d
  | grace d => exact h.elim
  | pending => simp [TimeoutFuture.poll, Calm]

theorem Unforced.pollBranch (h : Unforced c s) (b : Branch) : Unforced c (pollBranch c t s b).2 := by
  cases b with
  | conn =>
    rw [ConnectionAge.pollBranch]
    split
    · exact ⟨h.calm, by simp⟩
    · exact h
  | sig =>
    rw [ConnectionAge.pollBranch]
    split
    · exact ⟨h.calm, h.closed⟩
    · exact h
  | connectionTimeout =>
    rw [ConnectionAge.pollBranch]
    cases hf : s.timeout with
    | none => exact h
    | some f =>
      obtain ⟨ha, hf'⟩ := poll_calm (h.calm f hf) t.now
      rw [Option.map_some]
      rcases hp : f.poll c t.now with ⟨_ | _ | _, f'⟩ <;> rw [hp] at ha hf'
      · exact ⟨by simpa using hf', h.closed⟩
      · exact ⟨by simp, h.closed⟩
      · exact absurd rfl ha

theorem Unforced.select (h : Unforced c s) (o : List Branch) : Unforced c (select c t o s) := by
  induction o generalizing s with
  | nil => exact h
  | cons b o ih =>
    have hb := h.pollBranch (t := t) b
    rw [ConnectionAge.select]
    rcases hp : ConnectionAge.pollBranch c t s b with ⟨_ | _, s'⟩ <;> rw [hp] at hb
    · exact ih hb
    · exact hb

theorem Unforced.foldl (h : Unforced c s) (ts : List Turn) : Unforced c (ts.foldl (turn c) s) := by
  induction ts generalizing s with
  | nil => exact h
  | cons t ts ih =>
    refine ih ?_
    unfold turn
    split
    · exact h
    · exact h.select t.order

end

/-- The connection is closed by force when both periods have passed, though nothing else has happened. -/
def agedTurns (age grace : Nat) : List Turn :=
  [0, age, age + grace].map fun now => ⟨now, [.conn, .connectionTimeout, .sig], false, false⟩

theorem serveConnection_aged (age g : Nat) :
    serveConnection ⟨some age, some g⟩ false (agedTurns age g) = ⟨none, false, [], some (.forced (age + g))⟩ := by
  rcases Nat.eq_zero_or_pos age with rfl | ha <;> rcases Nat.eq_zero_or_pos g with rfl | hg <;>
    simp [serveConnection, agedTurns, turn, select, pollBranch, TimeoutFuture.poll, TimeoutFuture.pollAge,
      TimeoutFuture.pollGrace, *]

/-- Force comes only after a graceful shutdown and the grace period, exactly if one of the settings is missing. -/
theorem forced_after_grace (c : Settings) : (∀ w ts, Turns ts → Lawful c (serveConnection c w ts)) ↔
      c.maxConnectionAge = none ∨ c.maxConnectionAgeGrace = none := by
  constructor
  · intro h
    rcases c with ⟨_ | age, _ | grace⟩
    · exact .inl rfl
    · exact .inl rfl
    · exact .inr rfl
    · have ht : Turns (agedTurns age grace) := ⟨by simp [agedTurns], by simp [agedTurns]⟩
      obtain ⟨t, hm, -⟩ := h false _ ht (age + grace) (by rw [serveConnection_aged])
      simp [serveConnection_aged] at hm
  · intro hc w ts _ now hf
    have h : Unforced c ⟨some .start, w, [], none⟩ := ⟨fun f hf => by cases hf; exact hc, by simp⟩
    exact absurd hf ((h.foldl ts).closed now)

theorem forced_without_shutdown : serveConnection ⟨some 5, some 3⟩ false (agedTurns 5 3) =
    ⟨none, false, [], some (.forced 8)⟩ := by decide

end Tonic.ConnectionAge
