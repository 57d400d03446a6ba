import GrpcRust.Lib.Transition
import GrpcRust.LoadBalancing.Subchannel
/-!
# The channel's subchannels

`client/subchannel.rs`, with the steps of the background task interleaved. A drop wakes registered waits only, and a
wait is registered at the `select!`, after the section that reports the state.
-/

namespace Client

open Lib LoadBalancing

variable {R : Type}

inductive InternalSubchannelState (R : Type) where
  | idle
  | connecting
  | ready (svc : R)
  | transientFailure (error : String)

def InternalSubchannelState.toSubchannelState : InternalSubchannelState R → SubchannelState
  | .idle => ⟨.idle, none⟩
  | .connecting => ⟨.connecting, none⟩
  | .ready _ => ⟨.ready, none⟩
  | .transientFailure error => ⟨.transientFailure, some error⟩

inductive Wait where
  | connecting
  | ready
  | backoff
deriving DecidableEq

inductive Task (R : Type) where
  | none
  | spawned
  | waiting (wait : Wait) (notified : Bool)
  | movingToReady (svc : R)
  | movingToTransientFailure (error : String)
  | reported (wait : Wait)
  | movingToIdle

def Task.notifyWaiters : Task R → Task R
  | .waiting wait _ => .waiting wait true
  | task => task

def Task.Fits : Task R → InternalSubchannelState R → Prop
  | .none, _ => True
  | .spawned, state => state = .connecting
  | .waiting .connecting _, state => state = .connecting
  | .movingToReady _, state => state = .connecting
  | .movingToTransientFailure _, state => state = .connecting
  | .waiting .ready _, state => ∃ svc, state = .ready svc
  | .reported .ready, state => ∃ svc, state = .ready svc
  | .waiting .backoff _, state => ∃ error, state = .transientFailure error
  | .reported .backoff, state => ∃ error, state = .transientFailure error
  | .movingToIdle, state => state ≠ .idle
  | .reported .connecting, _ => False

def Task.Ending : Task R → Prop
  | .none => True
  | .movingToIdle => True
  | .waiting _ notified => notified = true
  | _ => False

def Task.remaining : Task R → Nat
  | .none => 0
  | .movingToIdle => 1
  | _ => 2

/-- `strong` counts references, `dropped` tells that `drop` has run, `scheduled` are the updates for the scheduler. -/
structure InternalSubchannel (R : Type) where
  state : InternalSubchannelState R
  task : Task R
  strong : Nat
  dropped : Bool
  scheduled : List SubchannelState

namespace InternalSubchannel

def new : InternalSubchannel R := ⟨.idle, .none, 1, false, []⟩

variable (s : InternalSubchannel R)

def updateState (state : InternalSubchannelState R) : InternalSubchannel R :=
  if s.strong = 0 then { s with state := state }
  else
    { s with
      state := state
      strong := s.strong + 1
      scheduled := s.scheduled ++ [state.toSubchannelState] }

def beginConnectingIfIdle : InternalSubchannel R :=
  match s.state with
  | .idle => { s.updateState .connecting with task := .spawned }
  | _ => s

end InternalSubchannel

inductive Event (R : Type) where
  | connect
  | clone
  | release
  | drop
  | poll
  | cancel
  | timeout
  | connected (svc : R)
  | failed (error : String)
  | closed
  | backoffExpired
  | report
  | register

namespace InternalSubchannel

def step (s : InternalSubchannel R) : Event R → Option (InternalSubchannel R)
  | .connect => if s.strong = 0 then none else some s.beginConnectingIfIdle
  | .clone => if s.strong = 0 then none else some { s with strong := s.strong + 1 }
  | .release => if s.strong = 0 then none else some { s with strong := s.strong - 1 }
  | .drop =>
    if s.strong = 0 ∧ s.dropped = false then some { s with dropped := true, task := s.task.notifyWaiters } else none
  | .poll =>
    match s.task with
    | .spawned => some { s with task := .waiting .connecting false }
    | _ => none
  | .cancel =>
    match s.task with
    | .waiting _ true => some { s with task := .none }
    | _ => none
  | .timeout =>
    match s.task with
    | .waiting .connecting _ => some { s with task := .movingToTransientFailure "connect timeout expired" }
    | _ => none
  | .connected svc =>
    match s.task with
    | .waiting .connecting _ => some { s with task := .movingToReady svc }
    | _ => none
  | .failed error =>
    match s.task with
    | .waiting .connecting _ => some { s with task := .movingToTransientFailure error }
    | _ => none
  | .closed =>
    match s.task with
    | .waiting .ready _ => some { s with task := .movingToIdle }
    | _ => none
  | .backoffExpired =>
    match s.task with
    | .waiting .backoff _ => some { s with task := .movingToIdle }
    | _ => none
  | .report =>
    match s.task with
    | .movingToReady svc => some { s.updateState (.ready svc) with task := .reported .ready }
    | .movingToTransientFailure error =>
      some { s.updateState (.transientFailure error) with task := .reported .backoff }
    | .movingToIdle => some { s.updateState .idle with task := .none }
    | _ => none
  | .register =>
    match s.task with
    | .reported wait => some { s with task := .waiting wait false }
    | _ => none

def machine : Transition (InternalSubchannel R) (Event R) := ⟨new, step⟩

variable {s s' : InternalSubchannel R} {e : Event R}

variable (st : InternalSubchannelState R)

@[simp] theorem state_updateState (state : InternalSubchannelState R) : (s.updateState state).state = state := by
  unfold updateState
  split <;> rfl

@[simp] theorem dropped_updateState : (s.updateState st).dropped = s.dropped := by
  unfold updateState
  split <;> rfl

theorem strong_updateState : (s.updateState st).strong = 0 ↔ s.strong = 0 := by
  unfold updateState
  split
  · exact Iff.rfl
  · simp [*]

theorem fits_notifyWaiters {t : Task R} {state : InternalSubchannelState R} (h : t.Fits state) :
    t.notifyWaiters.Fits state := by
  cases t with
  | waiting w n => cases w <;> exact h
  | _ => exact h

theorem fits_step (h : s.task.Fits s.state) (hs : s.step e = some s') : s'.task.Fits s'.state := by
  cases e with
  | connect =>
    simp only [step] at hs
    split at hs
    · cases hs
    · cases hs
      unfold beginConnectingIfIdle
      split
      · exact state_updateState _
      · exact h
  | clone | release =>
    simp only [step] at hs
    split at hs <;> cases hs
    exact h
  | drop =>
    simp only [step] at hs
    split at hs <;> cases hs
    exact fits_notifyWaiters h
  | poll =>
    cases ht : s.task <;> simp only [step, ht] at hs <;> cases hs
    rw [ht] at h
    exact h
  | cancel =>
    simp only [step] at hs
    split at hs <;> cases hs
    trivial
  | timeout | connected svc | failed er =>
    simp only [step] at hs
    split at hs <;> cases hs
    rename_i ht
    rw [ht] at h
    exact h
  | closed | backoffExpired =>
    simp only [step] at hs
    split at hs <;> cases hs
    rename_i ht
    rw [ht] at h
    obtain ⟨x, hx⟩ := h
    simp [Task.Fits, hx]
  | report =>
    simp only [step] at hs
    split at hs <;> cases hs
    · exact ⟨_, state_updateState _⟩
    · exact ⟨_, state_updateState _⟩
    · trivial
  | register =>
    simp only [step] at hs
    split at hs <;> cases hs
    rename_i w ht
    rw [ht] at h
    cases w
    · exact h.elim
    · exact h
    · exact h

/-- In every interleaving there is no task in `IDLE`, so `connect` never starts a second one. -/
theorem no_task_in_idle {C : InternalSubchannel R → Event R → Prop} (h : machine.Reachable C s) (hi : s.state = .idle) :
    s.task = .none := by
  have hf : s.task.Fits s.state := h.inv (P := fun s => s.task.Fits s.state) trivial
    fun _ _ _ h _ hs => fits_step h hs
  rw [hi] at hf
  cases ht : s.task with
  | none => rfl
  | waiting w n => rw [ht] at hf; cases w <;> simp [Task.Fits] at hf
  | reported w => rw [ht] at hf; cases w <;> simp [Task.Fits] at hf
  | _ => rw [ht] at hf; simp [Task.Fits] at hf

theorem no_task_in_idle_closed : ∃ s : InternalSubchannel Unit, machine.Reached s ∧ s.task = .none := by
  have h : machine.run [.connect, .poll, .connected (), .report, .register, .closed, .report] =
    some (_ : InternalSubchannel Unit) := rfl
  have h := Transition.reached_of_run h
  exact ⟨_, h, no_task_in_idle h rfl⟩

/-! ## The drop -/

/-- The drop comes after the task's first poll and in a wait, and a connecting task it wakes takes that branch. -/
def Allowed (s : InternalSubchannel R) : Event R → Prop
  | .drop => s.task = .none ∨ s.task = .movingToIdle ∨ ∃ wait notified, s.task = .waiting wait notified
  | .timeout => s.task ≠ .waiting .connecting true
  | .connected _ => s.task ≠ .waiting .connecting true
  | .failed _ => s.task ≠ .waiting .connecting true
  | _ => True

theorem ending_notifyWaiters {task : Task R}
    (h : task = .none ∨ task = .movingToIdle ∨ ∃ wait notified, task = .waiting wait notified) :
    task.notifyWaiters.Ending := by
  rcases h with rfl | rfl | ⟨wait, notified, rfl⟩
  · trivial
  · trivial
  · rfl

def Gone (s : InternalSubchannel R) : Prop := s.dropped = true → s.strong = 0 ∧ s.task.Ending

theorem ending_step (h : s.task.Ending) (h0 : s.strong = 0) (hc : s.Allowed e)
    (hs : s.step e = some s') : s'.strong = 0 ∧ s'.task.Ending ∧
      (s'.task = s.task ∨ s'.task.remaining < s.task.remaining) := by
  cases e with
  | connect | clone | release => simp [step, h0] at hs
  | drop =>
    simp only [step] at hs
    split at hs <;> cases hs
    refine ⟨h0, ending_notifyWaiters hc, ?_⟩
    cases ht : s.task <;> rw [ht] at h <;> simp_all [Task.notifyWaiters, Task.Ending]
  | poll | register =>
    simp only [step] at hs
    split at hs <;> cases hs
    rename_i ht
    rw [ht] at h
    exact h.elim
  | cancel =>
    simp only [step] at hs
    split at hs <;> cases hs
    rename_i ht
    exact ⟨h0, trivial, .inr (by simp [ht, Task.remaining])⟩
  | timeout | connected svc | failed er =>
    simp only [step] at hs
    split at hs <;> cases hs
    rename_i n ht
    rw [ht] at h
    cases h
    exact absurd ht hc
  | closed | backoffExpired =>
    simp only [step] at hs
    split at hs <;> cases hs
    rename_i ht
    exact ⟨h0, trivial, .inr (by simp [ht, Task.remaining])⟩
  | report =>
    simp only [step] at hs
    split at hs <;> cases hs <;> rename_i ht <;> rw [ht] at h
    · exact h.elim
    · exact h.elim
    · exact ⟨(strong_updateState _).2 h0, trivial, .inr (by simp [ht, Task.remaining])⟩

theorem dropped_step (hs : s.step e = some s') : e = .drop ∨ s'.dropped = s.dropped := by
  cases e with
  | drop => exact .inl rfl
  | connect =>
    simp only [step] at hs
    split at hs <;> cases hs
    unfold beginConnectingIfIdle
    split <;> simp
  | _ =>
    simp only [step] at hs
    split at hs <;> cases hs <;> simp

theorem gone_step (h : s.Gone) (hc : s.Allowed e) (hs : s.step e = some s') : s'.Gone := by
  intro hd
  by_cases ho : s.dropped = true
  · obtain ⟨h0, he⟩ := h ho
    obtain ⟨h0', he', -⟩ := ending_step he h0 hc hs
    exact ⟨h0', he'⟩
  · rcases dropped_step hs with rfl | hsame
    · simp only [step] at hs
      split at hs <;> cases hs
      exact ⟨‹_ ∧ _›.1, ending_notifyWaiters hc⟩
    · exact absurd (hsame ▸ hd) ho

/-- In runs that meet the condition a dropped subchannel's task is in no wait, can take its steps, and ends after
two. -/
theorem drop_ends_task (h : machine.Reachable Allowed s) (hd : s.dropped = true) : (∀ w, s.task ≠ .waiting w false) ∧
    (∀ e s', s.Allowed e → s.step e = some s' → s'.task = s.task ∨ s'.task.remaining < s.task.remaining) ∧
    (s.task ≠ .none → ∃ e s', s.Allowed e ∧ s.step e = some s' ∧ s'.task.remaining < s.task.remaining) := by
  obtain ⟨h0, he⟩ := h.inv (P := Gone) (fun h => by cases h) (fun _ _ _ h hc hs => gone_step h hc hs) hd
  refine ⟨fun w ht => ?_, fun e s' hc hs => (ending_step he h0 hc hs).2.2, fun hne => ?_⟩
  · rw [ht] at he
    cases he
  · cases ht : s.task with
    | none => exact absurd ht hne
    | waiting w n =>
      rw [ht] at he
      cases he
      exact ⟨.cancel, { s with task := .none }, trivial, by simp only [step, ht], by simp [Task.remaining]⟩
    | movingToIdle =>
      exact ⟨.report, { s.updateState .idle with task := .none }, trivial, by simp only [step, ht],
        by simp [Task.remaining]⟩
    | _ =>
      rw [ht] at he
      exact he.elim

/-- The subchannel is dropped while its connection is up. -/
theorem drop_ends_task_connected : ∃ s : InternalSubchannel Unit, machine.Reachable Allowed s ∧
    s.task = .waiting .ready true ∧ ∀ w, s.task ≠ .waiting w false := by
  have h : machine.Reachable Allowed (new : InternalSubchannel Unit) := .init
  have h := h.step Event.connect trivial rfl
  have h := h.step Event.poll trivial rfl
  have h := h.step (Event.connected ()) (fun h => by cases h) rfl
  have h := h.step Event.report trivial rfl
  have h := h.step Event.register trivial rfl
  have h := h.step Event.release trivial rfl
  have h := h.step Event.release trivial rfl
  have h := h.step Event.release trivial rfl
  have h := h.step Event.drop (.inr (.inr ⟨.ready, false, rfl⟩)) rfl
  exact ⟨_, h, rfl, (drop_ends_task h rfl).1⟩

/-- The drop is lost before the first poll, between a report and the next wait, and when the connection is made
first. -/
theorem drop_lost : ∃ s₁ s₂ s₃ s₄ : InternalSubchannel Unit,
    machine.run [.connect, .release, .release, .drop, .poll] = some s₁ ∧
    s₁.dropped = true ∧ s₁.task = .waiting .connecting false ∧
    machine.run [.connect, .poll, .connected (), .report, .release, .release, .release, .drop, .register] = some s₂ ∧
    s₂.dropped = true ∧ s₂.task = .waiting .ready false ∧
    machine.run [.connect, .poll, .timeout, .report, .release, .release, .release, .drop, .register] = some s₃ ∧
    s₃.dropped = true ∧ s₃.task = .waiting .backoff false ∧
    machine.run [.connect, .poll, .release, .release, .drop, .connected (), .report, .register] = some s₄ ∧
    s₄.dropped = true ∧ s₄.task = .waiting .ready false :=
  ⟨_, _, _, _, rfl, rfl, rfl, rfl, rfl, rfl, rfl, rfl, rfl, rfl, rfl, rfl⟩

end InternalSubchannel

end Client
