import GrpcRust.Lib.Transition
import GrpcRust.Lib.Watch
/-!
# Graceful shutdown of a server

`serve_with_shutdown`: an accept loop and a task per connection, with a watch channel in common
(`GracefulCoordinator`). A task's poll is one step; at its end it drops its futures one after the other.
-/

namespace Server

open Lib List

/-! ## The task of a connection -/

inductive TaskPhase where
  | serving
  | returned (result : Except String Unit)
  | connectionDropped
  | gone
deriving DecidableEq

structure ConnectionTask where
  receiver : Watch.Receiver
  gracefulShutdown : Bool
  phase : TaskPhase

/-- A pass of the loop: the branch that `select!` polls first, and what a poll of the connection gives. -/
structure Pass where
  connectionFirst : Bool
  connection : Option (Except String Unit)

inductive Selected where
  | connection (result : Except String Unit)
  | changed
  | closed
  | pending

def Pass.select (pass : Pass) (signal : Watch.Changed) : Selected :=
  match pass.connectionFirst, pass.connection, signal with
  | true, some result, _ => .connection result
  | _, _, .changed => .changed
  | _, _, .closed => .closed
  | _, some result, .pending => .connection result
  | _, none, .pending => .pending

namespace ConnectionTask

def watch (channel : Watch.Channel Unit) : ConnectionTask := ⟨.update channel, false, .serving⟩

/-- A poll of the task, which goes on as long as a branch is ready; `none` if it needs more passes. -/
def poll (channel : Watch.Channel Unit) : List Pass → ConnectionTask → Option ConnectionTask
  | [], _ => none
  | pass :: passes, task =>
    match pass.select (task.receiver.poll channel) with
    | .connection result => some { task with phase := .returned result }
    | .changed => poll channel passes { task with receiver := .update channel, gracefulShutdown := true }
    | .closed => some { task with phase := .returned (.ok ()) }
    | .pending => some task

def ended (task : ConnectionTask) : Bool := task.phase ≠ .serving

def dropped (task : ConnectionTask) : Bool := task.phase = .connectionDropped ∨ task.phase = .gone

end ConnectionTask

/-! ## `serve_with_shutdown` -/

inductive ServePhase where
  | accepting
  | stopped (exitErr : Option String)
  | draining (exitErr : Option String)
  | returned (result : Except String Unit)
  | dropped (drained : Bool)

def ServePhase.drained : ServePhase → Bool
  | .draining _ | .returned _ => true
  | .dropped drained => drained
  | .accepting | .stopped _ => false

/-- The accept loop with the connection tasks it has spawned. -/
structure Serving where
  channel : Watch.Channel Unit
  phase : ServePhase
  accepted : Nat
  tasks : List ConnectionTask

inductive ServeEvent where
  | accept
  | acceptError (err : String)
  | signal
  | sendShutdown
  | closed
  | dropServe
  | poll (task : Nat) (passes : List Pass)
  | dropConnection (task : Nat)
  | dropReceiver (task : Nat)

namespace Serving

def init : Serving := ⟨.new (), .accepting, 0, []⟩

def receiverCount (s : Serving) : Nat := s.tasks.countP (·.phase ≠ .gone)

def send (s : Serving) : Watch.Channel Unit :=
  if s.receiverCount = 0 then s.channel else s.channel.sendReplace ()

def result : Option String → Except String Unit
  | some err => .error err
  | none => .ok ()

def taskStep (s : Serving) (task : Nat) (f : ConnectionTask → Option ConnectionTask) : Option Serving :=
  (s.tasks[task]?.bind f).map fun next => { s with tasks := s.tasks.set task next }

def step (hasHandler : Bool) (s : Serving) : ServeEvent → Option Serving
  | .accept =>
    match s.phase with
    | .accepting =>
      -- Without a handler the connection is dropped at once.
      some { s with
        accepted := s.accepted + 1
        tasks := if hasHandler then s.tasks ++ [.watch s.channel] else s.tasks }
    | _ => none
  | .acceptError err =>
    match s.phase with
    | .accepting => some { s with phase := .stopped (some err) }
    | _ => none
  | .signal =>
    match s.phase with
    | .accepting => some { s with phase := .stopped none }
    | _ => none
  | .sendShutdown =>
    match s.phase with
    | .stopped exitErr => some { s with phase := .draining exitErr, channel := s.send }
    | _ => none
  | .closed =>
    match s.phase with
    | .draining exitErr =>
      if s.receiverCount = 0 then some { s with phase := .returned (result exitErr), channel := s.channel.close }
      else none
    | _ => none
  | .dropServe =>
    match s.phase with
    | .accepting => some { s with phase := .dropped false, channel := s.channel.close }
    | .draining _ => some { s with phase := .dropped true, channel := s.channel.close }
    | _ => none
  | .poll task passes => s.taskStep task fun t => if t.phase = .serving then t.poll s.channel passes else none
  | .dropConnection task => s.taskStep task fun t =>
    match t.phase with
    | .returned _ => some { t with phase := .connectionDropped }
    | _ => none
  | .dropReceiver task => s.taskStep task fun t =>
    match t.phase with
    | .connectionDropped => some { t with phase := .gone }
    | _ => none

end Serving

def serving (hasHandler : Bool) : Transition Serving ServeEvent where
  init := .init
  step := Serving.step hasHandler

/-! ## What a poll of a task does -/

theorem Pass.select_changed {p : Pass} {c : Watch.Changed} (h : p.select c = .changed) : c = .changed := by
  obtain ⟨first, cn⟩ := p
  cases first <;> cases cn <;> cases c <;> first | rfl | cases h

theorem Pass.select_pending {p : Pass} {c : Watch.Changed} (h : p.select c = .pending) : c = .pending := by
  obtain ⟨first, cn⟩ := p
  cases first <;> cases cn <;> cases c <;> first | rfl | cases h

namespace ConnectionTask
variable {c : Watch.Channel Unit} {task task' : ConnectionTask} {passes : List Pass}

structure Informed (channel : Watch.Channel Unit) (task : ConnectionTask) : Prop where
  seen : task.receiver.seen = some (if task.gracefulShutdown then 1 else 0)
  sent : task.gracefulShutdown = true → channel.version = 1

theorem Informed.close (h : Informed c task) : Informed c.close task := ⟨h.seen, h.sent⟩

theorem seen_of_poll_pending (h : task.receiver.poll c = .pending) :
    task.receiver.seen = some c.version ∧ c.closed = false := by
  unfold Watch.Receiver.poll at h
  split_ifs at h with hs hc
  exact ⟨not_not.1 hs, Bool.eq_false_iff.2 hc⟩

theorem seen_of_poll_changed (h : task.receiver.poll c = .changed) : task.receiver.seen ≠ some c.version := by
  unfold Watch.Receiver.poll at h
  split_ifs at h with hs
  exact hs

theorem Informed.poll (h : Informed c task) (hv : c.version ≤ 1) (hp : task.poll c passes = some task') :
    Informed c task' ∧ (c.version = 1 → task'.gracefulShutdown = true ∨ task'.ended = true) ∧
      (c.closed = true → task'.ended = true) := by
  induction passes generalizing task with
  | nil => cases hp
  | cons p passes ih =>
    rw [ConnectionTask.poll] at hp
    cases hs : p.select (task.receiver.poll c) with
    | connection r =>
      rw [hs] at hp
      cases hp
      exact ⟨⟨h.seen, h.sent⟩, fun _ => Or.inr rfl, fun _ => rfl⟩
    | changed =>
      rw [hs] at hp
      have hu := seen_of_poll_changed (Pass.select_changed hs)
      have ho : c.version = 1 := by
        cases hg : task.gracefulShutdown with
        | true => exact h.sent hg
        | false =>
          rw [h.seen, hg, if_neg Bool.false_ne_true] at hu
          have hne : c.version ≠ 0 := fun hz => hu (congrArg some hz.symm)
          omega
      exact ih ⟨congrArg some ho, fun _ => ho⟩ hp
    | closed =>
      rw [hs] at hp
      cases hp
      exact ⟨⟨h.seen, h.sent⟩, fun _ => Or.inr rfl, fun _ => rfl⟩
    | pending =>
      rw [hs] at hp
      cases hp
      obtain ⟨hsn, hc⟩ := seen_of_poll_pending (Pass.select_pending hs)
      refine ⟨h, fun ho => Or.inl ?_, fun h' => absurd (hc.symm.trans h') Bool.false_ne_true⟩
      rw [h.seen, ho] at hsn
      cases hg : task'.gracefulShutdown with
      | true => rfl
      | false =>
        rw [hg] at hsn
        cases hsn

theorem exists_poll (c : Watch.Channel Unit) (task : ConnectionTask) (first s : Pass) (rest : List Pass) :
    ∃ task', task.poll c (first :: s :: rest) = some task' := by
  rw [ConnectionTask.poll]
  cases first.select (task.receiver.poll c) with
  | connection r => exact ⟨_, rfl⟩
  | closed => exact ⟨_, rfl⟩
  | pending => exact ⟨_, rfl⟩
  | changed =>
    rw [ConnectionTask.poll]
    cases hs : s.select _ with
    | connection r => exact ⟨_, rfl⟩
    | closed => exact ⟨_, rfl⟩
    | pending => exact ⟨_, rfl⟩
    | changed => exact absurd rfl (seen_of_poll_changed (Pass.select_changed hs))

end ConnectionTask

/-! ## Every interleaving -/

namespace Serving
variable {hasHandler : Bool} {s s' : Serving} {ev : ServeEvent}

/-- The signal is sent at most once, before draining; a task has seen it exactly if it shuts down. -/
structure Inv (s : Serving) : Prop where
  informed : ∀ task ∈ s.tasks, task.Informed s.channel
  once : s.channel.version ≤ 1
  unsent : s.phase.drained = false → s.channel.version = 0
  sent : s.phase.drained = true → s.channel.version = 1 ∨ ∀ task ∈ s.tasks, task.phase = .gone
  closed : ∀ drained, s.phase = .dropped drained → s.channel.closed = true
  finished : ∀ result, s.phase = .returned result → ∀ task ∈ s.tasks, task.phase = .gone

theorem inv_init : init.Inv where
  informed _ h := absurd h not_mem_nil
  once := Nat.zero_le 1
  unsent _ := rfl
  sent h := absurd h Bool.false_ne_true
  closed _ h := by cases h
  finished _ h := by cases h

theorem receiverCount_eq_zero : s.receiverCount = 0 ↔ ∀ t ∈ s.tasks, t.phase = .gone := by
  rw [receiverCount, countP_eq_zero]
  exact forall₂_congr fun t _ => by simp

theorem Inv.taskStep (h : s.Inv) {i : Nat} {f : ConnectionTask → Option ConnectionTask}
    (hf : ∀ task task', task.Informed s.channel → f task = some task' → task.phase ≠ .gone ∧ task'.Informed s.channel)
    (hs : s.taskStep i f = some s') : s'.Inv := by
  obtain ⟨next, hn, rfl⟩ := Option.map_eq_some_iff.1 hs
  obtain ⟨task, hts, hf'⟩ := Option.bind_eq_some_iff.1 hn
  have hmem : task ∈ s.tasks := mem_of_getElem? hts
  obtain ⟨hg, hi⟩ := hf task next (h.informed task hmem) hf'
  refine ⟨fun t ht => ?_, h.once, h.unsent, fun hd => Or.inl ?_, h.closed, fun r hr => ?_⟩
  · rcases mem_or_eq_of_mem_set ht with ht | rfl
    · exact h.informed t ht
    · exact hi
  · exact (h.sent hd).resolve_right fun hall => hg (hall task hmem)
  · exact absurd (h.finished r hr task hmem) hg

theorem Inv.stop (h : s.Inv) (hp : s.phase = .accepting) (e : Option String) : Inv { s with phase := .stopped e } where
  informed := h.informed
  once := h.once
  unsent _ := h.unsent (hp ▸ rfl)
  sent h' := absurd h' Bool.false_ne_true
  closed _ h' := by cases h'
  finished _ h' := by cases h'

theorem Inv.step (h : s.Inv) (hs : s.step hasHandler ev = some s') : s'.Inv := by
  cases ev with
  | accept =>
    simp only [Serving.step] at hs
    split at hs
    · rename_i hp
      cases hs
      have hz := h.unsent (by rw [hp]; rfl)
      refine ⟨fun task ht => ?_, h.once, h.unsent, fun hdr => ?_, h.closed, fun r hrs => ?_⟩
      · dsimp only at ht
        split_ifs at ht
        · rcases List.mem_append.1 ht with ht | ht
          · exact h.informed task ht
          · rw [List.mem_singleton.1 ht]
            exact ⟨congrArg some hz, fun h' => absurd h' Bool.false_ne_true⟩
        · exact h.informed task ht
      · rw [hp] at hdr
        cases hdr
      · cases hp.symm.trans hrs
    · cases hs
  | acceptError err =>
    simp only [Serving.step] at hs
    split at hs
    · rename_i hp
      cases hs
      exact h.stop hp _
    · cases hs
  | signal =>
    simp only [Serving.step] at hs
    split at hs
    · rename_i hp
      cases hs
      exact h.stop hp _
    · cases hs
  | sendShutdown =>
    simp only [Serving.step] at hs
    split at hs
    · rename_i e hp
      cases hs
      have hz := h.unsent (by rw [hp]; rfl)
      have hv : s.send.version = if s.receiverCount = 0 then 0 else 1 := by
        unfold send
        split_ifs
        · exact hz
        · exact congrArg (· + 1) hz
      refine ⟨fun task ht => ?_, ?_, fun h' => (by cases h'), fun _ => ?_, fun _ h' => (by cases h'),
        fun _ h' => (by cases h')⟩
      · have hi := h.informed task ht
        -- Nobody has seen it yet.
        refine ⟨hi.seen, fun hgr => ?_⟩
        exact absurd (hz.symm.trans (hi.sent hgr)) Nat.zero_ne_one
      · rw [hv]
        split_ifs <;> decide
      · rw [hv]
        split_ifs with hc
        · exact Or.inr (receiverCount_eq_zero.1 hc)
        · exact Or.inl rfl
    · cases hs
  | closed =>
    simp only [Serving.step] at hs
    split at hs
    · rename_i e hp
      split_ifs at hs with hc
      cases hs
      exact ⟨fun task ht => (h.informed task ht).close, h.once,
        fun h' => (by cases h'), fun _ => h.sent (by rw [hp]; rfl), fun _ h' => (by cases h'),
        fun _ _ => receiverCount_eq_zero.1 hc⟩
    · cases hs
  | dropServe =>
    simp only [Serving.step] at hs
    split at hs
    · rename_i hp
      cases hs
      exact ⟨fun task ht => (h.informed task ht).close, h.once,
        fun _ => h.unsent (by rw [hp]; rfl), fun h' => absurd h' Bool.false_ne_true, fun _ _ => rfl,
        fun _ h' => (by cases h')⟩
    · rename_i e hp
      cases hs
      exact ⟨fun task ht => (h.informed task ht).close, h.once,
        fun h' => (by cases h'), fun _ => h.sent (by rw [hp]; rfl), fun _ _ => rfl, fun _ h' => (by cases h')⟩
    · cases hs
  | poll task ps =>
    refine h.taskStep (fun t t' hi hpl => ?_) hs
    split_ifs at hpl with hsr
    rw [hsr]
    exact ⟨fun hg => (by cases hg), (hi.poll h.once hpl).1⟩
  | dropConnection task =>
    refine h.taskStep (fun t t' hi hd => ?_) hs
    split at hd
    · rename_i hr
      cases hd
      rw [hr]
      exact ⟨fun hg => (by cases hg), ⟨hi.seen, hi.sent⟩⟩
    · cases hd
  | dropReceiver task =>
    refine h.taskStep (fun t t' hi hd => ?_) hs
    split at hd
    · rename_i hdp
      cases hd
      rw [hdp]
      exact ⟨fun hg => (by cases hg), ⟨hi.seen, hi.sent⟩⟩
    · cases hd

theorem inv_of_reached (h : (serving hasHandler).Reached s) : s.Inv :=
  Transition.Reachable.inv inv_init (fun _ _ _ hi _ hs => hi.step hs) h

theorem poll_eq_some {i : Nat} {ps : List Pass} (hst : s.step hasHandler (.poll i ps) = some s') :
    ∃ task task', s.tasks[i]? = some task ∧ task.phase = .serving ∧ task.poll s.channel ps = some task' ∧
      s'.tasks[i]? = some task' := by
  obtain ⟨task', hn, rfl⟩ := Option.map_eq_some_iff.1 hst
  obtain ⟨task, ht, hp⟩ := Option.bind_eq_some_iff.1 hn
  split_ifs at hp with hs
  refine ⟨task, task', ht, hs, hp, ?_⟩
  rw [getElem?_set_self (List.getElem?_eq_some_iff.1 ht).1]

theorem accepted_step (hp : s.phase ≠ .accepting) (hs : s.step hasHandler ev = some s') :
    s'.phase ≠ .accepting ∧ s'.accepted = s.accepted ∧ s'.tasks.length = s.tasks.length := by
  have ht {i : Nat} {f : ConnectionTask → Option ConnectionTask} (h : s.taskStep i f = some s') :
      s'.phase ≠ .accepting ∧ s'.accepted = s.accepted ∧ s'.tasks.length = s.tasks.length := by
    obtain ⟨next, _, rfl⟩ := Option.map_eq_some_iff.1 h
    exact ⟨hp, rfl, length_set⟩
  cases ev with
  | accept | acceptError err | signal =>
    simp only [Serving.step] at hs
    cases hs
  | sendShutdown =>
    simp only [Serving.step] at hs
    split at hs
    · cases hs
      exact ⟨fun h => (by cases h), rfl, rfl⟩
    · cases hs
  | closed =>
    simp only [Serving.step] at hs
    split at hs
    · split_ifs at hs
      cases hs
      exact ⟨fun h => (by cases h), rfl, rfl⟩
    · cases hs
  | dropServe =>
    simp only [Serving.step] at hs
    split at hs
    · exact absurd ‹s.phase = .accepting› hp
    · cases hs
      exact ⟨fun h => (by cases h), rfl, rfl⟩
    · cases hs
  | poll i ps => exact ht hs
  | dropConnection i => exact ht hs
  | dropReceiver i => exact ht hs

theorem accepted_run (hp : s.phase ≠ .accepting) {es : List ServeEvent} (hr : es.foldlM (step hasHandler) s = some s') :
    s'.accepted = s.accepted ∧ s'.tasks.length = s.tasks.length := by
  induction es generalizing s with
  | nil =>
    cases hr
    exact ⟨rfl, rfl⟩
  | cons e es ih =>
    rw [foldlM_cons] at hr
    obtain ⟨next, hs, hrest⟩ := Option.bind_eq_some_iff.1 hr
    obtain ⟨hn, ha, hl⟩ := accepted_step hp hs
    obtain ⟨ha', hl'⟩ := ih hn hrest
    exact ⟨ha'.trans ha, hl'.trans hl⟩

end Serving

section Results
variable {hasHandler : Bool} {s : Serving}

/-- After the signal a polled task has passed it on or ends; `serve` returns when all connections are gone. -/
theorem shutdown_graceful (h : (serving hasHandler).Reached s) :
    (∀ i task, s.tasks[i]? = some task → task.phase = .serving → ∀ first sc rest,
      ∃ s', s.step hasHandler (.poll i (first :: sc :: rest)) = some s') ∧
    (s.phase.drained = true → (∀ i ps s', s.step hasHandler (.poll i ps) = some s' →
        ∃ task, s'.tasks[i]? = some task ∧ (task.gracefulShutdown = true ∨ task.ended = true)) ∧
      ∀ (es : List ServeEvent) (s' : Serving), es.foldlM (Serving.step hasHandler) s = some s' →
        s'.accepted = s.accepted ∧ s'.tasks.length = s.tasks.length) ∧
    (∀ r, s.phase = .returned r → ∀ task ∈ s.tasks, task.ended = true ∧ task.dropped = true) ∧
    ∀ d, s.phase = .dropped d → ∀ i ps s', s.step hasHandler (.poll i ps) = some s' →
      ∃ task, s'.tasks[i]? = some task ∧ task.ended = true := by
  have hi := Serving.inv_of_reached h
  refine ⟨?_, fun hd => ⟨?_, ?_⟩, ?_, ?_⟩
  · intro i task ht hs first sc rest
    obtain ⟨task', hpl⟩ := ConnectionTask.exists_poll s.channel task first sc rest
    refine ⟨{ s with tasks := s.tasks.set i task' }, ?_⟩
    rw [Serving.step, Serving.taskStep, ht, Option.bind_some, if_pos hs, hpl]
    rfl
  · intro i ps s' hst
    obtain ⟨task, task', ht, hs, hpl, ht'⟩ := Serving.poll_eq_some hst
    have hmem : task ∈ s.tasks := mem_of_getElem? ht
    have hsn : s.channel.version = 1 := (hi.sent hd).resolve_right fun hg => by
      cases hs.symm.trans (hg task hmem)
    exact ⟨task', ht', ((hi.informed task hmem).poll hi.once hpl).2.1 hsn⟩
  · intro es s' hr
    refine Serving.accepted_run (fun hp => ?_) hr
    rw [hp] at hd
    cases hd
  · intro r hp task ht
    have hg := hi.finished r hp task ht
    rw [ConnectionTask.ended, ConnectionTask.dropped, hg]
    exact ⟨rfl, rfl⟩
  · intro d hp i ps s' hst
    obtain ⟨task, task', ht, _, hpl, ht'⟩ := Serving.poll_eq_some hst
    have hin := hi.informed task (mem_of_getElem? ht)
    exact ⟨task', ht', (hin.poll hi.once hpl).2.2 (hi.closed d hp)⟩

/-- The signal comes with two connections open; one is done, and the future is dropped while the other drains. -/
def drainingRun : List ServeEvent :=
  [.accept, .accept, .poll 0 [⟨true, none⟩], .signal, .sendShutdown, .poll 0 [⟨true, none⟩, ⟨false, none⟩],
    .poll 1 [⟨true, some (.ok ())⟩], .dropConnection 1, .dropReceiver 1, .dropServe]

theorem shutdown_graceful_dropped :
    ∃ s, (serving true).run drainingRun = some s ∧ s.phase = .dropped true ∧
      s.tasks.map (·.gracefulShutdown) = [true, false] ∧
      ∀ i ps s', s.step true (.poll i ps) = some s' → ∃ t, s'.tasks[i]? = some t ∧ t.ended = true :=
  ⟨_, rfl, rfl, rfl, (shutdown_graceful (Transition.reached_of_run
    (show (serving true).run drainingRun = some _ from rfl))).2.2.2 true rfl⟩

end Results

end Server
