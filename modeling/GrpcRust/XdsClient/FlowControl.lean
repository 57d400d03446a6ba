import GrpcRust.XdsClient.Turn
/-!
# Flow control between the worker, the transport and the watchers

A response comes with a completion token; the next one is read when every share of it is gone. Shares travel with the
events to the watchers. `System.step` is one move of worker, transport or watcher.
-/

namespace XdsClient

open Lib AdsWorker List

variable {B V : Type} {cmd : WorkerCommand B V} {sig : Signal}

/-! ## The system -/

inductive Transport where
  | idle
  | connecting (next : SessionId)
  | streaming (session : SessionId) (seq : Nat) (waiting : Bool)
  | failing (next : SessionId) (replied : Bool)
  | stopped
deriving DecidableEq

variable {t : Transport}

/-- The worker with its queue, the transport task, and the events that watchers have not finished with. -/
structure System (B V : Type) where
  actor : Actor B V
  queue : List (WorkerCommand B V)
  transport : Transport
  inbox : List (Delivery V)
  held : List ProcessingDone
  connected : List SessionId

inductive Action (B V : Type) where
  | command (event : WatchEvent B V)
  | requestSnapshot
  | handle (env : Env)
  | close
  | connect
  | failSetup
  | read (bytes : B)
  | resume
  | endStream
  | retry
  | stop
  | receive (id : WatcherId)
  | release (done : ProcessingDone)
  | dropWatcher (id : WatcherId)

def Effect.isSpawn : Effect B V → Bool
  | .spawnTransport => true
  | _ => false

def Effect.isReply : Effect B V → Bool
  | .sawResponse _ => true
  | _ => false

def Transport.notice (effects : List (Effect B V)) : Transport → Transport
  | .idle => if effects.any (·.isSpawn) then .connecting 0 else .idle
  | .failing next replied => .failing next (replied || effects.any (·.isReply))
  | t => t

def WorkerCommand.token? : WorkerCommand B V → Option Signal
  | .transport (.response _ done) => done.signal
  | _ => none

def WorkerCommand.session? : WorkerCommand B V → Option SessionId
  | .transport (.ready session) => some session
  | .transport (.response _ done) => done.signal.map (·.session)
  | _ => none

namespace System

def holds (S : System B V) (sig : Signal) : Bool :=
  S.queue.any (fun cmd => decide (cmd.token? = some sig)) ||
    S.inbox.any (fun d => decide (d.2.done.signal = some sig)) ||
    S.held.any (fun done => decide (done.signal = some sig))

def init (cfg : Config B) : System B V := ⟨.init cfg, [], .idle, [], [], []⟩

def send (S : System B V) (cmd : WorkerCommand B V) : System B V := { S with queue := S.queue ++ [cmd] }

def step (cfg : Config B) (S : System B V) : Action B V → Option (System B V)
  | .command event => some (S.send (.watcher event))
  | .requestSnapshot => some (S.send .snapshot)
  | .handle env =>
    match S.queue with
    | [] => none
    | cmd :: rest =>
      if S.actor.running then
        let turn := S.actor.step cfg (env, cmd)
        some { S with
          actor := turn.1
          queue := rest
          transport := S.transport.notice turn.2
          inbox := S.inbox ++ events turn.2
          connected := S.connected ++ cmd.readySession?.toList }
      else none
  | .close => if S.actor.running then none else some { S with queue := [], transport := .stopped }
  | .connect =>
    match S.transport with
    | .connecting next => some { S.send (.transport (.ready next)) with transport := .streaming next 0 false }
    | _ => none
  | .failSetup =>
    match S.transport with
    | .connecting next => some { S.send (.transport .failed) with transport := .failing next false }
    | _ => none
  | .read bytes =>
    match S.transport with
    | .streaming session seq false =>
      some { S.send (.transport (.response bytes (.channel ⟨session, seq⟩))) with
        transport := .streaming session seq true }
    | _ => none
  | .resume =>
    match S.transport with
    | .streaming session seq true =>
      if S.holds ⟨session, seq⟩ then none else some { S with transport := .streaming session (seq + 1) false }
    | _ => none
  | .endStream =>
    match S.transport with
    | .streaming session _ _ => some { S.send (.transport .failed) with transport := .failing (session + 1) false }
    | _ => none
  | .retry =>
    match S.transport with
    | .failing next true => some { S with transport := .connecting next }
    | _ => none
  | .stop =>
    match S.transport with
    | .idle => none
    | .stopped => none
    | _ => some { S.send .transportStopped with transport := .stopped }
  | .receive id =>
    match S.inbox.find? fun d => decide (d.1 = id) with
    | none => none
    | some d =>
      some { S with
        inbox := S.inbox.eraseP fun d => decide (d.1 = id)
        held := S.held ++ [d.2.done] }
  | .release done => some { S with held := S.held.erase done }
  | .dropWatcher id =>
    some { S.send (.watcher (.unwatch id)) with inbox := S.inbox.filter fun d => decide (d.1 ≠ id) }

end System

inductive Reachable (cfg : Config B) : System B V → Prop where
  | init : Reachable cfg (.init cfg)
  | step {S S' : System B V} (action : Action B V) : Reachable cfg S → S.step cfg action = some S' → Reachable cfg S'

def System.after (cfg : Config B) (actions : List (Action B V)) : System B V :=
  actions.foldl (fun S action => (S.step cfg action).getD S) (.init cfg)

theorem reachable_after (cfg : Config B) (ac : List (Action B V)) : Reachable cfg (.after cfg ac) := by
  induction ac using List.reverseRecOn with
  | nil => exact .init
  | append_singleton ac a ih =>
    rw [System.after, foldl_append]
    change Reachable cfg (((System.after cfg ac).step cfg a).getD (System.after cfg ac))
    cases h : (System.after cfg ac).step cfg a with
    | none => exact ih
    | some S => exact .step a ih h

theorem token_of_event (cfg : Config B) {a : Actor B V} {env : Env} {d : Delivery V}
    (hd : d ∈ events ((worker cfg).out a (env, cmd))) (hs : d.2.done.signal = some sig) : cmd.token? = some sig := by
  obtain ⟨-, -, ho⟩ | ⟨v, -, hc, -, he, -⟩ := step_cases cfg a (env, cmd)
  · rw [ho] at hd; cases hd
  · rw [he] at hd
    cases hc with
    | keep | unwatch | unwatchLast | lapse | ready | failed => cases hd
    | watch T n id dc rq =>
      -- What is replayed from the cache is detached.
      rw [replay] at hd
      split at hd
      · cases hd
      · obtain ⟨ev, hev, rfl⟩ := Option.map_eq_some_iff.1 (Option.mem_toList.1 hd)
        obtain ⟨c, -, hev⟩ := Option.bind_eq_some_iff.1 hev
        rw [c.toEvent_eq] at hev
        obtain ⟨r, -, rfl⟩ := Option.map_eq_some_iff.1 hev
        cases hs
    | expire hid hts =>
      obtain ⟨u, -, hd⟩ := List.mem_flatMap.1 hd
      obtain ⟨i, -, rfl⟩ := List.mem_map.1 hd
      cases hs
    | response hr hts =>
      obtain ⟨u, -, hd⟩ := List.mem_flatMap.1 hd
      obtain ⟨i, -, rfl⟩ := List.mem_map.1 hd
      exact hs

namespace System

theorem holds_iff {S : System B V} {sig : Signal} :
    S.holds sig = true ↔ (∃ cmd ∈ S.queue, cmd.token? = some sig) ∨ (∃ d ∈ S.inbox, d.2.done.signal = some sig) ∨
      ∃ done ∈ S.held, done.signal = some sig := by
  simp [holds, or_assoc]

def sessions (S : System B V) : List SessionId := S.queue.filterMap (·.session?)

end System

/-! ## The joint invariant -/

def Transport.Admits (sig : Signal) : Transport → Prop
  | .idle => False
  | .connecting next => sig.session < next
  | .streaming session seq waiting => sig.session < session ∨ (waiting = true ∧ sig = ⟨session, seq⟩)
  | .failing next _ => sig.session < next
  | .stopped => True

def Transport.Started (k : SessionId) : Transport → Prop
  | .idle => False
  | .connecting next => k < next
  | .streaming session _ _ => k ≤ session
  | .failing next _ => k < next
  | .stopped => True

def WorkerCommand.Tagged (cmd : WorkerCommand B V) : Prop :=
  ∀ bytes done, cmd = .transport (.response bytes done) → ∃ sig, done = .channel sig

/-- Tokens are of streams already started, of the current one only the last response's; events are in stream order. -/
structure FlowInv (S : System B V) : Prop where
  tagged : ∀ cmd ∈ S.queue, cmd.Tagged
  tokens : ∀ sig, S.holds sig = true → S.transport.Admits sig
  sorted : S.sessions.Pairwise (· ≤ ·)
  order : ∀ j ∈ S.connected, ∀ k ∈ S.sessions, j ≤ k
  started : ∀ k, k ∈ S.connected ∨ k ∈ S.sessions → S.transport.Started k

variable {cfg : Config B} {S S' : System B V} {k : SessionId}

theorem flowInv_init (cfg : Config B) : FlowInv (.init cfg : System B V) :=
  ⟨fun _ h => (by cases h), fun _ h => (by cases h), .nil, fun _ h => (by cases h), by rintro k (h | h) <;> cases h⟩

theorem FlowInv.shrink (hi : FlowInv S) (hq : ∀ cmd ∈ S'.queue, cmd ∈ S.queue ∨ cmd.Tagged)
    (hh : ∀ sig, S'.holds sig = true → S.holds sig = true)
    (hs : S'.sessions = S.sessions) (hc : S'.connected = S.connected)
    (ha : ∀ sig, S.transport.Admits sig → S.holds sig = true → S'.holds sig = true → S'.transport.Admits sig)
    (hst : ∀ k, S.transport.Started k → S'.transport.Started k) : FlowInv S' where
  tagged cmd h := (hq cmd h).elim (hi.tagged cmd) id
  tokens sig h := ha sig (hi.tokens sig (hh sig h)) (hh sig h) h
  sorted := by rw [hs]; exact hi.sorted
  order := by rw [hs, hc]; exact hi.order
  started k hk := by rw [hs, hc] at hk; exact hst k (hi.started k hk)

theorem FlowInv.enqueue (hi : FlowInv S) (hk : cmd.session? = some k)
    (hle : ∀ j, S.transport.Started j → j ≤ k ∧ t.Started j) (hsl : t.Started k)
    (ha : ∀ sig, S.transport.Admits sig → t.Admits sig) (htk : ∀ sig, cmd.token? = some sig → t.Admits sig)
    (htg : cmd.Tagged) : FlowInv { S.send cmd with transport := t } := by
  have hs : ({ S.send cmd with transport := t } : System B V).sessions = S.sessions ++ [k] := by
    simp [System.sessions, System.send, hk]
  refine ⟨?_, fun sig h => ?_, ?_, ?_, ?_⟩
  · exact List.forall_mem_append.2 ⟨hi.tagged, List.forall_mem_singleton.2 htg⟩
  · rcases System.holds_iff.1 h with ⟨c, hc, ht⟩ | h
    · rcases List.mem_append.1 hc with hc | hc
      · exact ha sig (hi.tokens sig (System.holds_iff.2 (.inl ⟨c, hc, ht⟩)))
      · obtain rfl := List.mem_singleton.1 hc
        exact htk sig ht
    · exact ha sig (hi.tokens sig (System.holds_iff.2 (.inr h)))
  · rw [hs, pairwise_append]
    refine ⟨hi.sorted, by simp, fun j hj k' hk' => ?_⟩
    obtain rfl := List.mem_singleton.1 hk'
    exact (hle j (hi.started j (.inr hj))).1
  · intro j hj k' hk'
    rw [hs] at hk'
    rcases List.mem_append.1 hk' with hk' | hk'
    · exact hi.order j hj k' hk'
    · obtain rfl := List.mem_singleton.1 hk'
      exact (hle j (hi.started j (.inl hj))).1
  · intro j hj
    rw [hs] at hj
    rcases hj with hj | hj
    · exact (hle j (hi.started j (.inl hj))).2
    · rcases List.mem_append.1 hj with hj | hj
      · exact (hle j (hi.started j (.inr hj))).2
      · obtain rfl := List.mem_singleton.1 hj
        exact hsl

theorem FlowInv.send_plain (hi : FlowInv S) (cmd : WorkerCommand B V) (hk : cmd.session? = none)
    (ht : cmd.token? = none) (htg : cmd.Tagged) : FlowInv (S.send cmd) := by
  refine hi.shrink ?_ (fun sig h => ?_) (by simp [System.sessions, System.send, hk]) rfl (fun _ h _ _ => h) fun _ h => h
  · exact List.forall_mem_append.2 ⟨fun _ h => .inl h, List.forall_mem_singleton.2 (.inr htg)⟩
  rcases System.holds_iff.1 h with ⟨c, hc, hs⟩ | h
  · rcases List.mem_append.1 hc with hc | hc
    · exact System.holds_iff.2 (.inl ⟨c, hc, hs⟩)
    · obtain rfl := List.mem_singleton.1 hc
      rw [ht] at hs; cases hs
  · exact System.holds_iff.2 (.inr h)

theorem FlowInv.move (hi : FlowInv S) (ha : ∀ sig, S.transport.Admits sig → S.holds sig = true → t.Admits sig)
    (hs : ∀ k, S.transport.Started k → t.Started k) : FlowInv { S with transport := t } :=
  hi.shrink (fun _ h => .inl h) (fun _ h => h) rfl rfl (fun sig h hh _ => ha sig h hh) hs

theorem Transport.admits_notice (es : List (Effect B V)) (h : t.Admits sig) : (t.notice es).Admits sig := by
  cases t <;> first | exact h | cases h

theorem Transport.started_notice (es : List (Effect B V)) (h : t.Started k) : (t.notice es).Started k := by
  cases t <;> first | exact h | cases h

section
variable (hi : FlowInv S)
include hi

theorem FlowInv.handle {env : Env} {r : List (WorkerCommand B V)} (hq : S.queue = cmd :: r) : FlowInv { S with
      actor := (S.actor.step cfg (env, cmd)).1
      queue := r
      transport := S.transport.notice (S.actor.step cfg (env, cmd)).2
      inbox := S.inbox ++ events (S.actor.step cfg (env, cmd)).2
      connected := S.connected ++ cmd.readySession?.toList } := by
  have hs : S.sessions = cmd.session?.toList ++ r.filterMap (·.session?) := by
    rw [System.sessions, hq, filterMap_cons]
    cases cmd.session? <;> rfl
  have hr : ∀ j ∈ cmd.readySession?.toList, cmd.session? = some j := fun j hj => by
    unfold WorkerCommand.readySession? at hj
    split at hj
    · obtain rfl := List.mem_singleton.1 hj
      rfl
    · cases hj
  have hsr := hi.sorted
  rw [hs, pairwise_append] at hsr
  refine ⟨fun c hc => hi.tagged c (hq ▸ mem_cons_of_mem _ hc), fun sig h =>
    Transport.admits_notice _ (hi.tokens sig (System.holds_iff.2 ?_)), hsr.2.1, ?_, ?_⟩
  · rw [hq]
    rcases System.holds_iff.1 h with ⟨c, hc, ht⟩ | ⟨d, hd, ht⟩ | h
    · exact .inl ⟨c, mem_cons_of_mem _ hc, ht⟩
    · rcases List.mem_append.1 hd with hd | hd
      · exact .inr (.inl ⟨d, hd, ht⟩)
      · exact .inl ⟨cmd, mem_cons_self, token_of_event cfg hd ht⟩
    · exact .inr (.inr h)
  · intro j hj k hk
    rcases List.mem_append.1 hj with hj | hj
    · exact hi.order j hj k (hs ▸ mem_append_right _ hk)
    · exact hsr.2.2 j (by rw [hr j hj]; exact mem_singleton_self j) k hk
  · intro k hk
    refine Transport.started_notice _ (hi.started k ?_)
    rcases hk with hk | hk
    · rcases List.mem_append.1 hk with hk | hk
      · exact .inl hk
      · exact .inr (hs ▸ mem_append_left _ (by rw [hr k hk]; exact mem_singleton_self k))
    · exact .inr (hs ▸ mem_append_right _ hk)

theorem FlowInv.receive {p : Delivery V → Bool} {d : Delivery V} (hd : d ∈ S.inbox) :
    FlowInv { S with inbox := S.inbox.eraseP p, held := S.held ++ [d.2.done] } := by
  refine hi.shrink (fun _ h => .inl h) (fun sig h => System.holds_iff.2 ?_) rfl rfl (fun _ h _ _ => h) fun _ h => h
  rcases System.holds_iff.1 h with h | ⟨d', hd', ht⟩ | ⟨done, hdn, ht⟩
  · exact .inl h
  · exact .inr (.inl ⟨d', mem_of_mem_eraseP hd', ht⟩)
  · rcases List.mem_append.1 hdn with hdn | hdn
    · exact .inr (.inr ⟨done, hdn, ht⟩)
    · obtain rfl := List.mem_singleton.1 hdn
      exact .inr (.inl ⟨d, hd, ht⟩)

theorem FlowInv.release (done : ProcessingDone) : FlowInv { S with held := S.held.erase done } := by
  refine hi.shrink (fun _ h => .inl h) (fun sig h => System.holds_iff.2 ?_) rfl rfl (fun _ h _ _ => h) fun _ h => h
  rcases System.holds_iff.1 h with h | h | ⟨done', hd, ht⟩
  · exact .inl h
  · exact .inr (.inl h)
  · exact .inr (.inr ⟨done', mem_of_mem_erase hd, ht⟩)

theorem FlowInv.dropEvents (p : Delivery V → Bool) : FlowInv { S with inbox := S.inbox.filter p } := by
  refine hi.shrink (fun _ h => .inl h) (fun sig h => System.holds_iff.2 ?_) rfl rfl (fun _ h _ _ => h) fun _ h => h
  rcases System.holds_iff.1 h with h | ⟨d, hd, ht⟩ | h
  · exact .inl h
  · exact .inr (.inl ⟨d, mem_of_mem_filter hd, ht⟩)
  · exact .inr (.inr h)

theorem FlowInv.step {a : Action B V} (h : S.step cfg a = some S') : FlowInv S' := by
  cases a with
  | command e => cases h; exact hi.send_plain _ rfl rfl (fun _ _ h => by cases h)
  | requestSnapshot => cases h; exact hi.send_plain _ rfl rfl (fun _ _ h => by cases h)
  | handle env =>
    simp only [System.step] at h
    split at h
    · cases h
    · split at h
      · cases h; exact hi.handle ‹_›
      · cases h
  | close =>
    simp only [System.step] at h
    split at h
    · cases h
    · cases h
      exact ⟨fun _ h => (by cases h), fun _ _ => trivial, .nil, fun _ _ _ hk => (by cases hk), fun _ _ => trivial⟩
  | connect =>
    simp only [System.step] at h
    split at h <;> cases h
    rename_i next ht
    refine hi.enqueue (k := next) rfl ?_ (Nat.le_refl next) ?_ nofun (fun _ _ h => by cases h) <;> rw [ht]
    · exact fun j hj => ⟨Nat.le_of_lt hj, Nat.le_of_lt hj⟩
    · exact fun sig hs => .inl hs
  | failSetup =>
    simp only [System.step] at h
    split at h <;> cases h
    rename_i next ht
    refine (hi.send_plain (.transport .failed) rfl rfl fun _ _ h => by cases h).move
      (t := .failing next false) ?_ ?_ <;> simp only [System.send, ht]
    · exact fun sig hs _ => hs
    · exact fun k hk => hk
  | read bs =>
    simp only [System.step] at h
    split at h <;> cases h
    rename_i s seq ht
    refine hi.enqueue (k := s) rfl ?_ (Nat.le_refl s) ?_ ?_ ?_
    · rw [ht]
      exact fun j hj => ⟨hj, hj⟩
    · rw [ht]
      rintro sig (hs | ⟨hw, -⟩)
      · exact .inl hs
      · cases hw
    · intro sig hs
      cases hs
      exact .inr ⟨rfl, rfl⟩
    · intro _ done hd
      cases hd
      exact ⟨_, rfl⟩
  | resume =>
    simp only [System.step] at h
    split at h
    · split at h
      · cases h
      · rename_i s seq ht hf
        cases h
        refine hi.move ?_ ?_ <;> rw [ht]
        · -- The waiting response's token was the only one of this stream, and it is gone.
          rintro sig (hs | ⟨-, rfl⟩) hh
          · exact .inl hs
          · exact absurd hh hf
        · exact fun k hk => hk
    · cases h
  | endStream =>
    simp only [System.step] at h
    split at h <;> cases h
    rename_i s seq w ht
    refine (hi.send_plain (.transport .failed) rfl rfl fun _ _ h => by cases h).move
      (t := .failing (s + 1) false) ?_ ?_ <;> simp only [System.send, ht]
    · rintro sig (hs | ⟨-, rfl⟩) -
      · exact Nat.lt_succ_of_lt hs
      · exact Nat.lt_succ_self _
    · exact fun k hk => Nat.lt_succ_of_le hk
  | retry =>
    simp only [System.step] at h
    split at h <;> cases h
    rename_i next ht
    refine hi.move ?_ ?_ <;> rw [ht]
    · exact fun sig hs _ => hs
    · exact fun k hk => hk
  | stop =>
    simp only [System.step] at h
    split at h <;> cases h
    exact (hi.send_plain .transportStopped rfl rfl fun _ _ h => by cases h).move
      (fun _ _ _ => trivial) fun _ _ => trivial
  | receive id =>
    simp only [System.step] at h
    split at h <;> cases h
    exact hi.receive (mem_of_find?_eq_some ‹_›)
  | release done => cases h; exact hi.release done
  | dropWatcher id =>
    cases h
    exact (hi.send_plain (.watcher (.unwatch id)) rfl rfl fun _ _ h => by cases h).dropEvents _

end

theorem Reachable.flowInv (h : Reachable cfg S) : FlowInv S := by
  induction h with
  | init => exact flowInv_init cfg
  | step a _ h ih => exact ih.step h

/-- A response is read when no token of its stream is held; the next one handled is of the last stream. -/
theorem response_reads_and_order (h : Reachable cfg S) : (∀ bs S', S.step cfg (.read bs) = some S' →
      ∃ s seq, S.transport = .streaming s seq false ∧ ∀ m, S.holds ⟨s, m⟩ = false) ∧
    (∀ bs done r, S.queue = .transport (.response bs done) :: r →
      ∃ sig, done = .channel sig ∧ ∀ k ∈ S.connected, k ≤ sig.session) := by
  have hi := h.flowInv
  constructor
  · intro bs S' hr
    simp only [System.step] at hr
    split at hr <;> cases hr
    rename_i s seq ht
    refine ⟨s, seq, ht, fun m => ?_⟩
    by_contra hm
    have ha := hi.tokens _ (Bool.eq_true_of_not_eq_false hm)
    rw [ht] at ha
    rcases ha with ha | ⟨hw, -⟩
    · exact Nat.lt_irrefl _ ha
    · cases hw
  · intro bs done r hq
    obtain ⟨sig, rfl⟩ := hi.tagged _ (hq ▸ mem_cons_self) bs done rfl
    exact ⟨sig, rfl, fun k hk => hi.order k hk _ (by simp [System.sessions, hq, WorkerCommand.session?,
      ProcessingDone.channel])⟩

/-- The first response is delivered and its token dropped; the second one is read and queued. -/
theorem response_reads_and_order_released :
    let cfg := Small.cfg fun n => .ok (Small.response "1" "n" [n])
    let S : System Nat Unit := .after cfg
      [.command (.watch "T" "a" ⟨1⟩ Small.decoder true), .handle Small.env, .connect, .handle Small.env, .read 0,
        .handle Small.env, .receive ⟨1⟩, .release (.channel ⟨0, 0⟩), .resume]
    (S.connected = [0] ∧ ∃ s seq, S.transport = .streaming s seq false ∧ ∀ m, S.holds ⟨s, m⟩ = false) ∧
    ∃ S', S.step cfg (.read 1) = some S' ∧ ∃ sig, ProcessingDone.channel ⟨0, 1⟩ = .channel sig ∧
      ∀ k ∈ S'.connected, k ≤ sig.session :=
  have hr := reachable_after (Small.cfg fun n => .ok (Small.response "1" "n" [n])) _
  ⟨⟨rfl, (response_reads_and_order hr).1 1 _ rfl⟩,
    _, rfl, (response_reads_and_order (hr.step (.read 1) rfl)).2 1 _ [] rfl⟩

end XdsClient
