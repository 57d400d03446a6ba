import GrpcRust.Client.Channel
/-!
# Deadlines of calls

`client/deadline.rs`: each half of a call has a deadline of its own. A step is what happens between two points at
which another task may run or time may pass.
-/

namespace Client

open Lib Grpc List

variable {due : Option Nat} {now now' : Nat}

/-! ## Deadlines -/

inductive Deadline
  | none
  | pending (deadline : Nat) (sleep : Bool)
  | expired
deriving DecidableEq

namespace Deadline

def new : Option Nat → Deadline
  | .none => none
  | some deadline => pending deadline false

def isExpired (now : Nat) : Deadline → Bool
  | none => false
  | pending deadline _ => deadline ≤ now
  | expired => true

end Deadline

def deadlineExceeded : StatusError := { code := .deadlineExceeded, message := "deadline exceeded" }

/-! ## `Deadline::run` -/

inductive Phase
  | awaiting
  | first
  | sleeping
  | selecting
deriving DecidableEq

structure Bounded where
  deadline : Deadline
  op : Option Phase

inductive OpEvent (R : Type)
  | start
  | poll (ready : Option R)
  | pollSleep (fired : Bool)
  | cancel

namespace Bounded
variable {R : Type}

def new (deadline : Deadline) : Bounded := { deadline := deadline, op := none }

def start (now : Nat) (b : Bounded) : Bounded × Option (Except StatusError R) :=
  match b.deadline with
  | .none => ({ b with op := some .awaiting }, none)
  | .pending deadline _ =>
    if deadline ≤ now then ({ deadline := .expired, op := none }, some (.error deadlineExceeded))
    else ({ b with op := some .first }, none)
  | .expired => (b, some (.error deadlineExceeded))

def waits (b : Bounded) : Bounded :=
  match b.deadline, b.op with
  | .pending deadline _, some .first => { deadline := .pending deadline true, op := some .sleeping }
  | _, some .selecting => { b with op := some .sleeping }
  | _, _ => b

/-- The next state and what the run returns, if it does. A timer may fire late. -/
def step (now : Nat) (b : Bounded) : OpEvent R → Option (Bounded × Option (Except StatusError R))
  | .start =>
    match b.op with
    | none => some (b.start now)
    | some _ => none
  | .poll ready =>
    match b.op with
    | some .awaiting | some .first | some .selecting =>
      match ready with
      | some out => some ({ b with op := none }, some (.ok out))
      | none => some (b.waits, none)
    | _ => none
  | .pollSleep fired =>
    match b.deadline, b.op with
    | .pending deadline true, some .sleeping =>
      if fired then
        if deadline ≤ now then some ({ deadline := .expired, op := none }, some (.error deadlineExceeded)) else none
      else some ({ b with op := some .selecting }, none)
    | _, _ => none
  | .cancel =>
    match b.op with
    | some .awaiting | some .sleeping => some ({ b with op := none }, none)
    | _ => none

def polls (b : Bounded) : OpEvent R → List Deadline
  | .poll _ => [b.deadline]
  | _ => []

end Bounded

/-! ## Streams

Messages are handed on unread. -/

def ResponseStreamItem.isTrailers {M : Type} : ResponseStreamItem M → Bool
  | trailers _ => true
  | _ => false

inductive SendHalf
  | absent
  | alive (tx parkTx : Bool) (bounded : Bounded)
  | parking
  | dropped

inductive RecvHalf
  | absent
  | invokeTimeout
  | active (bounded : Bounded)
  /-- `rx` has been dropped, `parked_tx` is next; then `recv` returns the item, or the half is gone. -/
  | closing (item : Option (ResponseStreamItem Unit))
  | streamClosed
  | dropped

inductive Parked
  | empty
  | holds
  | closed
deriving DecidableEq

/-- When the send stream of the layer below was dropped, and whether its receive stream was alive. -/
structure TxDrop where
  time : Nat
  rxAlive : Bool

/-- A call with its two halves; `polls` and `txDrops` record what happened below. -/
structure DeadlineCall where
  now : Nat
  invoking : Option Bounded
  send : SendHalf
  recv : RecvHalf
  parked : Parked
  received : List (ResponseStreamItem Unit)
  polls : List Deadline
  txDrops : List TxDrop

inductive DeadlineEvent
  | advance (time : Nat)
  | invoke (event : OpEvent Unit)
  | send (event : OpEvent Unit)
  | recv (event : OpEvent (ResponseStreamItem Unit))
  | dropSend
  | park
  | dropRecv
  | dropParked

namespace DeadlineCall

variable (c : DeadlineCall) (deadline : Option Nat)

def init : DeadlineCall where
  now := 0
  invoking := some (.new (.new deadline))
  send := .absent
  recv := .absent
  parked := .closed
  received := []
  polls := []
  txDrops := []

def rxAlive : Bool :=
  match c.recv with
  | .active _ => true
  | _ => false

def dropTx : DeadlineCall := { c with txDrops := c.txDrops ++ [{ time := c.now, rxAlive := c.rxAlive }] }

def receive (item : ResponseStreamItem Unit) : DeadlineCall := { c with received := c.received ++ [item] }

def invoked (c : DeadlineCall) (b : Bounded) : Except StatusError Unit → DeadlineCall
  | .ok () =>
    { c with
      invoking := none
      send := .alive true true (.new (.new deadline))
      recv := .active b
      parked := .empty }
  | .error _ => { c with invoking := none, send := .alive false false b, recv := .invokeTimeout }

def invokeStep (c : DeadlineCall) (event : OpEvent Unit) : Option DeadlineCall :=
  match c.invoking with
  | none => none
  | some b =>
    match b.step c.now event with
    | none => none
    | some (b', result) =>
      let c := { c with polls := c.polls ++ b.polls event }
      match result, event with
      | some result, _ => some (c.invoked deadline b' result)
      -- the call is given up
      | none, .cancel => some { c with invoking := none }
      | none, _ => some { c with invoking := some b' }

def sendStep (event : OpEvent Unit) : Option DeadlineCall :=
  match c.send with
  | .alive true parkTx b =>
    match b.step c.now event with
    | none => none
    | some (b', _) => some { c with send := .alive true parkTx b', polls := c.polls ++ b.polls event }
  -- `Err(StreamEnded)`
  | .alive false _ _ => some c
  | _ => none

def received? (b : Bounded) : Except StatusError (ResponseStreamItem Unit) → DeadlineCall
  | .ok item =>
    if item.isTrailers then { c with recv := .closing (some item) } else { c.receive item with recv := .active b }
  | .error status => { c with recv := .closing (some (.trailers (.new (.error status)))) }

def recvStep (event : OpEvent (ResponseStreamItem Unit)) : Option DeadlineCall :=
  match c.recv, event with
  | .invokeTimeout, .start =>
    some { c.receive (.trailers (.new (.error deadlineExceeded))) with recv := .streamClosed }
  | .streamClosed, .start => some (c.receive .streamClosed)
  | .active b, event =>
    match b.step c.now event with
    | none => none
    | some (b', result) =>
      let c := { c with polls := c.polls ++ b.polls event }
      match result with
      | some result => some (c.received? b' result)
      | none => some { c with recv := .active b' }
  | _, _ => none

def dropSend : Option DeadlineCall :=
  match c.send with
  | .alive tx parkTx b =>
    if b.op.isSome then none
    else if tx then
      if b.deadline.isExpired c.now ∧ parkTx then some { c with send := .parking }
      else some { c.dropTx with send := .dropped }
    else some { c with send := .dropped }
  | _ => none

def park : Option DeadlineCall :=
  match c.send with
  | .parking =>
    match c.parked with
    | .closed => some { c.dropTx with send := .dropped }
    | _ => some { c with send := .dropped, parked := .holds }
  | _ => none

def dropRecv : Option DeadlineCall :=
  match c.recv with
  | .active b => if b.op.isSome then none else some { c with recv := .closing none }
  | .invokeTimeout | .streamClosed => some { c with recv := .dropped }
  | _ => none

def closeParked : DeadlineCall :=
  match c.parked with
  | .holds => { c.dropTx with parked := .closed }
  | _ => { c with parked := .closed }

def dropParked : Option DeadlineCall :=
  match c.recv with
  | .closing (some item) => some { c.closeParked.receive item with recv := .streamClosed }
  | .closing none => some { c.closeParked with recv := .dropped }
  | _ => none

def step (c : DeadlineCall) : DeadlineEvent → Option DeadlineCall
  | .advance time => some { c with now := c.now + time }
  | .invoke event => c.invokeStep deadline event
  | .send event => c.sendStep event
  | .recv event => c.recvStep event
  | .dropSend => c.dropSend
  | .park => c.park
  | .dropRecv => c.dropRecv
  | .dropParked => c.dropParked

end DeadlineCall

def deadlineCalls (deadline : Option Nat) : Transition DeadlineCall DeadlineEvent where
  init := .init deadline
  step := DeadlineCall.step deadline

namespace Deadline

def Fits (due : Option Nat) (now : Nat) : Deadline → Prop
  | none => due = .none
  | pending deadline _ => due = some deadline
  | expired => ∃ deadline, due = some deadline ∧ deadline ≤ now

theorem fits_new (due : Option Nat) (now : Nat) : (new due).Fits due now := by
  cases due <;> rfl

variable {due : Option Nat} {now now' : Nat} {d : Deadline}

theorem Fits.mono (h : d.Fits due now) (hle : now ≤ now') : d.Fits due now' := by
  cases d with
  | none | pending => exact h
  | expired =>
    obtain ⟨dd, hd, hp⟩ := h
    exact ⟨dd, hd, hp.trans hle⟩

theorem Fits.isExpired (h : d.Fits due now) {dd : Nat} (hd : due = some dd) (hp : dd ≤ now) :
    d.isExpired now = true := by
  subst hd
  cases d with
  | none => cases h
  | pending d' s =>
    cases h
    exact decide_eq_true hp
  | expired => rfl

end Deadline

namespace Bounded
variable {R : Type} {due : Option Nat} {now now' : Nat} {b b' : Bounded} {rs : Option (Except StatusError R)}

structure Sound (due : Option Nat) (now : Nat) (b : Bounded) : Prop where
  fits : b.deadline.Fits due now
  running : b.op ≠ none → b.deadline ≠ .expired

theorem sound_new (due : Option Nat) (now : Nat) : (new (.new due)).Sound due now where
  fits := Deadline.fits_new due now
  running h := absurd rfl h

section
variable (h : b.Sound due now)
include h

theorem Sound.mono (hle : now ≤ now') : b.Sound due now' where
  fits := h.fits.mono hle
  running := h.running

theorem Sound.idle : Sound due now { b with op := none } where
  fits := h.fits
  running hop := absurd rfl hop

theorem Sound.start : (b.start (R := R) now).1.Sound due now := by
  rcases b with ⟨d, op⟩
  cases d with
  | none => exact ⟨h.fits, fun _ => nofun⟩
  | pending dd s =>
    by_cases hp : dd ≤ now
    · simp only [Bounded.start, if_pos hp]
      exact ⟨⟨dd, h.fits, hp⟩, fun hop => absurd rfl hop⟩
    · simp only [Bounded.start, if_neg hp]
      exact ⟨h.fits, fun _ => nofun⟩
  | expired => exact h

theorem Sound.waits : b.waits.Sound due now := by
  unfold Bounded.waits
  split
  · rename_i d s hd _
    have hf : (Deadline.pending d s).Fits due now := hd ▸ h.fits
    exact ⟨hf, fun _ => nofun⟩
  · rename_i hop
    exact ⟨h.fits, fun _ => h.running (by rw [hop]; exact Option.some_ne_none _)⟩
  · exact h

end

theorem step_poll {r : Option R} (hs : b.step now (.poll r) = some (b', rs)) :
    b.op ≠ none ∧ (b' = { b with op := none } ∨ b' = b.waits) := by
  rcases hop : b.op with _ | phase
  · simp [step, hop] at hs
  · refine ⟨Option.some_ne_none _, ?_⟩
    cases phase with
    | sleeping => simp [step, hop] at hs
    | awaiting | first | selecting =>
      cases r with
      | some out =>
        simp only [step, hop, Option.some.injEq, Prod.mk.injEq] at hs
        exact Or.inl hs.1.symm
      | none =>
        simp only [step, hop, Option.some.injEq, Prod.mk.injEq] at hs
        exact Or.inr hs.1.symm

theorem Sound.pollSleep (h : b.Sound due now) {f : Bool}
    (hs : b.step now (.pollSleep f) = some (b', rs)) : b'.Sound due now := by
  unfold Bounded.step at hs
  dsimp only at hs
  split at hs
  · rename_i d hd _
    have hf : (Deadline.pending d true).Fits due now := hd ▸ h.fits
    split_ifs at hs with hfr hp
    · cases hs
      exact ⟨⟨d, hf, hp⟩, fun hop => absurd rfl hop⟩
    · cases hs
      exact ⟨h.fits, fun _ => hd ▸ nofun⟩
  · cases hs

theorem Sound.step (h : b.Sound due now) {e : OpEvent R} (hs : b.step now e = some (b', rs)) :
    b'.Sound due now ∧ ∀ d ∈ b.polls e, d ≠ .expired := by
  cases e with
  | start =>
    refine ⟨?_, nofun⟩
    rcases hop : b.op with _ | phase
    · simp only [Bounded.step, hop, Option.some.injEq] at hs
      have hst := h.start (R := R)
      rw [hs] at hst
      exact hst
    · simp [Bounded.step, hop] at hs
  | poll r =>
    obtain ⟨hr, hb'⟩ := step_poll hs
    refine ⟨?_, fun d hd => List.mem_singleton.1 hd ▸ h.running hr⟩
    rcases hb' with rfl | rfl
    · exact h.idle
    · exact h.waits
  | pollSleep f => exact ⟨h.pollSleep hs, nofun⟩
  | cancel =>
    refine ⟨?_, nofun⟩
    unfold Bounded.step at hs
    dsimp only at hs
    split at hs
    · cases hs
      exact h.idle
    · cases hs
      exact h.idle
    · cases hs

end Bounded

variable {items received : List (ResponseStreamItem Unit)} {r : RecvHalf} {p : Parked}

def NoTrailers (items : List (ResponseStreamItem Unit)) : Prop := ∀ item ∈ items, item.isTrailers = false

def TrailersLast (items : List (ResponseStreamItem Unit)) : Prop :=
  ∀ before trailers after, items = before ++ .trailers trailers :: after → ∀ item ∈ after, item = .streamClosed

theorem NoTrailers.trailersLast (h : NoTrailers items) : TrailersLast items := by
  rintro b ts a rfl
  exact absurd (h (.trailers ts) (by simp)) (by simp [ResponseStreamItem.isTrailers])

theorem NoTrailers.append (h : NoTrailers items) {item : ResponseStreamItem Unit} (him : item.isTrailers = false) :
    NoTrailers (items ++ [item]) := by
  intro i hi
  rcases List.mem_append.1 hi with hi | hi
  · exact h i hi
  · exact List.mem_singleton.1 hi ▸ him

theorem TrailersLast.append_closed (h : TrailersLast items) : TrailersLast (items ++ [.streamClosed]) := by
  intro b ts a heq item hi
  rcases eq_nil_or_concat a with rfl | ⟨a, l, rfl⟩
  · cases hi
  · rw [concat_eq_append, ← cons_append, ← append_assoc] at heq
    obtain ⟨hitems, hlast⟩ := append_inj' heq rfl
    rw [concat_eq_append] at hi
    rcases List.mem_append.1 hi with hi | hi
    · exact h b ts a hitems item hi
    · rw [List.mem_singleton.1 hi, ← List.singleton_inj.1 hlast]

theorem NoTrailers.trailersLast_append (h : NoTrailers items) (item : ResponseStreamItem Unit) :
    TrailersLast (items ++ [item]) := by
  intro b ts a heq i hi
  rcases eq_nil_or_concat a with rfl | ⟨a, l, rfl⟩
  · cases hi
  · rw [concat_eq_append, ← cons_append, ← append_assoc] at heq
    obtain ⟨hitems, _⟩ := append_inj' heq rfl
    exact absurd (h (.trailers ts) (by simp [hitems])) (by simp [ResponseStreamItem.isTrailers])

def SendHalf.Sound (due : Option Nat) (now : Nat) : SendHalf → Prop
  | .alive tx parkTx b => b.Sound due now ∧ (tx = true → parkTx = true)
  | _ => True

def RecvHalf.Sound (due : Option Nat) (now : Nat) (parked : Parked) (received : List (ResponseStreamItem Unit)) :
    RecvHalf → Prop
  | .absent | .invokeTimeout => NoTrailers received
  | .active b => b.Sound due now ∧ parked ≠ .closed ∧ NoTrailers received
  | .closing _ => NoTrailers received
  | .streamClosed | .dropped => TrailersLast received

theorem SendHalf.Sound.mono {s : SendHalf} (h : s.Sound due now) (hle : now ≤ now') :
    s.Sound due now' := by
  cases s with
  | alive => exact ⟨h.1.mono hle, h.2⟩
  | _ => trivial

theorem RecvHalf.Sound.mono
    (h : r.Sound due now p received) (hle : now ≤ now') : r.Sound due now' p received := by
  cases r with
  | active => exact ⟨h.1.mono hle, h.2⟩
  | _ => exact h

theorem RecvHalf.Sound.trailersLast (h : r.Sound due now p received) : TrailersLast received := by
  cases r with
  | absent | invokeTimeout | closing => exact NoTrailers.trailersLast h
  | active => exact h.2.2.trailersLast
  | streamClosed | dropped => exact h

/-- No drop of the send stream below looked like the end of the requests of a late call. -/
def NoLateHalfClose (due : Option Nat) (drops : List TxDrop) : Prop :=
  ∀ drop ∈ drops, ∀ deadline, due = some deadline → deadline ≤ drop.time → drop.rxAlive = false

theorem NoLateHalfClose.append {ds : List TxDrop} (h : NoLateHalfClose due ds) {drop : TxDrop}
    (hdr : ∀ dd, due = some dd → dd ≤ drop.time → drop.rxAlive = false) : NoLateHalfClose due (ds ++ [drop]) := by
  intro d hd
  rcases List.mem_append.1 hd with hd | hd
  · exact h d hd
  · exact List.mem_singleton.1 hd ▸ hdr

namespace DeadlineCall

/-- No poll after the deadline, and no half-close after it while the receiving half is alive. -/
structure Inv (due : Option Nat) (c : DeadlineCall) : Prop where
  invoking : ∀ b, c.invoking = some b → b.Sound due c.now ∧ c.recv = .absent
  send : c.send.Sound due c.now
  recv : c.recv.Sound due c.now c.parked c.received
  polls : ∀ d ∈ c.polls, d ≠ .expired
  drops : NoLateHalfClose due c.txDrops

theorem inv_init (due : Option Nat) : (init due).Inv due where
  invoking b hb := by
    cases hb
    exact ⟨Bounded.sound_new due 0, rfl⟩
  send := trivial
  recv := nofun
  polls := nofun
  drops := nofun

section Steps
variable {due : Option Nat} {c c' : DeadlineCall}

section
variable (h : c.Inv due) {e : OpEvent Unit}
include h

theorem Inv.polled {ds : List Deadline} (hds : ∀ d ∈ ds, d ≠ .expired) : ∀ d ∈ c.polls ++ ds, d ≠ .expired := by
  intro d hd
  rcases List.mem_append.1 hd with hd | hd
  · exact h.polls d hd
  · exact hds d hd

theorem Inv.advance (t : Nat) : Inv due { c with now := c.now + t } where
  invoking b hb := ⟨(h.invoking b hb).1.mono (Nat.le_add_right _ _), (h.invoking b hb).2⟩
  send := h.send.mono (Nat.le_add_right _ _)
  recv := h.recv.mono (Nat.le_add_right _ _)
  polls := h.polls
  drops := h.drops

theorem Inv.invoked (hr : c.recv ≠ .absent) (b : Bounded) : c.invoking ≠ some b := fun hb => hr (h.invoking b hb).2

theorem Inv.invokeStep (hs : c.invokeStep due e = some c') : c'.Inv due := by
  unfold DeadlineCall.invokeStep at hs
  cases hi : c.invoking with
  | none =>
    rw [hi] at hs
    cases hs
  | some b =>
    rw [hi] at hs
    obtain ⟨hb, ha⟩ := h.invoking b hi
    have hr : NoTrailers c.received := by
      have hrc := h.recv
      rw [ha] at hrc
      exact hrc
    dsimp only at hs
    cases hop : b.step c.now e with
    | none =>
      rw [hop] at hs
      cases hs
    | some next =>
      obtain ⟨b', r⟩ := next
      rw [hop] at hs
      obtain ⟨hb', hp⟩ := hb.step hop
      cases r with
      | some r =>
        cases hs
        cases r with
        | ok _ => exact ⟨nofun, ⟨Bounded.sound_new due _, fun _ => rfl⟩, ⟨hb', nofun, hr⟩, h.polled hp, h.drops⟩
        | error _ => exact ⟨nofun, ⟨hb', nofun⟩, hr, h.polled hp, h.drops⟩
      | none =>
        have hg : Inv due { c with invoking := some b', polls := c.polls ++ b.polls e } := by
          refine ⟨?_, h.send, h.recv, h.polled hp, h.drops⟩
          rintro _ ⟨⟩
          exact ⟨hb', ha⟩
        cases e with
        | cancel =>
          cases hs
          exact ⟨nofun, h.send, h.recv, h.polled hp, h.drops⟩
        | start | poll | pollSleep =>
          cases hs
          exact hg

theorem Inv.sendStep (hst : c.sendStep e = some c') : c'.Inv due := by
  have hsn := h.send
  unfold DeadlineCall.sendStep at hst
  cases hs : c.send with
  | alive tx p b =>
    rw [hs] at hst hsn
    cases tx with
    | false =>
      cases hst
      exact h
    | true =>
      dsimp only at hst
      cases hop : b.step c.now e with
      | none =>
        rw [hop] at hst
        cases hst
      | some next =>
        obtain ⟨b', r⟩ := next
        rw [hop] at hst
        obtain ⟨hb', hp⟩ := hsn.1.step hop
        cases hst
        exact ⟨h.invoking, ⟨hb', hsn.2⟩, h.recv, h.polled hp, h.drops⟩
  | absent | parking | dropped =>
    rw [hs] at hst
    cases hst

theorem Inv.received? (hrc : c.recv ≠ .absent) (hr : NoTrailers c.received) (hp : c.parked ≠ .closed) {b : Bounded}
    (hb : b.Sound due c.now) (r : Except StatusError (ResponseStreamItem Unit)) : (c.received? b r).Inv due := by
  have hi (b' : Bounded) (hb' : c.invoking = some b') : False := h.invoked hrc b' hb'
  cases r with
  | error s => exact ⟨fun b' hb' => (hi b' hb').elim, h.send, hr, h.polls, h.drops⟩
  | ok item =>
    unfold DeadlineCall.received?
    dsimp only
    split_ifs with him
    · exact ⟨fun b' hb' => (hi b' hb').elim, h.send, hr, h.polls, h.drops⟩
    · have him' : item.isTrailers = false := by simpa using him
      exact ⟨fun b' hb' => (hi b' hb').elim, h.send, ⟨hb, hp, hr.append him'⟩, h.polls, h.drops⟩

theorem Inv.recvStep {e : OpEvent (ResponseStreamItem Unit)} (hs : c.recvStep e = some c') : c'.Inv due := by
  have hrc := h.recv
  have hi := h.invoked
  unfold DeadlineCall.recvStep at hs
  cases hr : c.recv with
  | active b =>
    rw [hr] at hs hrc hi
    obtain ⟨hb, hp, hrv⟩ := hrc
    dsimp only at hs
    cases hop : b.step c.now e with
    | none =>
      rw [hop] at hs
      cases hs
    | some next =>
      obtain ⟨b', r⟩ := next
      rw [hop] at hs
      obtain ⟨hb', hpl⟩ := hb.step hop
      have hpd : Inv due { c with polls := c.polls ++ b.polls e } := ⟨h.invoking, h.send, h.recv, h.polled hpl, h.drops⟩
      cases r with
      | some r =>
        cases hs
        exact hpd.received? (hr ▸ nofun) hrv hp hb' r
      | none =>
        cases hs
        exact ⟨fun b hb => absurd hb (hi nofun b), h.send, ⟨hb', hp, hrv⟩, h.polled hpl, h.drops⟩
  | invokeTimeout =>
    rw [hr] at hs hrc hi
    cases e with
    | start =>
      cases hs
      exact ⟨fun b hb => absurd hb (hi nofun b), h.send, NoTrailers.trailersLast_append hrc _, h.polls, h.drops⟩
    | poll | pollSleep | cancel => cases hs
  | streamClosed =>
    rw [hr] at hs hrc
    cases e with
    | start =>
      cases hs
      refine ⟨h.invoking, h.send, ?_, h.polls, h.drops⟩
      rw [show (c.receive .streamClosed).recv = .streamClosed from hr]
      exact TrailersLast.append_closed hrc
    | poll | pollSleep | cancel => cases hs
  | absent | closing | dropped =>
    rw [hr] at hs
    cases hs

theorem Inv.dropSend (hst : c.dropSend = some c') : c'.Inv due := by
  have hsn := h.send
  unfold DeadlineCall.dropSend at hst
  cases hs : c.send with
  | alive tx p b =>
    rw [hs] at hst hsn
    dsimp only at hst
    split_ifs at hst with hop htx he
    · cases hst
      exact ⟨h.invoking, trivial, h.recv, h.polls, h.drops⟩
    · cases hst
      refine ⟨h.invoking, trivial, h.recv, h.polls, h.drops.append ?_⟩
      intro d hd hp
      exact absurd ⟨hsn.1.fits.isExpired hd hp, hsn.2 htx⟩ he
    · cases hst
      exact ⟨h.invoking, trivial, h.recv, h.polls, h.drops⟩
  | absent | parking | dropped =>
    rw [hs] at hst
    cases hst

theorem Inv.rxAlive (hp : c.parked = .closed) : c.rxAlive = false := by
  have hrc := h.recv
  unfold DeadlineCall.rxAlive
  cases hr : c.recv with
  | active b =>
    rw [hr] at hrc
    exact absurd hp hrc.2.1
  | _ => rfl

theorem Inv.park (hst : c.park = some c') : c'.Inv due := by
  have hrc := h.recv
  unfold DeadlineCall.park at hst
  cases hs : c.send with
  | parking =>
    rw [hs] at hst
    cases hp : c.parked with
    | closed =>
      rw [hp] at hst
      cases hst
      exact ⟨h.invoking, trivial, h.recv, h.polls, h.drops.append fun _ _ _ => h.rxAlive hp⟩
    | empty | holds =>
      rw [hp] at hst
      cases hst
      refine ⟨h.invoking, trivial, ?_, h.polls, h.drops⟩
      cases hr : c.recv with
      | active b =>
        rw [hr] at hrc
        exact ⟨hrc.1, nofun, hrc.2.2⟩
      | absent | invokeTimeout | closing | streamClosed | dropped =>
        rw [hr] at hrc
        exact hrc
  | absent | alive | dropped =>
    rw [hs] at hst
    cases hst

theorem Inv.dropRecv (hs : c.dropRecv = some c') : c'.Inv due := by
  have hrc := h.recv
  have hi := h.invoked
  unfold DeadlineCall.dropRecv at hs
  cases hr : c.recv with
  | active b =>
    rw [hr] at hs hrc hi
    dsimp only at hs
    split_ifs at hs
    cases hs
    exact ⟨fun b hb => absurd hb (hi nofun b), h.send, hrc.2.2, h.polls, h.drops⟩
  | invokeTimeout | streamClosed =>
    rw [hr] at hs hi
    cases hs
    exact ⟨fun b hb => absurd hb (hi nofun b), h.send, h.recv.trailersLast, h.polls, h.drops⟩
  | absent | closing | dropped =>
    rw [hr] at hs
    cases hs

end

theorem closeParked_recv (c : DeadlineCall) : c.closeParked.recv = c.recv := by
  unfold closeParked
  cases c.parked <;> rfl

theorem Inv.closeParked (h : c.Inv due) {item : Option (ResponseStreamItem Unit)} (hr : c.recv = .closing item) :
    c.closeParked.Inv due := by
  have hrc := h.recv
  rw [hr] at hrc
  have hd : c.rxAlive = false := by rw [DeadlineCall.rxAlive, hr]
  unfold DeadlineCall.closeParked
  cases c.parked with
  | holds => exact ⟨h.invoking, h.send, hr ▸ hrc, h.polls, h.drops.append fun _ _ _ => hd⟩
  | empty | closed => exact ⟨h.invoking, h.send, hr ▸ hrc, h.polls, h.drops⟩

theorem Inv.dropParked (h : c.Inv due) (hs : c.dropParked = some c') : c'.Inv due := by
  unfold DeadlineCall.dropParked at hs
  cases hr : c.recv with
  | closing item =>
    rw [hr] at hs
    have hc := h.closeParked hr
    have hrc : NoTrailers c.closeParked.received := by
      have hrv := hc.recv
      rw [c.closeParked_recv, hr] at hrv
      exact hrv
    have ha : ∀ b, c.closeParked.invoking ≠ some b := hc.invoked (by rw [c.closeParked_recv, hr]; exact nofun)
    cases item with
    | some item =>
      cases hs
      exact ⟨fun b hb => absurd hb (ha b), hc.send, hrc.trailersLast_append item, hc.polls, hc.drops⟩
    | none =>
      cases hs
      exact ⟨fun b hb => absurd hb (ha b), hc.send, hrc.trailersLast, hc.polls, hc.drops⟩
  | absent | invokeTimeout | active | streamClosed | dropped =>
    rw [hr] at hs
    cases hs

theorem Inv.step (h : c.Inv due) {e : DeadlineEvent} (hs : c.step due e = some c') : c'.Inv due := by
  cases e with
  | advance t =>
    cases hs
    exact h.advance t
  | invoke e => exact h.invokeStep hs
  | send e => exact h.sendStep hs
  | recv e => exact h.recvStep hs
  | dropSend => exact h.dropSend hs
  | park => exact h.park hs
  | dropRecv => exact h.dropRecv hs
  | dropParked => exact h.dropParked hs

end Steps

end DeadlineCall

/-- A late call never looks half-closed, its trailers come last, and no expired deadline lets a poll through. -/
theorem deadline_respected {due : Option Nat} {c : DeadlineCall} (h : (deadlineCalls due).Reached c) :
    (∀ drop ∈ c.txDrops, ∀ dd, due = some dd → dd ≤ drop.time → drop.rxAlive = false) ∧
      TrailersLast c.received ∧ ∀ d ∈ c.polls, d ≠ .expired := by
  have hi : c.Inv due := h.inv (P := DeadlineCall.Inv due) (DeadlineCall.inv_init due) fun _ _ _ hc _ hs => hc.step hs
  exact ⟨hi.drops, hi.recv.trailersLast, hi.polls⟩

def lateRun : List DeadlineEvent :=
  [.invoke .start, .invoke (.poll (some ())), .send .start, .send (.poll none), .send (.pollSleep false),
    .send (.poll none), .recv .start, .recv (.poll (some (.message ()))), .advance 5, .send (.pollSleep true),
    .dropSend, .park, .recv .start, .dropParked, .recv .start]

theorem deadline_respected_late : ∃ c, (deadlineCalls (some 5)).run lateRun = some c ∧
      c.received = [.message (), .trailers (.new (.error deadlineExceeded)), .streamClosed] ∧ c.txDrops.length = 1 ∧
      (∀ drop ∈ c.txDrops, ∀ dd, some 5 = some dd → dd ≤ drop.time → drop.rxAlive = false) ∧
      TrailersLast c.received ∧ ∀ d ∈ c.polls, d ≠ .expired :=
  ⟨_, rfl, rfl, rfl,
    deadline_respected (Transition.reached_of_run (show (deadlineCalls (some 5)).run lateRun = some _ from rfl))⟩

end Client
