import Mathlib.Tactic
/-!
# Message channels

An unbounded queue and a oneshot, whose ends are dropped independently. A queue loses and reorders nothing
(`Mpsc.fifo`).
-/

namespace Lib

inductive Received (α : Type) where
  | item (item : α)
  | closed
  | pending

structure Mpsc (α : Type) where
  sent : List α
  received : List α
  queue : List α
  sender : Bool
  receiver : Bool
  fifo : received ++ queue = sent

namespace Mpsc
variable {α : Type} {c : Mpsc α}

def new : Mpsc α := ⟨[], [], [], true, true, rfl⟩

def send (c : Mpsc α) (a : α) : Mpsc α × Bool :=
  if c.receiver then
    ({ c with
      sent := c.sent ++ [a]
      queue := c.queue ++ [a]
      fifo := by rw [← c.fifo, List.append_assoc] }, true)
  else (c, false)

def take (c : Mpsc α) (a : α) (rest : List α) (h : c.queue = a :: rest) : Mpsc α :=
  { c with
    received := c.received ++ [a]
    queue := rest
    fifo := by rw [← c.fifo, h, List.append_assoc]; rfl }

def recv (c : Mpsc α) : Mpsc α × Received α :=
  match h : c.queue with
  | a :: rest => (c.take a rest h, .item a)
  | [] => (c, if c.sender then .pending else .closed)

def dropSender (c : Mpsc α) : Mpsc α := { c with sender := false }

def dropReceiver (c : Mpsc α) : Mpsc α := { c with receiver := false }

theorem received_le (c : Mpsc α) : c.received <+: c.sent := ⟨c.queue, c.fifo⟩

theorem send_of_receiver (h : c.receiver = true) (a : α) :
    (c.send a).2 = true ∧ (c.send a).1.sent = c.sent ++ [a] ∧ (c.send a).1.queue = c.queue ++ [a] := by
  simp [send, h]

theorem send_of_dropped (h : c.receiver = false) (a : α) : c.send a = (c, false) := by simp [send, h]

@[simp] theorem received_send (c : Mpsc α) (a : α) : (c.send a).1.received = c.received := by
  rw [send]
  split <;> rfl

@[simp] theorem sender_send (c : Mpsc α) (a : α) : (c.send a).1.sender = c.sender := by
  rw [send]
  split <;> rfl

@[simp] theorem receiver_send (c : Mpsc α) (a : α) : (c.send a).1.receiver = c.receiver := by
  rw [send]
  split <;> rfl

@[simp] theorem received_dropSender (c : Mpsc α) : c.dropSender.received = c.received := rfl

theorem recv_of_cons {a : α} {rest : List α} (h : c.queue = a :: rest) : c.recv = (c.take a rest h, .item a) := by
  rw [recv]
  split
  · rename_i b rest' h'
    obtain ⟨rfl, rfl⟩ : a = b ∧ rest = rest' := by simpa [h] using h'
    rfl
  · rename_i h'
    simp [h] at h'

theorem recv_of_nil (h : c.queue = []) : c.recv = (c, if c.sender then .pending else .closed) := by
  rw [recv]
  split
  · rename_i h'
    simp [h] at h'
  · rfl

theorem recv_item {c c' : Mpsc α} {a : α} (h : c.recv = (c', .item a)) :
    ∃ r, c.queue = a :: r ∧ c'.queue = r ∧ c'.received = c.received ++ [a] ∧ c'.sent = c.sent ∧
      c'.sender = c.sender ∧ c'.receiver = c.receiver := by
  cases hq : c.queue with
  | nil =>
    rw [recv_of_nil hq] at h
    cases hs : c.sender <;> simp [hs] at h
  | cons b r =>
    rw [recv_of_cons hq, Prod.mk.injEq, Received.item.injEq] at h
    obtain ⟨rfl, rfl⟩ := h
    exact ⟨r, rfl, rfl, rfl, rfl, rfl, rfl⟩

theorem recv_closed {c c' : Mpsc α} (h : c.recv = (c', .closed)) : c' = c ∧ c.queue = [] ∧ c.sender = false := by
  cases hq : c.queue with
  | nil =>
    rw [recv_of_nil hq] at h
    cases hs : c.sender <;> simp [hs] at h
    exact ⟨h.symm, rfl, rfl⟩
  | cons b r =>
    rw [recv_of_cons hq] at h
    cases h

end Mpsc

structure Oneshot (α : Type) where
  value : Option α
  sender : Bool
  receiver : Bool

namespace Oneshot
variable {α : Type}

def new : Oneshot α := ⟨none, true, true⟩

def send (c : Oneshot α) (a : α) : Oneshot α :=
  { c with value := if c.receiver then some a else none, sender := false }

def recv (c : Oneshot α) : Received α :=
  match c.value with
  | some a => .item a
  | none => if c.sender then .pending else .closed

def dropSender (c : Oneshot α) : Oneshot α := { c with sender := false }

def dropReceiver (c : Oneshot α) : Oneshot α := { c with receiver := false }

end Oneshot

end Lib
