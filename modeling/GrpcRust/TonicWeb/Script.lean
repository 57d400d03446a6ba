import GrpcRust.TonicWeb.Frames
/-!
# Scripted bodies

A body that is the list of what polling it returns. The loop of a client's response then ends
(`Call.pollClientLoop_clientState`).
-/

namespace TonicWeb

open Lib Lib.Bytes Tonic

inductive Polled
  | pending
  | frame (frame : HttpFrame)
  | error (e : String)
deriving DecidableEq

namespace Polled

def poll : Polled → Poll String HttpFrame
  | .pending => .pending
  | .frame f => .item f
  | .error e => .failed e

def data : Polled → Bytes
  | .frame (.data bytes) => bytes
  | _ => []

def IsChunk : Polled → Prop
  | .pending => True
  | .frame (.data _) => True
  | _ => False

end Polled

def dataOf (body : List Polled) : Bytes := body.flatMap Polled.data

@[simp] theorem dataOf_nil : dataOf [] = [] := rfl

@[simp] theorem dataOf_cons (p : Polled) (body : List Polled) : dataOf (p :: body) = p.data ++ dataOf body :=
  List.flatMap_cons

def Chunks (body : List Polled) : Prop := ∀ polled ∈ body, polled.IsChunk

def script : Body (List Polled) where
  pollFrame
    | [] => (.ended, [])
    | polled :: rest => (polled.poll, rest)
  isEndStream := List.isEmpty
  sizeHint body := { lower := (dataOf body).length, upper := some (dataOf body).length }

/-! ## A client's response -/

namespace Held

theorem trailersOrMore_true (h : Held) : (h.trailersOrMore true).1.isSome = true := by
  unfold trailersOrMore
  cases h.trailers <;> rfl

theorem dataOrTrailers_true (h : Held) (m : Bytes) : (h.dataOrTrailers true m).1.isSome = true := by
  unfold dataOrTrailers
  cases m with
  | nil => exact h.trailersOrMore_true
  | cons b m => rfl

theorem trailersFound_true (h : Held) (m : Bytes) : (h.trailersFound true m).1.isSome = true := by
  unfold trailersFound
  cases (grpcWebFrameTotalLen h.decoded).filter (· ≤ h.decoded.length) with
  | none =>
    cases m with
    | nil => rfl
    | cons b m => rfl
  | some t =>
    dsimp only
    rcases decodeTrailersFrame (h.decoded.take t) with e | _ | trailers
    · rfl
    · exact dataOrTrailers_true _ _
    · exact dataOrTrailers_true _ _

theorem scan_true (h : Held) : (h.scan true).1.isSome = true := by
  unfold scan
  rcases findTrailers h.decoded with e | len | _ | len
  · rfl
  · exact trailersFound_true _ _
  · rfl
  · dsimp only
    split
    · exact h.trailersOrMore_true
    · rfl

def pollLoop (h : Held) : List Polled → Poll Failure HttpFrame × Held × List Polled
  | [] =>
    match h.scan true with
    | (some polled, h) => (polled, h, [])
    | (none, h) => (.ended, h, [])
  | p :: rest =>
    match h.turn (Call.passed p.poll) with
    | (some polled, h) => (polled, h, rest)
    | (none, h) => pollLoop h rest

end Held

namespace Call

def clientState (held : Held) (body : List Polled) : Call (List Polled) := { clientResponse body with held := held }

theorem pollDecode_clientState_nil (h : Held) (f : Nat) :
    (clientState h []).pollDecode script f = some (.ended, clientState h []) := rfl

theorem pollDecode_clientState_cons (h : Held) (p : Polled) (r : List Polled) (f : Nat) :
    (clientState h (p :: r)).pollDecode script f = some (passed p.poll, clientState h r) := rfl

theorem pollClientLoop_clientState (h : Held) (b : List Polled) {f : Nat} (hf : b.length < f) :
    (clientState h b).pollClientLoop script f =
      some ((h.pollLoop b).1, clientState (h.pollLoop b).2.1 (h.pollLoop b).2.2) := by
  obtain ⟨f, rfl⟩ : ∃ n, f = n + 1 := ⟨f - 1, by omega⟩
  induction b generalizing h f with
  | nil =>
    have hsc := h.scan_true
    simp only [pollClientLoop, Held.pollLoop, pollDecode_clientState_nil]
    simp only [clientState, Held.turn]
    rcases hs : h.scan true with ⟨_ | polled, h'⟩
    · rw [hs] at hsc
      cases hsc
    · rfl
  | cons p r ih =>
    simp only [pollClientLoop, Held.pollLoop, pollDecode_clientState_cons]
    simp only [clientState]
    rcases ht : h.turn (passed p.poll) with ⟨_ | polled, h'⟩
    · obtain ⟨f, rfl⟩ : ∃ n, f = n + 1 := ⟨f - 1, by simp at hf; omega⟩
      exact ih h' f (by simpa using hf)
    · rfl

def poll (c : Call (List Polled)) : Poll Failure HttpFrame × Call (List Polled) :=
  (c.pollFrame script (c.inner.length + 1)).getD (.pending, c)

theorem poll_stored (trailers : HeaderMap) (b : List Polled) :
    (clientState { decoded := [], trailers := some trailers } b).poll =
      (.item (.trailers trailers), clientState { decoded := [], trailers := none } b) := rfl

theorem poll_clientState {h : Held} (hh : h.decoded ≠ [] ∨ h.trailers = none) (body : List Polled) :
    (clientState h body).poll = ((h.pollLoop body).1, clientState (h.pollLoop body).2.1 (h.pollLoop body).2.2) := by
  have hl := pollClientLoop_clientState h body (Nat.lt_succ_self _)
  have hp : (clientState h body).pollFrame script (body.length + 1) =
      (clientState h body).pollClientLoop script (body.length + 1) := by
    rcases h with ⟨_ | ⟨b, d⟩, _ | trailers⟩
    · rfl
    · simp at hh
    · rfl
    · rfl
  unfold poll
  rw [show (clientState h body).inner = body from rfl, hp, hl]
  rfl

end Call

end TonicWeb
