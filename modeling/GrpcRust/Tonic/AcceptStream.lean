import GrpcRust.Lib.Polling
/-!
# The stream of accepted connections

`ServerIoStream` of `transport/server/io_stream.rs`, with TLS. A connection is the number of those accepted before it.
-/

namespace Tonic.AcceptStream

open Lib

inductive Incoming
  | pending
  | stream
  | error (transient : Bool)
  | ended
deriving DecidableEq

/-- The branch of `select!` that is polled first, the listener, and the handshake `join_next` returns. -/
structure Input where
  incomingFirst : Bool
  incoming : Incoming
  joined : Option Nat

structure ServerIoStream where
  accepted : Nat
  tasks : List Nat
deriving DecidableEq

inductive SelectOutput
  | incoming
  | io (id : Nat)
  | tcpErr (transient : Bool)
  | tlsErr (id : Nat)
  | done

variable (succeeds : Nat → Bool)

def pollIncoming : Incoming → Option SelectOutput
  | .pending => none
  | .stream => some .incoming
  | .error transient => some (.tcpErr transient)
  | .ended => some .done

def joinNext (s : ServerIoStream) (i : Input) : Option SelectOutput :=
  (i.joined.filter (· ∈ s.tasks)).map fun id => if succeeds id then .io id else .tlsErr id

def select (s : ServerIoStream) (i : Input) : Option SelectOutput :=
  if s.tasks.isEmpty then pollIncoming i.incoming
  else if i.incomingFirst then pollIncoming i.incoming <|> joinNext succeeds s i
  else joinNext succeeds s i <|> pollIncoming i.incoming

def handle (s : ServerIoStream) : SelectOutput → Poll Unit Nat × ServerIoStream
  | .incoming => (.pending, ⟨s.accepted + 1, s.tasks ++ [s.accepted]⟩)
  | .io id => (.item id, { s with tasks := s.tasks.erase id })
  | .tlsErr id => (.pending, { s with tasks := s.tasks.erase id })
  | .tcpErr transient => (if transient then .pending else .failed (), s)
  | .done => (.ended, s)

def pollNext (s : ServerIoStream) (i : Input) : Poll Unit Nat × ServerIoStream :=
  (select succeeds s i).elim (.pending, s) (handle s)

inductive Run : List (Poll Unit Nat) → ServerIoStream → Prop
  | start : Run [] ⟨0, []⟩
  | poll {outs s} (h : Run outs s) (hend : .ended ∉ outs) (i : Input) :
    Run (outs ++ [(pollNext succeeds s i).1]) (pollNext succeeds s i).2

def yielded (outs : List (Poll Unit Nat)) : List Nat := outs.filterMap fun | .item id => some id | _ => none

/-! ## Each connection once -/

/-- A successful handshake is pending or yielded, once. -/
structure Inv (outs : List (Poll Unit Nat)) (s : ServerIoStream) : Prop where
  nodup : (s.tasks ++ yielded outs).Nodup
  lt : ∀ id ∈ s.tasks ++ yielded outs, id < s.accepted
  succeeded : ∀ id ∈ yielded outs, succeeds id = true
  kept : ∀ id < s.accepted, succeeds id = true → id ∈ s.tasks ++ yielded outs

inductive Selected (s : ServerIoStream) (i : Input) : SelectOutput → Prop
  | incoming : Selected s i .incoming
  | tcpErr (transient : Bool) : Selected s i (.tcpErr transient)
  | done (h : i.incoming = .ended) : Selected s i .done
  | io {id} (hid : id ∈ s.tasks) (h : succeeds id = true) : Selected s i (.io id)
  | tlsErr {id} (hid : id ∈ s.tasks) (h : succeeds id = false) : Selected s i (.tlsErr id)

variable {succeeds} {outs : List (Poll Unit Nat)} {s : ServerIoStream} {i : Input} {o : SelectOutput}

theorem selected (h : select succeeds s i = some o) : Selected succeeds s i o := by
  have hi : pollIncoming i.incoming = some o → Selected succeeds s i o := by
    intro h
    cases hi : i.incoming <;> simp only [hi, pollIncoming, reduceCtorEq, Option.some.injEq] at h
    · exact h ▸ .incoming
    · exact h ▸ .tcpErr _
    · exact h ▸ .done hi
  have hj : joinNext succeeds s i = some o → Selected succeeds s i o := by
    intro h
    obtain ⟨id, hf, rfl⟩ := Option.map_eq_some_iff.1 h
    have hid : id ∈ s.tasks := by simpa using (Option.filter_eq_some_iff.1 hf).2
    cases hs : succeeds id
    · exact .tlsErr hid hs
    · exact .io hid hs
  unfold select at h
  split at h
  · exact hi h
  · split at h
    · exact ((Option.orElse_eq_some ..).1 h).elim hi fun h => hj h.2
    · exact ((Option.orElse_eq_some ..).1 h).elim hj fun h => hi h.2

theorem Inv.of_same {out : Poll Unit Nat} (h : Inv succeeds outs s) (ho : yielded (outs ++ [out]) = yielded outs) :
    Inv succeeds (outs ++ [out]) s :=
  ⟨ho ▸ h.nodup, ho ▸ h.lt, ho ▸ h.succeeded, ho ▸ h.kept⟩

theorem Inv.pollNext (h : Inv succeeds outs s) (i : Input) :
    Inv succeeds (outs ++ [(pollNext succeeds s i).1]) (pollNext succeeds s i).2 := by
  unfold AcceptStream.pollNext
  cases hs : select succeeds s i with
  | none => exact h.of_same (by simp [yielded])
  | some o =>
    cases selected hs with
    | tcpErr t => cases t <;> exact h.of_same (by simp [yielded, handle])
    | done _ => exact h.of_same (by simp [yielded, handle])
    | incoming =>
      have hy : yielded (outs ++ [.pending]) = yielded outs := by simp [yielded]
      have hp : (s.tasks ++ [s.accepted] ++ yielded outs).Perm (s.accepted :: (s.tasks ++ yielded outs)) := by
        rw [List.append_assoc]
        exact List.perm_middle
      refine ⟨?_, ?_, ?_, ?_⟩ <;> dsimp only [Option.elim, handle] <;> rw [hy]
      · exact hp.nodup_iff.2 (List.nodup_cons.2 ⟨fun hm => absurd (h.lt _ hm) (by omega), h.nodup⟩)
      · intro a ha
        rcases List.mem_cons.1 (hp.mem_iff.1 ha) with rfl | ha
        · omega
        · exact (h.lt a ha).trans (by omega)
      · exact h.succeeded
      · intro a ha hsa
        refine hp.mem_iff.2 (List.mem_cons.2 ?_)
        rcases Nat.lt_succ_iff_lt_or_eq.1 ha with ha | ha
        · exact .inr (h.kept a ha hsa)
        · exact .inl ha
    | @io id hid hsc =>
      have hy : yielded (outs ++ [.item id]) = yielded outs ++ [id] := by simp [yielded]
      have hp : (s.tasks.erase id ++ (yielded outs ++ [id])).Perm (s.tasks ++ yielded outs) := by
        rw [← List.append_assoc]
        exact (List.perm_append_singleton id _).trans ((List.perm_cons_erase hid).append_right _).symm
      refine ⟨?_, ?_, ?_, ?_⟩ <;> dsimp only [Option.elim, handle] <;> rw [hy]
      · exact hp.nodup_iff.2 h.nodup
      · exact fun a ha => h.lt a (hp.mem_iff.1 ha)
      · intro a ha
        rcases List.mem_append.1 ha with ha | ha
        · exact h.succeeded a ha
        · exact List.mem_singleton.1 ha ▸ hsc
      · exact fun a ha hsa => hp.mem_iff.2 (h.kept a ha hsa)
    | @tlsErr id hid hsc =>
      have hy : yielded (outs ++ [.pending]) = yielded outs := by simp [yielded]
      have hsub := (List.erase_sublist (a := id) (l := s.tasks)).append_right (yielded outs)
      refine ⟨?_, ?_, ?_, ?_⟩ <;> dsimp only [Option.elim, handle] <;> rw [hy]
      · exact hsub.nodup h.nodup
      · exact fun a ha => h.lt a (hsub.subset ha)
      · exact h.succeeded
      · intro a ha hsa
        have hne : a ≠ id := by
          rintro rfl
          simp [hsa] at hsc
        simpa [List.mem_erase_of_ne hne] using h.kept a ha hsa

theorem Run.inv (h : Run succeeds outs s) : Inv succeeds outs s := by
  induction h with
  | start => exact ⟨by simp [yielded], by simp [yielded], by simp [yielded], by simp⟩
  | poll _ _ i ih => exact ih.pollNext i

theorem incoming_of_ended (h : (pollNext succeeds s i).1 = .ended) : i.incoming = .ended := by
  unfold pollNext at h
  cases hs : select succeeds s i with
  | none => simp [hs] at h
  | some o =>
    cases selected hs with
    | done hi => exact hi
    | tcpErr t => cases t <;> simp [hs, handle] at h
    | _ => simp [hs, handle] at h

/-- A connection is yielded at most once and not lost before the end; all are, if no handshake is in flight then. -/
theorem connections_yielded_once (h : Run succeeds outs s) :
    (yielded outs).Nodup ∧ (∀ id < s.accepted, succeeds id = true → id ∈ s.tasks ∨ id ∈ yielded outs) ∧
      ∀ i, (pollNext succeeds s i).1 = .ended → i.incoming = .ended ∧
        ((i.incoming = .ended → s.tasks = []) → ∀ id, id ∈ yielded outs ↔ id < s.accepted ∧ succeeds id = true) := by
  obtain ⟨hn, hl, hs, hk⟩ := h.inv
  refine ⟨hn.of_append_right, fun id hid hsc => List.mem_append.1 (hk id hid hsc), fun i hi => ?_⟩
  refine ⟨incoming_of_ended hi, fun ht id => ⟨fun hy => ⟨hl id (by simp [hy]), hs id hy⟩, fun hid => ?_⟩⟩
  simpa [ht (incoming_of_ended hi)] using hk id hid.1 hid.2

theorem connections_yielded_once_one :
    Run (fun _ => true) [.pending, .item 0] ⟨1, []⟩ ∧
      ∀ id, id ∈ yielded [.pending, .item 0] ↔ id < 1 ∧ true = true := by
  have h : Run (fun _ => true) [.pending, .item 0] ⟨1, []⟩ :=
    (Run.start.poll (by simp) ⟨true, .stream, none⟩).poll (by simp [pollNext, select, pollIncoming, handle])
      ⟨true, .pending, some 0⟩
  exact ⟨h, ((connections_yielded_once h).2.2 ⟨true, .ended, none⟩ rfl).2 fun _ => rfl⟩

/-- The listener ends while a handshake is in flight. -/
theorem ended_in_flight : Run (fun _ => true) [.pending, .ended] ⟨1, [0]⟩ :=
  (Run.start.poll (by simp) ⟨true, .stream, none⟩).poll (by simp [pollNext, select, pollIncoming, handle])
    ⟨true, .ended, none⟩

end Tonic.AcceptStream
