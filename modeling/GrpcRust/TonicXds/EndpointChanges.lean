import GrpcRust.Lib.Transition
import GrpcRust.TonicXds.EndpointManager
/-!
# What the diff loop emits

Replayed, the changes of a snapshot give its healthy endpoints.
-/

namespace TonicXds

open Lib

/-! ## Exact changes -/

section
variable {A : Type} [DecidableEq A] {l : List A} {s : Finset A}

def Exact : Finset A → List (Change A) → Prop
  | _, [] => True
  | s, .insert key :: rest => key ∉ s ∧ Exact (insert key s) rest
  | s, .remove key :: rest => key ∈ s ∧ Exact (s.erase key) rest

theorem exact_append {changes changes' : List (Change A)} :
    Exact s (changes ++ changes') ↔ Exact s changes ∧ Exact (changes.foldl Change.apply s) changes' := by
  induction changes generalizing s with
  | nil => simp [Exact]
  | cons change changes ih => cases change <;> simp [Exact, ih, and_assoc, Change.apply]

theorem exact_insert (hn : l.Nodup) (hnw : ∀ key ∈ l, key ∉ s) : Exact s (l.map .insert) := by
  induction l generalizing s with
  | nil => trivial
  | cons key l ih =>
    obtain ⟨hk, hn⟩ := List.nodup_cons.1 hn
    obtain ⟨hh, hnw⟩ := List.forall_mem_cons.1 hnw
    refine ⟨hh, ih hn fun key' hk' hmem => ?_⟩
    rcases Finset.mem_insert.1 hmem with rfl | hmem
    · exact hk hk'
    · exact hnw key' hk' hmem

theorem exact_remove (hn : l.Nodup) (ho : ∀ key ∈ l, key ∈ s) : Exact s (l.map .remove) := by
  induction l generalizing s with
  | nil => trivial
  | cons key l ih =>
    obtain ⟨hk, hn⟩ := List.nodup_cons.1 hn
    obtain ⟨hh, ho⟩ := List.forall_mem_cons.1 ho
    refine ⟨hh, ih hn fun key' hk' => Finset.mem_erase.2 ⟨?_, ho key' hk'⟩⟩
    rintro rfl
    exact hk hk'

theorem exact_diff (order : IterOrder) (active newSet : HashSet A) :
    Exact active.toFinset (diff order active newSet) := by
  have hn (s : HashSet A) : (order.elems s).Nodup := (order.entries_perm s.elems).nodup_iff.2 s.nodup
  rw [diff, exact_append, foldl_insert]
  constructor
  · refine exact_insert (hn _) fun key hk hmem => ?_
    rw [IterOrder.mem_elems, HashSet.mem_difference] at hk
    exact hk.2 (HashSet.mem_toFinset.1 hmem)
  · refine exact_remove (hn _) fun key hk => ?_
    rw [IterOrder.mem_elems, HashSet.mem_difference] at hk
    exact Finset.mem_union_left _ (HashSet.mem_toFinset.2 hk.1)

end

/-! ## A diff loop next to the cache -/

def DiffLoop.reads (endpoints : WatchMap EndpointsResource) (l : DiffLoop) : Option EndpointsResource :=
  if l.waiting then
    endpoints.channels[l.watch.channel]?.bind fun c =>
      match (l.watch.next c).1 with
      | .value snapshot => some snapshot
      | _ => none
  else none

/-- The loop, the cache it watches, and records of what it read and sent. -/
structure Diffing where
  endpoints : WatchMap EndpointsResource
  loop : DiffLoop
  read : List EndpointsResource
  emitted : List (Change EndpointAddress)

inductive DiffEvent
  | update (cluster : String) (snapshot : EndpointsResource)
  | remove (cluster : String)
  | next (order : IterOrder)
  | send
  | dropped

namespace Diffing

def new (endpoints : WatchMap EndpointsResource) (cluster : String) : Diffing :=
  { endpoints := (endpoints.watch cluster).2, loop := .spawn (endpoints.watch cluster).1, read := [], emitted := [] }

def step (s : Diffing) : DiffEvent → Option Diffing
  | .update cluster snapshot => some { s with endpoints := s.endpoints.update cluster snapshot }
  | .remove cluster => some { s with endpoints := s.endpoints.remove cluster }
  | .next order =>
    some { s with loop := s.loop.next order s.endpoints, read := s.read ++ (s.loop.reads s.endpoints).toList }
  | .send =>
    match s.loop.finished, s.loop.pending with
    | false, change :: rest =>
      some { s with loop := { s.loop with pending := rest }, emitted := s.emitted ++ [change] }
    | _, _ => none
  | .dropped =>
    match s.loop.finished, s.loop.pending with
    | false, _ :: _ => some { s with loop := { s.loop with finished := true } }
    | _, _ => none

end Diffing

def diffing (endpoints : WatchMap EndpointsResource) (cluster : String) : Transition Diffing DiffEvent where
  init := .new endpoints cluster
  step := Diffing.step

namespace Diffing
variable {s s' : Diffing}

/-- The changes sent and those still to be sent lead to the healthy endpoints of the last snapshot. -/
structure Inv (s : Diffing) : Prop where
  exact : Exact ∅ (s.emitted ++ s.loop.pending)
  replay : (s.emitted ++ s.loop.pending).foldl Change.apply ∅ = s.loop.active.toFinset
  active : s.loop.active.toFinset = s.read.getLast?.elim ∅ fun snapshot => snapshot.healthyAddresses.toFinset

theorem inv_new (es : WatchMap EndpointsResource) (c : String) : (new es c).Inv := ⟨trivial, rfl, rfl⟩

theorem next_cases (o : IterOrder) (es : WatchMap EndpointsResource) (l : DiffLoop) :
    (∃ s, l.pending = [] ∧ l.reads es = some s ∧ (l.next o es).active = s.healthyAddresses ∧
      (l.next o es).pending = diff o l.active s.healthyAddresses) ∨
    (l.reads es = none ∧ (l.next o es).active = l.active ∧ (l.next o es).pending = l.pending) := by
  unfold DiffLoop.reads DiffLoop.next
  by_cases hw : l.waiting = true
  · rw [if_pos hw, if_pos hw]
    have hp : l.pending = [] := by
      simp only [DiffLoop.waiting, Bool.and_eq_true, List.isEmpty_iff] at hw
      exact hw.2
    cases es.channels[l.watch.channel]? with
    | none => exact .inr ⟨rfl, rfl, rfl⟩
    | some c =>
      rcases hn : l.watch.next c with ⟨value, w⟩
      simp only [Option.bind_some, hn]
      cases value with
      | value s => exact .inl ⟨s, hp, rfl, rfl, rfl⟩
      | closed => exact .inr ⟨rfl, rfl, rfl⟩
      | pending => exact .inr ⟨rfl, rfl, rfl⟩
  · rw [if_neg hw, if_neg hw]
    exact .inr ⟨rfl, rfl, rfl⟩

theorem Inv.next (o : IterOrder) (h : s.Inv) :
    Inv { s with loop := s.loop.next o s.endpoints, read := s.read ++ (s.loop.reads s.endpoints).toList } := by
  rcases next_cases o s.endpoints s.loop with ⟨sn, hp, hrd, ha, hn⟩ | ⟨hrd, ha, hn⟩
  · have he := h.exact
    have hr := h.replay
    rw [hp, List.append_nil] at he hr
    refine ⟨?_, ?_, ?_⟩
    · rw [hn, exact_append, hr]
      exact ⟨he, exact_diff o _ _⟩
    · rw [hn, ha, List.foldl_append, hr, replay_diff]
    · simp [hrd, ha]
  · refine ⟨?_, ?_, ?_⟩
    · rw [hn]
      exact h.exact
    · rw [hn, ha]
      exact h.replay
    · rw [ha]
      simpa [hrd] using h.active

theorem Inv.step {e : DiffEvent} (h : s.Inv) (hs : s.step e = some s') : s'.Inv := by
  cases e with
  | update c sn =>
    cases hs
    exact ⟨h.exact, h.replay, h.active⟩
  | remove c =>
    cases hs
    exact ⟨h.exact, h.replay, h.active⟩
  | next o =>
    cases hs
    exact h.next o
  | send =>
    simp only [Diffing.step] at hs
    split at hs
    · rename_i change rest hf hp
      cases hs
      -- the sum of what is sent and what is to be sent stays
      have hsm : s.emitted ++ s.loop.pending = s.emitted ++ [change] ++ rest := by simp [hp]
      exact ⟨hsm ▸ h.exact, hsm ▸ h.replay, h.active⟩
    · cases hs
  | dropped =>
    simp only [Diffing.step] at hs
    split at hs
    · cases hs
      exact ⟨h.exact, h.replay, h.active⟩
    · cases hs

theorem inv_of_reached {es : WatchMap EndpointsResource} {c : String} (h : (diffing es c).Reached s) : s.Inv :=
  h.inv (inv_new es c) fun _ _ _ hi _ hs => hi.step hs

end Diffing

/-- No present key is inserted and no absent one removed; all changes of a snapshot give its healthy endpoints. -/
theorem diff_loop_replays (endpoints : WatchMap EndpointsResource) (cluster : String) {s : Diffing}
    (h : (diffing endpoints cluster).Reached s) :
    Exact ∅ s.emitted ∧
    (s.loop.pending = [] → ∀ a, a ∈ s.emitted.foldl Change.apply ∅ ↔ ∃ sn, s.read.getLast? = some sn ∧
        ∃ l ∈ sn.localities, ∃ e ∈ l.endpoints, e.healthStatus.usable ∧ e.address = a) := by
  have hi := Diffing.inv_of_reached h
  refine ⟨(exact_append.1 hi.exact).1, fun hp a => ?_⟩
  have hr := hi.replay
  rw [hp, List.append_nil] at hr
  rw [hr, hi.active]
  cases s.read.getLast? with
  | none => simp
  | some sn =>
    simp only [Option.elim_some, HashSet.mem_toFinset, EndpointsResource.mem_healthyAddresses, Option.some.injEq,
      exists_eq_left']

/-- The first snapshot has an address twice, the second is overtaken by the third, where another replaces it. -/
theorem diff_loop_replays_overtaken :
    let first : EndpointAddress := ⟨.ipv4 1, 80⟩
    let sc : EndpointAddress := ⟨.ipv4 2, 80⟩
    let third : EndpointsResource := ⟨"a", [⟨[⟨first, .draining⟩]⟩, ⟨[⟨sc, .healthy⟩]⟩]⟩
    ∃ s, (diffing .new "a").run [
        .update "a" ⟨"a", [⟨[⟨first, .healthy⟩, ⟨first, .unknown⟩]⟩]⟩, .next .default, .send,
        .update "a" ⟨"a", []⟩, .update "a" third, .next .default, .send, .send] = some s ∧
      s.emitted = [.insert first, .insert sc, .remove first] ∧ s.read.length = 2 ∧ Exact ∅ s.emitted ∧
      sc ∈ s.emitted.foldl Change.apply ∅ := by
  intro first sc third
  obtain ⟨s, hrn, he, hl, hp, hlast⟩ : ∃ s, (diffing .new "a").run [
        .update "a" ⟨"a", [⟨[⟨first, .healthy⟩, ⟨first, .unknown⟩]⟩]⟩, .next .default, .send,
        .update "a" ⟨"a", []⟩, .update "a" third, .next .default, .send, .send] = some s ∧
      s.emitted = [.insert first, .insert sc, .remove first] ∧ s.read.length = 2 ∧ s.loop.pending = [] ∧
      s.read.getLast? = some third := ⟨_, rfl, rfl, rfl, rfl, rfl⟩
  obtain ⟨hec, hr⟩ := diff_loop_replays .new "a" (Transition.reached_of_run hrn)
  refine ⟨s, hrn, he, hl, hec, (hr hp sc).2 ⟨third, hlast, ?_⟩⟩
  exact ⟨⟨[⟨sc, .healthy⟩]⟩, by simp [third], ⟨sc, .healthy⟩, by simp, rfl, rfl⟩

end TonicXds
