import GrpcRust.Lib.Transition
/-!
# The value that consumers watch

`Watcher` and `Snapshot` of `client/channel.rs`: updates, each a store and then a notify, and any number of consumers.
-/

namespace Client.Watching

open Lib List Transition

variable {T : Type}

/-- An allocation, with the number of earlier values. Its address is used again once nothing holds it. -/
structure Arc (T : Type) where
  address : Nat
  value : T
  order : Nat

inductive Phase
  | outside
  | registered (notified : Bool)
  | waiting (notified : Bool)
deriving DecidableEq

def Phase.notify : Phase → Phase
  | .outside => .outside
  | .registered _ => .registered true
  | .waiting _ => .waiting true

theorem Phase.notify_ne (phase : Phase) : phase.notify ≠ .waiting false := by cases phase <;> nofun

structure Snapshot (T : Type) where
  value : Arc T
  phase : Phase
  obtained : List Nat

structure Watcher (T : Type) where
  current : Arc T
  stored : Nat
  unnotified : List Nat
  snapshots : List (Snapshot T)

inductive Step (T : Type)
  | snapshot
  | register (i : Nat)
  | check (i : Nat)
  | wake (i : Nat)
  | drop (i : Nat)
  | store (address : Nat) (item : T)
  | notify (order : Nat)

namespace Snapshot

def register (c : Snapshot T) : Option (Snapshot T) :=
  match c.phase with
  | .outside => some { c with phase := .registered false }
  | _ => none

def check (current : Arc T) (c : Snapshot T) : Option (Snapshot T) :=
  match c.phase with
  | .registered notified =>
    some (if current.address ≠ c.value.address then ⟨current, .outside, c.obtained ++ [current.order]⟩
      else { c with phase := .waiting notified })
  | _ => none

def wake (c : Snapshot T) : Option (Snapshot T) :=
  match c.phase with
  | .waiting true => some { c with phase := .outside }
  | _ => none

end Snapshot

namespace Watcher

def live (w : Watcher T) : List (Arc T) := w.current :: w.snapshots.map (·.value)

def atSnapshot (w : Watcher T) (i : Nat) (f : Snapshot T → Option (Snapshot T)) : Option (Watcher T) := do
  let c ← w.snapshots[i]?
  let c' ← f c
  return { w with snapshots := w.snapshots.set i c' }

def step (w : Watcher T) : Step T → Option (Watcher T)
  | .snapshot => some { w with snapshots := w.snapshots ++ [⟨w.current, .outside, [w.current.order]⟩] }
  | .register i => w.atSnapshot i Snapshot.register
  | .check i => w.atSnapshot i (Snapshot.check w.current)
  | .wake i => w.atSnapshot i Snapshot.wake
  | .drop i => some { w with snapshots := w.snapshots.eraseIdx i }
  | .store address item =>
    if address ∈ w.live.map (·.address) then none
    else some { w with
      current := ⟨address, item, w.stored⟩
      stored := w.stored + 1
      unnotified := w.unnotified ++ [w.stored] }
  | .notify order =>
    if order ∈ w.unnotified then
      some { w with unnotified := w.unnotified.erase order
                    snapshots := w.snapshots.map fun c => { c with phase := c.phase.notify } }
    else none

def watcher (address : Nat) (initial : T) : Transition (Watcher T) (Step T) where
  init := ⟨⟨address, initial, 0⟩, 1, [], []⟩
  step := step

/-! ## No wake-up is lost -/

variable {w w' : Watcher T} {i : Nat} {c c' : Snapshot T} {us : List Nat}

structure Kept (stored : Nat) (unnotified : List Nat) (c : Snapshot T) : Prop where
  increasing : c.obtained.Pairwise (· < ·)
  latest : ∀ k ∈ c.obtained, k ≤ c.value.order
  waiting : c.phase = .waiting false → ∀ k, c.value.order < k → k < stored → k ∈ unnotified

/-- Values are told apart by address while they are alive; later ones have yet to notify a waiting task. -/
structure Inv (w : Watcher T) : Prop where
  current : w.current.order + 1 = w.stored
  distinct : ∀ a ∈ w.live, ∀ b ∈ w.live, a.address = b.address ↔ a.order = b.order
  bounded : ∀ a ∈ w.live, a.order < w.stored
  kept : ∀ c ∈ w.snapshots, Kept w.stored w.unnotified c

theorem Inv.with (h : Inv w) {cs : List (Snapshot T)}
    (hs : ∀ c ∈ cs, c.value ∈ w.live ∧ Kept w.stored us c) : Inv { w with unnotified := us, snapshots := cs } := by
  have hsub : ∀ a ∈ ({ w with snapshots := cs } : Watcher T).live, a ∈ w.live := by
    refine forall_mem_cons.2 ⟨mem_cons_self, fun a ha => ?_⟩
    obtain ⟨c, hc, rfl⟩ := mem_map.1 ha
    exact (hs c hc).1
  exact ⟨h.current, fun a ha b hb => h.distinct a (hsub a ha) b (hsub b hb), fun a ha => h.bounded a (hsub a ha),
    fun c hc => (hs c hc).2⟩

theorem value_mem_live (hc : c ∈ w.snapshots) : c.value ∈ w.live := mem_cons_of_mem _ (mem_map_of_mem hc)

theorem Inv.phase (h : Inv w) (hc : c ∈ w.snapshots) {phase : Phase}
    (hp : phase = .waiting false → ∀ k, c.value.order < k → k < w.stored → k ∈ us) :
    c.value ∈ w.live ∧ Kept w.stored us { c with phase } :=
  ⟨value_mem_live hc, (h.kept c hc).increasing, (h.kept c hc).latest, hp⟩

theorem Inv.atSnapshot (h : Inv w) {f : Snapshot T → Option (Snapshot T)} (hs : w.atSnapshot i f = some w')
    (hf : ∀ c ∈ w.snapshots, ∀ c', f c = some c' → c'.value ∈ w.live ∧ Kept w.stored w.unnotified c') : Inv w' := by
  obtain ⟨c, hc, hs⟩ := Option.bind_eq_some_iff.1 hs
  obtain ⟨c', hc', hs⟩ := Option.bind_eq_some_iff.1 hs
  cases hs
  refine h.with fun d hd => ?_
  rcases mem_or_eq_of_mem_set hd with hd | rfl
  · exact ⟨value_mem_live hd, h.kept d hd⟩
  · exact hf c (mem_of_getElem? hc) _ hc'

/-- A snapshot holds its allocation: pointers are equal just when the value is the latest one. -/
theorem Inv.address_eq_iff (h : Inv w) (hc : c ∈ w.snapshots) :
    w.current.address = c.value.address ↔ c.value.order + 1 = w.stored := by
  rw [h.distinct _ mem_cons_self _ (value_mem_live hc), ← h.current, Nat.add_right_cancel_iff, eq_comm]

theorem Inv.check (h : Inv w) (hc : c ∈ w.snapshots) (hs : c.check w.current = some c') :
    c'.value ∈ w.live ∧ Kept w.stored w.unnotified c' := by
  have hk := h.kept c hc
  have hb := h.bounded _ (value_mem_live hc)
  have ha := h.address_eq_iff hc
  have hl := h.current
  unfold Snapshot.check at hs
  split at hs
  · cases hs
    split_ifs with hne
    · have hlt : ∀ k ∈ c.obtained, k < w.current.order := fun k hm => by
        have := hk.latest k hm
        have := mt ha.2 hne
        omega
      refine ⟨mem_cons_self, pairwise_append.2 ⟨hk.increasing, pairwise_singleton _ _, ?_⟩, ?_, nofun⟩
      · exact fun k hm => forall_mem_singleton.2 (hlt k hm)
      · exact forall_mem_append.2 ⟨fun k hm => (hlt k hm).le, forall_mem_singleton.2 le_rfl⟩
    · refine h.phase hc fun _ k hck hks => ?_
      have := ha.1 (not_not.1 hne)
      omega
  · cases hs

theorem Inv.step (h : Inv w) {op : Step T} (hs : w.step op = some w') : Inv w' := by
  have hold : ∀ c ∈ w.snapshots, c.value ∈ w.live ∧ Kept w.stored w.unnotified c :=
    fun c hc => ⟨value_mem_live hc, h.kept c hc⟩
  cases op with
  | snapshot =>
    cases hs
    refine h.with (forall_mem_append.2 ⟨hold, forall_mem_singleton.2 ⟨mem_cons_self, ?_⟩⟩)
    exact ⟨pairwise_singleton _ _, forall_mem_singleton.2 le_rfl, nofun⟩
  | register i =>
    refine h.atSnapshot hs fun c hc c' hf => ?_
    unfold Snapshot.register at hf
    split at hf <;> cases hf
    exact h.phase hc nofun
  | check i => exact h.atSnapshot hs fun c hc c' => h.check hc
  | wake i =>
    refine h.atSnapshot hs fun c hc c' hf => ?_
    unfold Snapshot.wake at hf
    split at hf <;> cases hf
    exact h.phase hc nofun
  | drop i =>
    cases hs
    exact h.with fun c hc => hold c (mem_of_mem_eraseIdx hc)
  | store address item =>
    rw [Watcher.step] at hs
    split_ifs at hs with ha
    cases hs
    have hne : ∀ a ∈ w.snapshots.map (·.value), a.address ≠ address ∧ a.order < w.stored := fun a hm =>
      ⟨fun he => ha (he ▸ mem_map_of_mem (mem_cons_of_mem _ hm)), h.bounded a (mem_cons_of_mem _ hm)⟩
    refine ⟨rfl, forall_mem_cons.2 ⟨forall_mem_cons.2 ⟨by simp, fun b hb => ?_⟩,
      fun a ha => forall_mem_cons.2 ⟨?_, fun b hb => ?_⟩⟩,
      forall_mem_cons.2 ⟨Nat.lt_succ_self _, fun a ha => (hne a ha).2.trans (Nat.lt_succ_self _)⟩, fun c hc => ?_⟩
    · exact iff_of_false (hne b hb).1.symm (hne b hb).2.ne'
    · exact iff_of_false (hne a ha).1 (hne a ha).2.ne
    · exact h.distinct a (mem_cons_of_mem _ ha) b (mem_cons_of_mem _ hb)
    · obtain ⟨hi, hl, hw⟩ := h.kept c hc
      refine ⟨hi, hl, fun hp k hck hks => mem_append.2 ?_⟩
      rcases Nat.lt_succ_iff_lt_or_eq.1 hks with hks | rfl
      · exact .inl (hw hp k hck hks)
      · exact .inr (mem_singleton_self _)
  | notify order =>
    rw [Watcher.step] at hs
    split_ifs at hs
    cases hs
    refine h.with fun d hd => ?_
    obtain ⟨c, hc, rfl⟩ := mem_map.1 hd
    exact h.phase hc fun hp => absurd hp (Phase.notify_ne _)

theorem inv_of_reached {address : Nat} {initial : T} (h : (watcher address initial).Reached w) : Inv w :=
  h.inv ⟨rfl, by simp [live, watcher], by simp [live, watcher], by simp [watcher]⟩ fun _ _ _ h _ hs => h.step hs

/-- A waiter can go on once a newer value is notified, a check returns the latest value, and values come in order. -/
theorem no_lost_wakeup {address : Nat} {initial : T} (h : (watcher address initial).Reached w)
    (hc : w.snapshots[i]? = some c) : c.obtained.Pairwise (· < ·) ∧ ∀ k, c.value.order < k → k < w.stored →
      (∀ n, c.phase = .waiting n → k ∉ w.unnotified →
        w.step (.wake i) = some { w with snapshots := w.snapshots.set i { c with phase := .outside } }) ∧
      ∀ n, c.phase = .registered n → w.step (.check i) =
        some { w with snapshots := w.snapshots.set i ⟨w.current, .outside, c.obtained ++ [w.current.order]⟩ } := by
  have hi := inv_of_reached h
  have hm := mem_of_getElem? hc
  obtain ⟨hinc, -, hw⟩ := hi.kept c hm
  refine ⟨hinc, fun k hck hks => ⟨fun n hp hn => ?_, fun n hp => ?_⟩⟩
  · cases n with
    | false => exact absurd (hw hp k hck hks) hn
    | true => simp [step, Watcher.atSnapshot, hc, Snapshot.wake, hp]
  · have hne : w.current.address ≠ c.value.address := fun he => by
      have := (hi.address_eq_iff hm).1 he
      omega
    simp [step, Watcher.atSnapshot, hc, Snapshot.check, hp, hne]

/-- The last update notifies before the one it replaces, which reuses the address of the first value. -/
theorem no_lost_wakeup_late_notify : ∃ w : Watcher Bool, (watcher 0 false).Reached w ∧ w.unnotified = [2] ∧
    ∃ c, w.snapshots = [c] ∧ c.value.order = 1 ∧ (w.step (.wake 0)).isSome := by
  have h : (watcher 0 false).Reached ⟨⟨2, true, 3⟩, 4, [2], [⟨⟨1, true, 1⟩, .waiting true, [0, 1]⟩]⟩ :=
    reached_of_run (show Transition.run _ [.snapshot, .register 0, .store 1 true, .notify 1, .check 0, .register 0,
      .check 0,
      .store 0 false, .store 2 true, .notify 3] = _ from rfl)
  have hw := ((no_lost_wakeup h (i := 0) rfl).2 3 (by decide) (by decide)).1 true rfl (by decide)
  exact ⟨_, h, rfl, _, rfl, rfl, by rw [hw]; rfl⟩

end Watcher

end Client.Watching
