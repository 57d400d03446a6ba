import GrpcRust.Lib.Transition
import GrpcRust.TonicXds.OutlierDetection
/-!
# A sweep with nothing in between

`run_housekeeping` as the source has it, loop by loop. It is what the steps of a sweep come to when nobody else calls
the registry meanwhile.
-/

namespace TonicXds

open Lib

variable {K : Type} [DecidableEq K]

namespace OutlierStatsRegistry

/-! ## The loops -/

variable (r : OutlierStatsRegistry K) (order : IterOrder)

def ids (r : OutlierStatsRegistry K) : List Nat := (order.entries r.channels.entries).map (·.2)

def snapshotEntry (taken : OutlierStatsRegistry K × List Sample) (id : Nat) : OutlierStatsRegistry K × List Sample :=
  match taken.1.states[id]? with
  | some s =>
    (taken.1.modify id (·.reset) OutlierChannelState.addr_reset,
      taken.2 ++ [{ id := id, success := s.success, failure := s.failure }])
  | none => taken

def snapshots (r : OutlierStatsRegistry K) : OutlierStatsRegistry K × List Sample :=
  (r.ids order).foldl snapshotEntry (r, [])

section
variable (config : OutlierDetectionConfig) (test : SuccessRateTest) (draws : Algorithm → Nat → Fin 100)
  (now : Algorithm → Nat)

/-- The body of the loop of `eject_outliers`; the loop is left where there is no result. -/
def ejectEntry (algorithm : Algorithm) (samples : List Sample) (r : OutlierStatsRegistry K) (x : Sample) :
    Option (OutlierStatsRegistry K) :=
  match verdict config test r algorithm samples x (draws algorithm x.id) with
  | .skip => some r
  | .stop => none
  | .eject => some (r.tryEjectWithGuard x.id (now algorithm))

/-- `eject_outliers`, which reads the clock once, before its loop. -/
def ejectOutliers (algorithm : Algorithm) (samples : List Sample) (r : OutlierStatsRegistry K) :
    List Sample → OutlierStatsRegistry K
  | [] => r
  | x :: rest =>
    match r.ejectEntry config test draws now algorithm samples x with
    | some r => ejectOutliers algorithm samples r rest
    | none => r

def runAlgorithm (samples : List Sample) (r : OutlierStatsRegistry K) (algorithm : Algorithm) :
    OutlierStatsRegistry K :=
  if algorithm.runs samples then r.ejectOutliers config test draws now algorithm samples samples else r

end

def runHousekeeping (config : OutlierDetectionConfig) (test : SuccessRateTest) (order : IterOrder)
    (draws : Algorithm → Nat → Fin 100) (now : Algorithm → Nat) (r : OutlierStatsRegistry K) : OutlierStatsRegistry K :=
  let (taken, samples) := r.snapshots order
  let swept := config.algorithms.foldl (runAlgorithm config test draws now samples) taken
  (samples.foldl (fun r x => r.decrementEntry x.id) swept).broadcast

/-! ## The snapshot -/

section
variable {r : OutlierStatsRegistry K} {id : Nat}

theorem exists_state {addr : K} (h : r.channels.lookup addr = some id) :
    ∃ s, r.states[id]? = some s ∧ s.addr = addr := Option.map_eq_some_iff.1 (r.registered addr id h)

theorem registered_of_mem_ids (o : IterOrder) (h : id ∈ r.ids o) : ∃ a, r.channels.lookup a = some id := by
  obtain ⟨e, he, rfl⟩ := List.mem_map.1 h
  exact ⟨e.1, HashMap.mem_entries.1 (o.mem_entries.1 he)⟩

theorem nodup_ids (o : IterOrder) (r : OutlierStatsRegistry K) : (r.ids o).Nodup := by
  rw [ids, ((o.entries_perm r.channels.entries).map _).nodup_iff]
  refine List.Nodup.map_on (fun e hentry e' hentry' heq => ?_) r.channels.nodupKeys.nodup
  have hlookup := HashMap.mem_entries.1 hentry
  have hlookup' := HashMap.mem_entries.1 hentry'
  rw [heq] at hlookup
  exact Sigma.ext (eq_of_registered hlookup hlookup') (heq_of_eq heq)

theorem snapshotEntry_of_some {t : OutlierStatsRegistry K × List Sample} {s : OutlierChannelState K}
    (hs : t.1.states[id]? = some s) : snapshotEntry t id = (t.1.modify id (·.reset) fun _ => rfl,
      t.2 ++ [{ id := id, success := s.success, failure := s.failure }]) := by
  unfold snapshotEntry
  rw [hs]

end

end OutlierStatsRegistry

/-! ## The steps of a sweep -/

/-- A step comes with the time at which it is taken. -/
def sweeping (config : OutlierDetectionConfig) (test : SuccessRateTest) (r : OutlierStatsRegistry K) :
    Transition (OutlierStatsRegistry K × Sweep) (Nat × SweepEvent K) where
  init := (r, .idle)
  step s event := s.2.step config test event.1 s.1 event.2

/-- The sweep takes its steps at the times that `now` has. -/
abbrev Swept (config : OutlierDetectionConfig) (test : SuccessRateTest) (now : Algorithm → Nat)
    (r : OutlierStatsRegistry K) : OutlierStatsRegistry K × Sweep → Prop :=
  (sweeping config test r).Reachable fun _ event => ∃ algorithm, event.1 = now algorithm

instance : Inhabited Algorithm := ⟨.failurePercentage ⟨0, 0, 0, 0⟩⟩

namespace OutlierStatsRegistry
variable {config : OutlierDetectionConfig} {test : SuccessRateTest} {now : Algorithm → Nat}
  {r r₀ : OutlierStatsRegistry K} {ss rest : List Sample} {a : Algorithm} {after : List Algorithm}

theorem reached_collecting {ids : List Nat} (h : Swept config test now r₀ (r, .collecting ss))
    (hi : ∀ id ∈ ids, ∃ a, r.channels.lookup a = some id) (hn : (ss.map (·.id) ++ ids).Nodup) :
    Swept config test now r₀
      ((ids.foldl snapshotEntry (r, ss)).1, .collecting (ids.foldl snapshotEntry (r, ss)).2) := by
  induction ids generalizing r ss with
  | nil => exact h
  | cons id ids ih =>
    obtain ⟨a, hid⟩ := hi id List.mem_cons_self
    obtain ⟨s, hs, -⟩ := exists_state hid
    rw [List.foldl_cons, snapshotEntry_of_some hs]
    refine ih (.step (now default, .visit a) h ⟨_, rfl⟩ ?_) (fun id' hid' => hi id' (List.mem_cons_of_mem _ hid')) ?_
    · have hnw : ss.any (·.id == id) = false := by
        rw [List.any_eq_false]
        intro y hy
        have hne : y.id ≠ id := fun heq =>
          List.disjoint_of_nodup_append hn (List.mem_map.2 ⟨y, hy, heq⟩) List.mem_cons_self
        simpa using hne
      simp only [sweeping, Sweep.step, hid, hs, hnw]
    · simpa using hn

variable (draws : Algorithm → Nat → Fin 100)

theorem reached_ejectEntry {x : Sample} (h : Swept config test now r₀ (r, .ejecting a after ss (x :: rest) (now a)))
    (next : Algorithm) : Swept config test now r₀
      (match r.ejectEntry config test draws now a ss x with
        | some r' => (r', .ejecting a after ss rest (now a))
        | none => (r, .pass ss (now next) after)) := by
  have hs := h.step (now next, .eject (draws a x.id)) ⟨next, rfl⟩ rfl
  simp only [ejectOutlier] at hs
  unfold ejectEntry
  cases hv : verdict config test r a ss x (draws a x.id) <;> rw [hv] at hs
  · exact hs
  · exact hs
  · exact hs.step (now next, .tryEject) ⟨next, rfl⟩ rfl

theorem reached_ejectOutliers (h : Swept config test now r₀ (r, .ejecting a after ss rest (now a)))
    (next : Algorithm) :
    Swept config test now r₀ (r.ejectOutliers config test draws now a ss rest, .pass ss (now next) after) := by
  induction rest generalizing r with
  | nil => exact h.step (now next, .eject 0) ⟨next, rfl⟩ rfl
  | cons x rest ih =>
    have he := reached_ejectEntry draws h next
    unfold ejectOutliers
    cases hr : r.ejectEntry config test draws now a ss x with
    | none =>
      rw [hr] at he
      exact he
    | some r' =>
      rw [hr] at he
      exact ih he

-- The clock read on the way to an algorithm is the one that its ejections get.
theorem reached_algorithms {algorithms : List Algorithm}
    (h : ∀ next, Swept config test now r₀ (r, .pass ss (now next) algorithms)) :
    Swept config test now r₀ (algorithms.foldl (runAlgorithm config test draws now ss) r, .decrementing ss) := by
  induction algorithms generalizing r with
  | nil => exact h default
  | cons a after ih =>
    rw [List.foldl_cons, runAlgorithm]
    simp only [Sweep.pass] at h
    split_ifs at h ⊢
    · exact ih (reached_ejectOutliers draws (h a))
    · exact ih h

theorem reached_decrement (h : Swept config test now r₀ (r, .decrementing rest)) :
    Swept config test now r₀ (rest.foldl (fun r x => r.decrementEntry x.id) r, .broadcasting) := by
  induction rest generalizing r with
  | nil => exact h.step (now default, .decrement) ⟨_, rfl⟩ rfl
  | cons x rest ih => exact ih (h.step (now default, .decrement) ⟨_, rfl⟩ rfl)

/-- With nothing in between, the steps of a sweep come to `run_housekeeping`, whatever the clock shows in each pass. -/
theorem reached_runHousekeeping (order : IterOrder) (r : OutlierStatsRegistry K) :
    Swept config test now r (r.runHousekeeping config test order draws now, .idle) := by
  have hs : Swept config test now r (r, .collecting []) := .step (now default, .start) .init ⟨_, rfl⟩ rfl
  have ht := reached_collecting hs (fun _ => registered_of_mem_ids order)
    (by simpa using r.nodup_ids order)
  have hc := reached_algorithms draws fun next => ht.step (now next, .collected) ⟨next, rfl⟩ rfl
  exact (reached_decrement hc).step (now default, .broadcast) ⟨_, rfl⟩ rfl

end OutlierStatsRegistry

end TonicXds
