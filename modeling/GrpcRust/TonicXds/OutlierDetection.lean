import GrpcRust.Lib.HashMap
import GrpcRust.Lib.Transition
/-!
# Outlier detection

`client/loadbalance/outlier_detection.rs`, with `OutlierChannelState`. A call is one step, and so is each entry that a
sweep visits, considers, ejects or counts down. The floating-point test is a parameter.
-/

namespace TonicXds

open Lib

/-! ## Configuration -/

abbrev Percentage := Fin 101

instance percentageNeZero : NeZero 101 := ⟨by decide⟩

instance drawNeZero : NeZero 100 := ⟨by decide⟩

structure SuccessRateConfig where
  stdevFactor : Nat
  enforcingSuccessRate : Percentage
  minimumHosts : Nat
  requestVolume : Nat

structure FailurePercentageConfig where
  threshold : Percentage
  enforcingFailurePercentage : Percentage
  minimumHosts : Nat
  requestVolume : Nat

structure OutlierDetectionConfig where
  baseEjectionTime : Nat
  maxEjectionTime : Nat
  maxEjectionPercent : Percentage
  successRate : Option SuccessRateConfig
  failurePercentage : Option FailurePercentageConfig

def durationLimit : Nat := 2 ^ 64 * 10 ^ 9

/-- `Duration::checked_mul`. -/
def checkedMul (duration factor : Nat) : Option Nat :=
  if duration * factor < durationLimit then some (duration * factor) else none

variable (config : OutlierDetectionConfig)

def OutlierDetectionConfig.ejectionTime (multiplier : Nat) : Nat :=
  let cap := max config.baseEjectionTime config.maxEjectionTime
  min ((checkedMul config.baseEjectionTime multiplier).getD cap) cap

/-! ## Channels -/

structure OutlierChannelState (K : Type) where
  addr : K
  success : UInt64
  failure : UInt64
  ejectionMultiplier : Nat
  ejectedAtNanos : Nat
  epoch : Nat

namespace OutlierChannelState
variable {K : Type}

def new (addr : K) (now : Nat) : OutlierChannelState K :=
  { addr := addr, success := 0, failure := 0, ejectionMultiplier := 0, ejectedAtNanos := 0, epoch := now }

def isEjected (s : OutlierChannelState K) : Bool := s.ejectedAtNanos ≠ 0

def recordOutcome (s : OutlierChannelState K) (success : Bool) : OutlierChannelState K :=
  if success then { s with success := s.success + 1 } else { s with failure := s.failure + 1 }

def reset (s : OutlierChannelState K) : OutlierChannelState K := { s with success := 0, failure := 0 }

def eject (s : OutlierChannelState K) (now : Nat) : OutlierChannelState K :=
  let nanos := min (now - s.epoch) (2 ^ 64 - 1)
  { s with ejectedAtNanos := max nanos 1, ejectionMultiplier := (s.ejectionMultiplier + 1) % 2 ^ 32 }

def uneject (s : OutlierChannelState K) : OutlierChannelState K := { s with ejectedAtNanos := 0 }

def ejectedDuration (s : OutlierChannelState K) (now : Nat) : Option Nat :=
  if s.ejectedAtNanos = 0 then none else some (now - (s.epoch + s.ejectedAtNanos))

def decrementMultiplier (s : OutlierChannelState K) : OutlierChannelState K :=
  { s with ejectionMultiplier := s.ejectionMultiplier - 1 }

variable (s : OutlierChannelState K)

theorem addr_reset : s.reset.addr = s.addr := rfl

theorem addr_recordOutcome (sc : Bool) : (s.recordOutcome sc).addr = s.addr := by
  cases sc <;> rfl

theorem isEjected_recordOutcome (sc : Bool) : (s.recordOutcome sc).isEjected = s.isEjected := by
  cases sc <;> rfl

theorem isEjected_eject (now : Nat) : (s.eject now).isEjected = true := by simp [isEjected, eject]

end OutlierChannelState

/-! ## The registry -/

structure OutlierStatsRegistry (K : Type) [DecidableEq K] where
  channels : HashMap K Nat
  states : List (OutlierChannelState K)
  ejectedCount : Int
  ejectedSetVersion : Nat
  lastBroadcastVersion : Nat
  snapshot : Option (HashSet K)
  registered : ∀ addr id, channels.lookup addr = some id → (states[id]?.map (·.addr)) = some addr

namespace OutlierStatsRegistry
variable {K : Type} [DecidableEq K]

def new : OutlierStatsRegistry K where
  channels := ∅
  states := []
  ejectedCount := 0
  ejectedSetVersion := 0
  lastBroadcastVersion := 0
  snapshot := some .empty
  registered addr id h := by simp at h

def isEjected (r : OutlierStatsRegistry K) (id : Nat) : Bool := r.states[id]?.any (·.isEjected)

def modify (r : OutlierStatsRegistry K) (id : Nat) (f : OutlierChannelState K → OutlierChannelState K)
    (hf : ∀ s, (f s).addr = s.addr) : OutlierStatsRegistry K where
  channels := r.channels
  states := r.states.modify id f
  ejectedCount := r.ejectedCount
  ejectedSetVersion := r.ejectedSetVersion
  lastBroadcastVersion := r.lastBroadcastVersion
  snapshot := r.snapshot
  registered addr id' h := by
    rw [List.getElem?_modify]
    have hreg := r.registered addr id' h
    split <;> simpa [Function.comp_def, hf] using hreg

variable (r : OutlierStatsRegistry K)

def addChannel (now : Nat) (addr : K) : Nat × OutlierStatsRegistry K :=
  match r.channels.lookup addr with
  | some id => (id, r)
  | none => (r.states.length, { r with
      channels := r.channels.insert addr r.states.length
      states := r.states ++ [.new addr now]
      registered := by
        intro addr' id h
        rw [HashMap.lookup_insert_ite] at h
        split at h
        · rename_i heq
          cases h
          simp [heq, OutlierChannelState.new]
        · have hreg := r.registered addr' id h
          have hlt : id < r.states.length := by
            by_contra hge
            rw [List.getElem?_eq_none (not_lt.1 hge)] at hreg
            cases hreg
          rw [List.getElem?_append_left hlt, hreg] })

def removeChannel (addr : K) : OutlierStatsRegistry K :=
  match r.channels.lookup addr with
  | none => r
  | some id =>
    let removed : OutlierStatsRegistry K :=
      { r with
        channels := r.channels.erase addr
        registered := by
          intro addr' id' h
          rw [HashMap.lookup_erase_ite] at h
          split at h
          · cases h
          · exact r.registered addr' id' h }
    if r.isEjected id then
      { removed with ejectedCount := r.ejectedCount - 1, ejectedSetVersion := r.ejectedSetVersion + 1 }
    else removed

def noteUneject (id : Nat) : OutlierStatsRegistry K :=
  if r.isEjected id then
    { r.modify id (fun s => s.uneject.decrementMultiplier) fun _ => rfl with
      ejectedCount := r.ejectedCount - 1
      ejectedSetVersion := r.ejectedSetVersion + 1 }
  else r

def remainingEjection (config : OutlierDetectionConfig) (r : OutlierStatsRegistry K) (id now : Nat) : Option Nat :=
  r.states[id]?.bind fun s =>
    (s.ejectedDuration now).map fun elapsed => config.ejectionTime s.ejectionMultiplier - elapsed

def tryEjectWithGuard (id now : Nat) : OutlierStatsRegistry K :=
  match r.states[id]? with
  | none => r
  | some s =>
    if r.channels.lookup s.addr = some id ∧ ¬ s.isEjected then
      { r.modify id (·.eject now) fun _ => rfl with
        ejectedCount := r.ejectedCount + 1
        ejectedSetVersion := r.ejectedSetVersion + 1 }
    else r

def canEjectMore (endpointCount : Nat) (maxEjectionPercent : Percentage) : Bool :=
  if endpointCount = 0 then false
  else if r.ejectedCount = 0 then true
  else 100 * r.ejectedCount / endpointCount < (maxEjectionPercent.val : Int)

def ejectedSet : HashSet K := .keys (HashMap.retain (fun _ id => r.isEjected id) r.channels)

def decrementEntry (id : Nat) : OutlierStatsRegistry K :=
  if r.isEjected id then r else r.modify id (·.decrementMultiplier) fun _ => rfl

def broadcast : OutlierStatsRegistry K :=
  if r.ejectedSetVersion = r.lastBroadcastVersion then r
  else { r with snapshot := some r.ejectedSet, lastBroadcastVersion := r.ejectedSetVersion }

end OutlierStatsRegistry

/-! ## Sweeps -/

structure Sample where
  id : Nat
  success : UInt64
  failure : UInt64

def Sample.total (x : Sample) : UInt64 := x.success + x.failure

/-- The test of the success-rate algorithm: a configuration, the whole snapshot, and an entry. -/
abbrev SuccessRateTest := SuccessRateConfig → List Sample → Sample → Bool

inductive Algorithm
  | successRate (config : SuccessRateConfig)
  | failurePercentage (config : FailurePercentageConfig)

namespace Algorithm

def requestVolume : Algorithm → Nat
  | successRate config => config.requestVolume
  | failurePercentage config => config.requestVolume

def enforcing : Algorithm → Percentage
  | successRate config => config.enforcingSuccessRate
  | failurePercentage config => config.enforcingFailurePercentage

def isOutlier (test : SuccessRateTest) (samples : List Sample) (x : Sample) : Algorithm → Bool
  | successRate config => test config samples x
  | failurePercentage config => (100 * x.failure / x.total).toNat > config.threshold.val

def runs (samples : List Sample) : Algorithm → Bool
  | successRate config =>
    let rates := samples.filter fun x => x.total.toNat ≥ config.requestVolume ∧ x.total > 0
    rates.length ≥ config.minimumHosts ∧ ¬ rates.isEmpty
  | failurePercentage config => (samples.filter (·.total.toNat ≥ config.requestVolume)).length ≥ config.minimumHosts

end Algorithm

def OutlierDetectionConfig.algorithms : List Algorithm :=
  (config.successRate.map .successRate).toList ++ (config.failurePercentage.map .failurePercentage).toList

/-- `roll`, with the number drawn. -/
def roll (pct : Percentage) (drawn : Fin 100) : Bool :=
  if pct.val ≥ 100 then true else if pct.val = 0 then false else drawn.val < pct.val

/-- Where a sweep is; `now` was read when its pass began. -/
inductive Sweep
  | idle
  | collecting (samples : List Sample)
  | ejecting (algorithm : Algorithm) (after : List Algorithm) (samples rest : List Sample) (now : Nat)
  | chosen (algorithm : Algorithm) (after : List Algorithm) (samples : List Sample) (x : Sample) (rest : List Sample)
    (now : Nat)
  | decrementing (rest : List Sample)
  | broadcasting

inductive SweepEvent (K : Type)
  | start
  | visit (addr : K)
  | collected
  | eject (drawn : Fin 100)
  | tryEject
  | decrement
  | broadcast

def Sweep.pass (samples : List Sample) (now : Nat) : List Algorithm → Sweep
  | [] => .decrementing samples
  | algorithm :: after =>
    if algorithm.runs samples then .ejecting algorithm after samples samples now else pass samples now after

section Step
variable {K : Type} [DecidableEq K] (config : OutlierDetectionConfig) (test : SuccessRateTest)

/-- How the tests in the loop of `eject_outliers` end. -/
inductive Verdict
  | skip
  | stop
  | eject

/-- The tests in the loop of `eject_outliers`, for one entry of the snapshot. -/
def verdict (r : OutlierStatsRegistry K) (algorithm : Algorithm) (samples : List Sample) (x : Sample)
    (drawn : Fin 100) : Verdict :=
  if x.total = 0 ∨ x.total.toNat < algorithm.requestVolume ∨ r.isEjected x.id then .skip
  else if ¬ r.canEjectMore samples.length config.maxEjectionPercent then .stop
  else if ¬ algorithm.isOutlier test samples x then .skip
  else if ¬ roll algorithm.enforcing drawn then .skip
  else .eject

def ejectOutlier (r : OutlierStatsRegistry K) (algorithm : Algorithm) (after : List Algorithm) (samples : List Sample)
    (x : Sample) (rest : List Sample) (started now : Nat) (drawn : Fin 100) : Sweep :=
  match verdict config test r algorithm samples x drawn with
  | .skip => .ejecting algorithm after samples rest started
  | .stop => .pass samples now after
  | .eject => .chosen algorithm after samples x rest started

/-- `run_housekeeping`; `now` is the clock at the step. -/
def Sweep.step (now : Nat) (r : OutlierStatsRegistry K) (sweep : Sweep) :
    SweepEvent K → Option (OutlierStatsRegistry K × Sweep)
  | .start =>
    match sweep with
    | .idle => some (r, .collecting [])
    | _ => none
  | .visit addr =>
    match sweep, r.channels.lookup addr with
    | .collecting samples, some id =>
      match r.states[id]?, samples.any (·.id == id) with
      | some s, false =>
        some (r.modify id (·.reset) fun _ => rfl,
          .collecting (samples ++ [{ id := id, success := s.success, failure := s.failure }]))
      | _, _ => none
    | _, _ => none
  | .collected =>
    match sweep with
    | .collecting samples => some (r, .pass samples now config.algorithms)
    | _ => none
  | .eject drawn =>
    match sweep with
    | .ejecting algorithm after samples (x :: rest) started =>
      some (r, ejectOutlier config test r algorithm after samples x rest started now drawn)
    | .ejecting _ after samples [] _ => some (r, .pass samples now after)
    | _ => none
  | .tryEject =>
    match sweep with
    | .chosen algorithm after samples x rest started =>
      some (r.tryEjectWithGuard x.id started, .ejecting algorithm after samples rest started)
    | _ => none
  | .decrement =>
    match sweep with
    | .decrementing (x :: rest) =>
      some (r.decrementEntry x.id, .decrementing rest)
    | .decrementing [] => some (r, .broadcasting)
    | _ => none
  | .broadcast =>
    match sweep with
    | .broadcasting => some (r.broadcast, .idle)
    | _ => none

end Step

/-! ## The count -/

namespace OutlierStatsRegistry
variable {K : Type} [DecidableEq K] {r : OutlierStatsRegistry K} {addr : K} {id : Nat} {r' : OutlierStatsRegistry K}
  {f : OutlierChannelState K → OutlierChannelState K}

/-- The count is the number of registered channels that are ejected. -/
def Counted (r : OutlierStatsRegistry K) : Prop := r.ejectedCount = r.ejectedSet.toFinset.card

theorem mem_ejectedSet {a : K} :
    a ∈ r.ejectedSet.toFinset ↔ ∃ id, r.channels.lookup a = some id ∧ r.isEjected id = true := by
  rw [HashSet.mem_toFinset, ejectedSet, HashSet.mem_keys, HashMap.mem_retain]

theorem eq_of_registered {addr' : K} (h : r.channels.lookup addr = some id) (h' : r.channels.lookup addr' = some id) :
    addr = addr' := by
  have hr := r.registered addr id h
  rw [r.registered addr' id h'] at hr
  exact (Option.some.inj hr).symm

theorem Counted.of_same (h : r.Counted) (hc : r'.ejectedCount = r.ejectedCount)
    (hs : r'.ejectedSet.toFinset = r.ejectedSet.toFinset) : r'.Counted := by
  rw [Counted, hc, hs]
  exact h

theorem isEjected_of_modify (hs : r'.states = r.states.modify id f) (id' : Nat) :
    r'.isEjected id' = if id = id' then r.states[id']?.any fun s => (f s).isEjected else r.isEjected id' := by
  unfold isEjected
  rw [hs, List.getElem?_modify]
  split <;> cases r.states[id']? <;> simp

/-- Nothing that the count depends on has changed. -/
structure SameMarks (r r' : OutlierStatsRegistry K) : Prop where
  channels : r'.channels = r.channels
  count : r'.ejectedCount = r.ejectedCount
  marks : ∀ id, r'.isEjected id = r.isEjected id

theorem sameMarks_modify (r : OutlierStatsRegistry K) (id : Nat)
    (hf : ∀ s, (f s).addr = s.addr) (hsame : ∀ s, (f s).isEjected = s.isEjected) : r.SameMarks (r.modify id f hf) := by
  refine ⟨rfl, rfl, fun id' => ?_⟩
  rw [isEjected_of_modify (r := r) rfl]
  split
  · simp only [hsame]
    rfl
  · rfl

theorem Counted.sameMarks (h : r.Counted) (hsame : r.SameMarks r') : r'.Counted := by
  refine h.of_same hsame.count (Finset.ext fun a => ?_)
  rw [mem_ejectedSet, mem_ejectedSet]
  simp only [hsame.marks, hsame.channels]

theorem counted_new : (new : OutlierStatsRegistry K).Counted := by
  rw [Counted, Finset.eq_empty_of_forall_notMem (s := (new : OutlierStatsRegistry K).ejectedSet.toFinset)]
  · rfl
  · intro a
    rw [mem_ejectedSet]
    rintro ⟨id, hid, _⟩
    simp [new] at hid

theorem addChannel_of_registered (h : r.channels.lookup addr = some id) (now : Nat) :
    r.addChannel now addr = (id, r) := by
  simp only [addChannel, h]

theorem lookup_addChannel (now : Nat) (addr addr' : K) : (r.addChannel now addr).2.channels.lookup addr' =
      if addr' = addr then some (r.addChannel now addr).1 else r.channels.lookup addr' := by
  unfold addChannel
  split
  · rename_i id hid
    split
    · rename_i heq
      rw [heq, hid]
    · rfl
  · exact HashMap.lookup_insert_ite ..

theorem Counted.addChannel (h : r.Counted) (now : Nat) (a : K) : (r.addChannel now a).2.Counted := by
  cases hid : r.channels.lookup a with
  | some id =>
    simp only [OutlierStatsRegistry.addChannel, hid]
    exact h
  | none =>
    have hs : (r.addChannel now a).2.ejectedSet.toFinset = r.ejectedSet.toFinset := by
      refine Finset.ext fun a' => ?_
      rw [mem_ejectedSet, mem_ejectedSet]
      simp only [lookup_addChannel]
      simp only [OutlierStatsRegistry.addChannel, hid]
      by_cases ha : a' = a
      · subst ha
        rw [hid]
        -- the new channel is not ejected
        simp [isEjected, OutlierChannelState.new, OutlierChannelState.isEjected]
      · rw [if_neg ha]
        refine exists_congr fun id => and_congr_right fun hid' => ?_
        have hlt : id < r.states.length := by
          have hr := r.registered a' id hid'
          by_contra hge
          rw [List.getElem?_eq_none (not_lt.1 hge)] at hr
          cases hr
        rw [isEjected, isEjected, List.getElem?_append_left hlt]
    refine h.of_same ?_ hs
    simp only [OutlierStatsRegistry.addChannel, hid]

section Marks
variable {r' : OutlierStatsRegistry K} {addr : K} {id : Nat}

theorem Counted.of_erase (h : r.Counted) (hc : r'.ejectedCount = r.ejectedCount - 1)
    (hmem : addr ∈ r.ejectedSet.toFinset)
    (hs : r'.ejectedSet.toFinset = r.ejectedSet.toFinset.erase addr) : r'.Counted := by
  have hp := Finset.card_pos.2 ⟨addr, hmem⟩
  rw [Counted, hc, hs, Finset.card_erase_of_mem hmem, h]
  omega

theorem Counted.of_insert (h : r.Counted) (hc : r'.ejectedCount = r.ejectedCount + 1)
    (hmem : addr ∉ r.ejectedSet.toFinset)
    (hs : r'.ejectedSet.toFinset = insert addr r.ejectedSet.toFinset) : r'.Counted := by
  rw [Counted, hc, hs, Finset.card_insert_of_notMem hmem, h]
  push_cast
  ring

theorem ejectedSet_of_removed (hc : r'.channels = r.channels.erase addr) (hs : r'.states = r.states) :
    r'.ejectedSet.toFinset = r.ejectedSet.toFinset.erase addr := by
  refine Finset.ext fun addr' => ?_
  rw [Finset.mem_erase, mem_ejectedSet, mem_ejectedSet, hc]
  simp only [HashMap.lookup_erase_ite, isEjected, hs]
  by_cases ha : addr' = addr <;> simp [ha]

section
variable (hid : r.channels.lookup addr = some id)
include hid

theorem ejectedSet_of_unmarked (hc : r'.channels = r.channels)
    (hm : ∀ id', r'.isEjected id' = if id = id' then false else r.isEjected id') :
    r'.ejectedSet.toFinset = r.ejectedSet.toFinset.erase addr := by
  refine Finset.ext fun addr' => ?_
  rw [Finset.mem_erase, mem_ejectedSet, mem_ejectedSet, hc]
  constructor
  · rintro ⟨id', hid', he⟩
    rw [hm] at he
    split_ifs at he with hne
    refine ⟨?_, id', hid', he⟩
    rintro rfl
    exact hne (Option.some.inj (hid.symm.trans hid'))
  · rintro ⟨hne, id', hid', he⟩
    refine ⟨id', hid', ?_⟩
    rw [hm, if_neg]
    · exact he
    · rintro rfl
      exact hne (eq_of_registered hid' hid)

theorem ejectedSet_of_marked (hc : r'.channels = r.channels)
    (hm : ∀ id', r'.isEjected id' = if id = id' then true else r.isEjected id') :
    r'.ejectedSet.toFinset = insert addr r.ejectedSet.toFinset := by
  refine Finset.ext fun addr' => ?_
  rw [Finset.mem_insert, mem_ejectedSet, mem_ejectedSet, hc]
  constructor
  · rintro ⟨id', hid', he⟩
    rw [hm] at he
    split_ifs at he with heq
    · subst heq
      exact Or.inl (eq_of_registered hid' hid)
    · exact Or.inr ⟨id', hid', he⟩
  · rintro (rfl | ⟨id', hid', he⟩)
    · exact ⟨id, hid, by rw [hm, if_pos rfl]⟩
    · refine ⟨id', hid', ?_⟩
      rw [hm]
      split
      · rfl
      · exact he

theorem mem_ejectedSet_of_lookup : addr ∈ r.ejectedSet.toFinset ↔ r.isEjected id = true := by
  rw [mem_ejectedSet, hid]
  simp

end

end Marks

theorem lookup_removeChannel (r : OutlierStatsRegistry K) (addr addr' : K) :
    (r.removeChannel addr).channels.lookup addr' = if addr' = addr then none else r.channels.lookup addr' := by
  cases hid : r.channels.lookup addr with
  | none =>
    simp only [removeChannel, hid]
    split
    · rename_i heq
      rw [heq, hid]
    · rfl
  | some id =>
    have hc : (r.removeChannel addr).channels = r.channels.erase addr := by
      simp only [removeChannel, hid]
      split <;> rfl
    rw [hc, HashMap.lookup_erase_ite]

theorem channels_noteUneject (r : OutlierStatsRegistry K) (id : Nat) : (r.noteUneject id).channels = r.channels := by
  unfold noteUneject
  split <;> rfl

theorem Counted.removeChannel (h : r.Counted) (a : K) : (r.removeChannel a).Counted := by
  unfold OutlierStatsRegistry.removeChannel
  cases hid : r.channels.lookup a with
  | none => exact h
  | some id =>
    dsimp only
    split_ifs with he
    · exact h.of_erase rfl ((mem_ejectedSet_of_lookup hid).2 he) (ejectedSet_of_removed rfl rfl)
    · have hmem : a ∉ r.ejectedSet.toFinset := fun hmem => he ((mem_ejectedSet_of_lookup hid).1 hmem)
      refine h.of_same rfl ?_
      rw [← Finset.erase_eq_of_notMem hmem]
      exact ejectedSet_of_removed rfl rfl

theorem Counted.noteUneject (h : r.Counted) (hid : r.channels.lookup addr = some id) : (r.noteUneject id).Counted := by
  unfold OutlierStatsRegistry.noteUneject
  split_ifs with he
  · refine h.of_erase rfl ((mem_ejectedSet_of_lookup hid).2 he) (ejectedSet_of_unmarked hid rfl fun id' => ?_)
    refine (isEjected_of_modify (r := r) rfl id').trans ?_
    split
    · cases r.states[id']? <;> rfl
    · rfl
  · exact h

theorem Counted.tryEjectWithGuard (h : r.Counted) (id now : Nat) : (r.tryEjectWithGuard id now).Counted := by
  unfold OutlierStatsRegistry.tryEjectWithGuard
  cases hs : r.states[id]? with
  | none => exact h
  | some s =>
    dsimp only
    split_ifs with hg
    · obtain ⟨hid, he⟩ := hg
      have hmem : s.addr ∉ r.ejectedSet.toFinset := by
        rw [mem_ejectedSet_of_lookup hid, isEjected, hs]
        exact he
      refine h.of_insert rfl hmem (ejectedSet_of_marked hid rfl fun id' => ?_)
      refine (isEjected_of_modify (r := r) rfl id').trans ?_
      split
      · rename_i heq
        subst heq
        rw [hs]
        exact s.isEjected_eject now
      · rfl
    · exact h

/-! ### Sweeps -/

theorem channels_tryEjectWithGuard (r : OutlierStatsRegistry K) (id now : Nat) :
    (r.tryEjectWithGuard id now).channels = r.channels := by
  unfold tryEjectWithGuard
  split
  · rfl
  · split <;> rfl

end OutlierStatsRegistry

section Stepped
variable {K : Type} [DecidableEq K] {config : OutlierDetectionConfig} {test : SuccessRateTest}
  {r r' : OutlierStatsRegistry K} {sweep sweep' : Sweep} {algorithm : Algorithm} {after : List Algorithm} {x : Sample}
  {started : Nat}

/-- A step ejects the channel that was chosen, or leaves the marks alone and chooses one only if there is room. -/
inductive Sweep.Stepped (config : OutlierDetectionConfig) (r : OutlierStatsRegistry K) :
    Sweep → OutlierStatsRegistry K → Sweep → Prop
  | tried {algorithm : Algorithm} {after : List Algorithm} {samples rest : List Sample} {x : Sample} {started : Nat} :
    Stepped config r (.chosen algorithm after samples x rest started) (r.tryEjectWithGuard x.id started)
      (.ejecting algorithm after samples rest started)
  | quiet {r' : OutlierStatsRegistry K} {sweep sweep' : Sweep} (hsame : r.SameMarks r')
      (hroom : ∀ algorithm after samples x rest started, sweep' = .chosen algorithm after samples x rest started →
        r.canEjectMore samples.length config.maxEjectionPercent = true) : Stepped config r sweep r' sweep'

theorem pass_ne_chosen (ss : List Sample) (now : Nat) (algorithms : List Algorithm) {ss' rest : List Sample} :
    Sweep.pass ss now algorithms ≠ .chosen algorithm after ss' x rest started := by
  induction algorithms with
  | nil => exact nofun
  | cons _ _ ih =>
    unfold Sweep.pass
    split
    · exact nofun
    · exact ih

theorem canEjectMore_of_chosen {algorithm' : Algorithm} {after' : List Algorithm}
    {ss ss' rest rest' : List Sample} {x' : Sample} {started' now : Nat} {d : Fin 100}
    (h : ejectOutlier config test r algorithm after ss x rest started now d =
      .chosen algorithm' after' ss' x' rest' started') :
    r.canEjectMore ss'.length config.maxEjectionPercent = true := by
  unfold ejectOutlier at h
  split at h
  · cases h
  · exact absurd h (pass_ne_chosen ss now after)
  · rename_i hverdict
    cases h
    unfold verdict at hverdict
    split_ifs at hverdict with _ hmore
    exact hmore

theorem Sweep.stepped {now : Nat} {e : SweepEvent K} (hs : sweep.step config test now r e = some (r', sweep')) :
    Stepped config r sweep r' sweep' := by
  have hr : r.SameMarks r := ⟨rfl, rfl, fun _ => rfl⟩
  unfold Sweep.step at hs
  cases e with
  | start =>
    cases sweep <;> cases hs
    exact .quiet hr nofun
  | visit a =>
    dsimp only at hs
    split at hs
    · split at hs <;> cases hs
      exact .quiet (r.sameMarks_modify _ _ fun _ => rfl) nofun
    · cases hs
  | collected =>
    cases sweep <;> cases hs
    exact .quiet hr fun _ _ _ _ _ _ h => absurd h (pass_ne_chosen _ now _)
  | eject d =>
    dsimp only at hs
    split at hs <;> cases hs
    · exact .quiet hr fun _ _ _ _ _ _ h => canEjectMore_of_chosen h
    · exact .quiet hr fun _ _ _ _ _ _ h => absurd h (pass_ne_chosen _ now _)
  | tryEject =>
    cases sweep <;> cases hs
    exact .tried
  | decrement =>
    dsimp only at hs
    split at hs <;> cases hs
    · refine .quiet ?_ nofun
      unfold OutlierStatsRegistry.decrementEntry
      split
      · exact hr
      · exact r.sameMarks_modify _ _ fun _ => rfl
    · exact .quiet hr nofun
  | broadcast =>
    cases sweep <;> cases hs
    refine .quiet ?_ nofun
    unfold OutlierStatsRegistry.broadcast
    split
    · exact hr
    · exact ⟨rfl, rfl, fun _ => rfl⟩

theorem Sweep.Stepped.counted (hs : Stepped config r sweep r' sweep') (h : r.Counted) :
    r'.Counted ∧ r'.channels = r.channels := by
  cases hs with
  | tried => exact ⟨h.tryEjectWithGuard _ _, r.channels_tryEjectWithGuard _ _⟩
  | quiet hsame => exact ⟨h.sameMarks hsame, hsame.channels⟩

theorem Sweep.Stepped.chosen (hs : Stepped config r sweep r' sweep') {ss rest : List Sample}
    (hc : sweep' = .chosen algorithm after ss x rest started) :
    r.SameMarks r' ∧ r.canEjectMore ss.length config.maxEjectionPercent = true := by
  cases hs with
  | tried => cases hc
  | quiet hsame hroom => exact ⟨hsame, hroom _ _ _ _ _ _ hc⟩

end Stepped

/-! ## Any callers -/

section Calls
variable {K : Type} [DecidableEq K] {config : OutlierDetectionConfig} {test : SuccessRateTest}
  {s : OutlierStatsRegistry K × Sweep}

/-- A call of the registry, or a step of a sweep, which may work on an older snapshot. -/
inductive RegistryEvent (K : Type)
  | addChannel (addr : K)
  | removeChannel (addr : K)
  | noteUneject (id : Nat)
  | sweep (event : SweepEvent K)

/-- The registry and its sweep under any calls, each with the time at which it is made. -/
def registryCalls (K : Type) [DecidableEq K] (config : OutlierDetectionConfig) (test : SuccessRateTest) :
    Transition (OutlierStatsRegistry K × Sweep) (Nat × RegistryEvent K) where
  init := (.new, .idle)
  step s call :=
    match call.2 with
    | .addChannel addr => some ((s.1.addChannel call.1 addr).2, s.2)
    | .removeChannel addr => some (s.1.removeChannel addr, s.2)
    | .noteUneject id => some (s.1.noteUneject id, s.2)
    | .sweep event => s.2.step config test call.1 s.1 event

/-- Only registered channels are un-ejected. -/
def UnejectsRegistered (s : OutlierStatsRegistry K × Sweep) (call : Nat × RegistryEvent K) : Prop :=
  ∀ id, call.2 = .noteUneject id → ∃ addr, s.1.channels.lookup addr = some id

/-- The count is that of the ejected channels whoever calls the registry, as long as registered channels are
un-ejected. -/
theorem registry_counted (h : (registryCalls K config test).Reachable UnejectsRegistered s) : s.1.Counted := by
  refine h.inv (P := fun s => s.1.Counted) OutlierStatsRegistry.counted_new ?_
  rintro s ⟨now, call⟩ s' hcounted hregistered hs
  cases call with
  | addChannel addr =>
    cases hs
    exact hcounted.addChannel now addr
  | removeChannel addr =>
    cases hs
    exact hcounted.removeChannel addr
  | noteUneject id =>
    cases hs
    obtain ⟨addr, hid⟩ := hregistered id rfl
    exact hcounted.noteUneject hid
  | sweep event => exact ((Sweep.stepped hs).counted hcounted).1

end Calls

end TonicXds
