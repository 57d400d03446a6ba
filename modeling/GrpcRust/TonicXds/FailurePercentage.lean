import GrpcRust.TonicXds.Housekeeping
/-!
# What the failure-percentage algorithm ejects

The algorithm divides before it compares, and counts channels without requests towards the minimum of hosts.
-/

namespace TonicXds

open Lib List

variable {K : Type} [DecidableEq K]

/-! ## The marks of a sweep -/

namespace OutlierStatsRegistry
variable {c : OutlierDetectionConfig} {test : SuccessRateTest} {draws : Algorithm → Nat → Fin 100}
  {now : Algorithm → Nat} {id : Nat} {r r' : OutlierStatsRegistry K} {ss rest b : List Sample} {al : Algorithm}

theorem isEjected_tryEjectWithGuard_of_ne {id' : Nat} (h : id ≠ id') (now : Nat) :
    (r.tryEjectWithGuard id now).isEjected id' = r.isEjected id' := by
  unfold tryEjectWithGuard
  split
  · rfl
  · split
    · exact (isEjected_of_modify (r := r) rfl id').trans (if_neg h)
    · rfl

theorem isEjected_tryEjectWithGuard {a : K} (h : r.channels.lookup a = some id) (now : Nat) :
    (r.tryEjectWithGuard id now).isEjected id = true := by
  obtain ⟨s, hs, rfl⟩ := exists_state h
  simp only [tryEjectWithGuard, hs]
  split_ifs with hg
  · refine (isEjected_of_modify (r := r) rfl id).trans ?_
    rw [if_pos rfl, hs]
    exact s.isEjected_eject now
  · have he : s.isEjected = true := by simpa [h] using hg
    rw [isEjected, hs]
    exact he

/-- Only the marks of `ids` may have changed. -/
structure Marks (ids : List Nat) (r r' : OutlierStatsRegistry K) : Prop where
  channels : r'.channels = r.channels
  same : ∀ id ∉ ids, r'.isEjected id = r.isEjected id

theorem Marks.refl (ids : List Nat) (r : OutlierStatsRegistry K) : r.Marks ids r := ⟨rfl, fun _ _ => rfl⟩

theorem Marks.trans {ids ids' : List Nat} {r'' : OutlierStatsRegistry K} (h : r.Marks ids r') (h' : r'.Marks ids' r'') :
    r.Marks (ids ++ ids') r'' := by
  refine ⟨h'.channels.trans h.channels, fun id hid => ?_⟩
  rw [mem_append, not_or] at hid
  exact (h'.same id hid.2).trans (h.same id hid.1)

theorem marks_ejectEntry {x : Sample} (h : r.ejectEntry c test draws now al ss x = some r') : r.Marks [x.id] r' := by
  unfold ejectEntry at h
  split at h <;> cases h
  · exact .refl _ _
  · refine ⟨r.channels_tryEjectWithGuard x.id (now al), fun id hid => ?_⟩
    exact isEjected_tryEjectWithGuard_of_ne (fun heq => hid (by simp [heq])) (now al)

theorem marks_before (h : b.foldlM (ejectEntry c test draws now al ss) r = some r') : r.Marks (b.map (·.id)) r' := by
  induction b generalizing r with
  | nil =>
    cases h
    exact .refl _ _
  | cons x b ih =>
    rw [foldlM_cons] at h
    obtain ⟨r₁, he, hrest⟩ := Option.bind_eq_some_iff.1 h
    exact (marks_ejectEntry he).trans (ih hrest)

theorem marks_ejectOutliers (rest : List Sample) (r : OutlierStatsRegistry K) :
    r.Marks (rest.map (·.id)) (r.ejectOutliers c test draws now al ss rest) := by
  induction rest generalizing r with
  | nil => exact .refl _ _
  | cons x rest ih =>
    unfold ejectOutliers
    cases he : r.ejectEntry c test draws now al ss x with
    | none => exact .refl _ _
    | some r' => exact (marks_ejectEntry he).trans (ih r')

theorem ejectOutliers_append (h : b.foldlM (ejectEntry c test draws now al ss) r = some r') :
    r.ejectOutliers c test draws now al ss (b ++ rest) = r'.ejectOutliers c test draws now al ss rest := by
  induction b generalizing r with
  | nil =>
    cases h
    rfl
  | cons x b ih =>
    rw [foldlM_cons] at h
    obtain ⟨r₁, he, hrest⟩ := Option.bind_eq_some_iff.1 h
    rw [cons_append, ejectOutliers, he]
    exact ih hrest

theorem channels_runAlgorithm (r : OutlierStatsRegistry K) :
    (r.runAlgorithm c test draws now ss al).channels = r.channels := by
  unfold runAlgorithm
  split
  · exact (marks_ejectOutliers ss r).channels
  · rfl

theorem channels_algorithms (al : List Algorithm) (r : OutlierStatsRegistry K) :
    (al.foldl (runAlgorithm c test draws now ss) r).channels = r.channels := by
  induction al generalizing r with
  | nil => rfl
  | cons a al ih => exact (ih _).trans r.channels_runAlgorithm

theorem isEjected_decrement (ss : List Sample) (r : OutlierStatsRegistry K) (id : Nat) :
    (ss.foldl (fun r x => r.decrementEntry x.id) r).isEjected id = r.isEjected id := by
  induction ss generalizing r with
  | nil => rfl
  | cons x ss ih =>
    rw [foldl_cons, ih, decrementEntry]
    split
    · rfl
    · rw [isEjected_of_modify (r := r) rfl]
      split <;> rfl

theorem isEjected_broadcast (r : OutlierStatsRegistry K) (id : Nat) : r.broadcast.isEjected id = r.isEjected id := by
  unfold broadcast
  split <;> rfl

theorem foldl_snapshotEntry {ids : List Nat} (h : ∀ id ∈ ids, ∃ a, r.channels.lookup a = some id) :
    (ids.foldl snapshotEntry (r, ss)).1.channels = r.channels ∧
      (ids.foldl snapshotEntry (r, ss)).2.map (·.id) = ss.map (·.id) ++ ids := by
  induction ids generalizing r ss with
  | nil => simp
  | cons id ids ih =>
    obtain ⟨a, hid⟩ := h id mem_cons_self
    obtain ⟨s, hs, -⟩ := exists_state hid
    rw [foldl_cons, snapshotEntry_of_some hs]
    have hrest : ∀ id' ∈ ids, ∃ a, (r.modify id (·.reset) fun _ => rfl).channels.lookup a = some id' :=
      fun id' hid' => h id' (mem_cons_of_mem _ hid')
    exact ⟨(ih hrest).1, (ih hrest).2.trans (by simp)⟩

theorem channels_snapshots (order : IterOrder) (r : OutlierStatsRegistry K) :
    (r.snapshots order).1.channels = r.channels ∧ (r.snapshots order).2.map (·.id) = r.ids order :=
  foldl_snapshotEntry fun _ => registered_of_mem_ids order

end OutlierStatsRegistry

/-! ## In exact numbers -/

namespace Sample

def requests (x : Sample) : Nat := x.success.toNat + x.failure.toNat

/-- `s + f` in 64 bits. -/
def wrappedRequests (x : Sample) : Nat := x.requests % 2 ^ 64

/-- `100 * f` in 64 bits. -/
def wrappedFailures (x : Sample) : Nat := 100 * x.failure.toNat % 2 ^ 64

def Fits (x : Sample) : Prop := x.requests < 2 ^ 64 ∧ 100 * x.failure.toNat < 2 ^ 64

instance (x : Sample) : Decidable x.Fits := inferInstanceAs (Decidable (_ ∧ _))

variable {x : Sample}

theorem toNat_total : x.total.toNat = x.wrappedRequests := UInt64.toNat_add _ _

theorem toNat_quotient : (100 * x.failure / x.total).toNat = x.wrappedFailures / x.wrappedRequests := by
  rw [UInt64.toNat_div, toNat_total, UInt64.toNat_mul]
  rfl

theorem Fits.wrappedRequests (h : x.Fits) : x.wrappedRequests = x.requests := Nat.mod_eq_of_lt h.1

theorem Fits.wrappedFailures (h : x.Fits) : x.wrappedFailures = 100 * x.failure.toNat := Nat.mod_eq_of_lt h.2

end Sample

namespace FailurePercentageConfig
variable {fp : FailurePercentageConfig} {ss : List Sample} {x : Sample}

def busy (fp : FailurePercentageConfig) (x : Sample) : Bool := 0 < x.requests ∧ fp.requestVolume ≤ x.requests

/-- What is to be ejected: more than `threshold` percent of the requests of a busy channel have failed. -/
def shouldEject (fp : FailurePercentageConfig) (samples : List Sample) (x : Sample) : Bool :=
  fp.busy x ∧ fp.minimumHosts ≤ samples.countP fp.busy ∧ fp.threshold.val * x.requests < 100 * x.failure.toNat

theorem shouldEject_iff : fp.shouldEject ss x = true ↔ (0 < x.requests ∧ fp.requestVolume ≤ x.requests) ∧
    fp.minimumHosts ≤ (ss.countP fun y => decide (0 < y.requests ∧ fp.requestVolume ≤ y.requests)) ∧
    fp.threshold.val * x.requests < 100 * x.failure.toNat := by
  simp only [shouldEject, busy, decide_eq_true_eq]
  rfl

/-- What the code ejects: its tests of a channel that is not ejected yet, below the cap. -/
def ejects (fp : FailurePercentageConfig) (test : SuccessRateTest) (samples : List Sample) (x : Sample) : Bool :=
  x.total ≠ 0 ∧ fp.requestVolume ≤ x.total.toNat ∧ (Algorithm.failurePercentage fp).runs samples ∧
    (Algorithm.failurePercentage fp).isOutlier test samples x

/-- Above the threshold, but not by a whole percent. -/
def RoundedAway (fp : FailurePercentageConfig) (x : Sample) : Prop :=
  fp.threshold.val * x.requests < 100 * x.failure.toNat ∧ 100 * x.failure.toNat < (fp.threshold.val + 1) * x.requests

/-- Only channels without requests make up the minimum. -/
def IdleHosts (fp : FailurePercentageConfig) (samples : List Sample) : Prop :=
  samples.countP fp.busy < fp.minimumHosts ∧
    fp.minimumHosts ≤ samples.countP fun y => decide (fp.requestVolume ≤ y.requests)

/-- The wrapped numbers reach the minimum of hosts and the next whole percentage. -/
def WrappedAbove (fp : FailurePercentageConfig) (samples : List Sample) (x : Sample) : Prop :=
  (0 < x.wrappedRequests ∧ fp.requestVolume ≤ x.wrappedRequests) ∧
    fp.minimumHosts ≤ samples.countP (fun y => decide (fp.requestVolume ≤ y.wrappedRequests)) ∧
    (fp.threshold.val + 1) * x.wrappedRequests ≤ x.wrappedFailures

/-- Rounding and channels without requests make no difference. Where counts overflow, the wrapped numbers are above the
threshold exactly if the real ones are. -/
def Accurate (fp : FailurePercentageConfig) (samples : List Sample) (x : Sample) : Prop :=
  if (∀ y ∈ samples, y.Fits) then
    fp.busy x → ¬ (fp.RoundedAway x ∧ fp.minimumHosts ≤ samples.countP fp.busy) ∧
      ¬ (fp.IdleHosts samples ∧ (fp.threshold.val + 1) * x.requests ≤ 100 * x.failure.toNat)
  else fp.WrappedAbove samples x ↔ fp.shouldEject samples x

theorem ejects_iff (t : SuccessRateTest) : fp.ejects t ss x = true ↔ fp.WrappedAbove ss x := by
  have hr : (Algorithm.failurePercentage fp).runs ss = true ↔
      fp.minimumHosts ≤ ss.countP fun y => decide (fp.requestVolume ≤ y.wrappedRequests) := by
    simp only [Algorithm.runs, ← countP_eq_length_filter, Sample.toNat_total, decide_eq_true_eq, ge_iff_le]
  have hz : x.total ≠ 0 ↔ 0 < x.wrappedRequests := by
    rw [← Sample.toNat_total, Nat.pos_iff_ne_zero, ne_eq, ne_eq, ← UInt64.toNat_inj]
    rfl
  simp only [ejects, WrappedAbove, hr, hz, Algorithm.isOutlier, Sample.toNat_total, Sample.toNat_quotient,
    decide_eq_true_eq, gt_iff_lt]
  constructor
  · rintro ⟨hp, hv, hh, ho⟩
    exact ⟨⟨hp, hv⟩, hh, (Nat.le_div_iff_mul_le hp).1 ho⟩
  · rintro ⟨⟨hp, hv⟩, hh, ho⟩
    exact ⟨hp, hv, hh, (Nat.le_div_iff_mul_le hp).2 ho⟩

theorem wrappedAbove_of_fits (hf : ∀ y ∈ ss, y.Fits) (hx : x.Fits) :
    fp.WrappedAbove ss x ↔ fp.busy x = true ∧
      fp.minimumHosts ≤ (ss.countP fun y => decide (fp.requestVolume ≤ y.requests)) ∧
      (fp.threshold.val + 1) * x.requests ≤ 100 * x.failure.toNat := by
  have hc : ss.countP (fun y => decide (fp.requestVolume ≤ y.wrappedRequests)) =
      ss.countP fun y => decide (fp.requestVolume ≤ y.requests) :=
    countP_congr fun y hy => by rw [(hf y hy).wrappedRequests]
  simp only [WrappedAbove, hc, hx.wrappedRequests, hx.wrappedFailures, busy, decide_eq_true_eq]

theorem accurate_iff (hx : x ∈ ss) :
    fp.Accurate ss x ↔ (fp.WrappedAbove ss x ↔ fp.shouldEject ss x = true) := by
  unfold Accurate
  split
  · rename_i hf
    rw [wrappedAbove_of_fits hf (hf x hx)]
    have hb : ss.countP fp.busy ≤ ss.countP fun y => decide (fp.requestVolume ≤ y.requests) :=
      countP_mono_left fun y _ hy => by simp_all [busy]
    by_cases hx' : fp.busy x = true
    · have hp : 0 < x.requests := by simp_all [busy]
      have hs : fp.threshold.val * x.requests < (fp.threshold.val + 1) * x.requests :=
        Nat.mul_lt_mul_of_pos_right (Nat.lt_succ_self _) hp
      simp only [hx', shouldEject, RoundedAway, IdleHosts, true_and, decide_eq_true_eq, forall_const]
      omega
    · simp [hx', shouldEject]
  · rfl

end FailurePercentageConfig

/-! ## A whole sweep -/

namespace OutlierStatsRegistry
variable {c : OutlierDetectionConfig} {test : SuccessRateTest} {draws : Algorithm → Nat → Fin 100}
  {now : Algorithm → Nat} {r : OutlierStatsRegistry K} {ss : List Sample} {al : Algorithm} {x : Sample}
  {fp : FailurePercentageConfig}

theorem isEjected_ejectEntry {a : K} (hid : r.channels.lookup a = some x.id) (hn : r.isEjected x.id = false)
    (hm : r.canEjectMore ss.length c.maxEjectionPercent = true) (hr : roll al.enforcing (draws al x.id) = true) :
    ∃ r', r.ejectEntry c test draws now al ss x = some r' ∧ (r'.isEjected x.id = true ↔
      x.total ≠ 0 ∧ al.requestVolume ≤ x.total.toNat ∧ al.isOutlier test ss x = true) := by
  simp only [ejectEntry, verdict, hn, hm, hr, not_true_eq_false, if_false, Bool.false_eq_true, or_false]
  by_cases hi : x.total = 0 ∨ x.total.toNat < al.requestVolume
  · refine ⟨r, by rw [if_pos hi], ?_⟩
    simp only [hn, Bool.false_eq_true, false_iff]
    rintro ⟨hne, hle, -⟩
    exact hi.elim hne fun hlt => by omega
  · rw [if_neg hi]
    rw [not_or, not_lt] at hi
    by_cases ho : al.isOutlier test ss x = true
    · refine ⟨r.tryEjectWithGuard x.id (now al), by simp [ho], ?_⟩
      simp [isEjected_tryEjectWithGuard hid, hi.1, hi.2, ho]
    · refine ⟨r, by simp [ho], ?_⟩
      simp [hn, ho]

def afterSuccessRate (config : OutlierDetectionConfig) (test : SuccessRateTest) (order : IterOrder)
    (draws : Algorithm → Nat → Fin 100) (now : Algorithm → Nat) (r : OutlierStatsRegistry K) : OutlierStatsRegistry K :=
  (config.successRate.map .successRate).toList.foldl (runAlgorithm config test draws now (r.snapshots order).2)
    (r.snapshots order).1

theorem isEjected_runHousekeeping (hfp : c.failurePercentage = some fp)
    (o : IterOrder) (id : Nat) : (r.runHousekeeping c test o draws now).isEjected id =
      ((r.afterSuccessRate c test o draws now).runAlgorithm c test draws now (r.snapshots o).2
        (.failurePercentage fp)).isEjected id := by
  simp only [runHousekeeping, isEjected_broadcast, isEjected_decrement, OutlierDetectionConfig.algorithms, hfp,
    Option.map_some, Option.toList_some, foldl_append, foldl_cons, foldl_nil]
  rfl

theorem isEjected_iff_ejects (hfp : c.failurePercentage = some fp) (o : IterOrder)
    {b rest : List Sample} (hs : (r.snapshots o).2 = b ++ x :: rest) {rc : OutlierStatsRegistry K}
    (hrc : b.foldlM (ejectEntry c test draws now (.failurePercentage fp) (r.snapshots o).2)
      (r.afterSuccessRate c test o draws now) = some rc)
    (hnw : rc.isEjected x.id = false) (hmr : rc.canEjectMore (r.snapshots o).2.length c.maxEjectionPercent = true)
    (hrl : roll (Algorithm.failurePercentage fp).enforcing (draws (.failurePercentage fp) x.id) = true) :
    (r.runHousekeeping c test o draws now).isEjected x.id = true ↔ fp.ejects test (r.snapshots o).2 x = true := by
  have hi := (r.channels_snapshots o).2
  have hn := r.nodup_ids o
  rw [← hi, hs, map_append, map_cons, nodup_append, nodup_cons] at hn
  obtain ⟨-, ⟨hrest, -⟩, hb⟩ := hn
  have hm := marks_before hrc
  have hc : rc.channels = r.channels := hm.channels.trans ((channels_algorithms _ _).trans (r.channels_snapshots o).1)
  obtain ⟨a, ha⟩ : ∃ a, r.channels.lookup a = some x.id := by
    refine registered_of_mem_ids o ?_
    rw [← hi, hs]
    simp
  rw [isEjected_runHousekeeping hfp, runAlgorithm]
  by_cases hr : (Algorithm.failurePercentage fp).runs (r.snapshots o).2 = true
  · obtain ⟨e, he, hif⟩ := isEjected_ejectEntry (hc.symm ▸ ha) hnw hmr hrl
    rw [if_pos hr]
    have hsp : (r.afterSuccessRate c test o draws now).ejectOutliers c test draws now
        (.failurePercentage fp) (r.snapshots o).2 (b ++ x :: rest) = e.ejectOutliers c test draws now
        (.failurePercentage fp) (r.snapshots o).2 rest := by
      rw [ejectOutliers_append hrc, ejectOutliers, he]
    nth_rewrite 2 [hs]
    rw [hsp, (marks_ejectOutliers rest e).same x.id hrest, hif]
    simp [FailurePercentageConfig.ejects, hr, Algorithm.requestVolume]
  · -- too few hosts: the mark is the one the sweep had before
    have hb' : x.id ∉ b.map (·.id) := fun hmem => hb _ hmem _ mem_cons_self rfl
    rw [if_neg hr, ← hm.same x.id hb', hnw]
    simp [FailurePercentageConfig.ejects, hr]

end OutlierStatsRegistry

/-- A channel considered before the cap is ejected as the exact percentage asks, unless rounding or idle channels
matter. -/
theorem failure_percentage_exact (config : OutlierDetectionConfig) (fp : FailurePercentageConfig)
    (hfp : config.failurePercentage = some fp) (test : SuccessRateTest) (order : IterOrder)
    (draws : Algorithm → Nat → Fin 100) (now : Algorithm → Nat) (r : OutlierStatsRegistry K)
    (before rest : List Sample) (x : Sample)
    (hsamples : (r.snapshots order).2 = before ++ x :: rest) (reached : OutlierStatsRegistry K)
    (hreached : before.foldlM
      (OutlierStatsRegistry.ejectEntry config test draws now (.failurePercentage fp) (r.snapshots order).2)
      (r.afterSuccessRate config test order draws now) = some reached)
    (hnew : reached.isEjected x.id = false)
    (hmore : reached.canEjectMore (r.snapshots order).2.length config.maxEjectionPercent = true)
    (hroll : roll fp.enforcingFailurePercentage (draws (.failurePercentage fp) x.id) = true) :
    ((r.runHousekeeping config test order draws now).isEjected x.id = true ↔
      (0 < x.requests ∧ fp.requestVolume ≤ x.requests) ∧
      fp.minimumHosts ≤ ((r.snapshots order).2.countP fun y =>
        decide (0 < y.requests ∧ fp.requestVolume ≤ y.requests)) ∧
      fp.threshold.val * x.requests < 100 * x.failure.toNat) ↔
    fp.Accurate (r.snapshots order).2 x := by
  have hx : x ∈ (r.snapshots order).2 := by
    rw [hsamples]
    simp
  rw [OutlierStatsRegistry.isEjected_iff_ejects hfp order hsamples hreached hnew hmore hroll,
    FailurePercentageConfig.ejects_iff, FailurePercentageConfig.accurate_iff hx,
    FailurePercentageConfig.shouldEject_iff]

def channelsWith (counts : List (UInt64 × UInt64)) : OutlierStatsRegistry Nat :=
  counts.foldl (fun r c =>
    (r.addChannel 0 r.states.length).2.modify r.states.length (fun s => { s with success := c.1, failure := c.2 })
      fun _ => rfl) .new

def thirdConfig : FailurePercentageConfig :=
  { threshold := 33, enforcingFailurePercentage := 100, minimumHosts := 1, requestVolume := 1 }

def thirdOnly : OutlierDetectionConfig :=
  { baseEjectionTime := 30, maxEjectionTime := 300, maxEjectionPercent := 100, successRate := none,
    failurePercentage := some thirdConfig }

/-- Half of the requests have failed. -/
theorem failure_percentage_exact_half : thirdConfig.Accurate [⟨0, 1, 1⟩] ⟨0, 1, 1⟩ ∧
    ((channelsWith [(1, 1)]).runHousekeeping thirdOnly (fun _ _ _ => false) .default
      (fun _ _ => 0) fun _ => 1).isEjected 0 = true := by
  have ha : thirdConfig.Accurate [⟨0, 1, 1⟩] ⟨0, 1, 1⟩ := by
    rw [FailurePercentageConfig.Accurate, if_pos (by decide)]
    exact fun _ => ⟨fun h => absurd h.1.2 (by decide), fun h => absurd h.1.1 (by decide)⟩
  refine ⟨ha, ?_⟩
  refine ((failure_percentage_exact thirdOnly thirdConfig rfl (fun _ _ _ => false) .default (fun _ _ => 0)
    (fun _ => 1) (channelsWith [(1, 1)]) [] [] ⟨0, 1, 1⟩ rfl _ rfl rfl rfl rfl).2 ha).2 ⟨?_, ?_, ?_⟩
  all_goals decide

/-- One of three requests has failed, which is more than 33 percent. -/
theorem one_third_not_ejected :
    let r := channelsWith [(2, 1)]
    let x : Sample := ⟨0, 2, 1⟩
    let draws : Algorithm → Nat → Fin 100 := fun _ _ => 0
    let now : Algorithm → Nat := fun _ => 1
    (r.snapshots .default).2 = [x] ∧ r.isEjected 0 = false ∧
      (r.afterSuccessRate thirdOnly (fun _ _ _ => false) .default draws now).canEjectMore 1
        thirdOnly.maxEjectionPercent = true ∧
      roll thirdConfig.enforcingFailurePercentage 0 = true ∧
      (r.runHousekeeping thirdOnly (fun _ _ _ => false) .default draws now).isEjected 0 = false ∧
      0 < x.requests ∧ thirdConfig.requestVolume ≤ x.requests ∧ thirdConfig.minimumHosts ≤ [x].countP thirdConfig.busy ∧
      thirdConfig.threshold.val * x.requests < 100 * x.failure.toNat := by
  refine ⟨rfl, rfl, rfl, rfl, rfl, ?_, ?_, ?_, ?_⟩
  all_goals decide

end TonicXds
