import GrpcRust.Lib.Rounding
import GrpcRust.TonicXds.LoadBalancerSets
/-!
# How many channels are ejected, and for how long

Only a sweep ejects channels; between its look at the count and the ejection the count is only lowered.
-/

namespace TonicXds

open Lib

variable {K : Type} [DecidableEq K]

/-! ## What never ejects -/

namespace OutlierStatsRegistry
variable {r r' r'' : OutlierStatsRegistry K} {p : Percentage} {n : Nat}

structure Eases (r r' : OutlierStatsRegistry K) : Prop where
  count : r'.ejectedCount ≤ r.ejectedCount
  marks : ∀ id, r'.isEjected id = true → r.isEjected id = true

theorem Eases.refl (r : OutlierStatsRegistry K) : r.Eases r := ⟨le_rfl, fun _ h => h⟩

theorem Eases.trans (h : r.Eases r') (h' : r'.Eases r'') : r.Eases r'' :=
  ⟨h'.count.trans h.count, fun id hid => h.marks id (h'.marks id hid)⟩

theorem eases_of_modify {id : Nat} {f : OutlierChannelState K → OutlierChannelState K}
    (hc : r'.ejectedCount ≤ r.ejectedCount) (hst : r'.states = r.states.modify id f)
    (hm : ∀ s, (f s).isEjected = true → s.isEjected = true) : r.Eases r' := by
  refine ⟨hc, fun id' hid' => ?_⟩
  rw [isEjected_of_modify hst] at hid'
  split at hid'
  · unfold isEjected
    cases hs : r.states[id']? with
    | none => simp [hs] at hid'
    | some s => exact hm s (by simpa [hs] using hid')
  · exact hid'

theorem SameMarks.eases (h : r.SameMarks r') : r.Eases r' := ⟨h.count.le, fun id hid => (h.marks id).symm.trans hid⟩

theorem eases_addChannel (r : OutlierStatsRegistry K) (now : Nat) (a : K) : r.Eases (r.addChannel now a).2 := by
  unfold addChannel
  split
  · exact .refl r
  · refine ⟨le_rfl, fun id hid => ?_⟩
    simp only [isEjected] at hid ⊢
    rcases lt_or_ge id r.states.length with hlt | hge
    · rwa [List.getElem?_append_left hlt] at hid
    · rw [List.getElem?_append_right hge] at hid
      -- the new channel has no mark
      cases hi : id - r.states.length <;> simp [hi, OutlierChannelState.new, OutlierChannelState.isEjected] at hid

theorem eases_removeChannel (r : OutlierStatsRegistry K) (a : K) : r.Eases (r.removeChannel a) := by
  unfold removeChannel
  split
  · exact .refl r
  · dsimp only
    split
    · exact ⟨sub_le_self _ zero_le_one, fun _ h => h⟩
    · exact ⟨le_rfl, fun _ h => h⟩

theorem eases_noteUneject (r : OutlierStatsRegistry K) (id : Nat) : r.Eases (r.noteUneject id) := by
  unfold noteUneject
  split
  · exact eases_of_modify (sub_le_self _ zero_le_one) rfl fun s hs => by cases hs
  · exact .refl r

theorem canEjectMore_iff : r.canEjectMore n p = true ↔
    n ≠ 0 ∧ (r.ejectedCount = 0 ∨ 100 * r.ejectedCount / n < (p.val : Int)) := by
  unfold canEjectMore
  split
  · simp_all
  · split <;> simp_all

theorem Eases.canEjectMore (h : r.Eases r') (hc : 0 ≤ r'.ejectedCount)
    (hm : r.canEjectMore n p = true) : r'.canEjectMore n p = true := by
  have hle := h.count
  rw [canEjectMore_iff] at hm ⊢
  refine ⟨hm.1, ?_⟩
  by_cases hz : r'.ejectedCount = 0
  · exact .inl hz
  · refine .inr ?_
    have hlt := hm.2.resolve_left (by omega)
    have hd : 100 * r'.ejectedCount / n ≤ 100 * r.ejectedCount / n := Int.ediv_le_ediv (by omega) (by omega)
    omega

theorem Counted.tryEject_le (h : r.Counted) (hm : r.canEjectMore n p = true)
    {id now : Nat} (hc : (r.tryEjectWithGuard id now).ejectedCount = r.ejectedCount + 1) :
    (r.tryEjectWithGuard id now).ejectedSet.toFinset.card ≤ max 1 ((p.val * n) ⌈/⌉ 100) := by
  have hcn : (r.tryEjectWithGuard id now).ejectedCount = _ := h.tryEjectWithGuard id now
  obtain ⟨hn, hroom⟩ := canEjectMore_iff.1 hm
  rw [h] at hc hroom
  rw [hcn] at hc
  have hcr : (r.tryEjectWithGuard id now).ejectedSet.toFinset.card = r.ejectedSet.toFinset.card + 1 := by
    exact_mod_cast hc
  rw [hcr]
  rcases hroom with hz | hlt
  · have : r.ejectedSet.toFinset.card = 0 := by exact_mod_cast hz
    omega
  · have hp : r.ejectedSet.toFinset.card < (p.val * n) ⌈/⌉ 100 :=
      lt_ceilDiv_of_div_lt (by omega) (Nat.pos_of_ne_zero hn) (by exact_mod_cast hlt)
    omega

theorem tryEjectWithGuard_cases (r : OutlierStatsRegistry K) (id now : Nat) : r.tryEjectWithGuard id now = r ∨
    (r.tryEjectWithGuard id now).ejectedCount = r.ejectedCount + 1 := by
  unfold tryEjectWithGuard
  split
  · exact .inl rfl
  · split
    · exact .inr rfl
    · exact .inl rfl

end OutlierStatsRegistry

/-! ## The balancer never ejects -/

namespace Balancing
variable {config : OutlierDetectionConfig} {test : SuccessRateTest} {s s' : Balancing K}

/-- A step that leaves the sweep where it is and ejects nothing. Only discovery changes the members. -/
structure Calm (event : BalancingEvent K) (s s' : Balancing K) : Prop where
  sweep : s'.sweep = s.sweep
  eases : s.registry.Eases s'.registry
  members : s'.lb.members = s.lb.members ∨
    ∃ change, event = .lb (.discover change) ∧ s'.lb.members = change.apply s.lb.members

variable {ev : BalancingEvent K}

theorem calm_of_same (hs : s'.sweep = s.sweep) (hr : s'.registry = s.registry)
    (hm : s'.lb.members = s.lb.members) : Calm ev s s' :=
  ⟨hs, hr ▸ .refl _, .inl hm⟩

theorem calm_discover (s : Balancing K) (m : Bool) (change : Change K) :
    Calm (.lb (.discover change)) s (s.discover m change) := by
  cases change with
  | insert a => exact ⟨rfl, .refl _, .inr ⟨_, rfl, rfl⟩⟩
  | remove a => exact ⟨rfl, s.registry.eases_removeChannel a, .inr ⟨_, rfl, rfl⟩⟩

theorem calm_uneject (s : Balancing K) (d : Discovered) (a : K) (c : EjectedChannel)
    (e : KeyedFutures K EjectedChannel) : Calm ev s (s.uneject d a c e) := by
  unfold uneject
  split
  · exact ⟨rfl, (s.registry.eases_addChannel s.now a).trans (OutlierStatsRegistry.eases_noteUneject _ _), .inl rfl⟩
  · exact ⟨rfl, s.registry.eases_noteUneject c.outlier, .inl rfl⟩

theorem calm_place (s : Balancing K) (d : Discovered) (a : K) (o : Nat) : Calm ev s (s.place config d a o) := by
  unfold place
  split <;> exact calm_of_same rfl rfl rfl

theorem calm_request (s : Balancing K) (d : Discovered) (st : Nat) (r : List K) (a : K) :
    Calm ev s (s.request config d st r a) := by
  unfold request
  dsimp only
  split
  · exact calm_of_same rfl rfl rfl
  · split <;> exact calm_of_same rfl rfl rfl

theorem calm_lbStep {e : LbEvent K} (hs : s.lbStep config e = some s') : Calm (.lb e) s s' := by
  unfold lbStep at hs
  split at hs
  · cases hs
    exact calm_of_same rfl rfl rfl
  · cases hs
    exact calm_discover s _ _
  · cases hs
    exact calm_of_same rfl rfl rfl
  · obtain ⟨ej, -, rfl⟩ := Option.map_eq_some_iff.1 hs
    exact calm_of_same rfl rfl rfl
  · split at hs
    · split_ifs at hs
      cases hs
      exact calm_uneject s _ _ _ _
    · cases hs
  · cases hs
    exact calm_of_same rfl rfl rfl
  · obtain ⟨c, -, rfl⟩ := Option.map_eq_some_iff.1 hs
    exact calm_of_same rfl rfl rfl
  · split at hs <;> cases hs
    exact ⟨rfl, s.registry.eases_addChannel s.now _, .inl rfl⟩
  · cases hs
    exact calm_of_same rfl rfl rfl
  · cases hs
    exact calm_place s _ _ _
  · cases hs
    exact ⟨rfl, s.registry.eases_noteUneject _, .inl rfl⟩
  · split at hs <;> cases hs
    · exact ⟨rfl, ⟨le_rfl, fun _ h => h⟩, .inl rfl⟩
    · exact calm_of_same rfl rfl rfl
  · split_ifs at hs
    cases hs
    exact calm_request s _ _ _ _
  · cases hs
    exact calm_of_same rfl rfl rfl
  · cases hs
    exact calm_of_same rfl rfl rfl
  · cases hs

/-! ## A chosen channel -/

def Room (config : OutlierDetectionConfig) (s : Balancing K) : Prop :=
  ∀ algorithm after samples x rest started, s.sweep = .chosen algorithm after samples x rest started →
    s.registry.canEjectMore samples.length config.maxEjectionPercent = true

theorem Calm.room (h : Calm ev s s') (hi : s'.Inv) (hroom : s.Room config) : s'.Room config := by
  intro a af ss x r st hs
  have hc : 0 ≤ s'.registry.ejectedCount := by
    rw [hi.counted]
    exact Int.natCast_nonneg _
  exact h.eases.canEjectMore hc (hroom _ _ _ _ _ _ (h.sweep.symm.trans hs))

theorem step_cases (hs : s.step config test ev = some s') :
    Calm ev s s' ∨ Sweep.Stepped config s.registry s.sweep s'.registry s'.sweep ∧ s'.lb = s.lb := by
  cases ev with
  | advance t =>
    cases hs
    exact .inl (calm_of_same rfl rfl rfl)
  | sweep e =>
    obtain ⟨⟨r, sweep⟩, hsw, rfl⟩ := Option.map_eq_some_iff.1 hs
    exact .inr ⟨Sweep.stepped hsw, rfl⟩
  | lb e => exact .inl (calm_lbStep hs)
  | call a =>
    simp only [Balancing.step] at hs
    split at hs <;> cases hs
    exact .inl (calm_of_same rfl rfl rfl)
  | outcome i sc =>
    simp only [Balancing.step] at hs
    split at hs <;> cases hs
    refine .inl ⟨rfl, (s.registry.sameMarks_modify _ ?_ fun c => c.isEjected_recordOutcome sc).eases, .inl rfl⟩
    exact fun c => c.addr_recordOutcome sc

theorem Room.step (h : s.Room config) (hi : s'.Inv) (hst : s.step config test ev = some s') : s'.Room config := by
  rcases step_cases hst with hcl | ⟨hs, -⟩
  · exact hcl.room hi h
  · intro a af ss x r st hc
    obtain ⟨hsame, hroom⟩ := hs.chosen hc
    refine hsame.eases.canEjectMore ?_ hroom
    rw [hi.counted]
    exact Int.natCast_nonneg _

theorem room_of_reached (h : (balancing K config test).Reached s) : s.Room config := by
  have hb : s.Inv ∧ s.Room config := by
    refine h.inv (P := fun s => s.Inv ∧ s.Room config) ⟨inv_new, nofun⟩ fun s e s' hs _ hst => ?_
    have hi := hs.1.step hst
    exact ⟨hi, hs.2.step hi hst⟩
  exact hb.2

end Balancing

/-! ## Ejection times -/

namespace OutlierDetectionConfig

variable (c : OutlierDetectionConfig)

theorem ejectionTime_le (m : Nat) : c.ejectionTime m ≤ max c.baseEjectionTime c.maxEjectionTime := min_le_right _ _

theorem ejectionTime_mono {multiplier multiplier' : Nat} (h : multiplier ≤ multiplier') :
    c.ejectionTime multiplier ≤ c.ejectionTime multiplier' := by
  have hm : c.baseEjectionTime * multiplier ≤ c.baseEjectionTime * multiplier' := Nat.mul_le_mul_left _ h
  unfold ejectionTime checkedMul
  by_cases hf : c.baseEjectionTime * multiplier' < durationLimit
  · rw [if_pos hf, if_pos (hm.trans_lt hf)]
    exact min_le_min_right _ hm
  · rw [if_neg hf]
    exact (min_le_right _ _).trans (le_min le_rfl le_rfl)

theorem ejectionTime_eq (hb : c.baseEjectionTime < durationLimit)
    (hm : c.maxEjectionTime < durationLimit) (multiplier : Nat) :
    c.ejectionTime multiplier = min (c.baseEjectionTime * multiplier) (max c.baseEjectionTime c.maxEjectionTime) := by
  unfold ejectionTime checkedMul
  by_cases hf : c.baseEjectionTime * multiplier < durationLimit
  · rw [if_pos hf]
    rfl
  · have hc : max c.baseEjectionTime c.maxEjectionTime ≤ c.baseEjectionTime * multiplier :=
      (max_lt hb hm).le.trans (not_lt.1 hf)
    rw [if_neg hf, min_eq_right hc]
    exact min_self _

end OutlierDetectionConfig

/-- A channel that becomes ejected leaves at most the percentage of the snapshot ejected, or is the only one. -/
theorem ejections_capped (config : OutlierDetectionConfig) (test : SuccessRateTest) :
    (∀ s, (balancing K config test).Reached s → ∀ e s', (balancing K config test).step s e = some s' →
      ∀ id, ¬ s.registry.isEjected id → s'.registry.isEjected id → ∃ a af ss x r st, s.sweep = .chosen a af ss x r st ∧
          s'.registry.ejectedSet.toFinset.card ≤ max 1 ((config.maxEjectionPercent.val * ss.length) ⌈/⌉ 100)) ∧
    (∀ m, config.ejectionTime m ≤ max config.baseEjectionTime config.maxEjectionTime) ∧
    (∀ m m', m ≤ m' → config.ejectionTime m ≤ config.ejectionTime m') ∧
    (config.baseEjectionTime < durationLimit → config.maxEjectionTime < durationLimit → ∀ m, config.ejectionTime m =
        min (config.baseEjectionTime * m) (max config.baseEjectionTime config.maxEjectionTime)) := by
  refine ⟨fun s hs e s' hst id hid hid' => ?_, config.ejectionTime_le, fun _ _ => config.ejectionTime_mono,
    fun hb hm => config.ejectionTime_eq hb hm⟩
  rcases Balancing.step_cases hst with hcl | ⟨hsw, -⟩
  · exact absurd (hcl.eases.marks id hid') hid
  · generalize hc : s.sweep = sweep, s'.registry = r', s'.sweep = sweep' at hsw hid' ⊢
    cases hsw with
    | quiet hsame => exact absurd (hsame.eases.marks id hid') hid
    | @tried a af ss r x st =>
      refine ⟨a, af, ss, x, r, st, rfl, ?_⟩
      rcases s.registry.tryEjectWithGuard_cases x.id st with hsame | hcn
      · rw [hsame] at hid'
        exact absurd hid' hid
      · exact (Balancing.inv_of_reached hs).counted.tryEject_le (Balancing.room_of_reached hs _ _ _ _ _ _ hc) hcn

def halfConfig : OutlierDetectionConfig := { strictConfig with maxEjectionPercent := 50 }

def secondPoll (addr token : Nat) : List (LbEvent Nat) :=
  [.pollReady, .discover (.insert addr), .discovered .pending, .unejected, .connect token, .place, .connected,
    .pollSnapshot, .decide]

def halfRun : List (BalancingEvent Nat) :=
  (firstPoll 7 ++ connectPoll 0 ++ secondPoll 8 1).map .lb ++
    [.call 7, .outcome 0 false, .call 8, .outcome 0 false, .sweep .start, .sweep (.visit 7), .sweep (.visit 8),
      .sweep .collected, .sweep (.eject 0)]

theorem ejections_capped_half : ∃ s s', (balancing Nat halfConfig fun _ _ _ => false).run halfRun = some s ∧
      (balancing Nat halfConfig fun _ _ _ => false).step s (.sweep .tryEject) = some s' ∧
      s'.registry.isEjected 0 = true ∧ s'.registry.ejectedSet.toFinset.card ≤ 1 ∧
      halfConfig.ejectionTime 3 ≤ 300 ∧ halfConfig.ejectionTime 3 ≤ halfConfig.ejectionTime 12 := by
  obtain ⟨s, s', a, af, ss, x, r, st, hr, hs, hn, he, hc, hl⟩ :
      ∃ s s' a af ss x r st, (balancing Nat halfConfig fun _ _ _ => false).run halfRun = some s ∧
        (balancing Nat halfConfig fun _ _ _ => false).step s (.sweep .tryEject) = some s' ∧
        ¬ s.registry.isEjected 0 = true ∧ s'.registry.isEjected 0 = true ∧
        s.sweep = .chosen a af ss x r st ∧ ss.length = 2 :=
    ⟨_, _, _, _, _, _, _, _, rfl, rfl, nofun, rfl, rfl, rfl⟩
  obtain ⟨hcp, ht, hm, -⟩ := ejections_capped (K := Nat) halfConfig fun _ _ _ => false
  obtain ⟨_, _, _, _, _, _, hc', hcr⟩ := hcp s (Transition.reached_of_run hr) _ s' hs 0 hn he
  cases hc.symm.trans hc'
  rw [hl] at hcr
  exact ⟨s, s', hr, hs, he, hcr, ht 3, hm 3 12 (by decide)⟩

end TonicXds
