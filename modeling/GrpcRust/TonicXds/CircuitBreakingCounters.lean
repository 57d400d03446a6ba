import GrpcRust.TonicXds.CircuitBreaking
/-!
# The counters of circuit breaking

Between two calls the map has exactly the counters in use. A call may leave one key without a use on its way
(`exempt`).
-/

namespace TonicXds

open Lib List HashMap InFlightCounter

variable {c : InFlightCounter}

theorem InFlightCounter.eq_default_of_isUnused (h : c.isUnused = true) : c = default := by
  rw [isUnused, Bool.and_eq_true, beq_iff_eq, beq_iff_eq] at h
  cases c
  cases h.1
  cases h.2
  rfl

theorem InFlightCounter.tryAcquire_some {c v : InFlightCounter} {l : UInt32} (h : c.tryAcquire l = some v) :
    c.inFlight.toNat < l.toNat ∧ v.inFlight.toNat = c.inFlight.toNat + 1 ∧ v.activeRefs = c.activeRefs := by
  unfold tryAcquire at h
  split_ifs at h with hl
  cases h
  have hlt : c.inFlight.toNat < l.toNat := Nat.lt_of_not_le hl
  refine ⟨hlt, ?_, rfl⟩
  rw [UInt32.toNat_add]
  exact Nat.mod_eq_of_lt (Nat.lt_of_le_of_lt hlt l.toNat_lt)

theorem InFlightCounter.release_ok (h : 0 < c.inFlight.toNat) :
    ∃ v, c.release = .ok v ∧ v.inFlight.toNat + 1 = c.inFlight.toNat ∧ v.activeRefs = c.activeRefs := by
  refine ⟨_, if_pos h, ?_, rfl⟩
  have ho : (1 : UInt32) ≤ c.inFlight := h
  rw [UInt32.toNat_sub_of_le _ _ ho]
  exact Nat.sub_add_cancel h

namespace CircuitBreakers
variable {w w' : CircuitBreakers} {arc : ConfigArc} {key : CounterKey} {s address : Nat}
  {e : Option CounterKey} {cell : Nat → InFlightCounter} {states : List ClusterCircuitBreakerState}

def inUse (w : CircuitBreakers) : List ConfigArc := w.configured ++ w.permits

def outstanding (w : CircuitBreakers) (address : Nat) : Nat := w.permits.countP (·.config.counter = address)

theorem countP_cons (arc : ConfigArc) (arcs : List ConfigArc) (a : Nat) : (arc :: arcs).countP (·.config.counter = a) =
      arcs.countP (·.config.counter = a) + if arc.config.counter = a then 1 else 0 := by
  rw [List.countP_cons]
  simp only [decide_eq_true_eq]

/-- Counts are those of configurations and permits; a counter in the map is in use, `exempt` apart. -/
structure Inv (exempt : Option CounterKey) (w : CircuitBreakers) : Prop where
  active : ∀ address, (w.cell address).activeRefs = w.configured.countP (·.config.counter = address)
  slots : ∀ address, (w.cell address).inFlight.toNat = w.outstanding address
  registered : ∀ arc ∈ w.inUse, w.counters.lookup arc.config.counterKey = some arc.config.counter
  used : ∀ key address, w.counters.lookup key = some address →
    exempt = some key ∨ ∃ arc ∈ w.inUse, arc.config.counter = address
  allocated : ∀ key address, w.counters.lookup key = some address → address < w.nextCounter
  oneKey : ∀ key key' address, w.counters.lookup key = some address → w.counters.lookup key' = some address → key = key'
  known : ∀ r ∈ w.registries, ∀ cluster state, r.configs.lookup cluster = some state → state < w.states.length

theorem Inv.holding (h : Inv e w) (arcs : List ConfigArc) (handles : List Nat) : Inv e { w with arcs, handles } :=
  ⟨h.active, h.slots, h.registered, h.used, h.allocated, h.oneKey, h.known⟩

/-- Between two calls nothing is borrowed. -/
structure Settled (w : CircuitBreakers) : Prop extends Inv none w where
  noArcs : w.arcs = []
  noHandles : w.handles = []

theorem settled_init : init.Settled where
  active _ := rfl
  slots _ := rfl
  registered _ ha := absurd ha not_mem_nil
  used _ _ h := by cases h
  allocated _ _ h := by cases h
  oneKey _ _ _ h := by cases h
  known _ hr := absurd hr not_mem_nil
  noArcs := rfl
  noHandles := rfl

theorem filterMap_middle_perm (ss l : List ClusterCircuitBreakerState) (st : ClusterCircuitBreakerState) :
    ((ss ++ st :: l).filterMap (·.config)).Perm (st.config.toList ++ (ss ++ l).filterMap (·.config)) := by
  have hm : (ss ++ st :: l).Perm (st :: (ss ++ l)) := perm_middle
  have hp := hm.filterMap (·.config)
  rw [filterMap_cons] at hp
  cases hc : st.config with
  | none =>
    rw [hc] at hp
    exact hp
  | some arc =>
    rw [hc] at hp
    exact hp

theorem configured_swapConfig (hs : s < w.states.length) (config : Option ConfigArc) :
    ∃ os, w.configured.Perm ((w.currentConfig s).toList ++ os) ∧
      (w.swapConfig s config).2.configured.Perm (config.toList ++ os) := by
  refine ⟨(w.states.take s ++ w.states.drop (s + 1)).filterMap (·.config), ?_, ?_⟩
  · have hc : w.currentConfig s = w.states[s].config := by
      rw [currentConfig, getElem?_eq_getElem hs]
      rfl
    have hp := filterMap_middle_perm (w.states.take s) (w.states.drop (s + 1)) w.states[s]
    rw [← hc, ← drop_eq_getElem_cons hs, take_append_drop] at hp
    exact hp
  · have hp := filterMap_middle_perm (w.states.take s) (w.states.drop (s + 1)) { w.states[s] with config }
    rw [configured, swapConfig]
    rw [modify_eq_take_cons_drop hs]
    exact hp

/-! ## The map of counters -/

theorem Inv.inUse_of_not_isUnused (h : Inv e w) (hu : (w.cell address).isUnused = false) :
    ∃ arc ∈ w.inUse, arc.config.counter = address := by
  by_contra hnone
  push Not at hnone
  have hac : (w.cell address).activeRefs = 0 := by
    rw [h.active, countP_eq_zero]
    intro arc ha
    simpa using hnone arc (mem_append_left _ ha)
  have hs : (w.cell address).inFlight.toNat = 0 := by
    rw [h.slots, outstanding, countP_eq_zero]
    intro arc ha
    simpa using hnone arc (mem_append_right _ ha)
  rw [isUnused, hac, show (w.cell address).inFlight = 0 from UInt32.toNat_inj.1 hs] at hu
  cases hu

theorem Inv.not_inUse (h : Inv e w) (hu : (w.cell address).isUnused = true) :
    ∀ arc ∈ w.inUse, arc.config.counter ≠ address := by
  rw [isUnused, Bool.and_eq_true, beq_iff_eq, beq_iff_eq] at hu
  have hac := h.active address
  have hs := h.slots address
  rw [hu.2] at hac
  rw [hu.1] at hs
  intro arc ha hc
  rcases List.mem_append.1 ha with ha | ha
  · exact List.countP_eq_zero.1 hac.symm arc ha (by simpa using hc)
  · exact List.countP_eq_zero.1 hs.symm arc ha (by simpa using hc)

theorem Inv.settle (h : Inv (some key) w)
    (hu : ∀ a, w.counters.lookup key = some a → ∃ arc ∈ w.inUse, arc.config.counter = a) : Inv none w := by
  refine { h with used := fun key' a hl => Or.inr ?_ }
  rcases h.used key' a hl with hk | hin
  · cases hk
    exact hu a hl
  · exact hin

theorem Inv.sameConfigs (h : Inv e w)
    {registries : List ClusterCircuitBreakerRegistry} (hc : states.filterMap (·.config) = w.configured)
    (hk : ∀ r ∈ registries, ∀ c s, r.configs.lookup c = some s → s < states.length)
    (breakers : List Nat) : Inv e { w with states, registries, breakers } := by
  have hsame : CircuitBreakers.configured { w with states, registries, breakers } = w.configured := hc
  refine ⟨?_, h.slots, ?_, ?_, h.allocated, h.oneKey, hk⟩
  · rw [hsame]
    exact h.active
  · rw [inUse, hsame]
    exact h.registered
  · rw [inUse, hsame]
    exact h.used

theorem known_modify {rs : List ClusterCircuitBreakerRegistry} {n registry : Nat}
    {f : ClusterCircuitBreakerRegistry → ClusterCircuitBreakerRegistry}
    (h : ∀ r ∈ rs, ∀ c s, r.configs.lookup c = some s → s < n)
    (hf : ∀ r ∈ rs, ∀ c s, (f r).configs.lookup c = some s → s < n) :
    ∀ r ∈ rs.modify registry f, ∀ c s, r.configs.lookup c = some s → s < n := by
  intro r hr
  obtain ⟨i, hi⟩ := List.mem_iff_getElem?.1 hr
  rw [getElem?_modify] at hi
  obtain ⟨r', hr', rfl⟩ := Option.map_eq_some_iff.1 hi
  split_ifs
  · exact hf r' (mem_of_getElem? hr')
  · exact h r' (mem_of_getElem? hr')

theorem Inv.strongCount_eq_one (h : Inv e w) (har : w.arcs = []) (hh : w.handles = [])
    (hl : w.counters.lookup key = some address) (hu : (w.cell address).isUnused = true) :
    w.strongCount address = 1 := by
  have ht : w.tokens.dedup.countP (·.config.counter = address) = 0 := by
    rw [countP_eq_zero]
    intro arc ha
    rw [mem_dedup, tokens, har, append_nil] at ha
    simpa using h.not_inUse hu arc ha
  have he := countP_value hl fun key' hl' => h.oneKey key' key address hl' hl
  rw [strongCount, he, ht, hh]
  rfl

theorem Inv.cleanupIfUnused (h : Inv (some key) w) (har : w.arcs = []) (hh : w.handles = []) :
    (w.cleanupIfUnused key).Settled := by
  unfold CircuitBreakers.cleanupIfUnused
  cases hl : w.counters.lookup key with
  | none =>
    refine ⟨h.settle fun a ha => ?_, har, hh⟩
    rw [hl] at ha
    cases ha
  | some a =>
    dsimp only
    cases hu : (w.cell a).isUnused with
    | false =>
      rw [if_neg fun hand => Bool.false_ne_true hand.1]
      refine ⟨h.settle fun a' ha => ?_, har, hh⟩
      rw [hl] at ha
      cases ha
      exact h.inUse_of_not_isUnused hu
    | true =>
      rw [if_pos ⟨rfl, h.strongCount_eq_one har hh hl hu⟩]
      have ho {key' : CounterKey} {a' : Nat} (hl' : (w.counters.erase key).lookup key' = some a') :=
        lookup_erase_eq_some.1 hl'
      refine ⟨⟨h.active, h.slots, fun arc hac => ?_, fun key' a' hl' => ?_,
        fun key' a' hl' => h.allocated key' a' (ho hl').2,
        fun key₁ key₂ a' h₁ h₂ => h.oneKey key₁ key₂ a' (ho h₁).2 (ho h₂).2, h.known⟩,
        har, hh⟩
      · have hr := h.registered arc hac
        refine lookup_erase_eq_some.2 ⟨fun hk => ?_, hr⟩
        rw [hk, hl] at hr
        exact h.not_inUse hu arc hac (Option.some.inj hr).symm
      · obtain ⟨hk, hl'⟩ := ho hl'
        exact Or.inr ((h.used key' a' hl').resolve_left fun he => hk (Option.some.inj he).symm)

theorem dropConfig_eq (arc : ConfigArc) (w : CircuitBreakers) :
    w.dropConfig arc = if arc ∈ (w.dropArc arc).tokens then w.dropArc arc
      else if (w.cell arc.config.counter).isUnused then (w.dropArc arc).cleanupIfUnused arc.config.counterKey
      else w.dropArc arc := by
  have hr : dropHandle arc.config.counter { w.dropArc arc with
      handles := arc.config.counter :: (w.dropArc arc).handles } = w.dropArc arc := by
    rw [dropHandle]
    rw [erase_cons_head]
  rw [CircuitBreakers.dropConfig]
  dsimp only
  rw [hr]
  rfl

theorem Inv.dropConfig (h : Inv (some arc.config.counterKey) w) (har : w.arcs = [arc]) (hh : w.handles = [])
    (hl : w.counters.lookup arc.config.counterKey = some arc.config.counter) : (w.dropConfig arc).Settled := by
  have hd : Inv (some arc.config.counterKey) (w.dropArc arc) := h.holding _ _
  have hna : (w.dropArc arc).arcs = [] := by
    rw [dropArc, har]
    exact erase_cons_head arc []
  have hs (hin : ∃ arc' ∈ w.inUse, arc'.config.counter = arc.config.counter) : (w.dropArc arc).Settled := by
    refine ⟨hd.settle fun a ha => ?_, hna, hh⟩
    rw [← Option.some.inj (hl.symm.trans ha)]
    exact hin
  rw [dropConfig_eq]
  split_ifs with ht hu
  · rw [tokens, hna, append_nil] at ht
    exact hs ⟨arc, ht, rfl⟩
  · exact hd.cleanupIfUnused hna hh
  · exact hs (h.inUse_of_not_isUnused (Bool.eq_false_iff.2 hu))

theorem Settled.counter (h : w.Settled) (key : CounterKey) :
    Inv (some key) (w.counter key).2 ∧ (w.counter key).2.counters.lookup key = some (w.counter key).1 ∧
      (w.counter key).2.arcs = [] ∧ (w.counter key).2.handles = [(w.counter key).1] := by
  unfold CircuitBreakers.counter
  cases hl : w.counters.lookup key with
  | some a =>
    refine ⟨⟨h.active, h.slots, h.registered, fun key' a' h' => ?_, h.allocated, h.oneKey, h.known⟩, hl,
      h.noArcs, congrArg (a :: ·) h.noHandles⟩
    exact Or.inr ((h.used key' a' h').resolve_left nofun)
  | none =>
    have hf : ∀ arc ∈ w.inUse, arc.config.counter ≠ w.nextCounter := fun arc ha hc =>
      absurd (h.allocated _ _ (h.registered arc ha)) (hc ▸ Nat.lt_irrefl _)
    have hcl : Function.update w.cell w.nextCounter default = w.cell := by
      refine Function.update_eq_self_iff.2 (eq_default_of_isUnused ?_).symm
      by_contra hu
      obtain ⟨arc, ha, hc⟩ := h.inUse_of_not_isUnused (Bool.eq_false_iff.2 hu)
      exact hf arc ha hc
    rw [hcl]
    refine ⟨⟨h.active, h.slots, ?_, ?_, ?_, ?_, h.known⟩, AList.lookup_insert _, h.noArcs,
      congrArg (w.nextCounter :: ·) h.noHandles⟩
    · intro arc ha
      have hr := h.registered arc ha
      refine lookup_insert_eq_some.2 (Or.inr ⟨fun hk => ?_, hr⟩)
      rw [hk, hl] at hr
      cases hr
    · intro key' a' hl'
      rcases lookup_insert_eq_some.1 hl' with ⟨rfl, _⟩ | ⟨_, hl'⟩
      · exact Or.inl rfl
      · exact Or.inr ((h.used key' a' hl').resolve_left nofun)
    · intro key' a' hl'
      rcases lookup_insert_eq_some.1 hl' with ⟨_, rfl⟩ | ⟨_, hl'⟩
      · exact Nat.lt_succ_self _
      · exact Nat.lt_succ_of_lt (h.allocated key' a' hl')
    · intro key₁ key₂ a' h₁ h₂
      rcases lookup_insert_eq_some.1 h₁ with ⟨hk₁, rfl⟩ | ⟨_, h₁⟩ <;>
        rcases lookup_insert_eq_some.1 h₂ with ⟨hk₂, heq⟩ | ⟨_, h₂⟩
      · rw [hk₁, hk₂]
      · exact absurd (h.allocated key₂ _ h₂) (Nat.lt_irrefl _)
      · exact absurd (h.allocated key₁ _ h₁) (heq ▸ Nat.lt_irrefl _)
      · exact h.oneKey key₁ key₂ a' h₁ h₂

/-! ## A state and its config -/

theorem Inv.ensureState (h : Inv e w) (registry : Nat) (c : String) :
    Inv e (w.ensureState registry c).2 ∧ (w.ensureState registry c).1 < (w.ensureState registry c).2.states.length := by
  unfold CircuitBreakers.ensureState
  cases hs : w.registries[registry]?.bind (·.configs.lookup c) with
  | some s =>
    obtain ⟨r, hr, hl⟩ := Option.bind_eq_some_iff.1 hs
    exact ⟨h, h.known r (mem_of_getElem? hr) c s hl⟩
  | none =>
    have hln : (w.states ++ [(⟨none, 0⟩ : ClusterCircuitBreakerState)]).length = w.states.length + 1 := length_append
    refine ⟨h.sameConfigs ?_ (known_modify ?_ ?_) w.breakers, hln ▸ Nat.lt_succ_self _⟩
    · rw [filterMap_append]
      exact append_nil _
    · intro r hr c' s hl
      exact hln ▸ Nat.lt_succ_of_lt (h.known r hr c' s hl)
    · intro r hr c' s hl
      rw [hln]
      rcases lookup_insert_eq_some.1 hl with ⟨_, rfl⟩ | ⟨_, hl⟩
      · exact Nat.lt_succ_self _
      · exact Nat.lt_succ_of_lt (h.known r hr c' s hl)

theorem ensureState_keeps (r : Nat) (c : String) (w : CircuitBreakers) :
    (w.ensureState r c).2.counters = w.counters ∧ (w.ensureState r c).2.arcs = w.arcs ∧
      (w.ensureState r c).2.handles = w.handles := by
  unfold CircuitBreakers.ensureState
  split <;> exact ⟨rfl, rfl, rfl⟩

theorem Inv.swap (h : Inv e w) {old new : Option ConfigArc} {others : List ConfigArc}
    (hln : states.length = w.states.length)
    (ho : w.configured.Perm (old.toList ++ others)) (hn : (states.filterMap (·.config)).Perm (new.toList ++ others))
    (hcl : ∀ a, (cell a).activeRefs = (new.toList ++ others).countP (·.config.counter = a) ∧
      (cell a).inFlight = (w.cell a).inFlight)
    (hr : ∀ arc, new = some arc → w.counters.lookup arc.config.counterKey = some arc.config.counter)
    (he : ∀ key, e = some key → ∃ arc, new = some arc ∧ arc.config.counterKey = key) (nextConfig : Nat)
    (arcs : List ConfigArc) (handles : List Nat) :
    Inv (old.map (·.config.counterKey)) { w with states, cell, nextConfig, arcs, handles } := by
  have hmem {arc : ConfigArc} : arc ∈ states.filterMap (·.config) ↔ new = some arc ∨ arc ∈ others := by
    rw [hn.mem_iff, mem_append, Option.mem_toList]
  have hmo {arc : ConfigArc} : arc ∈ w.configured ↔ old = some arc ∨ arc ∈ others := by
    rw [ho.mem_iff, mem_append, Option.mem_toList]
  refine ⟨?_, ?_, ?_, ?_, h.allocated, h.oneKey, hln ▸ h.known⟩
  · intro a
    rw [(hcl a).1]
    exact (hn.countP_eq _).symm
  · intro a
    rw [(hcl a).2]
    exact h.slots a
  · intro arc ha
    rcases List.mem_append.1 ha with ha | ha
    · rcases hmem.1 ha with ha | ha
      · exact hr arc ha
      · exact h.registered arc (mem_append_left _ (hmo.2 (Or.inr ha)))
    · exact h.registered arc (mem_append_right _ ha)
  · intro key a hl
    rcases h.used key a hl with hk | ⟨arc, ha, hc⟩
    · obtain ⟨arc, ha, rfl⟩ := he key hk
      have hc := Option.some.inj ((hr arc ha).symm.trans hl)
      exact Or.inr ⟨arc, mem_append_left _ (hmem.2 (Or.inl ha)), hc⟩
    · rcases List.mem_append.1 ha with ha' | ha'
      · rcases hmo.1 ha' with ho' | ha'
        · left
          rw [ho', h.oneKey key arc.config.counterKey a hl (hc ▸ h.registered arc ha)]
          rfl
        · exact Or.inr ⟨arc, mem_append_left _ (hmem.2 (Or.inr ha')), hc⟩
      · exact Or.inr ⟨arc, mem_append_right _ ha', hc⟩

theorem Inv.retire (h : Inv e w) {old : ConfigArc} {new : Option ConfigArc} {os : List ConfigArc}
    (hl : states.length = w.states.length)
    (ho : w.configured.Perm (old :: os)) (hn : (states.filterMap (·.config)).Perm (new.toList ++ os))
    (hc : ∀ a, (cell a).activeRefs = (old :: (new.toList ++ os)).countP (·.config.counter = a) ∧
      (cell a).inFlight = (w.cell a).inFlight)
    (hr : ∀ arc, new = some arc → w.counters.lookup arc.config.counterKey = some arc.config.counter)
    (he : ∀ key, e = some key → ∃ arc, new = some arc ∧ arc.config.counterKey = key) (nextConfig : Nat) :
    ∃ w', deactivateConfig old { w with states, cell, nextConfig, arcs := [old], handles := [] } = .ok w' ∧
      w'.Settled := by
  have hac : (cell old.config.counter).activeRefs ≠ 0 := by
    rw [(hc old.config.counter).1, countP_cons, if_pos rfl]
    exact Nat.succ_ne_zero _
  let value : InFlightCounter := { cell old.config.counter with activeRefs := (cell old.config.counter).activeRefs - 1 }
  have hv : (cell old.config.counter).deactivate = .ok value := if_neg hac
  have hc' (a : Nat) :
      (Function.update cell old.config.counter value a).activeRefs = (new.toList ++ os).countP (·.config.counter = a) ∧
      (Function.update cell old.config.counter value a).inFlight = (w.cell a).inFlight := by
    by_cases ha : a = old.config.counter
    · subst ha
      rw [Function.update_self]
      refine ⟨?_, (hc _).2⟩
      have hcn := (hc old.config.counter).1
      rw [countP_cons, if_pos rfl] at hcn
      exact Nat.sub_eq_of_eq_add hcn
    · rw [Function.update_of_ne ha]
      refine ⟨?_, (hc _).2⟩
      rw [(hc a).1, countP_cons, if_neg (Ne.symm ha), Nat.add_zero]
  have ho' : w.configured.Perm ((some old).toList ++ os) := ho
  have hs := h.swap hl ho' hn hc' hr he nextConfig [] []
  refine ⟨_, ?_, hs.cleanupIfUnused rfl rfl⟩
  rw [deactivateConfig, hv]
  refine congrArg Except.ok (congrArg (CircuitBreakers.cleanupIfUnused old.config.counterKey) ?_)
  rw [setCell, dropArc]
  exact congrArg (fun arcs => { w with
    states, cell := Function.update cell old.config.counter value, nextConfig, arcs, handles := [] })
    (erase_cons_head old [])

theorem Settled.dropState (h : w.Settled) (hs : s < w.states.length) : ∃ w', w.dropState s = .ok w' ∧ w'.Settled := by
  obtain ⟨os, ho, hn⟩ := configured_swapConfig hs none
  have hl := length_modify (fun st : ClusterCircuitBreakerState => { st with config := none }) w.states s
  unfold CircuitBreakers.dropState
  rw [swapConfig] at hn ⊢
  cases hc : w.currentConfig s with
  | none =>
    rw [hc] at ho
    have hi := h.swap hl ho hn (fun a => ⟨(h.active a).trans (ho.countP_eq _), rfl⟩)
      nofun nofun w.nextConfig [] []
    exact ⟨_, rfl, hi.holding _ _, h.noArcs, h.noHandles⟩
  | some arc =>
    rw [hc] at ho
    have hr := h.retire hl ho hn (fun a => ⟨(h.active a).trans (ho.countP_eq _), rfl⟩)
      nofun nofun w.nextConfig
    rw [← h.noHandles] at hr
    rw [h.noArcs]
    exact hr

/-- What `update_state_config` makes of the state before it deals with the config that was there. -/
def reconfigured (state : Nat) (config : CircuitBreakerRuntimeConfig) (cell : Nat → InFlightCounter)
    (w : CircuitBreakers) : CircuitBreakers :=
  { w with
    states := w.states.modify state fun st => { st with config := some ⟨w.nextConfig, config⟩ }
    cell
    nextConfig := w.nextConfig + 1
    arcs := (w.currentConfig state).toList
    handles := [] }

theorem updateStateConfig_eq {c : CircuitBreakerRuntimeConfig} (ha : w.arcs = []) (hh : w.handles = [c.counter]) :
    w.updateStateConfig s c =
      match w.currentConfig s with
      | none => .ok (w.reconfigured s c (Function.update w.cell c.counter (w.cell c.counter).activate))
      | some previous =>
        if previous.config.eq c then .ok { w with arcs := [], handles := [] }
        else if previous.config.counterKey = c.counterKey then
          .ok ((w.reconfigured s c w.cell).dropArc previous)
        else (w.reconfigured s c
          (Function.update w.cell c.counter (w.cell c.counter).activate)).deactivateConfig previous := by
  cases hc : w.currentConfig s with
  | none =>
    have hnone : w.states[s]?.bind (·.config) = none := hc
    simp only [updateStateConfig, newConfig, swapConfig, currentConfig, setCell, reconfigured, ha, hh, hnone,
      Option.any_none, Option.all_none, Option.toList, nil_append, diff_nil, diff_cons,
      erase_cons_head, if_true, if_false, Bool.false_eq_true]
  | some previous =>
    have hs : w.states[s]?.bind (·.config) = some previous := hc
    simp only [updateStateConfig, newConfig, swapConfig, currentConfig, setCell, reconfigured, ha, hh, hs,
      Option.any_some, Option.all_some, Option.toList_some, diff_nil, diff_cons, erase_cons_head,
      cons_append, nil_append]
    by_cases hk : previous.config.counterKey = c.counterKey
    · simp only [hk, hs, ne_eq, not_true, decide_false, if_true, if_false, Bool.false_eq_true, dropHandle,
        erase_cons_head, Option.toList_some, cons_append, nil_append]
    · simp only [hk, hs, ne_eq, not_false_iff, decide_true, if_true, if_false, dropHandle, erase_cons_head,
        Option.toList_some, cons_append, nil_append]

theorem update_activate (cell : Nat → InFlightCounter) (c a : Nat) :
    (Function.update cell c (cell c).activate a).activeRefs = (cell a).activeRefs + (if c = a then 1 else 0) ∧
      (Function.update cell c (cell c).activate a).inFlight = (cell a).inFlight := by
  by_cases ha : a = c
  · subst ha
    rw [Function.update_self, if_pos rfl]
    exact ⟨rfl, rfl⟩
  · rw [Function.update_of_ne ha, if_neg (Ne.symm ha)]
    exact ⟨rfl, rfl⟩

theorem Inv.updateStateConfig {config : CircuitBreakerRuntimeConfig} (h : Inv (some config.counterKey) w)
    (hlk : w.counters.lookup config.counterKey = some config.counter) (har : w.arcs = [])
    (hh : w.handles = [config.counter]) (hsa : s < w.states.length) :
    ∃ w', w.updateStateConfig s config = .ok w' ∧ w'.Settled := by
  let arc : ConfigArc := ⟨w.nextConfig, config⟩
  obtain ⟨os, ho, hn⟩ := configured_swapConfig hsa (some arc)
  have hl := length_modify (fun st : ClusterCircuitBreakerState => { st with config := some arc }) w.states s
  have hr : ∀ arc', some arc = some arc' → w.counters.lookup arc'.config.counterKey = some arc'.config.counter := by
    rintro _ ⟨⟩
    exact hlk
  have he : ∀ key, some config.counterKey = some key → ∃ arc', some arc = some arc' ∧ arc'.config.counterKey = key := by
    rintro _ ⟨⟩
    exact ⟨arc, rfl, rfl⟩
  rw [updateStateConfig_eq har hh]
  cases hc : w.currentConfig s with
  | none =>
    rw [hc] at ho
    -- The first config of the state: its counter has one more.
    have hcl (a : Nat) := update_activate w.cell config.counter a
    have hs := h.swap hl ho hn (fun a => ⟨?_, (hcl a).2⟩) hr he
      (w.nextConfig + 1) [] []
    · refine ⟨_, rfl, hs.holding _ _, ?_, rfl⟩
      rw [reconfigured, hc]
      rfl
    · rw [(hcl a).1, h.active, ho.countP_eq]
      exact (countP_cons arc os a).symm
  | some p =>
    rw [hc] at ho
    dsimp only
    have hp := h.registered p (mem_append_left _ (ho.mem_iff.2 mem_cons_self))
    split_ifs with heq hk
    · -- The same config again: the state's own uses the key.
      refine ⟨_, rfl, (h.settle fun a ha => ⟨p, ?_, ?_⟩).holding _ _, rfl, rfl⟩
      · exact mem_append_left _ (ho.mem_iff.2 mem_cons_self)
      · rw [CircuitBreakerRuntimeConfig.eq, Bool.and_eq_true, beq_iff_eq, beq_iff_eq] at heq
        rw [heq.2] at hp
        exact Option.some.inj (hp.symm.trans ha)
    · -- Another limit for the same counter.
      have hcn : p.config.counter = config.counter := by
        rw [hk] at hp
        exact Option.some.inj (hp.symm.trans hlk)
      have hs := h.swap hl ho hn (fun a => ⟨?_, rfl⟩) hr he (w.nextConfig + 1) [] []
      · have hst := Inv.settle hs fun a ha => ⟨arc, ?_, ?_⟩
        · refine ⟨_, rfl, hst.holding _ _, ?_, rfl⟩
          rw [reconfigured, dropArc, hc]
          exact erase_cons_head _ _
        · exact mem_append_left _ (hn.mem_iff.2 mem_cons_self)
        · exact hcn.symm.trans (Option.some.inj (hp.symm.trans ha))
      · rw [h.active, ho.countP_eq]
        refine (countP_cons p os a).trans (Eq.trans ?_ (countP_cons arc os a).symm)
        rw [hcn]
    · -- The counter of the new key is activated before the one of the old key is given up.
      have hcl (a : Nat) := update_activate w.cell config.counter a
      have hrt := h.retire hl ho hn (fun a => ⟨?_, (hcl a).2⟩) hr he
        (w.nextConfig + 1)
      · rw [reconfigured, hc]
        exact hrt
      · rw [(hcl a).1, h.active, ho.countP_eq]
        change (p :: os).countP _ + _ = (p :: arc :: os).countP _
        rw [countP_cons, countP_cons, countP_cons]
        exact Nat.add_right_comm _ _ _

theorem Settled.setClusterConfig (h : w.Settled) (r : Nat) (c e : String)
    (maxRequests : UInt32) : ∃ w', w.setClusterConfig r c e maxRequests = .ok w' ∧ w'.Settled := by
  obtain ⟨hi, hl, ha, hh⟩ := h.counter ⟨c, e⟩
  obtain ⟨hi', hs⟩ := hi.ensureState r c
  obtain ⟨hc, ha', hh'⟩ := ensureState_keeps r c (w.counter ⟨c, e⟩).2
  rw [← hc] at hl
  exact Inv.updateStateConfig hi' hl (ha'.trans ha) (hh'.trans hh) hs

/-! ## Permits -/

theorem Inv.withPermits (h : Inv none w) {permits : List ConfigArc}
    (hcl : ∀ a, (cell a).activeRefs = (w.cell a).activeRefs ∧
      (cell a).inFlight.toNat = permits.countP (·.config.counter = a))
    (hn : ∀ arc ∈ permits, arc ∈ w.inUse) (hg : ∀ arc ∈ w.permits, arc ∈ permits ∨ e = some arc.config.counterKey)
    (arcs : List ConfigArc) (handles : List Nat) : Inv e { w with permits, cell, arcs, handles } := by
  refine ⟨fun a => (hcl a).1.trans (h.active a), fun a => (hcl a).2, ?_, ?_, h.allocated, h.oneKey, h.known⟩
  · intro arc ha
    exact h.registered arc ((List.mem_append.1 ha).elim (mem_append_left _) (hn arc))
  · intro key a hl
    obtain ⟨arc, ha, hc⟩ := (h.used key a hl).resolve_left nofun
    rcases List.mem_append.1 ha with ha' | ha'
    · exact Or.inr ⟨arc, mem_append_left _ ha', hc⟩
    · rcases hg arc ha' with hk | he
      · exact Or.inr ⟨arc, mem_append_right _ hk, hc⟩
      · left
        rw [he, h.oneKey key arc.config.counterKey a hl (hc ▸ h.registered arc ha)]

theorem configured_recordDrop (s : Nat) (w : CircuitBreakers) : (w.recordDrop s).configured = w.configured := by
  rw [configured, recordDrop, configured]
  generalize w.states = ss
  induction ss generalizing s with
  | nil => rw [modify_nil]
  | cons st ss ih =>
    cases s with
    | zero => rfl
    | succ s => rw [modify_succ_cons, filterMap_cons, filterMap_cons, ih s]

theorem Settled.recordDrop (h : w.Settled) (s : Nat) : (w.recordDrop s).Settled := by
  refine ⟨h.sameConfigs (configured_recordDrop s w) ?_ w.breakers, h.noArcs, h.noHandles⟩
  rw [CircuitBreakers.recordDrop, length_modify]
  exact h.known

theorem mem_configured (hc : w.currentConfig s = some arc) : arc ∈ w.configured := by
  obtain ⟨st, hst, hcn⟩ := Option.bind_eq_some_iff.1 hc
  exact List.mem_filterMap.2 ⟨st, mem_of_getElem? hst, hcn⟩

theorem Settled.acquire (h : w.Settled) (s : Nat) : (w.acquire s).2.Settled := by
  unfold CircuitBreakers.acquire
  cases hc : w.currentConfig s with
  | none => exact h
  | some arc =>
    have ha : arc ∈ w.inUse := mem_append_left _ (mem_configured hc)
    dsimp only
    cases hac : (w.cell arc.config.counter).tryAcquire arc.config.maxRequests with
    | some v =>
      obtain ⟨_, hv, hat⟩ := tryAcquire_some hac
      have hcl (a : Nat) : (Function.update w.cell arc.config.counter v a).activeRefs = (w.cell a).activeRefs ∧
          (Function.update w.cell arc.config.counter v a).inFlight.toNat =
            (w.permits ++ [arc]).countP (·.config.counter = a) := by
        have hcn : (w.permits ++ [arc]).countP (·.config.counter = a) =
            w.outstanding a + if arc.config.counter = a then 1 else 0 :=
          (perm_append_singleton arc w.permits).countP_eq _ |>.trans (countP_cons arc w.permits a)
        rw [hcn]
        by_cases had : a = arc.config.counter
        · subst had
          rw [Function.update_self, hv, hat, if_pos rfl, h.slots]
          exact ⟨rfl, rfl⟩
        · rw [Function.update_of_ne had, if_neg (Ne.symm had)]
          exact ⟨rfl, h.slots a⟩
      refine ⟨h.withPermits hcl ?_ (fun arc' ha' => Or.inl (mem_append_left _ ha')) _ _, ?_, h.noHandles⟩
      · intro arc' ha'
        rcases List.mem_append.1 ha' with ha' | ha'
        · exact mem_append_right _ ha'
        · rw [List.mem_singleton.1 ha']
          exact ha
      · exact (erase_cons_head _ _).trans h.noArcs
    | none =>
      have he : Inv (some arc.config.counterKey) { w with arcs := arc :: w.arcs } :=
        h.withPermits (fun a => ⟨rfl, h.slots a⟩) (fun _ => mem_append_right _) (fun _ => Or.inl) _ _
      refine (Inv.dropConfig he ?_ h.noHandles (h.registered arc ha)).recordDrop s
      exact congrArg (arc :: ·) h.noArcs

theorem acquire_eq_permit : (w.acquire s).1 = .permit arc ↔
    w.currentConfig s = some arc ∧ (w.cell arc.config.counter).inFlight.toNat < arc.config.maxRequests.toNat := by
  unfold CircuitBreakers.acquire
  cases hc : w.currentConfig s with
  | none => exact ⟨fun h => (by cases h), fun h => (by cases h.1)⟩
  | some arc' =>
    dsimp only
    rw [tryAcquire]
    split_ifs with hl
    · refine ⟨fun h => (by cases h), fun h => ?_⟩
      cases h.1
      exact absurd h.2 (Nat.not_lt.2 hl)
    · constructor
      · rintro ⟨⟩
        exact ⟨rfl, Nat.lt_of_not_le hl⟩
      · rintro ⟨⟨⟩, _⟩
        rfl

theorem Settled.dropPermit (h : w.Settled) {p : Nat} (hp : w.permits[p]? = some arc) :
    ∃ w', w.dropPermit p arc = .ok w' ∧ w'.Settled := by
  have hpr : w.permits.Perm (arc :: w.permits.eraseIdx p) := by
    obtain ⟨hlt, rfl⟩ := List.getElem?_eq_some_iff.1 hp
    exact (getElem_cons_eraseIdx_perm hlt).symm
  have hc (a : Nat) : w.outstanding a = (w.permits.eraseIdx p).countP (·.config.counter = a) +
        if arc.config.counter = a then 1 else 0 :=
    (hpr.countP_eq _).trans (countP_cons arc _ a)
  have hs := (h.slots arc.config.counter).trans (hc arc.config.counter)
  rw [if_pos rfl] at hs
  obtain ⟨v, hr, hv, hac⟩ := release_ok (Nat.lt_of_lt_of_eq (Nat.succ_pos _) hs.symm)
  have hi : Inv (some arc.config.counterKey) { w with
      permits := w.permits.eraseIdx p, cell := Function.update w.cell arc.config.counter v,
      arcs := arc :: w.arcs } := h.withPermits ?_ ?_ ?_ _ _
  · refine ⟨_, ?_, Inv.dropConfig hi (congrArg (arc :: ·) h.noArcs) h.noHandles ?_⟩
    · rw [CircuitBreakers.dropPermit, hr]
      rfl
    · exact h.registered arc (mem_append_right _ (mem_of_getElem? hp))
  · intro a
    by_cases ha : a = arc.config.counter
    · subst ha
      rw [Function.update_self]
      exact ⟨hac, Nat.succ.inj (hv.trans hs)⟩
    · have hsame := (h.slots a).trans (hc a)
      rw [if_neg (Ne.symm ha), Nat.add_zero] at hsame
      rw [Function.update_of_ne ha]
      exact ⟨rfl, hsame⟩
  · intro arc' har'
    exact mem_append_right _ (hpr.mem_iff.2 (mem_cons_of_mem _ har'))
  · intro arc' har'
    rcases List.mem_cons.1 (hpr.mem_iff.1 har') with rfl | har'
    · exact Or.inr rfl
    · exact Or.inl har'

theorem Settled.step (h : w.Settled) {ev : CircuitBreakerEvent} {rs : Except String CircuitBreakers}
    (hs : w.step ev = some rs) : ∃ w', rs = .ok w' ∧ w'.Settled := by
  cases ev with
  | newRegistry =>
    cases hs
    refine ⟨_, rfl, h.sameConfigs rfl (List.forall_mem_append.2 ⟨h.known, ?_⟩) w.breakers, h.noArcs, h.noHandles⟩
    exact List.forall_mem_singleton.2 nofun
  | setClusterConfig registry c e maxRequests =>
    obtain ⟨_, heq⟩ := Option.ite_none_right_eq_some.1 hs
    cases heq
    exact h.setClusterConfig registry c e maxRequests
  | clusterBreaker registry c =>
    obtain ⟨_, heq⟩ := Option.ite_none_right_eq_some.1 hs
    cases heq
    have hi := (h.toInv.ensureState registry c).1
    obtain ⟨_, ha, hh⟩ := ensureState_keeps registry c w
    exact ⟨_, rfl, hi.sameConfigs rfl hi.known _, ha.trans h.noArcs, hh.trans h.noHandles⟩
  | acquire b =>
    obtain ⟨s, _, rfl⟩ := Option.map_eq_some_iff.1 hs
    exact ⟨_, rfl, h.acquire s⟩
  | dropPermit p =>
    obtain ⟨arc, har, rfl⟩ := Option.map_eq_some_iff.1 hs
    exact h.dropPermit har
  | dropRegistry registry =>
    obtain ⟨_, heq⟩ := Option.ite_none_right_eq_some.1 hs
    cases heq
    refine ⟨_, rfl, h.sameConfigs rfl (known_modify h.known ?_) w.breakers, h.noArcs, h.noHandles⟩
    exact h.known
  | dropState registry c =>
    obtain ⟨s, hst, rfl⟩ := Option.map_eq_some_iff.1 hs
    obtain ⟨r, hr, hl⟩ := Option.bind_eq_some_iff.1 hst
    split_ifs at hl
    exact h.dropState (h.known r (mem_of_getElem? hr) c s hl)

theorem settled_of_reached {r : Except String CircuitBreakers} (h : circuitBreaking.Reached r) :
    ∃ w, r = .ok w ∧ w.Settled := by
  refine Transition.Reachable.inv (P := fun r => ∃ w, r = .ok w ∧ w.Settled) ⟨_, rfl, settled_init⟩ ?_ h
  rintro _ e r' ⟨w, rfl, hw⟩ _ hs
  exact hw.step hs

end CircuitBreakers

/-- No call panics; a counter's value is the number of its permits, which `acquire` keeps below the limit; one per
key. -/
theorem circuit_breakers_exact {result : Except String CircuitBreakers} (h : circuitBreaking.Reached result) :
    ∃ w, result = .ok w ∧ (∀ a, (w.cell a).inFlight.toNat = w.outstanding a) ∧ (∀ s arc, (w.acquire s).1 = .permit arc ↔
        w.currentConfig s = some arc ∧ w.outstanding arc.config.counter < arc.config.maxRequests.toNat) ∧
      (∀ arc ∈ w.inUse, w.counters.lookup arc.config.counterKey = some arc.config.counter) ∧
      (∀ key key' a, w.counters.lookup key = some a → w.counters.lookup key' = some a → key = key') ∧
      ∀ key, key ∈ w.counters ↔ ∃ arc ∈ w.inUse, arc.config.counterKey = key := by
  obtain ⟨w, rfl, hw⟩ := CircuitBreakers.settled_of_reached h
  refine ⟨w, rfl, hw.slots, fun s arc => ?_, hw.registered, hw.oneKey, fun key => ?_⟩
  · rw [← hw.slots]
    exact CircuitBreakers.acquire_eq_permit
  · rw [HashMap.mem_iff]
    constructor
    · rintro ⟨a, hl⟩
      obtain ⟨arc, ha, hc⟩ := (hw.used key a hl).resolve_left nofun
      exact ⟨arc, ha, hw.oneKey _ key a (hc ▸ hw.registered arc ha) hl⟩
    · rintro ⟨arc, ha, rfl⟩
      exact ⟨_, hw.registered arc ha⟩

def movedCluster : List CircuitBreakerEvent :=
  [.newRegistry, .setClusterConfig 0 "cluster" "old" 1, .clusterBreaker 0 "cluster", .acquire 0, .acquire 0,
    .setClusterConfig 0 "cluster" "new" 2]

theorem circuit_breakers_exact_moved : ∃ w, circuitBreaking.run movedCluster = some (.ok w) ∧ w.permits.length = 1 ∧
      ∀ key, key ∈ w.counters ↔ ∃ arc ∈ w.inUse, arc.config.counterKey = key := by
  obtain ⟨w, hw, he⟩ := circuit_breakers_exact (Transition.reached_of_run
    (show circuitBreaking.run movedCluster = some _ from rfl))
  refine ⟨w, congrArg some hw, ?_, he.2.2.2.2⟩
  rw [← Except.ok.inj hw]
  rfl

end TonicXds
