import GrpcRust.XdsClient.CacheAgreement
/-!
# Resource timers

Every path that answers, unsubscribes or loses the stream must cancel the timer.
-/

namespace XdsClient

open Lib AdsWorker CacheUpdate

variable {B V : Type} {cfg : Config B} {env : Env} {a : Actor B V} {cmd : WorkerCommand B V} {v : View B V}
  {n T : String} {ts ts' : TypeState B V}
  {ty : String → Option (TypeState B V)} {us : List (CacheUpdate B V)} {r : DiscoveryResponse B}
  {c : CachedResource B V}

def Awaited (types : String → Option (TypeState B V)) (k : String × String) : Prop :=
  ∃ ts c, types k.1 = some ts ∧ ts.cache.lookup k.2 = some c ∧ c.state = .requested

/-! ## What updates do to requested entries -/

theorem CacheUpdate.entry_state_ne (c : Cache B V) (u : CacheUpdate B V) : (u.entry c).state ≠ .requested := by
  cases u <;> nofun

theorem requested_of_applyAll {cc : Cache B V} (hl : (applyAll cc us).lookup n = some c) (hc : c.state = .requested) :
    (∀ u ∈ us, u.name ≠ n) ∧ cc.lookup n = some c := by
  by_cases hu : ∃ u ∈ us, u.name = n
  · obtain ⟨pre, u, p, -, -, -, hl'⟩ := lookup_applyAll_of_mem hu cc
    obtain rfl : u.entry _ = c := Option.some.inj (hl'.symm.trans hl)
    exact absurd hc (entry_state_ne _ _)
  · have hu' : ∀ u ∈ us, u.name ≠ n := fun u hu₁ hn => hu ⟨u, hu₁, hn⟩
    rw [lookup_applyAll_of_notMem hu'] at hl
    exact ⟨hu', hl⟩

theorem notMem_responseUpdates (hl : ts.cache.lookup n = some c)
    (hc : c.state = .requested) (hk : ∀ u ∈ responseUpdates env ts r, u.cancelsTimer = true → u.name ≠ n) :
    ∀ u ∈ responseUpdates env ts r, u.name ≠ n := by
  intro u hu hn
  cases hcn : u.cancelsTimer with
  | true => exact hk u hu hcn hn
  | false =>
    obtain rfl : u = .delete n := by
      cases u with
      | delete m => exact congrArg delete hn
      | accept | reject | expire => cases hcn
    obtain ⟨c', hl', hr⟩ := received_of_delete hu
    rw [lookup_applyAll_of_notMem, hl] at hl'
    · cases hl'
      rw [hc] at hr
      cases hr
    · intro u hu
      refine hk u (List.mem_append_left _ hu) ?_
      rcases List.mem_append.1 hu with hu | hu <;> obtain ⟨_, -, rfl⟩ := List.mem_map.1 hu <;> rfl

theorem Awaited.update {k : String × String} (h : Awaited ty k)
    (hk : ∀ ts c, k.1 = T → ty T = some ts → ts.cache.lookup k.2 = some c → c.state = .requested →
      ts'.cache.lookup k.2 = some c) :
    Awaited (Function.update ty T (some ts')) k := by
  obtain ⟨ts, c, hts, hl, hc⟩ := h
  by_cases hT : k.1 = T
  · exact ⟨ts', c, by rw [hT, Function.update_self], hk ts c hT (hT ▸ hts) hl hc, hc⟩
  · exact ⟨ts, c, by rw [Function.update_of_ne hT]; exact hts, hl, hc⟩

theorem Change.awaited (hc : Change cfg env a cmd v) (hi : ∀ k ∈ a.timers, Awaited a.types k) :
    ∀ k ∈ v.timers, Awaited v.types k := by
  intro k hk
  cases hc with
  | keep => exact hi k hk
  | lapse => exact hi k hk.1
  | failed => exact hk.elim
  | watch T name id decoder required =>
    refine (hi k hk).update fun ts c hT hts hl hc => registerWatcher_lookup_of_some ?_ name id
    obtain hts' | ⟨hts', -⟩ := typeStateFor_cases a T decoder required
    · rw [hts] at hts'
      rwa [← Option.some.inj hts']
    · rw [hts] at hts'
      cases hts'
  | unwatch hts' =>
    refine (hi k hk).update fun ts c hT hts hl hc => ?_
    rw [hts] at hts'
    cases hts'
    exact hl
  | unwatchLast =>
    obtain ⟨ts, c, hts, hrest⟩ := hi k hk.1
    exact ⟨ts, c, update_none_eq_some.2 ⟨hk.2, hts⟩, hrest⟩
  | @expire T n timerId ts' hid hts' =>
    obtain ⟨hk, hcn⟩ := hk
    refine (hi k hk).update fun ts c hT hts hl hc => ?_
    rw [hts] at hts'
    cases hts'
    refine (lookup_applyAll_of_notMem (fun u hu hn => ?_) _).trans hl
    obtain rfl := List.mem_singleton.1 hu
    exact hcn _ List.mem_cons_self rfl (Prod.ext hT hn.symm)
  | ready =>
    obtain ⟨ts, c, hts, hrest⟩ := hi k hk
    exact ⟨_, c, Option.map_eq_some_iff.2 ⟨ts, hts, rfl⟩, hrest⟩
  | @response bytes done s response ts' hr hts' =>
    obtain ⟨hk, hcn⟩ := hk
    rw [types_response]
    refine (hi k hk).update fun ts c hT hts hl hc => ?_
    rw [hts] at hts'
    cases hts'
    have hnt := notMem_responseUpdates hl hc fun u hu hu' hn => hcn u hu hu' (Prod.ext hT hn.symm)
    exact (lookup_applyAll_of_notMem hnt _).trans hl

theorem awaited_run (cfg : Config B) (is : List (Env × WorkerCommand B V)) :
    ∀ k ∈ ((worker cfg).run is).timers, Awaited ((worker cfg).run is).types k := by
  refine (worker cfg).run_inv (P := fun a : Actor B V => ∀ k ∈ a.timers, Awaited a.types k)
    (fun k hk => absurd hk (timers_init cfg k)) (fun a i hi => ?_) is
  obtain ⟨-, hn, -⟩ | ⟨v, -, hc, ht, -⟩ := step_cases cfg a i
  · rwa [hn]
  · intro k hk
    rw [ht.types]
    obtain hk | ⟨ts, hts, -, c, hl, hr⟩ := ht.new_timers k hk
    · exact hc.awaited hi k hk
    · exact ⟨ts, c, hts, hl, hr⟩

/-- A name that is pending after updates of its type was pending before, and no update cancels its timer. -/
theorem pending_of_update {tm : Set (String × String)} {T' : String}
    {ts₁ : TypeState B V} (hi : ∀ ts, ty T = some ts → ts.Pending n → (T, n) ∈ tm)
    (hts' : ty T' = some ts') (hts : Function.update ty T' (some ts₁) T = some ts) (hw : ts₁.watchers = ts'.watchers)
    (hcc : ts₁.cache = applyAll ts'.cache us) (hp : ts.Pending n) :
    (T, n) ∈ tm ∧ ∀ u ∈ us, u.cancelsTimer = true → (T, n) ≠ (T', u.name) := by
  obtain ⟨rfl, rfl⟩ | ⟨hne, hts⟩ := update_eq_some.1 hts
  · obtain ⟨hn, c, hl, hc⟩ := hp
    rw [hcc] at hl
    obtain ⟨hnt, hl⟩ := requested_of_applyAll hl hc
    exact ⟨hi ts' hts' ⟨hw ▸ hn, c, hl, hc⟩, fun u hu _ hk => hnt u hu (Prod.mk.inj hk).2.symm⟩
  · exact ⟨hi ts hts hp, fun u _ _ hk => hne (Prod.mk.inj hk).1⟩

theorem Change.pending (hc : Change cfg env a cmd v) {s : SessionId} (hs : a.sender cmd = some s)
    (hrd : ∀ s, cmd ≠ .transport (.ready s))
    (hw : ∀ name id decoder required, cmd ≠ .watcher (.watch T name id decoder required))
    (hi : ∀ ts, a.types T = some ts → ts.Pending n → (T, n) ∈ a.timers) (hts : v.types T = some ts)
    (hp : ts.Pending n) : (T, n) ∈ v.timers := by
  cases hc with
  | keep => exact hi ts hts hp
  | watch T' name id decoder required =>
    obtain ⟨rfl, -⟩ | ⟨-, hts⟩ := update_eq_some.1 hts
    · exact absurd rfl (hw name id decoder required)
    · exact hi ts hts hp
  | @unwatch T' id ts' hts' =>
    obtain ⟨rfl, rfl⟩ | ⟨-, hts⟩ := update_eq_some.1 hts
    · obtain ⟨⟨i, e, he, hn⟩, hc⟩ := hp
      exact hi ts' hts' ⟨⟨i, e, (HashMap.lookup_erase_eq_some.1 he).2, hn⟩, hc⟩
    · exact hi ts hts hp
  | unwatchLast =>
    obtain ⟨hne, hts⟩ := update_none_eq_some.1 hts
    exact ⟨hi ts hts hp, hne⟩
  | @expire T' n' timerId ts' hid hts' => exact pending_of_update hi hts' hts rfl rfl hp
  | @lapse T' n' timerId hid hlp =>
    refine ⟨hi ts hts hp, fun hk => ?_⟩
    obtain ⟨rfl, rfl⟩ := Prod.mk.inj hk
    obtain ⟨-, c, hl, hr⟩ := hp
    obtain ⟨c', hl', hr'⟩ := hlp ts hts
    rw [hl] at hl'
    cases hl'
    exact hr' hr
  | ready s' => exact absurd rfl (hrd s')
  | @response bytes done s' response ts' hr hts' =>
    rw [types_response] at hts
    exact pending_of_update hi hts' hts rfl rfl hp
  | failed => cases hs

theorem pending_run (cfg : Config B) (htm : cfg.resourceInitialTimeout.isSome) (is : List (Env × WorkerCommand B V))
    (ha : ((worker cfg).run is).context.active.isSome) (T : String) (ts : TypeState B V) (n : String)
    (hts : ((worker cfg).run is).types T = some ts) (hp : ts.Pending n) : (T, n) ∈ ((worker cfg).run is).timers := by
  refine (worker cfg).run_inv (P := fun a : Actor B V => a.context.active.isSome → ∀ T ts n, a.types T = some ts →
    ts.Pending n → (T, n) ∈ a.timers) ?_ (fun a i hi => ?_) is ha T ts n hts hp
  · intro h
    rw [show ((worker cfg).init : Actor B V).context.active = none from active_init cfg] at h
    cases h
  · intro ha T ts n hts hp
    obtain ⟨env, cmd⟩ := i
    obtain ⟨-, hn, -⟩ | ⟨v, -, hc, ht, -⟩ := step_cases cfg a (env, cmd)
    · rw [hn] at ha hts ⊢
      exact hi ha T ts n hts hp
    · obtain ⟨s, hs⟩ := Option.isSome_iff_exists.1 ha
      obtain ⟨hsn, hk⟩ := ht.active s hs
      by_cases hr : ∃ s, cmd = .transport (.ready s)
      · obtain ⟨s', rfl⟩ := hr
        exact ht.ready_timers s' rfl ha T htm ts n hts hp
      by_cases hw : ∃ name id d r, cmd = .watcher (.watch T name id d r)
      · obtain ⟨name, id, d, r, rfl⟩ := hw
        exact ht.watch_timers T name id d r rfl ha htm ts n hts hp
      push Not at hr hw
      have ha' := Actor.active_of_sender hsn hr
      rw [ht.types] at hts
      exact hk (hc.pending hsn hr hw (fun ts hts hp => hi (by simp [ha']) T ts n hts hp) hts hp)

theorem stale_expiry (cfg : Config B) (a : Actor B V) (env : Env) {t : UInt64}
    (hid : a.worker.resourceTimers.lookup (T, n) ≠ some t) :
    ((worker cfg).next a (env, .watcher (.resourceTimerExpired T n t))).worker.typeStates = a.worker.typeStates ∧
      ((worker cfg).next a (env, .watcher (.resourceTimerExpired T n t))).worker.resourceTimers =
        a.worker.resourceTimers ∧
      events ((worker cfg).out a (env, .watcher (.resourceTimerExpired T n t))) = [] := by
  have hw : a.fresh.worker.handleResourceTimeout env T n t = a.fresh.worker := if_pos hid
  have ht : a.fresh.turn cfg env (.watcher (.resourceTimerExpired T n t)) = a.fresh.spawnTransport := by
    rw [Actor.turn, handleCommand, hw]
    rfl
  cases hr : a.running with
  | false => simp [Machine.next, Machine.out, worker, Actor.step, hr]
  | true =>
    rw [Machine.next, Machine.out, step_of_running cfg hr, ht, Actor.spawnTransport]
    split <;> exact ⟨rfl, rfl, rfl⟩

/-- Timers are for requested names; all watched ones have one while a stream is active; old ids change nothing. -/
theorem timers_match_requests (cfg : Config B) (is : List (Env × WorkerCommand B V)) :
    (∀ T n, (((worker cfg).run is).worker.resourceTimers.lookup (T, n)).isSome →
      ∃ ts c, ((worker cfg).run is).types T = some ts ∧ ts.cache.lookup n = some c ∧ c.state = .requested) ∧
    (((worker cfg).run is).context.active.isSome → cfg.resourceInitialTimeout.isSome →
      ∀ T ts id e n c, ((worker cfg).run is).types T = some ts → ts.watchers.lookup id = some e →
        e.subscription = .named n → ts.cache.lookup n = some c → c.state = .requested →
        (((worker cfg).run is).worker.resourceTimers.lookup (T, n)).isSome) ∧
    ∀ env T n t, ((worker cfg).run is).worker.resourceTimers.lookup (T, n) ≠ some t →
      ((worker cfg).next ((worker cfg).run is) (env, .watcher (.resourceTimerExpired T n t))).worker.typeStates =
        ((worker cfg).run is).worker.typeStates ∧
      ((worker cfg).next ((worker cfg).run is) (env, .watcher (.resourceTimerExpired T n t))).worker.resourceTimers =
        ((worker cfg).run is).worker.resourceTimers ∧
      events ((worker cfg).out ((worker cfg).run is) (env, .watcher (.resourceTimerExpired T n t))) = [] := by
  refine ⟨fun T n h => awaited_run cfg is (T, n) h, ?_, fun env T n t hid => ?_⟩
  · intro ha ht T ts id e n c hts he hn hl hc
    exact pending_run cfg ht is ha T ts n hts ⟨⟨id, e, he, hn⟩, c, hl, hc⟩
  · exact stale_expiry cfg _ env hid

end XdsClient
