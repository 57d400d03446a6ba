import GrpcRust.XdsClient.CacheAgreement
/-!
# Evidence that a resource does not exist

The cache keeps the verdict that a name is missing, also when nobody watches it any more, and replays it.
-/

namespace XdsClient

open Lib AdsWorker List CacheUpdate

variable {B V : Type} {cfg : Config B} {env : Env} {a : Actor B V} {cmd : WorkerCommand B V} {v : View B V}
  {is : List (Env × WorkerCommand B V)} {i : Env × WorkerCommand B V} {n : String} {ts : TypeState B V}
  {T : String} {id : WatcherId}

/-! ## Evidence -/

/-- `n` is in no resource of the response, neither in a valid one nor in one that fails validation. -/
def Omits (decoder : DecoderFn B V) (response : DiscoveryResponse B) (n : String) : Prop :=
  ∀ any ∈ response.resources, (∀ m resource, decoder any.value = .success m resource → resource.name ≠ n) ∧
    ∀ error, decoder any.value ≠ .resourceError n error

/-- Its current timer expires, or a response of its type on the active stream omits `n`. -/
def Observes (cfg : Config B) (a : Actor B V) (cmd : WorkerCommand B V) (T n : String) : Prop :=
  (∃ timerId, cmd = .watcher (.resourceTimerExpired T n timerId) ∧
    a.worker.resourceTimers.lookup (T, n) = some timerId) ∨
  ∃ bytes done session response ts, cmd = .transport (.response bytes done) ∧
    a.received cfg bytes = some (session, response) ∧ response.typeUrl = T ∧ a.types T = some ts ∧
    Omits ts.decoder response n

/-- `n` is in the subscription of its type. -/
def Includes (a : Actor B V) (T n : String) : Prop := ∃ ts, a.types T = some ts ∧ ts.subscription.includes n = true

/-- At some step `n` was seen missing, and it is in the subscription in every state since. -/
def Evidence (cfg : Config B) (is : List (Env × WorkerCommand B V)) (T n : String) : Prop :=
  ∃ pre j post, is = pre ++ j :: post ∧ Observes cfg ((worker cfg).run pre) j.2 T n ∧
    ∀ mid, mid <+: post → Includes ((worker cfg).run (pre ++ j :: mid)) T n

theorem Evidence.of_observes (h : Observes cfg ((worker cfg).run is) i.2 T n)
    (hi : Includes ((worker cfg).run (is ++ [i])) T n) : Evidence cfg (is ++ [i]) T n := by
  refine ⟨is, i, [], rfl, h, fun mid hm => ?_⟩
  obtain rfl := List.prefix_nil.1 hm
  exact hi

theorem Evidence.snoc (h : Evidence cfg is T n) (hi : Includes ((worker cfg).run (is ++ [i])) T n) :
    Evidence cfg (is ++ [i]) T n := by
  obtain ⟨pre, j, p, rfl, ho, hs⟩ := h
  refine ⟨pre, j, p ++ [i], by simp, ho, fun mid hm => ?_⟩
  rcases List.prefix_concat_iff.1 hm with rfl | hm
  · simpa using hi
  · exact hs mid hm

/-! ## Where verdicts come from -/

def CachedMissing (types : String → Option (TypeState B V)) (T n : String) : Prop :=
  ∃ ts c, types T = some ts ∧ ts.cache.lookup n = some c ∧ c.state = .doesNotExist

theorem lookup_of_registerWatcher {n m : String} {c : CachedResource B V}
    (h : (registerWatcher ts n id).1.cache.lookup m = some c) : ts.cache.lookup m = some c ∨ c = .requested := by
  obtain ⟨cc, hts, hnm, ho⟩ := registerWatcher_eq ts n id
  have hl : cc.lookup m = some c := by rw [hts] at h; exact h
  by_cases hn : WatcherSubscription.fromName n = .named m
  · rw [hnm m hn] at hl
    cases hm : ts.cache.lookup m with
    | some c' => rw [hm] at hl; exact .inl hl
    | none => rw [hm] at hl; exact .inr (Option.some.inj hl).symm
  · exact .inl ((ho m hn).symm.trans hl)

theorem not_valid_of_delete {rs : DiscoveryResponse B} (h : delete n ∈ responseUpdates env ts rs) :
    ∀ any ∈ rs.resources, ∀ m r, ts.decoder any.value = .success m r → r.name ≠ n := by
  intro any ha m r hd hn
  obtain ⟨_, _, h⟩ | ⟨_, _, h⟩ | ⟨n', hn', h⟩ := responseUpdates_cases h
  · cases h
  · cases h
  · cases h
    exact notMem_of_mem_deletedNames hn' (List.mem_toFinset.2 (List.mem_map.2 ⟨_, mem_validResources ha hd, hn⟩))

theorem reject_of_decodedUpdates {rs : DiscoveryResponse B} {u : CacheUpdate B V}
    (hv : ∀ any ∈ rs.resources, ∀ m r, ts.decoder any.value = .success m r → r.name ≠ n)
    (hu : u ∈ decodedUpdates env ts rs) (hn : u.name = n) : ∃ rejected, u = .reject n rejected := by
  rcases List.mem_append.1 hu with hu | hu
  · obtain ⟨r, hr, rfl⟩ := List.mem_map.1 hu
    obtain ⟨any, ha, hr⟩ := List.mem_filterMap.1 hr
    split at hr
    · rename_i m res hd
      cases hr
      exact absurd hn (hv any ha m res hd)
    · cases hr
  · obtain ⟨e, -, rfl⟩ := List.mem_map.1 hu
    exact ⟨_, congrArg (CacheUpdate.reject · _) hn⟩

theorem omits_of_delete {rs : DiscoveryResponse B} (h : delete n ∈ responseUpdates env ts rs) :
    Omits ts.decoder rs n := by
  have hv := not_valid_of_delete h
  intro any ha
  refine ⟨hv any ha, fun error hd => ?_⟩
  -- The error leaves `n` NACKed, and only received resources are deleted.
  have hu : ∃ u ∈ decodedUpdates env ts rs, u.name = n :=
    ⟨_, List.mem_append_right _ (List.mem_map.2 ⟨_, mem_perResourceErrors ha hd, rfl⟩), rfl⟩
  obtain ⟨pre, u, post, hs, hn, -, hl⟩ := lookup_applyAll_of_mem hu ts.cache
  have hmem : u ∈ decodedUpdates env ts rs := by simp [hs]
  obtain ⟨rejected, rfl⟩ := reject_of_decodedUpdates hv hmem hn
  obtain ⟨c, hc, hr⟩ := received_of_delete h
  rw [hl] at hc
  cases hc
  cases hr

theorem delete_of_result {r : DiscoveryResponse B} {u : CacheUpdate B V}
    (hu : u ∈ responseUpdates env ts r) (h : u.result = .error .resourceDoesNotExist) : u = .delete u.name := by
  obtain ⟨_, _, rfl⟩ | ⟨_, _, rfl⟩ | ⟨n, -, rfl⟩ := responseUpdates_cases hu
  · cases h
  · cases h
  · rfl

theorem Change.cachedMissing (hc : Change cfg env a cmd v) (h : CachedMissing v.types T n) :
    CachedMissing a.types T n ∨ Observes cfg a cmd T n := by
  obtain ⟨ts, c, hts, hl, hs⟩ := h
  cases hc with
  | keep | lapse | failed => exact .inl ⟨ts, c, hts, hl, hs⟩
  | watch T' name id d r =>
    obtain ⟨rfl, rfl⟩ | ⟨-, hts⟩ := update_eq_some.1 hts
    · obtain hl | rfl := lookup_of_registerWatcher hl
      · obtain hts | ⟨-, hnw⟩ := typeStateFor_cases a T d r
        · exact .inl ⟨_, c, hts, hl, hs⟩
        · simp [hnw, TypeState.new] at hl
      · cases hs
    · exact .inl ⟨ts, c, hts, hl, hs⟩
  | unwatch hts' =>
    obtain ⟨rfl, rfl⟩ | ⟨-, hts⟩ := update_eq_some.1 hts
    · exact .inl ⟨_, c, hts', hl, hs⟩
    · exact .inl ⟨ts, c, hts, hl, hs⟩
  | unwatchLast => exact .inl ⟨ts, c, (update_none_eq_some.1 hts).2, hl, hs⟩
  | @expire T' n' t ts' hid hts' =>
    obtain ⟨rfl, rfl⟩ | ⟨-, hts⟩ := update_eq_some.1 hts
    · dsimp only at hl
      rw [applyAll_cons, applyAll_nil, lookup_apply] at hl
      split at hl
      · rename_i hn
        obtain rfl : n = n' := hn
        exact .inr (.inl ⟨t, rfl, hid⟩)
      · exact .inl ⟨ts', c, hts', hl, hs⟩
    · exact .inl ⟨ts, c, hts, hl, hs⟩
  | ready =>
    obtain ⟨ts', hts', rfl⟩ := Option.map_eq_some_iff.1 hts
    exact .inl ⟨ts', c, hts', hl, hs⟩
  | @response bs done s response ts' hr hts' =>
    rw [types_response] at hts
    obtain ⟨rfl, rfl⟩ | ⟨-, hts⟩ := update_eq_some.1 hts
    · by_cases hu : ∃ u ∈ responseUpdates env ts' response, u.name = n
      · obtain ⟨pre, u, p, hsp, rfl, -, hl'⟩ := lookup_applyAll_of_mem hu ts'.cache
        obtain rfl : u.entry _ = c := Option.some.inj (hl'.symm.trans hl)
        have hmem : u ∈ responseUpdates env ts' response := by simp [hsp]
        have hrs : u.result = .error .resourceDoesNotExist := by
          have := CachedResource.result_of_doesNotExist hs
          rwa [entry_result, Option.some.injEq] at this
        exact .inr (.inr ⟨bs, done, s, response, ts', rfl, hr, rfl, hts',
          omits_of_delete (delete_of_result hmem hrs ▸ hmem)⟩)
      · have hu' : ∀ u ∈ responseUpdates env ts' response, u.name ≠ n := fun u hu₁ hn => hu ⟨u, hu₁, hn⟩
        rw [show (afterResponse env ts' response).cache = applyAll ts'.cache
          (responseUpdates env ts' response) from rfl, lookup_applyAll_of_notMem hu'] at hl
        exact .inl ⟨ts', c, hts', hl, hs⟩
    · exact .inl ⟨ts, c, hts, hl, hs⟩

theorem Change.missing_event (hc : Change cfg env a cmd v) {done : ProcessingDone}
    (h : (id, .resourceChanged (.error .resourceDoesNotExist) done) ∈ v.events) :
    ∃ T n ts e, v.types T = some ts ∧ ts.watchers.lookup id = some e ∧ e.subscription.matchesName n = true ∧
      (CachedMissing a.types T n ∨ Observes cfg a cmd T n) := by
  cases hc with
  | keep | unwatch | unwatchLast | lapse | ready | failed => cases h
  | watch T name id' decoder required =>
    have hid : id = id' := mem_replay h
    subst hid
    have hlk : (registerWatcher (a.worker.typeStateFor T decoder required) name id).1.watchers.lookup id =
        some ⟨.fromName name⟩ := by rw [registerWatcher_watchers, AList.lookup_insert]
    cases hs : WatcherSubscription.fromName name with
    | wildcard => simp [replay, hs] at h
    | named n =>
      refine ⟨T, n, _, _, Function.update_self _ _ _, hlk, by simp [hs, WatcherSubscription.matchesName], .inl ?_⟩
      rw [replay, hs] at h
      obtain ⟨ev, hev, heq⟩ := Option.map_eq_some_iff.1 (Option.mem_toList.1 h)
      obtain ⟨c, hl, hev⟩ := Option.bind_eq_some_iff.1 hev
      obtain hts | ⟨-, hn⟩ := typeStateFor_cases a T decoder required
      · rw [(Prod.mk.inj heq).2] at hev
        exact ⟨_, c, hts, hl, CachedResource.state_of_toEvent hev⟩
      · simp [hn, TypeState.new] at hl
  | @expire T n timerId ts hid hts =>
    obtain ⟨u, hu, hd⟩ := List.mem_flatMap.1 h
    obtain rfl := List.mem_singleton.1 hu
    obtain ⟨i, hi, heq⟩ := List.mem_map.1 hd
    obtain rfl : i = id := (Prod.mk.inj heq).1
    obtain ⟨e, he, hm⟩ := Watchers.mem_matching.1 hi
    exact ⟨T, n, _, e, Function.update_self _ _ _, he, hm, .inr (.inl ⟨timerId, rfl, hid⟩)⟩
  | @response bytes done' s response ts hr hts =>
    obtain ⟨u, hu, hd⟩ := List.mem_flatMap.1 h
    obtain ⟨i, hi, heq⟩ := List.mem_map.1 hd
    obtain rfl : i = id := (Prod.mk.inj heq).1
    obtain ⟨e, he, hm⟩ := Watchers.mem_matching.1 hi
    have hrs : u.result = .error .resourceDoesNotExist := (ResourceEvent.resourceChanged.inj (Prod.mk.inj heq).2).1
    refine ⟨response.typeUrl, u.name, afterResponse env ts response, e, ?_, he, hm, .inr (.inr
      ⟨bytes, done', s, response, ts, rfl, hr, rfl, hts, omits_of_delete (delete_of_result hu hrs ▸ hu)⟩)⟩
    rw [types_response]
    exact Function.update_self _ _ _

def MissingSubscribed (a : Actor B V) (T n : String) : Prop := CachedMissing a.types T n → Includes a T n

theorem evidence_next (hi : CachedMissing ((worker cfg).run is).types T n → Evidence cfg is T n)
    (h : CachedMissing ((worker cfg).run is).types T n ∨ Observes cfg ((worker cfg).run is) i.2 T n)
    (hs : Includes ((worker cfg).run (is ++ [i])) T n) : Evidence cfg (is ++ [i]) T n :=
  h.elim (fun h => (hi h).snoc hs) fun h => .of_observes h hs

theorem evidence_run (cfg : Config B) (is : List (Env × WorkerCommand B V))
    (hs : Machine.Along (fun pre _ => MissingSubscribed ((worker cfg).run pre) T n) is)
    (hlast : MissingSubscribed ((worker cfg).run is) T n) (h : CachedMissing ((worker cfg).run is).types T n) :
    Evidence cfg is T n := by
  induction is using List.reverseRecOn with
  | nil =>
    obtain ⟨ts, -, hts, -⟩ := h
    rw [show ((worker cfg).run [] : Actor B V).types T = none from types_init cfg T] at hts
    cases hts
  | append_singleton is i ih =>
    obtain ⟨hp, hcn⟩ := Machine.along_snoc.1 hs
    refine evidence_next (ih hp hcn) ?_ (hlast h)
    rw [Machine.run_snoc] at h
    obtain ⟨-, hn, -⟩ | ⟨v, -, hc, ht, -⟩ := step_cases cfg ((worker cfg).run is) i
    · rw [hn] at h; exact .inl h
    · rw [ht.types] at h; exact hc.cachedMissing h

/-- A `ResourceDoesNotExist` event has evidence: `n` was seen missing and has been subscribed to since. -/
theorem missing_event_has_evidence (cfg : Config B) (is : List (Env × WorkerCommand B V))
    (i : Env × WorkerCommand B V) (id : WatcherId) (done : ProcessingDone)
    (h : (id, .resourceChanged (.error .resourceDoesNotExist) done) ∈
      events ((worker cfg).out ((worker cfg).run is) i)) :
    ∃ T n ts e, ((worker cfg).run (is ++ [i])).types T = some ts ∧ ts.watchers.lookup id = some e ∧
      e.subscription.matchesName n = true ∧
      (Machine.Along (fun pre _ => MissingSubscribed ((worker cfg).run pre) T n) (is ++ [i]) →
        Evidence cfg (is ++ [i]) T n) := by
  obtain ⟨-, -, ho⟩ | ⟨v, -, hc, ht, he, -⟩ := step_cases cfg ((worker cfg).run is) i
  · rw [ho] at h; cases h
  · rw [he] at h
    obtain ⟨T, n, ts, e, hts, hl, hm, hw⟩ := hc.missing_event h
    rw [← ht.types, ← Machine.run_snoc] at hts
    refine ⟨T, n, ts, e, hts, hl, hm, fun hs => ?_⟩
    obtain ⟨hp, hcn⟩ := Machine.along_snoc.1 hs
    refine evidence_next (evidence_run cfg is hp hcn) hw ⟨ts, hts, ?_⟩
    rw [(allSubscribed_run cfg (is ++ [i]) T ts hts).subscription]
    exact Watchers.includes_of_watched hl hm

def Actor.noneMissing (a : Actor B V) : Bool :=
  a.worker.typeStates.entries.all fun e => e.2.cache.entries.all fun c => decide (c.2.state ≠ .doesNotExist)

theorem missingSubscribed_of_noneMissing (h : a.noneMissing = true) (T n : String) : MissingSubscribed a T n := by
  rintro ⟨ts, c, hts, hl, hs⟩
  have hc := List.all_eq_true.1 (List.all_eq_true.1 h ⟨T, ts⟩ (HashMap.mem_entries.2 hts)) ⟨n, c⟩
    (HashMap.mem_entries.2 hl)
  simp [hs] at hc

/-- A watched name whose timer expires. -/
theorem missing_event_has_evidence_expired : ∃ T n, Evidence (Small.cfg fun _ => .error .streamClosed)
      ([Small.watch "a" 1, Small.ready 0] ++ [Small.expired "a" 0]) T n := by
  obtain ⟨T, n, -, -, -, -, -, h⟩ := missing_event_has_evidence (Small.cfg fun _ => .error .streamClosed)
    [Small.watch "a" 1, Small.ready 0] (Small.expired "a" 0) ⟨1⟩ .detached mem_cons_self
  refine ⟨T, n, h (Machine.along_snoc.2 ⟨?_, missingSubscribed_of_noneMissing rfl T n⟩)⟩
  show Machine.Along _ (([] ++ [Small.watch "a" 1]) ++ [Small.ready 0])
  exact Machine.along_snoc.2 ⟨Machine.along_snoc.2 ⟨Machine.along_nil _, missingSubscribed_of_noneMissing rfl T n⟩,
    missingSubscribed_of_noneMissing rfl T n⟩

/-- The timer of `a` expires unwatched; the next watcher of `a` is told at once that it does not exist. -/
theorem stale_timeout_is_replayed : (⟨3⟩, .resourceChanged (.error .resourceDoesNotExist) .detached) ∈
        events ((worker (Small.cfg fun _ => .error .streamClosed)).out
          ((worker (Small.cfg fun _ => .error .streamClosed)).run
            [Small.watch "a" 1, Small.watch "b" 2, Small.ready 0, Small.unwatch 1, Small.expired "a" 1])
          (Small.watch "a" 3)) ∧
      ¬ Evidence (Small.cfg fun _ => .error .streamClosed)
        ([Small.watch "a" 1, Small.watch "b" 2, Small.ready 0, Small.unwatch 1, Small.expired "a" 1] ++
          [Small.watch "a" 3]) "T" "a" := by
  refine ⟨mem_cons_self, ?_⟩
  rintro ⟨pre, j, p, hs, ho, hsb⟩
  rcases eq_nil_or_concat p with rfl | ⟨p, k, rfl⟩
  · -- The last command is a watch, which shows nothing.
    obtain ⟨rfl, hj⟩ := append_inj' hs rfl
    obtain rfl : Small.watch "a" 3 = j := by simpa using hj
    obtain ⟨_, h, -⟩ | ⟨_, _, _, _, _, h, -⟩ := ho <;> cases h
  · -- Before it, nobody is subscribed to `a`.
    rw [concat_eq_append, ← cons_append, ← append_assoc] at hs
    obtain ⟨hp, -⟩ := append_inj' hs rfl
    obtain ⟨ts, hts, hin⟩ := hsb p (by simp)
    rw [← hp] at hts
    obtain rfl := Option.some.inj hts
    exact absurd hin (by decide)

end XdsClient
