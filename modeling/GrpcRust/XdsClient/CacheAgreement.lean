import GrpcRust.XdsClient.Subscriptions
/-!
# Watchers agree with the cache

The replay of a new watch, accepted and rejected resources, deletions and timeouts write the cache. What a watcher
heard last is what it holds.
-/

namespace XdsClient

open Lib AdsWorker List CacheUpdate ResourceEvent WatcherSubscription

variable {B V : Type} {cfg : Config B} {env : Env} {a : Actor B V} {cmd : WorkerCommand B V} {v : View B V}
  {id : WatcherId} {ws : Watchers} {ts : TypeState B V} {m name : String}
  {done : ProcessingDone} {d : Delivery V} {o : IterOrder}

/-! ## What a watcher has been told -/

def delivered (id : WatcherId) (log : List (Delivery V)) : List (Except Error (DecodedResource V)) :=
  log.filterMap fun d => if d.1 = id then d.2.changed else none

@[simp] theorem delivered_append (id : WatcherId) (log log' : List (Delivery V)) :
    delivered id (log ++ log') = delivered id log ++ delivered id log' := filterMap_append

theorem delivered_eq_nil {log : List (Delivery V)} (h : ∀ d ∈ log, d.1 ≠ id) : delivered id log = [] := by
  rw [delivered, filterMap_eq_nil_iff]
  intro d hd
  rw [if_neg (h d hd)]

theorem getLast_delivered_told {ids : List WatcherId} (h : id ∈ ids) (log : List (Delivery V))
    (r : Except Error (DecodedResource V)) (done : ProcessingDone) :
    (delivered id (log ++ ids.map (·, .resourceChanged r done))).getLast? = some r := by
  have hall : ∀ x ∈ delivered id (ids.map (·, resourceChanged r done)), x = r := by
    intro x hx
    obtain ⟨d, hd, hx⟩ := List.mem_filterMap.1 hx
    obtain ⟨i, -, rfl⟩ := List.mem_map.1 hd
    split at hx
    · exact (Option.some.inj hx).symm
    · cases hx
  have hmem : r ∈ delivered id (ids.map (·, resourceChanged r done)) :=
    List.mem_filterMap.2 ⟨(id, .resourceChanged r done), List.mem_map.2 ⟨id, h, rfl⟩, by simp [changed]⟩
  have hne := ne_nil_of_mem hmem
  rw [delivered_append, getLast?_append_of_ne_nil _ hne, getLast?_eq_some_getLast hne, hall _ (getLast_mem hne)]

theorem agrees_applyAll {e : WatcherEntry} {n : String}
    (he : ws.lookup id = some e) (hn : e.subscription = .named n) (us : List (CacheUpdate B V)) (cc : Cache B V)
    (log : List (Delivery V)) (h : ∃ c, cc.lookup n = some c ∧ (delivered id log).getLast? = c.result?) :
    ∃ c, (applyAll cc us).lookup n = some c ∧
      (delivered id (log ++ CacheUpdate.events o ws done us)).getLast? = c.result? := by
  induction us generalizing cc log with
  | nil => simpa using h
  | cons u us ih =>
    have hev : log ++ CacheUpdate.events o ws done (u :: us) =
        (log ++ (ws.matching o u.name).map (·, .resourceChanged u.result done)) ++ CacheUpdate.events o ws done us := by
      simp [CacheUpdate.events]
    rw [hev, applyAll_cons]
    refine ih _ _ ?_
    rw [lookup_apply]
    by_cases hu : n = u.name
    · have hid : id ∈ ws.matching o u.name := Watchers.mem_matching.2 ⟨e, he, by simp [hn, matchesName, hu]⟩
      exact ⟨_, if_pos hu, by rw [getLast_delivered_told hid, entry_result]⟩
    · have hid : id ∉ ws.matching o u.name := by
        intro hid
        obtain ⟨e', he', hm⟩ := Watchers.mem_matching.1 hid
        rw [he] at he'
        cases he'
        exact hu (by simpa [hn, matchesName] using hm)
      have hnl : delivered id ((ws.matching o u.name).map (·, resourceChanged u.result done)) = [] :=
        delivered_eq_nil fun d hd => by
          obtain ⟨i, hi, rfl⟩ := List.mem_map.1 hd
          rintro rfl
          exact hid hi
      rw [if_neg hu, delivered_append, hnl, append_nil]
      exact h

theorem mem_of_mem_updateEvents {us : List (CacheUpdate B V)}
    (h : d ∈ CacheUpdate.events o ws done us) : (ws.lookup d.1).isSome := by
  obtain ⟨u, -, hd⟩ := List.mem_flatMap.1 h
  obtain ⟨i, hi, rfl⟩ := List.mem_map.1 hd
  obtain ⟨e, he, -⟩ := Watchers.mem_matching.1 hi
  simp [he]

/-! ## A new watcher -/

theorem registerWatcher_lookup_of_some {c : CachedResource B V} (h : ts.cache.lookup m = some c) (n : String)
    (id : WatcherId) : (registerWatcher ts n id).1.cache.lookup m = some c := by
  obtain ⟨cc, hts, hnm, ho⟩ := registerWatcher_eq ts n id
  rw [hts]
  by_cases hn : fromName n = .named m
  · exact (hnm m hn).trans (by rw [h]; rfl)
  · exact (ho m hn).trans h

theorem registerWatcher_lookup_named (h : fromName name = .named m) (ts : TypeState B V) (id : WatcherId) :
    (registerWatcher ts name id).1.cache.lookup m = some ((ts.cache.lookup m).getD .requested) := by
  obtain ⟨c, hts, hn, -⟩ := registerWatcher_eq ts name id
  rw [hts]
  exact hn m h

theorem delivered_replay (h : fromName name = .named m) (ts : TypeState B V) (id : WatcherId) :
    (delivered id (replay ts name id)).getLast? = ((ts.cache.lookup m).getD .requested).result? := by
  rw [replay, h]
  dsimp only
  cases hm : ts.cache.lookup m with
  | none => rfl
  | some c =>
    rw [Option.bind_some, Option.getD_some, c.toEvent_eq]
    cases c.result? <;> simp [delivered, changed]

theorem mem_replay (h : d ∈ replay ts name id) : d.1 = id := by
  rw [replay] at h
  split at h
  · cases h
  · obtain ⟨e, -, rfl⟩ := Option.map_eq_some_iff.1 (Option.mem_toList.1 h)
    rfl

/-! ## The invariant -/

structure Agreement (types : String → Option (TypeState B V)) (used : List WatcherId) (log : List (Delivery V)) :
    Prop where
  agrees : ∀ T ts id e n, types T = some ts → ts.watchers.lookup id = some e → e.subscription = .named n →
    ∃ c, ts.cache.lookup n = some c ∧ (delivered id log).getLast? = c.result?
  watchers_used : ∀ T ts id, types T = some ts → (ts.watchers.lookup id).isSome → id ∈ used
  log_used : ∀ d ∈ log, d.1 ∈ used
  one_type : ∀ T T' ts ts' id, types T = some ts → types T' = some ts' → (ts.watchers.lookup id).isSome →
    (ts'.watchers.lookup id).isSome → T = T'

variable {types : String → Option (TypeState B V)} {used : List WatcherId} {log : List (Delivery V)} {T : String}

theorem Agreement.shrink (h : Agreement types used log) {types' : String → Option (TypeState B V)}
    (hsb : ∀ T ts', types' T = some ts' → ∃ ts, types T = some ts ∧ ts'.cache = ts.cache ∧
      ∀ id e, ts'.watchers.lookup id = some e → ts.watchers.lookup id = some e) :
    Agreement types' used log := by
  have hs : ∀ T ts' id, types' T = some ts' → (ts'.watchers.lookup id).isSome →
      ∃ ts, types T = some ts ∧ (ts.watchers.lookup id).isSome := by
    intro T ts' id hts' hid
    obtain ⟨ts, hts, -, hw⟩ := hsb T ts' hts'
    obtain ⟨e, he⟩ := Option.isSome_iff_exists.1 hid
    exact ⟨ts, hts, by simp [hw id e he]⟩
  refine ⟨?_, ?_, h.log_used, ?_⟩
  · intro T ts' id e n hts' he hn
    obtain ⟨ts, hts, hc, hw⟩ := hsb T ts' hts'
    rw [hc]
    exact h.agrees T ts id e n hts (hw id e he) hn
  · intro T ts' id hts' hid
    obtain ⟨ts, hts, hid⟩ := hs T ts' id hts' hid
    exact h.watchers_used T ts id hts hid
  · intro T T' ts₁ ts₂ id h₁ h₂ hi₁ hi₂
    obtain ⟨ts₁', h₁', hi₁'⟩ := hs T ts₁ id h₁ hi₁
    obtain ⟨ts₂', h₂', hi₂'⟩ := hs T' ts₂ id h₂ hi₂
    exact h.one_type T T' ts₁' ts₂' id h₁' h₂' hi₁' hi₂'

theorem Agreement.update (h : Agreement types used log) (hts : types T = some ts) (ts' : TypeState B V)
    (us : List (CacheUpdate B V)) (hw : ts'.watchers = ts.watchers)
    (hc : ts'.cache = applyAll ts.cache us) (o : IterOrder) (done : ProcessingDone) :
    Agreement (Function.update types T (some ts')) used (log ++ CacheUpdate.events o ts.watchers done us) := by
  have ho : ∀ T' t, Function.update types T (some ts') T' = some t →
      ∃ t', types T' = some t' ∧ t.watchers = t'.watchers := by
    intro T' t ht
    obtain ⟨rfl, rfl⟩ | ⟨-, ht⟩ := update_eq_some.1 ht
    · exact ⟨ts, hts, hw⟩
    · exact ⟨t, ht, rfl⟩
  refine ⟨?_, ?_, ?_, ?_⟩
  · intro T' t id e n ht he hn
    obtain ⟨rfl, rfl⟩ | ⟨hne, ht⟩ := update_eq_some.1 ht
    · rw [hw] at he
      rw [hc]
      exact agrees_applyAll he hn us _ _ (h.agrees _ _ id e n hts he hn)
    · -- A watcher of another type hears nothing.
      have hnl : delivered id (CacheUpdate.events o ts.watchers done us) = [] :=
        delivered_eq_nil fun d hd hid =>
          hne (h.one_type T' T t ts id ht hts (by simp [he]) (hid ▸ mem_of_mem_updateEvents hd))
      rw [delivered_append, hnl, append_nil]
      exact h.agrees T' t id e n ht he hn
  · intro T' t id ht hid
    obtain ⟨t', ht', hw'⟩ := ho T' t ht
    exact h.watchers_used T' t' id ht' (hw' ▸ hid)
  · intro d hd
    rcases List.mem_append.1 hd with hd | hd
    · exact h.log_used d hd
    · exact h.watchers_used T ts d.1 hts (mem_of_mem_updateEvents hd)
  · intro T₁ T₂ t₁ t₂ id h₁ h₂ hi₁ hi₂
    obtain ⟨t₁', h₁', hw₁⟩ := ho T₁ t₁ h₁
    obtain ⟨t₂', h₂', hw₂⟩ := ho T₂ t₂ h₂
    exact h.one_type T₁ T₂ t₁' t₂' id h₁' h₂' (hw₁ ▸ hi₁) (hw₂ ▸ hi₂)

theorem Agreement.register (h : Agreement types used log)
    (hts : types T = some ts ∨ types T = none ∧ ts.watchers = ∅) (hid : id ∉ used) (name : String) :
    Agreement (Function.update types T (some (registerWatcher ts name id).1)) (used ++ [id])
      (log ++ replay ts name id) := by
  have ho : ∀ i e, i ≠ id → (registerWatcher ts name id).1.watchers.lookup i = some e →
      types T = some ts ∧ ts.watchers.lookup i = some e := by
    intro i e hne he
    rw [registerWatcher_watchers, HashMap.lookup_insert_ite, if_neg hne] at he
    rcases hts with hts | ⟨-, hw⟩
    · exact ⟨hts, he⟩
    · simp [hw] at he
  have hlv : ∀ T' t i, Function.update types T (some (registerWatcher ts name id).1) T' = some t →
      (t.watchers.lookup i).isSome → i ≠ id → ∃ t', types T' = some t' ∧ (t'.watchers.lookup i).isSome := by
    intro T' t i ht hi hne
    obtain ⟨rfl, rfl⟩ | ⟨-, ht⟩ := update_eq_some.1 ht
    · obtain ⟨e, he⟩ := Option.isSome_iff_exists.1 hi
      exact ⟨ts, (ho i e hne he).1, by simp [(ho i e hne he).2]⟩
    · exact ⟨t, ht, hi⟩
  have hnw : ∀ T' t, Function.update types T (some (registerWatcher ts name id).1) T' = some t →
      (t.watchers.lookup id).isSome → T' = T := by
    intro T' t ht hi
    obtain ⟨rfl, -⟩ | ⟨-, ht⟩ := update_eq_some.1 ht
    · rfl
    · exact absurd (h.watchers_used T' t id ht hi) hid
  refine ⟨?_, ?_, ?_, ?_⟩
  · intro T' t i e n ht he hn
    by_cases hi : i = id
    · subst hi
      obtain rfl := hnw T' t ht (by simp [he])
      obtain rfl : (registerWatcher ts name i).1 = t := by simpa using ht
      rw [registerWatcher_watchers, AList.lookup_insert] at he
      cases he
      refine ⟨_, registerWatcher_lookup_named hn ts i, ?_⟩
      rw [delivered_append, delivered_eq_nil fun d hd hd' => hid (by rw [← hd']; exact h.log_used d hd),
        nil_append, delivered_replay hn]
    · have hnl : delivered i (replay ts name id) = [] := delivered_eq_nil fun d hd hd' => hi (hd' ▸ mem_replay hd)
      rw [delivered_append, hnl, append_nil]
      obtain ⟨rfl, rfl⟩ | ⟨-, ht⟩ := update_eq_some.1 ht
      · obtain ⟨hts, he⟩ := ho i e hi he
        obtain ⟨c, hc, hl⟩ := h.agrees _ ts i e n hts he hn
        exact ⟨c, registerWatcher_lookup_of_some hc name id, hl⟩
      · exact h.agrees T' t i e n ht he hn
  · intro T' t i ht hi
    by_cases hne : i = id
    · simp [hne]
    · obtain ⟨t', ht', hi'⟩ := hlv T' t i ht hi hne
      exact mem_append_left _ (h.watchers_used T' t' i ht' hi')
  · intro d hd
    rcases List.mem_append.1 hd with hd | hd
    · exact mem_append_left _ (h.log_used d hd)
    · simp [mem_replay hd]
  · intro T₁ T₂ t₁ t₂ i h₁ h₂ hi₁ hi₂
    by_cases hne : i = id
    · subst hne
      rw [hnw T₁ t₁ h₁ hi₁, hnw T₂ t₂ h₂ hi₂]
    · obtain ⟨t₁', h₁', hi₁'⟩ := hlv T₁ t₁ i h₁ hi₁ hne
      obtain ⟨t₂', h₂', hi₂'⟩ := hlv T₂ t₂ i h₂ hi₂ hne
      exact h.one_type T₁ T₂ t₁' t₂' i h₁' h₂' hi₁' hi₂'

def WorkerCommand.watchId? : WorkerCommand B V → Option WatcherId
  | .watcher (.watch _ _ id _ _) => some id
  | _ => none

def watchIds (is : List (Env × WorkerCommand B V)) : List WatcherId := is.filterMap (·.2.watchId?)

theorem Change.agreement (hc : Change cfg env a cmd v) (hi : Agreement a.types used log)
    (hid : ∀ id, cmd.watchId? = some id → id ∉ used) :
    Agreement v.types (used ++ cmd.watchId?.toList) (log ++ v.events) := by
  -- All but a watch and the cache updates leave ids and log as they are.
  have hrest : ∀ types' : String → Option (TypeState B V), cmd.watchId? = none → Agreement types' used log →
      Agreement types' (used ++ cmd.watchId?.toList) (log ++ []) := fun _ hn h => by simpa [hn] using h
  cases hc with
  | keep hq =>
    refine hrest _ ?_ hi
    match cmd, hq with
    | .watcher (.unwatch _), _ | .watcher (.resourceTimerExpired ..), _ | .transport _, _
    | .transportStopped, _ | .snapshot, _ => rfl
  | watch T name id decoder required =>
    refine hi.register ?_ (hid id rfl) name
    obtain hts | ⟨hts, hnw⟩ := typeStateFor_cases a T decoder required
    · exact .inl hts
    · exact .inr ⟨hts, by rw [hnw]; rfl⟩
  | @unwatch T id ts hts =>
    refine hrest _ rfl (hi.shrink fun T' t ht => ?_)
    obtain ⟨rfl, rfl⟩ | ⟨-, ht⟩ := update_eq_some.1 ht
    · exact ⟨ts, hts, rfl, fun i e he => (HashMap.lookup_erase_eq_some.1 he).2⟩
    · exact ⟨t, ht, rfl, fun _ _ he => he⟩
  | @unwatchLast T id ts hts =>
    refine hrest _ rfl (hi.shrink fun T' t ht => ?_)
    exact ⟨t, (update_none_eq_some.1 ht).2, rfl, fun _ _ he => he⟩
  | @expire T n timerId ts hid hts =>
    rw [show WorkerCommand.watchId? _ = none from rfl, Option.toList_none, append_nil]
    exact hi.update hts { ts with cache := applyAll ts.cache [.expire n] } _ rfl rfl env.order .detached
  | lapse | failed => exact hrest _ rfl hi
  | ready =>
    refine hrest _ rfl (hi.shrink fun T' t ht => ?_)
    obtain ⟨ts, hts, rfl⟩ := Option.map_eq_some_iff.1 ht
    exact ⟨ts, hts, rfl, fun _ _ he => he⟩
  | @response bytes done s response ts hr hts =>
    rw [types_response, show WorkerCommand.watchId? _ = none from rfl, Option.toList_none, append_nil]
    exact hi.update hts (afterResponse env ts _) _ rfl rfl env.order _

theorem agreement_run (cfg : Config B) (is : List (Env × WorkerCommand B V)) (his : (watchIds is).Nodup) :
    Agreement ((worker cfg).run is).types (watchIds is) (events ((worker cfg).outputs is)) := by
  induction is using List.reverseRecOn with
  | nil =>
    have hn : ∀ T, ((worker cfg).init : Actor B V).types T = none := types_init cfg
    exact ⟨by simp [hn], by simp [hn], by simp, by simp [hn]⟩
  | append_singleton is i ih =>
    have hs : watchIds (is ++ [i]) = watchIds is ++ i.2.watchId?.toList := by
      cases h : i.2.watchId? <;> simp [watchIds, h]
    rw [hs] at his ⊢
    have hi := ih his.of_append_left
    have hf : ∀ id, i.2.watchId? = some id → id ∉ watchIds is := by
      intro id hid hmem
      exact (List.nodup_append.1 his).2.2 id hmem id (by simp [hid]) rfl
    rw [Machine.run_snoc, Machine.outputs_snoc, events_append]
    obtain ⟨-, hn, ho⟩ | ⟨v, -, hc, ht, he, -⟩ := step_cases cfg ((worker cfg).run is) i
    · rw [hn, ho, events_nil, append_nil]
      exact ⟨hi.agrees, fun T ts id hts hid => mem_append_left _ (hi.watchers_used T ts id hts hid),
        fun d hd => mem_append_left _ (hi.log_used d hd), hi.one_type⟩
    · rw [ht.types, he]
      exact hc.agreement hi hf

/-- A live named watcher has been told nothing while its entry is `Requested`, and else last what the entry says. -/
theorem watcher_agrees_with_cache (cfg : Config B) (is : List (Env × WorkerCommand B V)) (hids : (watchIds is).Nodup)
    (T : String) (ts : TypeState B V) (id : WatcherId) (e : WatcherEntry) (n : String)
    (hts : ((worker cfg).run is).types T = some ts) (he : ts.watchers.lookup id = some e)
    (hn : e.subscription = .named n) :
    ∃ c, ts.cache.lookup n = some c ∧ (c.state = .requested → delivered id (events ((worker cfg).outputs is)) = []) ∧
      (c.state ≠ .requested → ∃ ev r, c.toEvent = some ev ∧ ev.changed = some r ∧
        (delivered id (events ((worker cfg).outputs is))).getLast? = some r) := by
  obtain ⟨c, hc, hl⟩ := (agreement_run cfg is hids).agrees T ts id e n hts he hn
  refine ⟨c, hc, fun hr => ?_, fun hr => ?_⟩
  · rw [CachedResource.result_eq_none.2 hr] at hl
    exact List.getLast?_eq_none_iff.1 hl
  · obtain ⟨r, hrs⟩ := Option.ne_none_iff_exists'.1 (mt CachedResource.result_eq_none.1 hr)
    obtain ⟨ev, hev, hch⟩ := Option.bind_eq_some_iff.1 hrs
    exact ⟨ev, r, hev, hch, hl.trans hrs⟩

/-- A watcher of `a` that is sent the resource. -/
theorem watcher_agrees_with_cache_received :
    ∃ ts c, ((worker (Small.cfg fun _ => .ok (Small.response "1" "n1" [0]))).run
        [Small.watch "a" 1, Small.ready 0, Small.receive 0]).types "T" = some ts ∧
      ts.cache.lookup "a" = some c ∧ c.state = .received ∧
      (delivered ⟨1⟩ (events ((worker (Small.cfg fun _ => .ok (Small.response "1" "n1" [0]))).outputs
        [Small.watch "a" 1, Small.ready 0, Small.receive 0]))).getLast? = some (.ok ⟨"T", "a", ()⟩) := by
  obtain ⟨c, hc, -, hl⟩ := watcher_agrees_with_cache (Small.cfg fun _ => .ok (Small.response "1" "n1" [0]))
    [Small.watch "a" 1, Small.ready 0, Small.receive 0] (by decide) "T" _ ⟨1⟩ ⟨.named "a"⟩ "a" rfl rfl rfl
  obtain rfl : c = .received ⟨"T", "a", ()⟩ ⟨"1", ⟨"T", 0⟩, 0⟩ := (Option.some.inj hc).symm
  obtain ⟨_, r, h₁, h₂, h₃⟩ := hl (by decide)
  cases h₁
  cases h₂
  exact ⟨_, _, rfl, hc, rfl, h₃⟩

end XdsClient
