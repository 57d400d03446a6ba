import GrpcRust.XdsClient.View
/-!
# What the methods of the worker do to its view

One lemma a method, `view_*` or `*_cases`. The proofs about runs cite these and
never unfold a method.
-/

namespace XdsClient

open Lib List View CacheUpdate HashMap

variable {B V : Type}

namespace AdsWorker
variable {w : AdsWorker B V} {v : View B V} {T n : String} {ts : TypeState B V} {env : Env}
  {response : DiscoveryResponse B}

def view (w : AdsWorker B V) : View B V where
  types := w.typeStates.lookup
  timers := { k | (w.resourceTimers.lookup k).isSome }
  events := XdsClient.events w.outbox
  requests := XdsClient.requests w.outbox

@[simp] theorem view_types (w : AdsWorker B V) (T : String) : w.view.types T = w.typeStates.lookup T := rfl

theorem lookup_of_view (hv : w.view = v) (ht : v.types T = some ts) : w.typeStates.lookup T = some ts := by
  rw [← view_types, hv, ht]

theorem lookup_none_of_view (hv : w.view = v) (ht : v.types T = none) : w.typeStates.lookup T = none := by
  rw [← view_types, hv, ht]

/-! ## Small steps -/

theorem view_emit (w : AdsWorker B V) (es : List (Effect B V)) : (w.emit es).view = { w.view with
        events := w.view.events ++ XdsClient.events es
        requests := w.view.requests ++ XdsClient.requests es } := by
  simp [view, emit]

@[simp] theorem view_emit_measure (w : AdsWorker B V) (ms : List Measurement) :
    (w.emit (ms.map .measure)).view = w.view := by
  simp [view_emit]

@[simp] theorem view_syncResourceCounts (env : Env) (w : AdsWorker B V) (T : String) (cs : HashMap String Int) :
    (w.syncResourceCounts env T cs).view = w.view := by
  rw [syncResourceCounts, view_emit_measure]
  rfl

@[simp] theorem view_setTypeState (w : AdsWorker B V) (T : String) (ts : TypeState B V) :
    (w.setTypeState T ts).view = w.view.setType T ts := by
  simp only [view, setTypeState, setType, View.mk.injEq, and_self, and_true]
  funext T'
  rw [lookup_insert_ite, Function.update_apply]

theorem view_cancelTimer (w : AdsWorker B V) (T n : String) :
    (w.cancelTimer T n).view = { w.view with timers := { k | k ∈ w.view.timers ∧ k ≠ (T, n) } } := by
  simp only [view, cancelTimer, View.mk.injEq, and_self, and_true, true_and]
  ext k
  simp only [Set.mem_ofPred_eq, lookup_erase_ite]
  split <;> simp_all

@[simp] theorem view_notify (env : Env) (w : AdsWorker B V) (ts : TypeState B V) (n : String)
    (r : Except Error (DecodedResource V)) (done : ProcessingDone) : (w.notify env ts n r done).view = { w.view with
        events := w.view.events ++ (ts.watchers.matching env.order n).map (·, .resourceChanged r done) } := by
  rw [notify, view_emit]
  simp [XdsClient.events, XdsClient.requests, filterMap_map, Function.comp_def, Effect.event?, Effect.request?,
    TypeState.matchingWatchers]

theorem view_recordUnhealthy (w : AdsWorker B V) (healthy : Bool) : (w.recordUnhealthy healthy).view = w.view := by
  rw [recordUnhealthy]
  split
  · rw [view_emit_measure]
  · rfl

theorem view_recordHealthy (w : AdsWorker B V) (healthy : Bool) : (w.recordHealthy healthy).view = w.view := by
  rw [recordHealthy]
  split
  · rfl
  · rw [view_emit_measure]

/-! ## Watchers -/

def replay (ts : TypeState B V) (name : String) (id : WatcherId) : List (Delivery V) :=
  match WatcherSubscription.fromName name with
  | .wildcard => []
  | .named n => (((ts.cache.lookup n).bind (·.toEvent)).map (id, ·)).toList

theorem registerWatcher_eq (ts : TypeState B V) (name : String) (id : WatcherId) :
    ∃ cache : HashMap String (CachedResource B V), (registerWatcher ts name id).1 =
        { ts with watchers := ts.watchers.insert id ⟨.fromName name⟩, cache := cache }.recalculateSubscriptions ∧
      (∀ m, WatcherSubscription.fromName name = .named m →
        cache.lookup m = some ((ts.cache.lookup m).getD .requested)) ∧
      ∀ m, WatcherSubscription.fromName name ≠ .named m → cache.lookup m = ts.cache.lookup m := by
  rw [registerWatcher]
  cases WatcherSubscription.fromName name with
  | wildcard => exact ⟨ts.cache, rfl, fun m h => (by cases h), fun m _ => rfl⟩
  | named n =>
    dsimp only
    cases hn : ts.cache.lookup n with
    | some c =>
      refine ⟨ts.cache, rfl, fun m h => ?_, fun m _ => rfl⟩
      cases h
      simp [hn]
    | none =>
      refine ⟨ts.cache.insert n .requested, rfl, fun m h => ?_, fun m h => ?_⟩
      · cases h
        simp [hn]
      · rw [lookup_insert_ite, if_neg]
        rintro rfl
        exact h rfl

theorem registerWatcher_effects (ts : TypeState B V) (name : String) (id : WatcherId) :
    XdsClient.events (registerWatcher ts name id).2.1 = replay ts name id ∧
      XdsClient.requests (registerWatcher ts name id).2.1 = [] := by
  rw [registerWatcher, replay]
  cases WatcherSubscription.fromName name with
  | wildcard => exact ⟨rfl, rfl⟩
  | named n =>
    dsimp only
    cases hc : ts.cache.lookup n with
    | none => exact ⟨rfl, rfl⟩
    | some c => cases he : c.toEvent <;> simp [he, XdsClient.events, XdsClient.requests, Effect.event?, Effect.request?]

def typeStateFor (w : AdsWorker B V) (T : String) (decoder : DecoderFn B V) (required : Bool) : TypeState B V :=
  (w.typeStates.lookup T).getD (.new T decoder required)

theorem view_addWatcher (env : Env) (w : AdsWorker B V) (T n : String) (id : WatcherId) (d : DecoderFn B V) (r : Bool) :
    (w.addWatcher env T n id d r).1.view = { w.view.setType T (registerWatcher (w.typeStateFor T d r) n id).1 with
        events := w.view.events ++ replay (w.typeStateFor T d r) n id } := by
  obtain ⟨he, hr⟩ := registerWatcher_effects (w.typeStateFor T d r) n id
  have h : ((w.setTypeState T (registerWatcher (w.typeStateFor T d r) n id).1).emit
      (registerWatcher (w.typeStateFor T d r) n id).2.1).view =
      { w.view.setType T (registerWatcher (w.typeStateFor T d r) n id).1 with
        events := w.view.events ++ replay (w.typeStateFor T d r) n id } := by
    simp [view_emit, he, hr, setType]
  simp only [addWatcher]
  split
  · rw [view_syncResourceCounts]; exact h
  · exact h

theorem view_removeType (env : Env) (w : AdsWorker B V) (T : String) (ts : TypeState B V) :
    (w.removeType env T ts).view = { w.view with
        types := Function.update w.view.types T none
        timers := { k | k ∈ w.view.timers ∧ k.1 ≠ T } } := by
  have h := view_syncResourceCounts env { w with typeStates := w.typeStates.erase T } ts.typeUrl ∅
  simp only [view, removeType, View.mk.injEq] at h ⊢
  refine ⟨?_, ?_, h.2.2⟩
  · rw [h.1]
    funext T'
    rw [lookup_erase_ite, Function.update_apply]
  · ext k
    cases hk : w.resourceTimers.lookup k <;> simp [lookup_retain, hk, Option.filter, syncResourceCounts, emit]

theorem removeWatcher_cases (env : Env) (w : AdsWorker B V) (id : WatcherId) :
    (w.removeWatcher env id = (w, none) ∧ ∀ T ts, w.typeStates.lookup T = some ts → ts.watchers.lookup id = none) ∨
    ∃ T ts, w.typeStates.lookup T = some ts ∧ (ts.watchers.lookup id).isSome ∧
      (w.removeWatcher env id).2 = some (T, decide ((dropWatcher ts id).subscription ≠ ts.subscription)) ∧
      (((∃ i, (ts.watchers.erase id).lookup i ≠ none) ∧
          (w.removeWatcher env id).1.view = w.view.setType T (dropWatcher ts id)) ∨
        ((∀ i, (ts.watchers.erase id).lookup i = none) ∧ (w.removeWatcher env id).1.view = { w.view with
              types := Function.update w.view.types T none
              timers := { k | k ∈ w.view.timers ∧ k.1 ≠ T } })) := by
  rw [removeWatcher]
  split
  · rename_i h
    refine .inl ⟨rfl, fun T ts hts => ?_⟩
    have := List.find?_eq_none.1 h ⟨T, ts⟩ (env.order.mem_entries.2 (mem_entries.2 hts))
    simpa using this
  · rename_i T ts h
    have hts : w.typeStates.lookup T = some ts := mem_entries.1 (env.order.mem_entries.1 (mem_of_find?_eq_some h))
    have hid := find?_some h
    refine .inr ⟨T, ts, hts, hid, ?_⟩
    have hw : (dropWatcher ts id).watchers = ts.watchers.erase id := rfl
    dsimp only
    rw [hw]
    split
    · rename_i he
      exact ⟨rfl, .inr ⟨isEmpty_iff.1 he, view_removeType env w T _⟩⟩
    · rename_i he
      refine ⟨rfl, .inl ⟨?_, view_setTypeState _ _ _⟩⟩
      by_contra hn
      exact he (isEmpty_iff.2 (by simpa using hn))

/-! ## Requests and resource timers -/

theorem mem_pendingNames : n ∈ pendingNames env ts ↔ ts.Pending n := by
  simp only [pendingNames, mem_filterMap, env.order.mem_entries, TypeState.Pending]
  constructor
  · rintro ⟨⟨id, e⟩, he, hs⟩
    cases hk : e.subscription with
    | wildcard => simp [hk] at hs
    | named m =>
      obtain ⟨hc, rfl⟩ : (ts.cache.lookup m).any (·.isRequested) = true ∧ m = n := by simpa [hk] using hs
      obtain ⟨c, hl, hr⟩ := (Option.any_eq_true _ _).1 hc
      exact ⟨⟨id, e, mem_entries.1 he, hk⟩, c, hl, by simpa [CachedResource.isRequested] using hr⟩
  · rintro ⟨⟨id, e, he, hk⟩, c, hl, hr⟩
    exact ⟨⟨id, e⟩, mem_entries.2 he, by simp [hk, hl, CachedResource.isRequested, hr]⟩

theorem view_startResourceTimer (T : String) (w : AdsWorker B V) (n : String) :
    (w.startResourceTimer T n).view = { w.view with timers := { k | k ∈ w.view.timers ∨ k = (T, n) } } := by
  rw [startResourceTimer]
  split
  · rename_i h
    have : { k | k ∈ w.view.timers ∨ k = (T, n) } = w.view.timers := by
      ext k
      refine or_iff_left_of_imp ?_
      rintro rfl
      exact h
    rw [this]
  · simp only [view_emit]
    simp only [view, View.mk.injEq, true_and]
    refine ⟨?_, by simp [XdsClient.events, Effect.event?], by simp [XdsClient.requests, Effect.request?]⟩
    ext k
    simp only [Set.mem_ofPred_eq, lookup_insert_ite]
    split <;> simp_all

theorem view_startTimers (T : String) (w : AdsWorker B V) (ns : List String) :
    (ns.foldl (startResourceTimer T) w).view =
      { w.view with timers := { k | k ∈ w.view.timers ∨ k.1 = T ∧ k.2 ∈ ns } } := by
  induction ns generalizing w with
  | nil => simp
  | cons n ns ih =>
    rw [foldl_cons, ih, view_startResourceTimer]
    simp only [View.mk.injEq, and_self, and_true, true_and]
    ext ⟨T', n'⟩
    simp only [Set.mem_ofPred_eq, Prod.mk.injEq, mem_cons]
    tauto

variable (cfg : Config B) (done : ProcessingDone) {s : SessionId} {t : UInt64}

theorem view_startPendingResourceTimers (env : Env) (w : AdsWorker B V) (T : String) :
    (w.startPendingResourceTimers cfg env T).view =
      if cfg.resourceInitialTimeout.isSome then w.view.startPending T else w.view := by
  rw [startPendingResourceTimers]
  split
  · rename_i ht hts
    rw [view_startTimers, if_pos (by simp [ht])]
    simp [startPending, hts, mem_pendingNames]
  · rename_i h
    split
    · rename_i ht
      obtain ⟨t, ht⟩ := Option.isSome_iff_exists.1 ht
      have hts : ∀ ts, w.typeStates.lookup T ≠ some ts := fun ts => h t ts ht
      simp [startPending, hts]
    · rfl

theorem view_write (env : Env) (w : AdsWorker B V) (s : SessionId) (r : DiscoveryRequest) :
    (w.write cfg env s r).1.view = w.view.ask s r := by
  rw [write, view_emit]
  simp [View.ask, XdsClient.events, XdsClient.requests, Effect.event?, Effect.request?]

theorem sendRequest_cases (env : Env) (s : SessionId) (h : w.typeStates.lookup T = some ts) :
    ((w.sendRequest cfg env s T).2 = .ok () ∧ (w.sendRequest cfg env s T).1.view =
        if cfg.resourceInitialTimeout.isSome then (w.view.ask s (plainRequest cfg env T ts)).startPending T
        else w.view.ask s (plainRequest cfg env T ts)) ∨
    ((∃ e, (w.sendRequest cfg env s T).2 = .error e) ∧
      (w.sendRequest cfg env s T).1.view = w.view.ask s (plainRequest cfg env T ts)) := by
  have hw := view_write cfg env w s (plainRequest cfg env T ts)
  rw [sendRequest, h]
  dsimp only
  cases hs : (w.write cfg env s (plainRequest cfg env T ts)).2 with
  | ok _ => exact .inl ⟨rfl, by rw [view_startPendingResourceTimers, hw]⟩
  | error e => exact .inr ⟨⟨e, rfl⟩, hw⟩

theorem sendRequest_none (env : Env) (s : SessionId) (h : w.typeStates.lookup T = none) :
    w.sendRequest cfg env s T = (w, .ok ()) := by
  rw [sendRequest, h]

/-- Writing requests: only timers of pending names and requests for existing types are added. -/
structure Sends (cfg : Config B) (env : Env) (s : SessionId) (v v' : View B V) : Prop where
  types : v'.types = v.types
  events : v'.events = v.events
  requests : ∀ q ∈ v'.requests, q ∈ v.requests ∨ ∃ T ts, v.types T = some ts ∧ q = (s, plainRequest cfg env T ts)
  keeps_timers : v.timers ⊆ v'.timers
  new_timers : ∀ k ∈ v'.timers, k ∈ v.timers ∨ ∃ ts, v.types k.1 = some ts ∧ ts.Pending k.2

theorem Sends.refl (env : Env) (s : SessionId) (v : View B V) : Sends cfg env s v v :=
  ⟨rfl, rfl, fun _ => .inl, subset_rfl, fun _ => .inl⟩

theorem Sends.trans {cfg : Config B} {v₁ v₂ v₃ : View B V} (h : Sends cfg env s v₁ v₂)
    (h' : Sends cfg env s v₂ v₃) : Sends cfg env s v₁ v₃ where
  types := h'.types.trans h.types
  events := h'.events.trans h.events
  requests q hq := (h'.requests q hq).elim (h.requests q) fun ⟨T, ts, hts, hq⟩ => .inr ⟨T, ts, h.types ▸ hts, hq⟩
  keeps_timers := h.keeps_timers.trans h'.keeps_timers
  new_timers k hk := (h'.new_timers k hk).elim (h.new_timers k) fun ⟨ts, hts, hp⟩ => .inr ⟨ts, h.types ▸ hts, hp⟩

theorem Sends.ask (env : Env) (s : SessionId) (h : v.types T = some ts) :
    Sends cfg env s v (v.ask s (plainRequest cfg env T ts)) where
  types := rfl
  events := rfl
  requests _ hq := (List.mem_append.1 hq).imp id fun hq => ⟨T, ts, h, List.mem_singleton.1 hq⟩
  keeps_timers := subset_rfl
  new_timers _ := .inl

theorem Sends.startPending (env : Env) (s : SessionId) (v : View B V) (T : String) :
    Sends cfg env s v (v.startPending T) where
  types := rfl
  events := rfl
  requests _ := .inl
  keeps_timers _ := .inl
  new_timers _ hk := hk.imp id fun ⟨hT, ts, hts, hp⟩ => ⟨ts, hT ▸ hts, hp⟩

def TimersRun (cfg : Config B) (v : View B V) (T : String) : Prop :=
  cfg.resourceInitialTimeout.isSome → ∀ ts n, v.types T = some ts → ts.Pending n → (T, n) ∈ v.timers

theorem TimersRun.mono {cfg : Config B} {v' : View B V} (h : TimersRun cfg v T)
    (hs : Sends cfg env s v v') : TimersRun cfg v' T := fun ht ts n hts hp =>
  hs.keeps_timers (h ht ts n (hs.types ▸ hts) hp)

theorem startPendingResourceTimers_spec (env : Env) (s : SessionId) (w : AdsWorker B V) (T : String) :
    Sends cfg env s w.view (w.startPendingResourceTimers cfg env T).view ∧
      TimersRun cfg (w.startPendingResourceTimers cfg env T).view T := by
  rw [view_startPendingResourceTimers]
  split
  · exact ⟨.startPending _ _ _ _ _, fun _ ts n hts hp => .inr ⟨rfl, ts, hts, hp⟩⟩
  · rename_i h
    exact ⟨.refl _ _ _ _, fun ht => absurd ht h⟩

theorem sendRequest_spec (env : Env) (s : SessionId) (w : AdsWorker B V) (T : String) :
    Sends cfg env s w.view (w.sendRequest cfg env s T).1.view ∧
      ((w.sendRequest cfg env s T).2 = .ok () → TimersRun cfg (w.sendRequest cfg env s T).1.view T) := by
  cases h : w.typeStates.lookup T with
  | none =>
    rw [sendRequest_none cfg env s h]
    exact ⟨.refl _ _ _ _, fun _ _ ts _ hts => by rw [view_types, h] at hts; cases hts⟩
  | some ts =>
    have ha := Sends.ask cfg env s (v := w.view) h
    obtain ⟨-, hv⟩ | ⟨⟨e, he⟩, hv⟩ := sendRequest_cases cfg env s h
    · rw [hv]
      split
      · exact ⟨ha.trans (.startPending _ _ _ _ _), fun _ _ ts n hts hp => .inr ⟨rfl, ts, hts, hp⟩⟩
      · rename_i ht
        exact ⟨ha, fun _ ht' => absurd ht' ht⟩
    · rw [hv, he]
      exact ⟨ha, nofun⟩

theorem sendRequests_spec (env : Env) (s : SessionId) (Ts : List String) (w : AdsWorker B V) :
    Sends cfg env s w.view (sendRequests cfg env s w Ts).1.view ∧
      ((sendRequests cfg env s w Ts).2 = .ok () → ∀ T ∈ Ts, TimersRun cfg (sendRequests cfg env s w Ts).1.view T) := by
  induction Ts generalizing w with
  | nil => exact ⟨.refl _ _ _ _, by simp⟩
  | cons T Ts ih =>
    obtain ⟨hs, ht⟩ := sendRequest_spec cfg env s w T
    obtain ⟨ihs, iht⟩ := ih (w.sendRequest cfg env s T).1
    rw [sendRequests]
    cases hr : (w.sendRequest cfg env s T).2 with
    | error e => exact ⟨hs, nofun⟩
    | ok _ =>
      refine ⟨hs.trans ihs, fun hok T' hT' => ?_⟩
      rcases List.mem_cons.1 hT' with rfl | hT'
      · exact (ht hr).mono ihs
      · exact iht hok T' hT'

/-! ## Responses -/

@[simp] theorem share_eq : done.share = done := rfl

theorem dispatchResource_eq (env : Env) (T : String) (done : ProcessingDone) (w : AdsWorker B V) (ts : TypeState B V)
    (r : DecodedResource V) (a : AcceptedResource B) :
    (dispatchResource env T done w ts r a).2 = { ts with cache := (accept r a).apply ts.cache } ∧
      (dispatchResource env T done w ts r a).1.view.setType T (dispatchResource env T done w ts r a).2 =
        w.view.update env.order T ts done [.accept r a] := by
  refine ⟨rfl, ?_⟩
  simp only [dispatchResource, view_notify, view_cancelTimer, update_singleton, setType]
  simp [cancelsTimer, CacheUpdate.name, result, CacheUpdate.apply, CacheUpdate.entry]

theorem deleteResource_eq (env : Env) (T : String) (done : ProcessingDone) (w : AdsWorker B V) (ts : TypeState B V)
    (n : String) : (deleteResource env done w ts n).2 = { ts with cache := (delete n).apply ts.cache } ∧
      (deleteResource env done w ts n).1.view.setType T (deleteResource env done w ts n).2 =
        w.view.update env.order T ts done [.delete n] := by
  refine ⟨rfl, ?_⟩
  simp only [deleteResource, view_notify, update_singleton, setType]
  simp [cancelsTimer, CacheUpdate.name, result, CacheUpdate.apply, CacheUpdate.entry]

theorem view_foldl_update {α : Type} (o : IterOrder) (T : String) (done : ProcessingDone)
    (u : α → CacheUpdate B V) (f : AdsWorker B V × TypeState B V → α → AdsWorker B V × TypeState B V)
    (hf : ∀ w ts x, (f (w, ts) x).2 = { ts with cache := (u x).apply ts.cache } ∧
      (f (w, ts) x).1.view.setType T (f (w, ts) x).2 = w.view.update o T ts done [u x])
    (xs : List α) (w : AdsWorker B V) (ts : TypeState B V) :
    (xs.foldl f (w, ts)).2 = { ts with cache := applyAll ts.cache (xs.map u) } ∧
      (xs.foldl f (w, ts)).1.view.setType T (xs.foldl f (w, ts)).2 = w.view.update o T ts done (xs.map u) := by
  induction xs generalizing w ts with
  | nil => exact ⟨rfl, (update_nil _ _ _ _ _).symm⟩
  | cons x xs ih =>
    obtain ⟨hts, hv⟩ := hf w ts x
    obtain ⟨ihts, ihv⟩ := ih (f (w, ts) x).1 (f (w, ts) x).2
    rw [foldl_cons, map_cons]
    refine ⟨by rw [ihts, hts]; rfl, ?_⟩
    rw [ihv, ← setType_update _ _ _ _ (f (w, ts) x).2, hv, hts]
    exact update_update _ _ _ _ _ [u x] _

theorem view_dispatchResources (env : Env) (h : w.typeStates.lookup T = some ts)
    (rs : List (DecodedResource V × AcceptedResource B)) (done : ProcessingDone) :
    (w.dispatchResources env T rs done).view = w.view.update env.order T ts done (rs.map fun r => .accept r.1 r.2) := by
  rw [dispatchResources, h]
  rw [view_syncResourceCounts, view_setTypeState]
  have hf := view_foldl_update env.order T done
    (fun r : DecodedResource V × AcceptedResource B => .accept r.1 r.2)
    (fun p r => dispatchResource env T done p.1 p.2 r.1 r.2)
    (fun w ts r => dispatchResource_eq env T done w ts r.1 r.2) rs w ts
  exact hf.2

theorem view_notifyResourceError (env : Env) (h : w.typeStates.lookup T = some ts) (n : String)
    (r : RejectedUpdate) (done : ProcessingDone) :
    (w.notifyResourceError env T n r done).view = w.view.update env.order T ts done [.reject n r] := by
  rw [notifyResourceError, h]
  rw [view_notify, view_cancelTimer, view_syncResourceCounts, view_setTypeState, update_singleton]
  simp [setType, cancelsTimer, CacheUpdate.name, result, CacheUpdate.apply, CacheUpdate.entry]

theorem view_notifyResourceErrors (env : Env) (T : String) (v : String) (done : ProcessingDone)
    (es : List (String × String)) (w : AdsWorker B V) (ts : TypeState B V) (h : w.typeStates.lookup T = some ts) :
    (es.foldl (fun w e => w.notifyResourceError env T e.1 ⟨v, e.2, env.now⟩ done) w).view =
      w.view.update env.order T ts done (es.map fun e => .reject e.1 ⟨v, e.2, env.now⟩) := by
  induction es generalizing w ts with
  | nil => exact ((update_nil _ _ _ _ _).trans (setType_self h)).symm
  | cons e es ih =>
    have hv := view_notifyResourceError env h e.1 ⟨v, e.2, env.now⟩ done
    rw [foldl_cons, ih _ _ (lookup_of_view hv (Function.update_self _ _ _)), hv, update_update]
    rfl

theorem view_detectDeletedResources (env : Env) (h : w.typeStates.lookup T = some ts) (rs : Finset String)
    (done : ProcessingDone) : (w.detectDeletedResources env T rs done).view = w.view.update env.order T ts done
        (if ts.allResourcesRequiredInSotw then (deletedNames env ts rs).map .delete else []) := by
  rw [detectDeletedResources, h]
  dsimp only
  split
  · rw [view_syncResourceCounts, view_setTypeState]
    exact (view_foldl_update env.order T done .delete (fun p n => deleteResource env done p.1 p.2 n)
      (fun w ts n => deleteResource_eq env T done w ts n) _ w ts).2
  · exact ((update_nil _ _ _ _ _).trans (setType_self h)).symm

theorem view_handleResourceTimeout (env : Env) (hid : w.resourceTimers.lookup (T, n) = some t)
    (h : w.typeStates.lookup T = some ts) (hp : ∀ c, ts.cache.lookup n = some c → c.state = .requested) :
    (w.handleResourceTimeout env T n t).view = w.view.update env.order T ts .detached [.expire n] := by
  have hp' : ((ts.cache.lookup n).map (·.isRequested)).getD true = true := by
    cases hc : ts.cache.lookup n with
    | none => rfl
    | some c => simp [CachedResource.isRequested, hp c hc]
  have hc : (w.cancelTimer T n).typeStates.lookup T = some ts := h
  rw [handleResourceTimeout, if_neg (by simp [hid])]
  simp only [hc, hp', if_true]
  rw [view_notify, view_syncResourceCounts, view_setTypeState, view_cancelTimer, update_singleton]
  simp [setType, cancelsTimer, CacheUpdate.name, result, CacheUpdate.apply, CacheUpdate.entry]

theorem view_handleResourceTimeout_lapse (env : Env) (hid : w.resourceTimers.lookup (T, n) = some t)
    (hp : ∀ ts, w.typeStates.lookup T = some ts → ∃ c, ts.cache.lookup n = some c ∧ c.state ≠ .requested) :
    (w.handleResourceTimeout env T n t).view = { w.view with timers := { k | k ∈ w.view.timers ∧ k ≠ (T, n) } } := by
  have hc : (w.cancelTimer T n).typeStates = w.typeStates := rfl
  rw [handleResourceTimeout, if_neg (by simp [hid]), ← view_cancelTimer]
  simp only [hc]
  cases hts : w.typeStates.lookup T with
  | none => rfl
  | some ts =>
    obtain ⟨c, hl, hr⟩ := hp ts hts
    simp [hl, CachedResource.isRequested, hr]

theorem view_modifyTypeState (h : w.typeStates.lookup T = some ts) (f : TypeState B V → TypeState B V) :
    (w.modifyTypeState T f).view = w.view.setType T (f ts) := by
  rw [modifyTypeState, h]
  exact view_setTypeState _ _ _

def decodedUpdates (env : Env) (ts : TypeState B V) (response : DiscoveryResponse B) : List (CacheUpdate B V) :=
  (validResources ts.decoder env.now response).map (fun r => .accept r.1 r.2) ++
    (perResourceErrors ts.decoder response).map fun e => .reject e.1 ⟨response.versionInfo, e.2, env.now⟩

def receivedNames (env : Env) (ts : TypeState B V) (response : DiscoveryResponse B) : Finset String :=
  ((validResources ts.decoder env.now response).map (·.1.name)).toFinset

def responseUpdates (env : Env) (ts : TypeState B V) (response : DiscoveryResponse B) : List (CacheUpdate B V) :=
  decodedUpdates env ts response ++
    if ts.allResourcesRequiredInSotw then
      (deletedNames env { ts with cache := CacheUpdate.applyAll ts.cache (decodedUpdates env ts response) }
        (receivedNames env ts response)).map .delete
    else []

theorem responseUpdates_cases {u : CacheUpdate B V} (h : u ∈ responseUpdates env ts response) :
    (∃ rs a, u = .accept rs a) ∨ (∃ name rj, u = .reject name rj) ∨
      ∃ name ∈ deletedNames env { ts with cache := applyAll ts.cache (decodedUpdates env ts response) }
        (receivedNames env ts response), u = .delete name := by
  rcases List.mem_append.1 h with h | h
  · rcases List.mem_append.1 h with h | h
    · obtain ⟨r, -, rfl⟩ := List.mem_map.1 h
      exact .inl ⟨_, _, rfl⟩
    · obtain ⟨e, -, rfl⟩ := List.mem_map.1 h
      exact .inr (.inl ⟨_, _, rfl⟩)
  · split at h
    · obtain ⟨name, hn, rfl⟩ := List.mem_map.1 h
      exact .inr (.inr ⟨name, hn, rfl⟩)
    · cases h

theorem mem_validResources {d : DecoderFn B V} {now : Nat} {any : ResourceAny B} (ha : any ∈ response.resources)
    {n : String} {r : DecodedResource V} (hd : d any.value = .success n r) :
    (r, ⟨response.versionInfo, any, now⟩) ∈ validResources d now response :=
  List.mem_filterMap.2 ⟨any, ha, by rw [hd]⟩

theorem notMem_of_mem_deletedNames {names : Finset String} (h : n ∈ deletedNames env ts names) : n ∉ names := by
  obtain ⟨e, he, rfl⟩ := List.mem_map.1 h
  have := (List.mem_filter.1 he).2
  simp_all

theorem mem_perResourceErrors {d : DecoderFn B V} {any : ResourceAny B} (ha : any ∈ response.resources)
    {n : String} {e : Error} (hd : d any.value = .resourceError n e) :
    (n, e.toString) ∈ perResourceErrors d response :=
  List.mem_filterMap.2 ⟨any, ha, by rw [hd]⟩

/-- A resource is only deleted if it is cached as received once the response's own resources are stored. -/
theorem received_of_delete (h : delete n ∈ responseUpdates env ts response) :
    ∃ c, (applyAll ts.cache (decodedUpdates env ts response)).lookup n = some c ∧ c.state.isReceived = true := by
  obtain ⟨_, _, h⟩ | ⟨_, _, h⟩ | ⟨n', hn', h⟩ := responseUpdates_cases h
  · cases h
  · cases h
  · cases h
    obtain ⟨e, he, rfl⟩ := List.mem_map.1 hn'
    obtain ⟨he, hr⟩ := List.mem_filter.1 he
    exact ⟨e.2, mem_entries.1 (env.order.mem_entries.1 he), by simp_all⟩

def nackError (ts : TypeState B V) (response : DiscoveryResponse B) : Option String :=
  nackErrorMessage (topLevelErrors ts.decoder response) (perResourceErrors ts.decoder response)

def afterResponse (env : Env) (ts : TypeState B V) (response : DiscoveryResponse B) : TypeState B V :=
  { ts with
    nonce := response.nonce
    versionInfo := if (nackError ts response).isNone then response.versionInfo else ts.versionInfo
    cache := CacheUpdate.applyAll ts.cache (responseUpdates env ts response) }

def reply (cfg : Config B) (env : Env) (ts : TypeState B V) (response : DiscoveryResponse B) : DiscoveryRequest :=
  { plainRequest cfg env response.typeUrl (afterResponse env ts response) with
    errorDetail := (nackError ts response).map (⟨3, ·⟩) }

theorem handleResponse_none (env : Env) (s : SessionId) (h : w.typeStates.lookup response.typeUrl = none)
    {done : ProcessingDone} : w.handleResponse cfg env s response done = (w, .ok ()) := by
  rw [handleResponse, h]

theorem view_handleResponse (env : Env) (s : SessionId) (h : w.typeStates.lookup response.typeUrl = some ts)
    (done : ProcessingDone) : (w.handleResponse cfg env s response done).1.view =
      ((w.view.update env.order response.typeUrl ts done (responseUpdates env ts response)).setType response.typeUrl
        (afterResponse env ts response)).ask s (reply cfg env ts response) := by
  -- The state after each statement of the method, up to the ACK or NACK.
  let ts₁ : TypeState B V := { ts with nonce := response.nonce }
  let w₁ := w.emit ((w.recorder.recordResourceUpdates ts.typeUrl (validResources ts.decoder env.now response).length
    ((topLevelErrors ts.decoder response).length + (perResourceErrors ts.decoder response).length)).map .measure)
  let w₂ := w₁.modifyTypeState response.typeUrl fun ts => { ts with nonce := response.nonce }
  let w₃ := w₂.dispatchResources env response.typeUrl (validResources ts.decoder env.now response) done
  let w₄ := (perResourceErrors ts.decoder response).foldl
    (fun w e => w.notifyResourceError env response.typeUrl e.1 ⟨response.versionInfo, e.2, env.now⟩ done) w₃
  let w₅ := w₄.detectDeletedResources env response.typeUrl (receivedNames env ts response) done
  have h₁ : w₁.typeStates.lookup response.typeUrl = some ts := h
  have v₂ : w₂.view = w.view.setType response.typeUrl ts₁ := by
    rw [view_modifyTypeState h₁]
    exact congrArg (setType · _ _) (view_emit_measure _ _)
  have v₃ : w₃.view = w.view.update env.order response.typeUrl ts₁ done
      ((validResources ts.decoder env.now response).map fun r => .accept r.1 r.2) := by
    rw [view_dispatchResources env (lookup_of_view v₂ (Function.update_self _ _ _)), v₂, setType_update]
  have v₄ : w₄.view = w.view.update env.order response.typeUrl ts₁ done (decodedUpdates env ts response) := by
    rw [view_notifyResourceErrors env _ _ done _ w₃ _ (lookup_of_view v₃ (Function.update_self _ _ _)), v₃,
      update_update]
    rfl
  have v₅ : w₅.view = w.view.update env.order response.typeUrl ts₁ done (responseUpdates env ts response) := by
    rw [view_detectDeletedResources env (lookup_of_view v₄ (Function.update_self _ _ _)), v₄, update_update]
    rfl
  have h₅ := lookup_of_view v₅ (Function.update_self _ _ _)
  cases hn : nackError ts response with
  | none =>
    have hr : w.handleResponse cfg env s response done =
        (w₅.modifyTypeState response.typeUrl fun ts => { ts with versionInfo := response.versionInfo }).sendAck
          cfg env s response := by
      rw [nackError] at hn
      rw [handleResponse, h]
      dsimp only
      rw [hn]
      rfl
    have v₆ := view_modifyTypeState h₅ fun ts => { ts with versionInfo := response.versionInfo }
    have h₆ := lookup_of_view v₆ (Function.update_self _ _ _)
    rw [hr, sendAck, h₆]
    rw [view_write, v₆, v₅]
    simp [reply, plainRequest, afterResponse, hn, setType, update, ts₁, TypeState.resourceNamesForRequest]
  | some error =>
    have hr : w.handleResponse cfg env s response done = w₅.sendNack cfg env s response error := by
      rw [nackError] at hn
      rw [handleResponse, h]
      dsimp only
      rw [hn]
      rfl
    rw [hr, sendNack, h₅]
    rw [view_write, v₅]
    simp [reply, plainRequest, afterResponse, hn, setType, update, ts₁, TypeState.resourceNamesForRequest]

end AdsWorker
end XdsClient
