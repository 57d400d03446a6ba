import GrpcRust.XdsClient.Methods
/-!
# The resource gauges show the cache

A push gauge keeps what it was last told. `Account` is what the worker's own record concerns.
-/

namespace XdsClient

open Lib List

variable {B V : Type}

/-! ## What was pushed -/

abbrev Push := List KeyValue × Int

def Measurement.push? : Measurement → Option Push
  | .recordGauge .xdsClientResources value attrs => some (attrs, value)
  | _ => none

def Effect.push? : Effect B V → Option Push
  | .measure m => m.push?
  | _ => none

def pushes (es : List (Effect B V)) : List Push := es.filterMap Effect.push?

def lastPushed (ps : List Push) (attrs : List KeyValue) : Option Int :=
  (ps.filterMap fun p => if p.1 = attrs then some p.2 else none).getLast?

def gaugeAttrs (target T label : String) : List KeyValue := ClientAttrs.cacheStateAttrs ⟨target, ""⟩ T label

theorem cacheStateAttrs_eq (ar : ClientAttrs) (T label : String) :
    ar.cacheStateAttrs T label = gaugeAttrs ar.target T label := rfl

theorem gaugeAttrs_inj {t T T' l l' : String} : gaugeAttrs t T l = gaugeAttrs t T' l' ↔ T = T' ∧ l = l' := by
  simp [gaugeAttrs, ClientAttrs.cacheStateAttrs]

@[simp] theorem pushes_nil : pushes ([] : List (Effect B V)) = [] := rfl

@[simp] theorem pushes_append (es fs : List (Effect B V)) : pushes (es ++ fs) = pushes es ++ pushes fs :=
  filterMap_append

theorem pushes_measure (ms : List Measurement) :
    pushes (ms.map (.measure : _ → Effect B V)) = ms.filterMap Measurement.push? := by
  rw [pushes, filterMap_map]
  rfl

theorem lastPushed_append (ps qs : List Push) (ar : List KeyValue) :
    lastPushed (ps ++ qs) ar = (lastPushed qs ar).or (lastPushed ps ar) := by
  rw [lastPushed, filterMap_append, getLast?_append]
  rfl

def labelled (cache : Cache B V) (label : String) : Nat :=
  cache.entries.countP fun e => e.2.state.cacheStateLabel = label

theorem cacheStateLabel_eq_iff (s s' : ResourceState) :
    s.cacheStateLabel = s'.cacheStateLabel ↔ s.status = s'.status := by
  cases s <;> cases s' <;> simp [ResourceState.cacheStateLabel, ResourceState.status]

theorem lookup_resourceStateCounts (ts : TypeState B V) (label : String) :
    (ts.resourceStateCounts.lookup label).getD 0 = labelled ts.cache label := by
  -- The counts so far and the entries to come add up.
  have hf : ∀ (l : List (Sigma fun _ : String => CachedResource B V)) (cs : HashMap String Int),
      ((l.foldl (fun cs e => cs.insert e.2.state.cacheStateLabel
          ((cs.lookup e.2.state.cacheStateLabel).getD 0 + 1)) cs).lookup label).getD 0 =
        (cs.lookup label).getD 0 + l.countP fun e => e.2.state.cacheStateLabel = label := by
    intro l
    induction l with
    | nil => simp
    | cons e l ih =>
      intro cs
      rw [foldl_cons, ih, HashMap.lookup_insert_ite, countP_cons]
      by_cases he : label = e.2.state.cacheStateLabel
      · subst he
        simp
        omega
      · simp [he, Ne.symm he]
  have := hf ts.cache.entries ∅
  simpa [TypeState.resourceStateCounts, labelled] using this

/-! ## One synchronisation -/

theorem lastPushed_table (o : IterOrder) (t T T' l : String) (m : HashMap String Int)
    (p : (Sigma fun _ : String => Int) → Bool) (f : Int → Int) :
    lastPushed (((o.entries m.entries).filter p).map fun e => (gaugeAttrs t T e.1, f e.2))
        (gaugeAttrs t T' l) =
      if T = T' then (m.lookup l).bind fun v => if p ⟨l, v⟩ then some (f v) else none else none := by
  have he : ∀ e : Sigma fun _ : String => Int, (if p e then if T = T' ∧ e.1 = l then some (f e.2) else none else none) =
        if e.1 = l then if T = T' then if p ⟨l, e.2⟩ then some (f e.2) else none else none else none := by
    rintro ⟨k, v⟩
    by_cases hk : k = l
    · subst hk
      by_cases hT : T = T' <;> simp [hT]
    · simp [hk]
  rw [lastPushed, filterMap_map, filterMap_filter]
  simp only [Function.comp_def, gaugeAttrs_inj, he]
  rw [HashMap.filterMap_entries o m l fun v => if T = T' then if p ⟨l, v⟩ then some (f v) else none else none]
  by_cases hT : T = T'
  · simp only [hT, if_true]
    cases (m.lookup l).bind _ <;> rfl
  · cases m.lookup l <;> simp [hT]

namespace RecorderHandle
variable {h : RecorderHandle}

def onRecord (h : RecorderHandle) (T label : String) : Option Int := ((h.resourceCounts.lookup T).getD ∅).lookup label

theorem onRecord_sync (hr : h.recorder = true) (o : IterOrder) (T : String) (cs : HashMap String Int)
    (T' label : String) :
    (h.syncResourceCounts o T cs).1.onRecord T' label = if T' = T then cs.lookup label else h.onRecord T' label := by
  simp only [syncResourceCounts, hr, if_true, onRecord, HashMap.lookup_insert_ite]
  split <;> rfl

theorem lastPushed_sync (hr : h.recorder = true) (o : IterOrder) (T : String) (cs : HashMap String Int)
    (T' l : String) : lastPushed ((h.syncResourceCounts o T cs).2.filterMap Measurement.push?)
        (gaugeAttrs h.attrs.target T' l) =
      if T = T' then
        ((h.onRecord T l).bind fun _ => if (cs.lookup l).isNone then some 0 else none).or
          ((cs.lookup l).bind fun v => if h.onRecord T l = some v then none else some v)
      else none := by
  have hp : (h.syncResourceCounts o T cs).2.filterMap Measurement.push? = ((o.entries cs.entries).filter fun e =>
          ((h.resourceCounts.lookup T).getD ∅).lookup e.1 ≠ some e.2).map
        (fun e => (gaugeAttrs h.attrs.target T e.1, e.2)) ++
      ((o.entries ((h.resourceCounts.lookup T).getD ∅).entries).filter fun e => (cs.lookup e.1).isNone).map
        fun e => (gaugeAttrs h.attrs.target T e.1, 0) := by
    simp only [syncResourceCounts, hr, if_true, filterMap_append, filterMap_map, Function.comp_def,
      Measurement.push?, cacheStateAttrs_eq, filterMap_eq_map']
  rw [hp, lastPushed_append, lastPushed_table o _ T T' l cs _ fun v => v, lastPushed_table o _ T T' l _ _ fun _ => 0]
  by_cases hT : T = T'
  · cases hc : cs.lookup l with
    | none => simp [hT, hc, onRecord]
    | some c => by_cases hv : ((h.resourceCounts.lookup T).getD ∅).lookup l = some c <;> simp [hT, hc, hv, onRecord]
  · simp [hT]

theorem shown_sync (hr : h.recorder = true) (o : IterOrder) (T : String) (cs : HashMap String Int)
    {T' l : String} {s : Option Int} (hs : s.getD 0 = (h.onRecord T' l).getD 0) :
    ((lastPushed ((h.syncResourceCounts o T cs).2.filterMap Measurement.push?)
        (gaugeAttrs h.attrs.target T' l)).or s).getD 0 =
      ((h.syncResourceCounts o T cs).1.onRecord T' l).getD 0 := by
  rw [lastPushed_sync hr, onRecord_sync hr]
  by_cases hT : T' = T
  · subst hT
    cases hc : cs.lookup l with
    | none =>
      cases hrc : h.onRecord T' l with
      | none => simpa [hrc] using hs
      | some v => simp
    | some c =>
      by_cases hrc : h.onRecord T' l = some c
      · simpa [hrc] using hs
      · simp [hrc]
  · simpa [hT, Ne.symm hT] using hs

/-! The other measurements are of other instruments. -/

theorem push_recordConnected (h : RecorderHandle) (c : Bool) :
    (h.recordConnected c).filterMap Measurement.push? = [] := by
  rw [recordConnected]
  split <;> rfl

theorem push_recordServerFailure (h : RecorderHandle) : h.recordServerFailure.filterMap Measurement.push? = [] := by
  rw [recordServerFailure]
  split <;> rfl

theorem push_recordResourceUpdates (h : RecorderHandle) (T : String) (v iv : Nat) :
    (h.recordResourceUpdates T v iv).filterMap Measurement.push? = [] := by
  rw [recordResourceUpdates]
  by_cases hv : 0 < v <;> by_cases hi : 0 < iv <;> cases h.recorder <;> simp [hv, hi, Measurement.push?]

end RecorderHandle

/-! ## The account of a worker -/

/-- What the gauges are about: the recorder, what the turn has pushed, and each type's URL and cache. -/
structure Account (B V : Type) where
  recorder : RecorderHandle
  pushed : List Push
  caches : String → Option (String × Cache B V)

namespace Account

def labelled (a : Account B V) (T label : String) : Nat :=
  ((a.caches T).map fun c => XdsClient.labelled c.2 label).getD 0

/-- The gauges show what is on record, and on record are the caches. -/
structure Agrees (target : String) (past : List Push) (a : Account B V) : Prop where
  configured : a.recorder.recorder = true
  targeted : a.recorder.attrs.target = target
  keyed : ∀ T c, a.caches T = some c → c.1 = T
  shown : ∀ T label, (lastPushed (past ++ a.pushed) (gaugeAttrs target T label)).getD 0 =
    (a.recorder.onRecord T label).getD 0
  onRecord : ∀ T label, (a.recorder.onRecord T label).getD 0 = a.labelled T label

variable (a : Account B V) (T : String)

def recache (cache : Option (Cache B V)) : Account B V :=
  { a with caches := Function.update a.caches T (cache.map (T, ·)) }

theorem caches_recache (c : Option (Cache B V)) (T' : String) :
    (a.recache T c).caches T' = if T' = T then c.map (T, ·) else a.caches T' :=
  Function.update_apply _ _ _ _

theorem labelled_recache (cc : Option (Cache B V)) (T' label : String) : (a.recache T cc).labelled T' label =
      if T' = T then (cc.map fun c => XdsClient.labelled c label).getD 0 else a.labelled T' label := by
  rw [labelled, caches_recache]
  split
  · cases cc <;> rfl
  · rfl

theorem keyed_recache {a : Account B V} (h : ∀ T c, a.caches T = some c → c.1 = T) (T : String)
    (cc : Option (Cache B V)) : ∀ T' c, (a.recache T cc).caches T' = some c → c.1 = T' := by
  intro T' c hc
  rw [caches_recache] at hc
  split at hc
  · rename_i hT
    obtain ⟨c', -, rfl⟩ := Option.map_eq_some_iff.1 hc
    exact hT.symm
  · exact h T' c hc

def sync (order : IterOrder) (a : Account B V) (T : String) (counts : HashMap String Int) : Account B V :=
  let synced := a.recorder.syncResourceCounts order T counts
  { a with recorder := synced.1, pushed := a.pushed ++ synced.2.filterMap Measurement.push? }

section
variable {tr : String} {past : List Push} {a : Account B V} {cc : Option (Cache B V)}

theorem Agrees.sync_recache (h : a.Agrees tr past) (o : IterOrder) (T : String) {cs : HashMap String Int}
    (hc : ∀ label, (cs.lookup label).getD 0 = (cc.map fun c => XdsClient.labelled c label).getD 0) :
    ((a.recache T cc).sync o T cs).Agrees tr past := by
  have hr : ∀ T' label, (((a.recache T cc).sync o T cs).recorder.onRecord T' label) =
      if T' = T then cs.lookup label else a.recorder.onRecord T' label :=
    RecorderHandle.onRecord_sync h.configured o T cs
  have hsy : ((a.recache T cc).sync o T cs).recorder.recorder = a.recorder.recorder ∧
      ((a.recache T cc).sync o T cs).recorder.attrs = a.recorder.attrs := by
    simp [sync, recache, RecorderHandle.syncResourceCounts, h.configured]
  refine ⟨hsy.1.trans h.configured, hsy.2 ▸ h.targeted, keyed_recache h.keyed T cc, fun T' label => ?_,
    fun T' label => ?_⟩
  · have hs := RecorderHandle.shown_sync h.configured o T cs (h.shown T' label)
    rw [h.targeted] at hs
    rw [← lastPushed_append, append_assoc] at hs
    exact hs
  · have hl : ((a.recache T cc).sync o T cs).labelled T' label = (a.recache T cc).labelled T' label := rfl
    rw [hr, hl, labelled_recache]
    split
    · exact_mod_cast hc label
    · exact h.onRecord T' label

theorem Agrees.recache (h : a.Agrees tr past) (T : String)
    (hc : ∀ l, (cc.map fun c => XdsClient.labelled c l).getD 0 = a.labelled T l) : (a.recache T cc).Agrees tr past := by
  refine ⟨h.configured, h.targeted, keyed_recache h.keyed T cc, h.shown, fun T' l => ?_⟩
  rw [labelled_recache]
  split
  · rename_i hT
    subst hT
    rw [hc]
    exact h.onRecord T' l
  · exact h.onRecord T' l

end

end Account

namespace AdsWorker

def account (w : AdsWorker B V) : Account B V where
  recorder := w.recorder
  pushed := pushes w.outbox
  caches T := (w.typeStates.lookup T).map fun ts => (ts.typeUrl, ts.cache)

/-! ## Methods that leave the account alone -/

theorem account_emit (w : AdsWorker B V) {es : List (Effect B V)} (h : pushes es = []) :
    (w.emit es).account = w.account := by
  simp [account, emit, h]

variable (cfg : Config B) (env : Env) (s : SessionId)

variable (w : AdsWorker B V) (T : String) (healthy : Bool)

@[simp] theorem account_notify (ts : TypeState B V) (n : String) (r : Except Error (DecodedResource V))
    (done : ProcessingDone) : (w.notify env ts n r done).account = w.account := by
  apply account_emit
  simp [pushes, filterMap_map, Function.comp_def, Effect.push?]

@[simp] theorem account_cancelTimer (T n : String) : (w.cancelTimer T n).account = w.account := rfl

@[simp] theorem account_startResourceTimer (w : AdsWorker B V) (n : String) :
    (w.startResourceTimer T n).account = w.account := by
  rw [startResourceTimer]
  split
  · rfl
  · exact account_emit _ rfl

@[simp] theorem account_startPendingResourceTimers : (w.startPendingResourceTimers cfg env T).account = w.account := by
  have hf : ∀ (ns : List String) (w : AdsWorker B V), (ns.foldl (startResourceTimer T) w).account = w.account := by
    intro ns
    induction ns with
    | nil => intro w; rfl
    | cons n ns ih => intro w; rw [foldl_cons, ih, account_startResourceTimer]
  rw [startPendingResourceTimers]
  split
  · exact hf _ _
  · rfl

@[simp] theorem account_write (s : SessionId) (r : DiscoveryRequest) : (w.write cfg env s r).1.account = w.account :=
  account_emit _ rfl

@[simp] theorem account_sendRequest (s : SessionId) (T : String) :
    (w.sendRequest cfg env s T).1.account = w.account := by
  rw [sendRequest]
  cases w.typeStates.lookup T with
  | none => rfl
  | some ts =>
    dsimp only
    split
    · rw [account_startPendingResourceTimers, account_write]
    · rw [account_write]

theorem account_sendRequests (Ts : List String) (w : AdsWorker B V) :
    (sendRequests cfg env s w Ts).1.account = w.account := by
  induction Ts generalizing w with
  | nil => rfl
  | cons T Ts ih =>
    rw [sendRequests]
    split
    · rw [ih, account_sendRequest]
    · rw [account_sendRequest]

theorem account_sendAck (s : SessionId) (r : DiscoveryResponse B) : (w.sendAck cfg env s r).1.account = w.account := by
  rw [sendAck]
  cases w.typeStates.lookup r.typeUrl with
  | none => rfl
  | some ts => exact account_write _ _ _ _ _

theorem account_sendNack (s : SessionId) (r : DiscoveryResponse B) (e : String) :
    (w.sendNack cfg env s r e).1.account = w.account := by
  rw [sendNack]
  cases w.typeStates.lookup r.typeUrl with
  | none => rfl
  | some ts => exact account_write _ _ _ _ _

theorem account_measure {ms : List Measurement} (h : ms.filterMap Measurement.push? = []) :
    (w.emit (ms.map .measure)).account = w.account :=
  account_emit w (by rw [pushes_measure, h])

theorem account_recordHealthy : (w.recordHealthy healthy).account = w.account := by
  rw [recordHealthy]
  split
  · rfl
  · exact account_measure w (RecorderHandle.push_recordConnected _ _)

theorem account_recordUnhealthy : (w.recordUnhealthy healthy).account = w.account := by
  rw [recordUnhealthy]
  split
  · apply account_measure
    rw [filterMap_append, RecorderHandle.push_recordServerFailure, RecorderHandle.push_recordConnected]
    rfl
  · rfl

theorem account_setTypeState_same {w : AdsWorker B V} {T : String} {ts ts' : TypeState B V}
    (hl : w.typeStates.lookup T = some ts) (hu : ts'.typeUrl = ts.typeUrl) (hc : ts'.cache = ts.cache) :
    (w.setTypeState T ts').account = w.account := by
  rw [account, account, Account.mk.injEq]
  refine ⟨rfl, rfl, funext fun T' => ?_⟩
  by_cases hT : T' = T
  · subst hT
    simp [setTypeState, hl, hu, hc]
  · simp [setTypeState, AList.lookup_insert_ne hT]

theorem account_modifyTypeState (f : TypeState B V → TypeState B V)
    (hf : ∀ ts, (f ts).typeUrl = ts.typeUrl ∧ (f ts).cache = ts.cache) :
    (w.modifyTypeState T f).account = w.account := by
  rw [modifyTypeState]
  cases hl : w.typeStates.lookup T with
  | none => rfl
  | some ts => exact account_setTypeState_same hl (hf ts).1 (hf ts).2

/-! ## Methods that change a cache -/

theorem account_syncResourceCounts (counts : HashMap String Int) :
    (w.syncResourceCounts env T counts).account = w.account.sync env.order T counts := by
  simp [account, Account.sync, syncResourceCounts, emit, pushes_measure]

theorem account_setTypeState {T : String} {ts : TypeState B V} (hT : ts.typeUrl = T) :
    (w.setTypeState T ts).account = w.account.recache T (some ts.cache) := by
  rw [account, account, Account.recache, Account.mk.injEq]
  refine ⟨rfl, rfl, funext fun T' => ?_⟩
  rw [Function.update_apply]
  by_cases hT' : T' = T
  · subst hT'
    simp [setTypeState, hT]
  · simp [setTypeState, hT', AList.lookup_insert_ne hT']

section
variable {tr : String} {past : List Push} {w : AdsWorker B V} {T : String} {ts : TypeState B V}

theorem typeUrl_of_lookup (h : w.account.Agrees tr past) (hl : w.typeStates.lookup T = some ts) : ts.typeUrl = T :=
  h.keyed T (ts.typeUrl, ts.cache) (by simp [account, hl])

theorem agrees_replace (env : Env) (h : w.account.Agrees tr past) (hT : ts.typeUrl = T) :
    ((w.setTypeState T ts).syncResourceCounts env ts.typeUrl ts.resourceStateCounts).account.Agrees tr past := by
  rw [account_syncResourceCounts, account_setTypeState w hT, hT]
  refine h.sync_recache env.order T fun l => ?_
  rw [lookup_resourceStateCounts]
  rfl

theorem account_foldl {α : Type} {f : AdsWorker B V × TypeState B V → α → AdsWorker B V × TypeState B V}
    (hf : ∀ p x, (f p x).1.account = p.1.account ∧ (f p x).2.typeUrl = p.2.typeUrl) (xs : List α)
    (p : AdsWorker B V × TypeState B V) :
    (xs.foldl f p).1.account = p.1.account ∧ (xs.foldl f p).2.typeUrl = p.2.typeUrl := by
  induction xs generalizing p with
  | nil => exact ⟨rfl, rfl⟩
  | cons x xs ih =>
    rw [foldl_cons]
    exact ⟨(ih _).1.trans (hf p x).1, (ih _).2.trans (hf p x).2⟩

theorem registerWatcher_account (ts : TypeState B V) (name : String) (id : WatcherId) :
    (registerWatcher ts name id).1.typeUrl = ts.typeUrl ∧ pushes (registerWatcher ts name id).2.1 = [] ∧
      ((registerWatcher ts name id).2.2 = false → (registerWatcher ts name id).1.cache = ts.cache) := by
  rw [registerWatcher]
  cases WatcherSubscription.fromName name with
  | wildcard => exact ⟨rfl, rfl, fun _ => rfl⟩
  | named n =>
    dsimp only
    cases ts.cache.lookup n with
    | none => exact ⟨rfl, rfl, fun h => by cases h⟩
    | some c => cases he : c.toEvent <;> exact ⟨rfl, by simp [he, pushes, Effect.push?], fun _ => rfl⟩

theorem agrees_addWatcher (env : Env) (h : w.account.Agrees tr past) (T n : String) (id : WatcherId)
    (d : DecoderFn B V) (r : Bool) : (w.addWatcher env T n id d r).1.account.Agrees tr past := by
  have hb : (w.typeStateFor T d r).typeUrl = T ∧
      ∀ label, labelled (w.typeStateFor T d r).cache label = w.account.labelled T label := by
    rw [typeStateFor]
    cases hl : w.typeStates.lookup T with
    | none => exact ⟨rfl, fun label => by simp [Account.labelled, account, hl, TypeState.new, labelled]⟩
    | some ts => exact ⟨typeUrl_of_lookup h hl, fun label => by simp [Account.labelled, account, hl]⟩
  obtain ⟨hu, hp, hsame⟩ := registerWatcher_account (w.typeStateFor T d r) n id
  have hT := hu.trans hb.1
  have hs := account_setTypeState w hT
  have ha : (w.addWatcher env T n id d r).1 =
      if (registerWatcher (w.typeStateFor T d r) n id).2.2 then
        ((w.setTypeState T (registerWatcher (w.typeStateFor T d r) n id).1).emit
          (registerWatcher (w.typeStateFor T d r) n id).2.1).syncResourceCounts env
          (registerWatcher (w.typeStateFor T d r) n id).1.typeUrl
          (registerWatcher (w.typeStateFor T d r) n id).1.resourceStateCounts
      else (w.setTypeState T (registerWatcher (w.typeStateFor T d r) n id).1).emit
        (registerWatcher (w.typeStateFor T d r) n id).2.1 := rfl
  rw [ha]
  split
  · have hr := agrees_replace env h hT
    rw [account_syncResourceCounts] at hr ⊢
    rwa [account_emit _ hp]
  · rename_i hn
    rw [account_emit _ hp, hs]
    refine h.recache T fun label => ?_
    rw [hsame (by simpa using hn), ← hb.2]
    rfl

theorem agrees_removeType (env : Env) (h : w.account.Agrees tr past) (hT : ts.typeUrl = T) :
    (w.removeType env T ts).account.Agrees tr past := by
  have he : ({ w with typeStates := w.typeStates.erase T } : AdsWorker B V).account = w.account.recache T none := by
    rw [account, account, Account.recache, Account.mk.injEq]
    refine ⟨rfl, rfl, funext fun T' => ?_⟩
    rw [Function.update_apply, HashMap.lookup_erase_ite]
    split <;> rfl
  have hr : (w.removeType env T ts).account =
      (({ w with typeStates := w.typeStates.erase T } : AdsWorker B V).syncResourceCounts env ts.typeUrl ∅).account :=
    rfl
  rw [hr, account_syncResourceCounts, he, hT]
  exact h.sync_recache env.order T fun l => rfl

theorem agrees_removeWatcher (env : Env) (h : w.account.Agrees tr past) (id : WatcherId) :
    (w.removeWatcher env id).1.account.Agrees tr past := by
  rw [removeWatcher]
  split
  · exact h
  · rename_i T ts hf
    have hl : w.typeStates.lookup T = some ts :=
      HashMap.mem_entries.1 (env.order.mem_entries.1 (mem_of_find?_eq_some hf))
    have hT := typeUrl_of_lookup h hl
    dsimp only
    split
    · exact agrees_removeType env h hT
    · have hd : (w.setTypeState T (dropWatcher ts id)).account = w.account := account_setTypeState_same hl rfl rfl
      exact hd ▸ h

theorem agrees_dispatchResources (env : Env) (h : w.account.Agrees tr past) (T : String)
    (rs : List (DecodedResource V × AcceptedResource B)) (done : ProcessingDone) :
    (w.dispatchResources env T rs done).account.Agrees tr past := by
  rw [dispatchResources]
  cases hl : w.typeStates.lookup T with
  | none => exact h
  | some ts =>
    obtain ⟨ha, hu⟩ := account_foldl
      (f := fun p (r : DecodedResource V × AcceptedResource B) => dispatchResource env T done p.1 p.2 r.1 r.2)
      (fun p r => ⟨by rw [dispatchResource, account_notify, account_cancelTimer], rfl⟩) rs (w, ts)
    exact agrees_replace env (ha ▸ h) (hu.trans (typeUrl_of_lookup h hl))

theorem agrees_notifyResourceError (env : Env) (h : w.account.Agrees tr past) (T n : String) (r : RejectedUpdate)
    (done : ProcessingDone) : (w.notifyResourceError env T n r done).account.Agrees tr past := by
  rw [notifyResourceError]
  cases hl : w.typeStates.lookup T with
  | none => exact h
  | some ts =>
    have hT := typeUrl_of_lookup h hl
    rw [account_notify, account_cancelTimer]
    exact agrees_replace env h hT

theorem agrees_detectDeletedResources (env : Env) (h : w.account.Agrees tr past) (T : String) (ns : Finset String)
    (done : ProcessingDone) : (w.detectDeletedResources env T ns done).account.Agrees tr past := by
  rw [detectDeletedResources]
  cases hl : w.typeStates.lookup T with
  | none => exact h
  | some ts =>
    dsimp only
    split
    · obtain ⟨ha, hu⟩ := account_foldl (f := fun p n => deleteResource env done p.1 p.2 n)
        (fun p n => ⟨by rw [deleteResource, account_notify], rfl⟩) (deletedNames env ts ns) (w, ts)
      exact agrees_replace env (ha ▸ h) (hu.trans (typeUrl_of_lookup h hl))
    · exact h

theorem agrees_handleResourceTimeout (env : Env) (h : w.account.Agrees tr past) (T n : String)
    (t : UInt64) : (w.handleResourceTimeout env T n t).account.Agrees tr past := by
  rw [handleResourceTimeout]
  split
  · exact h
  · dsimp only
    have hc : (w.cancelTimer T n).typeStates.lookup T = w.typeStates.lookup T := rfl
    rw [hc]
    cases hl : w.typeStates.lookup T with
    | none => exact h
    | some ts =>
      have hT := typeUrl_of_lookup h hl
      dsimp only
      split
      · rw [account_notify]
        exact agrees_replace env (w := w.cancelTimer T n) h hT
      · exact h

theorem agrees_handleResponse (cfg : Config B) (env : Env) (h : w.account.Agrees tr past) (s : SessionId)
    (r : DiscoveryResponse B) (done : ProcessingDone) :
    (w.handleResponse cfg env s r done).1.account.Agrees tr past := by
  have he : ∀ (es : List (String × String)) (w : AdsWorker B V), w.account.Agrees tr past →
      (es.foldl (fun w e => w.notifyResourceError env r.typeUrl e.1 ⟨r.versionInfo, e.2, env.now⟩
        done) w).account.Agrees tr past := by
    intro es
    induction es with
    | nil => intro w hw; exact hw
    | cons e es ih => intro w hw; exact ih _ (agrees_notifyResourceError env hw _ _ _ done)
  rw [handleResponse]
  cases hl : w.typeStates.lookup r.typeUrl with
  | none => exact h
  | some ts =>
    dsimp only
    have hn : ((w.emit ((w.recorder.recordResourceUpdates ts.typeUrl
        (validResources ts.decoder env.now r).length ((topLevelErrors ts.decoder r).length +
          (perResourceErrors ts.decoder r).length)).map .measure)).modifyTypeState r.typeUrl
          fun ts => { ts with nonce := r.nonce }).account.Agrees tr past := by
      rw [account_modifyTypeState _ _ (fun ts => { ts with nonce := r.nonce }) fun ts => ⟨rfl, rfl⟩,
        account_measure _ (RecorderHandle.push_recordResourceUpdates _ _ _ _)]
      exact h
    have hd := agrees_detectDeletedResources env
      (he (perResourceErrors ts.decoder r) _ (agrees_dispatchResources env hn r.typeUrl
        (validResources ts.decoder env.now r) done)) r.typeUrl
      ((validResources ts.decoder env.now r).map (·.1.name)).toFinset done
    split
    · rw [account_sendAck,
        account_modifyTypeState _ _ (fun ts => { ts with versionInfo := r.versionInfo }) fun ts => ⟨rfl, rfl⟩]
      exact hd
    · rw [account_sendNack]
      exact hd

theorem agrees_handleCommand (cfg : Config B) (env : Env) (h : w.account.Agrees tr past) (sn : Option SessionId)
    (e : WatchEvent B V) : (w.handleCommand cfg env sn e).1.account.Agrees tr past := by
  cases e with
  | watch T n id d r =>
    have ha := agrees_addWatcher env h T n id d r
    unfold handleCommand
    cases sn with
    | none => exact ha
    | some s =>
      dsimp only
      split
      · rw [account_sendRequest]
        exact ha
      · rw [account_startPendingResourceTimers]
        exact ha
  | unwatch id =>
    have hr := agrees_removeWatcher env h id
    unfold handleCommand
    dsimp only
    split
    · rw [account_sendRequest]
      exact hr
    · exact hr
  | resourceTimerExpired T n t => exact agrees_handleResourceTimeout env h T n t

theorem account_mapNonces (w : AdsWorker B V) :
    ({ w with typeStates := HashMap.mapValues (fun ts : TypeState B V => { ts with nonce := "" }) w.typeStates } :
      AdsWorker B V).account = w.account := by
  rw [account, account, Account.mk.injEq]
  refine ⟨rfl, rfl, funext fun T => ?_⟩
  rw [HashMap.lookup_mapValues, Option.map_map]
  rfl

theorem agrees_handleTransportEvent (cfg : Config B) (env : Env) (h : w.account.Agrees tr past) (c : StreamContext)
    (e : TransportEvent B) : (w.handleTransportEvent cfg env c e).1.1.account.Agrees tr past := by
  cases e with
  | ready s =>
    rw [handleTransportEvent]
    rw [sendInitialRequests, account_sendRequests, account_mapNonces]
    exact h
  | response bs done =>
    rw [handleTransportEvent]
    split
    · exact h
    · split
      · exact h
      · have hh : (w.recordHealthy c.healthy).account.Agrees tr past := by
          rw [account_recordHealthy]
          exact h
        exact agrees_handleResponse cfg env hh _ _ done
  | failed =>
    have hw : ({ w with resourceTimers := ∅ } : AdsWorker B V).account = w.account := rfl
    rw [handleTransportEvent]
    rw [account_emit _ rfl]
    split
    · exact h
    · rw [account_recordUnhealthy, hw]
      exact h

end

end AdsWorker

/-! ## Turns and runs -/

section
variable {tr : String} {past : List Push} {a : Actor B V}

theorem Actor.agrees_settle (h : a.worker.account.Agrees tr past) (r : Except Error Unit) :
    (a.settle r).worker.account.Agrees tr past := by
  unfold settle
  split
  · exact h
  · exact h

theorem Actor.agrees_spawnTransport (h : a.worker.account.Agrees tr past) :
    a.spawnTransport.worker.account.Agrees tr past := by
  rw [spawnTransport]
  split
  · exact h
  · rw [AdsWorker.account_emit _ rfl]
    exact h

theorem Actor.agrees_turn (cfg : Config B) (env : Env) (h : a.worker.account.Agrees tr past)
    (c : WorkerCommand B V) : (a.turn cfg env c).worker.account.Agrees tr past := by
  cases c with
  | watcher e => exact agrees_settle (agrees_spawnTransport (AdsWorker.agrees_handleCommand cfg env h _ e)) _
  | transport e => exact agrees_settle (AdsWorker.agrees_handleTransportEvent cfg env h a.context e) _
  | transportStopped =>
    rw [turn]
    split
    · rw [AdsWorker.account_measure _ (RecorderHandle.push_recordConnected _ _)]
      exact h
    · exact h
  | snapshot =>
    rw [turn, AdsWorker.account_emit _ rfl]
    exact h

theorem Account.Agrees.turned {w : AdsWorker B V} (h : w.account.Agrees tr past) :
    ({ w with outbox := [] } : AdsWorker B V).account.Agrees tr (past ++ pushes w.outbox) := by
  refine ⟨h.configured, h.targeted, h.keyed, fun T l => ?_, h.onRecord⟩
  have hn : ({ w with outbox := [] } : AdsWorker B V).account.pushed = [] := rfl
  rw [hn, append_nil]
  exact h.shown T l

end

theorem agrees_init (cfg : Config B) (hr : cfg.recorder = true) :
    ({ (worker cfg : Machine (Actor B V) _ _).init.worker with outbox := [] } : AdsWorker B V).account.Agrees
      (cfg.target.getD "") [] := by
  have hi : ∃ server, (Actor.init cfg : Actor B V).worker.recorder = ⟨cfg.recorder, ⟨cfg.target.getD "", server⟩, ∅⟩ ∧
      (Actor.init cfg : Actor B V).worker.typeStates = ∅ := by
    rw [Actor.init]
    cases cfg.servers with
    | nil => exact ⟨_, rfl, rfl⟩
    | cons server rest => exact ⟨_, rfl, rfl⟩
  obtain ⟨server, hrc, ht⟩ := hi
  rw [AdsWorker.account, show (worker cfg : Machine (Actor B V) _ _).init = Actor.init cfg from rfl]
  simp only [hrc, ht]
  refine ⟨hr, rfl, fun T c hc => ?_, fun T label => rfl, fun T label => rfl⟩
  cases hc

theorem agrees_run (cfg : Config B) (hr : cfg.recorder = true) (is : List (Env × WorkerCommand B V)) :
    ({ ((worker cfg).run is).worker with outbox := [] } : AdsWorker B V).account.Agrees (cfg.target.getD "")
      (pushes ((worker cfg).outputs is)) := by
  induction is using List.reverseRecOn with
  | nil => exact agrees_init cfg hr
  | append_singleton is i ih =>
    rw [Machine.run_snoc, Machine.outputs_snoc, pushes_append]
    set a := (worker cfg).run is with ha
    by_cases hrn : a.running = true
    · have hs : (worker cfg).step a i = _ := if_pos hrn
      rw [Machine.next, Machine.out, hs]
      exact (Actor.agrees_turn (a := { a with worker := { a.worker with outbox := [] } }) cfg i.1 ih i.2).turned
    · have hs : (worker cfg).step a i = _ := if_neg hrn
      rw [Machine.next, Machine.out, hs, pushes_nil, append_nil]
      exact ih

def AdsWorker.entriesIn (w : AdsWorker B V) (T : String) (state : ResourceState) : Nat :=
  ((w.typeStates.lookup T).map fun ts => ts.cache.entries.countP fun e => e.2.state.status = state.status).getD 0

/-- The gauge of a type and a cache state shows its number of entries, zero if never pushed or without type state. -/
theorem resource_gauges_show_cache (cfg : Config B) (hr : cfg.recorder = true) (is : List (Env × WorkerCommand B V))
    (T : String) (state : ResourceState) :
    (lastPushed (pushes ((worker cfg).outputs is)) (gaugeAttrs (cfg.target.getD "") T state.cacheStateLabel)).getD 0 =
      ((worker cfg).run is).worker.entriesIn T state ∧
    (((worker cfg).run is).worker.typeStates.lookup T = none → (lastPushed (pushes ((worker cfg).outputs is))
        (gaugeAttrs (cfg.target.getD "") T state.cacheStateLabel)).getD 0 = 0) := by
  have h := agrees_run cfg hr is
  have hs := (h.shown T state.cacheStateLabel).trans (h.onRecord T state.cacheStateLabel)
  have hp : ({ ((worker cfg).run is).worker with outbox := [] } : AdsWorker B V).account.pushed = [] := rfl
  have hc : ({ ((worker cfg).run is).worker with outbox := [] } : AdsWorker B V).account.labelled T
      state.cacheStateLabel = ((worker cfg).run is).worker.entriesIn T state := by
    rw [Account.labelled, AdsWorker.account, AdsWorker.entriesIn, Option.map_map]
    simp only [Function.comp_def, labelled, cacheStateLabel_eq_iff]
  rw [hp, append_nil, hc] at hs
  refine ⟨hs, fun hnone => ?_⟩
  rw [hs, AdsWorker.entriesIn, hnone]
  rfl

namespace Small

def measured : Config Nat := { cfg (fun _ => .ok (response "1" "n" [0])) with recorder := true }

end Small

theorem resource_gauges_show_cache_received :
    (lastPushed (pushes ((worker Small.measured).outputs [Small.watch "a" 1, Small.ready 0, Small.receive 0]))
        (gaugeAttrs "" "T" "acked")).getD 0 = 1 ∧
      (lastPushed (pushes ((worker Small.measured).outputs
        [Small.watch "a" 1, Small.ready 0, Small.receive 0, Small.unwatch 1]))
        (gaugeAttrs "" "T" "acked")).getD 0 = 0 := by
  have h := resource_gauges_show_cache Small.measured rfl
    [Small.watch "a" 1, Small.ready 0, Small.receive 0] "T" .received
  have h' := resource_gauges_show_cache Small.measured rfl
    [Small.watch "a" 1, Small.ready 0, Small.receive 0, Small.unwatch 1] "T" .received
  exact ⟨h.1.trans (by decide +kernel), h'.2 (by decide +kernel)⟩

end XdsClient
