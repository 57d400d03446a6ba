import GrpcRust.Lib.Watch
import GrpcRust.TonicXds.Resources
/-!
# The shared cache

`xds/cache.rs`: a watch channel for the routes and two per cluster. Receivers of a removed key's channel are closed.
-/

namespace TonicXds

open Lib Watch

variable {T : Type}

abbrev ChannelId := Nat

structure CacheWatch where
  channel : ChannelId
  rx : Receiver
deriving DecidableEq

/-- `inner` holds the senders. Every sender's channel is open, and no two keys share one. -/
structure WatchMap (T : Type) where
  inner : HashMap String ChannelId
  channels : List (Channel (Option T))
  live : ∀ {key i}, inner.lookup key = some i → ∃ c, channels[i]? = some c ∧ c.closed = false
  injective : ∀ {key key' i}, inner.lookup key = some i → inner.lookup key' = some i → key = key'

namespace WatchMap

def new : WatchMap T := ⟨∅, [], fun h => by simp at h, fun h => by simp at h⟩

variable (m : WatchMap T) (key : String)

theorem lt_length {key : String} {i : ChannelId} (h : m.inner.lookup key = some i) : i < m.channels.length := by
  obtain ⟨c, hc, -⟩ := m.live h
  exact (List.getElem?_eq_some_iff.1 hc).1

def create : WatchMap T where
  inner := m.inner.insert key m.channels.length
  channels := m.channels ++ [.new none]
  live := by
    intro key' i hi
    rw [HashMap.lookup_insert_ite] at hi
    split at hi
    · cases hi
      exact ⟨.new none, by simp, rfl⟩
    · obtain ⟨c, hc, ho⟩ := m.live hi
      exact ⟨c, by rw [List.getElem?_append_left (m.lt_length hi), hc], ho⟩
  injective := by
    intro k k' i hk hk'
    rw [HashMap.lookup_insert_ite] at hk hk'
    split at hk <;> split at hk'
    · simp_all
    · cases hk
      exact absurd (m.lt_length hk') (Nat.lt_irrefl _)
    · cases hk'
      exact absurd (m.lt_length hk) (Nat.lt_irrefl _)
    · exact m.injective hk hk'

def ensure : ChannelId × WatchMap T :=
  match m.inner.lookup key with
  | some i => (i, m)
  | none => (m.channels.length, m.create key)

def send (i : ChannelId) (value : T) : WatchMap T where
  inner := m.inner
  channels := m.channels.modify i (·.sendReplace (some value))
  live := by
    intro key j hj
    obtain ⟨c, hc, ho⟩ := m.live hj
    rw [List.getElem?_modify, hc]
    by_cases hij : i = j
    · exact ⟨c.sendReplace (some value), by simp [hij], ho⟩
    · exact ⟨c, by simp [hij], ho⟩
  injective := m.injective

def update (value : T) : WatchMap T := (m.ensure key).2.send (m.ensure key).1 value

def watch : CacheWatch × WatchMap T := (⟨(m.ensure key).1, ⟨none⟩⟩, (m.ensure key).2)

def remove : WatchMap T where
  inner := m.inner.erase key
  channels := (m.inner.lookup key).elim m.channels fun i => m.channels.modify i (·.close)
  live := by
    intro key' j hj
    rw [HashMap.lookup_erase_ite] at hj
    split at hj
    · cases hj
    · rename_i hne
      obtain ⟨c, hc, ho⟩ := m.live hj
      refine ⟨c, ?_, ho⟩
      cases h : m.inner.lookup key with
      | none => exact hc
      | some i =>
        have hij : i ≠ j := fun hij => hne (m.injective hj (hij ▸ h))
        simp [hc, hij]
  injective := by
    intro k k' j hk hk'
    rw [HashMap.lookup_erase_ite] at hk hk'
    split at hk
    · cases hk
    · split at hk'
      · cases hk'
      · exact m.injective hk hk'

def get? : Option T := (m.inner.lookup key).bind fun i => (m.channels[i]?).bind (·.value)

end WatchMap

inductive Next (T : Type) where
  | value (v : T)
  | closed
  | pending
deriving DecidableEq

def CacheWatch.next (w : CacheWatch) (c : Channel (Option T)) : Next T × CacheWatch :=
  match w.rx.poll c with
  | .changed =>
    match c.value with
    | some v => (.value v, { w with rx := .update c })
    | none => (if c.closed then .closed else .pending, { w with rx := .update c })
  | .closed => (.closed, w)
  | .pending => (.pending, w)

theorem CacheWatch.next_of_open (w : CacheWatch) {c : Channel (Option T)} (h : c.closed = false) :
    (∃ v, c.value = some v ∧ w.next c = (.value v, { w with rx := .update c })) ∨
    (c.value = none ∧ w.next c = (.pending, { w with rx := .update c })) ∨
    (w.rx.seen = some c.version ∧ w.next c = (.pending, w)) := by
  by_cases hs : w.rx.seen = some c.version
  · refine .inr (.inr ⟨hs, ?_⟩)
    simp [next, Receiver.poll, hs, h]
  · have hp : w.rx.poll c = .changed := by simp [Receiver.poll, hs]
    cases hv : c.value with
    | some v => exact .inl ⟨v, rfl, by simp [next, hp, hv]⟩
    | none => exact .inr (.inl ⟨rfl, by simp [next, hp, hv, h]⟩)

structure XdsCache where
  routeConfig : Option RouteConfigResource
  clusters : WatchMap ClusterResource
  endpoints : WatchMap EndpointsResource

namespace XdsCache

def new : XdsCache := ⟨none, .new, .new⟩

variable (c : XdsCache) (clusterName : String) (name : String)

def updateRouteConfig (config : RouteConfigResource) : XdsCache := { c with routeConfig := some config }

def updateCluster (cluster : ClusterResource) : XdsCache := { c with clusters := c.clusters.update name cluster }

def removeCluster : XdsCache := { c with clusters := c.clusters.remove name }

def updateEndpoints (endpoints : EndpointsResource) : XdsCache :=
  { c with endpoints := c.endpoints.update clusterName endpoints }

def watchEndpoints : CacheWatch × XdsCache :=
  ((c.endpoints.watch clusterName).1, { c with endpoints := (c.endpoints.watch clusterName).2 })

def removeEndpoints : XdsCache := { c with endpoints := c.endpoints.remove clusterName }

end XdsCache

/-! ## Lookups -/

namespace WatchMap
variable {i : ChannelId} {key : String}

variable (m : WatchMap T) {c : Channel (Option T)}

theorem lookup_ensure (key key' : String) :
    (m.ensure key).2.inner.lookup key' = if key' = key then some (m.ensure key).1 else m.inner.lookup key' := by
  unfold ensure
  split
  · split
    · subst key'; assumption
    · rfl
  · exact HashMap.lookup_insert_ite _ _ _ _

theorem getElem?_ensure (key : String) (h : m.channels[i]? = some c) : (m.ensure key).2.channels[i]? = some c := by
  unfold ensure
  split
  · exact h
  · rw [← h]
    exact List.getElem?_append_left (List.getElem?_eq_some_iff.1 h).1

theorem channel_of_lookup (h : m.inner.lookup key = some i) :
    ∃ c, m.channels[i]? = some c := (m.live h).imp fun _ h => h.1

theorem get?_of_lookup (h : m.inner.lookup key = some i) (hc : m.channels[i]? = some c) : m.get? key = c.value := by
  simp [get?, h, hc]

theorem get?_of_notMem (h : m.inner.lookup key = none) : m.get? key = none := by simp [get?, h]

@[simp] theorem get?_ensure (key key' : String) : (m.ensure key).2.get? key' = m.get? key' := by
  cases h : m.inner.lookup key' with
  | some i =>
    obtain ⟨c, hc⟩ := m.channel_of_lookup h
    have hi : (m.ensure key).2.inner.lookup key' = some i := by
      rw [lookup_ensure]
      split
      · subst key'; simp [ensure, h]
      · exact h
    rw [get?_of_lookup _ hi (m.getElem?_ensure key hc), get?_of_lookup _ h hc]
  | none =>
    rw [get?_of_notMem _ h]
    by_cases hk : key' = key
    · subst hk
      simp [ensure, h, get?, create, Channel.new]
    · exact get?_of_notMem _ (by rw [lookup_ensure, if_neg hk, h])

theorem get?_send (h : m.inner.lookup key = some i) (key' : String) (v : T) :
    (m.send i v).get? key' = if key' = key then some v else m.get? key' := by
  split
  · subst key'
    obtain ⟨c, hc⟩ := m.channel_of_lookup h
    have hs : (m.send i v).inner.lookup key = some i := h
    rw [get?_of_lookup _ hs (c := c.sendReplace (some v)) (by simp [send, hc])]
    rfl
  · rename_i hne
    cases hj : m.inner.lookup key' with
    | none => rw [get?_of_notMem _ hj, get?_of_notMem (m.send i v) hj]
    | some j =>
      have hij : i ≠ j := fun hij => hne (m.injective hj (hij ▸ h))
      simp [get?, send, hj, List.getElem?_modify_ne _ _ hij]

theorem get?_update (key key' : String) (v : T) :
    (m.update key v).get? key' = if key' = key then some v else m.get? key' := by
  have hk : (m.ensure key).2.inner.lookup key = some (m.ensure key).1 := by rw [lookup_ensure, if_pos rfl]
  rw [update, get?_send _ hk, get?_ensure]

theorem get?_remove (key key' : String) : (m.remove key).get? key' = if key' = key then none else m.get? key' := by
  split
  · subst key'
    exact get?_of_notMem _ (AList.lookup_erase _ _)
  · rename_i hne
    have hl : (m.remove key).inner.lookup key' = m.inner.lookup key' := AList.lookup_erase_ne hne
    cases hj : m.inner.lookup key' with
    | none => rw [get?_of_notMem _ hj, get?_of_notMem _ (hl.trans hj)]
    | some j =>
      rw [get?, hl, get?, hj]
      cases h : m.inner.lookup key with
      | none => simp [remove, h]
      | some i =>
        have hij : i ≠ j := fun hij => hne (m.injective hj (hij ▸ h))
        simp [remove, h, List.getElem?_modify_ne _ _ hij]

/-! ## The channel of one key over time -/

def Extends (key : String) (m m' : WatchMap T) : Prop :=
  ∀ i c, m.inner.lookup key = some i → m.channels[i]? = some c →
    m'.inner.lookup key = some i ∧ ∃ c', m'.channels[i]? = some c' ∧ c.version ≤ c'.version ∧
      (c'.version = c.version → c'.value = c.value) ∧ (c'.value = none → c.value = none)

theorem Extends.refl (key : String) (m : WatchMap T) : Extends key m m :=
  fun _ c hi hc => ⟨hi, c, hc, Nat.le_refl _, fun _ => rfl, id⟩

theorem Extends.trans {m m' m'' : WatchMap T} (h : Extends key m m') (h' : Extends key m' m'') : Extends key m m'' := by
  intro i c hi hc
  obtain ⟨hi', c', hc', hv', hvl', hnn'⟩ := h i c hi hc
  obtain ⟨hi'', c'', hc'', hv'', hvl'', hnn''⟩ := h' i c' hi' hc'
  refine ⟨hi'', c'', hc'', hv'.trans hv'', fun he => ?_, fun hn => hnn' (hnn'' hn)⟩
  rw [hvl'' (by omega), hvl' (by omega)]

theorem extends_ensure (key key' : String) : Extends key m (m.ensure key').2 := by
  intro i c hi hc
  refine ⟨?_, c, m.getElem?_ensure key' hc, Nat.le_refl _, fun _ => rfl, id⟩
  rw [lookup_ensure]
  split
  · subst key; simp [ensure, hi]
  · exact hi

theorem extends_send (key : String) (i : ChannelId) (v : T) : Extends key m (m.send i v) := by
  intro j c hj hc
  refine ⟨hj, ?_⟩
  by_cases hij : i = j
  · refine ⟨c.sendReplace (some v), by simp [send, hc, hij], by simp, fun h => by simp at h, fun h => by simp at h⟩
  · exact ⟨c, by simp [send, hc, hij], Nat.le_refl _, fun _ => rfl, id⟩

theorem extends_update (key key' : String) (v : T) : Extends key m (m.update key' v) :=
  (m.extends_ensure key key').trans (extends_send _ _ _ _)

theorem extends_remove {key' : String} (h : key ≠ key') : Extends key m (m.remove key') := by
  intro j c hj hc
  refine ⟨(AList.lookup_erase_ne h).trans hj, c, ?_, Nat.le_refl _, fun _ => rfl, id⟩
  cases hk : m.inner.lookup key' with
  | none => simp [remove, hk, hc]
  | some i =>
    have hij : i ≠ j := fun hij => h (m.injective hj (hij ▸ hk))
    simp [remove, hk, hc, hij]

end WatchMap

end TonicXds
