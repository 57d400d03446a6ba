import GrpcRust.XdsClient.Turn
/-!
# Subscriptions follow the watchers

A type state exists while it has a watcher, and its subscription is the one its watchers ask for.
-/

namespace XdsClient

open Lib AdsWorker

variable {B V : Type} {cfg : Config B} {env : Env} {a : Actor B V} {cmd : WorkerCommand B V} {v : View B V}

variable (ts : TypeState B V) (n : String) (id : WatcherId)

theorem registerWatcher_watchers : (registerWatcher ts n id).1.watchers = ts.watchers.insert id ⟨.fromName n⟩ := by
  obtain ⟨c, h, -⟩ := registerWatcher_eq ts n id
  rw [h]
  rfl

theorem registerWatcher_subscription :
    (registerWatcher ts n id).1.subscription = (registerWatcher ts n id).1.watchers.subscription := by
  obtain ⟨c, h, -⟩ := registerWatcher_eq ts n id
  rw [h]
  rfl

/-! ## The invariant -/

structure Subscribed (ts : TypeState B V) : Prop where
  watched : ∃ id e, ts.watchers.lookup id = some e
  subscription : ts.subscription = ts.watchers.subscription

def AllSubscribed (types : String → Option (TypeState B V)) : Prop := ∀ T ts, types T = some ts → Subscribed ts

theorem AllSubscribed.update {ty : String → Option (TypeState B V)} (h : AllSubscribed ty) {T : String}
    {ts : Option (TypeState B V)} (hts : ∀ t, ts = some t → Subscribed t) :
    AllSubscribed (Function.update ty T ts) := by
  intro T' ts' h'
  rw [Function.update_apply] at h'
  split at h'
  · exact hts ts' h'
  · exact h T' ts' h'

theorem Subscribed.congr {ts ts' : TypeState B V} (h : Subscribed ts) (hw : ts'.watchers = ts.watchers)
    (hs : ts'.subscription = ts.subscription) : Subscribed ts' :=
  ⟨hw ▸ h.watched, by rw [hs, hw]; exact h.subscription⟩

theorem subscribed_registerWatcher : Subscribed (registerWatcher ts n id).1 :=
  ⟨⟨id, _, by rw [registerWatcher_watchers, AList.lookup_insert]⟩, registerWatcher_subscription ts n id⟩

theorem Change.allSubscribed (hc : Change cfg env a cmd v) (hi : AllSubscribed a.types) : AllSubscribed v.types := by
  cases hc with
  | keep | lapse | failed => exact hi
  | watch T n id => exact hi.update fun _ h => Option.some.inj h ▸ subscribed_registerWatcher _ _ _
  | unwatch hts hid hne =>
    obtain ⟨i, hne⟩ := hne
    obtain ⟨e, he⟩ := Option.ne_none_iff_exists'.1 hne
    exact hi.update fun _ h => Option.some.inj h ▸ ⟨⟨i, e, he⟩, rfl⟩
  | unwatchLast => exact hi.update nofun
  | expire hid hts => exact hi.update fun _ h => Option.some.inj h ▸ (hi _ _ hts).congr rfl rfl
  | ready =>
    intro T ts h
    obtain ⟨ts, hts, rfl⟩ := Option.map_eq_some_iff.1 h
    exact (hi T ts hts).congr rfl rfl
  | response hr hts =>
    rw [types_response]
    exact hi.update fun _ h => Option.some.inj h ▸ (hi _ _ hts).congr rfl rfl

theorem allSubscribed_next (hi : AllSubscribed a.types) (i : Env × WorkerCommand B V) :
    AllSubscribed ((worker cfg).next a i).types := by
  obtain ⟨-, hn, -⟩ | ⟨v, -, hc, ht, -⟩ := step_cases cfg a i
  · rwa [hn]
  · rw [ht.types]; exact hc.allSubscribed hi

theorem allSubscribed_run (cfg : Config B) (is : List (Env × WorkerCommand B V)) :
    AllSubscribed ((worker cfg).run is : Actor B V).types :=
  (worker cfg).run_inv (P := fun a : Actor B V => AllSubscribed a.types)
    (fun T ts h => by rw [show (worker cfg).init = Actor.init cfg from rfl, types_init] at h; cases h)
    (fun _ i hi => allSubscribed_next hi i) is

theorem request_reflects_type (cfg : Config B) (a : Actor B V) (i : Env × WorkerCommand B V)
    {q : SessionId × DiscoveryRequest} (hq : q ∈ requests ((worker cfg).out a i)) :
    a.sender i.2 = some q.1 ∧ ∃ ts, ((worker cfg).next a i).types q.2.typeUrl = some ts ∧
      q.2.resourceNames = ts.resourceNamesForRequest i.1.order ∧
      q.2.versionInfo = ts.versionInfo ∧ q.2.responseNonce = ts.nonce := by
  obtain ⟨env, cmd⟩ := i
  obtain ⟨-, -, ho⟩ | ⟨v, -, hc, ht, -, hr⟩ := step_cases cfg a (env, cmd)
  · rw [ho] at hq; cases hq
  · rw [hr] at hq
    rw [ht.types]
    obtain hq | ⟨s, T, ts, hs, hts, rfl⟩ := ht.requests q hq
    · cases hc with
      | response hrc hts =>
        obtain rfl : q = _ := by simpa [View.ask, View.setType, View.update, Actor.start] using hq
        exact ⟨active_of_received hrc, _, by rw [types_response]; exact Function.update_self _ _ _, rfl, rfl, rfl⟩
      | _ => cases hq
    · exact ⟨hs, ts, hts, rfl, rfl, rfl⟩

/-- Each type has a watcher and the subscription its watchers ask for; an empty list of names is a wildcard's. -/
theorem subscription_follows_watchers (cfg : Config B) (is : List (Env × WorkerCommand B V))
    (i : Env × WorkerCommand B V) :
    (∀ T ts, ((worker cfg).run is).types T = some ts → (∃ id e, ts.watchers.lookup id = some e) ∧
      (ts.subscription = .wildcard ↔ ∃ id e, ts.watchers.lookup id = some e ∧ e.subscription = .wildcard) ∧
      ∀ ns, ts.subscription = .named ns →
        ∀ n, n ∈ ns ↔ ∃ id e, ts.watchers.lookup id = some e ∧ e.subscription = .named n) ∧
    ∀ q ∈ requests ((worker cfg).out ((worker cfg).run is) i), q.2.resourceNames = [] →
      ∃ ts id e, ((worker cfg).run (is ++ [i])).types q.2.typeUrl = some ts ∧
        ts.watchers.lookup id = some e ∧ e.subscription = .wildcard := by
  refine ⟨fun T ts hts => ?_, fun q hq hnl => ?_⟩
  · have h := allSubscribed_run cfg is T ts hts
    refine ⟨h.watched, ?_, fun ns hn n => ?_⟩
    · rw [h.subscription]; exact Watchers.subscription_eq_wildcard
    · rw [h.subscription] at hn; exact Watchers.mem_names hn
  · obtain ⟨-, ts, hts, hnm, -, -⟩ := request_reflects_type cfg _ i hq
    rw [← Machine.run_snoc] at hts
    have h := allSubscribed_run cfg (is ++ [i]) _ ts hts
    rw [hnm, TypeState.resourceNamesForRequest, h.subscription] at hnl
    obtain hw | hn := Watchers.names_eq_nil hnl
    · obtain ⟨id, e, he, hs⟩ := Watchers.subscription_eq_wildcard.1 hw
      exact ⟨ts, id, e, hts, he, hs⟩
    · obtain ⟨id, e, he⟩ := h.watched
      rw [hn id] at he
      cases he

end XdsClient
