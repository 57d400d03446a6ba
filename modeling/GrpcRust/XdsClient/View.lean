import GrpcRust.XdsClient.Worker
/-!
# The worker as watchers and the server see it

`View` forgets tables, metrics and timer ids. A response or a timeout is a list of `CacheUpdate`s.
-/

namespace XdsClient

open Lib List

variable {B V α : Type} {f : String → Option α} {k k' : String}

/-! ## What a turn sends -/

abbrev Delivery (V : Type) := WatcherId × ResourceEvent (DecodedResource V)

def Effect.event? : Effect B V → Option (Delivery V)
  | .event watcher ev => some (watcher, ev)
  | _ => none

def Effect.request? : Effect B V → Option (SessionId × DiscoveryRequest)
  | .request session req _ => some (session, req)
  | _ => none

def events (es : List (Effect B V)) : List (Delivery V) := es.filterMap Effect.event?

def requests (es : List (Effect B V)) : List (SessionId × DiscoveryRequest) := es.filterMap Effect.request?

@[simp] theorem events_nil : events ([] : List (Effect B V)) = [] := rfl

@[simp] theorem requests_nil : requests ([] : List (Effect B V)) = [] := rfl

variable (es fs : List (Effect B V)) (ms : List Measurement)

@[simp] theorem events_append : events (es ++ fs) = events es ++ events fs := filterMap_append

@[simp] theorem requests_append : requests (es ++ fs) = requests es ++ requests fs := filterMap_append

@[simp] theorem events_measure : events (ms.map (.measure : _ → Effect B V)) = [] := by
  simp [events, filterMap_map, Function.comp_def, Effect.event?]

@[simp] theorem requests_measure : requests (ms.map (.measure : _ → Effect B V)) = [] := by
  simp [requests, filterMap_map, Function.comp_def, Effect.request?]

/-! ## Cache updates -/

inductive CacheUpdate (B V : Type) where
  | accept (resource : DecodedResource V) (accepted : AcceptedResource B)
  | reject (name : String) (rejected : RejectedUpdate)
  | delete (name : String)
  | expire (name : String)

namespace CacheUpdate

def name : CacheUpdate B V → String
  | .accept resource _ => resource.name
  | .reject name _ => name
  | .delete name => name
  | .expire name => name

variable (cache : Cache B V) (c : Cache B V) (u : CacheUpdate B V) (o : IterOrder)

def entry : CacheUpdate B V → CachedResource B V
  | .accept resource accepted => .received resource accepted
  | .reject name rejected => .nacked rejected ((cache.lookup name).bind (·.accepted))
  | .delete name => .doesNotExist ((cache.lookup name).bind (·.accepted))
  | .expire _ => .doesNotExist none

def result : CacheUpdate B V → Except Error (DecodedResource V)
  | .accept resource _ => .ok resource
  | .reject _ rejected => .error (.validation rejected.details)
  | .delete _ => .error .resourceDoesNotExist
  | .expire _ => .error .resourceDoesNotExist

def cancelsTimer : CacheUpdate B V → Bool
  | .delete _ => false
  | _ => true

def apply : Cache B V := cache.insert u.name (u.entry cache)

def applyAll (us : List (CacheUpdate B V)) : Cache B V := us.foldl apply cache

def events (order : IterOrder) (watchers : Watchers) (done : ProcessingDone) (us : List (CacheUpdate B V)) :
    List (Delivery V) :=
  us.flatMap fun u => (watchers.matching order u.name).map fun id => (id, .resourceChanged u.result done)

@[simp] theorem entry_result : (u.entry c).result? = some u.result := by
  cases u <;> rfl

@[simp] theorem applyAll_nil : applyAll cache [] = cache := rfl

@[simp] theorem applyAll_cons (us : List (CacheUpdate B V)) : applyAll c (u :: us) = applyAll (u.apply c) us := rfl

theorem applyAll_append (us us' : List (CacheUpdate B V)) : applyAll c (us ++ us') = applyAll (applyAll c us) us' := by
  simp [applyAll]

@[simp] theorem events_nil (ws : Watchers) (done : ProcessingDone) :
    events o ws done ([] : List (CacheUpdate B V)) = [] := rfl

theorem events_append (ws : Watchers) (done : ProcessingDone) (us us' : List (CacheUpdate B V)) :
    events o ws done (us ++ us') = events o ws done us ++ events o ws done us' := by
  simp [events]

theorem lookup_apply (n : String) : (u.apply c).lookup n = if n = u.name then some (u.entry c) else c.lookup n :=
  HashMap.lookup_insert_ite _ _ _ _

variable {us : List (CacheUpdate B V)}

theorem lookup_applyAll_of_notMem {n : String} (h : ∀ u ∈ us, u.name ≠ n)
    (c : Cache B V) : (applyAll c us).lookup n = c.lookup n := by
  induction us generalizing c with
  | nil => rfl
  | cons u us ih =>
    rw [applyAll_cons, ih fun v hv => h v (mem_cons_of_mem _ hv), lookup_apply, if_neg (h u mem_cons_self).symm]

theorem lookup_applyAll_of_mem {n : String} (h : ∃ u ∈ us, u.name = n) (c : Cache B V) :
    ∃ pre u p, us = pre ++ u :: p ∧ u.name = n ∧ (∀ v ∈ p, v.name ≠ n) ∧
      (applyAll c us).lookup n = some (u.entry (applyAll c pre)) := by
  induction us generalizing c with
  | nil => simp at h
  | cons u us ih =>
    by_cases hr : ∃ v ∈ us, v.name = n
    · obtain ⟨pre, v, p, rfl, hn, hp, hl⟩ := ih hr (u.apply c)
      exact ⟨u :: pre, v, p, rfl, hn, hp, hl⟩
    · have hr' : ∀ v ∈ us, v.name ≠ n := fun v hv hn => hr ⟨v, hv, hn⟩
      obtain ⟨v, hv, hn⟩ := h
      rcases List.mem_cons.1 hv with rfl | hv
      · refine ⟨[], v, us, rfl, hn, hr', ?_⟩
        rw [applyAll_cons, lookup_applyAll_of_notMem hr', lookup_apply, if_pos hn.symm]
        rfl
      · exact absurd hn (hr' v hv)

end CacheUpdate

/-! ## The view -/

theorem update_eq_some {x y : α} :
    Function.update f k (some x) k' = some y ↔ (k' = k ∧ x = y) ∨ (k' ≠ k ∧ f k' = some y) := by
  rw [Function.update_apply]
  split <;> simp_all

theorem update_none_eq_some {y : α} : Function.update f k none k' = some y ↔ k' ≠ k ∧ f k' = some y := by
  rw [Function.update_apply]
  split <;> simp_all

def TypeState.Pending (ts : TypeState B V) (n : String) : Prop :=
  (∃ id e, ts.watchers.lookup id = some e ∧ e.subscription = .named n) ∧
    ∃ c, ts.cache.lookup n = some c ∧ c.state = .requested

structure View (B V : Type) where
  types : String → Option (TypeState B V)
  timers : Set (String × String)
  events : List (Delivery V)
  requests : List (SessionId × DiscoveryRequest)

namespace View

variable (o : IterOrder) (v : View B V) (T : String) (ts : TypeState B V)

def setType : View B V := { v with types := Function.update v.types T (some ts) }

def update (order : IterOrder) (v : View B V) (T : String) (ts : TypeState B V) (done : ProcessingDone)
    (us : List (CacheUpdate B V)) : View B V where
  types := Function.update v.types T (some { ts with cache := CacheUpdate.applyAll ts.cache us })
  timers := { k | k ∈ v.timers ∧ ∀ u ∈ us, u.cancelsTimer = true → k ≠ (T, u.name) }
  events := v.events ++ CacheUpdate.events order ts.watchers done us
  requests := v.requests

def startPending : View B V :=
  { v with timers := { k | k ∈ v.timers ∨ k.1 = T ∧ ∃ ts, v.types T = some ts ∧ ts.Pending k.2 } }

def ask (s : SessionId) (r : DiscoveryRequest) : View B V := { v with requests := v.requests ++ [(s, r)] }

theorem update_nil (done : ProcessingDone) : v.update o T ts done [] = v.setType T ts := by simp [update, setType]

theorem update_singleton (done : ProcessingDone) (u : CacheUpdate B V) : v.update o T ts done [u] =
      { types := Function.update v.types T (some { ts with cache := u.apply ts.cache })
        timers := { k | k ∈ v.timers ∧ (u.cancelsTimer = true → k ≠ (T, u.name)) }
        events := v.events ++ (ts.watchers.matching o u.name).map (·, .resourceChanged u.result done)
        requests := v.requests } := by
  simp [update, CacheUpdate.events]

theorem update_update (done : ProcessingDone) (us us' : List (CacheUpdate B V)) :
    (v.update o T ts done us).update o T { ts with cache := CacheUpdate.applyAll ts.cache us } done us' =
      v.update o T ts done (us ++ us') := by
  simp only [update, Function.update_idem, CacheUpdate.applyAll_append, CacheUpdate.events_append, mk.injEq,
    append_assoc, true_and, and_true]
  ext k
  simp only [Set.mem_ofPred_eq, mem_append, or_imp, forall_and, and_assoc]

theorem setType_self {v : View B V} {T : String} {ts : TypeState B V} (h : v.types T = some ts) :
    v.setType T ts = v := by
  simp [setType, ← h]

@[simp] theorem setType_update (ts ts' : TypeState B V) (done : ProcessingDone) (us : List (CacheUpdate B V)) :
    (v.setType T ts').update o T ts done us = v.update o T ts done us := by
  simp [setType, update]

end View

end XdsClient
