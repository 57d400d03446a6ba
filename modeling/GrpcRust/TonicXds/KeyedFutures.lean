import GrpcRust.Lib.HashMap
import GrpcRust.Lib.Machine
/-!
# Keyed futures

`client/loadbalance/keyed_futures.rs`: a cancelled future stays until it is polled, next to a later one for its key.
Futures complete in any order.
-/

namespace TonicXds

open Lib List

inductive KeyedFuturesError (K : Type)
  | duplicateKey (key : K)
  | keyNotFound (key : K)

structure KeyedFuture (K P : Type) where
  key : K
  token : Nat
  payload : P

structure KeyedFutures (K P : Type) [DecidableEq K] where
  cancellations : HashMap K Nat
  futures : List (KeyedFuture K P)
  cancelled : List Nat
  nextToken : Nat
  distinct : (futures.map (·.token)).Nodup
  allocated : ∀ f ∈ futures, f.token < nextToken
  cancelledAllocated : ∀ t ∈ cancelled, t < nextToken
  live : ∀ f ∈ futures, f.token ∉ cancelled ↔ cancellations.lookup f.key = some f.token
  tracked : ∀ key t, cancellations.lookup key = some t → ∃ f ∈ futures, f.key = key ∧ f.token = t

namespace KeyedFutures
variable {K P : Type} [DecidableEq K]

variable (s : KeyedFutures K P) (token : Nat)

theorem eq_of_token {f g : KeyedFuture K P} (hf : f ∈ s.futures) (hg : g ∈ s.futures) (h : f.token = g.token) : f = g :=
  inj_on_of_nodup_map s.distinct hf hg h

def new : KeyedFutures K P where
  cancellations := ∅
  futures := []
  cancelled := []
  nextToken := 0
  distinct := nodup_nil
  allocated := nofun
  cancelledAllocated := nofun
  live := nofun
  tracked key t h := by simp at h

def add (key : K) (payload : P) : Except (KeyedFuturesError K) (KeyedFutures K P) :=
  if h : key ∈ s.cancellations then .error (.duplicateKey key)
  else .ok
    { cancellations := s.cancellations.insert key s.nextToken
      futures := s.futures ++ [{ key := key, token := s.nextToken, payload := payload }]
      cancelled := s.cancelled
      nextToken := s.nextToken + 1
      distinct := by
        rw [map_append, map_singleton, nodup_append_comm, singleton_append, nodup_cons]
        refine ⟨fun hmem => ?_, s.distinct⟩
        obtain ⟨f, hf, heq⟩ := List.mem_map.1 hmem
        exact absurd heq (s.allocated f hf).ne
      allocated := by
        intro f hf
        rcases List.mem_append.1 hf with hf | hf
        · exact Nat.lt_succ_of_lt (s.allocated f hf)
        · rw [List.mem_singleton.1 hf]
          exact Nat.lt_succ_self _
      cancelledAllocated := fun t ht => Nat.lt_succ_of_lt (s.cancelledAllocated t ht)
      live := by
        intro f hf
        rw [HashMap.lookup_insert_ite]
        rcases List.mem_append.1 hf with hf | hf
        · have hne : s.nextToken ≠ f.token := (s.allocated f hf).ne'
          by_cases hkey : f.key = key
          · rw [if_pos hkey, s.live f hf, hkey, AList.lookup_eq_none.2 h]
            simp [hne]
          · rw [if_neg hkey, s.live f hf]
        · rw [List.mem_singleton.1 hf, if_pos rfl]
          exact iff_of_true (fun ht => (s.cancelledAllocated _ ht).false) rfl
      tracked := by
        intro k t ht
        rw [HashMap.lookup_insert_ite] at ht
        split at ht
        · rename_i hk
          cases ht
          exact ⟨_, mem_append_right _ mem_cons_self, hk.symm, rfl⟩
        · obtain ⟨f, hf, hkey, htoken⟩ := s.tracked k t ht
          exact ⟨f, mem_append_left _ hf, hkey, htoken⟩ }

def cancel (key : K) : Except (KeyedFuturesError K) (KeyedFutures K P) :=
  match h : s.cancellations.lookup key with
  | some token => .ok
    { s with
      cancellations := s.cancellations.erase key
      cancelled := token :: s.cancelled
      cancelledAllocated := by
        intro t ht
        rcases List.mem_cons.1 ht with rfl | ht
        · obtain ⟨f, hf, _, rfl⟩ := s.tracked key t h
          exact s.allocated f hf
        · exact s.cancelledAllocated t ht
      live := by
        intro f hf
        obtain ⟨g, hg, hkey, rfl⟩ := s.tracked key token h
        rw [HashMap.lookup_erase_ite, mem_cons, not_or, s.live f hf]
        by_cases hf' : f.key = key
        · rw [if_pos hf', hf', h]
          simp [eq_comm]
        · rw [if_neg hf']
          have hne : f.token ≠ g.token := fun heq => hf' ((s.eq_of_token hf hg heq) ▸ hkey)
          simp [hne]
      tracked := by
        intro k t ht
        rw [HashMap.lookup_erase_ite] at ht
        split at ht
        · cases ht
        · exact s.tracked k t ht }
  | none => .error (.keyNotFound key)

def find? (s : KeyedFutures K P) (token : Nat) : Option (KeyedFuture K P) := s.futures.find? (·.token == token)

theorem mem_of_find? {s : KeyedFutures K P} {token : Nat} {f : KeyedFuture K P} (h : s.find? token = some f) :
    f ∈ s.futures ∧ f.token = token :=
  ⟨mem_of_find?_eq_some h, by simpa using find?_some h⟩

def reap : Option (KeyedFutures K P) :=
  if h : token ∈ s.cancelled ∧ (s.find? token).isSome then some
    { s with
      futures := s.futures.filter (·.token ≠ token)
      distinct := s.distinct.sublist (List.filter_sublist.map _)
      allocated := fun f hf => s.allocated f (List.mem_filter.1 hf).1
      live := fun f hf => s.live f (List.mem_filter.1 hf).1
      tracked := by
        intro k t ht
        obtain ⟨f, hf, rfl, rfl⟩ := s.tracked k t ht
        refine ⟨f, List.mem_filter.2 ⟨hf, ?_⟩, rfl, rfl⟩
        have hlive : f.token ∉ s.cancelled := (s.live f hf).2 ht
        exact decide_eq_true fun heq => hlive (heq ▸ h.1) }
  else none

def complete : Option (KeyedFuture K P × KeyedFutures K P) :=
  match h : s.find? token with
  | some f =>
    if hf : token ∈ s.cancelled then none
    else some (f, { s with
        cancellations := s.cancellations.erase f.key
        futures := s.futures.filter (·.token ≠ token)
        distinct := s.distinct.sublist (List.filter_sublist.map _)
        allocated := fun g hg => s.allocated g (List.mem_filter.1 hg).1
        live := by
          intro g hg
          obtain ⟨hgmem, hne⟩ := List.mem_filter.1 hg
          obtain ⟨hmem, rfl⟩ := mem_of_find? h
          have hlookup := (s.live f hmem).1 hf
          rw [HashMap.lookup_erase_ite, s.live g hgmem]
          by_cases hkey : g.key = f.key
          · have hne' : f.token ≠ g.token := (of_decide_eq_true hne).symm
            rw [if_pos hkey, hkey, hlookup]
            simp [hne']
          · rw [if_neg hkey]
        tracked := by
          intro k t ht
          rw [HashMap.lookup_erase_ite] at ht
          split at ht
          · cases ht
          · rename_i hk
            obtain ⟨g, hg, rfl, rfl⟩ := s.tracked k t ht
            obtain ⟨hmem, rfl⟩ := mem_of_find? h
            refine ⟨g, List.mem_filter.2 ⟨hg, ?_⟩, rfl, rfl⟩
            exact decide_eq_true fun heq => hk (congrArg KeyedFuture.key (s.eq_of_token hg hmem heq)) })
  | none => none

def isEmpty (s : KeyedFutures K P) : Bool := s.futures.isEmpty

def containsKey (key : K) : Bool := (s.cancellations.lookup key).isSome

def including (key : K) (payload : P) : KeyedFutures K P :=
  match s.add key payload with
  | .ok s' => s'
  | .error _ => s

def without (key : K) : KeyedFutures K P :=
  match s.cancel key with
  | .ok s' => s'
  | .error _ => s

/-! ## What a set tracks -/

def Running (f : KeyedFuture K P) : Prop := f ∈ s.futures ∧ f.token ∉ s.cancelled

def Tracks (key : K) (payload : P) : Prop :=
  ∃ f ∈ s.futures, f.key = key ∧ f.payload = payload ∧ f.token ∉ s.cancelled

section Tracks
variable {s s' : KeyedFutures K P} {key k : K} {payload p : P} {f g : KeyedFuture K P} {t : Nat}

theorem lookup_of_running (h : s.Running f) : s.cancellations.lookup f.key = some f.token := (s.live f h.1).1 h.2

theorem eq_of_key (hf : s.Running f) (hg : s.Running g) (h : f.key = g.key) : f = g := by
  have hl := lookup_of_running hf
  rw [h, lookup_of_running hg] at hl
  exact s.eq_of_token hf.1 hg.1 (Option.some.inj hl).symm

theorem containsKey_iff_running : s.containsKey key = true ↔ ∃ f, s.Running f ∧ f.key = key := by
  rw [containsKey, Option.isSome_iff_exists]
  constructor
  · rintro ⟨t, ht⟩
    obtain ⟨f, hf, rfl, rfl⟩ := s.tracked key t ht
    exact ⟨f, ⟨hf, (s.live f hf).2 ht⟩, rfl⟩
  · rintro ⟨f, hf, rfl⟩
    exact ⟨f.token, lookup_of_running hf⟩

theorem running_add (h : s.add key payload = .ok s') : s'.nextToken = s.nextToken + 1 ∧
    ∀ f, s'.Running f ↔ s.Running f ∨ f = ⟨key, s.nextToken, payload⟩ := by
  unfold add at h
  split_ifs at h
  cases h
  have hfr : s.nextToken ∉ s.cancelled := fun ht => (s.cancelledAllocated _ ht).false
  refine ⟨rfl, fun f => ?_⟩
  simp only [Running, List.mem_append, List.mem_singleton, or_and_right]
  exact or_congr_right (and_iff_left_of_imp fun he => he ▸ hfr)

theorem key_ne_of_add (h : s.add key payload = .ok s') (hf : s.Running f) : f.key ≠ key := by
  rintro rfl
  unfold add at h
  split_ifs at h with hn
  exact hn (AList.lookup_isSome.1 (containsKey_iff_running.2 ⟨f, hf, rfl⟩))

theorem running_cancel (h : s.cancel key = .ok s') : s'.nextToken = s.nextToken ∧
    ∀ f, s'.Running f ↔ s.Running f ∧ f.key ≠ key := by
  unfold cancel at h
  split at h
  · rename_i t ht
    cases h
    obtain ⟨g, hg, rfl, rfl⟩ := s.tracked key t ht
    have hg' : s.Running g := ⟨hg, (s.live g hg).2 ht⟩
    refine ⟨rfl, fun f => ?_⟩
    simp only [Running, List.mem_cons, not_or]
    constructor
    · rintro ⟨hf, hne, hl⟩
      exact ⟨⟨hf, hl⟩, fun hk => hne (congrArg KeyedFuture.token (eq_of_key ⟨hf, hl⟩ hg' hk))⟩
    · rintro ⟨⟨hf, hl⟩, hk⟩
      exact ⟨hf, fun he => hk (congrArg KeyedFuture.key (s.eq_of_token hf hg he)), hl⟩
  · cases h

theorem running_reap (h : s.reap t = some s') : s'.nextToken = s.nextToken ∧ ∀ f, s'.Running f ↔ s.Running f := by
  unfold reap at h
  split_ifs at h with hc
  cases h
  refine ⟨rfl, fun f => ?_⟩
  simp only [Running, List.mem_filter, decide_eq_true_eq]
  constructor
  · rintro ⟨⟨hf, -⟩, hl⟩
    exact ⟨hf, hl⟩
  · rintro ⟨hf, hl⟩
    exact ⟨⟨hf, fun he => hl (he ▸ hc.1)⟩, hl⟩

theorem running_complete (h : s.complete t = some (f, s')) :
    s.Running f ∧ s'.nextToken = s.nextToken ∧ ∀ g, s'.Running g ↔ s.Running g ∧ g.key ≠ f.key := by
  unfold complete at h
  split at h
  · rename_i f hf
    split_ifs at h with hl
    cases h
    obtain ⟨hmem, rfl⟩ := mem_of_find? hf
    refine ⟨⟨hmem, hl⟩, rfl, fun g => ?_⟩
    simp only [Running, List.mem_filter, decide_eq_true_eq]
    constructor
    · rintro ⟨⟨hg, hne⟩, hgl⟩
      exact ⟨⟨hg, hgl⟩, fun hk => hne (congrArg KeyedFuture.token (eq_of_key ⟨hg, hgl⟩ ⟨hmem, hl⟩ hk))⟩
    · rintro ⟨⟨hg, hgl⟩, hk⟩
      exact ⟨⟨hg, fun he => hk (congrArg KeyedFuture.key (s.eq_of_token hg hmem he))⟩, hgl⟩
  · cases h

theorem not_tracks_new : ¬ (new : KeyedFutures K P).Tracks key payload := nofun

theorem tracks_iff : s.Tracks k p ↔ ∃ f, s.Running f ∧ f.key = k ∧ f.payload = p := by
  constructor
  · rintro ⟨f, hf, hk, hp, hl⟩
    exact ⟨f, ⟨hf, hl⟩, hk, hp⟩
  · rintro ⟨f, ⟨hf, hl⟩, hk, hp⟩
    exact ⟨f, hf, hk, hp, hl⟩

theorem containsKey_iff : s.containsKey key = true ↔ ∃ payload, s.Tracks key payload := by
  simp [containsKey_iff_running, tracks_iff]

theorem tracks_add (h : s.add key payload = .ok s') : s'.Tracks k p ↔ s.Tracks k p ∨ k = key ∧ p = payload := by
  simp [tracks_iff, (running_add h).2, or_and_right, exists_or, eq_comm]

theorem tracks_including (h : ¬ ∃ payload, s.Tracks key payload) :
    (s.including key payload).Tracks k p ↔ s.Tracks k p ∨ k = key ∧ p = payload := by
  have hn : key ∉ s.cancellations := by
    rw [← containsKey_iff, containsKey, AList.lookup_isSome] at h
    exact h
  have ha : s.add key payload = .ok _ := dif_neg hn
  rw [including, ha]
  exact tracks_add ha

theorem tracks_of_running (h : ∀ f, s'.Running f ↔ s.Running f ∧ f.key ≠ key) :
    s'.Tracks k p ↔ s.Tracks k p ∧ k ≠ key := by
  simp only [tracks_iff, h]
  constructor
  · rintro ⟨f, ⟨hf, hk⟩, rfl, rfl⟩
    exact ⟨⟨f, hf, rfl, rfl⟩, hk⟩
  · rintro ⟨⟨f, hf, rfl, rfl⟩, hk⟩
    exact ⟨f, ⟨hf, hk⟩, rfl, rfl⟩

theorem tracks_cancel (h : s.cancel key = .ok s') : s'.Tracks k p ↔ s.Tracks k p ∧ k ≠ key :=
  tracks_of_running (running_cancel h).2

theorem tracks_without (s : KeyedFutures K P) : (s.without key).Tracks k p ↔ s.Tracks k p ∧ k ≠ key := by
  unfold without
  cases h : s.cancel key with
  | ok s' => exact tracks_cancel h
  | error e =>
    have hnone : s.cancellations.lookup key = none := by
      unfold cancel at h
      split at h
      · cases h
      · assumption
    refine ⟨fun ht => ⟨ht, ?_⟩, And.left⟩
    rintro rfl
    have hs := containsKey_iff.2 ⟨p, ht⟩
    rw [containsKey, hnone] at hs
    cases hs

theorem tracks_reap (h : s.reap t = some s') : s'.Tracks k p ↔ s.Tracks k p := by
  simp only [tracks_iff, (running_reap h).2]

theorem tracks_complete (h : s.complete t = some (f, s')) :
    s.Tracks f.key f.payload ∧ ∀ k p, s'.Tracks k p ↔ s.Tracks k p ∧ k ≠ f.key := by
  obtain ⟨hf, -, hr⟩ := running_complete h
  exact ⟨tracks_iff.2 ⟨f, hf, rfl, rfl⟩, fun k p => tracks_of_running hr⟩

theorem not_tracks_of_isEmpty (h : s.isEmpty = true) : ¬ s.Tracks key payload := by
  rintro ⟨f, hf, _⟩
  rw [isEmpty, List.isEmpty_iff] at h
  rw [h] at hf
  cases hf

end Tracks

/-! ## Any sequence of calls -/

inductive Polled (K P : Type)
  | ready (f : KeyedFuture K P)
  | finished
  | pending

/-- `FuturesUnordered` returns the futures with the tokens `ready`, in this order, as far as it has them. -/
def pollNext (s : KeyedFutures K P) : List Nat → Polled K P × KeyedFutures K P
  | [] => (if s.isEmpty then .finished else .pending, s)
  | token :: ready =>
    match s.reap token with
    | some s => s.pollNext ready
    | none =>
      match s.complete token with
      | some (f, s) => (.ready f, s)
      | none => s.pollNext ready

inductive Op (K P : Type)
  | add (key : K) (payload : P)
  | cancel (key : K)
  | poll (ready : List Nat)

inductive Event (K P : Type)
  | added (f : KeyedFuture K P)
  | cancelled (key : K)
  | yielded (f : KeyedFuture K P)

def Event.key : Event K P → K
  | .added f => f.key
  | .cancelled key => key
  | .yielded f => f.key

def Event.output? : Event K P → Option Nat
  | .yielded f => some f.token
  | _ => none

def step (s : KeyedFutures K P) : Op K P → KeyedFutures K P × List (Event K P)
  | .add key payload =>
    match s.add key payload with
    | .ok s' => (s', [.added ⟨key, s.nextToken, payload⟩])
    | .error _ => (s, [])
  | .cancel key =>
    match s.cancel key with
    | .ok s' => (s', [.cancelled key])
    | .error _ => (s, [])
  | .poll ready =>
    match s.pollNext ready with
    | (.ready f, s') => (s', [.yielded f])
    | (_, s') => (s', [])

def machine : Machine (KeyedFutures K P) (Op K P) (Event K P) := ⟨new, step⟩

/-- The most recent event of its key is that the future was added. -/
def Live (events : List (Event K P)) (f : KeyedFuture K P) : Prop :=
  (events.filter (·.key = f.key)).getLast? = some (.added f)

section
variable {s s' : KeyedFutures K P} {f g : KeyedFuture K P} {events : List (Event K P)} {e : Event K P}

theorem live_snoc : Live (events ++ [e]) f ↔ e = .added f ∨ Live events f ∧ f.key ≠ e.key := by
  by_cases hk : e.key = f.key
  · simp [Live, hk]
  · have hne : e ≠ .added f := fun he => hk (he ▸ rfl)
    simp [Live, hk, hne, Ne.symm hk]

/-- `FuturesUnordered` drops cancelled futures, and may then return one that has completed. -/
theorem pollNext_cases (s : KeyedFutures K P) (ready : List Nat) : ∃ s₁ : KeyedFutures K P,
    s₁.nextToken = s.nextToken ∧ (∀ f, s₁.Running f ↔ s.Running f) ∧
      (s.step (.poll ready) = (s₁, []) ∨ ∃ t f s', s₁.complete t = some (f, s') ∧
        s.step (.poll ready) = (s', [.yielded f])) := by
  induction ready generalizing s with
  | nil =>
    refine ⟨s, rfl, fun _ => Iff.rfl, .inl ?_⟩
    rw [step, pollNext]
    cases s.isEmpty <;> rfl
  | cons t ready ih =>
    rw [step, pollNext]
    cases hr : s.reap t with
    | some s' =>
      obtain ⟨s₁, hn, hk, h⟩ := ih s'
      obtain ⟨hn', hk'⟩ := running_reap hr
      exact ⟨s₁, hn.trans hn', fun f => (hk f).trans (hk' f), h⟩
    | none =>
      cases hc : s.complete t with
      | none => exact ih s
      | some r => exact ⟨s, rfl, fun _ => Iff.rfl, .inr ⟨t, r.1, r.2, hc, rfl⟩⟩

/-- A future runs from its addition until it is yielded, cancelled or replaced, and no token comes twice. -/
structure Lawful (s : KeyedFutures K P) (events : List (Event K P)) : Prop where
  live : ∀ f, Live events f ↔ s.Running f
  yielded : Machine.Along (fun before e => ∀ f, e = .yielded f → Live before f) events
  once : (events.filterMap Event.output?).Nodup
  spent : ∀ t ∈ events.filterMap Event.output?, t < s.nextToken ∧ ∀ f, s.Running f → f.token ≠ t

theorem Lawful.snoc (h : Lawful s events) (hn : s.nextToken ≤ s'.nextToken)
    (hr : ∀ f, s'.Running f ↔ e = .added f ∨ s.Running f ∧ f.key ≠ e.key)
    (ha : ∀ f, e = .added f → f.token = s.nextToken) (hy : ∀ f, e = .yielded f → s.Running f) :
    Lawful s' (events ++ [e]) := by
  have hold : ∀ t ∈ events.filterMap Event.output?, t < s'.nextToken ∧ ∀ f, s'.Running f → f.token ≠ t := by
    intro t ht
    obtain ⟨hlt, hne⟩ := h.spent t ht
    refine ⟨hlt.trans_le hn, fun f hf => ?_⟩
    rcases (hr f).1 hf with hf | hf
    · rw [ha f hf]
      exact hlt.ne'
    · exact hne f hf.1
  have hl : ∀ f, Live (events ++ [e]) f ↔ s'.Running f := by
    intro f
    rw [live_snoc, h.live, hr]
  have hal := Machine.along_snoc.2 ⟨h.yielded, fun f hf => (h.live f).2 (hy f hf)⟩
  cases he : e.output? with
  | none =>
    have ho : (events ++ [e]).filterMap Event.output? = events.filterMap Event.output? := by
      simp [List.filterMap_append, he]
    exact ⟨hl, hal, ho ▸ h.once, ho ▸ hold⟩
  | some t =>
    have ho : (events ++ [e]).filterMap Event.output? = events.filterMap Event.output? ++ [t] := by
      simp [List.filterMap_append, he]
    obtain ⟨f, rfl, rfl⟩ : ∃ f, e = .yielded f ∧ t = f.token := by
      cases e <;> cases he
      exact ⟨_, rfl, rfl⟩
    have hf := hy f rfl
    refine ⟨hl, hal, ?_, ?_⟩
    · rw [ho, List.nodup_append_comm]
      exact List.nodup_cons.2 ⟨fun hm => (h.spent _ hm).2 f hf rfl, h.once⟩
    · rw [ho]
      refine List.forall_mem_append.2 ⟨hold,
        List.forall_mem_singleton.2 ⟨(s.allocated f hf.1).trans_le hn, fun g hg he => ?_⟩⟩
      rcases (hr g).1 hg with hg | ⟨hg, hk⟩
      · cases hg
      · exact hk (congrArg KeyedFuture.key (s.eq_of_token hg.1 hf.1 he))

theorem Lawful.step (h : Lawful s events) (op : Op K P) : Lawful (s.step op).1 (events ++ (s.step op).2) := by
  cases op with
  | add key payload =>
    rw [KeyedFutures.step]
    cases ha : s.add key payload with
    | ok s' =>
      obtain ⟨hn, hr⟩ := running_add ha
      refine h.snoc (hn ▸ Nat.le_succ _) (fun f => ?_) (fun f hf => by cases hf; rfl) fun f hf => by cases hf
      rw [hr, Event.added.injEq, eq_comm, or_comm]
      exact or_congr_right (and_iff_left_of_imp (key_ne_of_add ha)).symm
    | error => simpa using h
  | cancel key =>
    rw [KeyedFutures.step]
    cases hc : s.cancel key with
    | ok s' =>
      obtain ⟨hn, hr⟩ := running_cancel hc
      refine h.snoc hn.ge (fun f => ?_) (fun f hf => by cases hf) fun f hf => by cases hf
      simp [hr, Event.key]
    | error => simpa using h
  | poll ready =>
    obtain ⟨s₁, hn, hr, hs⟩ := s.pollNext_cases ready
    have h₁ : Lawful s₁ events :=
      ⟨fun f => (h.live f).trans (hr f).symm, h.yielded, h.once, by simpa only [hn, hr] using h.spent⟩
    rcases hs with hs | ⟨t, f, s', hc, hs⟩
    · rw [hs, List.append_nil]
      exact h₁
    · obtain ⟨hf, hn, hr⟩ := running_complete hc
      rw [hs]
      refine h₁.snoc hn.ge (fun g => ?_) (fun g hg => by cases hg) fun g hg => by cases hg; exact hf
      simp [hr, Event.key]

/-- Outputs come from live futures, each once at most, and the tracked keys are those of the live futures. -/
theorem outputs_of_live_futures (ops : List (Op K P)) :
    (∀ before f, before ++ [.yielded f] <+: machine.outputs ops → Live before f) ∧
      ((machine.outputs ops).filterMap Event.output?).Nodup ∧
      ∀ key, (machine.run ops).containsKey key = true ↔ ∃ f, Live (machine.outputs ops) f ∧ f.key = key := by
  have h : Lawful (machine.run ops) (machine.outputs ops) := by
    induction ops using List.reverseRecOn with
    | nil => exact ⟨fun f => iff_of_false nofun nofun, Machine.along_nil _, List.nodup_nil, nofun⟩
    | append_singleton ops op ih =>
      rw [Machine.run_snoc, Machine.outputs_snoc]
      exact ih.step op
  refine ⟨fun before f hf => h.yielded before _ hf f rfl, h.once, fun key => ?_⟩
  simp only [containsKey_iff_running, h.live]

end

end KeyedFutures

end TonicXds
