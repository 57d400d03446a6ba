import GrpcRust.LoadBalancing.Priority
/-!
# Which priority is current

The first usable child: `READY`, `IDLE`, or `CONNECTING` with its failover timer pending; else the first that is
connecting; else the last. `reconcile` achieves this from any children.
-/

namespace LoadBalancing.Priority

open Lib List

variable {D R P C W K E : Type} {data : ChildData D R P C K} {p : PriorityPolicy D R P C K}

/-! ## What it means to be current -/

def First {α : Type} (q : α → Prop) (l : List α) (i : Nat) : Prop :=
  (∃ a, l[i]? = some a ∧ q a) ∧ ∀ j a, j < i → l[j]? = some a → ¬ q a

namespace ChildData

def Usable (data : ChildData D R P C K) : Prop :=
  ∃ child, data.child = some child ∧
    (child.policy.state.connectivityState = .ready ∨ child.policy.state.connectivityState = .idle ∨
      child.policy.state.connectivityState = .connecting ∧
        ∃ timer, child.state = .connecting timer ∧ timer.expired = false)

def Overdue (data : ChildData D R P C K) : Prop :=
  ∃ child, data.child = some child ∧ child.policy.state.connectivityState = .connecting ∧
    child.state = .connectingExpired

end ChildData

def Current (children : List (ChildData D R P C K)) (i : Nat) : Prop :=
  First ChildData.Usable children i ∨
  (∀ data ∈ children, ¬ data.Usable) ∧
    (First ChildData.Overdue children i ∨ (∀ data ∈ children, ¬ data.Overdue) ∧ i + 1 = children.length)

/-- The current priority is the one to choose, and its state is published; those before it have a child. -/
structure Settled (p : PriorityPolicy D R P C K) (published : Option (LbState K)) : Prop where
  empty : p.children = [] → p.currentPriority = none
  current : p.children ≠ [] → ∃ i data child, p.currentPriority = some i ∧ Current p.children i ∧
    p.children[i]? = some data ∧ data.child = some child ∧ published = some child.policy.state
  created : ∀ i j data, p.currentPriority = some i → j ≤ i → p.children[j]? = some data → data.child.isSome
  deactivated : ∀ i j data child timer, p.currentPriority = some i → p.children[j]? = some data →
    data.child = some child → child.deactivationTimer = some timer → i < j

/-! ## States in sync -/

def CreatedChild.InSync (child : CreatedChild P K) : Prop :=
  match child.state with
  | .connecting timer => child.policy.state.connectivityState = .connecting ∧ timer.expired = false
  | .connectingExpired => child.policy.state.connectivityState = .connecting
  | .transientFailure => child.policy.state.connectivityState = .transientFailure
  | .readyOrIdle => child.policy.state.connectivityState = .ready ∨ child.policy.state.connectivityState = .idle

theorem inSync_new (policy : Child P K) (timer : Option Timer) :
    CreatedChild.InSync ⟨policy, .fromConnectivityState policy.state.connectivityState, timer⟩ := by
  unfold CreatedChild.InSync
  cases h : policy.state.connectivityState with
  | idle => exact .inr rfl
  | connecting => exact ⟨rfl, rfl⟩
  | ready => exact .inl rfl
  | transientFailure => rfl

theorem inSync_updateState (child : CreatedChild P K) : child.updateState.InSync := by
  obtain ⟨policy, state, timer⟩ := child
  unfold CreatedChild.InSync CreatedChild.updateState
  cases h : policy.state.connectivityState with
  | idle => cases state <;> exact .inr rfl
  | ready => cases state <;> exact .inl rfl
  | transientFailure => cases state <;> rfl
  | connecting =>
    cases state with
    | connecting failover =>
      by_cases he : failover.expired
      · simp [ChildState.update, he]
      · simp [ChildState.update, he]
    | connectingExpired => rfl
    | transientFailure => rfl
    | readyOrIdle => exact ⟨rfl, rfl⟩

def InSync (children : List (ChildData D R P C K)) : Prop :=
  ∀ data ∈ children, ∀ child, data.child = some child → child.InSync

def Skipped (data : ChildData D R P C K) : Prop :=
  ∃ child, data.child = some child ∧ child.InSync ∧ child.deactivationTimer = none ∧
    (child.state = .connectingExpired ∨ child.state = .transientFailure)

def Chosen (data : ChildData D R P C K) (deactivate : Bool) : Prop :=
  ∃ child, data.child = some child ∧ child.InSync ∧ child.deactivationTimer = none ∧
    (deactivate = false ∧ (∃ timer, child.state = .connecting timer) ∨ deactivate = true ∧ child.state = .readyOrIdle)

theorem Skipped.not_usable (h : Skipped data) : ¬ data.Usable := by
  obtain ⟨child, hc, hs, -, hst⟩ := h
  rintro ⟨child', hc', hu⟩
  cases hc.symm.trans hc'
  unfold CreatedChild.InSync at hs
  rcases hst with hst | hst <;> rw [hst] at hs hu <;> simp [hs] at hu

theorem Skipped.overdue_iff (h : Skipped data) :
    data.Overdue ↔ (data.child.any fun child => decide (child.state = .connectingExpired)) = true := by
  obtain ⟨child, hc, hs, -, hst⟩ := h
  unfold CreatedChild.InSync at hs
  rw [hc]
  constructor
  · rintro ⟨child', hc', -, hx⟩
    cases hc.symm.trans hc'
    simp [hx]
  · intro hx
    have hx : child.state = .connectingExpired := by simpa using hx
    rw [hx] at hs
    exact ⟨child, hc, hs, hx⟩

theorem Chosen.usable {deactivate : Bool} (h : Chosen data deactivate) : data.Usable := by
  obtain ⟨child, hc, hs, -, hst⟩ := h
  unfold CreatedChild.InSync at hs
  refine ⟨child, hc, ?_⟩
  rcases hst with ⟨-, timer, hst⟩ | ⟨-, hst⟩ <;> rw [hst] at hs
  · exact .inr (.inr ⟨hs.1, timer, hst, hs.2⟩)
  · exact hs.imp_right .inl

/-! ## What is published -/

/-- The policy's own record of what the channel has been given, in the middle of a call. -/
def Synced (p : PriorityPolicy D R P C K) (published : Option (LbState K)) : Prop :=
  lastPicker published p.requests = p.publishedLbState

namespace PriorityPolicy
variable {p : PriorityPolicy D R P C K} {published : Option (LbState K)} {data : ChildData D R P C K}

abbrev SettledAfter (published : Option (LbState K)) (p : PriorityPolicy D R P C K) : Prop :=
  Settled p (lastPicker published p.requests) ∧ Synced p published

theorem synced_emit (h : Synced p published) {requests : List (Request K)}
    (hr : ∀ request ∈ requests, request.picker? = none) : Synced (p.emit requests) published := by
  unfold Synced emit
  rw [lastPicker_append, lastPicker_eq hr]
  exact h

theorem synced_updatePicker [DecidableEq K] (h : Synced p published) (state : LbState K) :
    lastPicker published (p.updatePicker state).requests = some state ∧ Synced (p.updatePicker state) published := by
  unfold updatePicker
  split
  · rename_i he
    exact ⟨h.trans he, h⟩
  · exact ⟨lastPicker_snoc _ _ _, lastPicker_snoc _ _ _⟩

section
variable [DecidableEq K] (p) (s : LbState K)

@[simp] theorem children_updatePicker : (p.updatePicker s).children = p.children := by
  unfold updatePicker; split <;> rfl

@[simp] theorem currentPriority_updatePicker : (p.updatePicker s).currentPriority = p.currentPriority := by
  unfold updatePicker; split <;> rfl

end

/-! ## The search -/

variable [LbPolicy P (PathUpdate D R) C W K E] (builder : LbPolicyBuilder P)
  {skipped tail : List (ChildData D R P C K)} {child : CreatedChild P K}

def FromChild (e : PriorityPanic E) : Prop := ∃ panic, e = .child panic

theorem outcome_updateChildPolicy (policy : Child P K) (update : PathUpdate D R) (config : PriorityChildConfig C) :
    Outcome (updateChildPolicy policy update config) (fun r => ∀ request ∈ r.2.1, request.picker? = none) FromChild :=
  .mapError ((Child.outcome_resolverUpdate _ update config.config).mono (fun _ h => h.1.2) fun e _ => ⟨e, rfl⟩)

theorem outcome_activate (hs : Synced p published) (hd : ∀ child, data.child = some child → child.InSync) :
    Outcome (p.activate builder data)
      (fun r => Synced r.1 published ∧ r.2.InSync ∧ r.2.deactivationTimer = none) FromChild := by
  unfold activate
  cases hc : data.child with
  | some child => exact .ret ⟨hs, hd child hc, rfl⟩
  | none =>
    refine (outcome_updateChildPolicy _ _ _).bind fun r hr => .ret ⟨?_, inSync_new _ _, rfl⟩
    have hs' : Synced { p with nextId := p.nextId + 1 } published := hs
    refine synced_emit hs' ?_
    cases r.2.2 with
    | ok => exact hr
    | error err =>
      intro request hm
      rcases List.mem_append.1 hm with hm | hm
      · exact hr request hm
      · rw [List.mem_singleton.1 hm]
        rfl

structure Searched (idx : Nat) (rest : List (ChildData D R P C K)) (children : List (ChildData D R P C K))
    (found : Option (Nat × Bool)) : Prop where
  missed : found = none → children.length = rest.length ∧ ∀ data ∈ children, Skipped data
  hit : ∀ i deactivate, found = some (i, deactivate) → ∃ skipped data tail, children = skipped ++ data :: tail ∧
    i = idx + skipped.length ∧ (∀ data ∈ skipped, Skipped data) ∧ Chosen data deactivate

theorem outcome_search (hs : Synced p published) (idx : Nat) {rest : List (ChildData D R P C K)} (hr : InSync rest) :
    Outcome (p.search builder idx rest) (fun r => Synced r.1 published ∧ Searched idx rest r.2.1 r.2.2) FromChild := by
  induction rest generalizing p idx with
  | nil => exact .ret ⟨hs, fun _ => ⟨rfl, fun _ h => (by cases h)⟩, fun _ _ h => by cases h⟩
  | cons data rest ih =>
    refine (outcome_activate builder hs (hr data mem_cons_self)).bind fun r h => ?_
    obtain ⟨hs', hsy, ht⟩ := h
    -- The search stops here.
    have hsp (deactivate : Bool)
        (hst : deactivate = false ∧ (∃ timer, r.2.state = .connecting timer) ∨
          deactivate = true ∧ r.2.state = .readyOrIdle) :
        Searched idx (data :: rest) ({ data with child := some r.2 } :: rest) (some (idx, deactivate)) := by
      refine ⟨fun h => (by cases h), fun i b h => ?_⟩
      cases h
      exact ⟨[], _, rest, rfl, rfl, fun _ h => (by cases h), r.2, rfl, hsy, ht, hst⟩
    -- The search goes on with the rest.
    have hgo (hst : r.2.state = .connectingExpired ∨ r.2.state = .transientFailure) : Outcome (do
          let r' ← r.1.search builder (idx + 1) rest
          return (r'.1, { data with child := some r.2 } :: r'.2.1, r'.2.2))
          (fun r => Synced r.1 published ∧ Searched idx (data :: rest) r.2.1 r.2.2) FromChild := by
      have hsk : Skipped { data with child := some r.2 } := ⟨r.2, rfl, hsy, ht, hst⟩
      refine (ih hs' (idx + 1) fun d hd => hr d (mem_cons_of_mem _ hd)).bind fun r' h => .ret ⟨h.1, ?_, ?_⟩
      · intro hn
        obtain ⟨hl, hall⟩ := h.2.missed hn
        refine ⟨by simp [hl], fun d hd => ?_⟩
        rcases List.mem_cons.1 hd with rfl | hd
        · exact hsk
        · exact hall d hd
      · intro i b hf
        obtain ⟨skipped, d, tail, heq, hi, hall, hch⟩ := h.2.hit i b hf
        refine ⟨{ data with child := some r.2 } :: skipped, d, tail, ?_, ?_, fun d' hd' => ?_, hch⟩
        · simp only [heq, cons_append]
        · simp only [length_cons]; omega
        · rcases List.mem_cons.1 hd' with rfl | hd'
          · exact hsk
          · exact hall d' hd'
    cases hst : r.2.state with
    | connecting timer =>
      simp only [hst]
      exact .ret ⟨hs', hsp false (.inl ⟨rfl, timer, hst⟩)⟩
    | readyOrIdle =>
      simp only [hst]
      exact .ret ⟨hs', hsp true (.inr ⟨rfl, hst⟩)⟩
    | connectingExpired =>
      simp only [hst]
      exact hgo (.inl hst)
    | transientFailure =>
      simp only [hst]
      exact hgo (.inr hst)

/-! ## The choice -/

omit [LbPolicy P (PathUpdate D R) C W K E] in
theorem setCurrentPriority_ok [DecidableEq K]
    (hp : p.children = skipped ++ data :: tail) (hc : data.child = some child) (deactivate : Bool) :
    (p.setCurrentPriority skipped.length deactivate : Except (PriorityPanic E) _) =
      .ok ({ p with
        children := skipped ++ data :: if deactivate then tail.map .deactivate else tail
        currentPriority := some skipped.length }.updatePicker child.policy.state) := by
  have ht : p.children.take (skipped.length + 1) = skipped ++ [data] := by
    rw [hp, take_append]
    simp
  have hd : p.children.drop (skipped.length + 1) = tail := by
    rw [hp, drop_append]
    simp
  cases deactivate with
  | true => simp [setCurrentPriority, ht, hd, hc]
  | false => simp [setCurrentPriority, hp, hc]

omit [LbPolicy P (PathUpdate D R) C W K E] in
theorem outcome_setCurrentPriority [DecidableEq K] (hs : Synced p published)
    (hp : p.children = skipped ++ data :: tail) (hc : data.child = some child) (deactivate : Bool)
    (hcur : Current (skipped ++ data :: if deactivate then tail.map .deactivate else tail) skipped.length)
    (hb : ∀ data' ∈ skipped ++ [data], ∃ child, data'.child = some child ∧ child.deactivationTimer = none) :
    Outcome (p.setCurrentPriority skipped.length deactivate : Except (PriorityPanic E) _)
      (SettledAfter published) FromChild := by
  rw [setCurrentPriority_ok hp hc]
  have hs' : Synced { p with
    children := skipped ++ data :: if deactivate then tail.map .deactivate else tail
    currentPriority := some skipped.length } published := hs
  obtain ⟨hpb, hsy⟩ := synced_updatePicker hs' child.policy.state
  have hmem (j : Nat) (d : ChildData D R P C K) (hj : j ≤ skipped.length)
      (hd : (skipped ++ data :: if deactivate then tail.map .deactivate else tail)[j]? = some d) :
      d ∈ skipped ++ [data] := by
    rcases Nat.lt_or_eq_of_le hj with hlt | rfl
    · rw [getElem?_append_left hlt] at hd
      exact mem_append_left _ (mem_of_getElem? hd)
    · simp at hd
      simp [hd]
  refine .ret ⟨⟨?_, ?_, ?_, ?_⟩, hsy⟩
  · intro hn
    simp at hn
  · intro _
    refine ⟨skipped.length, data, child, by simp, ?_, ?_, hc, hpb⟩
    · rw [children_updatePicker]
      exact hcur
    · simp
  · intro i j d hi hj hd
    simp only [currentPriority_updatePicker, children_updatePicker, Option.some.injEq] at hi hd
    subst hi
    obtain ⟨child', hc', -⟩ := hb d (hmem j d hj hd)
    rw [hc']
    rfl
  · intro i j d child' timer hi hd hc' ht
    simp only [currentPriority_updatePicker, children_updatePicker, Option.some.injEq] at hi hd
    subst hi
    by_contra hj
    obtain ⟨child'', hc'', ht'⟩ := hb d (hmem j d (by omega) hd)
    cases hc'.symm.trans hc''
    cases ht.symm.trans ht'

omit [LbPolicy P (PathUpdate D R) C W K E] in
theorem outcome_setCurrentPriority_skipped [DecidableEq K] (hs : Synced p published)
    (hall : ∀ data ∈ p.children, Skipped data) {i : Nat} (hi : i < p.children.length) (hcur : Current p.children i) :
    Outcome (p.setCurrentPriority i false : Except (PriorityPanic E) _) (SettledAfter published) FromChild := by
  have hsp : p.children = p.children.take i ++ p.children[i] :: p.children.drop (i + 1) := by simp
  have hl : (p.children.take i).length = i := by simp; omega
  obtain ⟨child, hc, -⟩ := hall p.children[i] (getElem_mem hi)
  have h := outcome_setCurrentPriority (E := E) hs hsp hc false
  rw [hl] at h
  refine h ?_ fun data hd => ?_
  · rw [if_neg (by simp), ← hsp]
    exact hcur
  · have hm : data ∈ p.children := by
      rw [hsp]
      rcases List.mem_append.1 hd with hd | hd
      · exact mem_append_left _ hd
      · rw [List.mem_singleton.1 hd]
        simp
    obtain ⟨child', hc', -, ht, -⟩ := hall data hm
    exact ⟨child', hc', ht⟩

omit [LbPolicy P (PathUpdate D R) C W K E] in
theorem current_of_skipped {children : List (ChildData D R P C K)} (hne : children ≠ [])
    (hall : ∀ data ∈ children, Skipped data) :
    (∀ i, children.findIdx? (fun data => data.child.any fun child => decide (child.state = .connectingExpired)) =
      some i → i < children.length ∧ Current children i) ∧
    (children.findIdx? (fun data => data.child.any fun child => decide (child.state = .connectingExpired)) = none →
      Current children (children.length - 1)) := by
  have hnt : ∀ data ∈ children, ¬ data.Usable := fun data hd => (hall data hd).not_usable
  constructor
  · intro i hi
    obtain ⟨hlt, hat, hb⟩ := List.findIdx?_eq_some_iff_getElem.1 hi
    refine ⟨hlt, .inr ⟨hnt, .inl ⟨⟨children[i], by simp, ?_⟩, fun j data hj hd => ?_⟩⟩⟩
    · exact (hall _ (getElem_mem hlt)).overdue_iff.2 hat
    · rw [(hall data (mem_of_getElem? hd)).overdue_iff]
      obtain ⟨hlt', rfl⟩ := List.getElem?_eq_some_iff.1 hd
      exact hb j hj
  · intro hn
    have hl := List.length_pos_iff.2 hne
    refine .inr ⟨hnt, .inr ⟨fun data hd => ?_, by omega⟩⟩
    rw [(hall data hd).overdue_iff]
    simpa using List.findIdx?_eq_none_iff.1 hn data hd

theorem outcome_choosePriority [DecidableEq K] (hs : Synced p published) (hsy : InSync p.children) :
    Outcome (p.choosePriority builder) (SettledAfter published) FromChild := by
  unfold choosePriority
  split
  · rename_i hnl
    have hnl : p.children = [] := List.isEmpty_iff.1 hnl
    have hs' : Synced { p with currentPriority := none, nextId := p.nextId + 1 } published := hs
    refine .ret ⟨⟨?_, ?_, ?_, ?_⟩, (synced_updatePicker hs' _).2⟩
    · intro _
      rw [currentPriority_updatePicker]
    · intro hne
      rw [children_updatePicker] at hne
      exact absurd hnl hne
    · intro i j data hi
      rw [currentPriority_updatePicker] at hi
      cases hi
    · intro i j data child timer hi
      rw [currentPriority_updatePicker] at hi
      cases hi
  · rename_i hne
    refine (outcome_search builder hs 0 hsy).bind fun r h => ?_
    obtain ⟨p', children, found⟩ := r
    obtain ⟨hs1, hf⟩ := h
    have hs' : Synced { p' with children := children } published := hs1
    cases found with
    | some choice =>
      obtain ⟨i, deactivate⟩ := choice
      obtain ⟨skipped, data, tail, heq, hi, hall, hch⟩ := hf.hit i deactivate rfl
      obtain rfl : i = skipped.length := by omega
      have hu := hch.usable
      obtain ⟨child, hc, -, ht, -⟩ := hch
      refine outcome_setCurrentPriority hs' heq hc deactivate (.inl ⟨⟨data, by simp, hu⟩, fun j d hj hd => ?_⟩)
        fun d hd => ?_
      · rw [getElem?_append_left hj] at hd
        exact (hall d (mem_of_getElem? hd)).not_usable
      · rcases List.mem_append.1 hd with hd | hd
        · obtain ⟨child', hc', -, ht', -⟩ := hall d hd
          exact ⟨child', hc', ht'⟩
        · rw [List.mem_singleton.1 hd]
          exact ⟨child, hc, ht⟩
    | none =>
      obtain ⟨hl, hall⟩ := hf.missed rfl
      have hl : children.length = p.children.length := hl
      have hp : 0 < p.children.length := List.length_pos_iff.2 fun hnl => hne (by simp [hnl])
      obtain ⟨hsm, hnone⟩ := current_of_skipped (List.length_pos_iff.1 (hl ▸ hp)) hall
      dsimp only
      split
      · rename_i i hi
        obtain ⟨hlt, hcur⟩ := hsm i hi
        exact outcome_setCurrentPriority_skipped hs' hall hlt hcur
      · rename_i hn
        exact outcome_setCurrentPriority_skipped hs' hall (by simp only; omega) (hnone hn)

theorem outcome_reconcile [DecidableEq K] (hs : Synced p published) :
    Outcome (p.reconcile builder) (SettledAfter published) FromChild := by
  have hs' : Synced p.handleDeactivationTimer.updateChildData published := hs
  refine outcome_choosePriority builder hs' fun data hd child hc => ?_
  obtain ⟨data', -, rfl⟩ := List.mem_map.1 hd
  obtain ⟨child', -, rfl⟩ := Option.map_eq_some_iff.1 hc
  exact inSync_updateState child'

end PriorityPolicy

theorem lookup_groupByPath {endpoints : List (PathEndpoint D)} {name : String}
    (h : (groupByPath endpoints).lookup name ≠ none) :
    ∃ endpoint ∈ endpoints, ∃ path, endpoint.path = some (name :: path) := by
  induction endpoints using List.reverseRecOn with
  | nil => exact absurd (AList.lookup_empty name) h
  | append_singleton endpoints endpoint ih =>
    rw [groupByPath, foldl_append] at h
    have hih (h : (groupByPath endpoints).lookup name ≠ none) :
        ∃ e ∈ endpoints ++ [endpoint], ∃ path, e.path = some (name :: path) := by
      obtain ⟨e, hm, he⟩ := ih h
      exact ⟨e, mem_append_left _ hm, he⟩
    simp only [foldl_cons, foldl_nil] at h
    split at h
    · rename_i name' path hp
      rw [HashMap.lookup_insert_ite] at h
      split at h
      · rename_i he
        exact ⟨endpoint, by simp, path, he ▸ hp⟩
      · exact hih h
    · exact hih h

theorem lookup_reorder (update : PathUpdate D R) (entries : List (String × PriorityChildConfig C))
    (r : Reorder D R P C K) {grouped : HashMap String (List (PathEndpoint D))} (hr : r.sharded = .ok grouped) :
    ∃ rest, (entries.foldl (Reorder.add update) r).sharded = .ok rest ∧
      ∀ name, rest.lookup name = if name ∈ entries.map Prod.fst then none else grouped.lookup name := by
  induction entries generalizing r grouped with
  | nil => exact ⟨grouped, hr, fun name => by simp⟩
  | cons entry entries ih =>
    have ha : (Reorder.add update r entry).sharded = .ok (grouped.erase entry.1) := by
      simp [Reorder.add, hr, Except.map]
    obtain ⟨rest, hrest, hl⟩ := ih _ ha
    refine ⟨rest, hrest, fun name => ?_⟩
    rw [hl, HashMap.lookup_erase_ite]
    by_cases he : name = entry.1
    · simp [he]
    · simp only [map_cons, mem_cons, he, false_or, if_false]

inductive Call (D R C W : Type) where
  | resolverUpdate (update : PathUpdate D R) (config : PriorityConfig C)
  | work (data : PriorityWork W)
  | exitIdle

def Call.PathsConfigured : Call D R C W → Prop
  | .resolverUpdate update config => ∀ endpoints, update.endpoints = .ok endpoints →
    ∀ endpoint ∈ endpoints, ∀ name path, endpoint.path = some (name :: path) →
      name ∈ config.orderedChildren.map Prod.fst
  | _ => True

structure Pointed (p : PriorityPolicy D R P C K) : Prop where
  some : ∀ i, p.currentPriority = some i → ∃ data child, p.children[i]? = some data ∧ data.child = some child
  none : p.currentPriority = none → p.children = []

theorem Settled.pointed {published : Option (LbState K)} (h : Settled p published) :
    Pointed p := by
  by_cases hne : p.children = []
  · refine ⟨fun i hi => ?_, fun _ => hne⟩
    cases (h.empty hne).symm.trans hi
  · obtain ⟨i, data, child, hi, -, hd, hc, -⟩ := h.current hne
    refine ⟨fun j hj => ?_, fun hn => ?_⟩
    · cases hi.symm.trans hj
      exact ⟨data, child, hd, hc⟩
    · cases hi.symm.trans hn

namespace PriorityPolicy
variable {p : PriorityPolicy D R P C K} {published : Option (LbState K)} [LbPolicy P (PathUpdate D R) C W K E]

theorem outcome_updateCreated (children : List (ChildData D R P C K)) :
    Outcome (updateCreated children) (fun r => ∀ request ∈ r.2.1, request.picker? = none) FromChild := by
  induction children with
  | nil => exact .ret nofun
  | cons data rest ih =>
    unfold updateCreated
    cases data.child with
    | none => exact ih.bind fun r hr => .ret hr
    | some child =>
      refine (outcome_updateChildPolicy _ _ _).bind fun r hr => ih.bind fun r' hr' => .ret ?_
      exact fun request hm => (List.mem_append.1 hm).elim (hr request) (hr' request)

theorem outcome_offerWork (item : ChildWorkItem W) (children : List (ChildData D R P C K)) :
    Outcome (offerWork item children) (fun r => ∀ request ∈ r.2, request.picker? = none) FromChild := by
  induction children with
  | nil => exact .ret nofun
  | cons data rest ih =>
    unfold offerWork
    cases data.child with
    | none => exact ih.bind fun r hr => .ret hr
    | some child =>
      refine Outcome.bind (.mapError ((child.policy.outcome_tryWork item).mono (fun _ => id) fun e _ => ⟨e, rfl⟩))
        fun claimed hcl => ?_
      cases claimed with
      | some r => exact .ret (hcl r rfl).2
      | none => exact ih.bind fun r hr => .ret hr

omit [LbPolicy P (PathUpdate D R) C W K E] in
theorem all_isEmpty_reorder (p : PriorityPolicy D R P C K) {update : PathUpdate D R} {config : PriorityConfig C}
    (hc : Call.PathsConfigured (.resolverUpdate update config : Call D R C W)) :
    (p.reorder update config).sharded.toOption.all HashMap.isEmpty = true := by
  cases hu : update.endpoints with
  | error status =>
    suffices h : ∀ (entries : List (String × PriorityChildConfig C)) (r : Reorder D R P C K),
        r.sharded = .error status → (entries.foldl (Reorder.add update) r).sharded = .error status by
      rw [reorder, h _ _ (by simp [hu, Except.map])]
      rfl
    intro entries
    induction entries with
    | nil => exact fun _ h => h
    | cons entry entries ih => exact fun r h => ih _ (by simp [Reorder.add, h, Except.map])
  | ok endpoints =>
    have hg : update.endpoints.map groupByPath = .ok (groupByPath endpoints) := by simp [hu, Except.map]
    obtain ⟨rest, hrest, hl⟩ := lookup_reorder update config.orderedChildren
      ⟨update.endpoints.map groupByPath, p.children.foldl (fun old data => old.insert data.name data) ∅, []⟩ hg
    rw [reorder, hrest]
    refine HashMap.isEmpty_iff.2 fun name => ?_
    rw [hl]
    split
    · rfl
    · rename_i hn
      by_contra hne
      obtain ⟨endpoint, hm, path, hp⟩ := lookup_groupByPath hne
      exact hn (hc endpoints hu endpoint hm name path hp)

variable [DecidableEq K] (builder : LbPolicyBuilder P)

def call (p : PriorityPolicy D R P C K) : Call D R C W → Except (PriorityPanic E) (PriorityPolicy D R P C K)
  | .resolverUpdate update config => (p.resolverUpdate builder update config).map (·.1)
  | .work data => p.work builder (some data)
  | .exitIdle => p.exitIdle builder

theorem outcome_call (hs : Synced p published) (hp : Pointed p) {call : Call D R C W} (hc : call.PathsConfigured) :
    Outcome (p.call builder call) (SettledAfter published) FromChild := by
  have hcl {q : PriorityPolicy D R P C K} {requests : List (Request K)}
      (hr : ∀ request ∈ requests, request.picker? = none) (hq : q.requests = p.requests)
      (hq' : q.publishedLbState = p.publishedLbState) : Synced (q.emit requests) published := by
    refine synced_emit ?_ hr
    rw [Synced, hq, hq']
    exact hs
  cases call with
  | resolverUpdate update config =>
    have hall := all_isEmpty_reorder p hc
    refine .map ?_
    simp only [resolverUpdate, hall, if_true]
    refine (outcome_updateCreated _).bind fun r hr => (outcome_reconcile builder ?_).bind fun p' hp' => .ret hp'
    exact hcl hr rfl rfl
  | work data =>
    cases data with
    | timer => exact outcome_reconcile builder hs
    | child item =>
      refine (outcome_offerWork item p.children).bind fun r hr => outcome_reconcile builder ?_
      exact hcl hr rfl rfl
  | exitIdle =>
    unfold PriorityPolicy.call exitIdle
    cases hcur : p.currentPriority with
    | none =>
      have hn := hp.none hcur
      refine .ret ⟨⟨fun _ => hcur, fun hne => absurd hn hne, fun i j data hi => ?_, fun i j data child timer hi => ?_⟩,
        hs⟩
      · cases hcur.symm.trans hi
      · cases hcur.symm.trans hi
    | some idx =>
      obtain ⟨data, child, hd, hch⟩ := hp.some idx hcur
      simp only [hd, hch]
      refine Outcome.bind (.mapError (child.policy.outcome_exitIdle.mono (fun _ => id) fun e _ => ⟨e, rfl⟩))
        fun r hr => outcome_reconcile builder ?_
      exact hcl hr.2 rfl rfl

end PriorityPolicy

inductive Event (D R C W : Type) where
  | call (call : Call D R C W)
  | failoverExpires (index : Nat)
  | deactivationExpires (index : Nat)

def Event.PathsConfigured : Event D R C W → Prop
  | .call c => c.PathsConfigured
  | _ => True

def CreatedChild.failoverExpires (child : CreatedChild P K) : CreatedChild P K :=
  match child.state with
  | .connecting _ => { child with state := .connecting ⟨true⟩ }
  | _ => child

def CreatedChild.deactivationExpires (child : CreatedChild P K) : CreatedChild P K :=
  { child with deactivationTimer := child.deactivationTimer.map fun _ => ⟨true⟩ }

def PriorityPolicy.modifyChild (p : PriorityPolicy D R P C K) (index : Nat)
    (f : CreatedChild P K → CreatedChild P K) : PriorityPolicy D R P C K :=
  { p with children := p.children.modify index fun data => { data with child := data.child.map f } }

theorem Pointed.modifyChild (h : Pointed p) (index : Nat)
    (f : CreatedChild P K → CreatedChild P K) : Pointed (p.modifyChild index f) := by
  refine ⟨fun i hi => ?_, fun hn => ?_⟩
  · obtain ⟨data, child, hd, hc⟩ := h.some i hi
    by_cases he : index = i
    · refine ⟨{ data with child := data.child.map f }, f child, ?_, by simp [hc]⟩
      simp [PriorityPolicy.modifyChild, he, hd]
    · refine ⟨data, child, ?_, hc⟩
      simp [PriorityPolicy.modifyChild, he, hd]
  · simp [PriorityPolicy.modifyChild, h.none hn]

structure Observed (D R P C K : Type) where
  policy : PriorityPolicy D R P C K
  published : Option (LbState K)

namespace Observed

def init : Observed D R P C K := ⟨.build, none⟩

variable [LbPolicy P (PathUpdate D R) C W K E] [DecidableEq K] (builder : LbPolicyBuilder P) {O : Observed D R P C K}

def step (O : Observed D R P C K) : Event D R C W → Except (PriorityPanic E) (Observed D R P C K)
  | .call call => do
    let policy ← { O.policy with requests := [] }.call builder call
    return ⟨policy, lastPicker O.published policy.requests⟩
  | .failoverExpires index => .ok { O with policy := O.policy.modifyChild index .failoverExpires }
  | .deactivationExpires index => .ok { O with policy := O.policy.modifyChild index .deactivationExpires }

inductive Reachable : Observed D R P C K → Prop where
  | init : Reachable .init
  | step {O O' : Observed D R P C K} (event : Event D R C W) :
    Reachable O → event.PathsConfigured → O.step builder event = .ok O' → Reachable O'

theorem outcome_call (hs : O.published = O.policy.publishedLbState) (hp : Pointed O.policy) {call : Call D R C W}
    (hc : call.PathsConfigured) : Outcome (O.step builder (.call call))
      (fun O' => Settled O'.policy O'.published ∧ O'.published = O'.policy.publishedLbState)
      PriorityPolicy.FromChild := by
  have hs0 : Synced { O.policy with requests := [] } O.published := hs
  have hp0 : Pointed { O.policy with requests := [] } := ⟨hp.some, hp.none⟩
  exact (PriorityPolicy.outcome_call builder hs0 hp0 hc).bind fun p' h => .ret h

theorem Reachable.pointed (h : O.Reachable builder) : O.published = O.policy.publishedLbState ∧ Pointed O.policy := by
  induction h with
  | init => exact ⟨rfl, ⟨fun i hi => (by cases hi), fun _ => rfl⟩⟩
  | step event _ hc hok ih =>
    cases event with
    | call call =>
      obtain ⟨hst, hs⟩ := (outcome_call builder ih.1 ih.2 hc).ok _ hok
      exact ⟨hs, hst.pointed⟩
    | failoverExpires index =>
      cases hok
      exact ⟨ih.1, ih.2.modifyChild index _⟩
    | deactivationExpires index =>
      cases hok
      exact ⟨ih.1, ih.2.modifyChild index _⟩

end Observed

/-- Each call ends with the first usable child as the current one and published; only children panic. -/
theorem settled_after_call [LbPolicy P (PathUpdate D R) C W K E] [DecidableEq K] (builder : LbPolicyBuilder P)
    {O : Observed D R P C K} (h : O.Reachable builder) (call : Call D R C W) (hc : call.PathsConfigured) :
    (∃ O', O.step builder (.call call) = .ok O' ∧ Settled O'.policy O'.published) ∨
      ∃ panic, O.step builder (.call call) = .error (.child panic) := by
  obtain ⟨hs, hp⟩ := h.pointed
  have hout := Observed.outcome_call builder hs hp hc
  cases hok : O.step builder (.call call) with
  | ok O' => exact .inl ⟨O', rfl, (hout.ok O' hok).1⟩
  | error e =>
    obtain ⟨panic, rfl⟩ := hout.error e hok
    exact .inr ⟨panic, rfl⟩

/-- Two priorities under graceful switch: the first child fails, and the second is current. -/
theorem settled_after_failover :
    let stub (state : ConnectivityState) : LbPolicyBuilder (StubPolicy (PathUpdate Unit Unit) Unit Unit) :=
      ⟨"stub", fun _ => ⟨fun _ => ([.updatePicker ⟨state, .other ()⟩], .ok ()), fun _ => []⟩⟩
    let builder : LbPolicyBuilder (GracefulSwitchPolicy (StubPolicy (PathUpdate Unit Unit) Unit Unit) Unit) :=
      ⟨"graceful_switch", fun _ => .new⟩
    let children : HashMap String (PriorityChildConfig (GracefulSwitchLbConfig _ Unit)) :=
      ((∅ : HashMap _ _).insert "p0" ⟨⟨stub .transientFailure, ()⟩, false⟩).insert "p1" ⟨⟨stub .ready, ()⟩, false⟩
    let update : PathUpdate Unit Unit := ⟨.ok [⟨(), some ["p1"]⟩, ⟨(), some ["p0"]⟩], ()⟩
    ∃ O', Observed.init.step builder (.call (.resolverUpdate update ⟨["p0", "p1"], children⟩)) = .ok O' ∧
      O'.policy.currentPriority = some 1 ∧ O'.published = some ⟨.ready, .other ()⟩ ∧
      Settled O'.policy O'.published := by
  intro stub builder children update
  have hc : (Call.resolverUpdate update ⟨["p0", "p1"], children⟩ : Call Unit Unit _
      (ChildWorkItem Unit)).PathsConfigured := by
    rintro endpoints ⟨⟩ endpoint hm name path hpt
    simp only [mem_cons, not_mem_nil, or_false] at hm
    rcases hm with rfl | rfl <;> cases hpt <;> decide
  obtain ⟨O', hok⟩ : ∃ O', Observed.init.step builder (.call (.resolverUpdate update ⟨["p0", "p1"], children⟩)) =
    .ok O' := ⟨_, rfl⟩
  rcases settled_after_call builder .init _ hc with ⟨O'', hok', hs⟩ | ⟨panic, hp⟩
  · exact ⟨O'', hok', by cases hok'; rfl, by cases hok'; rfl, hs⟩
  · cases hok.symm.trans hp

end LoadBalancing.Priority
