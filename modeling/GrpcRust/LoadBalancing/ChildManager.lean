import GrpcRust.LoadBalancing.Child
/-!
# The child manager

`client/load_balancing/child_manager.rs`: one child for each item of the last update, in that order. Work items find
their child by its handle.
-/

namespace LoadBalancing

open Lib

variable {T P U C W K K' E : Type}

structure ChildUpdate (T P U C : Type) where
  childIdentifier : T
  childPolicyBuilder : LbPolicyBuilder P
  childUpdate : Option (U × C)

structure ChildManager (T P K : Type) where
  handleToChildIdx : HashMap Nat Nat
  children : List (T × Child P K)
  childrenChanged : Bool
  nextHandle : Nat

inductive ChildManagerPanic (E : Type) where
  | child (panic : E)
  | childIdx

def ChildManagerPanic.IsChild : ChildManagerPanic E → Prop
  | .child _ => True
  | .childIdx => False

namespace ChildManager

def new : ChildManager T P K := ⟨∅, [], false, 0⟩

def aggregate : List ConnectivityState → Bool → Bool → ConnectivityState
  | [], isConnecting, isIdle =>
    if isConnecting then .connecting else if isIdle then .idle else .transientFailure
  | .ready :: _, _, _ => .ready
  | .connecting :: states, _, isIdle => aggregate states true isIdle
  | .idle :: states, isConnecting, _ => aggregate states isConnecting true
  | .transientFailure :: states, isConnecting, isIdle => aggregate states isConnecting isIdle

def aggregateStates (m : ChildManager T P K) : ConnectivityState :=
  aggregate (m.children.map fun c => c.2.state.connectivityState) false false

def childUpdated (m : ChildManager T P K) : ChildManager T P K × Bool :=
  ({ m with childrenChanged := false, children := m.children.map fun c => (c.1, c.2.clearUpdated) },
    m.children.foldl (fun updated c => c.2.updated || updated) m.childrenChanged)

/-! ## The set of children -/

structure Reset (T P K : Type) where
  oldChildren : HashMap (String × T) (Child P K)
  manager : ChildManager T P K

section
variable [DecidableEq T]

/-- `old_children.remove`, or else a new child. -/
def Reset.take (r : Reset T P K) (identifier : T) (builder : LbPolicyBuilder P) : Reset T P K × Child P K :=
  match r.oldChildren.lookup (builder.name, identifier) with
  | some child => ({ r with oldChildren := r.oldChildren.erase (builder.name, identifier) }, child)
  | none =>
    ({ r with
        manager := { r.manager with childrenChanged := true, nextHandle := r.manager.nextHandle + 1 } },
      .new builder r.manager.nextHandle)

def Reset.step (r : Reset T P K) (item : T × LbPolicyBuilder P) : Reset T P K :=
  let (r, child) := r.take item.1 item.2
  { r with
    manager :=
      { r.manager with
        handleToChildIdx := r.manager.handleToChildIdx.insert child.handle r.manager.children.length
        children := r.manager.children ++ [(item.1, child)] } }

def resetChildren (m : ChildManager T P K) (idsBuilders : List (T × LbPolicyBuilder P)) : ChildManager T P K :=
  let oldChildren : HashMap (String × T) (Child P K) := m.children.foldl (fun old c => old.insert (c.2.name, c.1) c.2) ∅
  let r := idsBuilders.foldl Reset.step ⟨oldChildren, { m with handleToChildIdx := ∅, children := [] }⟩
  if HashMap.isEmpty r.oldChildren then r.manager else { r.manager with childrenChanged := true }

end

/-! ## Calls of the children -/

def errorTexts (text : String → String) : Except String Unit → List String
  | .ok () => []
  | .error err => [text err]

/-- A loop over the children, each with an argument: the requests they pass on and the errors they return. -/
def forChildren {X : Type} (call : X → Child P K → Except E (Child P K × List (Request K') × Except String Unit))
    (text : T → String → String) : List (T × Child P K) → List X →
    Except E (List (T × Child P K) × List (Request K') × List String)
  | (id, child) :: children, x :: xs => do
    let (child, passed, result) ← call x child
    let (children, passed', errs) ← forChildren call text children xs
    return ((id, child) :: children, passed ++ passed', errorTexts (text id) result ++ errs)
  | children, _ => .ok (children, [], [])

def joinErrs (errs : List String) : Except String Unit :=
  if errs.isEmpty then .ok () else .error ("; ".intercalate errs)

section
variable [LbPolicy P U C W K E]

def updateChild (update : Option (U × C)) (child : Child P K) :
    Except (ChildManagerPanic E) (Child P K × List (Request K') × Except String Unit) :=
  match update with
  | none => .ok (child, [], .ok ())
  | some (update, config) => (child.resolverUpdate update config).mapError .child

def update [DecidableEq T] [Repr T] (m : ChildManager T P K) (childUpdates : List (ChildUpdate T P U C)) :
    Except (ChildManagerPanic E) (ChildManager T P K × List (Request K') × Except String Unit) := do
  let m := m.resetChildren (childUpdates.map fun e => (e.childIdentifier, e.childPolicyBuilder))
  let (children, passed, errs) ← forChildren updateChild (fun id err => "child " ++ reprStr id ++ ": " ++ err)
    m.children (childUpdates.map (·.childUpdate))
  return ({ m with children := children }, passed, joinErrs errs)

def resolverUpdate (m : ChildManager T P K) (update : U) (config : C) :
    Except (ChildManagerPanic E) (ChildManager T P K × List (Request K') × Except String Unit) := do
  let (children, passed, errs) ← forChildren updateChild (fun _ err => err) m.children
    (m.children.map fun _ => some (update, config))
  return ({ m with children := children }, passed, joinErrs errs)

def work (m : ChildManager T P K) (data : Option (ChildWorkItem W)) :
    Except (ChildManagerPanic E) (ChildManager T P K × List (Request K')) :=
  match data with
  | none => .ok (m, [])
  | some item =>
    match m.handleToChildIdx.lookup item.handle with
    | none => .ok (m, [])
    | some idx =>
      match m.children[idx]? with
      | none => .error .childIdx
      | some (id, child) => do
        let (child, passed) ← (child.workItem item.data).mapError .child
        return ({ m with children := m.children.set idx (id, child) }, passed)

def exitIdle (m : ChildManager T P K) : Except (ChildManagerPanic E) (ChildManager T P K × List (Request K')) := do
  let (children, passed, _) ← forChildren
    (fun (_ : Unit) child => (child.exitIdle.mapError .child).map fun r => (r.1, r.2, .ok ()))
    (fun _ err => err) m.children (m.children.map fun _ => ())
  return ({ m with children := children }, passed)

end

/-! ## The aggregate state -/

def rank : ConnectivityState → Nat
  | .ready => 3
  | .connecting => 2
  | .idle => 1
  | .transientFailure => 0

theorem rank_le_ready (s : ConnectivityState) : rank s ≤ rank .ready := by cases s <;> decide

theorem aggregate_spec (ss : List ConnectivityState) (ic ii : Bool) :
    (aggregate ss ic ii ∈ ss ∨ aggregate ss ic ii = aggregate [] ic ii) ∧
    rank (aggregate [] ic ii) ≤ rank (aggregate ss ic ii) ∧
    ∀ st ∈ ss, rank st ≤ rank (aggregate ss ic ii) := by
  induction ss generalizing ic ii with
  | nil => exact ⟨.inr rfl, Nat.le_refl _, nofun⟩
  | cons st ss ih =>
    cases st with
    | ready => exact ⟨.inl (.head _), rank_le_ready _, fun s _ => rank_le_ready s⟩
    | connecting =>
      obtain ⟨hm, hb, hs⟩ := ih true ii
      have h2 : rank .connecting ≤ rank (aggregate ss true ii) := hb
      refine ⟨.inl ?_, ?_, fun s h => ?_⟩
      · rcases hm with hm | hm
        · exact .tail _ hm
        · exact List.mem_cons.2 (.inl hm)
      · refine Nat.le_trans ?_ h2
        cases ic <;> cases ii <;> decide
      · rcases List.mem_cons.1 h with rfl | h
        · exact h2
        · exact hs s h
    | idle =>
      obtain ⟨hm, hb, hs⟩ := ih ic true
      refine ⟨?_, ?_, fun s h => ?_⟩
      · rcases hm with hm | hm
        · exact .inl (.tail _ hm)
        · cases ic
          · exact .inl (List.mem_cons.2 (.inl hm))
          · exact .inr hm
      · refine Nat.le_trans ?_ hb
        cases ic <;> cases ii <;> decide
      · rcases List.mem_cons.1 h with rfl | h
        · refine Nat.le_trans ?_ hb
          cases ic <;> decide
        · exact hs s h
    | transientFailure =>
      obtain ⟨hm, hb, hs⟩ := ih ic ii
      refine ⟨hm.imp_left (.tail _), hb, fun s h => ?_⟩
      rcases List.mem_cons.1 h with rfl | h
      · exact Nat.zero_le _
      · exact hs s h

theorem aggregateStates_spec (m : ChildManager T P K) (h : m.children ≠ []) :
    (∃ c ∈ m.children, c.2.state.connectivityState = m.aggregateStates) ∧
      ∀ c ∈ m.children, rank c.2.state.connectivityState ≤ rank m.aggregateStates := by
  obtain ⟨hm, -, hs⟩ := aggregate_spec (m.children.map fun c => c.2.state.connectivityState) false false
  refine ⟨?_, fun c hc => hs _ (List.mem_map.2 ⟨c, hc, rfl⟩)⟩
  rcases hm with hm | hm
  · obtain ⟨c, hc, he⟩ := List.mem_map.1 hm
    exact ⟨c, hc, he⟩
  · -- Otherwise all children have failed.
    obtain ⟨c, hc⟩ := List.exists_mem_of_ne_nil _ h
    refine ⟨c, hc, ?_⟩
    have hle := hs _ (List.mem_map.2 ⟨c, hc, rfl⟩)
    show _ = aggregate _ false false
    rw [hm] at hle ⊢
    revert hle
    cases c.2.state.connectivityState <;> decide

/-! ## Children and their positions -/

def Indexed (m : ChildManager T P K) : Prop :=
  ∀ handle idx, m.handleToChildIdx.lookup handle = some idx →
    ∃ id child, m.children[idx]? = some (id, child) ∧ child.handle = handle

def Kept (children children' : List (T × Child P K)) : Prop :=
  List.Forall₂ (fun c c' => c'.1 = c.1 ∧ c'.2.handle = c.2.handle) children children'

theorem Kept.eq_nil {c c' : List (T × Child P K)} (h : Kept c c') : c' = [] ↔ c = [] := by
  cases h <;> simp

def Called (children children' : List (T × Child P K)) : Prop :=
  List.Forall₂ (fun c c' => c'.1 = c.1 ∧ c.2.Ran c'.2) children children'

theorem Called.refl (children : List (T × Child P K)) : Called children children :=
  List.forall₂_same.2 fun c _ => ⟨rfl, .refl c.2⟩

theorem Called.kept {children children' : List (T × Child P K)} (h : Called children children') :
    Kept children children' :=
  h.imp fun _ _ hc => ⟨hc.1, hc.2.handle⟩

theorem Indexed.kept {m m' : ChildManager T P K} (h : m.Indexed) (hk : Kept m.children m'.children)
    (hi : m'.handleToChildIdx = m.handleToChildIdx) : m'.Indexed := by
  intro hn idx hl
  rw [hi] at hl
  obtain ⟨id, c, hc, hh⟩ := h hn idx hl
  obtain ⟨hlt, hg⟩ := List.getElem?_eq_some_iff.1 hc
  have hlt' : idx < m'.children.length := hk.length_eq ▸ hlt
  have hr := (List.forall₂_iff_get.1 hk).2 idx hlt hlt'
  simp only [List.get_eq_getElem, hg] at hr
  exact ⟨_, _, List.getElem?_eq_getElem hlt', hr.2.trans hh⟩

section
variable [DecidableEq T]

theorem Reset.take_manager (r : Reset T P K) (id : T) (b : LbPolicyBuilder P) :
    (r.take id b).1.manager.children = r.manager.children ∧
      (r.take id b).1.manager.handleToChildIdx = r.manager.handleToChildIdx := by
  unfold Reset.take
  split <;> exact ⟨rfl, rfl⟩

theorem Reset.indexed_step {r : Reset T P K} (h : r.manager.Indexed) (item : T × LbPolicyBuilder P) :
    (r.step item).manager.Indexed := by
  obtain ⟨hc, hi⟩ := r.take_manager item.1 item.2
  intro hn idx hl
  simp only [Reset.step, hc, hi] at hl ⊢
  rcases HashMap.lookup_insert_eq_some.1 hl with ⟨rfl, rfl⟩ | ⟨-, hl⟩
  · exact ⟨item.1, (r.take item.1 item.2).2, by simp, rfl⟩
  · obtain ⟨id, c, hg, hh⟩ := h hn idx hl
    refine ⟨id, c, ?_, hh⟩
    rw [List.getElem?_append_left (List.getElem?_eq_some_iff.1 hg).1]
    exact hg

theorem resetChildren_spec (m : ChildManager T P K) (ib : List (T × LbPolicyBuilder P)) :
    (m.resetChildren ib).children.map (·.1) = ib.map (·.1) ∧ (m.resetChildren ib).Indexed := by
  suffices h : ∀ (im : List (T × LbPolicyBuilder P)) (r : Reset T P K), r.manager.Indexed →
      (im.foldl Reset.step r).manager.children.map (·.1) = r.manager.children.map (·.1) ++ im.map (·.1) ∧
      (im.foldl Reset.step r).manager.Indexed by
    unfold resetChildren
    extract_lets oldChildren r
    have hr := h ib ⟨oldChildren, { m with handleToChildIdx := ∅, children := [] }⟩
      (fun _ _ hl => by simp at hl)
    split <;> exact hr
  intro im
  induction im with
  | nil => exact fun r hr => ⟨by simp, hr⟩
  | cons item im ih =>
    intro r hr
    obtain ⟨hi, hid⟩ := ih (r.step item) (Reset.indexed_step hr item)
    refine ⟨hi.trans ?_, hid⟩
    simp [Reset.step, (r.take_manager item.1 item.2).1]

end

/-! ## What a call does to the children -/

theorem outcome_forChildren {X : Type} {Q : X → Prop} {R : E → Prop}
    {call : X → Child P K → Except E (Child P K × List (Request K') × Except String Unit)}
    (hc : ∀ x cl, Outcome (call x cl) (fun r => cl.Runs r.1 r.2.1 ∧ (Q x → r.2.2 = .ok ())) R)
    (t : T → String → String) (ch : List (T × Child P K)) (xs : List X) : Outcome (forChildren call t ch xs)
      (fun r => Called ch r.1 ∧ (∀ rq ∈ r.2.1, rq.picker? = none) ∧ ((∀ x ∈ xs, Q x) → r.2.2 = []))
      R := by
  induction ch generalizing xs with
  | nil => exact .ret ⟨.nil, nofun, fun _ => rfl⟩
  | cons c ch ih =>
    cases xs with
    | nil => exact .ret ⟨Called.refl _, nofun, fun _ => rfl⟩
    | cons x xs =>
      refine (hc x c.2).bind fun r hr => (ih xs).bind fun r' hr' => .ret ⟨?_, ?_, fun hall => ?_⟩
      · exact .cons ⟨rfl, hr.1.1⟩ hr'.1
      · intro rq hm
        rcases List.mem_append.1 hm with hm | hm
        · exact hr.1.2 rq hm
        · exact hr'.2.1 rq hm
      · have hrs := hr.2 (hall x (.head _))
        have he := hr'.2.2 fun x hx => hall x (.tail _ hx)
        simp [hrs, he, errorTexts]

variable [LbPolicy P U C W K E] {m : ChildManager T P K} {Q : Option (U × C) → Prop}

theorem outcome_updateChild
    (haccept : ∀ (policy : P) update config, Q (some (update, config)) →
      Outcome (LbPolicy.resolverUpdate policy update config) (fun r => r.2.2 = .ok ()) fun _ => True)
    (update : Option (U × C)) (child : Child P K) :
    Outcome (updateChild update child : Except _ (_ × List (Request K') × _))
      (fun r => child.Runs r.1 r.2.1 ∧ (Q update → r.2.2 = .ok ())) ChildManagerPanic.IsChild := by
  cases update with
  | none => exact .ret ⟨⟨.refl child, nofun⟩, fun _ => rfl⟩
  | some update =>
    refine .mapError ((child.outcome_resolverUpdate update.1 update.2).mono (fun r hr => ⟨hr.1, fun hok => ?_⟩)
      fun _ _ => trivial)
    obtain ⟨requests, hc⟩ := hr.2
    exact (haccept child.policy update.1 update.2 hok).ok _ hc

theorem outcome_update [DecidableEq T] [Repr T]
    (haccept : ∀ (policy : P) update config, Q (some (update, config)) →
      Outcome (LbPolicy.resolverUpdate policy update config) (fun r => r.2.2 = .ok ()) fun _ => True)
    (m : ChildManager T P K) (childUpdates : List (ChildUpdate T P U C)) :
    Outcome (m.update childUpdates : Except _ (_ × List (Request K') × _))
      (fun r => r.1.Indexed ∧ (r.1.children = [] ↔ childUpdates = []) ∧ (∀ request ∈ r.2.1, request.picker? = none) ∧
        ((∀ e ∈ childUpdates, Q e.childUpdate) → r.2.2 = .ok ())) ChildManagerPanic.IsChild := by
  obtain ⟨hi, hid⟩ := m.resetChildren_spec (childUpdates.map fun e => (e.childIdentifier, e.childPolicyBuilder))
  refine (outcome_forChildren (outcome_updateChild haccept) _ _ _).bind fun r hr => .ret ?_
  obtain ⟨hk, hrq, her⟩ := hr
  refine ⟨hid.kept hk.kept rfl, hk.kept.eq_nil.trans ?_, hrq, fun hall => ?_⟩
  · rw [← List.map_eq_nil_iff (f := (·.1)), hi]
    simp
  · have : r.2.2 = [] := her fun x hx => by
      obtain ⟨e, he, rfl⟩ := List.mem_map.1 hx
      exact hall e he
    simp [this, joinErrs]

def Calls (m m' : ChildManager T P K) (passed : List (Request K')) : Prop :=
  m'.Indexed ∧ (m'.children = [] ↔ m.children = []) ∧ m'.childrenChanged = m.childrenChanged ∧
    ∀ request ∈ passed, request.picker? = none

theorem outcome_exitIdle (h : m.Indexed) :
    Outcome (m.exitIdle : Except _ (_ × List (Request K'))) (fun r => m.Calls r.1 r.2) ChildManagerPanic.IsChild := by
  refine (outcome_forChildren (Q := fun _ => False) (fun _ c => ?_) _ _ _).bind fun _ hr =>
    .ret ⟨h.kept hr.1.kept rfl, hr.1.kept.eq_nil, rfl, hr.2.1⟩
  refine .map (.mapError (c.outcome_exitIdle.mono (fun r hr => ⟨hr, fun h => h.elim⟩) fun _ _ => trivial))

theorem outcome_work (h : m.Indexed) (d : Option (ChildWorkItem W)) :
    Outcome (m.work d : Except _ (_ × List (Request K'))) (fun r => m.Calls r.1 r.2)
      ChildManagerPanic.IsChild := by
  have hsame : m.Calls m ([] : List (Request K')) := ⟨h, Iff.rfl, rfl, nofun⟩
  cases d with
  | none => exact .ret hsame
  | some item =>
    cases hl : m.handleToChildIdx.lookup item.handle with
    | none =>
      simp only [work, hl]
      exact .ret hsame
    | some idx =>
      obtain ⟨id, c, hc, -⟩ := h item.handle idx hl
      simp only [work, hl, hc]
      have hrn : Outcome ((c.workItem item.data).mapError .child : Except (ChildManagerPanic E) _)
          (fun r => c.Runs r.1 (r.2 : List (Request K'))) ChildManagerPanic.IsChild :=
        .mapError ((c.outcome_workItem item.data).mono (fun _ hr => hr) fun _ _ => trivial)
      refine hrn.bind fun r hr => .ret ?_
      have hk : Kept m.children (m.children.set idx (id, r.1)) := by
        refine List.forall₂_iff_get.2 ⟨by simp, fun i hi hi' => ?_⟩
        simp only [List.get_eq_getElem, List.getElem_set]
        split
        · subst idx
          obtain ⟨hlt, hg⟩ := List.getElem?_eq_some_iff.1 hc
          rw [hg]
          exact ⟨rfl, hr.1.handle⟩
        · exact ⟨rfl, rfl⟩
      exact ⟨h.kept hk rfl, hk.eq_nil, rfl, hr.2⟩

end ChildManager

end LoadBalancing
