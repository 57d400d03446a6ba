import GrpcRust.Lib.Panics
import GrpcRust.LoadBalancing.Subchannel
/-!
# Child policies

`client/load_balancing/mod.rs` and `child_manager.rs`. What a policy does in a call is arbitrary, up to panics of type
`E`.
-/

namespace LoadBalancing

open Lib

inductive DynPicker (K : Type) where
  | queuing (id : Nat)
  | failing (id : Nat) (error : String)
  | other (picker : K)
deriving DecidableEq

structure LbState (K : Type) where
  connectivityState : ConnectivityState
  picker : DynPicker K
deriving DecidableEq

variable {P U C W K K' E : Type}

def LbState.initial (id : Nat) : LbState K := ⟨.connecting, .queuing id⟩

inductive Request (K : Type) where
  | updatePicker (state : LbState K)
  | requestResolution
deriving DecidableEq

/-- Each call returns the policy, its requests in order, and for an update what the resolver is told. -/
class LbPolicy (P : Type) (U C W K E : outParam Type) where
  resolverUpdate : P → U → C → Except E (P × List (Request K) × Except String Unit)
  work : P → Option W → Except E (P × List (Request K))
  exitIdle : P → Except E (P × List (Request K))

structure StubPolicy (U W K : Type) where
  resolverUpdate : U → List (Request K) × Except String Unit
  work : Option W → List (Request K)

instance : LbPolicy (StubPolicy U W K) U Unit W K Empty where
  resolverUpdate p update _ := .ok (p, p.resolverUpdate update)
  work p data := .ok (p, p.work data)
  exitIdle p := .ok (p, [])

structure LbPolicyBuilder (P : Type) where
  name : String
  build : Nat → P

structure ChildWorkItem (W : Type) where
  handle : Nat
  data : Option W

structure Child (P K : Type) where
  name : String
  policy : P
  handle : Nat
  state : LbState K
  updated : Bool
  suppressResolution : Bool

def Request.picker? : Request K → Option (LbState K)
  | .updatePicker state => some state
  | .requestResolution => none

def lastPicker (published : Option (LbState K)) (requests : List (Request K)) : Option (LbState K) :=
  (requests.filterMap Request.picker?).getLast?.or published

theorem lastPicker_eq {rs : List (Request K)} (h : ∀ r ∈ rs, r.picker? = none)
    (published : Option (LbState K)) : lastPicker published rs = published := by
  rw [lastPicker, List.filterMap_eq_nil_iff.2 h]
  rfl

theorem lastPicker_append (p : Option (LbState K)) (requests requests' : List (Request K)) :
    lastPicker p (requests ++ requests') = lastPicker (lastPicker p requests) requests' := by
  simp only [lastPicker, List.filterMap_append, List.getLast?_append]
  cases (requests'.filterMap Request.picker?).getLast? <;> rfl

theorem lastPicker_snoc (p : Option (LbState K)) (rs : List (Request K)) (state : LbState K) :
    lastPicker p (rs ++ [.updatePicker state]) = some state := by
  simp [lastPicker, Request.picker?]

namespace Child

def new (builder : LbPolicyBuilder P) (handle : Nat) : Child P K :=
  ⟨builder.name, builder.build handle, handle, .initial handle, false, false⟩

def setSuppressResolution (child : Child P K) (suppress : Bool) : Child P K :=
  { child with suppressResolution := suppress }

/-- `take_updated`, without its result. -/
def clearUpdated (child : Child P K) : Child P K := { child with updated := false }

def record (child : Child P K) : List (Request K) → Child P K × List (Request K')
  | [] => (child, [])
  | .updatePicker state :: requests => record { child with state := state, updated := true } requests
  | .requestResolution :: requests =>
    let (child', passed) := child.record requests
    (child', if child.suppressResolution then passed else .requestResolution :: passed)

variable [LbPolicy P U C W K E]

def resolverUpdate (child : Child P K) (update : U) (config : C) :
    Except E (Child P K × List (Request K') × Except String Unit) := do
  let (policy, requests, result) ← LbPolicy.resolverUpdate child.policy update config
  let (child, passed) := { child with policy := policy }.record requests
  return (child, passed, result)

def workItem (child : Child P K) (data : Option W) : Except E (Child P K × List (Request K')) := do
  let (policy, requests) ← LbPolicy.work child.policy data
  return { child with policy := policy }.record requests

def tryWork (child : Child P K) (item : ChildWorkItem W) : Except E (Option (Child P K × List (Request K'))) :=
  if item.handle = child.handle then (child.workItem item.data).map some else .ok none

def exitIdle (child : Child P K) : Except E (Child P K × List (Request K')) := do
  let (policy, requests) ← LbPolicy.exitIdle child.policy
  return { child with policy := policy }.record requests

end Child

/-! ## What a call does to a child -/

namespace Child

/-- A child after one of its calls: only the policy changes, and the state with a picker. -/
structure Ran (child child' : Child P K) : Prop where
  name : child'.name = child.name
  handle : child'.handle = child.handle
  suppressResolution : child'.suppressResolution = child.suppressResolution
  state : child'.updated = true ∨ child'.updated = child.updated ∧ child'.state = child.state

theorem Ran.refl (child : Child P K) : child.Ran child := ⟨rfl, rfl, rfl, .inr ⟨rfl, rfl⟩⟩

theorem ran_record (ch : Child P K) (policy : P) (rs : List (Request K)) :
    Ran ch (({ ch with policy := policy }.record rs : _ × List (Request K')).1) := by
  suffices h : ∀ c : Child P K, c.name = ch.name → c.handle = ch.handle → c.suppressResolution = ch.suppressResolution →
      (c.updated = true ∨ c.updated = ch.updated ∧ c.state = ch.state) →
      Ran ch ((c.record rs : _ × List (Request K')).1) by
    exact h _ rfl rfl rfl (.inr ⟨rfl, rfl⟩)
  induction rs with
  | nil => exact fun c hn hh hs hst => ⟨hn, hh, hs, hst⟩
  | cons r rs ih =>
    intro c hn hh hs hst
    cases r with
    | updatePicker s => exact ih _ hn hh hs (.inl rfl)
    | requestResolution => exact ih c hn hh hs hst

variable (c : Child P K) (rs : List (Request K))

theorem policy_record : ((c.record rs : _ × List (Request K')).1).policy = c.policy := by
  induction rs generalizing c with
  | nil => rfl
  | cons r rs ih =>
    cases r with
    | updatePicker s => exact ih _
    | requestResolution => exact ih c

theorem passed_record : (c.record rs : _ × List (Request K')).2 = if c.suppressResolution then []
      else (rs.filter fun r => r.picker?.isNone).map fun _ => .requestResolution := by
  induction rs generalizing c with
  | nil => simp [record]
  | cons r rs ih =>
    cases r with
    | updatePicker s => simp [record, ih, Request.picker?]
    | requestResolution =>
      simp only [record, ih, Request.picker?]
      split <;> simp

theorem not_picker_of_passed {c : Child P K} {rs : List (Request K)} {r : Request K'}
    (h : r ∈ (c.record rs : _ × List (Request K')).2) : r.picker? = none := by
  rw [passed_record] at h
  split at h
  · cases h
  · obtain ⟨_, -, rfl⟩ := List.mem_map.1 h
    rfl

variable [LbPolicy P U C W K E]

/-- One call, whatever the policy does: `child'` is the child afterwards, `passed` goes to the channel. -/
def Runs (child child' : Child P K) (passed : List (Request K')) : Prop :=
  child.Ran child' ∧ ∀ request ∈ passed, request.picker? = none

theorem runs_record (policy : P) (rs : List (Request K)) :
    c.Runs ({ c with policy := policy }.record rs : _ × List (Request K')).1
      ({ c with policy := policy }.record rs : _ × List (Request K')).2 :=
  ⟨ran_record c policy rs, fun _ => not_picker_of_passed⟩

theorem outcome_resolverUpdate (u : U) (cn : C) : Outcome (c.resolverUpdate u cn : Except E (_ × List (Request K') × _))
      (fun r => c.Runs r.1 r.2.1 ∧ ∃ rs, LbPolicy.resolverUpdate c.policy u cn = .ok (r.1.policy, rs, r.2.2))
      fun _ => True := by
  refine (Outcome.any _).bind fun r hr => .ret ⟨runs_record c r.1 r.2.1, r.2.1, ?_⟩
  rw [hr, policy_record]

theorem outcome_workItem (d : Option W) :
    Outcome (c.workItem d : Except E (_ × List (Request K'))) (fun r => c.Runs r.1 r.2) fun _ => True :=
  (Outcome.any _).bind fun r _ => .ret (runs_record c r.1 r.2)

theorem outcome_tryWork (item : ChildWorkItem W) : Outcome (c.tryWork item : Except E (Option (_ × List (Request K'))))
      (fun cl => ∀ r, cl = some r → c.Runs r.1 r.2) fun _ => True := by
  unfold tryWork
  split
  · refine .map ((c.outcome_workItem item.data).mono (fun r hr => ?_) fun _ => id)
    rintro _ ⟨⟩
    exact hr
  · exact .ret nofun

theorem outcome_exitIdle :
    Outcome (c.exitIdle : Except E (_ × List (Request K'))) (fun r => c.Runs r.1 r.2) fun _ => True :=
  (Outcome.any _).bind fun r _ => .ret (runs_record c r.1 r.2)

end Child

end LoadBalancing
