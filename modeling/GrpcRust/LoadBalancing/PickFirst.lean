import GrpcRust.LoadBalancing.Subchannel
/-!
# The pick_first policy

`client/load_balancing/pick_first.rs`: the first connection that succeeds is kept. `unwrap` and `expect` are results
of type `Panic`. `fresh` is the state of a subchannel when it is obtained.
-/

namespace LoadBalancing

open Lib List

variable {A : Type}

structure PickFirstConfig where
  shuffleAddressList : Bool
deriving DecidableEq

structure Timer where
  expired : Bool
deriving DecidableEq

structure SteadyState where
  failureThreshold : Nat
  failureCount : Nat
deriving DecidableEq

inductive Panic where
  | rebuildState
  /-- "Expected non-None subchannel state" -/
  | frontierState
  /-- "no last connection error set" -/
  | lastConnectionError
deriving DecidableEq

/-- The policy, the number of handles obtained so far, and what it has asked for in the current call. -/
structure PickFirstPolicy (A : Type) where
  connectivityState : ConnectivityState
  subchannels : List (Subchannel A)
  subchannelStates : HashMap (Address A) SubchannelState
  selected : Option (Subchannel A)
  frontierIndex : Nat
  lastConnectionError : Option String
  resolutionNote : Option String
  timer : Option Timer
  steadyState : Option SteadyState
  nextId : Nat
  effects : List (Effect A)

structure Env (A : Type) where
  fresh : Address A → SubchannelState
  shuffle : List (Endpoint A) → List (Endpoint A)
  shuffle_perm : ∀ l, (shuffle l).Perm l

/-! ## Addresses -/

section
variable [DecidableEq A]

def uniqueAddresses (addresses : List (Address A)) : List (Address A) :=
  addresses.foldl (fun seen addr => if addr ∈ seen then seen else seen ++ [addr]) []

def interleave : Nat → List (Address A) → List (Address A) → List (Address A) → List (Address A)
  | 0, _, _, _ => []
  | rounds + 1, v6, v4, unknown =>
    v6.head?.toList ++ v4.head?.toList ++ unknown.head?.toList ++ interleave rounds v6.tail v4.tail unknown.tail

def tcpIpNetworkType : String := "tcp"

def compileAddress (env : Env A) (endpoints : List (Endpoint A)) (config : PickFirstConfig) : List (Address A) :=
  let endpoints := if config.shuffleAddressList then env.shuffle endpoints else endpoints
  let unique := uniqueAddresses (endpoints.flatMap (·.addresses))
  let tcp := unique.filter (fun addr => decide (addr.networkType = tcpIpNetworkType))
  let unknown := unique.filter (fun addr => !decide (addr.networkType = tcpIpNetworkType))
  -- A colon in the text is taken for an IPv6 address.
  let ipv6 := tcp.filter (fun addr => addr.address.toList.contains ':')
  let ipv4 := tcp.filter (fun addr => !addr.address.toList.contains ':')
  interleave (max ipv6.length (max ipv4.length unknown.length)) ipv6 ipv4 unknown

end

namespace PickFirstPolicy

def build : PickFirstPolicy A := ⟨.idle, [], ∅, none, 0, none, none, none, none, 0, []⟩

variable (p : PickFirstPolicy A)

def emit (effect : Effect A) : PickFirstPolicy A := { p with effects := p.effects ++ [effect] }

def updatePicker (p : PickFirstPolicy A) (state : ConnectivityState) (picker : Picker A) : PickFirstPolicy A :=
  if p.connectivityState = state ∧ state = .connecting then p
  else { p with connectivityState := state }.emit (.updatePicker state picker)

def subchannelDrop : PickFirstPolicy A := { p with selected := none }.updatePicker .idle .idle

section
variable [DecidableEq A]

variable (p : PickFirstPolicy A) (sc : Subchannel A) (env : Env A)

def subchannelIsSelected : Bool := p.selected.any fun sel => decide (sel.address = sc.address)

def subchannelIsCurrent : Bool := p.subchannels.any fun sc' => decide (sc'.address = sc.address)

def stateOf : Option ConnectivityState := (p.subchannelStates.lookup sc.address).map (·.connectivityState)

/-! ## Rebuilding the list -/

structure Rebuild (A : Type) where
  existing : HashMap (Address A) (Subchannel A)
  subchannels : List (Subchannel A)
  states : HashMap (Address A) SubchannelState
  ready : Option (Subchannel A)
  nextId : Nat

def Rebuild.add (r : Rebuild A) (sc : Subchannel A) (state : SubchannelState) : Rebuild A :=
  { r with
    ready :=
      if state.connectivityState = .ready then
        if p.subchannelIsSelected sc then some sc else r.ready.or (some sc)
      else r.ready
    subchannels := r.subchannels ++ [sc]
    states := r.states.insert sc.address state }

def Rebuild.step (p : PickFirstPolicy A) (r : Rebuild A) (addr : Address A) : Except Panic (Rebuild A) :=
  match r.existing.lookup addr with
  | some sc =>
    match p.subchannelStates.lookup addr with
    | none => .error .rebuildState
    | some state => .ok (Rebuild.add p { r with existing := r.existing.erase addr } sc state)
  | none => .ok (Rebuild.add p { r with nextId := r.nextId + 1 } ⟨r.nextId, addr⟩ (env.fresh addr))

def existingSubchannels : HashMap (Address A) (Subchannel A) :=
  p.subchannels.foldl (fun m sc => m.insert sc.address sc) ∅

def rebuildSubchannels (p : PickFirstPolicy A) (newAddresses : List (Address A)) :
    Except Panic (PickFirstPolicy A × Option (Subchannel A)) := do
  let r ← newAddresses.foldlM (Rebuild.step env p) ⟨p.existingSubchannels, [], ∅, none, p.nextId⟩
  return ({ p with subchannels := r.subchannels, subchannelStates := r.states, nextId := r.nextId }, r.ready)

/-! ## Connection passes -/

def subchannelActivate : PickFirstPolicy A :=
  if p.subchannelIsSelected sc then p
  else
    { p with selected := some sc, subchannels := [sc], steadyState := none, timer := none }.updatePicker
      .ready (.one sc)

def scanFrontier (p : PickFirstPolicy A) : Nat → List (Subchannel A) → Except Panic (Nat × Option (Subchannel A))
  | i, [] => .ok (i, none)
  | i, sc :: rest =>
    match p.stateOf sc with
    | none => .error .frontierState
    | some .transientFailure => scanFrontier p (i + 1) rest
    | some _ => .ok (i, some sc)

def advanceFrontier (reset : Bool) : Except Panic (PickFirstPolicy A × Option (Subchannel A)) := do
  let start := if reset then 0 else p.frontierIndex + 1
  let (index, sc) ← p.scanFrontier start (p.subchannels.drop start)
  return ({ p with frontierIndex := index }, sc)

def triggerSubchannelConnection : PickFirstPolicy A :=
  { p with
    subchannelStates := p.subchannelStates.insert sc.address .connecting
    timer := some ⟨false⟩ }.emit (.connect sc)

end

def failureText (error : String) : String :=
  match p.resolutionNote with
  | some note => if note = "" then error else error ++ " (" ++ note ++ ")"
  | none => error

def setTransientFailure (error : Option String) : Except Panic (PickFirstPolicy A × String) :=
  let p := { p with lastConnectionError := error.or p.lastConnectionError }
  match p.lastConnectionError with
  | none => .error .lastConnectionError
  | some err =>
    let text := p.failureText err
    .ok ((p.updatePicker .transientFailure (.failing text)).emit .requestResolution, text)

section
variable [DecidableEq A]

variable (p : PickFirstPolicy A) (sc : Subchannel A) (state : SubchannelState)

def startConnectionPass : Except Panic (PickFirstPolicy A) := do
  let (p, next) ← { p with selected := none }.advanceFrontier true
  match next with
  | some sc => return (p.triggerSubchannelConnection sc).updatePicker .connecting .queuing
  | none =>
    let (p, _) ← p.setTransientFailure none
    return p

def advanceFailed : Except Panic (PickFirstPolicy A) :=
  match p.subchannels[p.frontierIndex]? with
  | none => .ok p
  | some attempting =>
    if attempting.address = sc.address ∧ state.connectivityState = .transientFailure then do
      -- The frontier moves on even if there is nothing left to connect to.
      let (p, next) ← p.advanceFrontier false
      match next with
      | some sc => return p.triggerSubchannelConnection sc
      | none => return p
    else .ok p

def connectIdle : PickFirstPolicy A :=
  (p.subchannels.filter fun sc => decide (p.stateOf sc = some .idle)).foldl (fun p sc => p.emit (.connect sc)) p

def updateFirstPass : Except Panic (PickFirstPolicy A) := do
  let p ← p.advanceFailed sc state
  -- All have been tried, and none is connecting: the first pass is over.
  if p.subchannels.length ≤ p.frontierIndex ∧ p.subchannels.all fun sc => decide (p.stateOf sc ≠ some .connecting) then
    let (p, _) ← { p with timer := none }.setTransientFailure p.lastConnectionError
    return { p with steadyState := some ⟨p.subchannels.length, 0⟩ }.connectIdle
  else return p

end

def subchannelNonready (steady : SteadyState) (sc : Subchannel A) (state : SubchannelState) : PickFirstPolicy A :=
  match state.connectivityState with
  | .idle => p.emit (.connect sc)
  | .transientFailure =>
    if steady.failureThreshold ≤ steady.failureCount + 1 then
      { p with steadyState := some { steady with failureCount := 0 } }.emit .requestResolution
    else { p with steadyState := some { steady with failureCount := steady.failureCount + 1 } }
  | _ => p

section
variable [DecidableEq A]

variable (p : PickFirstPolicy A)

def subchannelUpdate (sc : Subchannel A) (state : SubchannelState) : Except Panic (PickFirstPolicy A) :=
  if p.subchannelIsCurrent sc then
    -- The update is cached whatever comes of it.
    let p := { p with subchannelStates := p.subchannelStates.insert sc.address state }
    match p.subchannelIsSelected sc, state.connectivityState with
    | true, .ready => .ok p
    | true, _ => .ok p.subchannelDrop
    | false, .ready => .ok (p.subchannelActivate sc)
    | false, _ =>
      let p :=
        if state.connectivityState = .transientFailure then
          { p with lastConnectionError := state.lastConnectionError.or p.lastConnectionError }
        else p
      match p.steadyState with
      | some steady => .ok (p.subchannelNonready steady sc state)
      | none => p.updateFirstPass sc state
  else .ok p

/-! ## The calls of the channel -/

def resolverUpdate (env : Env A) (p : PickFirstPolicy A) (update : ResolverUpdate A) (config : PickFirstConfig) :
    Except Panic (PickFirstPolicy A × Except String Unit) := do
  let p := { p with timer := none, steadyState := none, resolutionNote := update.resolutionNote }
  match update.endpoints with
  | .ok endpoints =>
    let newAddresses := compileAddress env endpoints config
    if newAddresses.isEmpty then
      -- `?` leaves the call with the error; the list is not rebuilt.
      let (p, err) ← { p with subchannels := [], selected := none }.setTransientFailure (some "empty address list")
      return (p, .error err)
    else
      let (p, ready) ← p.rebuildSubchannels env newAddresses
      match ready with
      | some sc => return (p.subchannelActivate sc, .ok ())
      | none =>
        let p ← p.startConnectionPass
        return (p, .ok ())
  | .error error =>
    if p.subchannels.isEmpty ∨ p.connectivityState = .transientFailure then
      let (p, err) ← p.setTransientFailure (some error)
      return (p, .error err)
    else return (p, .ok ())

def exitIdle : Except Panic (PickFirstPolicy A) :=
  if p.connectivityState = .idle ∧ ¬ p.subchannels.isEmpty then p.startConnectionPass else .ok p

def work (data : Option (Subchannel A × SubchannelState)) : Except Panic (PickFirstPolicy A) :=
  match data with
  | some (sc, state) => p.subchannelUpdate sc state
  | none =>
    -- A call without data is the idle picker's or the timer's.
    if p.connectivityState = .idle then p.exitIdle
    else if p.timer.any (·.expired) then do
      let (p, next) ← p.advanceFrontier false
      match next with
      | some sc => return p.triggerSubchannelConnection sc
      | none => return p
    else .ok p

def timerExpires : PickFirstPolicy A := { p with timer := p.timer.map fun _ => ⟨true⟩ }

end

end PickFirstPolicy

/-! ## What each function does -/

namespace PickFirstPolicy

variable {p p' : PickFirstPolicy A}

theorem updatePicker_of_ne {s : ConnectivityState} (h : s ≠ .connecting) (pc : Picker A) :
    p.updatePicker s pc = { p with connectivityState := s, effects := p.effects ++ [.updatePicker s pc] } := by
  rw [updatePicker, if_neg fun hd => h hd.2]
  rfl

theorem updatePicker_connecting (p : PickFirstPolicy A) (pc : Picker A) : ∃ effects,
    p.updatePicker .connecting pc = { p with connectivityState := .connecting, effects := effects } ∧
      (effects = p.effects ∨ effects = p.effects ++ [.updatePicker .connecting pc]) := by
  unfold updatePicker
  split
  · rename_i hc
    exact ⟨p.effects, by rw [← hc.1], .inl rfl⟩
  · exact ⟨_, rfl, .inr rfl⟩

theorem setTransientFailure_eq {e : Option String} {r : PickFirstPolicy A × String}
    (h : p.setTransientFailure e = .ok r) : ∃ err, r.1 = { p with
        lastConnectionError := some err
        connectivityState := .transientFailure
        effects := p.effects ++ [.updatePicker .transientFailure (.failing r.2)] ++ [.requestResolution] } := by
  simp only [setTransientFailure] at h
  split at h
  · cases h
  · rename_i err he
    cases h
    exact ⟨err, by rw [← he, updatePicker_of_ne ConnectivityState.noConfusion]; rfl⟩

theorem setTransientFailure_ok (p : PickFirstPolicy A) (e : Option String) (h : e.or p.lastConnectionError ≠ none) :
    ∃ r, p.setTransientFailure e = .ok r := by
  obtain ⟨err, he⟩ := Option.ne_none_iff_exists'.1 h
  exact ⟨_, by simp only [setTransientFailure, he]; rfl⟩

theorem foldl_emit (f : Subchannel A → Effect A) (scs : List (Subchannel A)) (p : PickFirstPolicy A) :
    scs.foldl (fun p sc => p.emit (f sc)) p = { p with effects := p.effects ++ scs.map f } := by
  induction scs generalizing p with
  | nil => simp
  | cons sc scs ih => rw [foldl_cons, ih]; simp [emit]

theorem subchannelNonready_eq (p : PickFirstPolicy A) {s : SteadyState} (hs : p.steadyState = some s)
    (sc : Subchannel A) (st : SubchannelState) : ∃ steadyState effects,
      p.subchannelNonready s sc st = { p with steadyState := some steadyState, effects := p.effects ++ effects } ∧
      (effects = [] ∨ effects = [.connect sc] ∨ effects = [.requestResolution]) := by
  unfold subchannelNonready
  split
  · exact ⟨s, _, by rw [← hs]; rfl, .inr (.inl rfl)⟩
  · split
    · exact ⟨_, _, rfl, .inr (.inr rfl)⟩
    · exact ⟨_, [], by rw [append_nil], .inl rfl⟩
  · exact ⟨s, [], by rw [← hs, append_nil], .inl rfl⟩

section
variable [DecidableEq A] {sc : Subchannel A} {addr : Address A} {env : Env A} {addrs : List (Address A)}
  {s : SubchannelState} {next : Option (Subchannel A)}

theorem subchannelActivate_eq (h : p.subchannelIsSelected sc = false) : p.subchannelActivate sc = { p with
        selected := some sc, subchannels := [sc], steadyState := none, timer := none, connectivityState := .ready
        effects := p.effects ++ [.updatePicker .ready (.one sc)] } := by
  rw [subchannelActivate, h, if_neg Bool.false_ne_true, updatePicker_of_ne ConnectivityState.noConfusion]

theorem subchannelActivate_selected (h : p.subchannelIsSelected sc = true) : p.subchannelActivate sc = p := if_pos h

theorem subchannelIsSelected_iff :
    p.subchannelIsSelected sc = true ↔ ∃ sel, p.selected = some sel ∧ sel.address = sc.address := by
  simp [subchannelIsSelected, Option.any_eq_true]

theorem address_ne {sel : Subchannel A} (h : p.subchannelIsSelected sc = false) (hs : p.selected = some sel) :
    sc.address ≠ sel.address :=
  fun ha => Bool.false_ne_true (h.symm.trans (subchannelIsSelected_iff.2 ⟨sel, hs, ha.symm⟩))

def Known (p : PickFirstPolicy A) : Prop := ∀ sc ∈ p.subchannels, ∃ s, p.subchannelStates.lookup sc.address = some s

theorem scanFrontier_ok (p : PickFirstPolicy A) (i : Nat) (scs : List (Subchannel A))
    (h : ∀ sc ∈ scs, ∃ s, p.subchannelStates.lookup sc.address = some s) : ∃ r, p.scanFrontier i scs = .ok r := by
  induction scs generalizing i with
  | nil => exact ⟨_, rfl⟩
  | cons sc scs ih =>
    obtain ⟨⟨s, hs⟩, hrest⟩ := List.forall_mem_cons.1 h
    unfold scanFrontier
    split
    · simp_all [stateOf]
    · exact ih (i + 1) hrest
    · exact ⟨_, rfl⟩

theorem scanFrontier_index {i j : Nat} {scs : List (Subchannel A)} (h : p.scanFrontier i scs = .ok (j, next)) :
    ∃ k, j = i + k ∧ next = scs[k]? ∧ (∀ sc, next = some sc → p.stateOf sc ≠ some .transientFailure) ∧
      ∀ m sc, m < k → scs[m]? = some sc → p.stateOf sc = some .transientFailure := by
  induction scs generalizing i with
  | nil =>
    cases h
    exact ⟨0, rfl, rfl, nofun, fun m sc hm _ => absurd hm (Nat.not_lt_zero m)⟩
  | cons sc scs ih =>
    unfold scanFrontier at h
    split at h
    · cases h
    · rename_i htf
      obtain ⟨k, hj, hn, hl, hall⟩ := ih h
      refine ⟨k + 1, by omega, hn, hl, fun m sc' hm hsc => ?_⟩
      cases m with
      | zero => exact Option.some.inj hsc ▸ htf
      | succ m => exact hall m sc' (by omega) hsc
    · rename_i hne hs
      cases h
      refine ⟨0, rfl, rfl, fun sc' hsc htf => ?_, fun m sc hm _ => absurd hm (Nat.not_lt_zero m)⟩
      cases hsc
      exact hne (Option.some.inj (hs.symm.trans htf))

/-- A scan from `start` stops at `j`: what it passes has failed, and what it stops at has not. -/
structure Stops (p : PickFirstPolicy A) (start j : Nat) : Prop where
  failed : ∀ m sc, start ≤ m → m < j → p.subchannels[m]? = some sc → p.stateOf sc = some .transientFailure
  live : ∀ sc, p.subchannels[j]? = some sc → p.stateOf sc ≠ some .transientFailure

theorem advanceFrontier_ok (h : p.Known) (rs : Bool) : ∃ r, p.advanceFrontier rs = .ok r := by
  obtain ⟨r, hr⟩ := p.scanFrontier_ok (if rs then 0 else p.frontierIndex + 1)
    (p.subchannels.drop (if rs then 0 else p.frontierIndex + 1)) fun sc hm => h sc (mem_of_mem_drop hm)
  exact ⟨_, by simp only [advanceFrontier, hr]; rfl⟩

theorem advanceFrontier_eq {rs : Bool} (h : p.advanceFrontier rs = .ok (p', next)) :
    ∃ j, p' = { p with frontierIndex := j } ∧ next = p.subchannels[j]? ∧
      p.Stops (if rs then 0 else p.frontierIndex + 1) j := by
  generalize hst : (if rs then 0 else p.frontierIndex + 1) = s
  simp only [advanceFrontier, hst] at h
  cases hs : p.scanFrontier s (p.subchannels.drop s) with
  | error e => rw [hs] at h; cases h
  | ok r =>
    obtain ⟨j, next'⟩ := r
    rw [hs] at h
    cases h
    obtain ⟨k, rfl, hn, hl, hall⟩ := scanFrontier_index hs
    rw [getElem?_drop] at hn
    refine ⟨s + k, rfl, hn, fun m sc hle hlt hsc => ?_, hn ▸ hl⟩
    refine hall (m - s) sc (by omega) ?_
    rw [getElem?_drop, show s + (m - s) = m by omega]
    exact hsc

inductive Advanced (p : PickFirstPolicy A) : PickFirstPolicy A → Prop where
  | connects {j : Nat} {sc : Subchannel A} (hsc : p.subchannels[j]? = some sc)
      (hstops : p.Stops (p.frontierIndex + 1) j) :
      Advanced p ({ p with frontierIndex := j }.triggerSubchannelConnection sc)
  | ends {j : Nat} (hj : p.subchannels.length ≤ j) (hstops : p.Stops (p.frontierIndex + 1) j) :
      Advanced p { p with frontierIndex := j }

def advance (p : PickFirstPolicy A) : Except Panic (PickFirstPolicy A) := do
  let (p, next) ← p.advanceFrontier false
  match next with
  | some sc => return p.triggerSubchannelConnection sc
  | none => return p

theorem advanced (h : p.advance = .ok p') : Advanced p p' := by
  cases hadv : p.advanceFrontier false with
  | error e => rw [advance, hadv] at h; cases h
  | ok r =>
    obtain ⟨p1, next⟩ := r
    rw [advance, hadv] at h
    obtain ⟨j, rfl, hn, hstops⟩ := advanceFrontier_eq hadv
    cases next with
    | some sc =>
      cases h
      exact .connects hn.symm hstops
    | none =>
      cases h
      exact .ends (List.getElem?_eq_none_iff.1 hn.symm) hstops

theorem advance_ok (h : p.Known) : ∃ p', p.advance = .ok p' := by
  obtain ⟨⟨p1, next⟩, hr⟩ := advanceFrontier_ok h false
  rw [advance, hr]
  cases next with
  | some sc => exact ⟨_, rfl⟩
  | none => exact ⟨_, rfl⟩

/-! ### Rebuilding -/

def isCurrentAddress (p : PickFirstPolicy A) (addr : Address A) : Prop := ∃ sc ∈ p.subchannels, sc.address = addr

instance (p : PickFirstPolicy A) (addr : Address A) : Decidable (p.isCurrentAddress addr) :=
  inferInstanceAs (Decidable (∃ sc ∈ p.subchannels, sc.address = addr))

def rebuiltState (env : Env A) (p : PickFirstPolicy A) (addr : Address A) : Option SubchannelState :=
  if p.isCurrentAddress addr then p.subchannelStates.lookup addr else some (env.fresh addr)

theorem lookup_foldl_insert (scs : List (Subchannel A)) (m : HashMap (Address A) (Subchannel A)) (a : Address A) :
    ((scs.foldl (fun m sc => m.insert sc.address sc) m).lookup a = none ↔
      m.lookup a = none ∧ ∀ sc ∈ scs, sc.address ≠ a) ∧
    (∀ sc, (scs.foldl (fun m sc => m.insert sc.address sc) m).lookup a = some sc →
      m.lookup a = some sc ∨ sc ∈ scs ∧ sc.address = a) := by
  induction scs generalizing m with
  | nil => simp
  | cons sc scs ih =>
    obtain ⟨hnone, hs⟩ := ih (m.insert sc.address sc)
    rw [foldl_cons]
    constructor
    · rw [hnone, HashMap.lookup_insert_ite, forall_mem_cons]
      split
      · simp_all
      · rename_i hne
        exact ⟨fun h => ⟨h.1, fun he => hne he.symm, h.2⟩, fun h => ⟨h.1, h.2.2⟩⟩
    · intro sc' h
      rcases hs sc' h with h | ⟨h, ha⟩
      · rcases HashMap.lookup_insert_eq_some.1 h with ⟨rfl, rfl⟩ | ⟨-, h⟩
        · exact .inr ⟨mem_cons_self, rfl⟩
        · exact .inl h
      · exact .inr ⟨mem_cons_of_mem _ h, ha⟩

theorem existingSubchannels_eq_none (p : PickFirstPolicy A) (addr : Address A) :
    p.existingSubchannels.lookup addr = none ↔ ¬ p.isCurrentAddress addr := by
  rw [existingSubchannels, (lookup_foldl_insert _ _ _).1]
  simp [isCurrentAddress]

theorem existingSubchannels_eq_some (p : PickFirstPolicy A) (h : p.existingSubchannels.lookup addr = some sc) :
    sc ∈ p.subchannels ∧ sc.address = addr := by
  rcases (lookup_foldl_insert _ _ _).2 sc h with h | h
  · simp at h
  · exact h

theorem Rebuild.step_ok (hk : p.Known) (env : Env A) (r : Rebuild A) (a : Address A)
    (he : r.existing.lookup a = p.existingSubchannels.lookup a) :
    ∃ r' sc s, Rebuild.step env p r a = .ok r' ∧ sc.address = a ∧
      p.rebuiltState env a = some s ∧ r'.subchannels = r.subchannels ++ [sc] ∧
      r'.states = r.states.insert a s ∧
      r'.ready = (if s.connectivityState = .ready then
        if p.subchannelIsSelected sc then some sc else r.ready.or (some sc) else r.ready) ∧
      ∀ b, b ≠ a → r'.existing.lookup b = r.existing.lookup b := by
  -- A known address has a cached state, so the `unwrap` succeeds.
  cases hx : p.existingSubchannels.lookup a with
  | some sc =>
    obtain ⟨hm, rfl⟩ := p.existingSubchannels_eq_some hx
    obtain ⟨s, hs⟩ := hk sc hm
    refine ⟨Rebuild.add p { r with existing := r.existing.erase sc.address } sc s, sc, s, ?_, rfl, ?_,
      rfl, rfl, rfl, fun b hb => AList.lookup_erase_ne hb⟩
    · simp only [Rebuild.step, he, hx, hs]
    · rw [rebuiltState, if_pos ⟨sc, hm, rfl⟩, hs]
  | none =>
    refine ⟨Rebuild.add p { r with nextId := r.nextId + 1 } ⟨r.nextId, a⟩ (env.fresh a), ⟨r.nextId, a⟩,
      env.fresh a, ?_, rfl, ?_, rfl, rfl, rfl, fun b _ => rfl⟩
    · simp only [Rebuild.step, he, hx]
    · rw [rebuiltState, if_neg ((p.existingSubchannels_eq_none a).1 hx)]

def RebuiltReady (env : Env A) (p : PickFirstPolicy A) (addr : Address A) : Prop :=
  ∃ state, p.rebuiltState env addr = some state ∧ state.connectivityState = .ready

/-- The candidate after some addresses: a ready one is not missed, and the selected one is preferred. -/
structure Chooses (env : Env A) (p : PickFirstPolicy A) (addrs : List (Address A))
    (before after : Option (Subchannel A)) : Prop where
  missed : after = none → before = none ∧ ∀ a ∈ addrs, ¬ p.RebuiltReady env a
  chosen : ∀ sc, after = some sc → before = some sc ∨ sc.address ∈ addrs ∧ p.RebuiltReady env sc.address
  selected : ∀ sel, p.selected = some sel →
    (∃ sc, before = some sc ∧ sc.address = sel.address) ∨ sel.address ∈ addrs ∧ p.RebuiltReady env sel.address →
      ∃ sc, after = some sc ∧ sc.address = sel.address

theorem Chooses.nil (env : Env A) (p : PickFirstPolicy A) (ready : Option (Subchannel A)) :
    Chooses env p [] ready ready := by
  refine ⟨fun h => ⟨h, by simp⟩, fun sc h => .inl h, ?_⟩
  rintro sel - (h | ⟨h, -⟩)
  · exact h
  · cases h

theorem Chooses.append {addrs' : List (Address A)} {r r' r'' : Option (Subchannel A)} (h : Chooses env p addrs r r')
    (h' : Chooses env p addrs' r' r'') : Chooses env p (addrs ++ addrs') r r'' where
  missed hn := by
    obtain ⟨hn, hrest⟩ := h'.missed hn
    exact ⟨(h.missed hn).1, List.forall_mem_append.2 ⟨(h.missed hn).2, hrest⟩⟩
  chosen sc hs := by
    rcases h'.chosen sc hs with hs | ⟨ha, hr⟩
    · rcases h.chosen sc hs with hs | ⟨ha, hr⟩
      · exact .inl hs
      · exact .inr ⟨mem_append_left _ ha, hr⟩
    · exact .inr ⟨mem_append_right _ ha, hr⟩
  selected sel hsel hc := by
    refine h'.selected sel hsel ?_
    rcases hc with hc | ⟨ha, hr⟩
    · exact .inl (h.selected sel hsel (.inl hc))
    · rcases List.mem_append.1 ha with ha | ha
      · exact .inl (h.selected sel hsel (.inr ⟨ha, hr⟩))
      · exact .inr ⟨ha, hr⟩

theorem chooses_add (hst : p.rebuiltState env sc.address = some s) (r : Option (Subchannel A)) :
    Chooses env p [sc.address] r (if s.connectivityState = .ready then
      if p.subchannelIsSelected sc then some sc else r.or (some sc) else r) := by
  have hi : p.RebuiltReady env sc.address ↔ s.connectivityState = .ready := by simp [RebuiltReady, hst]
  by_cases hr : s.connectivityState = .ready
  · rw [if_pos hr]
    refine ⟨fun h => ?_, fun sc' h => ?_, fun sel hsel h => ?_⟩
    · split at h <;> simp at h
    · have hm : sc = sc' → sc'.address ∈ [sc.address] ∧ p.RebuiltReady env sc'.address := by
        rintro rfl
        exact ⟨mem_singleton_self _, hi.2 hr⟩
      split at h
      · exact .inr (hm (Option.some.inj h))
      · rcases Option.or_eq_some_iff.1 h with h | ⟨-, h⟩
        · exact .inl h
        · exact .inr (hm (Option.some.inj h))
    · by_cases hsa : sel.address = sc.address
      · exact ⟨sc, by simp [subchannelIsSelected, hsel, hsa], hsa.symm⟩
      · obtain ⟨sc', hsc', ha⟩ := h.resolve_right fun h => hsa (List.mem_singleton.1 h.1)
        exact ⟨sc', by simp [subchannelIsSelected, hsel, hsa, hsc'], ha⟩
  · rw [if_neg hr]
    refine ⟨fun h => ⟨h, by simpa [hi] using hr⟩, fun sc' h => .inl h, fun sel hsel h => ?_⟩
    refine h.resolve_right ?_
    rintro ⟨ha, hrd⟩
    rw [List.mem_singleton.1 ha] at hrd
    exact hr (hi.1 hrd)

theorem Rebuild.foldlM_ok (hk : p.Known) (env : Env A) (ad : List (Address A)) (hn : ad.Nodup) (r : Rebuild A)
    (he : ∀ addr ∈ ad, r.existing.lookup addr = p.existingSubchannels.lookup addr) :
    ∃ r', ad.foldlM (Rebuild.step env p) r = .ok r' ∧
      r'.subchannels.map (·.address) = r.subchannels.map (·.address) ++ ad ∧
      (∀ a, r'.states.lookup a = if a ∈ ad then p.rebuiltState env a else r.states.lookup a) ∧
      Chooses env p ad r.ready r'.ready := by
  induction ad generalizing r with
  | nil => exact ⟨r, rfl, by simp, by simp, .nil env p _⟩
  | cons addr ad ih =>
    obtain ⟨hna, hn'⟩ := List.nodup_cons.1 hn
    obtain ⟨r1, sc1, s, hok, rfl, hst, hsb, hs, hr, hex⟩ := Rebuild.step_ok hk env r addr (he addr mem_cons_self)
    -- The handles of the other addresses are still there, since no address comes twice.
    obtain ⟨r', hok', hsb', hs', hc⟩ := ih hn' r1 fun b hb => by
      rw [hex b fun hba => hna (hba ▸ hb), he b (mem_cons_of_mem _ hb)]
    refine ⟨r', ?_, ?_, fun a => ?_, ?_⟩
    · rw [foldlM_cons, hok]; exact hok'
    · rw [hsb', hsb]; simp
    · rw [hs', hs, HashMap.lookup_insert_ite]
      by_cases ha : a = sc1.address
      · subst ha
        simp [hna, hst]
      · simp [ha]
    · rw [hr] at hc
      exact (chooses_add hst r.ready).append hc

/-- The list has the new addresses; the selected subchannel is chosen if it is there and ready, else any ready one. -/
structure Rebuilt (env : Env A) (p : PickFirstPolicy A) (addrs : List (Address A)) (p' : PickFirstPolicy A)
    (ready : Option (Subchannel A)) : Prop where
  rest : ∃ scs states n, p' = { p with subchannels := scs, subchannelStates := states, nextId := n }
  addresses : p'.subchannels.map (·.address) = addrs
  states : ∀ a ∈ addrs, p'.subchannelStates.lookup a = p.rebuiltState env a
  missed : ready = none → ∀ a ∈ addrs, ¬ p.RebuiltReady env a
  chosen : ∀ sc, ready = some sc → sc.address ∈ addrs ∧ p.RebuiltReady env sc.address
  selected : ∀ sel, p.selected = some sel → sel.address ∈ addrs → p.RebuiltReady env sel.address →
    ∃ sc, ready = some sc ∧ sc.address = sel.address

theorem rebuildSubchannels_ok (hk : p.Known) (env : Env A) (hn : addrs.Nodup) :
    ∃ p' ready, p.rebuildSubchannels env addrs = .ok (p', ready) ∧ Rebuilt env p addrs p' ready := by
  obtain ⟨r, hok, hsb, hst, hc⟩ :=
    Rebuild.foldlM_ok hk env addrs hn ⟨p.existingSubchannels, [], ∅, none, p.nextId⟩ fun _ _ => rfl
  refine ⟨{ p with subchannels := r.subchannels, subchannelStates := r.states, nextId := r.nextId }, r.ready, ?_,
    ⟨_, _, _, rfl⟩, by simpa using hsb, fun a ha => by simpa [ha] using hst a, fun h => (hc.missed h).2,
    fun sc h => ?_, fun sel hs ha hr => hc.selected sel hs (.inr ⟨ha, hr⟩)⟩
  · simp only [rebuildSubchannels, hok]
    rfl
  · exact (hc.chosen sc h).resolve_left nofun

theorem rebuilt (hk : p.Known) (hn : addrs.Nodup) {ready : Option (Subchannel A)}
    (h : p.rebuildSubchannels env addrs = .ok (p', ready)) : Rebuilt env p addrs p' ready := by
  obtain ⟨_, _, hok, hr⟩ := rebuildSubchannels_ok hk env hn
  cases h.symm.trans hok
  exact hr

namespace Rebuilt

variable {env : Env A} {addrs : List (Address A)} {r : Option (Subchannel A)} {sc : Subchannel A}

section
variable (h : Rebuilt env p addrs p' r)
include h

theorem mem (hm : sc ∈ p'.subchannels) : sc.address ∈ addrs := h.addresses ▸ mem_map_of_mem hm

theorem current {a : Address A} (ha : a ∈ addrs) : p'.isCurrentAddress a := List.mem_map.1 (h.addresses ▸ ha)

theorem stateOf (ha : sc.address ∈ addrs) :
    p'.stateOf sc = (p.rebuiltState env sc.address).map (·.connectivityState) := by
  rw [PickFirstPolicy.stateOf, h.states _ ha]

theorem stateOf_chosen (hsc : r = some sc) : p'.stateOf sc = some .ready := by
  obtain ⟨ha, s, hs, hr⟩ := h.chosen sc hsc
  rw [h.stateOf ha, hs]
  exact congrArg some hr

theorem known (hk : p.Known) : p'.Known := by
  intro sc hm
  rw [h.states _ (h.mem hm), rebuiltState]
  split
  · rename_i hcur
    obtain ⟨sc', hm', ha'⟩ := hcur
    exact ha' ▸ hk sc' hm'
  · exact ⟨_, rfl⟩

end

end Rebuilt

/-! ### Passes -/

theorem stateOf_insert (p : PickFirstPolicy A) {p' : PickFirstPolicy A}
    (h : p'.subchannelStates = p.subchannelStates.insert addr s) (sc : Subchannel A) :
    p'.stateOf sc = if sc.address = addr then some s.connectivityState else p.stateOf sc := by
  rw [stateOf, h, HashMap.lookup_insert_ite]
  split <;> rfl

theorem Known.insert (hk : p.Known) (hs : p'.subchannels = p.subchannels)
    (h : p'.subchannelStates = p.subchannelStates.insert addr s) : p'.Known := by
  intro sc hsc
  rw [hs] at hsc
  rw [h, HashMap.lookup_insert_ite]
  split
  · exact ⟨s, rfl⟩
  · exact hk sc hsc

theorem Stops.all_failed {j : Nat} (h : p.Stops 0 j) (hj : p.subchannels.length ≤ j) (hm : sc ∈ p.subchannels) :
    p.stateOf sc = some .transientFailure := by
  obtain ⟨m, hm⟩ := List.mem_iff_getElem?.1 hm
  exact h.failed m sc (Nat.zero_le m) ((List.getElem?_eq_some_iff.1 hm).1.trans_le hj) hm

/-- What comes of starting a pass: a subchannel is connected, or the failure is published. -/
inductive PassStarted (p : PickFirstPolicy A) : PickFirstPolicy A → Prop where
  | connects {j : Nat} {sc : Subchannel A} (hsc : p.subchannels[j]? = some sc) (hstops : p.Stops 0 j) :
      PassStarted p (({ p with selected := none, frontierIndex := j }.triggerSubchannelConnection sc).updatePicker
        .connecting .queuing)
  | fails {j : Nat} {r : PickFirstPolicy A × String} (hj : p.subchannels.length ≤ j) (hstops : p.Stops 0 j)
      (hr : { p with selected := none, frontierIndex := j }.setTransientFailure none = .ok r) : PassStarted p r.1

theorem passStarted (h : p.startConnectionPass = .ok p') : PassStarted p p' := by
  cases hadv : { p with selected := none }.advanceFrontier true with
  | error e => rw [startConnectionPass, hadv] at h; cases h
  | ok r =>
    obtain ⟨p1, next⟩ := r
    obtain ⟨j, rfl, hn, hstops⟩ := advanceFrontier_eq hadv
    simp only [startConnectionPass, hadv, bind, Except.bind] at h
    cases next with
    | some sc =>
      cases h
      exact .connects hn.symm ⟨hstops.failed, hstops.live⟩
    | none =>
      dsimp only at h
      split at h
      · cases h
      · rename_i hr
        cases h
        exact .fails (List.getElem?_eq_none_iff.1 hn.symm) ⟨hstops.failed, hstops.live⟩ hr

theorem startConnectionPass_ok (hk : p.Known)
    (h : p.lastConnectionError = none → ∃ sc ∈ p.subchannels, p.stateOf sc ≠ some .transientFailure) :
    ∃ p', p.startConnectionPass = .ok p' := by
  obtain ⟨⟨p1, next⟩, hadv⟩ := advanceFrontier_ok (p := { p with selected := none }) hk true
  obtain ⟨j, rfl, hnx, hstops⟩ := advanceFrontier_eq hadv
  simp only [startConnectionPass, hadv, bind, Except.bind]
  cases next with
  | some sc => exact ⟨_, rfl⟩
  | none =>
    have he : p.lastConnectionError ≠ none := by
      intro hn
      obtain ⟨sc, hm, hs⟩ := h hn
      exact hs (hstops.all_failed (List.getElem?_eq_none_iff.1 hnx.symm) hm)
    obtain ⟨r, hr⟩ := setTransientFailure_ok { p with selected := none, frontierIndex := j } none he
    exact ⟨r.1, by rw [hr]; rfl⟩

theorem Advanced.known (h : Advanced p p') (hk : p.Known) : p'.Known := by
  cases h with
  | connects => exact hk.insert rfl rfl
  | ends => exact hk

theorem advanceFailed_cases (h : p.advanceFailed sc s = .ok p') : p' = p ∨ Advanced p p' := by
  unfold advanceFailed at h
  split at h
  · exact .inl (Except.ok.inj h).symm
  · split at h
    · exact .inr (advanced h)
    · exact .inl (Except.ok.inj h).symm

theorem advanceFailed_ok (hk : p.Known) (sc : Subchannel A) (s : SubchannelState) :
    ∃ p', p.advanceFailed sc s = .ok p' := by
  unfold advanceFailed
  split
  · exact ⟨p, rfl⟩
  · split
    · exact advance_ok hk
    · exact ⟨p, rfl⟩

/-- What comes of an update in a first pass: the frontier may have moved on, and the pass may be over. -/
inductive PassUpdated (p : PickFirstPolicy A) : PickFirstPolicy A → Prop where
  | goes {p1 : PickFirstPolicy A} (hadv : p1 = p ∨ Advanced p p1) : PassUpdated p p1
  | ends {p1 : PickFirstPolicy A} {err text : String} {steady : SteadyState} {scs : List (Subchannel A)}
      (hadv : p1 = p ∨ Advanced p p1) (hend : p1.subchannels.length ≤ p1.frontierIndex)
      (hall : ∀ sc ∈ p1.subchannels, p1.stateOf sc ≠ some .connecting) :
      PassUpdated p
        { p1 with
          timer := none, steadyState := some steady, lastConnectionError := some err
          connectivityState := .transientFailure
          effects := p1.effects ++ [.updatePicker .transientFailure (.failing text)] ++ [.requestResolution] ++
            scs.map .connect }

theorem passUpdated (h : p.updateFirstPass sc s = .ok p') : PassUpdated p p' := by
  cases hadv : p.advanceFailed sc s with
  | error e => rw [updateFirstPass, hadv] at h; cases h
  | ok p1 =>
    simp only [updateFirstPass, hadv, bind, Except.bind] at h
    split at h
    · rename_i ho
      split at h
      · cases h
      · rename_i r hr
        obtain ⟨err, he⟩ := setTransientFailure_eq hr
        rw [he, connectIdle, foldl_emit] at h
        cases h
        exact .ends (advanceFailed_cases hadv) ho.1 (by simpa using ho.2)
    · cases h
      exact .goes (advanceFailed_cases hadv)

theorem updateFirstPass_connecting (sc : Subchannel A) (hs : s.connectivityState ≠ .transientFailure)
    (h : ∃ sc' ∈ p.subchannels, p.stateOf sc' = some .connecting) : p.updateFirstPass sc s = .ok p := by
  have hadv : p.advanceFailed sc s = .ok p := by
    unfold advanceFailed
    split
    · rfl
    · rw [if_neg fun h => hs h.2]
  obtain ⟨sc', hm, hc⟩ := h
  simp only [updateFirstPass, hadv, bind, Except.bind]
  rw [if_neg]
  · rfl
  · rintro ⟨-, hall⟩
    simpa [hc] using List.all_eq_true.1 hall sc' hm

theorem updateFirstPass_ok (hk : p.Known) (he : p.lastConnectionError ≠ none) (sc : Subchannel A)
    (s : SubchannelState) : ∃ p', p.updateFirstPass sc s = .ok p' := by
  obtain ⟨p1, hadv⟩ := advanceFailed_ok hk sc s
  have he1 : p1.lastConnectionError ≠ none := by
    rcases advanceFailed_cases hadv with rfl | ⟨⟩ | ⟨⟩
    all_goals exact he
  simp only [updateFirstPass, hadv, bind, Except.bind]
  split
  · obtain ⟨r, hr⟩ := setTransientFailure_ok { p1 with timer := none } p1.lastConnectionError (by simpa using he1)
    exact ⟨_, by rw [hr]; rfl⟩
  · exact ⟨p1, rfl⟩

theorem PassUpdated.known (h : PassUpdated p p') (hk : p.Known) : p'.Known := by
  cases h with
  | goes hadv => exact hadv.elim (fun he => he ▸ hk) (·.known hk)
  | ends hadv => exact hadv.elim (fun he => he ▸ hk) (·.known hk)

theorem PassUpdated.error (h : PassUpdated p p') (he : p.lastConnectionError ≠ none) :
    p'.lastConnectionError ≠ none := by
  cases h with
  | goes hadv =>
    rcases hadv with rfl | ⟨⟩ | ⟨⟩
    all_goals exact he
  | ends => exact Option.some_ne_none _

/-! ### Updates -/

def noted (p : PickFirstPolicy A) (sc : Subchannel A) (state : SubchannelState) : PickFirstPolicy A :=
  { p with subchannelStates := p.subchannelStates.insert sc.address state }

def recorded (p : PickFirstPolicy A) (sc : Subchannel A) (state : SubchannelState) : PickFirstPolicy A :=
  { p.noted sc state with
    lastConnectionError :=
      if state.connectivityState = .transientFailure then state.lastConnectionError.or p.lastConnectionError
      else p.lastConnectionError }

@[simp] theorem stateOf_noted (sc sc' : Subchannel A) (s : SubchannelState) : (p.noted sc s).stateOf sc' =
    if sc'.address = sc.address then some s.connectivityState else p.stateOf sc' := p.stateOf_insert rfl sc'

theorem subchannelIsCurrent_iff : p.subchannelIsCurrent sc = true ↔ p.isCurrentAddress sc.address := by
  simp [subchannelIsCurrent, isCurrentAddress]

/-- What comes of an update. One that is neither selected nor ready is counted, or a step of the pass. -/
inductive Updated (p : PickFirstPolicy A) (sc : Subchannel A) (state : SubchannelState) : PickFirstPolicy A → Prop where
  | ignored (hcur : ¬ p.isCurrentAddress sc.address) : Updated p sc state p
  | kept (hsel : p.subchannelIsSelected sc = true) (hr : state.connectivityState = .ready) :
      Updated p sc state (p.noted sc state)
  | lost (hsel : p.subchannelIsSelected sc = true) (hr : state.connectivityState ≠ .ready) : Updated p sc state
        { p.noted sc state with
          selected := none, connectivityState := .idle, effects := p.effects ++ [.updatePicker .idle .idle] }
  | activated (hcur : p.isCurrentAddress sc.address) (hsel : p.subchannelIsSelected sc = false)
      (hr : state.connectivityState = .ready) : Updated p sc state ((p.noted sc state).subchannelActivate sc)
  | counted {steady : SteadyState} (hcur : p.isCurrentAddress sc.address)
      (hsel : p.subchannelIsSelected sc = false) (hr : state.connectivityState ≠ .ready)
      (hs : p.steadyState = some steady) :
      Updated p sc state ((p.recorded sc state).subchannelNonready steady sc state)
  | passed {p' : PickFirstPolicy A} (hcur : p.isCurrentAddress sc.address)
      (hsel : p.subchannelIsSelected sc = false) (hr : state.connectivityState ≠ .ready) (hs : p.steadyState = none)
      (hpass : (p.recorded sc state).updateFirstPass sc state = .ok p') :
      Updated p sc state p'

theorem subchannelUpdate_cases (p : PickFirstPolicy A) (sc : Subchannel A) (state : SubchannelState) :
    (∃ p', p.subchannelUpdate sc state = .ok p' ∧ Updated p sc state p') ∨
      p.isCurrentAddress sc.address ∧ p.subchannelIsSelected sc = false ∧ state.connectivityState ≠ .ready ∧
        p.steadyState = none ∧ p.subchannelUpdate sc state = (p.recorded sc state).updateFirstPass sc state := by
  by_cases hcur : p.isCurrentAddress sc.address
  swap
  · exact .inl ⟨p, if_neg (mt subchannelIsCurrent_iff.1 hcur), .ignored hcur⟩
  rw [subchannelUpdate, if_pos (subchannelIsCurrent_iff.2 hcur)]
  dsimp only
  split
  · exact .inl ⟨_, rfl, .kept ‹_› ‹_›⟩
  · rw [subchannelDrop, updatePicker_of_ne ConnectivityState.noConfusion]
    exact .inl ⟨_, rfl, .lost ‹_› ‹_›⟩
  · exact .inl ⟨_, rfl, .activated hcur ‹_› ‹_›⟩
  · rename_i hsel hr
    generalize hp2 : (if state.connectivityState = .transientFailure then _ else _ : PickFirstPolicy A) = p2
    obtain rfl : p2 = p.recorded sc state := by
      rw [← hp2, recorded]
      split <;> rfl
    split
    · exact .inl ⟨_, rfl, .counted hcur hsel hr ‹_›⟩
    · exact .inr ⟨hcur, hsel, hr, ‹_›, rfl⟩

theorem updated (hok : p.subchannelUpdate sc s = .ok p') : Updated p sc s p' := by
  rcases p.subchannelUpdate_cases sc s with ⟨p1, hok', hp1⟩ | ⟨hcur, hsel, hr, hs, heq⟩
  · exact Except.ok.inj (hok'.symm.trans hok) ▸ hp1
  · exact .passed hcur hsel hr hs (heq.symm.trans hok)

end

end PickFirstPolicy

end LoadBalancing
