import GrpcRust.Lib.FirstOccurrences
import GrpcRust.Lib.RoundRobin
import GrpcRust.Lib.Transition
import GrpcRust.TonicXds.Resources
/-!
# Happy Eyeballs

`xds/happy_eyeballs.rs`: the next attempt starts when the delay is over or the latest one has failed. Attempts arrive
as `FuturesUnordered` yields them, in any order.
-/

namespace TonicXds

open Lib List

/-! ## The order of the addresses -/

inductive Family
  | v4
  | v6
  | hostname
deriving DecidableEq

/-- `Ipv6Addr::to_ipv4_mapped` is something. -/
def isIpv4Mapped (ip : BitVec 128) : Bool := ip.extractLsb' 32 96 = 0xffff#96

def family (addr : EndpointAddress) : Family :=
  match addr.host with
  | .ipv4 _ => .v4
  -- such an address connects over IPv4
  | .ipv6 ip => if isIpv4Mapped ip then .v4 else .v6
  | .hostname _ => .hostname

def addToGroup : List (Family × List EndpointAddress) → EndpointAddress → List (Family × List EndpointAddress)
  | [], addr => [(family addr, [addr])]
  | (f, group) :: rest, addr =>
    if f = family addr then (f, group ++ [addr]) :: rest else (f, group) :: addToGroup rest addr

variable (addrs : List EndpointAddress)

def groupByFamily : List (Family × List EndpointAddress) := addrs.foldl addToGroup []

def interleaveAddresses : List EndpointAddress :=
  let groups := groupByFamily (extendNew [] addrs)
  let longest := (groups.map (·.2.length)).max?.getD 0
  (List.range longest).flatMap fun k => groups.filterMap fun (_, group) => group[k]?

theorem addToGroup_map (fs : List Family) (hn : fs.Nodup) (g : Family → List EndpointAddress) (addr : EndpointAddress)
    (hnw : family addr ∉ fs → g (family addr) = []) : addToGroup (fs.map fun f => (f, g f)) addr =
      (if family addr ∈ fs then fs else fs ++ [family addr]).map fun f =>
        (f, if f = family addr then g f ++ [addr] else g f) := by
  induction fs with
  | nil => simp [addToGroup, hnw not_mem_nil]
  | cons f fs ih =>
    obtain ⟨hf, hn⟩ := List.nodup_cons.1 hn
    rw [map_cons, addToGroup]
    by_cases heq : f = family addr
    · have ho : ∀ f' ∈ fs, (f', g f') = (f', if f' = family addr then g f' ++ [addr] else g f') := by
        intro f' hf'
        have hne : f' ≠ family addr := by
          rintro rfl
          exact hf (heq ▸ hf')
        rw [if_neg hne]
      rw [if_pos heq, if_pos (heq ▸ mem_cons_self), map_cons, if_pos heq, map_congr_left ho]
    · have hc : (if family addr ∈ f :: fs then f :: fs else f :: fs ++ [family addr]) =
          f :: if family addr ∈ fs then fs else fs ++ [family addr] := by
        by_cases hmem : family addr ∈ fs
        · rw [if_pos hmem, if_pos (mem_cons_of_mem f hmem)]
        · rw [if_neg hmem, if_neg]
          · rfl
          · rintro (_ | ⟨_, ht⟩)
            · exact heq rfl
            · exact hmem ht
      rw [if_neg heq, hc, map_cons, if_neg heq, ih hn]
      exact fun hmem => hnw fun hc => hmem ((List.mem_cons.1 hc).resolve_left (Ne.symm heq))

variable (addrs : List EndpointAddress)

theorem groupByFamily_eq :
    groupByFamily addrs = (addrs.map family).eraseDups.map fun f => (f, addrs.filter (family · = f)) := by
  induction addrs using List.reverseRecOn with
  | nil => rfl
  | append_singleton addrs addr ih =>
    have hn : family addr ∉ (addrs.map family).eraseDups → addrs.filter (family · = family addr) = [] := by
      intro hmem
      rw [mem_eraseDups] at hmem
      exact List.filter_eq_nil_iff.2 fun a ha hfm => hmem (of_decide_eq_true hfm ▸ mem_map_of_mem ha)
    have hfl (f : Family) : (addrs ++ [addr]).filter (family · = f) =
        if f = family addr then addrs.filter (family · = f) ++ [addr] else addrs.filter (family · = f) := by
      by_cases hf : f = family addr
      · simp [hf]
      · simp [hf, Ne.symm hf]
    rw [groupByFamily, foldl_append, foldl_cons, foldl_nil]
    change addToGroup (groupByFamily addrs) addr = _
    rw [ih, addToGroup_map _ (nodup_eraseDups _) _ _ hn, map_append, map_singleton, eraseDups_snoc]
    simp only [hfl, mem_eraseDups]

theorem interleaveAddresses_eq : ∃ rs,
    (∀ f ∈ (addrs.eraseDups.map family).eraseDups, (addrs.eraseDups.filter (family · = f)).length ≤ rs) ∧
    interleaveAddresses addrs = roundRobin (addrs.eraseDups.map family).eraseDups rs fun f =>
      addrs.eraseDups.filter (family · = f) := by
  have hd : extendNew [] addrs = addrs.eraseDups := by
    have := extendNew_eraseDups [] addrs
    rwa [nil_append, eraseDups_nil] at this
  unfold interleaveAddresses
  rw [hd, groupByFamily_eq]
  simp only [filterMap_map, Function.comp_def, map_map]
  rw [← roundRobin_eq_flatMap]
  refine ⟨_, fun f hf => ?_, rfl⟩
  have hmem := mem_map_of_mem (f := fun f => (addrs.eraseDups.filter (family · = f)).length) hf
  obtain ⟨l, hm⟩ := Option.ne_none_iff_exists'.1 (mt List.max?_eq_none_iff.1 (ne_nil_of_mem hmem))
  rw [hm]
  exact (List.max?_eq_some_iff.1 hm).2 _ hmem

theorem filter_interleaveAddresses (f : Family) :
    (interleaveAddresses addrs).filter (family · = f) = addrs.eraseDups.filter (family · = f) := by
  obtain ⟨rs, hr, heq⟩ := interleaveAddresses_eq addrs
  have hall : ∀ a ∈ addrs.eraseDups, family a ∈ (addrs.eraseDups.map family).eraseDups :=
    fun a ha => List.mem_eraseDups.2 (mem_map_of_mem ha)
  rw [heq]
  exact filter_roundRobin_filter (nodup_eraseDups _) hall hr f

theorem interleaveAddresses_perm : (interleaveAddresses addrs).Perm addrs.eraseDups :=
  perm_of_filter_key_eq (filter_interleaveAddresses addrs)

theorem head?_interleaveAddresses : (interleaveAddresses addrs).head? = addrs.head? := by
  cases addrs with
  | nil => rfl
  | cons a addrs =>
    obtain ⟨rs, hr, heq⟩ := interleaveAddresses_eq (a :: addrs)
    rw [heq]
    rw [eraseDups_cons, map_cons, eraseDups_cons] at hr ⊢
    have hrn := hr (family a) mem_cons_self
    cases rs with
    | zero => simp at hrn
    | succ rs => exact head?_roundRobin [] _ nofun (by simp)

/-- Each address once, in order within its family; a family comes twice in a row only when no other is left. -/
theorem addresses_interleaved (addrs : List EndpointAddress) : (interleaveAddresses addrs).Perm addrs.eraseDups ∧
    (∀ f, (interleaveAddresses addrs).filter (family · = f) = addrs.eraseDups.filter (family · = f)) ∧
    (interleaveAddresses addrs).head?.map family = addrs.head?.map family ∧
    Alternates family (interleaveAddresses addrs) := by
  refine ⟨interleaveAddresses_perm addrs, filter_interleaveAddresses addrs, ?_, ?_⟩
  · rw [head?_interleaveAddresses]
  · obtain ⟨rs, -, heq⟩ := interleaveAddresses_eq addrs
    rw [heq]
    exact alternates_roundRobin (keyedBy_filter family _) (nodup_eraseDups _)

theorem nodup_interleaveAddresses : (interleaveAddresses addrs).Nodup :=
  (interleaveAddresses_perm addrs).nodup_iff.2 (nodup_eraseDups addrs)

/-! ## A pass -/

def connectionAttemptDelay : Nat := 250

inductive HappyEyeballsError (E : Type)
  | noAddresses
  | allAttemptsFailed (addr : EndpointAddress) (error : E)

structure ConnectPass (addrs : List EndpointAddress) (T E : Type) where
  now : Nat
  next : Nat
  attempts : List (Fin addrs.length)
  timer : Nat
  lastError : Option (Fin addrs.length × E)
  started : List (Fin addrs.length)
  arrived : List (Fin addrs.length × Except E T)
  outcome : Option (Except (HappyEyeballsError E) T)

inductive PassEvent (addrs : List EndpointAddress) (T E : Type)
  | advance (time : Nat)
  | arrives (attempt : Fin addrs.length) (result : Except E T)
  | exhausted
  | expires

namespace ConnectPass
variable {addrs : List EndpointAddress} {T E : Type}

variable (pass : ConnectPass addrs T E) (attempt : Fin addrs.length)

def startNextAttempt (h : pass.next < addrs.length) : ConnectPass addrs T E :=
  { pass with
    next := pass.next + 1
    attempts := pass.attempts ++ [⟨pass.next, h⟩]
    started := pass.started ++ [⟨pass.next, h⟩]
    timer := pass.now + connectionAttemptDelay }

def new (addrs : List EndpointAddress) (T E : Type) : ConnectPass addrs T E :=
  let pass : ConnectPass addrs T E :=
    { now := 0, next := 0, attempts := [], timer := connectionAttemptDelay, lastError := none
      started := [], arrived := [], outcome := none }
  if h : pass.next < addrs.length then pass.startNextAttempt h else pass

def receive (result : Except E T) : ConnectPass addrs T E :=
  { pass with attempts := pass.attempts.erase attempt, arrived := pass.arrived ++ [(attempt, result)] }

def fail (error : E) : ConnectPass addrs T E :=
  let pass := { pass with lastError := some (attempt, error) }
  if h : attempt.val + 1 = pass.next ∧ pass.next < addrs.length then pass.startNextAttempt h.2 else pass

def giveUp : HappyEyeballsError E :=
  match pass.lastError with
  | some (attempt, error) => .allAttemptsFailed (addrs.get attempt) error
  | none => .noAddresses

/-- A turn of the loop of `poll_connect`. Once it has returned a result, it is not polled again. -/
def pollConnect : PassEvent addrs T E → Option (ConnectPass addrs T E)
  | .advance time => some { pass with now := pass.now + time }
  | .arrives attempt result =>
    if attempt ∈ pass.attempts then
      let pass := pass.receive attempt result
      match result with
      | .ok conn => some { pass with outcome := some (.ok conn) }
      | .error error => some (pass.fail attempt error)
    else none
  | .exhausted =>
    if pass.attempts = [] then some { pass with lastError := none, outcome := some (.error pass.giveUp) } else none
  | .expires =>
    if h : pass.attempts ≠ [] ∧ pass.next < addrs.length ∧ pass.timer ≤ pass.now then some (pass.startNextAttempt h.2.1)
    else none

def step (event : PassEvent addrs T E) : Option (ConnectPass addrs T E) :=
  match pass.outcome with
  | none => pass.pollConnect event
  | some _ => none

end ConnectPass

def connecting (T E : Type) : Transition (ConnectPass addrs T E) (PassEvent addrs T E) where
  init := .new addrs T E
  step := ConnectPass.step

/-! ## What holds of every pass -/

namespace ConnectPass
variable {addrs : List EndpointAddress} {T E : Type}

/-- The attempts are those of the first addresses, and each is waited for or has arrived. -/
structure Sound (pass : ConnectPass addrs T E) : Prop where
  started : pass.started.map Fin.val = List.range pass.next
  next_le : pass.next ≤ addrs.length
  known : (pass.attempts ++ pass.arrived.map (·.1)).Perm pass.started

def Failed (x : Fin addrs.length × Except E T) : Prop := ∃ error, x.2 = .error error

/-- The pass goes on: all that has arrived are failures, and of the latest attempt only if it is the last. -/
structure Waiting (pass : ConnectPass addrs T E) : Prop where
  latest : pass.next < addrs.length → ∃ attempt ∈ pass.attempts, attempt.val + 1 = pass.next
  failed : ∀ x ∈ pass.arrived, Failed x
  lastError : (pass.lastError = none ∧ pass.arrived = []) ∨
    ∃ attempt error, pass.lastError = some (attempt, error) ∧ pass.arrived.getLast? = some (attempt, .error error)

def Ended (pass : ConnectPass addrs T E) : Except (HappyEyeballsError E) T → Prop
  | .ok conn => ∃ before attempt, pass.arrived = before ++ [(attempt, .ok conn)] ∧ ∀ x ∈ before, Failed x
  | .error (.allAttemptsFailed addr error) => pass.attempts = [] ∧ pass.next = addrs.length ∧
    (∀ x ∈ pass.arrived, Failed x) ∧
    ∃ attempt, addrs.get attempt = addr ∧ pass.arrived.getLast? = some (attempt, .error error)
  | .error .noAddresses => addrs = []

/-- A pass waits while it has no outcome; an outcome is explained by the attempts. -/
structure Inv (pass : ConnectPass addrs T E) : Prop where
  sound : pass.Sound
  waiting : pass.outcome = none → pass.Waiting
  ended : ∀ result, pass.outcome = some result → pass.Ended result

section
variable {pass : ConnectPass addrs T E} {a : Fin addrs.length}

theorem Sound.startNextAttempt (h : pass.Sound) (hlt : pass.next < addrs.length) :
    (pass.startNextAttempt hlt).Sound where
  started := by
    rw [ConnectPass.startNextAttempt, map_append, h.started, range_succ]
    rfl
  next_le := hlt
  known := by
    refine List.Perm.trans ?_ (h.known.append_right [⟨pass.next, hlt⟩])
    rw [ConnectPass.startNextAttempt, append_assoc, append_assoc]
    exact List.Perm.append_left _ perm_append_comm

theorem exists_latest (p : ConnectPass addrs T E) (hlt : p.next < addrs.length) :
    ∃ a ∈ (p.startNextAttempt hlt).attempts, a.val + 1 = (p.startNextAttempt hlt).next :=
  ⟨⟨p.next, hlt⟩, mem_append_right _ (mem_singleton_self _), rfl⟩

theorem Inv.of_waiting (hs : pass.Sound) (hw : pass.Waiting) (hnone : pass.outcome = none) : pass.Inv where
  sound := hs
  waiting _ := hw
  ended result hr := by
    rw [hnone] at hr
    cases hr

theorem Inv.of_ended {result : Except (HappyEyeballsError E) T} (hs : pass.Sound) (hr : pass.outcome = some result)
    (he : pass.Ended result) : pass.Inv where
  sound := hs
  waiting hnone := by
    rw [hnone] at hr
    cases hr
  ended result' hr' := by
    rw [hr] at hr'
    cases hr'
    exact he

theorem inv_new : (new addrs T E).Inv := by
  unfold new
  dsimp only
  split_ifs with hlt
  · apply Inv.of_waiting
    · apply Sound.startNextAttempt
      exact ⟨rfl, Nat.zero_le _, .nil⟩
    · exact ⟨fun _ => exists_latest _ hlt, nofun, .inl ⟨rfl, rfl⟩⟩
    · rfl
  · exact .of_waiting ⟨rfl, Nat.zero_le _, .nil⟩ ⟨fun h => absurd h hlt, nofun, .inl ⟨rfl, rfl⟩⟩ rfl

theorem Sound.receive (h : pass.Sound) (hmem : a ∈ pass.attempts) (r : Except E T) : (pass.receive a r).Sound where
  started := h.started
  next_le := h.next_le
  known := by
    change (pass.attempts.erase a ++ (pass.arrived ++ [(a, r)]).map (·.1)).Perm pass.started
    refine List.Perm.trans ?_ h.known
    rw [map_append, ← append_assoc]
    exact (perm_append_singleton ..).trans ((perm_cons_erase hmem).symm.append_right _)

theorem failed_receive (h : ∀ x ∈ pass.arrived, Failed x) (a : Fin addrs.length) (e : E) :
    ∀ x ∈ (pass.receive a (.error e)).arrived, Failed x := by
  intro x hx
  rcases List.mem_append.1 hx with hx | hx
  · exact h x hx
  · rw [List.mem_singleton.1 hx]
    exact ⟨e, rfl⟩

theorem Inv.failed (h : pass.Inv) (hnone : pass.outcome = none) (hmem : a ∈ pass.attempts)
    (e : E) : ((pass.receive a (.error e)).fail a e).Inv := by
  have hs := h.sound.receive hmem (.error e)
  have hw := h.waiting hnone
  have hf := failed_receive hw.failed a e
  have hlast : (pass.arrived ++ [(a, (.error e : Except E T))]).getLast? = some (a, .error e) := by
    rw [getLast?_append, getLast?_singleton]
    rfl
  unfold fail
  dsimp only
  split_ifs with hn
  · apply Inv.of_waiting
    · apply Sound.startNextAttempt
      exact ⟨hs.started, hs.next_le, hs.known⟩
    · exact ⟨fun _ => exists_latest _ hn.2, hf, .inr ⟨a, e, rfl, hlast⟩⟩
    · exact hnone
  · refine .of_waiting ⟨hs.started, hs.next_le, hs.known⟩ ⟨fun hlt => ?_, hf, .inr ⟨a, e, rfl, hlast⟩⟩ hnone
    -- the latest attempt is another one
    obtain ⟨l, hl, heq⟩ := hw.latest hlt
    refine ⟨l, (mem_erase_of_ne ?_).2 hl, heq⟩
    rintro rfl
    exact hn ⟨heq, hlt⟩

theorem Inv.exhausted (h : pass.Inv) (hnone : pass.outcome = none) (hempty : pass.attempts = []) :
    ({ pass with lastError := none, outcome := some (.error pass.giveUp) } : ConnectPass addrs T E).Inv := by
  obtain ⟨hl, hf, hlast⟩ := h.waiting hnone
  have hall : pass.next = addrs.length := by
    by_contra hne
    obtain ⟨l, hmem, _⟩ := hl (lt_of_le_of_ne h.sound.next_le hne)
    rw [hempty] at hmem
    cases hmem
  refine .of_ended ⟨h.sound.started, h.sound.next_le, h.sound.known⟩ rfl ?_
  rcases hlast with ⟨hlast, ha⟩ | ⟨a, e, hlast, ha⟩
  · rw [giveUp, hlast]
    -- nothing was started
    have hs : pass.started = [] := by
      have hk := h.sound.known
      rw [hempty, ha] at hk
      exact hk.nil_eq.symm
    have hr := h.sound.started
    rw [hs, hall] at hr
    exact List.length_eq_zero_iff.1 (List.range_eq_nil.1 hr.symm)
  · rw [giveUp, hlast]
    exact ⟨hempty, hall, hf, a, rfl, ha⟩

theorem Inv.step {e : PassEvent addrs T E} {pass' : ConnectPass addrs T E} (h : pass.Inv)
    (hs : pass.step e = some pass') : pass'.Inv := by
  unfold ConnectPass.step at hs
  split at hs
  · rename_i hnone
    have hw := h.waiting hnone
    cases e with
    | advance t =>
      cases hs
      exact .of_waiting ⟨h.sound.started, h.sound.next_le, h.sound.known⟩ ⟨hw.latest, hw.failed, hw.lastError⟩ hnone
    | arrives a r =>
      simp only [pollConnect] at hs
      split_ifs at hs with hmem
      cases r with
      | ok c =>
        cases hs
        exact .of_ended ⟨h.sound.started, h.sound.next_le, (h.sound.receive hmem (.ok c)).known⟩ rfl
          ⟨pass.arrived, a, rfl, hw.failed⟩
      | error error =>
        cases hs
        exact h.failed hnone hmem error
    | exhausted =>
      simp only [pollConnect] at hs
      split_ifs at hs with hempty
      cases hs
      exact h.exhausted hnone hempty
    | expires =>
      simp only [pollConnect] at hs
      split_ifs at hs with he
      cases hs
      exact .of_waiting (h.sound.startNextAttempt he.2.1)
        ⟨fun _ => exists_latest _ he.2.1, hw.failed, hw.lastError⟩ hnone
  · cases hs

theorem inv_of_reached (h : (connecting addrs T E).Reached pass) : pass.Inv :=
  h.inv inv_new fun _ _ _ hi _ hs => hi.step hs

end

section
variable {pass : ConnectPass addrs T E}

def connection? (x : Fin addrs.length × Except E T) : Option T := x.2.toOption

theorem findSome?_of_failed {l : List (Fin addrs.length × Except E T)} (h : ∀ x ∈ l, Failed x) :
    l.findSome? connection? = none := by
  refine List.findSome?_eq_none_iff.2 fun x hx => ?_
  obtain ⟨e, he⟩ := h x hx
  rw [connection?, he]
  rfl

theorem Inv.first_connection (h : pass.Inv) (conn : T) :
    pass.outcome = some (.ok conn) ↔ pass.arrived.findSome? connection? = some conn := by
  cases ho : pass.outcome with
  | none =>
    rw [findSome?_of_failed (h.waiting ho).failed]
    exact iff_of_false nofun nofun
  | some r =>
    have he := h.ended r ho
    match r with
    | .ok conn' =>
      obtain ⟨b, a, ha, hf⟩ := he
      rw [ha, findSome?_append, findSome?_of_failed hf]
      simp [connection?, Except.toOption]
    | .error (.allAttemptsFailed addr error) =>
      rw [findSome?_of_failed he.2.2.1]
      exact iff_of_false nofun nofun
    | .error .noAddresses =>
      have hnone : pass.arrived = [] := by
        refine List.eq_nil_iff_forall_not_mem.2 fun x _ => ?_
        have hl : addrs.length = 0 := List.length_eq_zero_iff.2 he
        exact absurd x.1.isLt (by omega)
      rw [hnone]
      exact iff_of_false nofun nofun

theorem Sound.attempted (h : pass.Sound) : pass.started.map addrs.get = addrs.take pass.next := by
  have hs : (pass.started.map addrs.get).map some = (addrs.take pass.next).map some := by
    calc (pass.started.map addrs.get).map some
        = (pass.started.map Fin.val).map (addrs[·]?) := by simp [Function.comp_def]
      _ = (addrs.take pass.next).map some := by
        rw [h.started]
        apply ext_getElem?
        intro i
        by_cases hi : i < pass.next
        · have hlt : i < addrs.length := hi.trans_le h.next_le
          simp [hi, hlt]
        · simp [hi]
  exact List.map_injective_iff.2 (Option.some_injective _) hs

theorem Inv.all_failed (h : pass.Inv) {addr : EndpointAddress} {e : E}
    (hfl : pass.outcome = some (.error (.allAttemptsFailed addr e))) (a : Fin addrs.length) :
    ∃ e, (a, .error e) ∈ pass.arrived := by
  obtain ⟨hempty, hall, hf, _⟩ := h.ended _ hfl
  have hr : a.val ∈ pass.started.map Fin.val := by
    rw [h.sound.started, hall]
    exact List.mem_range.2 a.isLt
  obtain ⟨a', hs, heq⟩ := List.mem_map.1 hr
  rw [Fin.ext heq] at hs
  have hmem := h.sound.known.mem_iff.2 hs
  rw [hempty, nil_append] at hmem
  obtain ⟨⟨_, r⟩, ha, rfl⟩ := List.mem_map.1 hmem
  obtain ⟨e, rfl⟩ := hf _ ha
  exact ⟨e, ha⟩

end

end ConnectPass

/-- Addresses are tried in order, each once; the first connection is the result, and failure means all have failed. -/
theorem happy_eyeballs_pass (given : List EndpointAddress) (T E : Type)
    {pass : ConnectPass (interleaveAddresses given) T E}
    (h : (connecting (interleaveAddresses given) T E).Reached pass) :
    (pass.started.map (interleaveAddresses given).get <+: interleaveAddresses given) ∧
    (pass.started.map (interleaveAddresses given).get).Nodup ∧
    (∀ c, pass.outcome = some (.ok c) ↔ pass.arrived.findSome? ConnectPass.connection? = some c) ∧
    (∀ addr e, pass.outcome = some (.error (.allAttemptsFailed addr e)) →
      pass.started.map (interleaveAddresses given).get = interleaveAddresses given ∧
        (∀ a, ∃ e, (a, .error e) ∈ pass.arrived) ∧
        ∃ a, (interleaveAddresses given).get a = addr ∧ pass.arrived.getLast? = some (a, .error e)) ∧
    (pass.outcome = some (.error .noAddresses) → interleaveAddresses given = []) := by
  have hi := ConnectPass.inv_of_reached h
  have ha := hi.sound.attempted
  refine ⟨?_, ?_, hi.first_connection, fun addr e hf => ?_, fun hnone => hi.ended _ hnone⟩
  · rw [ha]
    exact take_prefix ..
  · rw [ha]
    exact (nodup_interleaveAddresses given).sublist (take_sublist ..)
  · obtain ⟨_, hall, _, hlast⟩ := hi.ended _ hf
    refine ⟨?_, hi.all_failed hf, hlast⟩
    rw [ha, hall, take_length]

def dualStack : List EndpointAddress := [⟨.ipv6 1, 443⟩, ⟨.ipv4 1, 443⟩]

/-- The first attempt fails, and the second one, which its failure has started, connects. -/
theorem happy_eyeballs_pass_dual_stack :
    ∃ p, (connecting (interleaveAddresses dualStack) Nat Unit).Reached p ∧ p.outcome = some (.ok 7) ∧
      p.arrived.findSome? ConnectPass.connection? = some 7 := by
  have hl : (interleaveAddresses dualStack).length = 2 := by decide
  have hrn : ((connecting (interleaveAddresses dualStack) Nat Unit).run
      [.arrives ⟨0, by omega⟩ (.error ()), .arrives ⟨1, by omega⟩ (.ok 7)]).map (·.outcome) = some (some (.ok 7)) := by
    rfl
  obtain ⟨p, hpass, ho⟩ := Option.map_eq_some_iff.1 hrn
  have hr := Transition.reached_of_run hpass
  obtain ⟨_, _, hf, _⟩ := happy_eyeballs_pass dualStack Nat Unit hr
  exact ⟨p, hr, ho, (hf 7).1 ho⟩

end TonicXds
