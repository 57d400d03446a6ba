import GrpcRust.LoadBalancing.Subchannel
/-!
# Subchannel sharing

`client/load_balancing/subchannel_sharing.rs`: one internal subchannel for each address. Changes and drops come
through a FIFO queue, so a release may find its address in use again. `id` is the allocation.
-/

namespace LoadBalancing

open Lib HashMap

variable {A S : Type}

structure SharedSubchannel (A : Type) where
  id : Nat
  delegate : Subchannel A
deriving DecidableEq

structure InternalSubchannelEntry (A S : Type) where
  state : SubchannelState
  extSubchannels : HashMap (SharedSubchannel A) S

structure Inner (A S : Type) where
  subchannelsByAddress : HashMap (Address A) (Subchannel A)
  subchannelsIntToExt : HashMap (Subchannel A) (InternalSubchannelEntry A S)

/-- The channel's queue: the policy's own work, and updates for the delegate. -/
inductive SharingWork (A S : Type) where
  | internalUpdate (sc : Subchannel A) (state : SubchannelState)
  | released (sc : Subchannel A)
  | subchannelUpdate (workScheduler : S) (ext : SharedSubchannel A) (state : SubchannelState)

inductive SharingPanic where
  /-- "new internal subchannel must have a state" -/
  | newState
deriving DecidableEq

section
variable [DecidableEq A]

namespace Inner

def new : Inner A S := ⟨∅, ∅⟩

variable (inner : Inner A S) (address : Address A)

def deliverSubchannelUpdate (order : IterOrder) (live : SharedSubchannel A → Bool)
    (sc : Subchannel A) (state : SubchannelState) : Inner A S × List (SharingWork A S) :=
  match inner.subchannelsIntToExt.lookup sc with
  | none => (inner, [])
  | some entry =>
    ({ inner with subchannelsIntToExt := inner.subchannelsIntToExt.insert sc { entry with state := state } },
      (order.entries entry.extSubchannels.entries).filterMap fun e =>
        if live e.1 then some (.subchannelUpdate e.2 e.1 state) else none)

def releaseSubchannel (live : SharedSubchannel A → Bool) (sc : Subchannel A) : Inner A S :=
  match inner.subchannelsIntToExt.lookup sc with
  | none => inner
  | some entry =>
    let extSubchannels := HashMap.retain (fun ext _ => live ext) entry.extSubchannels
    if HashMap.isEmpty extSubchannels then
      { subchannelsIntToExt := inner.subchannelsIntToExt.erase sc
        subchannelsByAddress := inner.subchannelsByAddress.erase sc.address }
    else
      { inner with
        subchannelsIntToExt := inner.subchannelsIntToExt.insert sc { entry with extSubchannels := extSubchannels } }

/-- The internal subchannel for the address; `created` is what the channel returns for a new one. -/
def intSubchannel (created : Subchannel A × SubchannelState) : Inner A S × Subchannel A × Option SubchannelState :=
  match inner.subchannelsByAddress.lookup address with
  | some sc => (inner, sc, none)
  | none =>
    ({ inner with subchannelsByAddress := inner.subchannelsByAddress.insert address created.1 }, created.1,
      some created.2)

/-- `or_insert_with` in `new_subchannel`. -/
def entryOr (sc : Subchannel A) (newState : Option SubchannelState) :
    Except SharingPanic (InternalSubchannelEntry A S) :=
  match inner.subchannelsIntToExt.lookup sc with
  | some entry => .ok entry
  | none =>
    match newState with
    | some state => .ok ⟨state, ∅⟩
    | none => .error .newState

def newSubchannel (workScheduler : S) (created : Subchannel A × SubchannelState) (id : Nat) :
    Except SharingPanic (Inner A S × SharedSubchannel A × SubchannelState) := do
  let (inner, sc, newState) := inner.intSubchannel address created
  let ext : SharedSubchannel A := ⟨id, sc⟩
  let entry ← inner.entryOr sc newState
  let entry := { entry with extSubchannels := entry.extSubchannels.insert ext workScheduler }
  return ({ inner with subchannelsIntToExt := inner.subchannelsIntToExt.insert sc entry }, ext, entry.state)

end Inner

/-! ## The table and its surroundings -/

/-- The table, the queue, the external subchannels in use, those that have yet to ask for their release. -/
structure Sharing (A S : Type) where
  inner : Inner A S
  queue : List (SharingWork A S)
  alive : List (SharedSubchannel A)
  dropping : List (SharedSubchannel A)
  nextId : Nat

namespace Sharing

def init : Sharing A S := ⟨.new, [], [], [], 0⟩

/-- A call of the delegate; `state` is the one in which the channel creates a subchannel. -/
def newSubchannel (w : Sharing A S) (address : Address A) (workScheduler : S) (state : SubchannelState) :
    Except SharingPanic (Sharing A S × SharedSubchannel A × SubchannelState) := do
  let (inner, ext, state) ←
    w.inner.newSubchannel address workScheduler (⟨w.nextId, address⟩, state) (w.nextId + 1)
  return ({ w with inner := inner, alive := ext :: w.alive, nextId := w.nextId + 2 }, ext, state)

def internalUpdate (w : Sharing A S) (sc : Subchannel A) (state : SubchannelState) : Sharing A S :=
  if sc.id < w.nextId then { w with queue := w.queue ++ [.internalUpdate sc state] } else w

variable (w : Sharing A S) (ext : SharedSubchannel A)

def dropExt : Sharing A S :=
  if ext ∈ w.alive ∧ w.queue.all fun work =>
      match work with
      | .subchannelUpdate _ ext' _ => decide (ext' ≠ ext)
      | _ => true then
    { w with alive := w.alive.filter (decide <| · ≠ ext), dropping := ext :: w.dropping }
  else w

/-- `SharedSubchannel::drop` has run. -/
def dropped : Sharing A S :=
  if ext ∈ w.dropping then
    { w with dropping := w.dropping.erase ext, queue := w.queue ++ [.released ext.delegate] }
  else w

/-- The work loop takes the next item. An update for the delegate leaves the table as it is. -/
def work (order : IterOrder) : Sharing A S :=
  match w.queue with
  | [] => w
  | .internalUpdate sc state :: queue =>
    let (inner, works) := w.inner.deliverSubchannelUpdate order (fun ext => decide (ext ∈ w.alive)) sc state
    { w with inner := inner, queue := queue ++ works }
  | .released sc :: queue =>
    { w with inner := w.inner.releaseSubchannel (fun ext => decide (ext ∈ w.alive)) sc, queue := queue }
  | .subchannelUpdate _ _ _ :: queue => { w with queue := queue }

end Sharing

inductive SharingEvent (A S : Type) where
  | newSubchannel (address : Address A) (workScheduler : S) (state : SubchannelState)
  | internalUpdate (sc : Subchannel A) (state : SubchannelState)
  | dropExt (ext : SharedSubchannel A)
  | dropped (ext : SharedSubchannel A)
  | work (order : IterOrder)

def Sharing.step (w : Sharing A S) : SharingEvent A S → Except SharingPanic (Sharing A S)
  | .newSubchannel address workScheduler state => (w.newSubchannel address workScheduler state).map (·.1)
  | .internalUpdate sc state => .ok (w.internalUpdate sc state)
  | .dropExt ext => .ok (w.dropExt ext)
  | .dropped ext => .ok (w.dropped ext)
  | .work order => .ok (w.work order)

inductive Sharing.Reachable : Sharing A S → Prop where
  | init : Reachable .init
  | step {w w' : Sharing A S} (event : SharingEvent A S) : Reachable w → w.step event = .ok w' → Reachable w'

/-! ## The table -/

namespace Inner
variable {inner : Inner A S}

/-- Both maps have the same subchannels, and each shared one that is alive is registered with its delegate. -/
structure Sound (inner : Inner A S) (alive : List (SharedSubchannel A)) (nextId : Nat) : Prop where
  correspond : ∀ addr sc, inner.subchannelsByAddress.lookup addr = some sc ↔
    sc ∈ inner.subchannelsIntToExt ∧ sc.address = addr
  allocated : ∀ sc ∈ inner.subchannelsIntToExt, sc.id < nextId
  delegates : ∀ sc entry ext, inner.subchannelsIntToExt.lookup sc = some entry → ext ∈ entry.extSubchannels →
    ext.delegate = sc ∧ ext.id < nextId
  registered : ∀ ext ∈ alive, ∃ entry, inner.subchannelsIntToExt.lookup ext.delegate = some entry ∧
    ext ∈ entry.extSubchannels

variable {alive : List (SharedSubchannel A)} {nextId : Nat}

theorem sound_new (n : Nat) : Sound (new : Inner A S) [] n where
  correspond addr sc := by simp [new]
  allocated sc h := by simp [new] at h
  delegates sc entry ext h := by simp [new] at h
  registered ext h := by cases h

theorem Sound.replace (h : Sound inner alive nextId) {sc : Subchannel A} {e e' : InternalSubchannelEntry A S}
    (he : inner.subchannelsIntToExt.lookup sc = some e) (hs : ∀ ext ∈ e'.extSubchannels, ext ∈ e.extSubchannels)
    (hk : ∀ ext ∈ alive, ext ∈ e.extSubchannels → ext ∈ e'.extSubchannels) :
    Sound { inner with subchannelsIntToExt := inner.subchannelsIntToExt.insert sc e' } alive nextId := by
  have hm : sc ∈ inner.subchannelsIntToExt := mem_iff.2 ⟨e, he⟩
  refine ⟨fun a sc' => ?_, fun sc' hsc' => ?_, fun sc' e'' ext hl hx => ?_, fun ext hx => ?_⟩
  · rw [mem_insert_iff hm]
    exact h.correspond a sc'
  · exact h.allocated sc' ((mem_insert_iff hm).1 hsc')
  · rcases lookup_insert_eq_some.1 hl with ⟨rfl, rfl⟩ | ⟨-, hl⟩
    · exact h.delegates _ e ext he (hs ext hx)
    · exact h.delegates sc' e'' ext hl hx
  · obtain ⟨e'', hl, hin⟩ := h.registered ext hx
    rw [lookup_insert_ite]
    split
    · rename_i heq
      rw [heq, he] at hl
      cases hl
      exact ⟨e', rfl, hk ext hx hin⟩
    · exact ⟨e'', hl, hin⟩

theorem sound_deliver (h : Sound inner alive nextId) (o : IterOrder) (l : SharedSubchannel A → Bool)
    (sc : Subchannel A) (s : SubchannelState) : Sound (inner.deliverSubchannelUpdate o l sc s).1 alive nextId := by
  unfold deliverSubchannelUpdate
  cases he : inner.subchannelsIntToExt.lookup sc with
  | none => exact h
  | some e => exact h.replace he (fun _ => id) fun _ _ => id

theorem release_cases (ir : Inner A S) (l : SharedSubchannel A → Bool) (sc : Subchannel A) :
    (ir.subchannelsIntToExt.lookup sc = none ∧ ir.releaseSubchannel l sc = ir) ∨
    ∃ e, ir.subchannelsIntToExt.lookup sc = some e ∧ ((∀ ext ∈ e.extSubchannels, l ext = false) ∧
        ir.releaseSubchannel l sc = ⟨ir.subchannelsByAddress.erase sc.address, ir.subchannelsIntToExt.erase sc⟩ ∨
      ir.releaseSubchannel l sc = { ir with
        subchannelsIntToExt := ir.subchannelsIntToExt.insert sc
          { e with extSubchannels := retain (fun ext _ => l ext) e.extSubchannels } }) := by
  unfold releaseSubchannel
  cases he : ir.subchannelsIntToExt.lookup sc with
  | none => exact .inl ⟨rfl, rfl⟩
  | some e =>
    refine .inr ⟨e, rfl, ?_⟩
    dsimp only
    split
    · rename_i hempty
      refine .inl ⟨fun ext hx => ?_, rfl⟩
      obtain ⟨s, hs⟩ := mem_iff.1 hx
      have hn := isEmpty_iff.1 hempty ext
      rw [lookup_retain, hs] at hn
      simpa using hn
    · exact .inr rfl

theorem sound_release (h : Sound inner alive nextId) (sc : Subchannel A) :
    Sound (inner.releaseSubchannel (fun ext => decide (ext ∈ alive)) sc) alive nextId := by
  rcases inner.release_cases (fun ext => decide (ext ∈ alive)) sc with ⟨-, he⟩ | ⟨e, he, ⟨hd, hr⟩ | hr⟩
  · rw [he]
    exact h
  · rw [hr]
    have hsc : sc ∈ inner.subchannelsIntToExt := mem_iff.2 ⟨e, he⟩
    refine ⟨fun a sc' => ?_, fun sc' hm => ?_, fun sc' e' ext hl => ?_, fun ext hx => ?_⟩
    · rw [lookup_erase_ite, AList.mem_erase]
      constructor
      · intro hl
        split at hl
        · cases hl
        · rename_i hne
          obtain ⟨hm, ha⟩ := (h.correspond a sc').1 hl
          exact ⟨⟨fun heq => hne (by rw [← ha, heq]), hm⟩, ha⟩
      · rintro ⟨⟨hne, hm⟩, ha⟩
        split
        · rename_i heq
          -- Two subchannels of one address are the same.
          have h1 := (h.correspond a sc').2 ⟨hm, ha⟩
          have h2 := (h.correspond a sc).2 ⟨hsc, heq.symm⟩
          exact absurd (Option.some.inj (h1.symm.trans h2)) hne
        · exact (h.correspond a sc').2 ⟨hm, ha⟩
    · exact h.allocated sc' (AList.mem_erase.1 hm).2
    · exact h.delegates sc' e' ext (lookup_erase_eq_some.1 hl).2
    · obtain ⟨e', hl, hin⟩ := h.registered ext hx
      refine ⟨e', ?_, hin⟩
      rw [lookup_erase_ite, if_neg]
      · exact hl
      · intro heq
        rw [heq, he] at hl
        cases hl
        simpa [hx] using hd ext hin
  · rw [hr]
    refine h.replace he (fun ext hx => ?_) fun ext hx hin => ?_
    · obtain ⟨s, hs, -⟩ := mem_retain.1 hx
      exact mem_iff.2 ⟨s, hs⟩
    · obtain ⟨s, hs⟩ := mem_iff.1 hin
      exact mem_retain.2 ⟨s, hs, by simpa using hx⟩

structure Created (inner : Inner A S) (address : Address A) (workScheduler : S)
    (created : Subchannel A × SubchannelState) (id : Nat) (inner' : Inner A S) (ext : SharedSubchannel A)
    (state : SubchannelState) : Prop where
  id : ext.id = id
  shared : ∀ sc entry, inner.subchannelsByAddress.lookup address = some sc →
    inner.subchannelsIntToExt.lookup sc = some entry → ext.delegate = sc ∧ state = entry.state ∧
      inner' = ⟨inner.subchannelsByAddress, inner.subchannelsIntToExt.insert sc
        { entry with extSubchannels := entry.extSubchannels.insert ext workScheduler }⟩
  fresh : inner.subchannelsByAddress.lookup address = none → ext.delegate = created.1 ∧ state = created.2 ∧
    inner' = ⟨inner.subchannelsByAddress.insert address created.1,
      inner.subchannelsIntToExt.insert created.1 ⟨created.2, (∅ : HashMap _ _).insert ext workScheduler⟩⟩

theorem newSubchannel_ok (h : Sound inner alive nextId) (a : Address A) (w : S) (c : Subchannel A × SubchannelState)
    (hc : nextId ≤ c.1.id) (id : Nat) : ∃ inner' ext state, inner.newSubchannel a w c id = .ok (inner', ext, state) ∧
      Created inner a w c id inner' ext state := by
  cases hl : inner.subchannelsByAddress.lookup a with
  | some sc =>
    obtain ⟨hm, -⟩ := (h.correspond a sc).1 hl
    obtain ⟨entry, he⟩ := mem_iff.1 hm
    have hi : inner.intSubchannel a c = (inner, sc, none) := by simp only [intSubchannel, hl]
    have hen : inner.entryOr sc none = .ok entry := by simp only [entryOr, he]
    refine ⟨_, ⟨id, sc⟩, entry.state, by simp only [newSubchannel, hi, hen]; rfl, rfl, fun sc' entry' hl' he' => ?_,
      fun hn => ?_⟩
    · cases hl.symm.trans hl'
      cases he.symm.trans he'
      exact ⟨rfl, rfl, rfl⟩
    · cases hl.symm.trans hn
  | none =>
    have hn : inner.subchannelsIntToExt.lookup c.1 = none := by
      rw [AList.lookup_eq_none]
      intro hm
      have := h.allocated _ hm
      omega
    let inner' : Inner A S := { inner with
      subchannelsByAddress := inner.subchannelsByAddress.insert a c.1 }
    have hi : inner.intSubchannel a c = (inner', c.1, some c.2) := by
      simp only [intSubchannel, hl]
      rfl
    have hen : inner'.entryOr c.1 (some c.2) = .ok ⟨c.2, ∅⟩ := by simp only [entryOr, inner', hn]
    refine ⟨_, ⟨id, c.1⟩, c.2, by simp only [newSubchannel, hi, hen]; rfl, rfl, fun sc' entry' hl' => ?_,
      fun _ => ⟨rfl, rfl, rfl⟩⟩
    cases hl.symm.trans hl'

section Created
variable {a : Address A} {ws : S} {s s' : SubchannelState} {inner' : Inner A S}
  {ext : SharedSubchannel A}

section
variable (h : Sound inner alive nextId) (hc : Created inner a ws (⟨nextId, a⟩, s) (nextId + 1) inner' ext s')
include h hc

theorem Created.intToExt : inner'.subchannelsIntToExt = inner.subchannelsIntToExt.insert ext.delegate ⟨s',
      ((inner.subchannelsIntToExt.lookup ext.delegate).elim ∅ (·.extSubchannels)).insert ext ws⟩ := by
  cases hl : inner.subchannelsByAddress.lookup a with
  | some sc =>
    obtain ⟨e, he⟩ := mem_iff.1 ((h.correspond a sc).1 hl).1
    obtain ⟨rfl, rfl, rfl⟩ := hc.shared sc e hl he
    rw [he]
    rfl
  | none =>
    obtain ⟨hd, rfl, rfl⟩ := hc.fresh hl
    have hn : inner.subchannelsIntToExt.lookup ext.delegate = none := by
      rw [AList.lookup_eq_none, hd]
      intro hm
      exact absurd (h.allocated _ hm) (Nat.lt_irrefl _)
    rw [hn, hd]
    rfl

theorem Created.delegate_lt : ext.delegate.id < nextId + 2 := by
  cases hl : inner.subchannelsByAddress.lookup a with
  | some sc =>
    obtain ⟨hm, -⟩ := (h.correspond a sc).1 hl
    obtain ⟨e, he⟩ := mem_iff.1 hm
    rw [(hc.shared sc e hl he).1]
    exact Nat.lt_add_right 2 (h.allocated sc hm)
  | none =>
    rw [(hc.fresh hl).1]
    show nextId < nextId + 2
    omega

theorem Created.correspond (addr : Address A) (sc : Subchannel A) : inner'.subchannelsByAddress.lookup addr = some sc ↔
      sc ∈ inner'.subchannelsIntToExt ∧ sc.address = addr := by
  cases hl : inner.subchannelsByAddress.lookup a with
  | some sc' =>
    obtain ⟨hm, -⟩ := (h.correspond a sc').1 hl
    obtain ⟨e, he⟩ := mem_iff.1 hm
    obtain ⟨-, -, rfl⟩ := hc.shared sc' e hl he
    rw [mem_insert_iff hm]
    exact h.correspond addr sc
  | none =>
    obtain ⟨-, -, rfl⟩ := hc.fresh hl
    rw [lookup_insert_ite, AList.mem_insert]
    constructor
    · intro hl'
      split at hl'
      · rename_i heq
        cases hl'
        exact ⟨.inl rfl, heq.symm⟩
      · obtain ⟨hm, ha⟩ := (h.correspond addr sc).1 hl'
        exact ⟨.inr hm, ha⟩
    · rintro ⟨rfl | hm, ha⟩
      · rw [if_pos ha.symm]
      · rw [if_neg]
        · exact (h.correspond addr sc).2 ⟨hm, ha⟩
        · rintro rfl
          cases hl.symm.trans ((h.correspond _ sc).2 ⟨hm, ha⟩)

theorem sound_newSubchannel : Sound inner' (ext :: alive) (nextId + 2) := by
  refine ⟨hc.correspond h, ?_, ?_, ?_⟩ <;> rw [hc.intToExt h]
  · intro sc hsc
    rcases (AList.mem_insert _).1 hsc with rfl | hm
    · exact hc.delegate_lt h
    · exact Nat.lt_add_right 2 (h.allocated sc hm)
  · intro sc e ext' hl hx
    rcases lookup_insert_eq_some.1 hl with ⟨heq, rfl⟩ | ⟨-, hl⟩
    · rcases (AList.mem_insert _).1 hx with rfl | hx
      · exact ⟨heq.symm, by rw [hc.id]; omega⟩
      · cases he : inner.subchannelsIntToExt.lookup ext.delegate with
        | none =>
          rw [he] at hx
          exact absurd hx (AList.notMem_empty _)
        | some e =>
          rw [he] at hx
          obtain ⟨hd, hid⟩ := h.delegates _ e ext' he hx
          exact ⟨hd.trans heq.symm, Nat.lt_add_right 2 hid⟩
    · obtain ⟨hd, hid⟩ := h.delegates sc e ext' hl hx
      exact ⟨hd, Nat.lt_add_right 2 hid⟩
  · intro ext' hx
    rcases List.mem_cons.1 hx with rfl | hx
    · exact ⟨_, AList.lookup_insert _, (AList.mem_insert _).2 (.inl rfl)⟩
    · obtain ⟨e, hl, hin⟩ := h.registered ext' hx
      rw [lookup_insert_ite]
      split
      · rename_i heq
        rw [heq] at hl
        rw [hl]
        exact ⟨_, rfl, (AList.mem_insert _).2 (.inr hin)⟩
      · exact ⟨e, hl, hin⟩

end

end Created

theorem Sound.mono (h : Sound inner alive nextId) {alive' : List (SharedSubchannel A)} {nextId' : Nat}
    (ha : ∀ ext ∈ alive', ext ∈ alive) (hn : nextId ≤ nextId') : Sound inner alive' nextId' where
  correspond := h.correspond
  allocated sc hm := Nat.lt_of_lt_of_le (h.allocated sc hm) hn
  delegates sc entry ext hl hx := (h.delegates sc entry ext hl hx).imp_right fun hid => Nat.lt_of_lt_of_le hid hn
  registered ext hx := h.registered ext (ha ext hx)

end Inner

namespace Sharing
variable {w w' : Sharing A S}

def Sound (w : Sharing A S) : Prop := w.inner.Sound w.alive w.nextId

theorem newSubchannel_ok (h : w.Sound) (a : Address A) (ws : S) (state : SubchannelState) :
    ∃ ir ext state', w.newSubchannel a ws state =
        .ok (⟨ir, w.queue, ext :: w.alive, w.dropping, w.nextId + 2⟩, ext, state') ∧
      Inner.Created w.inner a ws (⟨w.nextId, a⟩, state) (w.nextId + 1) ir ext state' := by
  obtain ⟨ir, ext, state', hok, hc⟩ :=
    Inner.newSubchannel_ok h a ws (⟨w.nextId, a⟩, state) (Nat.le_refl _) (w.nextId + 1)
  exact ⟨ir, ext, state', by simp only [newSubchannel, hok]; rfl, hc⟩

theorem sound_dropExt (h : w.Sound) (ext : SharedSubchannel A) : (w.dropExt ext).Sound := by
  unfold dropExt
  split
  · exact Inner.Sound.mono h (fun ext' hm => (List.mem_filter.1 hm).1) (Nat.le_refl _)
  · exact h

theorem sound_work (h : w.Sound) (o : IterOrder) : (w.work o).Sound := by
  unfold work
  split
  · exact h
  · exact Inner.sound_deliver h o _ _ _
  · exact Inner.sound_release h _
  · exact h

theorem sound_step (h : w.Sound) (e : SharingEvent A S) : ∃ w', w.step e = .ok w' ∧ w'.Sound := by
  cases e with
  | newSubchannel a ws s =>
    obtain ⟨ir, ext, s', hok, hc⟩ := newSubchannel_ok h a ws s
    exact ⟨⟨ir, w.queue, ext :: w.alive, w.dropping, w.nextId + 2⟩, by simp only [step, hok]; rfl,
      Inner.sound_newSubchannel h hc⟩
  | internalUpdate sc s =>
    refine ⟨_, rfl, ?_⟩
    unfold internalUpdate
    split <;> exact h
  | dropExt ext => exact ⟨_, rfl, sound_dropExt h ext⟩
  | dropped ext =>
    refine ⟨_, rfl, ?_⟩
    unfold dropped
    split <;> exact h
  | work o => exact ⟨_, rfl, sound_work h o⟩

theorem Reachable.sound (h : w.Reachable) : w.Sound := by
  induction h with
  | init => exact Inner.sound_new 0
  | step e _ hok ih =>
    obtain ⟨w'', hok', hs⟩ := sound_step ih e
    cases hok.symm.trans hok'
    exact hs

theorem removed_unused (h : w.Sound) {e : SharingEvent A S} (hok : w.step e = .ok w') {sc : Subchannel A}
    (hm : sc ∈ w.inner.subchannelsIntToExt) (hn : sc ∉ w'.inner.subchannelsIntToExt) :
    ∀ ext ∈ w.alive, ext.delegate ≠ sc := by
  cases e with
  | newSubchannel a ws s =>
    obtain ⟨ir, ext, s', hok', hc⟩ := newSubchannel_ok h a ws s
    simp only [step, hok'] at hok
    cases hok
    refine absurd ?_ hn
    rw [hc.intToExt h]
    exact (AList.mem_insert _).2 (.inr hm)
  | internalUpdate sc' s =>
    cases hok
    refine absurd ?_ hn
    unfold internalUpdate
    split <;> exact hm
  | dropExt ext =>
    cases hok
    refine absurd ?_ hn
    unfold dropExt
    split <;> exact hm
  | dropped ext =>
    cases hok
    refine absurd ?_ hn
    unfold dropped
    split <;> exact hm
  | work o =>
    cases hok
    unfold work at hn
    split at hn
    · exact absurd hm hn
    · rename_i sc' s q hq
      refine absurd ?_ hn
      dsimp only
      unfold Inner.deliverSubchannelUpdate
      split
      · exact hm
      · exact (AList.mem_insert _).2 (.inr hm)
    · rename_i sc' q hq
      rcases w.inner.release_cases (fun ext => decide (ext ∈ w.alive)) sc' with
        ⟨-, he⟩ | ⟨entry, he, ⟨hd, hr⟩ | hr⟩
      · rw [he] at hn
        exact absurd hm hn
      · rw [hr] at hn
        obtain rfl : sc = sc' := by
          by_contra hne
          exact hn (AList.mem_erase.2 ⟨hne, hm⟩)
        rintro ext hx rfl
        obtain ⟨entry', hl, hin⟩ := h.registered ext hx
        cases he.symm.trans hl
        simpa [hx] using hd ext hin
      · rw [hr] at hn
        exact absurd ((AList.mem_insert _).2 (.inr hm)) hn
    · exact absurd hm hn

end Sharing

/-- An address has one internal subchannel; late releases change nothing, and entries in use are not removed. -/
theorem sharing_table_sound {w : Sharing A S} (h : w.Reachable) :
    (∀ sc ∈ w.inner.subchannelsIntToExt, ∀ sc' ∈ w.inner.subchannelsIntToExt, sc.address = sc'.address → sc = sc') ∧
    (∀ a sc, w.inner.subchannelsByAddress.lookup a = some sc ↔ sc ∈ w.inner.subchannelsIntToExt ∧ sc.address = a) ∧
    (∀ sc sc' q o, w.queue = .released sc :: q →
      w.inner.subchannelsByAddress.lookup sc.address = some sc' → sc' ≠ sc → (w.work o).inner = w.inner) ∧
    (∀ e w', w.step e = .ok w' → ∀ sc ∈ w.inner.subchannelsIntToExt, sc ∉ w'.inner.subchannelsIntToExt →
      ∀ ext ∈ w.alive, ext.delegate ≠ sc) ∧
    ∀ e, ∃ w', w.step e = .ok w' := by
  have hs := h.sound
  refine ⟨fun sc hm sc' hm' ha => ?_, hs.correspond, fun sc sc' q o hq hl hne => ?_,
    fun e w' hok sc hm hn => Sharing.removed_unused hs hok hm hn, fun e => ?_⟩
  · have h1 := (hs.correspond sc.address sc).2 ⟨hm, rfl⟩
    have h2 := (hs.correspond sc.address sc').2 ⟨hm', ha.symm⟩
    exact Option.some.inj (h1.symm.trans h2)
  · have hnone : w.inner.subchannelsIntToExt.lookup sc = none := by
      rw [AList.lookup_eq_none]
      intro hm
      exact hne (Option.some.inj (hl.symm.trans ((hs.correspond _ sc).2 ⟨hm, rfl⟩)))
    simp only [Sharing.work, hq, Inner.releaseSubchannel, hnone]
  · obtain ⟨w', hok, -⟩ := Sharing.sound_step hs e
    exact ⟨w', hok⟩

end

/-- Two are dropped before the first release is handled; the second release finds a newer internal subchannel. -/
theorem sharing_table_sound_superseded :
    let ad : Address Unit := ⟨"tcp", "a", ()⟩
    ∃ w : Sharing Unit Unit, w.Reachable ∧ w.queue = [.released ⟨0, ad⟩] ∧
      w.inner.subchannelsByAddress.lookup ad = some ⟨4, ad⟩ ∧
      ∀ o, (w.work o).inner = w.inner := by
  intro ad
  have h : (Sharing.init : Sharing Unit Unit).Reachable := .init
  have h := h.step (.newSubchannel ad () .idle) rfl
  have h := h.step (.newSubchannel ad () .idle) rfl
  have h := h.step (.dropExt ⟨1, ⟨0, ad⟩⟩) rfl
  have h := h.step (.dropExt ⟨3, ⟨0, ad⟩⟩) rfl
  have h := h.step (.dropped ⟨1, ⟨0, ad⟩⟩) rfl
  have h := h.step (.work .default) rfl
  have h := h.step (.newSubchannel ad () .idle) rfl
  have h := h.step (.dropped ⟨3, ⟨0, ad⟩⟩) rfl
  refine ⟨_, h, rfl, rfl, fun o => ?_⟩
  exact (sharing_table_sound h).2.2.1 _ _ _ o rfl rfl (by decide)

end LoadBalancing
