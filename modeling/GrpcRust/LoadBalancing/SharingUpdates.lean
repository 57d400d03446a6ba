import GrpcRust.LoadBalancing.SubchannelSharing
/-!
# The updates of shared subchannels

A state change passes through the queue twice: to the table, and to the policy of each external subchannel.
-/

namespace LoadBalancing

open Lib List HashMap

variable {A S : Type}

section
variable [DecidableEq A]

namespace SharingWork

def internalUpdate? (sc : Subchannel A) : SharingWork A S → Option SubchannelState
  | .internalUpdate sc' state => if sc' = sc then some state else none
  | _ => none

def subchannelUpdate? (ext : SharedSubchannel A) : SharingWork A S → Option SubchannelState
  | .subchannelUpdate _ ext' state => if ext' = ext then some state else none
  | _ => none

end SharingWork

/-- The table with a history: per internal subchannel its first state, what it reported and what was handled; per
external one what it was given and what it has observed since. -/
structure SharingHistory (A S : Type) where
  sharing : Sharing A S
  initial : Subchannel A → SubchannelState
  reported : Subchannel A → List SubchannelState
  processed : Subchannel A → List SubchannelState
  created : SharedSubchannel A → Option (SubchannelState × Nat)
  observed : SharedSubchannel A → List SubchannelState

namespace SharingHistory
variable {ext : SharedSubchannel A} {state : SubchannelState} {q : List (SharingWork A S)}

def init : SharingHistory A S := ⟨.init, fun _ => .idle, fun _ => [], fun _ => [], fun _ => none, fun _ => []⟩

def work (H : SharingHistory A S) (order : IterOrder) : SharingHistory A S :=
  let H' := { H with sharing := H.sharing.work order }
  match H.sharing.queue with
  | .internalUpdate sc state :: _ =>
    { H' with processed := Function.update H.processed sc (H.processed sc ++ [state]) }
  | .subchannelUpdate _ ext state :: _ =>
    { H' with observed := Function.update H.observed ext (H.observed ext ++ [state]) }
  | _ => H'

def step (H : SharingHistory A S) : SharingEvent A S → Except SharingPanic (SharingHistory A S)
  | .newSubchannel address workScheduler state => do
    let (sharing, ext, returned) ← H.sharing.newSubchannel address workScheduler state
    return { H with
      sharing := sharing
      -- The next internal subchannel, if one is created.
      initial := Function.update H.initial ⟨H.sharing.nextId, address⟩ state
      created := Function.update H.created ext (some (returned, (H.processed ext.delegate).length)) }
  | .internalUpdate sc state =>
    .ok { H with
      sharing := H.sharing.internalUpdate sc state
      reported :=
        if sc.id < H.sharing.nextId then Function.update H.reported sc (H.reported sc ++ [state]) else H.reported }
  | .dropExt ext => .ok { H with sharing := H.sharing.dropExt ext }
  | .dropped ext => .ok { H with sharing := H.sharing.dropped ext }
  | .work order => .ok (H.work order)

inductive Reachable : SharingHistory A S → Prop where
  | init : Reachable .init
  | step {H H' : SharingHistory A S} (event : SharingEvent A S) : Reachable H → H.step event = .ok H' → Reachable H'

def pendingInternal (H : SharingHistory A S) (sc : Subchannel A) : List SubchannelState :=
  H.sharing.queue.filterMap (SharingWork.internalUpdate? sc)

def pendingFor (H : SharingHistory A S) (ext : SharedSubchannel A) : List SubchannelState :=
  H.sharing.queue.filterMap (SharingWork.subchannelUpdate? ext)

structure InOrder (H : SharingHistory A S) : Prop where
  sound : H.sharing.Sound
  firstHop : ∀ sc, H.reported sc = H.processed sc ++ H.pendingInternal sc
  unborn : ∀ sc, H.sharing.nextId ≤ sc.id → H.reported sc = []
  kept : ∀ sc entry, H.sharing.inner.subchannelsIntToExt.lookup sc = some entry →
    (H.initial sc :: H.processed sc).getLast? = some entry.state
  secondHop : ∀ ext ∈ H.sharing.alive, ∃ state n, H.created ext = some (state, n) ∧
    (H.initial ext.delegate :: H.processed ext.delegate).drop n = state :: (H.observed ext ++ H.pendingFor ext)
  unbornExt : ∀ ext, H.sharing.nextId ≤ ext.id → H.observed ext = [] ∧ H.pendingFor ext = []

theorem inOrder_init : InOrder (init : SharingHistory A S) where
  sound := Inner.sound_new 0
  firstHop _ := rfl
  unborn _ _ := rfl
  kept sc entry h := by simp [init, Sharing.init, Inner.new] at h
  secondHop ext h := by cases h
  unbornExt _ _ := ⟨rfl, rfl⟩

theorem InOrder.congr {H : SharingHistory A S} (h : InOrder H) {w : Sharing A S} (hs : w.Sound)
    (hi : ∀ sc, w.queue.filterMap (SharingWork.internalUpdate? sc) = H.pendingInternal sc)
    (hx : ∀ ext, w.queue.filterMap (SharingWork.subchannelUpdate? ext) = H.pendingFor ext)
    (hn : w.nextId = H.sharing.nextId) (ha : ∀ ext ∈ w.alive, ext ∈ H.sharing.alive)
    (hk : ∀ sc e, w.inner.subchannelsIntToExt.lookup sc = some e →
      ∃ e', H.sharing.inner.subchannelsIntToExt.lookup sc = some e' ∧ e'.state = e.state) :
    InOrder { H with sharing := w } where
  sound := hs
  firstHop sc := by
    rw [pendingInternal, hi]
    exact h.firstHop sc
  unborn sc hid := h.unborn sc (hn ▸ hid)
  kept sc e hl := by
    obtain ⟨e', hl', hst⟩ := hk sc e hl
    rw [← hst]
    exact h.kept sc e' hl'
  secondHop ext hm := by
    rw [pendingFor, hx]
    exact h.secondHop ext (ha ext hm)
  unbornExt ext hid := by
    rw [pendingFor, hx]
    exact h.unbornExt ext (hn ▸ hid)

/-! ## The steps -/

variable {H : SharingHistory A S} {ir : Inner A S}

theorem InOrder.registered (h : InOrder H) (ha : ext ∈ H.sharing.alive) :
    ext.id < H.sharing.nextId ∧ ext.delegate.id < H.sharing.nextId := by
  obtain ⟨e, hl, hin⟩ := h.sound.registered ext ha
  exact ⟨(h.sound.delegates _ e ext hl hin).2, h.sound.allocated _ (mem_iff.2 ⟨e, hl⟩)⟩

theorem InOrder.dropExt (h : InOrder H) (ext : SharedSubchannel A) :
    InOrder { H with sharing := H.sharing.dropExt ext } := by
  unfold Sharing.dropExt
  split
  · have hs (ext' : SharedSubchannel A) (hm : ext' ∈ H.sharing.alive.filter (decide <| · ≠ ext)) :
        ext' ∈ H.sharing.alive := (List.mem_filter.1 hm).1
    exact h.congr (Inner.Sound.mono h.sound hs (Nat.le_refl _)) (fun _ => rfl) (fun _ => rfl) rfl hs
      fun sc e hl => ⟨e, hl, rfl⟩
  · exact h

theorem InOrder.dropped (h : InOrder H) (ext : SharedSubchannel A) :
    InOrder { H with sharing := H.sharing.dropped ext } := by
  unfold Sharing.dropped
  split
  · refine h.congr h.sound (fun sc => ?_) (fun ext' => ?_) rfl (fun _ => id) fun sc e hl => ⟨e, hl, rfl⟩
    · simp [pendingInternal, SharingWork.internalUpdate?]
    · simp [pendingFor, SharingWork.subchannelUpdate?]
  · exact h

theorem InOrder.internalUpdate (h : InOrder H) (sc : Subchannel A) (s : SubchannelState) : InOrder { H with
      sharing := H.sharing.internalUpdate sc s
      reported :=
        if sc.id < H.sharing.nextId then Function.update H.reported sc (H.reported sc ++ [s]) else H.reported } := by
  unfold Sharing.internalUpdate
  split
  · rename_i hid
    have hx (ext : SharedSubchannel A) : (H.sharing.queue ++ [SharingWork.internalUpdate sc s]).filterMap
        (SharingWork.subchannelUpdate? ext) = H.pendingFor ext := by
      simp [pendingFor, SharingWork.subchannelUpdate?]
    refine ⟨h.sound, fun sc' => ?_, fun sc' hid' => ?_, h.kept, fun ext ha => ?_, fun ext hid' => ?_⟩
    · by_cases heq : sc' = sc
      · subst heq
        simp [pendingInternal, SharingWork.internalUpdate?, h.firstHop]
      · simp [pendingInternal, SharingWork.internalUpdate?, h.firstHop, heq, Ne.symm heq]
    · have hne : sc' ≠ sc := by
        rintro rfl
        exact absurd hid (Nat.not_lt.2 hid')
      simpa [hne] using h.unborn sc' hid'
    · rw [pendingFor, hx]
      exact h.secondHop ext ha
    · rw [pendingFor, hx]
      exact h.unbornExt ext hid'
  · exact h

theorem drop_processed {a : SubchannelState} {l : List SubchannelState} (h : (a :: l).getLast? = some state) :
    (a :: l).drop l.length = [state] := by
  obtain ⟨ys, hys⟩ := List.getLast?_eq_some_iff.1 h
  have hl : ys.length = l.length := by simpa using (congrArg List.length hys).symm
  rw [hys]
  exact drop_left' hl

theorem InOrder.newSubchannel (h : InOrder H) {a : Address A} {w : S} {returned : SubchannelState}
    (hc : Inner.Created H.sharing.inner a w (⟨H.sharing.nextId, a⟩, state) (H.sharing.nextId + 1) ir ext returned) :
    InOrder { H with
      sharing := ⟨ir, H.sharing.queue, ext :: H.sharing.alive, H.sharing.dropping, H.sharing.nextId + 2⟩
      initial := Function.update H.initial ⟨H.sharing.nextId, a⟩ state
      created := Function.update H.created ext (some (returned, (H.processed ext.delegate).length)) } := by
  have hol (sc : Subchannel A) (hid : sc.id < H.sharing.nextId) :
      Function.update H.initial ⟨H.sharing.nextId, a⟩ state sc = H.initial sc := by
    apply Function.update_of_ne
    rintro rfl
    exact absurd hid (Nat.lt_irrefl _)
  have hk (sc : Subchannel A) (e : InternalSubchannelEntry A S)
      (hl : H.sharing.inner.subchannelsIntToExt.lookup sc = some e) :
      (Function.update H.initial ⟨H.sharing.nextId, a⟩ state sc :: H.processed sc).getLast? = some e.state := by
    rw [hol sc (h.sound.allocated sc (mem_iff.2 ⟨e, hl⟩))]
    exact h.kept sc e hl
  have hn : (Function.update H.initial ⟨H.sharing.nextId, a⟩ state ext.delegate ::
      H.processed ext.delegate).getLast? = some returned := by
    cases hl : H.sharing.inner.subchannelsByAddress.lookup a with
    | some sc =>
      obtain ⟨e, he⟩ := mem_iff.1 ((h.sound.correspond a sc).1 hl).1
      obtain ⟨hd, hst, -⟩ := hc.shared sc e hl he
      rw [hd, hst]
      exact hk sc e he
    | none =>
      obtain ⟨hd, hst, -⟩ := hc.fresh hl
      have hnl : H.processed ext.delegate = [] := by
        have hr := h.unborn ext.delegate (by rw [hd])
        rw [h.firstHop] at hr
        exact (List.append_eq_nil_iff.1 hr).1
      rw [hnl, hd, hst, Function.update_self]
      rfl
  refine ⟨Inner.sound_newSubchannel h.sound hc, h.firstHop, fun sc hid => ?_, fun sc e hl => ?_,
    fun ext' ha => ?_, fun ext' hid => ?_⟩
  · exact h.unborn sc (Nat.le_of_add_right_le hid)
  · dsimp only at hl
    rw [hc.intToExt h.sound] at hl
    rcases lookup_insert_eq_some.1 hl with ⟨rfl, rfl⟩ | ⟨-, hl⟩
    · exact hn
    · exact hk sc e hl
  · rcases List.mem_cons.1 ha with rfl | ha
    · obtain ⟨ho, hp⟩ := h.unbornExt ext' (by rw [hc.id]; omega)
      refine ⟨returned, (H.processed ext'.delegate).length, Function.update_self .., ?_⟩
      show _ = returned :: (H.observed ext' ++ H.pendingFor ext')
      rw [ho, hp]
      exact drop_processed hn
    · obtain ⟨hid, hdd⟩ := h.registered ha
      have hne : ext' ≠ ext := by
        rintro rfl
        rw [hc.id] at hid
        omega
      obtain ⟨state', n, hcr, hdr⟩ := h.secondHop ext' ha
      refine ⟨state', n, (Function.update_of_ne hne _ _).trans hcr, ?_⟩
      dsimp only
      rw [hol _ hdd]
      exact hdr
  · exact h.unbornExt ext' (Nat.le_of_add_right_le hid)

theorem deliver_once {a : List (SharedSubchannel A)} {n : Nat} (h : ir.Sound a n) (o : IterOrder)
    (sc : Subchannel A) (s : SubchannelState) (ha : ext ∈ a ∨ n ≤ ext.id) :
    (ir.deliverSubchannelUpdate o (fun ext => decide (ext ∈ a)) sc s).2.filterMap
      (SharingWork.subchannelUpdate? ext) = if ext ∈ a ∧ ext.delegate = sc then [s] else [] := by
  unfold Inner.deliverSubchannelUpdate
  cases he : ir.subchannelsIntToExt.lookup sc with
  | none =>
    rw [if_neg]
    · rfl
    · rintro ⟨ha, rfl⟩
      obtain ⟨en, hl, -⟩ := h.registered ext ha
      cases he.symm.trans hl
  | some en =>
    have hk : ∀ e : Sigma fun _ : SharedSubchannel A => S, ((if decide (e.1 ∈ a) = true then
          some (SharingWork.subchannelUpdate e.2 e.1 s) else none).bind (SharingWork.subchannelUpdate? ext)) =
          if e.1 = ext then (if ext ∈ a then some s else none) else none := by
      intro e
      by_cases heq : e.1 = ext
      · by_cases hm : ext ∈ a <;> simp [heq, hm, SharingWork.subchannelUpdate?]
      · by_cases hm : e.1 ∈ a <;> simp [heq, hm, SharingWork.subchannelUpdate?]
    rw [filterMap_filterMap, funext hk,
      filterMap_entries o en.extSubchannels ext fun _ => if ext ∈ a then some s else none]
    by_cases hin : ext ∈ en.extSubchannels
    · obtain ⟨ws, hws⟩ := mem_iff.1 hin
      obtain ⟨hd, hid⟩ := h.delegates sc en ext he hin
      have ha := ha.resolve_right (Nat.not_le.2 hid)
      simp [hws, ha, hd]
    · have hno : ¬ (ext ∈ a ∧ ext.delegate = sc) := by
        rintro ⟨ha, rfl⟩
        obtain ⟨en', hl, hin'⟩ := h.registered ext ha
        cases he.symm.trans hl
        exact hin hin'
      rw [AList.lookup_eq_none.2 hin, if_neg hno]
      rfl

theorem deliver_internalUpdate (ir : Inner A S) (o : IterOrder) (l : SharedSubchannel A → Bool)
    (sc sc' : Subchannel A) (s : SubchannelState) :
    (ir.deliverSubchannelUpdate o l sc s).2.filterMap (SharingWork.internalUpdate? sc') = [] := by
  unfold Inner.deliverSubchannelUpdate
  cases ir.subchannelsIntToExt.lookup sc with
  | none => rfl
  | some en =>
    rw [filterMap_eq_nil_iff]
    intro w hw
    obtain ⟨e, -, he⟩ := List.mem_filterMap.1 hw
    split at he
    · cases he
      rfl
    · cases he

section
variable (h : InOrder H) {sc : Subchannel A}
include h

theorem InOrder.deliver (hq : H.sharing.queue = .internalUpdate sc state :: q) (o : IterOrder) :
    InOrder (H.work o) := by
  have hs := Sharing.sound_work h.sound o
  have hi (sc' : Subchannel A) : H.pendingInternal sc' =
      (if sc = sc' then [state] else []) ++ q.filterMap (SharingWork.internalUpdate? sc') := by
    by_cases heq : sc = sc' <;> simp [pendingInternal, hq, SharingWork.internalUpdate?, heq]
  have hx (ext : SharedSubchannel A) : H.pendingFor ext = q.filterMap (SharingWork.subchannelUpdate? ext) := by
    rw [pendingFor, hq, filterMap_cons_none rfl]
  simp only [work, Sharing.work, hq] at hs ⊢
  refine ⟨hs, fun sc' => ?_, h.unborn, fun sc' e hl => ?_, fun ext ha => ?_, fun ext hid => ?_⟩
  · simp only [pendingInternal, filterMap_append, deliver_internalUpdate, append_nil]
    rw [h.firstHop sc', hi]
    by_cases heq : sc = sc'
    · subst heq
      simp
    · simp [heq, Ne.symm heq]
  · dsimp only at hl ⊢
    unfold Inner.deliverSubchannelUpdate at hl
    cases he : H.sharing.inner.subchannelsIntToExt.lookup sc with
    | none =>
      simp only [he] at hl
      rw [Function.update_of_ne]
      · exact h.kept sc' e hl
      · rintro rfl
        cases he.symm.trans hl
    | some e' =>
      simp only [he] at hl
      rcases lookup_insert_eq_some.1 hl with ⟨rfl, rfl⟩ | ⟨hne, hl⟩
      · rw [Function.update_self, ← cons_append, getLast?_concat]
      · rw [Function.update_of_ne hne]
        exact h.kept sc' e hl
  · obtain ⟨state', n, hcr, hd⟩ := h.secondHop ext ha
    refine ⟨state', n, hcr, ?_⟩
    dsimp only [pendingFor]
    rw [filterMap_append, deliver_once h.sound o sc state (.inl ha), ← hx]
    by_cases heq : ext.delegate = sc
    · -- The handle has been created before: the update is behind the ones it has seen.
      have hn : n ≤ (H.initial ext.delegate :: H.processed ext.delegate).length := by
        have := congrArg List.length hd
        simp only [length_drop, length_cons] at this ⊢
        omega
      rw [if_pos ⟨ha, heq⟩, ← heq, Function.update_self, ← cons_append, drop_append_of_le_length hn, hd]
      simp
    · rw [if_neg (fun hh => heq hh.2), Function.update_of_ne heq, append_nil]
      exact hd
  · obtain ⟨ho, hp⟩ := h.unbornExt ext hid
    refine ⟨ho, ?_⟩
    dsimp only [pendingFor]
    rw [filterMap_append, deliver_once h.sound o sc state (.inr hid), ← hx, hp, if_neg]
    · rfl
    · rintro ⟨ha, -⟩
      exact Nat.not_lt.2 hid (h.registered ha).1

theorem InOrder.observe {w : S} (hq : H.sharing.queue = .subchannelUpdate w ext state :: q) (o : IterOrder) :
    InOrder (H.work o) := by
  have hs := Sharing.sound_work h.sound o
  have hi (sc : Subchannel A) : H.pendingInternal sc = q.filterMap (SharingWork.internalUpdate? sc) := by
    rw [pendingInternal, hq, filterMap_cons_none rfl]
  have hx (ext' : SharedSubchannel A) : H.observed ext' ++ H.pendingFor ext' =
      Function.update H.observed ext (H.observed ext ++ [state]) ext' ++
        q.filterMap (SharingWork.subchannelUpdate? ext') := by
    by_cases heq : ext' = ext
    · subst heq
      simp [pendingFor, hq, SharingWork.subchannelUpdate?]
    · simp [pendingFor, hq, SharingWork.subchannelUpdate?, heq, Ne.symm heq]
  simp only [work, Sharing.work, hq] at hs ⊢
  refine ⟨hs, fun sc => ?_, h.unborn, h.kept, fun ext' ha => ?_, fun ext' hid => ?_⟩
  · rw [pendingInternal, ← hi]
    exact h.firstHop sc
  · obtain ⟨state', n, hcr, hd⟩ := h.secondHop ext' ha
    rw [hx] at hd
    exact ⟨state', n, hcr, hd⟩
  · obtain ⟨ho, hp⟩ := h.unbornExt ext' hid
    have hap := hx ext'
    rw [ho, hp] at hap
    exact List.append_eq_nil_iff.1 hap.symm

theorem InOrder.released (hq : H.sharing.queue = .released sc :: q) (o : IterOrder) : InOrder (H.work o) := by
  have hs := Sharing.sound_work h.sound o
  simp only [work, Sharing.work, hq] at hs ⊢
  refine h.congr hs (fun sc' => ?_) (fun ext => ?_) rfl (fun _ => id) fun sc' entry hl => ?_
  · rw [pendingInternal, hq, filterMap_cons_none rfl]
  · rw [pendingFor, hq, filterMap_cons_none rfl]
  · dsimp only at hl
    rcases H.sharing.inner.release_cases (fun ext => decide (ext ∈ H.sharing.alive)) sc with
      ⟨-, hr⟩ | ⟨entry', he, ⟨-, hr⟩ | hr⟩
    · rw [hr] at hl
      exact ⟨entry, hl, rfl⟩
    · rw [hr] at hl
      exact ⟨entry, (lookup_erase_eq_some.1 hl).2, rfl⟩
    · rw [hr] at hl
      rcases lookup_insert_eq_some.1 hl with ⟨rfl, rfl⟩ | ⟨-, hl⟩
      · exact ⟨entry', he, rfl⟩
      · exact ⟨entry, hl, rfl⟩

theorem InOrder.work (o : IterOrder) : InOrder (H.work o) := by
  cases hq : H.sharing.queue with
  | nil =>
    have hw : H.work o = H := by simp only [SharingHistory.work, Sharing.work, hq]
    rw [hw]
    exact h
  | cons work q =>
    cases work with
    | internalUpdate sc s => exact h.deliver hq o
    | released sc => exact h.released hq o
    | subchannelUpdate w ext s => exact h.observe hq o

theorem InOrder.step {H' : SharingHistory A S} {e : SharingEvent A S} (hok : H.step e = .ok H') : InOrder H' := by
  cases e with
  | newSubchannel a w s =>
    obtain ⟨ir, ext, r, hok', hc⟩ := Sharing.newSubchannel_ok h.sound a w s
    simp only [SharingHistory.step, hok'] at hok
    cases hok
    exact h.newSubchannel hc
  | internalUpdate sc s =>
    cases hok
    exact h.internalUpdate sc s
  | dropExt ext =>
    cases hok
    exact h.dropExt ext
  | dropped ext =>
    cases hok
    exact h.dropped ext
  | work o =>
    cases hok
    exact h.work o

theorem step_sharing (e : SharingEvent A S) : ∃ H', H.step e = .ok H' ∧ H.sharing.step e = .ok H'.sharing := by
  cases e with
  | newSubchannel a w s =>
    obtain ⟨ir, ext, r, hok, -⟩ := Sharing.newSubchannel_ok h.sound a w s
    exact ⟨_, by simp only [SharingHistory.step, hok]; rfl, by simp only [Sharing.step, hok]; rfl⟩
  | internalUpdate sc s => exact ⟨_, rfl, rfl⟩
  | dropExt ext => exact ⟨_, rfl, rfl⟩
  | dropped ext => exact ⟨_, rfl, rfl⟩
  | work o =>
    refine ⟨_, rfl, ?_⟩
    unfold SharingHistory.work
    dsimp only [Sharing.step]
    split <;> rfl

end

theorem Reachable.inOrder (h : Reachable H) : InOrder H := by
  induction h with
  | init => exact inOrder_init
  | step e _ hok ih => exact ih.step hok

end SharingHistory

theorem Sharing.Reachable.history {w : Sharing A S} (h : w.Reachable) :
    ∃ H : SharingHistory A S, H.Reachable ∧ H.sharing = w := by
  induction h with
  | init => exact ⟨.init, .init, rfl⟩
  | step e _ hok ih =>
    obtain ⟨H, hr, rfl⟩ := ih
    obtain ⟨H', hs, hw⟩ := SharingHistory.step_sharing hr.inOrder e
    cases hok.symm.trans hw
    exact ⟨H', hr.step e hs, rfl⟩

/-- What an external subchannel observes, with what is on the way, is what its internal one reported since its
creation. -/
theorem shared_updates_in_order {H : SharingHistory A S} (h : H.Reachable) {ext : SharedSubchannel A}
    (ha : ext ∈ H.sharing.alive) :
    ∃ s n, H.created ext = some (s, n) ∧
      (H.initial ext.delegate :: H.processed ext.delegate).drop n = s :: (H.observed ext ++ H.pendingFor ext) ∧
      H.reported ext.delegate = H.processed ext.delegate ++ H.pendingInternal ext.delegate := by
  obtain ⟨s, n, hcr, hd⟩ := h.inOrder.secondHop ext ha
  exact ⟨s, n, hcr, hd, h.inOrder.firstHop ext.delegate⟩

end

/-- The second is created while an update waits for the table, the third when it waits for the other two. -/
theorem shared_updates_in_order_three :
    let sc : Subchannel Unit := ⟨0, "tcp", "a", ()⟩
    ∃ H : SharingHistory Unit Unit, H.Reachable ∧ H.observed ⟨3, sc⟩ = [.connecting] ∧
      (∃ s n, H.created ⟨3, sc⟩ = some (s, n) ∧
        (H.initial sc :: H.processed sc).drop n = s :: (H.observed ⟨3, sc⟩ ++ H.pendingFor ⟨3, sc⟩) ∧
        H.reported sc = H.processed sc ++ H.pendingInternal sc) ∧
      H.pendingFor ⟨1, sc⟩ = [.connecting] ∧ H.created ⟨5, sc⟩ = some (.connecting, 1) := by
  intro sc
  have h : (SharingHistory.init : SharingHistory Unit Unit).Reachable := .init
  have h := h.step (.newSubchannel sc.address () .idle) rfl
  have h := h.step (.internalUpdate sc .connecting) rfl
  have h := h.step (.newSubchannel sc.address () .idle) rfl
  have h := h.step (.work .default) rfl
  have h := h.step (.newSubchannel sc.address () .idle) rfl
  have h := h.step (.work .default) rfl
  exact ⟨_, h, rfl, shared_updates_in_order h (.tail _ (.head _)), rfl, rfl⟩

end LoadBalancing
