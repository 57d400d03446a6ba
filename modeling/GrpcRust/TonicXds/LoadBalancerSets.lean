import GrpcRust.TonicXds.LoadBalancer
/-!
# Where the endpoints of a balancer are

An endpoint is connecting, ready, ejected, or for a moment in the hands of `poll_ready`. The channel of a place is the
one registered for its endpoint.
-/

namespace TonicXds

open Lib KeyedFutures

inductive Place
  | connecting
  | ready (outlier : Nat)
  | ejected (channel : EjectedChannel)
  | hand (outlier : Nat)

def Place.outlier : Place → Option Nat
  | connecting => none
  | ready outlier => some outlier
  | ejected channel => some channel.outlier
  | hand outlier => some outlier

section Placed
variable {K : Type} [DecidableEq K]

structure Placed (position : K → Place → Prop) (members : Finset K) : Prop where
  unique : ∀ addr p q, position addr p → position addr q → p = q
  known : ∀ addr, addr ∈ members ↔ ∃ p, position addr p

variable {ps ps' : K → Place → Prop} {members : Finset K} {addr : K}

section
variable (h : Placed ps members)
include h

theorem Placed.put (q : Place) (hpt : ∀ k p, ps' k p ↔ if k = addr then p = q else ps k p) :
    Placed ps' (insert addr members) where
  unique k p p' hp hp' := by
    rw [hpt] at hp hp'
    split at hp
    · rw [hp]
      rename_i hk
      rw [if_pos hk] at hp'
      exact hp'.symm
    · rename_i hk
      rw [if_neg hk] at hp'
      exact h.unique k p p' hp hp'
  known k := by
    rw [Finset.mem_insert]
    by_cases hk : k = addr
    · simp [hk, hpt]
    · simp [hk, hpt, h.known k]

theorem Placed.moved (hmem : addr ∈ members) (q : Place) (hp : ∀ k p, ps' k p ↔ if k = addr then p = q else ps k p) :
    Placed ps' members :=
  Finset.insert_eq_of_mem hmem ▸ h.put q hp

theorem Placed.taken (ht : ∀ k p, ps' k p ↔ k ≠ addr ∧ ps k p) : Placed ps' (members.erase addr) where
  unique k p p' hp hp' := h.unique k p p' ((ht k p).1 hp).2 ((ht k p').1 hp').2
  known k := by
    rw [Finset.mem_erase, h.known k]
    simp [ht]

omit [DecidableEq K] in
theorem Placed.same (hsame : ∀ k p, ps' k p ↔ ps k p) : Placed ps' members where
  unique k p p' hp hp' := h.unique k p p' ((hsame k p).1 hp) ((hsame k p').1 hp')
  known k := by
    rw [h.known k]
    simp [hsame]

end

end Placed

namespace LoadBalancer
variable {K : Type} [DecidableEq K]

def At (lb : LoadBalancer K) (addr : K) : Place → Prop
  | .connecting => lb.connecting.Tracks addr ()
  | .ready outlier => lb.ready.lookup addr = some outlier
  | .ejected channel => lb.ejected.Tracks addr channel
  | .hand outlier => lb.phase.inHand = some (addr, outlier)

theorem not_at_new (a : K) (p : Place) : ¬ (new : LoadBalancer K).At a p := by
  cases p with
  | connecting | ejected => exact not_tracks_new
  | ready => simp [At, new]
  | hand => exact nofun

/-! ## Taking and putting -/

section Moves
variable {lb lb' : LoadBalancer K} {addr k : K} {p : Place} {members : Finset K} {phase : LbPhase K}

structure Free (lb : LoadBalancer K) (addr : K) : Prop where
  connecting : ¬ lb.connecting.Tracks addr ()
  ready : lb.ready.lookup addr = none
  ejected : ∀ channel, ¬ lb.ejected.Tracks addr channel
  hand : ∀ k outlier, lb.phase.inHand = some (k, outlier) → k = addr

theorem free_of_hand (h : Placed lb.At members) {outlier : Nat} (hh : lb.phase.inHand = some (addr, outlier)) :
    lb.Free addr := by
  have ho {p : Place} (hp : lb.At addr p) : p = .hand outlier := h.unique addr p (.hand outlier) hp hh
  refine ⟨fun hp => ?_, ?_, fun c hp => ?_, fun k o hk => ?_⟩
  · cases ho (p := .connecting) hp
  · cases hr : lb.ready.lookup addr with
    | none => rfl
    | some o => cases ho (p := .ready o) hr
  · cases ho (p := .ejected c) hp
  · rw [hh] at hk
    cases hk
    rfl

theorem free_of_taken (hnone : lb'.phase.inHand = none) (h : ∀ k p, lb'.At k p ↔ k ≠ addr ∧ lb.At k p) :
    lb'.Free addr := by
  have hn (p : Place) : ¬ lb'.At addr p := fun hp => ((h addr p).1 hp).1 rfl
  refine ⟨hn .connecting, ?_, fun c => hn (.ejected c), fun k o hk => ?_⟩
  · exact Option.eq_none_iff_forall_ne_some.2 fun o => hn (.ready o)
  · rw [hnone] at hk
    cases hk

theorem put_of_taken {lb'' : LoadBalancer K} {q : Place} (ht : ∀ k p, lb'.At k p ↔ k ≠ addr ∧ lb.At k p)
    (hp : ∀ k p, lb''.At k p ↔ if k = addr then p = q else lb'.At k p) (k : K) (p : Place) :
    lb''.At k p ↔ if k = addr then p = q else lb.At k p := by
  rw [hp]
  split
  · exact Iff.rfl
  · rename_i hk
    rw [ht]
    simp [hk]

section
variable (h : lb.Free addr)
include h

theorem Free.not_hand (hk : k ≠ addr) (o : Nat) : ¬ lb.At k (.hand o) := fun hh => hk (h.hand k o hh)

theorem at_putReady (hp : phase.inHand = none) (ot : Nat) :
    At { lb with ready := lb.ready.insert addr ot, phase := phase } k p ↔
      if k = addr then p = .ready ot else lb.At k p := by
  by_cases hk : k = addr
  · subst hk
    cases p <;> simp [At, h.connecting, h.ejected, hp, eq_comm]
  · cases p with
    | hand o => simpa [At, hk, hp] using h.not_hand hk o
    | connecting | ready | ejected => simp [At, hk]

theorem at_putEjected (hp : phase.inHand = none) (channel : EjectedChannel) :
    At { lb with ejected := lb.ejected.including addr channel, phase := phase } k p ↔
      if k = addr then p = .ejected channel else lb.At k p := by
  have ht (k : K) (c : EjectedChannel) :
      (lb.ejected.including addr channel).Tracks k c ↔ lb.ejected.Tracks k c ∨ k = addr ∧ c = channel :=
    tracks_including fun ⟨c, hc⟩ => h.ejected c hc
  by_cases hk : k = addr
  · subst hk
    cases p <;> simp [At, h.connecting, h.ready, h.ejected, ht, hp]
  · cases p with
    | hand o => simpa [At, hk, hp] using h.not_hand hk o
    | connecting | ready | ejected => simp [At, hk, ht]

theorem at_putConnecting (hp : lb.phase.inHand = none) :
    At { lb with connecting := lb.connecting.including addr () } k p ↔
      if k = addr then p = .connecting else lb.At k p := by
  have ht (k : K) : (lb.connecting.including addr ()).Tracks k () ↔ lb.connecting.Tracks k () ∨ k = addr ∧ () = () :=
    tracks_including fun ⟨_, hc⟩ => h.connecting hc
  by_cases hk : k = addr
  · subst hk
    cases p <;> simp [At, h.ready, h.ejected, ht, hp]
  · cases p <;> simp [At, hk, ht]

theorem at_putHand {ot : Nat} (hp : phase.inHand = some (addr, ot)) :
    At { lb with phase := phase } k p ↔ if k = addr then p = .hand ot else lb.At k p := by
  by_cases hk : k = addr
  · subst hk
    cases p <;> simp [At, h.connecting, h.ready, h.ejected, hp, eq_comm]
  · cases p with
    | hand o => simpa [At, hk, hp, Ne.symm hk] using h.not_hand hk o
    | connecting | ready | ejected => simp [At, hk]

end

section
variable (h : Placed lb.At members)
include h

theorem at_taken {q : Place} (hq : lb.At addr q) (hg : ¬ lb'.At addr q) (hs : ∀ p, lb'.At addr p → lb.At addr p)
    (ho : k ≠ addr → (lb'.At k p ↔ lb.At k p)) : lb'.At k p ↔ k ≠ addr ∧ lb.At k p := by
  by_cases hk : k = addr
  · subst hk
    refine iff_of_false (fun hp => hg ?_) fun hp => hp.1 rfl
    rwa [h.unique k p q (hs p hp) hq] at hp
  · rw [ho hk, and_iff_right hk]

theorem at_takeReady {o : Nat} (hr : lb.ready.lookup addr = some o) :
    At { lb with ready := lb.ready.erase addr } k p ↔ k ≠ addr ∧ lb.At k p := by
  refine at_taken h (q := .ready o) hr (by simp [At]) (fun p => ?_) fun hk => ?_
  · cases p <;> simp [At]
  · cases p <;> simp [At, hk]

theorem at_takeEjected {t : Nat} {f : KeyedFuture K EjectedChannel} {ejected : KeyedFutures K EjectedChannel}
    (hc : lb.ejected.complete t = some (f, ejected)) :
    At { lb with ejected := ejected } k p ↔ k ≠ f.key ∧ lb.At k p := by
  obtain ⟨htr, ht⟩ := tracks_complete hc
  refine at_taken h (q := .ejected f.payload) htr (by simp [At, ht]) (fun p => ?_) fun hk => ?_
  · cases p <;> simp [At, ht]
  · cases p <;> simp [At, hk, ht]

theorem at_takeConnecting {t : Nat} {f : KeyedFuture K Unit} {connecting : KeyedFutures K Unit}
    (hc : lb.connecting.complete t = some (f, connecting)) :
    At { lb with connecting := connecting } k p ↔ k ≠ f.key ∧ lb.At k p := by
  obtain ⟨htr, ht⟩ := tracks_complete hc
  refine at_taken h (q := .connecting) htr (by simp [At, ht]) (fun p => ?_) fun hk => ?_
  · cases p <;> simp [At, ht]
  · cases p <;> simp [At, hk, ht]

end

theorem at_forget (hp : lb.phase.inHand = none) (a : K) : (lb.forget a).At k p ↔ k ≠ a ∧ lb.At k p := by
  by_cases hk : k = a
  · subst hk
    cases p <;> simp [At, forget, tracks_without, hp]
  · cases p <;> simp [At, forget, tracks_without, hk]

theorem at_setPhase (hp : phase.inHand = lb.phase.inHand) : At { lb with phase := phase } k p ↔ lb.At k p := by
  cases p <;> simp [At, hp]

end Moves

end LoadBalancer

namespace Balancing
variable {K : Type} [DecidableEq K]

open LoadBalancer (not_at_new Free free_of_hand free_of_taken put_of_taken at_putReady at_putEjected at_putConnecting
  at_putHand at_takeReady at_takeEjected at_takeConnecting at_forget at_setPhase)

/-- Members are placed once, their channels are registered, and the ejected ones are counted. -/
structure Inv (s : Balancing K) : Prop where
  placed : Placed s.lb.At s.lb.members
  registered : ∀ addr p outlier, s.lb.At addr p → p.outlier = some outlier →
    s.registry.channels.lookup addr = some outlier
  counted : s.registry.Counted
  given : s.lb.phase ≠ .discovering true → s.lb.given = s.lb.members
  members : s.lb.members = s.lb.changes.foldl Change.apply ∅

theorem inv_new : (new : Balancing K).Inv where
  placed :=
    { unique := fun a p _ hp _ => absurd hp (not_at_new a p)
      known := fun a => iff_of_false (Finset.notMem_empty _) fun ⟨p, hp⟩ => not_at_new a p hp }
  registered a p _ hp := absurd hp (not_at_new a p)
  counted := OutlierStatsRegistry.counted_new
  given _ := rfl
  members := rfl

section Steps
variable {s s' : Balancing K} {addr : K} {t : Nat} {membersChanged : Bool}

structure Keeps (s s' : Balancing K) : Prop where
  members : s'.lb.members = s.lb.members
  changes : s'.lb.changes = s.lb.changes
  given : s'.lb.phase ≠ .discovering true → s'.lb.given = s.lb.members

section
variable (h : s.Inv)
  {ejected : KeyedFutures K EjectedChannel} {connecting : KeyedFutures K Unit} {d : Discovered} {o : Nat}
include h

theorem Inv.same (hk : s.Keeps s') (hat : ∀ k p, s'.lb.At k p ↔ s.lb.At k p)
    (hc : s'.registry.channels = s.registry.channels) (hcn : s'.registry.Counted) : s'.Inv where
  placed := hk.members ▸ h.placed.same hat
  registered k p o hp ho := by
    rw [hc]
    exact h.registered k p o ((hat k p).1 hp) ho
  counted := hcn
  given hph := by rw [hk.members, hk.given hph]
  members := by rw [hk.members, hk.changes, h.members]

theorem Inv.moved (hkp : s.Keeps s') (hmem : addr ∈ s.lb.members) (q : Place)
    (hat : ∀ k p, s'.lb.At k p ↔ if k = addr then p = q else s.lb.At k p)
    (hq : ∀ ot, q.outlier = some ot → s'.registry.channels.lookup addr = some ot)
    (hc : ∀ k, k ≠ addr → s'.registry.channels.lookup k = s.registry.channels.lookup k) (hcn : s'.registry.Counted) :
    s'.Inv where
  placed := hkp.members ▸ h.placed.moved hmem q hat
  registered k p o hp ho := by
    rw [hat] at hp
    split at hp
    · rename_i hk
      subst hk hp
      exact hq o ho
    · rename_i hk
      rw [hc k hk]
      exact h.registered k p o hp ho
  counted := hcn
  given hph := by rw [hkp.members, hkp.given hph]
  members := by rw [hkp.members, hkp.changes, h.members]

theorem Inv.carried (hk : s.Keeps s') (hmem : addr ∈ s.lb.members) (q : Place)
    (hat : ∀ k p, s'.lb.At k p ↔ if k = addr then p = q else s.lb.At k p)
    (hq : q.outlier = none ∨ s.registry.channels.lookup addr = q.outlier)
    (hc : s'.registry.channels = s.registry.channels) (hcn : s'.registry.Counted) : s'.Inv := by
  refine h.moved hk hmem q hat (fun o ho => ?_) (fun k _ => by rw [hc]) hcn
  rw [hc]
  rcases hq with hq | hq
  · cases hq.symm.trans ho
  · exact hq.trans ho

theorem Inv.inHand (hh : s.lb.phase.inHand = some (addr, o)) :
    s.lb.Free addr ∧ addr ∈ s.lb.members ∧ s.registry.channels.lookup addr = some o ∧ s.lb.given = s.lb.members := by
  refine ⟨free_of_hand h.placed hh, (h.placed.known addr).2 ⟨.hand o, hh⟩,
    h.registered addr (.hand o) o hh rfl, h.given fun heq => ?_⟩
  rw [heq] at hh
  cases hh

variable (c : OutlierDetectionConfig)

theorem Inv.place (hp : s.lb.phase = .placing d addr o) : (s.place c d addr o).Inv := by
  have hh : s.lb.phase.inHand = some (addr, o) := by rw [hp]; rfl
  obtain ⟨hf, hmem, hl, hg⟩ := h.inHand hh
  unfold Balancing.place
  split
  · exact h.carried ⟨rfl, rfl, fun _ => hg⟩ hmem (.ready o) (fun k p => at_putReady hf rfl o)
      (.inr hl) rfl h.counted
  · exact h.carried ⟨rfl, rfl, fun _ => hg⟩ hmem (.hand o) (fun k p => at_putHand hf rfl)
      (.inr hl) rfl h.counted
  · exact h.carried ⟨rfl, rfl, fun _ => hg⟩ hmem (.ejected _) (fun k p => at_putEjected hf rfl _)
      (.inr hl) rfl h.counted

theorem Inv.restore (hh : s.lb.phase.inHand = some (addr, o)) {ph : LbPhase K} (hp : ph.inHand = none) :
    Inv ({ s with registry := s.registry.noteUneject o }.makeReady addr o ph) := by
  obtain ⟨hf, hmem, hl, hg⟩ := h.inHand hh
  exact h.carried ⟨rfl, rfl, fun _ => hg⟩ hmem (.ready o) (fun k p => at_putReady hf hp o)
    (.inr hl) (s.registry.channels_noteUneject o) (h.counted.noteUneject hl)

theorem Inv.uneject (hp : s.lb.phase = .unejecting d) {f : KeyedFuture K EjectedChannel}
    (hc : s.lb.ejected.complete t = some (f, ejected)) : (s.uneject d f.key f.payload ejected).Inv := by
  have ht (k : K) (p : Place) := at_takeEjected (k := k) (p := p) h.placed hc
  have hnone : s.lb.phase.inHand = none := by rw [hp]; rfl
  have hf : Free { s.lb with ejected := ejected } f.key := free_of_taken hnone ht
  have htr := (tracks_complete hc).1
  have hmem : f.key ∈ s.lb.members := (h.placed.known _).2 ⟨.ejected f.payload, htr⟩
  have hl : s.registry.channels.lookup f.key = some f.payload.outlier :=
    h.registered f.key (.ejected f.payload) _ htr rfl
  have hg : s.lb.given = s.lb.members := h.given (by rw [hp]; exact nofun)
  unfold Balancing.uneject
  dsimp only
  split
  · rw [OutlierStatsRegistry.addChannel_of_registered hl]
    exact h.carried ⟨rfl, rfl, fun _ => hg⟩ hmem .connecting
      (put_of_taken ht fun k p => at_putConnecting hf hnone) (.inl rfl)
      (s.registry.channels_noteUneject _) (h.counted.noteUneject hl)
  · exact h.carried ⟨rfl, rfl, fun _ => hg⟩ hmem (.ready f.payload.outlier)
      (put_of_taken ht fun k p => at_putReady hf rfl _) (.inr hl)
      (s.registry.channels_noteUneject _) (h.counted.noteUneject hl)

theorem Inv.connect (hp : s.lb.phase = .connecting d) {f : KeyedFuture K Unit}
    (hc : s.lb.connecting.complete t = some (f, connecting)) : Inv { s with
      registry := (s.registry.addChannel s.now f.key).2
      lb := { s.lb with
        connecting := connecting
        phase := .placing d f.key (s.registry.addChannel s.now f.key).1 } } := by
  have ht (k : K) (p : Place) := at_takeConnecting (k := k) (p := p) h.placed hc
  have hnone : s.lb.phase.inHand = none := by rw [hp]; rfl
  have hf : Free { s.lb with connecting := connecting } f.key := free_of_taken hnone ht
  have hmem : f.key ∈ s.lb.members := (h.placed.known _).2 ⟨.connecting, (tracks_complete hc).1⟩
  have hg : s.lb.given = s.lb.members := h.given (by rw [hp]; exact nofun)
  have ha := s.registry.lookup_addChannel s.now f.key
  refine h.moved ⟨rfl, rfl, fun _ => hg⟩ hmem (.hand _)
    (put_of_taken ht fun k p => at_putHand hf rfl) ?_ (fun k hk => ?_)
    (h.counted.addChannel s.now f.key)
  · rintro _ ⟨⟩
    rw [ha, if_pos rfl]
  · rw [ha, if_neg hk]

theorem Inv.request {st : Nat} {r : List K}
    (hp : s.lb.phase = .ejecting d st r) (addr : K) : (s.request c d st r addr).Inv := by
  have hnone : s.lb.phase.inHand = none := by rw [hp]; rfl
  have hg : s.lb.given = s.lb.members := h.given (by rw [hp]; exact nofun)
  unfold Balancing.request
  cases hr : s.lb.ready.lookup addr with
  | none => exact h.same ⟨rfl, rfl, fun _ => hg⟩ (fun k p => at_setPhase (by rw [hnone]; rfl)) rfl h.counted
  | some outlier =>
    have ht (k : K) (p : Place) := at_takeReady (k := k) (p := p) h.placed hr
    have hf : Free { s.lb with ready := s.lb.ready.erase addr } addr := free_of_taken hnone ht
    have hmem : addr ∈ s.lb.members := (h.placed.known _).2 ⟨.ready outlier, hr⟩
    have hl : s.registry.channels.lookup addr = some outlier := h.registered addr (.ready outlier) _ hr rfl
    dsimp only
    split
    · exact h.carried ⟨rfl, rfl, fun _ => hg⟩ hmem (.ready outlier)
        (put_of_taken ht fun k p => at_putReady hf rfl outlier) (.inr hl) rfl h.counted
    · exact h.carried ⟨rfl, rfl, fun _ => hg⟩ hmem (.hand outlier)
        (put_of_taken ht fun k p => at_putHand hf rfl) (.inr hl) rfl h.counted
    · exact h.carried ⟨rfl, rfl, fun _ => hg⟩ hmem (.ejected _)
        (put_of_taken ht fun k p => at_putEjected hf rfl _) (.inr hl) rfl h.counted

theorem Inv.apply (hph : s.lb.phase = .discovering membersChanged) {lb : LoadBalancer K} {change : Change K}
    {registry : OutlierStatsRegistry K} (hpl : Placed lb.At (change.apply s.lb.members))
    (hm : lb.members = s.lb.members) (hg : lb.given = s.lb.given) (hc : lb.changes = s.lb.changes)
    (hnone : lb.phase.inHand = none)
    (hr : ∀ k p ot, lb.At k p → p.outlier = some ot → registry.channels.lookup k = some ot) (hcn : registry.Counted) :
    Inv { s with lb := lb.apply change membersChanged, registry := registry } := by
  have hat (k : K) (p : Place) : (lb.apply change membersChanged).At k p ↔ lb.At k p := by
    cases p with
    | connecting | ready | ejected => exact Iff.rfl
    | hand o => exact iff_of_false nofun fun hh => by cases hnone.symm.trans hh
  refine ⟨?_, fun k p o hp => hr k p o ((hat k p).1 hp), hcn, fun hne => ?_, ?_⟩
  · rw [← hm] at hpl
    exact hpl.same hat
  · have hf : membersChanged = false ∧ change.apply lb.members = lb.members := by
      simp only [LoadBalancer.apply, ne_eq, LbPhase.discovering.injEq, Bool.or_eq_true, not_or] at hne
      exact ⟨by simpa using hne.1, by simpa using hne.2⟩
    have hsame := h.given (by rw [hph, hf.1]; exact nofun)
    exact hg.trans (hsame.trans (hm.symm.trans hf.2.symm))
  · simp only [LoadBalancer.apply, List.foldl_append, List.foldl_cons, List.foldl_nil, hm, hc, h.members]

theorem Inv.discover (hph : s.lb.phase = .discovering membersChanged) (change : Change K) :
    (s.discover membersChanged change).Inv := by
  have hnone (a : K) : (s.lb.forget a).phase.inHand = none := by
    rw [LoadBalancer.forget, hph]
    rfl
  have ht (a k : K) (p : Place) : (s.lb.forget a).At k p ↔ k ≠ a ∧ s.lb.At k p := at_forget (by rw [hph]; rfl) a
  cases change with
  | insert a =>
    have hf := free_of_taken (hnone a) (ht a)
    have hpt := put_of_taken (ht a) fun k p => at_putConnecting hf (hnone a)
    refine h.apply hph (h.placed.put .connecting hpt) rfl rfl rfl (hnone a) (fun k p o hp ho => ?_) h.counted
    rw [hpt] at hp
    split at hp
    · subst hp
      cases ho
    · exact h.registered k p o hp ho
  | remove a =>
    refine h.apply hph (h.placed.taken (ht a)) rfl rfl rfl (hnone a) (fun k p o hp ho => ?_)
      (h.counted.removeChannel a)
    obtain ⟨hk, hp⟩ := (ht a k p).1 hp
    rw [OutlierStatsRegistry.lookup_removeChannel, if_neg hk]
    exact h.registered k p o hp ho

theorem Inv.setPhase {phase phase' : LbPhase K} (hp : s.lb.phase = phase) (hg : phase ≠ .discovering true)
    (hnone : phase.inHand = none) (hn' : phase'.inHand = none) (polled : Option PollReady) :
    Inv { s with lb := { s.lb with phase := phase', polled := polled } } := by
  subst hp
  exact h.same ⟨rfl, rfl, fun _ => h.given hg⟩ (fun _ _ => at_setPhase (hn'.trans hnone.symm)) rfl h.counted

theorem Inv.discovered (hp : s.lb.phase = .discovering membersChanged) (r : Discovered) : Inv { s with lb := { s.lb with
      given := if membersChanged then s.lb.members else s.lb.given, phase := .unejecting r } } := by
  refine h.same ⟨rfl, rfl, fun _ => ?_⟩ (fun _ _ => at_setPhase (by rw [hp]; rfl)) rfl h.counted
  cases membersChanged with
  | true => rfl
  | false => exact h.given (by rw [hp]; exact nofun)

theorem Inv.reapEjected (hp : s.lb.phase ≠ .discovering true)
    (hr : s.lb.ejected.reap t = some ejected) : Inv { s with lb := { s.lb with ejected := ejected } } := by
  refine h.same ⟨rfl, rfl, fun _ => h.given hp⟩ (fun k p => ?_) rfl h.counted
  cases p with
  | connecting | ready | hand => exact Iff.rfl
  | ejected c => exact tracks_reap hr

theorem Inv.reapConnecting (hp : s.lb.phase ≠ .discovering true) (hr : s.lb.connecting.reap t = some connecting) :
    Inv { s with lb := { s.lb with connecting := connecting } } := by
  refine h.same ⟨rfl, rfl, fun _ => h.given hp⟩ (fun k p => ?_) rfl h.counted
  cases p with
  | connecting => exact tracks_reap hr
  | ready | ejected | hand => exact Iff.rfl

theorem Inv.lbStep {c : OutlierDetectionConfig} {ev : LbEvent K} (hs : s.lbStep c ev = some s') : s'.Inv := by
  unfold Balancing.lbStep at hs
  split at hs
  · rename_i hp
    cases hs
    exact h.setPhase hp nofun rfl rfl _
  · rename_i m change hp
    cases hs
    exact h.discover hp change
  · rename_i m r hp
    cases hs
    exact h.discovered hp r
  · rename_i d t hp
    obtain ⟨e, hr, rfl⟩ := Option.map_eq_some_iff.1 hs
    exact h.reapEjected (by rw [hp]; exact nofun) hr
  · rename_i d t hp
    split at hs
    · rename_i f e hc
      split_ifs at hs
      cases hs
      exact h.uneject hp hc
    · cases hs
  · rename_i d hp
    cases hs
    exact h.setPhase hp nofun rfl rfl _
  · rename_i d t hp
    obtain ⟨cn, hr, rfl⟩ := Option.map_eq_some_iff.1 hs
    exact h.reapConnecting (by rw [hp]; exact nofun) hr
  · rename_i d t hp
    split at hs <;> cases hs
    exact h.connect hp ‹_›
  · rename_i d hp
    cases hs
    exact h.setPhase hp nofun rfl rfl _
  · rename_i d a o hp
    cases hs
    exact h.place c hp
  · rename_i d a o l hp
    cases hs
    have hh : s.lb.phase.inHand = some (a, o) := by rw [hp]; rfl
    rcases l with _ | ⟨st, rest⟩
    · exact h.restore hh rfl
    · exact h.restore hh rfl
  · rename_i d hp
    split at hs
    · cases hs
      exact (h.setPhase hp nofun rfl rfl _).same
        ⟨rfl, rfl, fun _ => h.given (by rw [hp]; exact nofun)⟩ (fun _ _ => Iff.rfl) rfl (h.counted.of_same rfl rfl)
    · cases hs
      exact h.setPhase hp nofun rfl rfl _
  · rename_i d st rest a hp
    split_ifs at hs
    cases hs
    exact h.request c hp a
  · rename_i d st hp
    cases hs
    exact h.setPhase hp nofun rfl rfl _
  · rename_i d hp
    cases hs
    exact h.setPhase hp nofun rfl rfl _
  · cases hs

theorem Inv.step {cn : OutlierDetectionConfig} {t : SuccessRateTest} {e : BalancingEvent K}
    (hs : s.step cn t e = some s') : s'.Inv := by
  cases e with
  | advance time =>
    cases hs
    exact ⟨h.placed, h.registered, h.counted, h.given, h.members⟩
  | sweep e =>
    obtain ⟨⟨r, sweep⟩, hsw, rfl⟩ := Option.map_eq_some_iff.1 hs
    obtain ⟨hcn, hc⟩ := (Sweep.stepped hsw).counted h.counted
    refine ⟨h.placed, fun k p o hp ho => ?_, hcn, h.given, h.members⟩
    exact (congrArg (AList.lookup k) hc).trans (h.registered k p o hp ho)
  | lb e => exact h.lbStep hs
  | call a =>
    simp only [Balancing.step] at hs
    split at hs <;> cases hs
    exact ⟨h.placed, h.registered, h.counted, h.given, h.members⟩
  | outcome i sc =>
    simp only [Balancing.step] at hs
    split at hs <;> cases hs
    refine ⟨h.placed, h.registered, h.counted.sameMarks (s.registry.sameMarks_modify _ ?_ ?_), h.given, h.members⟩
    · exact fun c => c.addr_recordOutcome sc
    · exact fun c => c.isEjected_recordOutcome sc

end

end Steps

theorem inv_of_reached {c : OutlierDetectionConfig} {t : SuccessRateTest} {s : Balancing K}
    (h : (balancing K c t).Reached s) : s.Inv :=
  h.inv (P := Inv) inv_new fun _ _ _ hs _ hst => hs.step hst

end Balancing

namespace LoadBalancer
variable {K : Type} [DecidableEq K] {lb : LoadBalancer K} {addr : K}

def IsConnecting (lb : LoadBalancer K) (addr : K) : Prop := lb.connecting.containsKey addr = true

def IsReady (lb : LoadBalancer K) (addr : K) : Prop := addr ∈ lb.ready

def IsEjected (lb : LoadBalancer K) (addr : K) : Prop := lb.ejected.containsKey addr = true

theorem isConnecting_iff : lb.IsConnecting addr ↔ lb.At addr .connecting := by
  rw [IsConnecting, containsKey_iff]
  exact ⟨fun ⟨_, h⟩ => h, fun h => ⟨(), h⟩⟩

theorem isReady_iff : lb.IsReady addr ↔ ∃ o, lb.At addr (.ready o) := HashMap.mem_iff

theorem isEjected_iff : lb.IsEjected addr ↔ ∃ c, lb.At addr (.ejected c) := containsKey_iff

end LoadBalancer

section Results
variable {K : Type} [DecidableEq K] {config : OutlierDetectionConfig} {test : SuccessRateTest} {s : Balancing K}

/-- Between two polls the members are the endpoints discovery has, each in exactly one of the three collections. -/
theorem endpoints_partitioned (h : (balancing K config test).Reached s) (hidle : s.lb.phase = .idle) (addr : K) :
    s.lb.members = s.lb.changes.foldl Change.apply ∅ ∧ s.lb.given = s.lb.members ∧
      (addr ∈ s.lb.members ↔ s.lb.IsConnecting addr ∨ s.lb.IsReady addr ∨ s.lb.IsEjected addr) ∧
      ¬ (s.lb.IsConnecting addr ∧ s.lb.IsReady addr) ∧ ¬ (s.lb.IsConnecting addr ∧ s.lb.IsEjected addr) ∧
      ¬ (s.lb.IsReady addr ∧ s.lb.IsEjected addr) := by
  have hi := Balancing.inv_of_reached h
  have hu := hi.placed.unique addr
  rw [LoadBalancer.isConnecting_iff, LoadBalancer.isReady_iff, LoadBalancer.isEjected_iff]
  refine ⟨hi.members, hi.given (by rw [hidle]; exact nofun), ?_, ?_, ?_, ?_⟩
  · rw [hi.placed.known addr]
    constructor
    · rintro ⟨p, hp⟩
      cases p with
      | connecting => exact Or.inl hp
      | ready o => exact Or.inr (Or.inl ⟨o, hp⟩)
      | ejected c => exact Or.inr (Or.inr ⟨c, hp⟩)
      | hand o =>
        have hh : s.lb.phase.inHand = some (addr, o) := hp
        rw [hidle] at hh
        cases hh
    · rintro (hp | ⟨_, hp⟩ | ⟨_, hp⟩)
      · exact ⟨_, hp⟩
      · exact ⟨_, hp⟩
      · exact ⟨_, hp⟩
  · rintro ⟨hp, _, hq⟩
    cases hu _ _ hp hq
  · rintro ⟨hp, _, hq⟩
    cases hu _ _ hp hq
  · rintro ⟨⟨_, hp⟩, _, hq⟩
    cases hu _ _ hp hq

variable (addr : Nat) (discovered : Discovered)

def firstPoll : List (LbEvent Nat) :=
  [.pollReady, .discover (.insert addr), .discovered .pending, .unejected, .connected, .pollSnapshot, .requested,
    .decide]

def connectPoll (token : Nat) : List (LbEvent Nat) :=
  [.pollReady, .discovered .pending, .unejected, .connect token, .place, .connected, .pollSnapshot, .decide]

def ejectSweep : List (BalancingEvent Nat) :=
  [.call addr, .outcome 0 false, .sweep .start, .sweep (.visit addr), .sweep .collected, .sweep (.eject 0),
    .sweep .tryEject,
    .sweep (.eject 0), .sweep .decrement, .sweep .decrement, .sweep .broadcast]

def ejectPoll : List (LbEvent Nat) :=
  [.pollReady, .discovered discovered, .unejected, .connected, .pollSnapshot, .request addr, .requested, .decide]

def strictConfig : OutlierDetectionConfig where
  baseEjectionTime := 30
  maxEjectionTime := 300
  maxEjectionPercent := 100
  successRate := none
  failurePercentage := some { threshold := 0, enforcingFailurePercentage := 100, minimumHosts := 1, requestVolume := 1 }

def ejectedRun : List (BalancingEvent Nat) :=
  (firstPoll 7).map .lb ++ (connectPoll 0).map .lb ++ ejectSweep 7 ++ (ejectPoll 7 discovered).map .lb

theorem endpoints_partitioned_ejected :
    ∃ s, (balancing Nat strictConfig fun _ _ _ => false).run (ejectedRun .pending) = some s ∧ s.lb.IsEjected 7 ∧
      s.lb.given = {7} ∧ ¬ (s.lb.IsReady 7 ∧ s.lb.IsEjected 7) := by
  refine ⟨_, rfl, rfl, rfl, (endpoints_partitioned (Transition.reached_of_run
    (?_ : (balancing Nat strictConfig fun _ _ _ => false).run (ejectedRun .pending) = some _)) ?_ 7).2.2.2.2.2⟩
  · rfl
  · rfl

/-- At any moment the count is the number of registered channels that are marked as ejected. -/
theorem ejected_count_exact (h : (balancing K config test).Reached s) :
    s.registry.ejectedCount = s.registry.ejectedSet.toFinset.card ∧ ∀ a, a ∈ s.registry.ejectedSet.toFinset ↔
        ∃ o, s.registry.channels.lookup a = some o ∧ s.registry.isEjected o = true :=
  ⟨(Balancing.inv_of_reached h).counted, fun _ => OutlierStatsRegistry.mem_ejectedSet⟩

theorem ejected_count_exact_removed : ∃ s, (balancing Nat strictConfig fun _ _ _ => false).run
        (ejectedRun .pending ++ [.lb .pollReady, .lb (.discover (.remove 7))]) = some s ∧ s.registry.ejectedCount = 0 ∧
      s.registry.ejectedCount = s.registry.ejectedSet.toFinset.card := by
  refine ⟨_, rfl, rfl, (ejected_count_exact (Transition.reached_of_run
    (?_ : (balancing Nat strictConfig fun _ _ _ => false).run
      (ejectedRun .pending ++ [.lb .pollReady, .lb (.discover (.remove 7))]) = some _))).1⟩
  rfl

end Results

end TonicXds
