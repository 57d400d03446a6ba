import Mathlib.Data.Set.Card
import GrpcRust.GrpcXds.ClusterWalk
/-!
# How far a walk goes

A cluster is computed again only after a visit was too deep, which fails every visit above: each root pays for one
path at most (`Walked.cost`), also with cycles. A cluster that is finished inside a cycle keeps the result it has
without the edge that was cut (`DoneWith`), which later roots reuse.
-/

namespace GrpcXds

open Lib Relation GraphWalker List

variable {V D : Type}

/-! ## The computations of a walk -/

namespace WalkInput

/-- What is found for the children in the loop of `aggregate`; it ends with the first one that is too deep. -/
def gatherBelow {α : Type} (visit : GraphWalker V D → String → GraphWalker V D × Except DepthExceeded Visited)
    (gather : GraphWalker V D → String → List α) : GraphWalker V D → List String → List α
  | _, [] => []
  | w, child :: children =>
    gather w child ++
      match visit w child with
      | (_, .error _) => []
      | (w, .ok _) => gatherBelow visit gather w children

def computed (i : WalkInput V D) : Nat → GraphWalker V D → String → List String
  | 0, _, _ => []
  | left + 1, w, name =>
    match w.marks.lookup name with
    | some _ => []
    | none =>
      name :: gatherBelow (i.visit left) (computed i left) ((w.enter name).watch (i.ownWatches name)) (i.children name)

def computedFromRoots (i : WalkInput V D) : GraphWalker V D → List String → List String
  | _, [] => []
  | w, root :: roots =>
    i.computed maxAggregateDepth w root ++ computedFromRoots i (i.visit maxAggregateDepth w root).1 roots

def rootsFit (i : WalkInput V D) : GraphWalker V D → List String → Bool
  | _, [] => true
  | w, root :: roots =>
    (i.visit maxAggregateDepth w root).2.isOk && rootsFit i (i.visit maxAggregateDepth w root).1 roots

def reachable (i : WalkInput V D) (roots : List String) : Set String :=
  { c | ∃ root ∈ roots, ReflTransGen i.Edge root c }

/-- Another root leads to a cluster of a cycle too, and from there to something pending. -/
def SharesCycle (i : WalkInput V D) (roots : List String) (root : String) : Prop :=
  ∃ other ∈ roots, other ≠ root ∧ ∃ c, ReflTransGen i.Edge root c ∧ ReflTransGen i.Edge other c ∧
    TransGen i.Edge c c ∧ i.PendingBelow c

end WalkInput

variable (cache : CachedResources V D) (roots : List String) (baseNotes : List String) (nodeId : Option String)

def walkComputations : List String :=
  (WalkInput.new cache baseNotes nodeId).computedFromRoots ⟨∅, .default⟩ (IterOrder.default.set roots.toFinset)

def NoDepthError : Prop :=
  (WalkInput.new cache baseNotes nodeId).rootsFit ⟨∅, .default⟩ (IterOrder.default.set roots.toFinset) = true

/-! ## What is done -/

def IsDone (w : GraphWalker V D) (a : String) : Prop := ∃ v, w.markOf a = some (.done v)

def IsPending (w : GraphWalker V D) (a : String) : Prop := ∃ v, w.markOf a = some (.done v) ∧ v.leaves = .pending

def Mark.isDone : Mark → Bool
  | .onPath => false
  | .done _ => true

def doneNames (w : GraphWalker V D) : Finset String :=
  ((w.marks.entries.filter fun e => e.2.isDone).map (·.1)).toFinset

theorem mem_doneNames {w : GraphWalker V D} {a : String} : a ∈ doneNames w ↔ IsDone w a := by
  simp only [doneNames, mem_toFinset, mem_map, mem_filter]
  constructor
  · rintro ⟨⟨k, m⟩, ⟨hmem, hd⟩, rfl⟩
    cases m with
    | onPath => cases hd
    | done v => exact ⟨v, HashMap.mem_entries.1 hmem⟩
  · rintro ⟨v, hv⟩
    exact ⟨⟨a, .done v⟩, ⟨HashMap.mem_entries.2 hv, rfl⟩, rfl⟩

theorem doneNames_eq {w w' : GraphWalker V D} (h : ∀ a, IsDone w' a ↔ IsDone w a) : doneNames w' = doneNames w := by
  ext a
  rw [mem_doneNames, mem_doneNames, h]

theorem card_doneNames {w w' : GraphWalker V D} (n : String) (hn : ¬ IsDone w n)
    (h : ∀ a, IsDone w' a ↔ a = n ∨ IsDone w a) : (doneNames w').card = (doneNames w).card + 1 := by
  have hi : doneNames w' = insert n (doneNames w) := by
    ext a
    rw [Finset.mem_insert, mem_doneNames, mem_doneNames, h]
  rw [hi, Finset.card_insert_of_notMem fun hm => hn (mem_doneNames.1 hm)]

/-! ## Visits and loops -/

structure Watches (i : WalkInput V D) (r : RequiredWatches) (cs : List String) (r' : RequiredWatches) : Prop where
  clusters : ∀ c, c ∈ r'.clusters ↔ c ∈ r.clusters ∨ c ∈ cs
  edsServices : ∀ s, s ∈ r'.edsServices ↔ s ∈ r.edsServices ∨ ∃ c ∈ cs, i.edsService c = some s
  dnsTargets : ∀ t, t ∈ r'.dnsTargets ↔ t ∈ r.dnsTargets ∨ ∃ c ∈ cs, i.dnsTarget c = some t

/-- The result of a cluster covers each child, or the edge was cut and the child leads back. -/
structure DoneWith (i : WalkInput V D) (w : GraphWalker V D) (a : String) (v : Visited) : Prop where
  config : w.config a = none ↔ v.leaves = .pending
  below : v.leaves = .pending → i.PendingBelow a
  own : i.view a = .pending → v.leaves = .pending
  edge : ∀ c, i.Edge a c → (∃ v', w.markOf c = some (.done v') ∧ (v'.leaves = .pending → v.leaves = .pending)) ∨
    w.markOf c ≠ none ∧ TransGen i.Edge c a

def Settled (i : WalkInput V D) (w : GraphWalker V D) : Prop := ∀ a v, w.markOf a = some (.done v) → DoneWith i w a v

/-- Visiting `starts` computes `computed`, `spent` of them in vain; `fits` unless a visit was too deep. -/
structure Walked (i : WalkInput V D) (w : GraphWalker V D) (starts computed : List String) (w' : GraphWalker V D)
    (spent : Nat) (fits : Bool) : Prop where
  onPath : ∀ a, w'.markOf a = some .onPath ↔ w.markOf a = some .onPath
  done : ∀ a v, w.markOf a = some (.done v) → w'.markOf a = some (.done v)
  config : fits = true → ∀ a, w.markOf a ≠ none → w'.config a = w.config a
  fresh : ∀ a, IsDone w' a → IsDone w a ∨ a ∈ computed
  reached : ∀ c ∈ computed, ∃ start ∈ starts, ReflTransGen i.Edge start c
  cost : computed.length + (doneNames w).card ≤ (doneNames w').card + spent
  watches : Watches i w.graph.requiredWatches computed w'.graph.requiredWatches
  settled : fits = true → (∀ start ∈ starts, PathTo i w start) → Settled i w →
    Settled i w' ∧ ∀ start ∈ starts, w'.markOf start ≠ none
  pending : fits = true → ∀ a, w.markOf a = none → IsPending w' a →
    ∃ start ∈ starts, IsPending w' start ∧ ReflTransGen i.Edge start a

section
variable {i : WalkInput V D} {w w' w₁ w₂ : GraphWalker V D} {name : String} {ss ss' cs cs' : List String}
  {sp sp' : Nat} {fits fits' : Bool} {a : String} {m : Option Mark}

theorem Watches.refl (r : RequiredWatches) : Watches i r [] r := by
  constructor <;> simp

theorem Watches.append {r r' r'' : RequiredWatches} (h : Watches i r cs r') (h' : Watches i r' cs' r'') :
    Watches i r (cs ++ cs') r'' where
  clusters c := by rw [h'.clusters, h.clusters, mem_append, or_assoc]
  edsServices s := by simp only [h'.edsServices, h.edsServices, mem_append, or_and_right, exists_or, or_assoc]
  dnsTargets t := by simp only [h'.dnsTargets, h.dnsTargets, mem_append, or_and_right, exists_or, or_assoc]

theorem Watches.own (r : RequiredWatches) (n : String) : Watches i r [n] (i.ownWatches n r) where
  clusters c := by simp [WalkInput.ownWatches, or_comm]
  edsServices s := by
    cases h : i.edsService n with
    | none => simp [WalkInput.ownWatches, h]
    | some s' => simp [WalkInput.ownWatches, h, or_comm, eq_comm]
  dnsTargets t := by
    cases h : i.dnsTarget n with
    | none => simp [WalkInput.ownWatches, h]
    | some t' => simp [WalkInput.ownWatches, h, or_comm, eq_comm]

theorem marked_iff : w.markOf a ≠ none ↔ w.markOf a = some .onPath ∨ IsDone w a := by
  rw [IsDone]
  cases hm : w.markOf a with
  | none => simp
  | some m => cases m <;> simp

theorem IsPending.marked (h : IsPending w a) : w.markOf a ≠ none := by
  obtain ⟨v, hv, -⟩ := h
  simp [hv]

theorem Walked.marked (h : Walked i w ss cs w' sp fits) (ha : w.markOf a ≠ none) : w'.markOf a ≠ none :=
  marked_iff.2 ((marked_iff.1 ha).imp (h.onPath a).2 (Exists.imp (h.done a)))

theorem Walked.isPending_iff (h : Walked i w ss cs w' sp fits) (ha : w.markOf a ≠ none) :
    IsPending w' a ↔ IsPending w a := by
  rcases marked_iff.1 ha with ha | ⟨v, ha⟩
  · rw [IsPending, IsPending, ha, (h.onPath a).2 ha]
  · rw [IsPending, IsPending, ha, h.done a v ha]

theorem Walked.unchanged (h : fits = true → ∀ start ∈ ss, w.markOf start ≠ none) (sp : Nat) :
    Walked i w ss [] w sp fits :=
  ⟨fun _ => .rfl, fun _ _ h => h, fun _ _ _ => rfl, fun _ => .inl, by simp, by simp, .refl _,
    fun hf _ hw => ⟨hw, h hf⟩, fun _ _ ha hp => absurd ha hp.marked⟩

theorem Walked.refl (i : WalkInput V D) (w : GraphWalker V D) : Walked i w [] [] w 0 true := .unchanged (by simp) 0

theorem Walked.append (h : Walked i w ss cs w₁ sp fits) (h' : Walked i w₁ ss' cs' w' sp' fits') :
    Walked i w (ss ++ ss') (cs ++ cs') w' (sp + sp') (fits && fits') where
  onPath a := (h'.onPath a).trans (h.onPath a)
  done a v ha := h'.done a v (h.done a v ha)
  config hf a ha := by
    rw [Bool.and_eq_true] at hf
    rw [h'.config hf.2 a (h.marked ha), h.config hf.1 a ha]
  fresh a ha := by
    rcases h'.fresh a ha with ha | ha
    · exact (h.fresh a ha).imp_right (mem_append_left _)
    · exact .inr (mem_append_right _ ha)
  reached c hc := by
    rcases List.mem_append.1 hc with hc | hc
    · obtain ⟨s, hs, hr⟩ := h.reached c hc
      exact ⟨s, mem_append_left _ hs, hr⟩
    · obtain ⟨s, hs, hr⟩ := h'.reached c hc
      exact ⟨s, mem_append_right _ hs, hr⟩
  cost := by
    have := h.cost
    have := h'.cost
    rw [length_append]
    omega
  watches := h.watches.append h'.watches
  settled hf hp hw := by
    rw [Bool.and_eq_true] at hf
    obtain ⟨hw₁, hst⟩ := h.settled hf.1 (fun s hs => hp s (mem_append_left _ hs)) hw
    obtain ⟨hw', hst'⟩ := h'.settled hf.2 (fun s hs p hon => hp s (mem_append_right _ hs) p ((h.onPath p).1 hon)) hw₁
    refine ⟨hw', fun s hs => ?_⟩
    rcases List.mem_append.1 hs with hs | hs
    · exact h'.marked (hst s hs)
    · exact hst' s hs
  pending hf a ha hp := by
    rw [Bool.and_eq_true] at hf
    by_cases hm : w₁.markOf a = none
    · obtain ⟨s, hs, hsp⟩ := h'.pending hf.2 a hm hp
      exact ⟨s, mem_append_right _ hs, hsp⟩
    · obtain ⟨s, hs, hsp, hr⟩ := h.pending hf.1 a ha ((h'.isPending_iff hm).1 hp)
      exact ⟨s, mem_append_left _ hs, (h'.isPending_iff hsp.marked).2 hsp, hr⟩

/-- The loop ends with the first child that is too deep, and the aggregate is an error. -/
theorem Walked.stop (h : Walked i w ss cs w' sp false) (rest : List String) (r : ClusterResult V D) :
    Walked i w (ss ++ rest) cs (w'.record name r) sp false :=
  { h with
    reached := fun c hc => (h.reached c hc).imp fun _ hs => ⟨mem_append_left _ hs.1, hs.2⟩
    config := nofun
    settled := nofun
    pending := nofun }

/-! ## A visit -/

theorem markOf_enter (w : GraphWalker V D) (f : RequiredWatches → RequiredWatches) (n a : String) :
    ((w.enter n).watch f).markOf a = if a = n then some .onPath else w.markOf a := by
  simp [GraphWalker.enter]

theorem isDone_enter (hname : w.markOf name = none) (f : RequiredWatches → RequiredWatches) (a : String) :
    IsDone ((w.enter name).watch f) a ↔ IsDone w a := by
  simp only [IsDone, markOf_enter]
  by_cases ha : a = name
  · simp [ha, hname]
  · simp [ha]

structure Keeps (w w' : GraphWalker V D) : Prop where
  done : ∀ a v, w.markOf a = some (.done v) → w'.markOf a = some (.done v)
  marked : ∀ a, w.markOf a ≠ none → w'.markOf a ≠ none

theorem Keeps.of_marks {m : Mark} (hname : ∀ v, w.markOf name ≠ some (.done v))
    (h : ∀ a, w'.markOf a = if a = name then some m else w.markOf a) : Keeps w w' where
  done a v ha := by
    rw [h, if_neg, ha]
    rintro rfl
    exact hname v ha
  marked a ha := by
    rw [h]
    split
    · simp
    · exact ha

theorem DoneWith.mono {v : Visited} (h : DoneWith i w a v) (hk : Keeps w w') (hc : w'.config a = w.config a) :
    DoneWith i w' a v where
  config := by rw [hc, h.config]
  below := h.below
  own := h.own
  edge c he := (h.edge c he).imp (fun ⟨v', hv', hp⟩ => ⟨v', hk.done c v' hv', hp⟩) (And.imp_left (hk.marked c))

theorem Settled.enter (hw : Settled i w) (hname : w.markOf name = none) (f : RequiredWatches → RequiredWatches) :
    Settled i ((w.enter name).watch f) := by
  intro a v ha
  rw [markOf_enter] at ha
  split at ha
  · cases ha
  · rename_i hne
    exact (hw a v ha).mono (.of_marks (by simp [hname]) (markOf_enter w f name)) (enter_sameBut w name a hne).2

structure Leaves (w₂ : GraphWalker V D) (name : String) (m : Option Mark) (w' : GraphWalker V D) : Prop where
  marks : ∀ a, w'.markOf a = if a = name then m else w₂.markOf a
  config : ∀ a, a ≠ name → w'.config a = w₂.config a
  watches : w'.graph.requiredWatches = w₂.graph.requiredWatches

theorem Leaves.isDone (h : Leaves w₂ name m w') (ha : a ≠ name) : IsDone w' a ↔ IsDone w₂ a := by
  rw [IsDone, IsDone, h.marks a, if_neg ha]

theorem Leaves.walked (hl : Leaves w₂ name m w') (hname : w.markOf name = none)
    (hlp : Walked i ((w.enter name).watch (i.ownWatches name)) (i.children name) cs w₂ sp fits)
    (hm : m ≠ some .onPath) (hfits : fits' = true → fits = true)
    (hcs : cs.length + 1 + (doneNames w).card ≤ (doneNames w').card + sp')
    (hst : fits' = true → PathTo i w name → Settled i w → Settled i w' ∧ w'.markOf name ≠ none)
    (hpn : fits' = true → ∀ a, a ≠ name → IsPending w' a →
      w.markOf a = none → IsPending w' name ∧ ReflTransGen i.Edge name a) :
    Walked i w [name] (name :: cs) w' sp' fits' where
  onPath a := by
    rw [hl.marks a]
    by_cases ha : a = name
    · simp [ha, hm, hname]
    · rw [if_neg ha, hlp.onPath a, markOf_enter, if_neg ha]
  done a v ha := by
    have hne : a ≠ name := by
      rintro rfl
      simp [hname] at ha
    rw [hl.marks a, if_neg hne]
    exact hlp.done a v (by rw [markOf_enter, if_neg hne, ha])
  config hf a ha := by
    have hne : a ≠ name := by
      rintro rfl
      exact ha hname
    rw [hl.config a hne, hlp.config (hfits hf) a (by rwa [markOf_enter, if_neg hne])]
    exact (enter_sameBut w name a hne).2
  fresh a ha := by
    by_cases hne : a = name
    · exact .inr (hne ▸ mem_cons_self)
    · rcases hlp.fresh a ((hl.isDone hne).1 ha) with ha | ha
      · exact .inl ((isDone_enter hname _ a).1 ha)
      · exact .inr (mem_cons_of_mem _ ha)
  reached c hc := by
    rcases List.mem_cons.1 hc with rfl | hc
    · exact ⟨c, mem_singleton_self c, .refl⟩
    · obtain ⟨ch, hch, hr⟩ := hlp.reached c hc
      exact ⟨name, mem_singleton_self name, .head hch hr⟩
  cost := by
    rw [length_cons]
    exact hcs
  watches := by
    rw [hl.watches]
    exact (Watches.own w.graph.requiredWatches name).append hlp.watches
  settled hf hp hw := by simpa using hst hf (hp name (mem_singleton_self name)) hw
  pending hf a ha hp := by
    refine ⟨name, mem_singleton_self name, ?_⟩
    by_cases hne : a = name
    · exact ⟨hne ▸ hp, hne ▸ .refl⟩
    · exact hpn hf a hne hp ha

theorem Leaves.isPending (h : Leaves w₂ name m w') (ha : a ≠ name) : IsPending w' a ↔ IsPending w₂ a := by
  rw [IsPending, IsPending, h.marks a, if_neg ha]

theorem Leaves.settled {v : Visited} (hl : Leaves w₂ name (some (.done v)) w') (hw : Settled i w₂)
    (hon : w₂.markOf name = some .onPath) (hch : ∀ c ∈ i.children name, w₂.markOf c ≠ none)
    (hpt : ∀ c ∈ i.children name, w₂.markOf c = some .onPath → TransGen i.Edge c name)
    (hv : v.leaves = .pending ↔ i.view name = .pending ∨ ∃ c ∈ i.children name, IsPending w₂ c)
    (hr : w'.config name = none ↔ v.leaves = .pending) : Settled i w' := by
  have hk : Keeps w₂ w' := .of_marks (by simp [hon]) hl.marks
  intro a v' ha
  rw [hl.marks] at ha
  split at ha
  · rename_i hne
    subst hne
    obtain rfl : v = v' := by simpa using ha
    refine ⟨hr, fun hp => ?_, fun hp => hv.2 (.inl hp), fun c hc => ?_⟩
    · rcases hv.1 hp with hp | ⟨c, hc, vc, hvc, hp⟩
      · exact ⟨a, .refl, hp⟩
      · exact WalkInput.pendingBelow_iff.2 (.inr ⟨c, hc, (hw c vc hvc).below hp⟩)
    · rcases marked_iff.1 (hch c hc) with hc' | ⟨vc, hvc⟩
      · exact .inr ⟨hk.marked c (hch c hc), hpt c hc hc'⟩
      · exact .inl ⟨vc, hk.done c vc hvc, fun hp => hv.2 (.inr ⟨c, hc, vc, hvc, hp⟩)⟩
  · rename_i hne
    exact (hw a v' ha).mono hk (hl.config a hne)

theorem Walked.finish (hname : w.markOf name = none)
    (hlp : Walked i ((w.enter name).watch (i.ownWatches name)) (i.children name) cs w₂ 0 true) {v : Visited}
    {r : Option (ClusterResult V D)} (hr : r = none ↔ v.leaves = .pending)
    (hv : v.leaves = .pending ↔ i.view name = .pending ∨ ∃ c ∈ i.children name, IsPending w₂ c) :
    Walked i w [name] (name :: cs) ((w₂.recordSome name r).mark name (.done v)) 0 true := by
  have hl : Leaves w₂ name (some (.done v)) ((w₂.recordSome name r).mark name (.done v)) :=
    ⟨fun a => by rw [markOf_mark, markOf_recordSome], fun a hne => by simp [hne], by cases r <;> rfl⟩
  have hin : ((w.enter name).watch (i.ownWatches name)).markOf name = some .onPath := by rw [markOf_enter, if_pos rfl]
  have hp : w₂.markOf name = some .onPath := (hlp.onPath name).2 hin
  refine hl.walked hname hlp (by simp) (fun _ => rfl) ?_ (fun _ hpt hw => ?_) fun _ a hne hpn ha => ?_
  · have hcn : (doneNames ((w₂.recordSome name r).mark name (.done v))).card = (doneNames w₂).card + 1 := by
      refine card_doneNames name (by simp [IsDone, hp]) fun a => ?_
      by_cases ha : a = name
      · simp [ha, IsDone]
      · simp [ha, hl.isDone ha]
    have hcs := hlp.cost
    rw [doneNames_eq (isDone_enter hname _)] at hcs
    omega
  · obtain ⟨hw₂, hch⟩ := hlp.settled rfl (fun c hc => hpt.child hc _) (hw.enter hname _)
    have hcn : w₂.config name = none := by
      rw [hlp.config rfl name (by simp [hin])]
      simp [GraphWalker.enter]
    refine ⟨hl.settled hw₂ hp hch (fun c hc hon => ?_) hv (by simp [hcn, hr]), by simp⟩
    have hon := (hlp.onPath c).1 hon
    rw [markOf_enter] at hon
    split at hon
    · rename_i heq
      exact .single (heq ▸ hc)
    · exact hpt c hon
  · obtain ⟨c, hc, hcp, hrc⟩ := hlp.pending rfl a (by rw [markOf_enter, if_neg hne, ha]) ((hl.isPending hne).1 hpn)
    exact ⟨⟨v, by simp, hv.2 (.inr ⟨c, hc, hcp⟩)⟩, .head hc hrc⟩

theorem Walked.fail (hname : w.markOf name = none)
    (hlp : Walked i ((w.enter name).watch (i.ownWatches name)) (i.children name) cs w₂ sp false) :
    Walked i w [name] (name :: cs) (w₂.unmark name) (sp + 1) false := by
  have hl : Leaves w₂ name none (w₂.unmark name) := ⟨fun a => markOf_unmark _ _ _, fun _ _ => rfl, rfl⟩
  have hp : w₂.markOf name = some .onPath := (hlp.onPath name).2 (by rw [markOf_enter, if_pos rfl])
  refine hl.walked hname hlp (by simp) nofun ?_ nofun nofun
  have hc : doneNames (w₂.unmark name) = doneNames w₂ := by
    refine doneNames_eq fun a => ?_
    by_cases ha : a = name
    · simp [ha, IsDone, hp]
    · exact hl.isDone ha
  have hcs := hlp.cost
  rw [doneNames_eq (isDone_enter hname _)] at hcs
  rw [hc]
  omega

def overrun (n : Nat) (fits : Bool) : Nat := if fits then 0 else n

theorem visitChildren_walked (name : String) {n : Nat}
    (ih : ∀ (w : GraphWalker V D) (c : String), Walked i w [c] (i.computed n w c) (i.visit n w c).1
      (overrun n (i.visit n w c).2.isOk) (i.visit n w c).2.isOk)
    (f : Flattening) (ch : List String) (w : GraphWalker V D) :
    Walked i w ch (WalkInput.gatherBelow (i.visit n) (i.computed n) w ch)
      (WalkInput.visitChildren (i.visit n) name w f ch).1
      (overrun n (WalkInput.visitChildren (i.visit n) name w f ch).2.isOk)
      (WalkInput.visitChildren (i.visit n) name w f ch).2.isOk := by
  induction ch generalizing w f with
  | nil => exact .refl i w
  | cons c ch ihcs =>
    have hc := ih w c
    rw [WalkInput.gatherBelow, WalkInput.visitChildren]
    cases hv : i.visit n w c with
    | mk w₁ r =>
      rw [hv] at hc
      cases r with
      | error e =>
        simp only [append_nil]
        exact hc.stop ch _
      | ok v => simpa [overrun, Except.isOk, Except.toBool] using hc.append (ihcs (f.add v) w₁)

theorem visit_marks {n : Nat} {v : Visited} (h : i.visit n w name = (w', .ok v)) :
    w'.markOf name ≠ none ∧ (IsPending w' name ↔ v.leaves = .pending) := by
  cases n with
  | zero => cases h
  | succ n =>
    rw [WalkInput.visit] at h
    cases hm : w.marks.lookup name with
    | none =>
      rw [hm] at h
      dsimp only at h
      split at h <;> cases h
      simp [IsPending]
    | some m =>
      have hm' : w.markOf name = some m := hm
      rw [hm] at h
      cases m with
      | onPath =>
        cases h
        simp [IsPending, hm', Visited.noLeaves]
      | done v' =>
        dsimp only at h
        split at h <;> cases h
        simp [IsPending, hm']

theorem visitChildren_pending {n : Nat} {f f' : Flattening} {ch : List String}
    (ih : ∀ (w : GraphWalker V D) (c : String), Walked i w [c] (i.computed n w c) (i.visit n w c).1
      (overrun n (i.visit n w c).2.isOk) (i.visit n w c).2.isOk)
    (h : WalkInput.visitChildren (i.visit n) name w f ch = (w', .ok f')) :
    f'.pending = true ↔ f.pending = true ∨ ∃ c ∈ ch, IsPending w' c := by
  induction ch generalizing w f with
  | nil =>
    cases h
    simp
  | cons c ch ihcs =>
    rw [WalkInput.visitChildren] at h
    cases hv : i.visit n w c with
    | mk w₁ r =>
      rw [hv] at h
      cases r with
      | error e => cases h
      | ok v =>
        obtain ⟨hm, hp⟩ := visit_marks hv
        have hrest := visitChildren_walked name ih (f.add v) ch w₁
        dsimp only at h
        rw [h] at hrest
        rw [ihcs h, Flattening.add_pending, ← hp, ← hrest.isPending_iff hm, or_assoc]
        simp

/-- What a visit does, too deep or not. The induction is on the levels that are left. -/
theorem visit_walked (i : WalkInput V D) (n : Nat) (w : GraphWalker V D) (name : String) :
    Walked i w [name] (i.computed n w name) (i.visit n w name).1 (overrun n (i.visit n w name).2.isOk)
      (i.visit n w name).2.isOk := by
  induction n generalizing w name with
  | zero => exact (.unchanged (by simp) 0 : Walked i w [name] [] w 0 false)
  | succ n ih =>
    cases hm : w.markOf name with
    | some mark =>
      have hl : w.marks.lookup name = some mark := hm
      have hsame : (i.visit (n + 1) w name).1 = w ∧ i.computed (n + 1) w name = [] := by
        rw [WalkInput.visit, WalkInput.computed, hl]
        cases mark with
        | onPath => exact ⟨rfl, rfl⟩
        | done v =>
          dsimp only
          split
          · exact ⟨rfl, rfl⟩
          · exact ⟨rfl, rfl⟩
      rw [hsame.1, hsame.2]
      exact .unchanged (by simp [hm]) _
    | none =>
      have hl : w.marks.lookup name = none := hm
      have hlp := visitChildren_walked name ih
      rw [WalkInput.visit, WalkInput.computed, hl]
      rw [← GraphWalker.enter, visitUncached_eq]
      -- A cluster that is no aggregate has no children to visit.
      have hlf : i.children name = [] → Walked i ((w.enter name).watch (i.ownWatches name)) (i.children name)
          (WalkInput.gatherBelow (i.visit n) (i.computed n) ((w.enter name).watch (i.ownWatches name))
            (i.children name)) ((w.enter name).watch (i.ownWatches name)) 0 true := by
        intro hn
        rw [hn]
        exact .refl i _
      cases hv : i.view name with
      | pending =>
        have hcs : i.children name = [] := by rw [WalkInput.children, hv]
        exact (hlf hcs).finish (r := none) hm (by simp [Visited.pending]) (by simp [Visited.pending, hv])
      | failed rs =>
        have hcs : i.children name = [] := by rw [WalkInput.children, hv]
        exact (hlf hcs).finish (r := some _) hm (by simp [Visited.noLeaves]) (by simp [Visited.noLeaves, hv, hcs])
      | leaf c es =>
        have hcs : i.children name = [] := by rw [WalkInput.children, hv]
        exact (hlf hcs).finish (r := some _) hm (by simp [Visited.leaf]) (by simp [Visited.leaf, hv, hcs])
      | aggregate c note cs =>
        have hcs := WalkInput.children_eq hv
        specialize hlp (.new note) cs ((w.enter name).watch (i.ownWatches name))
        dsimp only
        cases hc : WalkInput.visitChildren (i.visit n) name ((w.enter name).watch (i.ownWatches name))
            (.new note) cs with
        | mk w₂ r =>
          rw [hc, ← hcs] at hlp
          cases r with
          | error e =>
            rw [WalkInput.aggregate, hc]
            exact hlp.fail hm
          | ok f =>
            rw [aggregate_of_ok hc]
            refine hlp.finish hm ?_ ?_
            · cases f.visited.leaves with
              | pending => simp [LeafClusters.result]
              | resolved ls ns => by_cases hl : ls = [] <;> simp [LeafClusters.result, hl]
            · rw [Flattening.visited_pending, visitChildren_pending ih hc, hcs]
              simp [Flattening.new, hv]

/-! ## The roots -/

theorem visitRoots_walked (i : WalkInput V D) (rs : List String) (w : GraphWalker V D) :
    ∃ s ≤ maxAggregateDepth * rs.length, Walked i w rs (i.computedFromRoots w rs)
      (rs.foldl (fun w r => (i.visit maxAggregateDepth w r).1) w) s (i.rootsFit w rs) := by
  induction rs generalizing w with
  | nil => exact ⟨0, Nat.zero_le _, .refl i w⟩
  | cons r rs ih =>
    obtain ⟨s, hle, hrest⟩ := ih (i.visit maxAggregateDepth w r).1
    have hr : overrun maxAggregateDepth (i.visit maxAggregateDepth w r).2.isOk ≤ maxAggregateDepth := by
      rw [overrun]
      split <;> omega
    refine ⟨_, ?_, (visit_walked i maxAggregateDepth w r).append hrest⟩
    rw [length_cons, Nat.mul_add]
    omega

theorem reachable_finite (i : WalkInput V D) (rs : List String) : (i.reachable rs).Finite := by
  refine ((rs ++ i.cache.clusters.keys.flatMap i.children).toFinset.finite_toSet).subset ?_
  rintro c ⟨r, hrt, hr⟩
  rw [coe_toFinset, Set.mem_ofPred_eq, mem_append]
  cases hr with
  | refl => exact .inl hrt
  | @tail a _ _ he =>
    refine .inr (List.mem_flatMap.2 ⟨a, ?_, he⟩)
    by_contra hk
    have hnone : i.cache.clusters.lookup a = none := AList.lookup_eq_none.2 fun hm => hk (AList.mem_keys.1 hm)
    simp [WalkInput.Edge, WalkInput.children, WalkInput.view, hnone] at he

theorem Settled.reach (hw : Settled i w) (hf : ∀ p, w.markOf p ≠ some .onPath) {a c : String} (ha : w.markOf a ≠ none)
    (hr : ReflTransGen i.Edge a c) : IsDone w c := by
  have hd : ∀ {x}, w.markOf x ≠ none → IsDone w x := fun hx => (marked_iff.1 hx).resolve_left (hf _)
  induction hr with
  | refl => exact hd ha
  | tail _ he ih =>
    obtain ⟨v, hv⟩ := ih
    rcases (hw _ v hv).edge _ he with ⟨v', hv', -⟩ | ⟨hm, -⟩
    · exact ⟨v', hv'⟩
    · exact hd hm

theorem Walked.from_new (h : Walked i ⟨∅, .default⟩ ss cs w sp fits) (hfits : fits = true) : Settled i w ∧
    (∀ c ∈ i.reachable ss, IsDone w c) ∧
    ∀ a, IsPending w a → ∃ root ∈ ss, IsPending w root ∧ ReflTransGen i.Edge root a := by
  have hf : ∀ p, w.markOf p ≠ some .onPath := fun p hp => by cases (h.onPath p).1 hp
  obtain ⟨hs, hst⟩ := h.settled hfits (fun _ _ p hp => by cases hp) fun a v ha => by cases ha
  refine ⟨hs, ?_, fun a => h.pending hfits a rfl⟩
  rintro c ⟨root, hrt, hrc⟩
  exact hs.reach hf (hst root hrt) hrc

theorem IsPending.leaves {v : Visited} (h : IsPending w a) (hv : w.markOf a = some (.done v)) :
    v.leaves = .pending := by
  obtain ⟨v', hv', hp⟩ := h
  obtain rfl : v = v' := by simpa [hv] using hv'
  exact hp

/-- An edge that was cut lies on a cycle, which the root that was visited then shares. -/
theorem Settled.pending_or_shares (hs : Settled i w) (hd : ∀ c ∈ i.reachable ss, IsDone w c)
    (hp : ∀ a, IsPending w a → ∃ root ∈ ss, IsPending w root ∧ ReflTransGen i.Edge root a) (hroot : name ∈ ss)
    (hbelow : i.PendingBelow name) : IsPending w name ∨ i.SharesCycle ss name := by
  by_contra! hnot
  obtain ⟨below, hreach, hview⟩ := hbelow
  have hall : ∀ c, ReflTransGen i.Edge name c → ¬ IsPending w c := by
    intro c hrc
    induction hrc with
    | refl => exact hnot.1
    | @tail b c hrb hbc ih =>
      intro hpc
      obtain ⟨vb, hvb⟩ := hd b ⟨name, hroot, hrb⟩
      rcases (hs b vb hvb).edge c hbc with ⟨vc, hvc, himp⟩ | ⟨-, hback⟩
      · exact ih ⟨vb, hvb, himp (hpc.leaves hvc)⟩
      · obtain ⟨other, ho, hpo, hoc⟩ := hp c hpc
        have hne : other ≠ name := fun heq => hnot.1 (heq ▸ hpo)
        obtain ⟨vc, hvc, hpv⟩ := hpc
        exact hnot.2 ⟨other, ho, hne, c, hrb.tail hbc, hoc, hback.tail hbc, (hs c vc hvc).below hpv⟩
  obtain ⟨vp, hvp⟩ := hd below ⟨name, hroot, hreach⟩
  exact hall below hreach ⟨vp, hvp, (hs below vp hvp).own hview⟩

end

/-- At most one computation for each reachable cluster and 16 for each root; the watches are those of the former. -/
theorem walk_bounded (cache : CachedResources V D) (roots baseNotes : List String) (nodeId : Option String) :
    let i := WalkInput.new cache baseNotes nodeId
    let required := (walk cache roots baseNotes nodeId).requiredWatches
    (i.reachable roots).Finite ∧
      (walkComputations cache roots baseNotes nodeId).length ≤ (i.reachable roots).ncard + 16 * roots.toFinset.card ∧
      (NoDepthError cache roots baseNotes nodeId → (∀ c, c ∈ required.clusters ↔ c ∈ i.reachable roots) ∧
        (∀ s, s ∈ required.edsServices ↔ ∃ c ∈ i.reachable roots, i.edsService c = some s) ∧
        ∀ t, t ∈ required.dnsTargets ↔ ∃ c ∈ i.reachable roots, i.dnsTarget c = some t) := by
  intro i required
  have hmem : ∀ r, r ∈ roots.toFinset.sort (· ≤ ·) ↔ r ∈ roots := fun r => by simp
  obtain ⟨spent, hs, hw⟩ := visitRoots_walked i (roots.toFinset.sort (· ≤ ·)) ⟨∅, .default⟩
  rw [Finset.length_sort] at hs
  have hn : ∀ a, ¬ IsDone (⟨∅, .default⟩ : GraphWalker V D) a := by
    rintro a ⟨v, hv⟩
    cases hv
  have hr : ∀ c ∈ walkComputations cache roots baseNotes nodeId, c ∈ i.reachable roots := by
    intro c hc
    obtain ⟨root, hrt, hrc⟩ := hw.reached c hc
    exact ⟨root, (hmem root).1 hrt, hrc⟩
  refine ⟨reachable_finite i roots, ?_, fun hf => ?_⟩
  · -- What is done has been computed, so it is reachable.
    set w' := (roots.toFinset.sort (· ≤ ·)).foldl (fun w root => (i.visit maxAggregateDepth w root).1)
      (⟨∅, .default⟩ : GraphWalker V D)
    have hsb : (doneNames w' : Set String) ⊆ i.reachable roots := by
      intro a ha
      exact hr a ((hw.fresh a (mem_doneNames.1 ha)).resolve_left (hn a))
    have hcr : (doneNames w').card ≤ (i.reachable roots).ncard := by
      rw [← Set.ncard_coe_finset]
      exact Set.ncard_le_ncard hsb (reachable_finite i roots)
    have hcs : (walkComputations cache roots baseNotes nodeId).length + _ ≤ _ := hw.cost
    simp only [maxAggregateDepth] at hs
    omega
  · have hcm : ∀ c, c ∈ walkComputations cache roots baseNotes nodeId ↔ c ∈ i.reachable roots := by
      intro c
      refine ⟨hr c, ?_⟩
      rintro ⟨root, hrt, hrc⟩
      exact (hw.fresh c ((hw.from_new hf).2.1 c ⟨root, (hmem root).2 hrt, hrc⟩)).resolve_left (hn c)
    have hwt : Watches i ⟨.empty, .empty, .empty⟩ (walkComputations cache roots baseNotes nodeId) required := hw.watches
    refine ⟨fun c => ?_, fun s => ?_, fun t => ?_⟩
    · rw [hwt.clusters, hcm]
      simp
    · rw [hwt.edsServices]
      simp [hcm]
    · rw [hwt.dnsTargets]
      simp [hcm]

def cyclicCache : CachedResources Unit Unit where
  clusters := (AList.insert "a" (.ready ⟨"a", .aggregate ["b", "pending"]⟩ none) ∅).insert "b"
    (.ready ⟨"b", .aggregate ["a"]⟩ none)
  endpoints := ∅
  dns := ∅

theorem sort_roots : (["a", "b"].toFinset : Finset String).sort (· ≤ ·) = ["a", "b"] := by
  rw [toFinset_cons, Finset.sort_insert]
  · simp
  · simp
  · decide

theorem cyclicCache_fits : NoDepthError cyclicCache ["a", "b"] [] none := by
  rw [NoDepthError, show IterOrder.default.set (["a", "b"].toFinset : Finset String) = ["a", "b"] from sort_roots]
  rfl

/-- Two roots on a cycle: three clusters, each computed once. -/
theorem walk_bounded_cycle : walkComputations cyclicCache ["a", "b"] [] none = ["a", "b", "pending"] ∧
      "pending" ∈ (WalkInput.new cyclicCache [] none).reachable ["a", "b"] := by
  have hs : IterOrder.default.set (["a", "b"].toFinset : Finset String) = ["a", "b"] := sort_roots
  have hc : walkComputations cyclicCache ["a", "b"] [] none = ["a", "b", "pending"] := by
    rw [walkComputations, hs]
    rfl
  obtain ⟨-, -, hw⟩ := walk_bounded cyclicCache ["a", "b"] [] none
  refine ⟨hc, ((hw cyclicCache_fits).1 "pending").1 ?_⟩
  rw [walk, sort_roots]
  exact mem_of_elem_eq_true rfl

theorem cyclicCache_pending : (WalkInput.new cyclicCache [] none).PendingBelow "b" := by
  have hba : (WalkInput.new cyclicCache [] none).Edge "b" "a" := mem_singleton_self "a"
  have hap : (WalkInput.new cyclicCache [] none).Edge "a" "pending" := mem_cons_of_mem _ (mem_singleton_self _)
  exact ⟨"pending", .head hba (.single hap), rfl⟩

end GrpcXds
