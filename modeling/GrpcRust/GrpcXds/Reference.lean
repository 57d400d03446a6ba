import Mathlib.Logic.Relation
import GrpcRust.GrpcXds.ClusterGraph
/-!
# What a cluster resolves to

`flatten` goes down every path again; `reference` says what its result is without a computation.
-/

namespace GrpcXds

open Lib Relation Flattening

variable {V D : Type}

inductive View (V D : Type) where
  | pending
  | failed (reason : String)
  | leaf (cluster : ClusterResource) (endpoints : LeafEndpoints V D)
  | aggregate (cluster : ClusterResource) (note : Option String) (children : List String)

namespace WalkInput
variable (i : WalkInput V D) {name : String}

def leafView {α : Type} (cluster : ClusterResource) (cdsNote : Option String) (endpoints : Option (WatchState α))
    (toSource : α → LeafEndpointSource V D) : View V D :=
  match endpoints with
  | none | some .pending => .pending
  | some (.ready value note) => .leaf cluster ⟨some (toSource value), i.leafNote cdsNote note⟩
  | some (.failed reason) => .leaf cluster ⟨none, i.leafNote cdsNote (some reason)⟩

def view (name : String) : View V D :=
  match i.cache.clusters.lookup name with
  | none | some .pending => .pending
  | some (.failed reason) => .failed reason
  | some (.ready cluster cdsNote) =>
    match cluster.discovery with
    | .eds edsServiceName => i.leafView cluster cdsNote (i.cache.endpoints.lookup edsServiceName) .eds
    | .logicalDns hostname port => i.leafView cluster cdsNote (i.cache.dns.lookup ⟨hostname, port⟩) .logicalDns
    | .aggregate children => .aggregate cluster cdsNote children

def children (name : String) : List String :=
  match i.view name with
  | .aggregate _ _ children => children
  | _ => []

def Edge (a b : String) : Prop := b ∈ i.children a

def edsService (name : String) : Option String :=
  match i.cache.clusters.lookup name with
  | some (.ready ⟨_, .eds edsServiceName⟩ _) => some edsServiceName
  | _ => none

def dnsTarget (name : String) : Option DnsTarget :=
  match i.cache.clusters.lookup name with
  | some (.ready ⟨_, .logicalDns hostname port⟩ _) => some ⟨hostname, port⟩
  | _ => none

def ownWatches (name : String) (r : RequiredWatches) : RequiredWatches where
  clusters := r.clusters.insert name
  edsServices := (i.edsService name).elim r.edsServices r.edsServices.insert
  dnsTargets := (i.dnsTarget name).elim r.dnsTargets r.dnsTargets.insert

def Acyclic : Prop := ∀ name, ¬ TransGen i.Edge name name

/-! ## What the result is -/

def TooDeep (name : String) : Prop :=
  ∃ chain : List String, maxAggregateDepth ≤ chain.length ∧ List.IsChain i.Edge (name :: chain)

def PendingBelow (name : String) : Prop := ∃ below, ReflTransGen i.Edge name below ∧ i.view below = .pending

def leafSequence : (levels : Nat) → String → List String
  | 0, _ => []
  | levels + 1, name =>
    match i.view name with
    | .leaf _ _ => [name]
    | .aggregate _ _ children => children.flatMap (leafSequence levels)
    | _ => []

def noteSequence : (levels : Nat) → String → List String
  | 0, _ => []
  | levels + 1, name =>
    match i.view name with
    | .failed reason => [reason]
    | .aggregate _ note children => note.toList ++ children.flatMap (noteSequence levels)
    | _ => []

def leaves (name : String) : List String := (i.leafSequence maxAggregateDepth name).eraseDups

def notes (name : String) : List String := (i.noteSequence maxAggregateDepth name).eraseDups

def noLeavesMessage (name : String) (notes : List String) : String :=
  let message := "aggregate cluster dependency graph for " ++ name ++ " has no leaf clusters"
  message ++ (joinNotes notes).elim "" (": " ++ ·)

open Classical in
noncomputable def reference (name : String) : Option (ClusterResult V D) :=
  if i.TooDeep name then some (.error DepthExceeded.depthExceeded.toError)
  else if i.PendingBelow name then none
  else
    match i.view name with
    | .pending => none
    | .failed reason => some (.error ⟨reason⟩)
    | .leaf cluster endpoints => some (.ok ⟨cluster, .leaf endpoints⟩)
    | .aggregate cluster _ _ =>
      if i.leaves name = [] then some (.error ⟨noLeavesMessage name (i.notes name)⟩)
      else some (.ok ⟨cluster, .aggregate ⟨i.leaves name, joinNotes (i.notes name)⟩⟩)

theorem reference_eq_none : i.reference name = none ↔ i.PendingBelow name ∧ ¬ i.TooDeep name := by
  unfold reference
  by_cases hd : i.TooDeep name
  · simp [hd]
  by_cases hp : i.PendingBelow name
  · simp [hd, hp]
  rw [if_neg hd, if_neg hp]
  have hv : i.view name ≠ .pending := fun h => hp ⟨name, .refl, h⟩
  cases h : i.view name with
  | pending => exact absurd h hv
  | aggregate cl n c =>
    dsimp only
    split <;> simp [hp]
  | failed | leaf => simp [hp]

theorem noLeavesMessage_ne (n : String) (ns : List String) :
    noLeavesMessage n ns ≠ "aggregate cluster graph exceeds max depth" := by
  unfold noLeavesMessage
  simp only [String.append_assoc]
  generalize n ++ _ = r
  intro h
  -- After the first 18 characters they differ.
  have hl := congrArg (fun s => s.toList.take 19) h
  simp only [String.toList_append] at hl
  rw [List.take_append_of_le_length (by decide)] at hl
  revert hl
  decide

theorem reference_eq_tooDeep (hf : ∀ r, i.view name ≠ .failed r) :
    i.reference name = some (.error DepthExceeded.depthExceeded.toError) ↔ i.TooDeep name := by
  unfold reference
  by_cases hd : i.TooDeep name
  · simp [hd]
  rw [if_neg hd]
  by_cases hp : i.PendingBelow name
  · simp [hd, hp]
  rw [if_neg hp]
  cases h : i.view name with
  | failed r => exact absurd h (hf r)
  | aggregate cl n c =>
    dsimp only
    split <;> simp [hd, DepthExceeded.toError, noLeavesMessage_ne]
  | pending | leaf => simp [hd]

theorem reference_eq_error (hd : ¬ i.TooDeep name) (hp : ¬ i.PendingBelow name) :
    (∃ e, i.reference name = some (.error e)) ↔ i.leaves name = [] := by
  have hv : i.view name ≠ .pending := fun h => hp ⟨name, .refl, h⟩
  rw [reference, if_neg hd, if_neg hp]
  cases h : i.view name with
  | pending => exact absurd h hv
  | aggregate c n ch =>
    by_cases hl : i.leaves name = [] <;> simp [hl]
  | failed r => simp [leaves, leafSequence, maxAggregateDepth, h]
  | leaf c es => simp [leaves, leafSequence, maxAggregateDepth, h, List.eraseDups_cons]

theorem reference_eq_aggregate {c : ClusterResource} {cs : AggregateClusters}
    (h : i.reference name = some (.ok ⟨c, .aggregate cs⟩)) : ¬ i.TooDeep name ∧ cs.leafClusters = i.leaves name := by
  unfold reference at h
  split_ifs at h with hd
  · cases h
  · split at h <;> cases h
  · split at h <;> cases h
    exact ⟨hd, rfl⟩

theorem mem_leafSequence {ls : Nat} {leaf : String}
    (hd : ∀ ch : List String, List.IsChain i.Edge (name :: ch) → ch.length < ls) : leaf ∈ i.leafSequence ls name ↔
      ReflTransGen i.Edge name leaf ∧ ∃ cl endpoints, i.view leaf = .leaf cl endpoints := by
  induction ls generalizing name with
  | zero => exact absurd (hd [] (.singleton name)) (Nat.not_lt_zero 0)
  | succ ls ih =>
    have hb : ∀ c, i.Edge name c → (leaf ∈ i.leafSequence ls c ↔
        ReflTransGen i.Edge c leaf ∧ ∃ cl endpoints, i.view leaf = .leaf cl endpoints) := by
      intro c hc
      apply ih
      intro ch hch
      exact Nat.lt_of_succ_lt_succ (hd (c :: ch) (.cons_cons hc hch))
    rw [ReflTransGen.cases_head_iff, leafSequence]
    unfold Edge children at hb ⊢
    cases hv : i.view name with
    | aggregate cl n cs =>
      rw [hv] at hb
      simp only [List.mem_flatMap]
      constructor
      · rintro ⟨c, hc, hl⟩
        obtain ⟨hr, hlf⟩ := (hb c hc).1 hl
        exact ⟨.inr ⟨c, hc, hr⟩, hlf⟩
      · rintro ⟨rfl | ⟨c, hc, hr⟩, cl, endpoints, hlf⟩
        · cases hv.symm.trans hlf
        · exact ⟨c, hc, (hb c hc).2 ⟨hr, cl, endpoints, hlf⟩⟩
    | leaf cl endpoints =>
      constructor
      · intro hl
        obtain rfl := List.mem_singleton.1 hl
        exact ⟨.inl rfl, cl, endpoints, hv⟩
      · rintro ⟨rfl | ⟨c, hc, -⟩, -⟩
        · exact List.mem_singleton_self _
        · cases hc
    | pending | failed =>
      constructor
      · rintro ⟨⟩
      · rintro ⟨rfl | ⟨c, hc, -⟩, cl, endpoints, hlf⟩
        · cases hv.symm.trans hlf
        · cases hc

theorem mem_leaves {l : String} (hd : ¬ i.TooDeep name) : l ∈ i.leaves name ↔
    ReflTransGen i.Edge name l ∧ ∃ c endpoints, i.view l = .leaf c endpoints := by
  rw [leaves, List.mem_eraseDups]
  apply mem_leafSequence
  intro ch hc
  by_contra hl
  exact hd ⟨ch, Nat.le_of_not_lt hl, hc⟩

/-! ## The walk without its memory -/

def flattenChildren (flatten : String → Except DepthExceeded Visited) :
    Flattening → List String → Except DepthExceeded Flattening
  | f, [] => .ok f
  | f, child :: children =>
    match flatten child with
    | .error e => .error e
    | .ok visited => flattenChildren flatten (f.add visited) children

def flatten : (left : Nat) → String → Except DepthExceeded Visited
  | 0, _ => .error .depthExceeded
  | left + 1, name =>
    match i.view name with
    | .pending => .ok .pending
    | .failed reason => .ok (.noLeaves reason)
    | .leaf _ _ => .ok (.leaf name)
    | .aggregate _ note children => (flattenChildren (flatten left) (.new note) children).map (·.visited)

end WalkInput

def LeafClusters.names : LeafClusters → List String
  | .pending => []
  | .resolved names _ => names

def LeafClusters.result (name : String) (cluster : ClusterResource) : LeafClusters → Option (ClusterResult V D)
  | .pending => none
  | .resolved leaves notes =>
    if leaves = [] then some (.error ⟨WalkInput.noLeavesMessage name notes⟩)
    else some (.ok ⟨cluster, .aggregate ⟨leaves, joinNotes notes⟩⟩)

variable (f : Flattening) (v : Visited)

theorem Flattening.result_eq (n : String) (cluster : ClusterResource) :
    f.result (V := V) (D := D) n cluster = f.visited.leaves.result n cluster := by
  unfold result visited
  cases f.pending
  · cases hl : f.leafClusters <;> rfl
  · rfl

def WalkInput.entry (i : WalkInput V D) (name : String) (visited : Visited) : Option (ClusterResult V D) :=
  match i.view name with
  | .pending => none
  | .failed reason => some (.error ⟨reason⟩)
  | .leaf cluster endpoints => some (.ok ⟨cluster, .leaf endpoints⟩)
  | .aggregate cluster _ _ => visited.leaves.result name cluster

/-! ## One loop over the children -/

@[simp] theorem Flattening.add_height : (f.add v).height = max f.height (v.height + 1) := by
  unfold Flattening.add
  cases v.leaves <;> rfl

theorem Flattening.visited_pending : f.visited.leaves = .pending ↔ f.pending = true := by
  rw [visited]
  cases f.pending <;> simp

theorem Flattening.add_pending : (f.add v).pending = true ↔ f.pending = true ∨ v.leaves = .pending := by
  unfold Flattening.add
  cases v.leaves <;> simp

namespace WalkInput
variable {i : WalkInput V D} {g g' : String → Except DepthExceeded Visited} {f f' : Flattening}
  {cs : List String} {n : Nat} {a : String} {cluster : ClusterResource} {note : Option String} {v : Visited}

theorem flattenChildren_cons {c : String} (h : flattenChildren g f (c :: cs) = .ok f') :
    ∃ v, g c = .ok v ∧ flattenChildren g (f.add v) cs = .ok f' := by
  rw [flattenChildren] at h
  cases hc : g c with
  | error e => rw [hc] at h; cases h
  | ok v => rw [hc] at h; exact ⟨v, rfl, h⟩

section
variable (h : flattenChildren g f cs = .ok f')
include h

theorem flattenChildren_child {c : String} (hc : c ∈ cs) : ∃ v, g c = .ok v := by
  induction cs generalizing f with
  | nil => cases hc
  | cons c' cs ih =>
    obtain ⟨v, hv, h⟩ := flattenChildren_cons h
    rcases List.mem_cons.1 hc with rfl | hc
    · exact ⟨v, hv⟩
    · exact ih h hc

theorem flattenChildren_height_le : f.height ≤ f'.height := by
  induction cs generalizing f with
  | nil => cases h; exact le_rfl
  | cons c cs ih =>
    obtain ⟨v, -, h⟩ := flattenChildren_cons h
    exact le_trans (by simp) (ih h)

theorem flattenChildren_height_lt (hg : ∀ c v, g c = .ok v → v.height < n) (hf : f.height ≤ n) : f'.height ≤ n := by
  induction cs generalizing f with
  | nil => cases h; exact hf
  | cons c cs ih =>
    obtain ⟨v, hv, h⟩ := flattenChildren_cons h
    exact ih h (by simpa using ⟨hf, hg c v hv⟩)

theorem flattenChildren_congr (hg : ∀ c v, g c = .ok v → v.height < f'.height → g' c = .ok v) :
    flattenChildren g' f cs = .ok f' := by
  induction cs generalizing f with
  | nil => exact h
  | cons c cs ih =>
    obtain ⟨v, hv, h⟩ := flattenChildren_cons h
    have hh : v.height < f'.height := by
      have := flattenChildren_height_le h
      rw [add_height] at this
      omega
    rw [flattenChildren, hg c v hv hh]
    exact ih h

end

theorem flattenChildren_error :
    flattenChildren g f cs = .error .depthExceeded ↔ ∃ c ∈ cs, g c = .error .depthExceeded := by
  induction cs generalizing f with
  | nil => simp [flattenChildren]
  | cons c cs ih =>
    rw [flattenChildren]
    cases hc : g c with
    | error e => cases e; simp [hc]
    | ok v => simp [hc, ih]

theorem flattenChildren_pending (h : flattenChildren g f cs = .ok f') :
    f'.pending = true ↔ f.pending = true ∨ ∃ c ∈ cs, ∃ v, g c = .ok v ∧ v.leaves = .pending := by
  induction cs generalizing f with
  | nil => cases h; simp
  | cons c cs ih =>
    obtain ⟨v, hv, h⟩ := flattenChildren_cons h
    rw [ih h, add_pending, or_assoc]
    simp [hv]

theorem flattenChildren_resolved {ls ns : String → List String} (h : flattenChildren g f cs = .ok f')
    (hg : ∀ c ∈ cs, ∀ v, g c = .ok v → v.leaves = .resolved (ls c).eraseDups (ns c).eraseDups) :
    f'.leafClusters = extendNew f.leafClusters (cs.flatMap ls) ∧ f'.notes = extendNew f.notes (cs.flatMap ns) := by
  induction cs generalizing f with
  | nil => cases h; exact ⟨rfl, rfl⟩
  | cons c cs ih =>
    obtain ⟨v, hv, h⟩ := flattenChildren_cons h
    have ha := hg c (.head _) v hv
    obtain ⟨hl, hn⟩ := ih h fun c' hc' => hg c' (.tail _ hc')
    rw [hl, hn]
    unfold Flattening.add
    rw [ha]
    simp only [List.flatMap_cons, extendNew_append, extendNew_eraseDups_right, and_self]

/-! ## The result and its height -/

theorem children_eq (h : i.view a = .aggregate cluster note cs) : i.children a = cs := by rw [children, h]

theorem flatten_succ_aggregate (n : Nat) (hv : i.view a = .aggregate cluster note cs) :
    i.flatten (n + 1) a = (flattenChildren (i.flatten n) (.new note) cs).map (·.visited) := by
  rw [flatten, hv]

theorem flatten_aggregate (hv : i.view a = .aggregate cluster note cs) (h : i.flatten (n + 1) a = .ok v) :
    ∃ f, flattenChildren (i.flatten n) (.new note) cs = .ok f ∧ v = f.visited := by
  rw [flatten_succ_aggregate n hv] at h
  cases hf : flattenChildren (i.flatten n) (.new note) cs with
  | error e => rw [hf] at h; cases h
  | ok f => rw [hf] at h; cases h; exact ⟨f, rfl, rfl⟩

theorem flatten_height (h : i.flatten n a = .ok v) : v.height < n := by
  induction n generalizing a v with
  | zero => cases h
  | succ n ih =>
    cases hv : i.view a with
    | aggregate c note cs =>
      obtain ⟨f, hf, rfl⟩ := flatten_aggregate hv h
      exact Nat.lt_succ_of_le (flattenChildren_height_lt hf (fun _ _ => ih) (Nat.zero_le _))
    | pending | failed | leaf =>
      rw [flatten, hv] at h
      cases h
      exact Nat.succ_pos n

theorem flatten_reuse {m : Nat} (h : i.flatten m a = .ok v) (hn : v.height < n) : i.flatten n a = .ok v := by
  induction n generalizing m a v with
  | zero => omega
  | succ n ih =>
    obtain _ | m := m
    · cases h
    cases hvw : i.view a with
    | aggregate cl note cs =>
      obtain ⟨f, hf, rfl⟩ := flatten_aggregate hvw h
      have hh : f.height < n + 1 := hn
      have hr := flattenChildren_congr hf fun c v hv hlt => ih hv (show v.height < n by omega)
      rw [flatten_succ_aggregate n hvw, hr]
      rfl
    | pending | failed | leaf =>
      rw [flatten, hvw] at h ⊢
      exact h

theorem flatten_mono {m : Nat} (h : i.flatten m a = .ok v) (hmn : m ≤ n) :
    i.flatten n a = .ok v := flatten_reuse h (lt_of_lt_of_le (flatten_height h) hmn)

/-! ## The result and the graph -/

theorem flatten_error_succ :
    i.flatten (n + 1) a = .error .depthExceeded ↔ ∃ c ∈ i.children a, i.flatten n c = .error .depthExceeded := by
  rw [flatten, children]
  cases hv : i.view a with
  | aggregate cl note cs =>
    simp only [← flattenChildren_error (f := .new note)]
    cases flattenChildren (i.flatten n) (.new note) cs <;> simp [Except.map]
  | pending | failed | leaf => simp

theorem flatten_error_iff : i.flatten n a = .error .depthExceeded ↔
    ∃ ch : List String, n ≤ ch.length ∧ List.IsChain i.Edge (a :: ch) := by
  induction n generalizing a with
  | zero => exact ⟨fun _ => ⟨[], le_rfl, .singleton a⟩, fun _ => rfl⟩
  | succ n ih =>
    rw [flatten_error_succ]
    constructor
    · rintro ⟨c, hc, he⟩
      obtain ⟨ch, hl, hch⟩ := ih.1 he
      exact ⟨c :: ch, Nat.succ_le_succ hl, .cons_cons hc hch⟩
    · rintro ⟨_ | ⟨c, ch⟩, hl, hch⟩
      · cases hl
      · obtain ⟨hc, hch⟩ := List.isChain_cons_cons.1 hch
        exact ⟨c, hc, ih.2 ⟨ch, Nat.le_of_succ_le_succ hl, hch⟩⟩

theorem pendingBelow_iff : i.PendingBelow a ↔ i.view a = .pending ∨ ∃ c ∈ i.children a, i.PendingBelow c := by
  constructor
  · rintro ⟨b, hab, hb⟩
    rcases ReflTransGen.cases_head hab with rfl | ⟨c, hac, hcb⟩
    · exact .inl hb
    · exact .inr ⟨c, hac, b, hcb, hb⟩
  · rintro (h | ⟨c, hac, b, hcb, hb⟩)
    · exact ⟨a, .refl, h⟩
    · exact ⟨b, .head hac hcb, hb⟩

theorem flatten_pending (h : i.flatten n a = .ok v) : v.leaves = .pending ↔ i.PendingBelow a := by
  induction n generalizing a v with
  | zero => cases h
  | succ n ih =>
    rw [pendingBelow_iff]
    cases hvw : i.view a with
    | aggregate cl note cs =>
      obtain ⟨f, hf, rfl⟩ := flatten_aggregate hvw h
      rw [children_eq hvw]
      rw [visited_pending, flattenChildren_pending hf]
      constructor
      · rintro (hn | ⟨c, hc, v, hv, hl⟩)
        · cases hn
        · exact .inr ⟨c, hc, (ih hv).1 hl⟩
      · rintro (hnone | ⟨c, hc, hb⟩)
        · cases hnone
        · obtain ⟨v, hv⟩ := flattenChildren_child hf hc
          exact .inr ⟨c, hc, v, hv, (ih hv).2 hb⟩
    | pending | failed | leaf =>
      rw [flatten, hvw] at h
      cases h
      simp [Visited.pending, Visited.noLeaves, Visited.leaf, children, hvw]

theorem flatten_resolved (h : i.flatten n a = .ok v) (ha : ¬ i.PendingBelow a) :
    v.leaves = .resolved (i.leafSequence n a).eraseDups (i.noteSequence n a).eraseDups := by
  induction n generalizing a v with
  | zero => cases h
  | succ n ih =>
    have hpn : v.leaves ≠ .pending := fun hp => ha ((flatten_pending h).1 hp)
    rw [leafSequence, noteSequence]
    cases hvw : i.view a with
    | aggregate cl note cs =>
      obtain ⟨f, hf, rfl⟩ := flatten_aggregate hvw h
      have hb : ∀ c ∈ cs, ¬ i.PendingBelow c := by
        intro c hc hp
        exact ha (pendingBelow_iff.2 (.inr ⟨c, by rwa [children_eq hvw], hp⟩))
      obtain ⟨hl, hn⟩ := flattenChildren_resolved hf fun c hc v hv => ih hv (hb c hc)
      have hnw : note.toList.eraseDups = note.toList := by cases note <;> rfl
      have hr : f.visited.leaves = .resolved f.leafClusters f.notes := by
        rw [visited] at hpn ⊢
        by_cases hp : f.pending = true
        · exact absurd (if_pos hp) hpn
        · exact if_neg hp
      rw [hr, hl, hn, ← extendNew_eraseDups, hnw]
      exact congrArg (LeafClusters.resolved · _) (extendNew_eraseDups [] _)
    | pending | failed | leaf =>
      rw [flatten, hvw] at h
      cases h
      first
      | exact absurd rfl hpn
      | rfl

theorem reference_of_error (h : i.flatten maxAggregateDepth a = .error .depthExceeded) :
    i.reference a = some (.error DepthExceeded.depthExceeded.toError) := if_pos (flatten_error_iff.1 h)

theorem not_tooDeep_of_ok (h : i.flatten maxAggregateDepth a = .ok v) : ¬ i.TooDeep a := by
  intro hd
  rw [flatten_error_iff.2 hd] at h
  cases h

theorem reference_of_ok (h : i.flatten maxAggregateDepth a = .ok v) : i.reference a = i.entry a v := by
  rw [reference, if_neg (not_tooDeep_of_ok h), entry]
  by_cases hp : i.PendingBelow a
  · rw [if_pos hp]
    have hl := (flatten_pending h).2 hp
    rcases pendingBelow_iff.1 hp with hv | ⟨c, hc, -⟩
    · rw [hv]
    · -- Only an aggregate has something below it.
      rw [children] at hc
      cases hv : i.view a with
      | aggregate cl n cs => simp [hl, LeafClusters.result]
      | pending | failed | leaf => simp [hv] at hc
  · rw [if_neg hp]
    cases hv : i.view a with
    | aggregate cl n cs =>
      simp only [flatten_resolved h hp, LeafClusters.result]
      rfl
    | pending | failed | leaf => rfl

end WalkInput

end GrpcXds
