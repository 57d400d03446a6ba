import GrpcRust.GrpcXds.Reference
/-!
# The walk records what each root resolves to

The walk shares results and forgets attempts that were too deep. On an acyclic graph this cannot be seen
(`visit_spec`).
-/

namespace GrpcXds

open Lib Relation WalkInput

variable {V D : Type}

abbrev tooDeepEntry : Option (ClusterResult V D) := some (.error DepthExceeded.depthExceeded.toError)

namespace GraphWalker
variable (w : GraphWalker V D) (name a : String)

def markOf : Option Mark := w.marks.lookup a

def config : Option (ClusterResult V D) := w.graph.clusterConfigs.lookup a

def recordSome : Option (ClusterResult V D) → GraphWalker V D
  | none => w
  | some result => w.record name result

@[simp] theorem markOf_record (r : ClusterResult V D) : (w.record name r).markOf a = w.markOf a := rfl

@[simp] theorem config_record (r : ClusterResult V D) :
    (w.record name r).config a = if a = name then some r else w.config a := HashMap.lookup_insert_ite ..

@[simp] theorem markOf_clear : (w.clear name).markOf a = w.markOf a := rfl

@[simp] theorem config_clear : (w.clear name).config a = if a = name then none else w.config a :=
  HashMap.lookup_erase_ite ..

@[simp] theorem markOf_mark (m : Mark) : (w.mark name m).markOf a = if a = name then some m else w.markOf a :=
  HashMap.lookup_insert_ite ..

@[simp] theorem config_mark (m : Mark) : (w.mark name m).config a = w.config a := rfl

@[simp] theorem markOf_unmark : (w.unmark name).markOf a = if a = name then none else w.markOf a :=
  HashMap.lookup_erase_ite ..

@[simp] theorem config_unmark : (w.unmark name).config a = w.config a := rfl

@[simp] theorem markOf_watch (f : RequiredWatches → RequiredWatches) : (w.watch f).markOf a = w.markOf a := rfl

@[simp] theorem config_watch (f : RequiredWatches → RequiredWatches) : (w.watch f).config a = w.config a := rfl

@[simp] theorem markOf_recordSome (r : Option (ClusterResult V D)) : (w.recordSome name r).markOf a = w.markOf a := by
  cases r <;> rfl

@[simp] theorem config_recordSome (r : Option (ClusterResult V D)) :
    (w.recordSome name r).config a = if a = name then r.or (w.config name) else w.config a := by
  cases r with
  | none => by_cases h : a = name <;> simp [recordSome, h]
  | some r => simp [recordSome]

def SameBut (w' : GraphWalker V D) : Prop := ∀ a, a ≠ name → w'.markOf a = w.markOf a ∧ w'.config a = w.config a

def enter : GraphWalker V D := (w.clear name).mark name .onPath

end GraphWalker

open GraphWalker

/-! ## What holds between visits -/

section Invariant
variable (i : WalkInput V D) (w w' : GraphWalker V D)

def LeafDone (leaf : String) : Prop :=
  (∃ cluster endpoints, i.view leaf = .leaf cluster endpoints) ∧ w.markOf leaf = some (.done (.leaf leaf))

structure DoneAs (a : String) (v : Visited) : Prop where
  flatten : i.flatten maxAggregateDepth a = .ok v
  config : w.config a = i.entry a v
  leaves : ∀ leaf ∈ v.leaves.names, LeafDone i w leaf

/-- A mark says what the entry of the cluster is. -/
structure Sound : Prop where
  done : ∀ a v, w.markOf a = some (.done v) → DoneAs i w a v
  rest : ∀ a, w.markOf a = none → w.config a = none ∨ w.config a = tooDeepEntry

structure Extends : Prop where
  onPath : ∀ a, w'.markOf a = some .onPath ↔ w.markOf a = some .onPath
  path : ∀ a, w.markOf a = some .onPath → w'.config a = w.config a
  done : ∀ a v, w.markOf a = some (.done v) → w'.markOf a = some (.done v)
  tooDeep : ∀ a, i.flatten maxAggregateDepth a = .error .depthExceeded → w.config a = tooDeepEntry →
    w'.config a = tooDeepEntry

end Invariant

variable {i : WalkInput V D} {w w' w₂ : GraphWalker V D} {name : String} {leaf : String} {f : Flattening} {n : Nat}
  {cs : List String} {v : Visited}

theorem Extends.refl : Extends i w w := ⟨fun _ => .rfl, fun _ _ => rfl, fun _ _ h => h, fun _ _ h => h⟩

theorem Extends.trans (h : Extends i w w') (h' : Extends i w' w₂) : Extends i w w₂ where
  onPath a := (h'.onPath a).trans (h.onPath a)
  path a ha := (h'.path a ((h.onPath a).2 ha)).trans (h.path a ha)
  done a v ha := h'.done a v (h.done a v ha)
  tooDeep a hd ha := h'.tooDeep a hd (h.tooDeep a hd ha)

theorem LeafDone.extend (h : LeafDone i w leaf) (he : Extends i w w') : LeafDone i w' leaf := ⟨h.1, he.done _ _ h.2⟩

theorem LeafDone.sameBut (h : LeafDone i w leaf) (hsame : w.SameBut name w')
    (hname : ∀ v, w.markOf name ≠ some (.done v)) : LeafDone i w' leaf := by
  have hne : leaf ≠ name := by
    rintro rfl
    exact hname _ h.2
  exact ⟨h.1, (hsame leaf hne).1.trans h.2⟩

theorem Sound.sameBut (h : Sound i w) (hsame : w.SameBut name w') (hname : ∀ v, w.markOf name ≠ some (.done v))
    (hd : ∀ v, w'.markOf name = some (.done v) → DoneAs i w' name v)
    (hrest : w'.markOf name = none → w'.config name = none ∨ w'.config name = tooDeepEntry) : Sound i w' where
  done a v ha := by
    by_cases hne : a = name
    · subst hne
      exact hd v ha
    · have ho := h.done a v ((hsame a hne).1 ▸ ha)
      exact ⟨ho.flatten, (hsame a hne).2.trans ho.config, fun l hl => (ho.leaves l hl).sameBut hsame hname⟩
  rest a ha := by
    by_cases hne : a = name
    · subst hne
      exact hrest ha
    · rw [(hsame a hne).2]
      exact h.rest a ((hsame a hne).1 ▸ ha)

theorem enter_sameBut (w : GraphWalker V D) (n : String) : w.SameBut n (w.enter n) := by
  intro a hne
  simp [enter, hne]

theorem Sound.enter (h : Sound i w) (hname : w.markOf name = none) : Sound i (w.enter name) := by
  refine h.sameBut (enter_sameBut w name) ?_ ?_ ?_ <;> simp [GraphWalker.enter, hname]

theorem Extends.leave (hname : w.markOf name = none) (h : Extends i (w.enter name) w') (hsame : w'.SameBut name w₂)
    (hp : w₂.markOf name ≠ some .onPath)
    (hd : i.flatten maxAggregateDepth name = .error .depthExceeded → w₂.config name = tooDeepEntry) :
    Extends i w w₂ where
  onPath a := by
    by_cases hne : a = name
    · subst hne
      simp [hname, hp]
    · rw [(hsame a hne).1, h.onPath, (enter_sameBut w name a hne).1]
  path a ha := by
    have hne : a ≠ name := by
      rintro rfl
      simp [hname] at ha
    obtain ⟨hm, hc⟩ := enter_sameBut w name a hne
    rw [(hsame a hne).2, h.path a (hm.trans ha), hc]
  done a v ha := by
    have hne : a ≠ name := by
      rintro rfl
      simp [hname] at ha
    rw [(hsame a hne).1]
    exact h.done a v ((enter_sameBut w name a hne).1.trans ha)
  tooDeep a hd' ha := by
    by_cases hne : a = name
    · subst hne
      exact hd hd'
    · rw [(hsame a hne).2]
      exact h.tooDeep a hd' ((enter_sameBut w name a hne).2.trans ha)

/-! ## The children of an aggregate -/

structure Visits (i : WalkInput V D) (n : Nat) (w : GraphWalker V D) (name : String)
    (r : GraphWalker V D × Except DepthExceeded Visited) : Prop where
  result : r.2 = i.flatten n name
  sound : Sound i r.1
  ext : Extends i w r.1
  marked : ∀ v, r.2 = .ok v → r.1.markOf name = some (.done v)
  recorded : 0 < n → i.flatten maxAggregateDepth name = .error .depthExceeded → r.1.config name = tooDeepEntry

def PathTo (i : WalkInput V D) (w : GraphWalker V D) (name : String) : Prop :=
  ∀ p, w.markOf p = some .onPath → TransGen i.Edge p name

/-- The path to a child goes through the aggregate. -/
theorem PathTo.child {c : String} (h : PathTo i w name) (hc : i.Edge name c) (f : RequiredWatches → RequiredWatches) :
    PathTo i ((w.enter name).watch f) c := by
  intro p hp
  by_cases hne : p = name
  · subst hne
    exact .single hc
  · refine (h p ?_).tail hc
    rwa [markOf_watch, (enter_sameBut w name p hne).1] at hp

theorem Flattening.mem_add (h : leaf ∈ (f.add v).leafClusters) : leaf ∈ f.leafClusters ∨ leaf ∈ v.leaves.names := by
  unfold Flattening.add at h
  cases hv : v.leaves with
  | pending => rw [hv] at h; exact .inl h
  | resolved ns nt => rw [hv] at h; exact mem_extendNew.1 h

theorem Flattening.mem_of_mem_visited (h : leaf ∈ f.visited.leaves.names) : leaf ∈ f.leafClusters := by
  unfold Flattening.visited at h
  cases hp : f.pending <;> simp [hp, LeafClusters.names] at h
  exact h

theorem visitChildren_spec (name : String) (ih : ∀ w c, Sound i w → PathTo i w c → Visits i n w c (i.visit n w c))
    (hw : Sound i w) (hpt : ∀ c ∈ cs, PathTo i w c) (hf : ∀ leaf ∈ f.leafClusters, LeafDone i w leaf) :
    ∃ w', Sound i w' ∧ Extends i w w' ∧ ((∃ f', flattenChildren (i.flatten n) f cs = .ok f' ∧
          visitChildren (i.visit n) name w f cs = (w', .ok f') ∧
          ∀ leaf ∈ f'.leafClusters, LeafDone i w' leaf) ∨
        flattenChildren (i.flatten n) f cs = .error .depthExceeded ∧ visitChildren (i.visit n) name w f cs =
            (w'.record name (.error DepthExceeded.depthExceeded.toError), .error .depthExceeded)) := by
  induction cs generalizing w f with
  | nil => exact ⟨w, hw, .refl, .inl ⟨f, rfl, rfl, hf⟩⟩
  | cons c cs ihcs =>
    have hv := ih w c hw (hpt c (.head _))
    rw [flattenChildren, visitChildren]
    rcases hr : i.visit n w c with ⟨w₁, r⟩
    rw [hr] at hv
    have hrs : r = i.flatten n c := hv.result
    cases r with
    | error e =>
      cases e
      rw [← hrs]
      exact ⟨w₁, hv.sound, hv.ext, .inr ⟨rfl, rfl⟩⟩
    | ok v =>
      rw [← hrs]
      have ha : ∀ leaf ∈ (f.add v).leafClusters, LeafDone i w₁ leaf := by
        intro leaf hl
        rcases Flattening.mem_add hl with hl | hl
        · exact (hf leaf hl).extend hv.ext
        · exact (hv.sound.done c v (hv.marked v rfl)).leaves leaf hl
      have hpt' : ∀ c' ∈ cs, PathTo i w₁ c' := fun c' hc' p hp => hpt c' (.tail _ hc') p ((hv.ext.onPath p).1 hp)
      obtain ⟨w', hs, he, hend⟩ := ihcs hv.sound hpt' ha
      exact ⟨w', hs, hv.ext.trans he, hend⟩

theorem aggregate_of_ok {v : GraphWalker V D → String → GraphWalker V D × Except DepthExceeded Visited}
    {c : ClusterResource} {n : Option String} (h : visitChildren v name w (.new n) cs = (w', .ok f)) :
    aggregate v w name c n cs = (w'.recordSome name (f.visited.leaves.result name c), .ok f.visited) := by
  rw [aggregate, h, ← Flattening.result_eq]
  dsimp only
  cases f.result (V := V) (D := D) name c <;> rfl

/-! ## A visit -/

theorem leaf_cases {α : Type} (i : WalkInput V D) (c : ClusterResource) (cn : Option String)
    (es : Option (WatchState α)) (t : α → LeafEndpointSource V D) :
    (i.leafView c cn es t = .pending ∧ ∀ w n, i.leaf w n c cn es t = (w, .pending)) ∨
      ∃ e, i.leafView c cn es t = .leaf c e ∧
        ∀ w n, i.leaf w n c cn es t = (w.record n (.ok ⟨c, .leaf e⟩), .leaf n) := by
  rcases es with _ | _ | _ | _
  · exact .inl ⟨rfl, fun _ _ => rfl⟩
  · exact .inl ⟨rfl, fun _ _ => rfl⟩
  · exact .inr ⟨_, rfl, fun _ _ => rfl⟩
  · exact .inr ⟨_, rfl, fun _ _ => rfl⟩

theorem visitUncached_eq (v : GraphWalker V D → String → GraphWalker V D × Except DepthExceeded Visited)
    (w : GraphWalker V D) (n : String) : i.visitUncached v w n =
      match i.view n with
      | .pending => (w.watch (i.ownWatches n), .ok .pending)
      | .failed reason => ((w.watch (i.ownWatches n)).record n (.error ⟨reason⟩), .ok (.noLeaves reason))
      | .leaf c es => ((w.watch (i.ownWatches n)).record n (.ok ⟨c, .leaf es⟩), .ok (.leaf n))
      | .aggregate c note children =>
        aggregate v (w.watch (i.ownWatches n)) n c note children := by
  unfold visitUncached WalkInput.view ownWatches edsService dnsTarget
  rcases i.cache.clusters.lookup n with _ | _ | ⟨⟨id, d⟩, note⟩ | reason
  · rfl
  · rfl
  · dsimp only
    cases d with
    | eds s =>
      rcases leaf_cases i ⟨id, .eds s⟩ note (i.cache.endpoints.lookup s) .eds with ⟨hv, hl⟩ | ⟨e, hv, hl⟩
      · simp only [hv, hl]
        rfl
      · simp only [hv, hl]
        rfl
    | logicalDns hs p =>
      rcases leaf_cases i ⟨id, .logicalDns hs p⟩ note (i.cache.dns.lookup ⟨hs, p⟩) .logicalDns with
        ⟨hv, hl⟩ | ⟨e, hv, hl⟩
      · simp only [hv, hl]
        rfl
      · simp only [hv, hl]
        rfl
    | aggregate children => rfl
  · rfl

theorem Sound.watch (h : Sound i w) (f : RequiredWatches → RequiredWatches) : Sound i (w.watch f) where
  done a v ha := ⟨(h.done a v ha).flatten, (h.done a v ha).config, (h.done a v ha).leaves⟩
  rest := h.rest

theorem Extends.watch (w : GraphWalker V D) (f : RequiredWatches → RequiredWatches) : Extends i w (w.watch f) :=
  ⟨fun _ => .rfl, fun _ _ => rfl, fun _ _ h => h, fun _ _ h => h⟩

theorem visitUncached_spec (ih : ∀ w c, Sound i w → PathTo i w c → Visits i n w c (i.visit n w c)) (hw : Sound i w)
    (hname : w.markOf name = none) (hph : PathTo i w name) : ∃ w', Sound i w' ∧ Extends i (w.enter name) w' ∧
      ((∃ v, i.flatten (n + 1) name = .ok v ∧
          i.visitUncached (i.visit n) (w.enter name) name = (w'.recordSome name (i.entry name v), .ok v) ∧
          ∀ leaf ∈ v.leaves.names, LeafDone i (w'.mark name (.done v)) leaf) ∨
        i.flatten (n + 1) name = .error .depthExceeded ∧ i.visitUncached (i.visit n) (w.enter name) name =
            (w'.record name (.error DepthExceeded.depthExceeded.toError), .error .depthExceeded)) := by
  have heq := visitUncached_eq (i := i) (i.visit n) (w.enter name) name
  have hin : Sound i ((w.enter name).watch (i.ownWatches name)) := (hw.enter hname).watch _
  have he : Extends i (w.enter name) ((w.enter name).watch (i.ownWatches name)) := .watch _ _
  cases hv : i.view name with
  | pending =>
    simp only [hv] at heq
    refine ⟨_, hin, he, .inl ⟨.pending, by rw [flatten, hv], ?_, ?_⟩⟩
    · rw [heq, WalkInput.entry, hv]
      rfl
    · simp [Visited.pending, LeafClusters.names]
  | failed r =>
    simp only [hv] at heq
    refine ⟨_, hin, he, .inl ⟨.noLeaves r, by rw [flatten, hv], ?_, ?_⟩⟩
    · rw [heq, WalkInput.entry, hv]
      rfl
    · simp [Visited.noLeaves, LeafClusters.names]
  | leaf cl es =>
    simp only [hv] at heq
    refine ⟨_, hin, he, .inl ⟨.leaf name, by rw [flatten, hv], ?_, ?_⟩⟩
    · rw [heq, WalkInput.entry, hv]
      rfl
    · intro l hl
      obtain rfl : l = name := by simpa [Visited.leaf, LeafClusters.names] using hl
      exact ⟨⟨cl, es, hv⟩, by simp⟩
  | aggregate cl note cs =>
    simp only [hv] at heq
    rw [heq, flatten_succ_aggregate n hv]
    have hpt : ∀ c ∈ cs, PathTo i ((w.enter name).watch (i.ownWatches name)) c := fun c hc =>
      hph.child (by rwa [Edge, children_eq hv]) _
    obtain ⟨w', hs, he', hend⟩ := visitChildren_spec name (f := .new note) ih hin hpt
      (by simp [Flattening.new])
    have hon : w'.markOf name = some .onPath := (he'.onPath name).2 (by simp [GraphWalker.enter])
    refine ⟨w', hs, he.trans he', ?_⟩
    rcases hend with ⟨f, hf, hlp, hlv⟩ | ⟨hf, hlp⟩
    · refine .inl ⟨f.visited, by rw [hf]; rfl, ?_, ?_⟩
      · rw [aggregate_of_ok hlp, WalkInput.entry, hv]
      · intro l hl
        have hsame : w'.SameBut name (w'.mark name (.done f.visited)) := fun a hne => by simp [hne]
        exact (hlv l (Flattening.mem_of_mem_visited hl)).sameBut hsame (by simp [hon])
    · exact .inr ⟨by rw [hf]; rfl, by rw [aggregate, hlp]⟩

theorem visit_done (hn : n + 1 ≤ maxAggregateDepth) (hw : Sound i w)
    (hm : w.markOf name = some (.done v)) : Visits i (n + 1) w name (i.visit (n + 1) w name) := by
  have hd := (hw.done name v hm).flatten
  have hl : w.marks.lookup name = some (.done v) := hm
  have hdp : i.flatten maxAggregateDepth name ≠ .error .depthExceeded := by simp [hd]
  rw [WalkInput.visit, hl]
  dsimp only
  by_cases hh : n + 1 ≤ v.height
  · rw [if_pos hh]
    -- A result on this path would be the same one.
    have he : i.flatten (n + 1) name = .error .depthExceeded := by
      cases hr : i.flatten (n + 1) name with
      | error e => cases e; rfl
      | ok v' =>
        obtain rfl : v' = v := by simpa [hd] using (flatten_mono hr hn).symm
        have := flatten_height hr
        omega
    exact ⟨he.symm, hw, .refl, fun v hv => (by cases hv), fun _ h => absurd h hdp⟩
  · rw [if_neg hh]
    have hrs := flatten_reuse hd (Nat.lt_of_not_le hh)
    exact ⟨hrs.symm, hw, .refl, fun v' hv' => (by cases hv'; exact hm), fun _ h => absurd h hdp⟩

theorem visit_new (hn : n + 1 ≤ maxAggregateDepth)
    (ih : ∀ w c, Sound i w → PathTo i w c → Visits i n w c (i.visit n w c)) (hw : Sound i w)
    (hm : w.markOf name = none) (hp : PathTo i w name) : Visits i (n + 1) w name (i.visit (n + 1) w name) := by
  have hlk : w.marks.lookup name = none := hm
  obtain ⟨w', hs, he, hend⟩ := visitUncached_spec ih hw hm hp
  have hon : w'.markOf name = some .onPath := (he.onPath name).2 (by simp [GraphWalker.enter])
  have hnt : ∀ v, w'.markOf name ≠ some (.done v) := by simp [hon]
  have hc : w'.config name = none := by
    rw [he.path name (by simp [GraphWalker.enter])]
    simp [GraphWalker.enter]
  rw [WalkInput.visit, hlk]
  rw [← GraphWalker.enter]
  rcases hend with ⟨v, hf, heq, hlv⟩ | ⟨hf, heq⟩
  · rw [heq]
    have hfl := flatten_mono hf hn
    have hd : i.flatten maxAggregateDepth name ≠ .error .depthExceeded := by simp [hfl]
    have hsame : w'.SameBut name ((w'.recordSome name (i.entry name v)).mark name (.done v)) := by
      intro a hne
      simp [hne]
    refine ⟨hf.symm, ?_, ?_, ?_, fun _ h => absurd h hd⟩
    · refine hs.sameBut hsame hnt (fun v' hv' => ?_) (by simp)
      obtain rfl : v = v' := by simpa using hv'
      refine ⟨hfl, by simp [hc], fun l hl => ?_⟩
      exact ⟨(hlv l hl).1, by simpa using (hlv l hl).2⟩
    · exact .leave hm he hsame (by simp) fun h => absurd h hd
    · intro v' hv'
      cases hv'
      simp
  · rw [heq]
    have hsame : w'.SameBut name
        ((w'.record name (.error DepthExceeded.depthExceeded.toError)).unmark name) := by
      intro a hne
      simp [hne]
    refine ⟨hf.symm, ?_, ?_, fun v hv => (by cases hv), fun _ _ => (by simp)⟩
    · exact hs.sameBut hsame hnt (by simp) (by simp)
    · exact .leave hm he hsame (by simp) (by simp)

/-- Every visit returns what the cached resources say. The induction is on the levels that are left. -/
theorem visit_spec (ha : i.Acyclic) (hn : n ≤ maxAggregateDepth) :
    ∀ w name, Sound i w → PathTo i w name → Visits i n w name (i.visit n w name) := by
  induction n with
  | zero => exact fun w name hw _ => ⟨rfl, hw, .refl, fun v hv => (by cases hv), fun h => absurd h (lt_irrefl 0)⟩
  | succ n ih =>
    intro w name hw hp
    cases hm : w.markOf name with
    | none => exact visit_new hn (ih (Nat.le_of_succ_le hn)) hw hm hp
    | some m =>
      cases m with
      | onPath => exact absurd (hp name hm) (ha name)
      | done v => exact visit_done hn hw hm

/-! ## The whole walk -/

theorem sound_new : Sound i ⟨∅, .default⟩ where
  done a v ha := by
    have hnone : (none : Option Mark) = some (.done v) := ha
    cases hnone
  rest a _ := .inl rfl

theorem Extends.config_eq_reference {r : GraphWalker V D × Except DepthExceeded Visited} (he : Extends i r.1 w')
    (hv : Visits i maxAggregateDepth w name r) (hw' : Sound i w') : w'.config name = i.reference name := by
  cases hf : i.flatten maxAggregateDepth name with
  | error e =>
    cases e
    rw [reference_of_error hf]
    exact he.tooDeep name hf (hv.recorded (Nat.succ_pos _) hf)
  | ok v =>
    have hm := he.done name v (hv.marked v (hv.result.trans hf))
    rw [reference_of_ok hf]
    exact (hw'.done name v hm).config

theorem visitRoots_spec (ha : i.Acyclic) (rs : List String) (hw : Sound i w) (hpt : ∀ p, w.markOf p ≠ some .onPath) :
    ∃ w', rs.foldl (fun w root => (i.visit maxAggregateDepth w root).1) w = w' ∧ Sound i w' ∧ Extends i w w' ∧
      ∀ root ∈ rs, w'.config root = i.reference root := by
  induction rs generalizing w with
  | nil => exact ⟨w, rfl, hw, .refl, fun _ h => (by cases h)⟩
  | cons root rs ih =>
    have hv := visit_spec ha le_rfl w root hw fun p hp => absurd hp (hpt p)
    obtain ⟨w', hf, hs, he, hrt⟩ := ih hv.sound fun p hp => hpt p ((hv.ext.onPath p).1 hp)
    refine ⟨w', hf, hs, hv.ext.trans he, ?_⟩
    intro r hr
    rcases List.mem_cons.1 hr with rfl | hr
    · exact he.config_eq_reference hv hs
    · exact hrt r hr

theorem Sound.leaf_entry (h : Sound i w) (hp : ∀ p, w.markOf p ≠ some .onPath) {cl : ClusterResource}
    {cs : AggregateClusters} (hcn : w.config name = some (.ok ⟨cl, .aggregate cs⟩)) :
    ∀ leaf ∈ cs.leafClusters, ∃ cn, w.config leaf = some (.ok cn) := by
  have hd : ∃ v, w.markOf name = some (.done v) := by
    cases hm : w.markOf name with
    | none => rcases h.rest name hm with hc | hc <;> simp [hc] at hcn
    | some m =>
      cases m with
      | onPath => exact absurd hm (hp name)
      | done v => exact ⟨v, rfl⟩
  obtain ⟨v, hm⟩ := hd
  obtain ⟨-, he, hlv⟩ := h.done name v hm
  rw [hcn, WalkInput.entry] at he
  have hn : cs.leafClusters = v.leaves.names := by
    cases hvw : i.view name with
    | aggregate cl' n ch =>
      rw [hvw] at he
      cases hv : v.leaves with
      | pending => simp [hv, LeafClusters.result] at he
      | resolved ns nt =>
        by_cases hempty : ns = []
        · simp [hv, LeafClusters.result, hempty] at he
        · simp only [hv, LeafClusters.result, if_neg hempty, Option.some.injEq, Except.ok.injEq,
            ClusterConfig.mk.injEq, ClusterChildren.aggregate.injEq] at he
          rw [he.2]
          rfl
    | pending | failed | leaf => simp [hvw] at he
  intro leaf hl
  obtain ⟨⟨c, e, hvw⟩, hm⟩ := hlv leaf (hn ▸ hl)
  have hcn := (h.done leaf _ hm).config
  rw [WalkInput.entry, hvw] at hcn
  exact ⟨_, hcn⟩

theorem walk_spec {cache : CachedResources V D} (roots : List String) {baseNotes : List String} {nodeId : Option String}
    (ha : (WalkInput.new cache baseNotes nodeId).Acyclic) :
    let i := WalkInput.new cache baseNotes nodeId
    ∃ w, (∀ a, (walk cache roots baseNotes nodeId).clusterConfigs.lookup a = w.config a) ∧ Sound i w ∧
      (∀ p, w.markOf p ≠ some .onPath) ∧ ∀ root ∈ roots, w.config root = i.reference root := by
  have h₀ : ∀ p, GraphWalker.markOf (⟨∅, .default⟩ : GraphWalker V D) p ≠ some .onPath := nofun
  obtain ⟨w, rfl, hs, he, hr⟩ := visitRoots_spec ha (roots.toFinset.sort (· ≤ ·)) sound_new h₀
  exact ⟨_, fun _ => rfl, hs, fun p hp => h₀ p ((he.onPath p).1 hp), fun root h => hr root (by simpa using h)⟩

/-- What the walk records for a root is what the root resolves to by itself, whatever the other roots are. -/
theorem walk_eq_reference (cache : CachedResources V D) (roots baseNotes : List String) (nodeId : Option String)
    (hacyclic : (WalkInput.new cache baseNotes nodeId).Acyclic) :
    let i := WalkInput.new cache baseNotes nodeId
    let cs := (walk cache roots baseNotes nodeId).clusterConfigs
    (∀ root ∈ roots, cs.lookup root = i.reference root ∧
      (cs.lookup root = none ↔ i.PendingBelow root ∧ ¬ i.TooDeep root) ∧
      ((∀ r, i.view root ≠ .failed r) → (cs.lookup root = tooDeepEntry ↔ i.TooDeep root)) ∧
      (¬ i.TooDeep root → ¬ i.PendingBelow root → ((∃ e, cs.lookup root = some (.error e)) ↔ i.leaves root = []))) ∧
    ∀ n ct cl, cs.lookup n = some (.ok ⟨ct, .aggregate cl⟩) →
      ∀ l ∈ cl.leafClusters, ∃ c, cs.lookup l = some (.ok c) := by
  intro i cs
  obtain ⟨w, hc, hs, hpt, hr⟩ := walk_spec roots hacyclic
  constructor
  · intro root hrt
    have heq : cs.lookup root = i.reference root := (hc root).trans (hr root hrt)
    rw [heq]
    exact ⟨rfl, i.reference_eq_none, i.reference_eq_tooDeep, i.reference_eq_error⟩
  · intro n ct cl he l hl
    rw [hc] at he
    obtain ⟨c, hcn⟩ := hs.leaf_entry hpt he l hl
    exact ⟨c, (hc l).trans hcn⟩

/-- The leaf clusters of an aggregate root are those it reaches, each once. -/
theorem aggregate_root_has_leaves (cache : CachedResources V D) (roots baseNotes : List String) (nodeId : Option String)
    (hacyclic : (WalkInput.new cache baseNotes nodeId).Acyclic) :
    let i := WalkInput.new cache baseNotes nodeId
    ∀ root ∈ roots, ∀ c cs,
      (walk cache roots baseNotes nodeId).clusterConfigs.lookup root = some (.ok ⟨c, .aggregate cs⟩) →
      cs.leafClusters.Nodup ∧ ∀ l, l ∈ cs.leafClusters ↔
        ReflTransGen i.Edge root l ∧ ∃ c endpoints, i.view l = .leaf c endpoints := by
  intro i root hrt c cs h
  obtain ⟨w, hc, -, -, hr⟩ := walk_spec roots hacyclic
  rw [hc, hr root hrt] at h
  obtain ⟨hd, hl⟩ := i.reference_eq_aggregate h
  rw [hl]
  exact ⟨nodup_eraseDups _, fun _ => i.mem_leaves hd⟩

def failedChildCache : CachedResources Unit Unit where
  clusters := ((AList.insert "failed" (.failed "no such cluster") ∅).insert "leaf"
    (.ready ⟨"leaf", .eds "service"⟩ none)).insert "aggregate"
      (.ready ⟨"aggregate", .aggregate ["failed", "leaf", "leaf"]⟩ none)
  endpoints := AList.insert "service" (.ready () none) ∅
  dns := ∅

theorem failedChildCache_acyclic : (WalkInput.new failedChildCache [] none).Acyclic := by
  have he : ∀ a b, (WalkInput.new failedChildCache [] none).Edge a b →
      a = "aggregate" ∧ (b = "failed" ∨ b = "leaf") := by
    intro a b h
    by_cases ha : a = "aggregate"
    · subst ha
      have hb : b ∈ ["failed", "leaf", "leaf"] := h
      exact ⟨rfl, by simpa using hb⟩
    · exfalso
      rw [Edge, children, WalkInput.view] at h
      by_cases hl : a = "leaf"
      · subst hl
        cases h
      · by_cases hf : a = "failed"
        · subst hf
          cases h
        · have hnone : (WalkInput.new failedChildCache [] none).cache.clusters.lookup a = none :=
            (AList.lookup_insert_ne ha).trans ((AList.lookup_insert_ne hl).trans (AList.lookup_insert_ne hf))
          simp [hnone] at h
  intro n hc
  obtain ⟨c, hh, -⟩ := TransGen.head'_iff.1 hc
  obtain ⟨b, -, ht⟩ := TransGen.tail'_iff.1 hc
  rcases he _ _ ht with ⟨-, h | h⟩ <;>
  · rw [(he _ _ hh).1] at h
    revert h
    decide

theorem walk_eq_reference_failed_child :
    let i := WalkInput.new failedChildCache [] none
    (walk failedChildCache ["leaf", "aggregate"] [] none).clusterConfigs.lookup "aggregate" =
      i.reference "aggregate" ∧ i.leaves "aggregate" = ["leaf"] ∧ i.notes "aggregate" = ["no such cluster"] :=
  ⟨((walk_eq_reference _ ["leaf", "aggregate"] _ _ failedChildCache_acyclic).1 "aggregate" (by decide)).1, by decide,
    by decide⟩

theorem aggregate_root_has_leaves_failed_child :
    ReflTransGen (WalkInput.new failedChildCache [] none).Edge "aggregate" "leaf" := by
  have hs : ["aggregate"].toFinset.sort (· ≤ ·) = ["aggregate"] := by simp
  have h := aggregate_root_has_leaves failedChildCache ["aggregate"] [] none failedChildCache_acyclic "aggregate"
    (by decide) ⟨"aggregate", .aggregate ["failed", "leaf", "leaf"]⟩ ⟨["leaf"], some "no such cluster"⟩
    (by rw [walk, hs]; rfl)
  exact ((h.2 "leaf").1 (by decide)).1

end GrpcXds
