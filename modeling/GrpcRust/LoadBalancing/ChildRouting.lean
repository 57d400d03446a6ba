import GrpcRust.Lib.Transition
import GrpcRust.Lib.Validation
import GrpcRust.LoadBalancing.ChildManager
/-!
# Children and their work items

Handles lead to the children that have them: an update moves those it keeps, and gives others unused handles.
-/

namespace LoadBalancing

open Lib List

variable {T P U C W K K' E : Type}

namespace ChildManager

variable {α β γ : Type} {l' : List β} {R : α → β → Prop} {l : List α} {f : α → γ} {m : ChildManager T P K}

theorem exists_of_forall₂ (h : List.Forall₂ R l l') {b : β} (hb : b ∈ l') : ∃ a ∈ l, R a b := by
  induction h with
  | nil => cases hb
  | cons hr _ ih =>
    rcases List.mem_cons.1 hb with rfl | hb
    · exact ⟨_, mem_cons_self, hr⟩
    · obtain ⟨a, ha, hab⟩ := ih hb
      exact ⟨a, mem_cons_of_mem _ ha, hab⟩

theorem map_eq_map_of_forall₂ {g : β → γ} (h : List.Forall₂ (fun a b => f a = g b) l l') : l.map f = l'.map g := by
  rw [← forall₂_eq_eq_eq, forall₂_map_left_iff, forall₂_map_right_iff]
  exact h

theorem forall₂_through {δ : Type} {S : β × γ → δ → Prop} {l'' : List δ} (h : List.Forall₂ R l l')
    (h' : List.Forall₂ S (l'.zip (l.map f)) l'') :
    List.Forall₂ (fun a d => ∃ b, R a b ∧ S (b, f a) d) l l'' := by
  induction h generalizing l'' with
  | nil =>
    cases h'
    exact .nil
  | cons hr _ ih =>
    cases h' with
    | cons hs hrest => exact .cons ⟨_, hr, hs⟩ (ih hrest)

/-- Each item keeps the child of its identifier and policy name, or gets a new one with the next handle. -/
inductive Placed (children : List (T × Child P K)) :
    Nat → List (T × LbPolicyBuilder P) → List (T × Child P K) → Nat → Prop where
  | nil (n : Nat) : Placed children n [] [] n
  | kept {n n' : Nat} {id : T} {builder : LbPolicyBuilder P} {items : List (T × LbPolicyBuilder P)}
      {placed : List (T × Child P K)} {child : Child P K} (hmem : (id, child) ∈ children)
      (hname : child.name = builder.name) (hrest : Placed children n items placed n') :
      Placed children n ((id, builder) :: items) ((id, child) :: placed) n'
  | fresh {n n' : Nat} {id : T} {builder : LbPolicyBuilder P} {items : List (T × LbPolicyBuilder P)}
      {placed : List (T × Child P K)} (hnone : ∀ child, (id, child) ∈ children → child.name ≠ builder.name)
      (hrest : Placed children (n + 1) items placed n') :
      Placed children n ((id, builder) :: items) ((id, .new builder n) :: placed) n'

section
variable {children placed : List (T × Child P K)} {im : List (T × LbPolicyBuilder P)} {n n' : Nat}

section
variable (h : Placed children n im placed n')
include h

theorem Placed.keys : placed.map (fun c => (c.1, c.2.name)) = im.map fun item => (item.1, item.2.name) := by
  induction h with
  | nil => rfl
  | kept hmem hname hrest ih => rw [map_cons, map_cons, ih, hname]
  | fresh hnone hrest ih => rw [map_cons, map_cons, ih]; rfl

theorem Placed.mem : n ≤ n' ∧ ∀ c ∈ placed, c ∈ children ∨ n ≤ c.2.handle ∧ c.2.handle < n' := by
  induction h with
  | nil => exact ⟨Nat.le_refl _, nofun⟩
  | kept hmem hname hrest ih => exact ⟨ih.1, List.forall_mem_cons.2 ⟨.inl hmem, ih.2⟩⟩
  | @fresh n n' _ _ _ _ hnone hrest ih =>
    obtain ⟨hle, ih⟩ := ih
    refine ⟨by omega, List.forall_mem_cons.2 ⟨.inr ⟨Nat.le_refl n, hle⟩, fun c hc => ?_⟩⟩
    exact (ih c hc).imp_right fun hn => ⟨by omega, hn.2⟩

theorem Placed.each : List.Forall₂ (fun item c => c.1 = item.1 ∧ (c ∈ children ∧ c.2.name = item.2.name ∨
      (∀ ch, (item.1, ch) ∈ children → ch.name ≠ item.2.name) ∧ ∃ hd, n ≤ hd ∧ c.2 = .new item.2 hd))
      im placed := by
  induction h with
  | nil => exact .nil
  | kept hmem hname hrest ih => exact .cons ⟨rfl, .inl ⟨hmem, hname⟩⟩ ih
  | fresh hnone hrest ih =>
    refine .cons ⟨rfl, .inr ⟨hnone, _, Nat.le_refl _, rfl⟩⟩ (ih.imp fun item c hc => ⟨hc.1, hc.2.imp_right ?_⟩)
    rintro ⟨hnone, hd, hle, hn⟩
    exact ⟨hnone, hd, Nat.le_of_succ_le hle, hn⟩

end

theorem Placed.nodup_handles (h : Placed children n im placed n') (hitems : (im.map (·.1)).Nodup)
    (hch : ∀ c ∈ children, ∀ c' ∈ children, c.2.handle = c'.2.handle → c = c')
    (hu : ∀ c ∈ children, c.2.handle < n) : (placed.map fun c => c.2.handle).Nodup := by
  induction h with
  | nil => exact .nil
  | @kept n n' id b im placed ch hmem hname hrest ih =>
    obtain ⟨hid, hitems⟩ := List.nodup_cons.1 hitems
    refine List.nodup_cons.2 ⟨fun hh => ?_, ih hitems hu⟩
    obtain ⟨c, hc, heq⟩ := List.mem_map.1 hh
    rcases hrest.mem.2 c hc with ho | hn
    · obtain rfl := hch c ho (id, ch) hmem heq
      have hk : (id, ch.name) ∈ im.map fun item => (item.1, item.2.name) := hrest.keys ▸ mem_map_of_mem hc
      obtain ⟨item, him, hi⟩ := List.mem_map.1 hk
      exact hid (List.mem_map.2 ⟨item, him, (Prod.mk.inj hi).1⟩)
    · have heq : c.2.handle = ch.handle := heq
      have hlt : ch.handle < n := hu _ hmem
      omega
  | @fresh n n' id b im placed hnone hrest ih =>
    obtain ⟨-, hitems⟩ := List.nodup_cons.1 hitems
    refine List.nodup_cons.2 ⟨fun hh => ?_, ih hitems fun c hc => Nat.lt_succ_of_lt (hu c hc)⟩
    obtain ⟨c, hc, heq⟩ := List.mem_map.1 hh
    have heq : c.2.handle = n := heq
    rcases hrest.mem.2 c hc with ho | hn
    · have := hu c ho
      omega
    · omega

section
variable [DecidableEq T] {r : Reset T P K}

theorem Reset.step_cases (r : Reset T P K) (id : T) (b : LbPolicyBuilder P) :
    (∃ c, r.oldChildren.lookup (b.name, id) = some c ∧ (r.step (id, b)).oldChildren = r.oldChildren.erase (b.name, id) ∧
      (r.step (id, b)).manager.children = r.manager.children ++ [(id, c)] ∧
      (r.step (id, b)).manager.nextHandle = r.manager.nextHandle) ∨
    r.oldChildren.lookup (b.name, id) = none ∧ (r.step (id, b)).oldChildren = r.oldChildren ∧
      (r.step (id, b)).manager.children = r.manager.children ++ [(id, .new b r.manager.nextHandle)] ∧
      (r.step (id, b)).manager.nextHandle = r.manager.nextHandle + 1 := by
  cases hl : r.oldChildren.lookup (b.name, id) with
  | some c => exact .inl ⟨c, rfl, by simp [Reset.step, Reset.take, hl]⟩
  | none => exact .inr ⟨rfl, by simp [Reset.step, Reset.take, hl]⟩

theorem Reset.placed_foldl (im : List (T × LbPolicyBuilder P)) (hitems : (im.map (·.1)).Nodup) (r : Reset T P K)
    (ho : ∀ item ∈ im, ∀ c, r.oldChildren.lookup (item.2.name, item.1) = some c ↔ (item.1, c) ∈ children ∧
      c.name = item.2.name) :
    ∃ p, (im.foldl Reset.step r).manager.children = r.manager.children ++ p ∧
      Placed children r.manager.nextHandle im p (im.foldl Reset.step r).manager.nextHandle := by
  induction im generalizing r with
  | nil => exact ⟨[], (append_nil _).symm, .nil _⟩
  | cons item im ih =>
    obtain ⟨id, b⟩ := item
    obtain ⟨hid, hitems⟩ := List.nodup_cons.1 hitems
    obtain ⟨hi, ho⟩ := List.forall_mem_cons.1 ho
    have hot : ∀ item ∈ im, (item.2.name, item.1) ≠ (b.name, id) :=
      fun item hm heq => hid (List.mem_map.2 ⟨item, hm, (Prod.mk.inj heq).2⟩)
    rcases r.step_cases id b with ⟨c, hl, he, hc, hn⟩ | ⟨hl, he, hc, hn⟩
    · obtain ⟨p, hp, hrest⟩ := ih hitems (r.step (id, b)) fun item hm c' => by
        rw [he, HashMap.lookup_erase_ite, if_neg (hot item hm)]
        exact ho item hm c'
      obtain ⟨hmem, hname⟩ := (hi c).1 hl
      refine ⟨(id, c) :: p, ?_, .kept hmem hname (hn ▸ hrest)⟩
      rw [foldl_cons, hp, hc, append_assoc, singleton_append]
    · obtain ⟨p, hp, hrest⟩ := ih hitems (r.step (id, b)) fun item hm c' => by
        rw [he]
        exact ho item hm c'
      refine ⟨(id, .new b r.manager.nextHandle) :: p, ?_, .fresh (fun c hmem hname => ?_) (hn ▸ hrest)⟩
      · rw [foldl_cons, hp, hc, append_assoc, singleton_append]
      · rw [(hi c).2 ⟨hmem, hname⟩] at hl
        cases hl

def Complete (m : ChildManager T P K) : Prop := ∀ c ∈ m.children, m.handleToChildIdx.lookup c.2.handle ≠ none

theorem Reset.complete_step (h : r.manager.Complete) (item : T × LbPolicyBuilder P) :
    (r.step item).manager.Complete := by
  obtain ⟨hc, hi⟩ := r.take_manager item.1 item.2
  intro c hm
  simp only [Reset.step, hc, hi, HashMap.lookup_insert_ite] at hm ⊢
  split
  · exact Option.some_ne_none _
  · rename_i hne
    rcases List.mem_append.1 hm with hm | hm
    · exact h c hm
    · exact absurd (congrArg (fun c => c.2.handle) (List.mem_singleton.1 hm)) hne

theorem Reset.complete_foldl (im : List (T × LbPolicyBuilder P)) (h : r.manager.Complete) :
    (im.foldl Reset.step r).manager.Complete := by
  induction im generalizing r with
  | nil => exact h
  | cons item im ih => exact ih (Reset.complete_step h item)

theorem placed_resetChildren {m : ChildManager T P K} (hi : (m.children.map (·.1)).Nodup)
    {im : List (T × LbPolicyBuilder P)} (hitems : (im.map (·.1)).Nodup) :
    Placed m.children m.nextHandle im (m.resetChildren im).children (m.resetChildren im).nextHandle ∧
      (m.resetChildren im).Complete := by
  unfold resetChildren
  extract_lets oldChildren r
  have hk : (m.children.map fun c => (c.2.name, c.1)).Nodup := by
    refine List.Nodup.of_map Prod.snd ?_
    rwa [map_map]
  have ho : ∀ item ∈ im, ∀ ch, oldChildren.lookup (item.2.name, item.1) = some ch ↔
      (item.1, ch) ∈ m.children ∧ ch.name = item.2.name := by
    intro item _ ch
    rw [HashMap.lookup_foldl_insert hk]
    simp only [Prod.mk.injEq, AList.lookup_empty, reduceCtorEq, and_false, or_false, Prod.exists]
    constructor
    · rintro ⟨id, ch', hm, ⟨hname, rfl⟩, rfl⟩
      exact ⟨hm, hname⟩
    · rintro ⟨hm, hname⟩
      exact ⟨item.1, ch, hm, ⟨hname, rfl⟩, rfl⟩
  obtain ⟨placed, hp, hrest⟩ := Reset.placed_foldl im hitems
    ⟨oldChildren, { m with handleToChildIdx := ∅, children := [] }⟩ ho
  have hcm : r.manager.Complete := Reset.complete_foldl im fun c hc => by cases hc
  rw [nil_append] at hp
  have hp' : r.manager.children = placed := hp
  split
  · exact ⟨hp' ▸ hrest, hcm⟩
  · exact ⟨hp' ▸ hrest, hcm⟩

end

end

/-! ## The invariant -/

def handles (m : ChildManager T P K) : List Nat := m.children.map fun c => c.2.handle

structure Routed (m : ChildManager T P K) : Prop where
  map : ∀ handle idx, m.handleToChildIdx.lookup handle = some idx ↔ m.handles[idx]? = some handle
  ids : (m.children.map (·.1)).Nodup
  handles : m.handles.Nodup
  used : ∀ handle ∈ m.handles, handle < m.nextHandle

theorem Routed.child_unique (h : m.Routed) {c c' : T × Child P K} (hc : c ∈ m.children)
    (hc' : c' ∈ m.children) (heq : c.2.handle = c'.2.handle) : c = c' :=
  inj_on_of_nodup_map h.handles hc hc' heq

theorem map_of_indexed (hi : m.Indexed) (hc : m.Complete) (hn : m.handles.Nodup) (handle idx : Nat) :
    m.handleToChildIdx.lookup handle = some idx ↔ m.handles[idx]? = some handle := by
  have hg {handle idx : Nat} (hl : m.handleToChildIdx.lookup handle = some idx) : m.handles[idx]? = some handle := by
    obtain ⟨id, ch, hch, rfl⟩ := hi handle idx hl
    rw [ChildManager.handles, getElem?_map, hch]
    rfl
  refine ⟨hg, fun h => ?_⟩
  obtain ⟨c, hm, rfl⟩ := List.mem_map.1 (mem_of_getElem? h)
  obtain ⟨idx', hl⟩ := Option.ne_none_iff_exists'.1 (hc c hm)
  obtain ⟨hlt, -⟩ := List.getElem?_eq_some_iff.1 h
  rw [hl, (getElem?_inj hlt hn).1 (h.trans (hg hl).symm)]

structure Continues (m m' : ChildManager T P K) : Prop where
  children : List.Forall₂ (fun c c' => c'.1 = c.1 ∧ c'.2.name = c.2.name ∧ c'.2.handle = c.2.handle)
    m.children m'.children
  map : m'.handleToChildIdx = m.handleToChildIdx
  nextHandle : m'.nextHandle = m.nextHandle

section
variable {m m' : ChildManager T P K}
  {X : Type} {call : X → Child P K → Except E (Child P K × List (Request K') × Except String Unit)}
  {t : T → String → String} {xs : List X} {children : List (T × Child P K)}

theorem Continues.map_eq (h : m.Continues m') (f : T → String → Nat → α) :
    m'.children.map (fun c => f c.1 c.2.name c.2.handle) = m.children.map fun c => f c.1 c.2.name c.2.handle :=
  (map_eq_map_of_forall₂ (h.children.imp fun c c' hc => by rw [hc.1, hc.2.1, hc.2.2])).symm

theorem Routed.continues (h : m.Routed) (hc : m.Continues m') : m'.Routed := by
  have hh : m'.handles = m.handles := hc.map_eq fun _ _ hn => hn
  have hi : m'.children.map (·.1) = m.children.map (·.1) := hc.map_eq fun id _ _ => id
  refine ⟨?_, hi ▸ h.ids, hh ▸ h.handles, ?_⟩
  · rw [hh, hc.map]
    exact h.map
  · rw [hh, hc.nextHandle]
    exact h.used

theorem Called.continues (h : Called m.children children) :
    m.Continues { m with children := children } :=
  ⟨h.imp fun _ _ hc => ⟨hc.1, hc.2.name, hc.2.handle⟩, rfl, rfl⟩

theorem forChildren_each {children' : List (T × Child P K)} {p : List (Request K')} {errs : List String}
    (hl : children.length = xs.length) (h : forChildren call t children xs = .ok (children', p, errs)) :
    List.Forall₂ (fun c c' => c'.1 = c.1.1 ∧ ∃ p rs, call c.2 c.1.2 = .ok (c'.2, p, rs))
      (children.zip xs) children' := by
  induction children generalizing xs children' p errs with
  | nil =>
    cases h
    exact .nil
  | cons c children ih =>
    cases xs with
    | nil => cases hl
    | cons x xs =>
      obtain ⟨id, ch⟩ := c
      simp only [forChildren, bind, Except.bind] at h
      split at h
      · cases h
      · rename_i r hc
        split at h
        · cases h
        · rename_i r' hrest
          cases h
          exact .cons ⟨rfl, _, _, hc⟩ (ih (Nat.succ.inj hl) hrest)

theorem called_forChildren {ch : List (T × Child P K)} {r : List (T × Child P K) × List (Request K') × List String}
    (hl : ch.length = xs.length) (hcl : ∀ x cl r, call x cl = .ok r → cl.Ran r.1)
    (h : forChildren call t ch xs = .ok r) : Called ch r.1 := by
  have he := forChildren_each hl h
  rw [← map_fst_zip (Nat.le_of_eq hl), Called, forall₂_map_left_iff]
  exact he.imp fun c c' ⟨hid, p, rs, hc⟩ => ⟨hid, hcl _ _ _ hc⟩

section
variable [LbPolicy P U C W K E] {r : ChildManager T P K × List (Request K')} {item : ChildWorkItem W} {c : Child P K}

theorem ran_updateChild {update : Option (U × C)} {child : Child P K}
    {r : Child P K × List (Request K') × Except String Unit}
    (h : (updateChild update child : Except (ChildManagerPanic E) _) = .ok r) : child.Ran r.1 := by
  have ho : Outcome (updateChild update child : Except (ChildManagerPanic E) (_ × List (Request K') × _))
      (fun r => child.Runs r.1 r.2.1 ∧ (False → r.2.2 = .ok ())) ChildManagerPanic.IsChild :=
    outcome_updateChild (Q := fun _ => False) (fun _ _ _ h => h.elim) update child
  exact (ho.ok r h).1.1

theorem ran_exitIdle {r : Child P K × List (Request K')} (h : c.exitIdle = .ok r) : c.Ran r.1 :=
  (c.outcome_exitIdle.ok r h).1

theorem continues_resolverUpdate {update : U} {config : C}
    {r : ChildManager T P K × List (Request K') × Except String Unit}
    (h : m.resolverUpdate update config = .ok r) : m.Continues r.1 := by
  obtain ⟨_, hf, h⟩ := bind_eq_ok.1 h
  cases h
  exact (called_forChildren (by simp) (fun _ _ _ => ran_updateChild) hf).continues

theorem continues_exitIdle (h : m.exitIdle = .ok r) : m.Continues r.1 := by
  obtain ⟨_, hf, h⟩ := bind_eq_ok.1 h
  cases h
  refine (called_forChildren (by simp) (fun _ c r hc => ?_) hf).continues
  cases hi : (c.exitIdle : Except E (_ × List (Request K'))) with
  | error e => rw [hi] at hc; cases hc
  | ok r' =>
    rw [hi] at hc
    cases hc
    exact ran_exitIdle hi

theorem Routed.work_current (h : m.Routed) {idx : Nat} {id : T} (hc : m.children[idx]? = some (id, c))
    (hh : c.handle = item.handle) : (m.work (some item) : Except (ChildManagerPanic E) (_ × List (Request K'))) =
      ((c.workItem item.data).mapError .child).map fun r =>
        ({ m with children := m.children.set idx (id, r.1) }, r.2) := by
  have hl : m.handleToChildIdx.lookup item.handle = some idx := by
    rw [h.map, ChildManager.handles, getElem?_map, hc]
    exact congrArg some hh
  simp only [work, hl, hc]
  cases (c.workItem item.data : Except E (_ × List (Request K'))) <;> rfl

theorem Routed.work_removed (h : m.Routed) (hh : item.handle ∉ m.handles) :
    (m.work (some item) : Except (ChildManagerPanic E) (_ × List (Request K'))) = .ok (m, []) := by
  have hl : m.handleToChildIdx.lookup item.handle = none := by
    cases hl : m.handleToChildIdx.lookup item.handle with
    | none => rfl
    | some idx => exact absurd (mem_of_getElem? ((h.map _ _).1 hl)) hh
  simp only [work, hl]

theorem Routed.continues_work (h : m.Routed) {d : Option (ChildWorkItem W)}
    (hw : m.work d = .ok r) : m.Continues r.1 := by
  cases d with
  | none =>
    cases hw
    exact (Called.refl m.children).continues
  | some item =>
    by_cases hh : item.handle ∈ m.handles
    · obtain ⟨c, hc, hh⟩ := List.mem_map.1 hh
      obtain ⟨idx, hid⟩ := getElem?_of_mem hc
      rw [h.work_current hid hh] at hw
      cases him : (c.2.workItem item.data : Except E (_ × List (Request K'))) with
      | error e => rw [him] at hw; cases hw
      | ok r' =>
        rw [him] at hw
        cases hw
        have hr : c.2.Ran r'.1 := ((c.2.outcome_workItem item.data).ok r' him).1
        refine Called.continues (List.forall₂_iff_get.2 ⟨by simp, fun i hi hi' => ?_⟩)
        simp only [get_eq_getElem, getElem_set]
        split
        · subst idx
          rw [(List.getElem?_eq_some_iff.1 hid).2]
          exact ⟨rfl, hr⟩
        · exact ⟨rfl, .refl _⟩
    · rw [h.work_removed hh] at hw
      cases hw
      exact (Called.refl m.children).continues

theorem continues_childUpdated (m : ChildManager T P K) : m.Continues m.childUpdated.1 := by
  refine ⟨?_, rfl, rfl⟩
  show List.Forall₂ _ m.children (m.children.map fun c => (c.1, c.2.clearUpdated))
  rw [forall₂_map_right_iff]
  exact List.forall₂_same.2 fun _ _ => ⟨rfl, rfl, rfl⟩

/-! ## Updates -/

/-- The child of an item is the one with its identifier and policy name before, or a new one; it has its update. -/
structure RetainedAs (K' : Type) (m : ChildManager T P K) (e : ChildUpdate T P U C) (c' : T × Child P K) : Prop where
  identifier : c'.1 = e.childIdentifier
  name : c'.2.name = e.childPolicyBuilder.name
  retained : (∃ old ∈ m.children, old.2.handle = c'.2.handle) ↔
    ∃ old ∈ m.children, old.1 = e.childIdentifier ∧ old.2.name = e.childPolicyBuilder.name
  instance_of : ∀ old ∈ m.children, old.2.handle = c'.2.handle →
    old.1 = e.childIdentifier ∧ old.2.name = e.childPolicyBuilder.name ∧
      ∃ (passed : List (Request K')) (result : _), updateChild e.childUpdate old.2 = .ok (c'.2, passed, result)
  fresh : (∀ old ∈ m.children, old.2.handle ≠ c'.2.handle) → ∃ handle, m.nextHandle ≤ handle ∧
    ∃ (passed : List (Request K')) (result : _),
      updateChild e.childUpdate (.new e.childPolicyBuilder handle) = .ok (c'.2, passed, result)

theorem retainedAs (h : m.Routed) {e : ChildUpdate T P U C} {c c' : T × Child P K} (hid : c.1 = e.childIdentifier)
    (hc : c ∈ m.children ∧ c.2.name = e.childPolicyBuilder.name ∨
      (∀ ch, (e.childIdentifier, ch) ∈ m.children → ch.name ≠ e.childPolicyBuilder.name) ∧
        ∃ handle, m.nextHandle ≤ handle ∧ c.2 = .new e.childPolicyBuilder handle)
    (hid' : c'.1 = c.1) {p : List (Request K')} {r : Except String Unit}
    (hs : updateChild e.childUpdate c.2 = .ok (c'.2, p, r)) : RetainedAs K' m e c' := by
  have hr : c.2.Ran c'.2 := ran_updateChild hs
  rcases hc with ⟨hmem, hname⟩ | ⟨hnone, handle, hle, hn⟩
  · have hsame : ∀ old ∈ m.children, old.2.handle = c'.2.handle → old = c :=
      fun old ho heq => h.child_unique ho hmem (heq.trans hr.handle)
    refine ⟨hid'.trans hid, hr.name.trans hname, ?_, fun old ho heq => ?_, fun hot => ?_⟩
    · exact ⟨fun _ => ⟨c, hmem, hid, hname⟩, fun _ => ⟨c, hmem, hr.handle.symm⟩⟩
    · rw [hsame old ho heq]
      exact ⟨hid, hname, p, r, hs⟩
    · exact absurd hr.handle.symm (hot c hmem)
  · have hh : c'.2.handle = handle := by rw [hr.handle, hn]; rfl
    have hot : ∀ old ∈ m.children, old.2.handle ≠ c'.2.handle := fun old ho heq => by
      have := h.used _ (mem_map_of_mem (f := fun c => c.2.handle) ho)
      omega
    refine ⟨hid'.trans hid, ?_, ?_, fun old ho heq => absurd heq (hot old ho), fun _ => ?_⟩
    · rw [hr.name, hn]
      rfl
    · refine ⟨fun ⟨old, ho, heq⟩ => absurd heq (hot old ho), fun ⟨old, ho, hod, hon⟩ => ?_⟩
      exact absurd hon (hnone old.2 (hod ▸ ho))
    · exact ⟨handle, hle, p, r, hn ▸ hs⟩

section
variable [DecidableEq T]

theorem Routed.resetChildren (h : m.Routed) {im : List (T × LbPolicyBuilder P)} (hitems : (im.map (·.1)).Nodup) :
    (m.resetChildren im).Routed := by
  obtain ⟨hp, hcm⟩ := placed_resetChildren h.ids hitems
  have hi : (m.resetChildren im).children.map (·.1) = im.map (·.1) := (m.resetChildren_spec im).1
  have hh : (m.resetChildren im).handles.Nodup :=
    hp.nodup_handles hitems (fun c hc c' hc' => h.child_unique hc hc') fun c hc => h.used _ (mem_map_of_mem hc)
  refine ⟨map_of_indexed (m.resetChildren_spec im).2 hcm hh, hi ▸ hitems, hh, ?_⟩
  intro hd hm
  obtain ⟨c, hc, rfl⟩ := List.mem_map.1 hm
  rcases hp.mem.2 c hc with ho | hn
  · exact Nat.lt_of_lt_of_le (h.used _ (mem_map_of_mem ho)) hp.mem.1
  · exact hn.2

/-- An update keeps the invariant; its items and the children are one to one, in this order. -/
theorem Routed.update [Repr T] (h : m.Routed) {childUpdates : List (ChildUpdate T P U C)}
    (hn : (childUpdates.map (·.childIdentifier)).Nodup)
    {r : ChildManager T P K × List (Request K') × Except String Unit} (hok : m.update childUpdates = .ok r) :
    r.1.Routed ∧ m.nextHandle ≤ r.1.nextHandle ∧ List.Forall₂ (RetainedAs K' m) childUpdates r.1.children := by
  have hitems : ((childUpdates.map fun e => (e.childIdentifier, e.childPolicyBuilder)).map (·.1)).Nodup := by
    rwa [map_map]
  obtain ⟨hp, -⟩ := placed_resetChildren h.ids hitems
  have hl : (m.resetChildren (childUpdates.map fun e => (e.childIdentifier, e.childPolicyBuilder))).children.length =
      (childUpdates.map (·.childUpdate)).length := by
    rw [← length_map (f := fun c => (c.1, c.2.name)), hp.keys]
    simp
  obtain ⟨_, hf, hok⟩ := bind_eq_ok.1 hok
  cases hok
  have hcl := called_forChildren hl (fun _ _ _ => ran_updateChild) hf
  refine ⟨(h.resetChildren hitems).continues hcl.continues, hp.mem.1, ?_⟩
  have he := forChildren_each hl hf
  have hi := hp.each
  rw [forall₂_map_left_iff] at hi
  refine (forall₂_through hi he).imp fun e c' ⟨c, hc, hid', passed, result, hs⟩ => ?_
  exact retainedAs h hc.1 hc.2 hid' hs

end

end

end

section
variable [LbPolicy P U C W K E] {m : ChildManager T P K}

theorem Routed.indexed (h : m.Routed) : m.Indexed := by
  intro hn idx hl
  have hg := (h.map hn idx).1 hl
  rw [ChildManager.handles, getElem?_map] at hg
  obtain ⟨c, hc, rfl⟩ := Option.map_eq_some_iff.1 hg
  exact ⟨c.1, c.2, hc, rfl⟩

theorem Routed.outcome_exitIdle (h : m.Routed) :
    Outcome (m.exitIdle : Except _ (_ × List (Request K'))) (fun r => m.Continues r.1 ∧ m.Calls r.1 r.2)
      ChildManagerPanic.IsChild :=
  (ChildManager.outcome_exitIdle h.indexed).eqn.mono (fun _ hr => ⟨continues_exitIdle hr.1, hr.2⟩) fun _ => id

theorem Routed.outcome_work (h : m.Routed) (d : Option (ChildWorkItem W)) :
    Outcome (m.work d : Except _ (_ × List (Request K'))) (fun r => m.Continues r.1 ∧ m.Calls r.1 r.2)
      ChildManagerPanic.IsChild :=
  (ChildManager.outcome_work h.indexed d).eqn.mono (fun _ hr => ⟨h.continues_work hr.1, hr.2⟩) fun _ => id

theorem Routed.outcome_update [DecidableEq T] [Repr T] (h : m.Routed)
    {cs : List (ChildUpdate T P U C)} (hn : (cs.map (·.childIdentifier)).Nodup) :
    Outcome (m.update cs : Except _ (_ × List (Request K') × _))
      (fun r => r.1.Routed ∧ List.Forall₂ (RetainedAs K' m) cs r.1.children ∧
        ∀ rq ∈ r.2.1, rq.picker? = none) ChildManagerPanic.IsChild := by
  refine (ChildManager.outcome_update (Q := fun _ => False) (fun _ _ _ hf => hf.elim) m cs).eqn.mono
    (fun r hr => ?_) fun _ => id
  obtain ⟨hrd, -, hrt⟩ := h.update hn hr.1
  exact ⟨hrd, hrt, hr.2.2.2.1⟩

end

theorem ok_of_toOption {α : Type} {x : Except E α} {a : α} (h : x.toOption = some a) : x = .ok a := by
  cases x with
  | error e => cases h
  | ok b =>
    cases h
    rfl

/-- `m'` comes after `m`: handles that were in use lead to the same children, if to any. -/
structure Later (m m' : ChildManager T P K) : Prop where
  nextHandle : m.nextHandle ≤ m'.nextHandle
  children : ∀ c' ∈ m'.children, c'.2.handle < m.nextHandle →
    ∃ c ∈ m.children, c.2.handle = c'.2.handle ∧ c.1 = c'.1 ∧ c.2.name = c'.2.name

theorem Later.refl (m : ChildManager T P K) : m.Later m := ⟨Nat.le_refl _, fun c hc _ => ⟨c, hc, rfl, rfl, rfl⟩⟩

theorem Later.trans {m' m'' : ChildManager T P K} (h : m.Later m') (h' : m'.Later m'') : m.Later m'' := by
  refine ⟨h.nextHandle.trans h'.nextHandle, fun c'' hc'' hlt => ?_⟩
  obtain ⟨c', hc', hh', hid', hn'⟩ := h'.children c'' hc'' (Nat.lt_of_lt_of_le hlt h.nextHandle)
  obtain ⟨c, hc, hh, hid, hname⟩ := h.children c' hc' (hh' ▸ hlt)
  exact ⟨c, hc, hh.trans hh', hid.trans hid', hname.trans hn'⟩

theorem Continues.later {m' : ChildManager T P K} (h : m.Continues m') : m.Later m' := by
  refine ⟨Nat.le_of_eq h.nextHandle.symm, fun c' hc' _ => ?_⟩
  obtain ⟨c, hc, hid, hname, hh⟩ := exists_of_forall₂ h.children hc'
  exact ⟨c, hc, hh.symm, hid.symm, hname.symm⟩

variable {cs : List (ChildUpdate T P U C)}

theorem identifiers_of_retained [LbPolicy P U C W K E] {m' : ChildManager T P K}
    (h : List.Forall₂ (RetainedAs K' m) cs m'.children) : m'.children.map (·.1) = cs.map (·.childIdentifier) :=
  (map_eq_map_of_forall₂ (h.imp fun _ _ he => he.identifier.symm)).symm

theorem later_of_retained [LbPolicy P U C W K E] {m' : ChildManager T P K}
    (hn : m.nextHandle ≤ m'.nextHandle) (h : List.Forall₂ (RetainedAs K' m) cs m'.children) : m.Later m' := by
  refine ⟨hn, fun c' hc' hlt => ?_⟩
  obtain ⟨e, -, he⟩ := exists_of_forall₂ h hc'
  by_cases ho : ∃ old ∈ m.children, old.2.handle = c'.2.handle
  · obtain ⟨old, hmem, hh⟩ := ho
    obtain ⟨hid, hname, -⟩ := he.instance_of old hmem hh
    exact ⟨old, hmem, hh, hid.trans he.identifier.symm, hname.trans he.name.symm⟩
  · obtain ⟨handle, hle, p, r, hs⟩ := he.fresh fun old hmem heq => ho ⟨old, hmem, heq⟩
    have hh : c'.2.handle = handle := (ran_updateChild hs).handle
    omega

inductive ParentCall (T P U C W : Type) where
  | update (childUpdates : List (ChildUpdate T P U C)) (nodup : (childUpdates.map (·.childIdentifier)).Nodup)
  | resolverUpdate (update : U) (config : C)
  | work (data : Option (ChildWorkItem W))
  | exitIdle
  | childUpdated

structure Managed (T P K : Type) where
  manager : ChildManager T P K
  latest : List T

/-- Work goes to its own child, and the children are those of the latest update. -/
structure Managed.Inv (S : Managed T P K) : Prop where
  routed : S.manager.Routed
  order : S.manager.children.map (·.1) = S.latest

theorem routed_new : (new : ChildManager T P K).Routed :=
  ⟨fun hn idx => by simp [new, handles], nodup_nil, nodup_nil, nofun⟩

theorem Managed.Inv.continues {S : Managed T P K} (h : S.Inv) (hc : S.manager.Continues m) :
    Managed.Inv { S with manager := m } ∧ S.manager.Later m :=
  ⟨⟨h.routed.continues hc, (hc.map_eq fun id _ _ => id).trans h.order⟩, hc.later⟩

section
variable [DecidableEq T] [Repr T] [LbPolicy P U C W K E] {S S' : Managed T P K}

def Managed.call (S : Managed T P K) : ParentCall T P U C W → Except (ChildManagerPanic E) (Managed T P K)
  | .update childUpdates _ => do
    let (manager, (_ : List (Request K)), _) ← S.manager.update childUpdates
    return ⟨manager, childUpdates.map (·.childIdentifier)⟩
  | .resolverUpdate update config => do
    let (manager, (_ : List (Request K)), _) ← S.manager.resolverUpdate update config
    return { S with manager := manager }
  | .work data => do
    let (manager, (_ : List (Request K))) ← S.manager.work data
    return { S with manager := manager }
  | .exitIdle => do
    let (manager, (_ : List (Request K))) ← S.manager.exitIdle
    return { S with manager := manager }
  | .childUpdated => .ok { S with manager := S.manager.childUpdated.1 }

def managing : Transition (Managed T P K) (ParentCall T P U C W) := ⟨⟨.new, []⟩, fun S call => (S.call call).toOption⟩

theorem Managed.Inv.step (h : S.Inv) {c : ParentCall T P U C W} (hok : S.call c = .ok S') :
    S'.Inv ∧ S.manager.Later S'.manager := by
  cases c with
  | update cs n =>
    obtain ⟨r, hr, hok⟩ := bind_eq_ok.1 hok
    cases hok
    obtain ⟨hrd, hn, hrt⟩ := h.routed.update n hr
    refine ⟨⟨hrd, ?_⟩, later_of_retained hn hrt⟩
    exact identifiers_of_retained hrt
  | resolverUpdate update cn =>
    obtain ⟨r, hr, hok⟩ := bind_eq_ok.1 hok
    cases hok
    exact h.continues (continues_resolverUpdate hr)
  | work d =>
    obtain ⟨r, hr, hok⟩ := bind_eq_ok.1 hok
    cases hok
    exact h.continues (h.routed.continues_work hr)
  | exitIdle =>
    obtain ⟨r, hr, hok⟩ := bind_eq_ok.1 hok
    cases hok
    exact h.continues (continues_exitIdle hr)
  | childUpdated =>
    cases hok
    exact h.continues (continues_childUpdated S.manager)

theorem Managed.Inv.reached {S : Managed T P K}
    (h : (managing : Transition (Managed T P K) (ParentCall T P U C W)).Reached S) : S.Inv :=
  h.inv ⟨routed_new, rfl⟩ fun _ _ _ hS _ hs => (hS.step (ok_of_toOption hs)).1

theorem Managed.Inv.later (h : S.Inv) {cs : List (ParentCall T P U C W)}
    (hr : cs.foldlM managing.step S = some S') : S.manager.Later S'.manager := by
  induction cs generalizing S with
  | nil =>
    cases hr
    exact .refl _
  | cons c cs ih =>
    rw [foldlM_cons] at hr
    obtain ⟨S₁, hs, hrest⟩ := Option.bind_eq_some_iff.1 hr
    obtain ⟨h₁, hl⟩ := h.step (ok_of_toOption hs)
    exact hl.trans (ih h₁ hrest)

/-- The map has exactly the children's handles, work goes to the child of its handle, and an update keeps what it
names. -/
theorem work_items_find_their_children (K' : Type) {S : Managed T P K}
    (h : (managing : Transition (Managed T P K) (ParentCall T P U C W)).Reached S) :
    (∀ hd idx, S.manager.handleToChildIdx.lookup hd = some idx ↔ S.manager.handles[idx]? = some hd) ∧
    S.manager.children.map (·.1) = S.latest ∧
    (∀ item : ChildWorkItem W,
      (∀ (idx : Nat) (id : T) (c : Child P K), S.manager.children[idx]? = some (id, c) → c.handle = item.handle →
        (S.manager.work (some item) : Except _ (_ × List (Request K'))) =
          ((c.workItem item.data).mapError .child).map fun r =>
            ({ S.manager with children := S.manager.children.set idx (id, r.1) }, r.2)) ∧
      (item.handle ∉ S.manager.handles →
        (S.manager.work (some item) : Except _ (_ × List (Request K'))) = .ok (S.manager, []))) ∧
    (∀ (cs : List (ChildUpdate T P U C)), (cs.map (·.childIdentifier)).Nodup →
      ∀ r : ChildManager T P K × List (Request K') × Except String Unit, S.manager.update cs = .ok r →
        List.Forall₂ (RetainedAs K' S.manager) cs r.1.children) ∧
    ∀ (cl : List (ParentCall T P U C W)) (S' : Managed T P K), cl.foldlM managing.step S = some S' →
      S.manager.Later S'.manager := by
  have hi := Managed.Inv.reached h
  refine ⟨hi.routed.map, hi.order, fun item => ⟨fun _ _ _ => hi.routed.work_current, hi.routed.work_removed⟩,
    fun cs hn r hok => (hi.routed.update hn hok).2.2, fun cl S' hr => hi.later hr⟩

end

/-- The child of 2 moves to the front, and the child of 1 is removed. -/
theorem work_items_find_their_children_moved : ∃ S : Managed Nat (StubPolicy Unit Unit Nat) Nat,
    S.manager.children.map (·.1) = [2, 3] ∧ S.manager.handleToChildIdx.lookup 1 = some 0 ∧
      (S.manager.work (some ⟨0, none⟩) : Except _ (_ × List (Request Unit))) = .ok (S.manager, []) := by
  let b : LbPolicyBuilder (StubPolicy Unit Unit Nat) := ⟨"stub", fun _ => ⟨fun _ => ([], .ok ()), fun _ => []⟩⟩
  let us (ids : List Nat) : List (ChildUpdate Nat (StubPolicy Unit Unit Nat) Unit Unit) :=
    ids.map fun id => ⟨id, b, some ((), ())⟩
  have h := Transition.reached_of_run (show managing.run
    [.update (us [1, 2]) (by decide), .update (us [2, 3]) (by decide)] = some _ from rfl)
  obtain ⟨hm, ho, hw, -⟩ := work_items_find_their_children Unit h
  exact ⟨_, ho, (hm 1 0).2 rfl, (hw ⟨0, none⟩).2 (by decide)⟩

end ChildManager

end LoadBalancing
