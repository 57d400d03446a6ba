import Mathlib.Data.List.AList
import Mathlib.Data.Finset.Sort
import Mathlib.Data.String.Basic
import Mathlib.Tactic
/-!
# Hash maps and hash sets

A hash map is an `AList`, a hash set a `Finset` or a `HashSet`. What is proved for every `IterOrder` does not depend
on the hasher.
-/

namespace Lib
variable {α : Type} {x : α} {s : Finset α}

abbrev HashMap (K V : Type) := AList (fun _ : K => V)

structure IterOrder where
  entries : {α : Type} → List α → List α
  set : {α : Type} → [LinearOrder α] → Finset α → List α
  entries_perm : ∀ {α : Type} (l : List α), (entries l).Perm l
  set_perm : ∀ {α : Type} [LinearOrder α] (s : Finset α), (set s).Perm (s.sort (· ≤ ·))

def IterOrder.default : IterOrder where
  entries l := l
  set s := s.sort (· ≤ ·)
  entries_perm l := .refl l
  set_perm _ := .refl _

theorem IterOrder.mem_entries (o : IterOrder) {l : List α} : x ∈ o.entries l ↔ x ∈ l :=
  (o.entries_perm l).mem_iff

theorem IterOrder.mem_set (o : IterOrder) [LinearOrder α] : x ∈ o.set s ↔ x ∈ s := by
  rw [(o.set_perm s).mem_iff, Finset.mem_sort]

theorem IterOrder.set_eq_nil (o : IterOrder) [LinearOrder α] (h : o.set s = []) : s = ∅ := by
  refine Finset.eq_empty_of_forall_notMem fun x hx => ?_
  have := o.mem_set.2 hx
  rw [h] at this
  cases this

namespace HashMap
variable {K V W : Type} [DecidableEq K] {m : HashMap K V} {k : K} {v : V} {α : Type} {k' : K}

theorem mem_entries : ⟨k, v⟩ ∈ m.entries ↔ m.lookup k = some v := AList.mem_lookup_iff.symm

theorem mem_iff : k ∈ m ↔ ∃ v, m.lookup k = some v := by rw [← AList.lookup_isSome, Option.isSome_iff_exists]

theorem lookup_insert_ite (m : HashMap K V) (k k' : K) (v : V) :
    (m.insert k v).lookup k' = if k' = k then some v else m.lookup k' := by
  split
  · subst k'; exact AList.lookup_insert m
  · exact AList.lookup_insert_ne ‹_›

theorem lookup_erase_ite (m : HashMap K V) (k k' : K) :
    (m.erase k).lookup k' = if k' = k then none else m.lookup k' := by
  split
  · subst k'; exact AList.lookup_erase k m
  · exact AList.lookup_erase_ne ‹_›

theorem lookup_insert_eq_some {v' : V} : (m.insert k v).lookup k' = some v' ↔
    (k' = k ∧ v = v') ∨ k' ≠ k ∧ m.lookup k' = some v' := by
  rw [lookup_insert_ite]
  split <;> simp [*]

theorem lookup_erase_eq_some : (m.erase k).lookup k' = some v ↔ k' ≠ k ∧ m.lookup k' = some v := by
  rw [lookup_erase_ite]
  split <;> simp [*]

theorem lookup_foldl_insert {f : α → K} {g : α → V} {l : List α} (hl : (l.map f).Nodup) (m : HashMap K V) (k : K)
    (v : V) : (l.foldl (fun m x => m.insert (f x) (g x)) m).lookup k = some v ↔
      (∃ x ∈ l, f x = k ∧ g x = v) ∨ k ∉ l.map f ∧ m.lookup k = some v := by
  induction l generalizing m with
  | nil => simp
  | cons x l ih =>
    obtain ⟨hx, hl⟩ := List.nodup_cons.1 hl
    rw [List.foldl_cons, ih hl, lookup_insert_ite, List.exists_mem_cons_iff]
    by_cases hk : k = f x
    · subst hk
      have hn : ¬ ∃ y ∈ l, f y = f x ∧ g y = v := fun ⟨y, hy, hf, _⟩ => hx (hf ▸ List.mem_map_of_mem hy)
      simp [hx, hn]
    · simp [hk, Ne.symm hk]

def isEmpty (m : HashMap K V) : Bool := m.entries.isEmpty

theorem isEmpty_iff : isEmpty m = true ↔ ∀ k, m.lookup k = none := by
  rw [isEmpty, List.isEmpty_iff]
  constructor
  · intro h k
    rw [AList.lookup_eq_none, AList.mem_keys, AList.keys, h]
    simp [List.keys]
  · intro h
    refine List.eq_nil_iff_forall_not_mem.2 fun e he => ?_
    have := mem_entries.1 (show (⟨e.1, e.2⟩ : Sigma fun _ => V) ∈ m.entries from he)
    rw [h] at this
    cases this

def retain (p : K → V → Bool) (m : HashMap K V) : HashMap K V :=
  ⟨m.entries.filter fun e => p e.1 e.2, m.nodupKeys.sublist List.filter_sublist⟩

theorem lookup_retain (p : K → V → Bool) (m : HashMap K V) (k : K) :
    (retain p m).lookup k = (m.lookup k).filter (p k) := by
  ext v
  rw [← mem_entries, retain, List.mem_filter, mem_entries, Option.filter_eq_some_iff]

theorem mem_retain {p : K → V → Bool} : k ∈ retain p m ↔ ∃ v, m.lookup k = some v ∧ p k v = true := by
  rw [mem_iff]
  simp only [lookup_retain, Option.filter_eq_some_iff]

theorem mem_insert_iff (h : k ∈ m) : k' ∈ m.insert k v ↔ k' ∈ m := by
  rw [AList.mem_insert]
  exact ⟨fun h' => h'.elim (fun he => he ▸ h) id, .inr⟩

theorem filterMap_key {l : List (Sigma fun _ : K => V)} (h : l.NodupKeys) (k : K) (f : V → Option α) :
    l.filterMap (fun e => if e.1 = k then f e.2 else none) = ((l.dlookup k).bind f).toList := by
  induction l with
  | nil => rfl
  | cons e l ih =>
    obtain ⟨hn, hl⟩ := List.nodupKeys_cons.1 h
    obtain ⟨k', v⟩ := e
    by_cases hk : k' = k
    · subst hk
      have hrest : l.filterMap (fun e => if e.1 = k' then f e.2 else none) = [] := by
        rw [ih hl, List.dlookup_eq_none.2 hn]
        rfl
      rw [List.filterMap_cons, hrest, List.dlookup_cons_eq]
      cases hf : f v <;> simp [hf]
    · rw [List.filterMap_cons, List.dlookup_cons_ne _ _ (Ne.symm hk)]
      simp only [hk, if_false]
      exact ih hl

theorem filterMap_entries (o : IterOrder) (m : HashMap K V) (k : K) (f : V → Option α) :
    (o.entries m.entries).filterMap (fun e => if e.1 = k then f e.2 else none) = ((m.lookup k).bind f).toList := by
  have hp := (o.entries_perm m.entries).filterMap fun e => if e.1 = k then f e.2 else none
  rw [filterMap_key m.nodupKeys] at hp
  have hl : m.entries.dlookup k = m.lookup k := rfl
  rw [hl] at hp
  cases hb : (m.lookup k).bind f with
  | none =>
    rw [hb] at hp
    exact List.perm_nil.1 hp
  | some a =>
    rw [hb] at hp
    exact List.perm_singleton.1 hp

theorem countP_value [DecidableEq V] (hk : m.lookup k = some v) (h : ∀ k', m.lookup k' = some v → k' = k) :
    m.entries.countP (·.2 = v) = 1 := by
  have hc : m.entries.countP (·.2 = v) = m.keys.count k := by
    rw [AList.keys, List.keys, List.count, List.countP_map]
    refine List.countP_congr fun e he => ?_
    have hl := mem_entries.1 (show (⟨e.1, e.2⟩ : Sigma fun _ => V) ∈ m.entries from he)
    simp only [decide_eq_true_eq, Function.comp_apply, beq_iff_eq]
    constructor
    · intro hv
      rw [hv] at hl
      exact h _ hl
    · intro hky
      rw [hky, hk] at hl
      exact (Option.some.inj hl).symm
  rw [hc]
  exact List.count_eq_one_of_mem m.keys_nodup (AList.mem_keys.1 (mem_iff.2 ⟨v, hk⟩))

def mapValues (f : V → W) (m : HashMap K V) : HashMap K W :=
  ⟨m.entries.map fun e => ⟨e.1, f e.2⟩, by
    have h : (m.entries.map fun e : (_ : K) × V => (⟨e.1, f e.2⟩ : (_ : K) × W)).keys = m.entries.keys := by
      simp [List.keys, Function.comp_def]
    rw [List.NodupKeys, h]; exact m.nodupKeys⟩

theorem lookup_mapValues (f : V → W) (m : HashMap K V) (k : K) : (mapValues f m).lookup k = (m.lookup k).map f := by
  ext w
  rw [← mem_entries, mapValues, List.mem_map, Option.map_eq_some_iff]
  constructor
  · rintro ⟨⟨k', v⟩, hv, he⟩
    obtain ⟨rfl, rfl⟩ : k' = k ∧ f v = w := by simpa using he
    exact ⟨v, mem_entries.1 hv, rfl⟩
  · rintro ⟨v, hv, rfl⟩
    exact ⟨⟨k, v⟩, mem_entries.2 hv, rfl⟩

end HashMap

/-! ## Hash sets -/

structure HashSet (α : Type) where
  elems : List α
  nodup : elems.Nodup

namespace HashSet
variable {α : Type} {s : HashSet α} {a : α}

instance : Membership α (HashSet α) := ⟨fun s a => a ∈ s.elems⟩

theorem mem_def : a ∈ s ↔ a ∈ s.elems := Iff.rfl

def empty : HashSet α := ⟨[], .nil⟩

@[simp] theorem notMem_empty (a : α) : a ∉ (empty : HashSet α) := List.not_mem_nil

def keys {V : Type} (m : HashMap α V) : HashSet α := ⟨m.keys, m.keys_nodup⟩

@[simp] theorem mem_keys {V : Type} {m : HashMap α V} {k : α} : k ∈ keys m ↔ k ∈ m := AList.mem_keys.symm

variable [DecidableEq α]

instance (a : α) (s : HashSet α) : Decidable (a ∈ s) := inferInstanceAs (Decidable (a ∈ s.elems))

def ofList (l : List α) : HashSet α := ⟨l.dedup, l.nodup_dedup⟩

@[simp] theorem mem_ofList {l : List α} : a ∈ ofList l ↔ a ∈ l := List.mem_dedup

def insert (s : HashSet α) (a : α) : HashSet α := ⟨s.elems.insert a, s.nodup.insert⟩

@[simp] theorem mem_insert {b : α} : b ∈ s.insert a ↔ b = a ∨ b ∈ s := List.mem_insert_iff

def toFinset (s : HashSet α) : Finset α := s.elems.toFinset

@[simp] theorem mem_toFinset : a ∈ s.toFinset ↔ a ∈ s := List.mem_toFinset

def difference (s t : HashSet α) : HashSet α := ⟨s.elems.filter (· ∉ t), s.nodup.filter _⟩

@[simp] theorem mem_difference {t : HashSet α} : a ∈ s.difference t ↔ a ∈ s ∧ a ∉ t := by simp [difference, mem_def]

end HashSet

def IterOrder.elems (o : IterOrder) {α : Type} (s : HashSet α) : List α := o.entries s.elems

@[simp] theorem IterOrder.mem_elems (o : IterOrder) {s : HashSet α} {a : α} : a ∈ o.elems s ↔ a ∈ s := o.mem_entries

end Lib
