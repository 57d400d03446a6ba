import Mathlib.Data.List.Sigma
import Mathlib.Data.List.TakeWhile
import Mathlib.Tactic
/-!
# Attributes

The persistent list of `attributes.rs`. The newest node is the first, and the address of a node is the number of older
ones.
-/

namespace Attributes

open List

variable {T : Type} {V : T → Type}

structure Node (V : T → Type) where
  value : Sigma V
  next : Option Nat

def walk : List (Node V) → Option Nat → List (Node V)
  | [], _ => []
  | _ :: _, none => []
  | n :: older, some a => if a = older.length then n :: walk older n.next else walk older (some a)

def values (heap : List (Node V)) (head : Option Nat) : List (Sigma V) := (walk heap head).map (·.value)

def alloc (value : Sigma V) (s : List (Node V) × Option Nat) : List (Node V) × Option Nat :=
  (⟨value, s.2⟩ :: s.1, some s.1.length)

section
variable [LinearOrder T]

def get (heap : List (Node V)) (head : Option Nat) (t : T) : Option (V t) := (values heap head).dlookup t

/-- The oldest node of the type is the first from the end. Newer nodes are rebuilt on the one after it. -/
def remove (t : T) (s : List (Node V) × Option Nat) : List (Node V) × Option Nat :=
  match (walk s.1 s.2).reverse.dropWhile (·.value.1 ≠ t) with
  | [] => s
  | oldest :: newer =>
    (newer.filter (·.value.1 ≠ t)).foldl (fun s original => alloc original.value s) (s.1, oldest.next)

def iter (seen : List T) : List (Sigma V) → List (Sigma V)
  | [] => []
  | v :: rest => if v.1 ∈ seen then iter seen rest else v :: iter (v.1 :: seen) rest

def collect (values : List (Sigma V)) : List (Sigma V) := (iter [] values).mergeSort (·.1 ≤ ·.1)

def eq [∀ t, DecidableEq (V t)] (values values' : List (Sigma V)) : Bool :=
  (collect values).length == (collect values').length &&
    ((collect values).zip (collect values')).all fun (a, b) => a = b

/-! ## Programs -/

inductive Op (V : T → Type)
  | new
  | add (i : Nat) (value : Sigma V)
  | remove (i : Nat) (t : T)

structure Store (V : T → Type) where
  heap : List (Node V)
  heads : List (Option Nat)

def Store.push (s : Store V) (r : List (Node V) × Option Nat) : Store V := ⟨r.1, s.heads ++ [r.2]⟩

def Store.step (s : Store V) : Op V → Store V
  | .new => s.push (s.heap, none)
  | .add i value => (s.heads[i]?).elim s fun head => s.push (alloc value (s.heap, head))
  | .remove i t => (s.heads[i]?).elim s fun head => s.push (remove t (s.heap, head))

def run (ops : List (Op V)) : Store V := ops.foldl Store.step ⟨[], []⟩

abbrev Map (V : T → Type) : Type := (t : T) → Option (V t)

def mapStep (maps : List (Map V)) : Op V → List (Map V)
  | .new => maps ++ [(fun _ => none : Map V)]
  | .add i value => (maps[i]?).elim maps fun m => maps ++ [Function.update m value.1 (some value.2)]
  | .remove i t => (maps[i]?).elim maps fun m => maps ++ [Function.update m t none]

end

/-! ## Nodes -/

def Valid (heap : List (Node V)) (head : Option Nat) : Prop := ∀ a ∈ head, a < heap.length

def Older : List (Node V) → Prop
  | [] => True
  | n :: older => Valid older n.next ∧ Older older

section
variable {heap : List (Node V)} {head : Option Nat} {s : List (Node V) × Option Nat} {l : List (Sigma V)}

theorem walk_cons (h : Valid heap head) (n : Node V) : walk (n :: heap) head = walk heap head := by
  cases head with
  | none => cases heap <;> rfl
  | some a => rw [walk, if_neg (by have := h a rfl; omega)]

theorem walk_append (h : Valid heap head) (nw : List (Node V)) : walk (nw ++ heap) head = walk heap head := by
  induction nw with
  | nil => rfl
  | cons n nw ih =>
    rw [cons_append, walk_cons _ n, ih]
    intro a ha
    have := h a ha
    simp only [length_append]
    omega

theorem walk_alloc (v : Sigma V) :
    walk (alloc v (heap, head)).1 (alloc v (heap, head)).2 = ⟨v, head⟩ :: walk heap head := by
  rw [alloc, walk, if_pos rfl]

theorem walk_next (ho : Older heap) {pre post : List (Node V)} {n : Node V} (h : walk heap head = pre ++ n :: post) :
    Valid heap n.next ∧ walk heap n.next = post := by
  induction heap generalizing head pre with
  | nil => simp [walk] at h
  | cons m o ih =>
    suffices hs : Valid o n.next ∧ walk o n.next = post by
      exact ⟨fun a ha => (hs.1 a ha).trans (by simp), (walk_cons hs.1 m).trans hs.2⟩
    cases head with
    | none => simp [walk] at h
    | some a =>
      rw [walk] at h
      split at h
      · cases pre with
        | nil =>
          cases h
          exact ⟨ho.1, rfl⟩
        | cons p pre => exact ih ho.2 (List.cons.inj h).2
      · exact ih ho.2 h

structure Grows (heap : List (Node V)) (l : List (Sigma V)) (s : List (Node V) × Option Nat) : Prop where
  newer : ∃ newer, s.1 = newer ++ heap
  older : Older s.1
  valid : Valid s.1 s.2
  values_eq : values s.1 s.2 = l

theorem Grows.self (ho : Older heap) (hv : Valid heap head) : Grows heap (values heap head) (heap, head) :=
  ⟨⟨[], rfl⟩, ho, hv, rfl⟩

theorem Grows.alloc (h : Grows heap l s) (v : Sigma V) : Grows heap (v :: l) (alloc v s) := by
  obtain ⟨⟨n, hn⟩, ho, hv, rfl⟩ := h
  refine ⟨⟨⟨v, s.2⟩ :: n, by simp [Attributes.alloc, hn]⟩, ⟨hv, ho⟩, ?_, by rw [values, walk_alloc]; rfl⟩
  intro a ha
  cases ha
  simp [Attributes.alloc]

theorem Grows.foldl (h : Grows heap l s) (ns : List (Node V)) :
    Grows heap ((ns.map (·.value)).reverse ++ l) (ns.foldl (fun s n => Attributes.alloc n.value s) s) := by
  induction ns generalizing l s with
  | nil => exact h
  | cons n ns ih => simpa using ih (h.alloc n.value)

variable [LinearOrder T]

theorem Grows.remove (ho : Older heap) (hv : Valid heap head) (t : T) :
    Grows heap ((values heap head).filter (·.1 ≠ t)) (remove t (heap, head)) := by
  have hs := takeWhile_append_dropWhile (p := fun n : Node V => decide (n.value.1 ≠ t)) (l := (walk heap head).reverse)
  have ht : ∀ n ∈ (walk heap head).reverse.takeWhile (·.value.1 ≠ t), n.value.1 ≠ t := by
    intro n hn
    simpa using mem_takeWhile_imp hn
  have hh := head?_dropWhile_not (fun n : Node V => decide (n.value.1 ≠ t)) (walk heap head).reverse
  generalize (walk heap head).reverse.takeWhile (·.value.1 ≠ t) = post at hs ht
  unfold Attributes.remove values
  cases hd : (walk heap head).reverse.dropWhile (·.value.1 ≠ t) with
  | nil =>
    rw [hd, append_nil] at hs
    refine ⟨⟨[], rfl⟩, ho, hv, (List.filter_eq_self.2 ?_).symm⟩
    simpa [values, hs] using ht
  | cons o nw =>
    have hw : walk heap head = nw.reverse ++ o :: post.reverse := by
      rw [← reverse_reverse (walk heap head), ← hs, hd]
      simp
    have hot : o.value.1 = t := by
      rw [hd] at hh
      simpa using hh
    obtain ⟨hvn, hwn⟩ := walk_next ho hw
    have hf : post.filter (fun n => !decide (n.value.1 = t)) = post := List.filter_eq_self.2 (by simpa using ht)
    have he := (Grows.self ho hvn).foldl (nw.filter (·.value.1 ≠ t))
    rw [values, hwn] at he
    simpa [hw, hot, filter_map, Function.comp_def, hf] using he

end

/-! ## Maps -/

section
variable [LinearOrder T] {maps : List (Map V)} {s : Store V}

theorem dlookup_cons (v : Sigma V) (l : List (Sigma V)) (t : T) :
    (v :: l).dlookup t = Function.update (fun t => l.dlookup t) v.1 (some v.2) t := by
  obtain ⟨t', x⟩ := v
  by_cases h : t = t'
  · subst h
    simp
  · simp [h, dlookup_cons_ne]

theorem dlookup_filter (l : List (Sigma V)) (t t' : T) :
    (l.filter (·.1 ≠ t)).dlookup t' = Function.update (fun t => l.dlookup t) t none t' := by
  by_cases h : t' = t
  · subst h
    rw [Function.update_self, dlookup_eq_none]
    simp [List.keys]
  rw [Function.update_of_ne h]
  induction l with
  | nil => rfl
  | cons v l ih =>
    by_cases hv : v.1 = t
    · rw [filter_cons_of_neg (by simp [hv]), ih, dlookup_cons_ne _ v (hv ▸ h)]
    · rw [filter_cons_of_pos (by simp [hv]), dlookup_cons, dlookup_cons]
      by_cases ht : t' = v.1
      · subst ht
        simp
      · simpa [ht] using ih

theorem iter_spec (s : List T) (l : List (Sigma V)) :
    (iter s l).NodupKeys ∧ ∀ t, (iter s l).dlookup t = if t ∈ s then none else l.dlookup t := by
  induction l generalizing s with
  | nil => simp [iter]
  | cons v l ih =>
    rw [iter]
    split
    · rename_i hv
      refine ⟨(ih s).1, fun t => ?_⟩
      rw [(ih s).2 t]
      split
      · rfl
      · rename_i ht
        rw [dlookup_cons_ne _ v (by rintro rfl; exact ht hv)]
    · rename_i hv
      obtain ⟨hn, hl⟩ := ih (v.1 :: s)
      refine ⟨List.nodupKeys_cons.2 ⟨List.dlookup_eq_none.1 (by simp [hl]), hn⟩, fun t => ?_⟩
      rw [dlookup_cons, dlookup_cons]
      by_cases ht : t = v.1
      · subst ht
        simp [hv]
      · simp [ht, hl]

theorem zip_all_iff {α : Type} [DecidableEq α] (l l' : List α) :
    (l.length == l'.length && (l.zip l').all fun (a, b) => a = b) = true ↔ l = l' := by
  induction l generalizing l' with
  | nil => cases l' <;> simp
  | cons a l ih =>
    cases l' with
    | nil => simp
    | cons b l' =>
      have := ih l'
      simp at this ⊢
      tauto

theorem eq_iff [∀ t, DecidableEq (V t)] (l l' : List (Sigma V)) : eq l l' = true ↔ ∀ t, l.dlookup t = l'.dlookup t := by
  obtain ⟨hn, hl⟩ := iter_spec [] l
  obtain ⟨hn', hl'⟩ := iter_spec [] l'
  have hp : ∀ l : List (Sigma V), (collect l).Perm (iter [] l) := fun l => mergeSort_perm _ _
  have hs : ∀ l : List (Sigma V), (collect l).Pairwise fun a b => decide (a.1 ≤ b.1) = true := fun l =>
    pairwise_mergeSort (fun a b c => by simpa using le_trans) (fun a b => by simpa using le_total a.1 b.1) _
  rw [eq, zip_all_iff]
  constructor
  · intro h t
    have hpm : (iter [] l).Perm (iter [] l') := (hp l).symm.trans (h ▸ hp l')
    simpa [hl, hl'] using perm_dlookup t hn hpm
  · intro h
    have hpm : (iter [] l).Perm (iter [] l') := lookup_ext hn hn' fun t x => by simp [hl, hl', h t]
    have hpc := (hp l).trans (hpm.trans (hp l').symm)
    refine List.Perm.eq_of_pairwise (fun a b ha hb hab hba => ?_) (hs l) (hs l') hpc
    have hab := le_antisymm (of_decide_eq_true hab) (of_decide_eq_true hba)
    exact hn.eq_of_fst_eq ((hp l).mem_iff.1 ha) (((hp l').trans hpm.symm).mem_iff.1 hb) hab

structure Sim (s : Store V) (maps : List (Map V)) : Prop where
  older : Older s.heap
  valid : ∀ head ∈ s.heads, Valid s.heap head
  get_eq : s.heads.map (get s.heap) = maps

def Extends (s s' : Store V) : Prop :=
  ∃ heads, s'.heads = s.heads ++ heads ∧ ∀ head ∈ s.heads, values s'.heap head = values s.heap head

theorem Sim.push (h : Sim s maps) {l : List (Sigma V)} {m : Map V} {r : List (Node V) × Option Nat}
    (hg : Grows s.heap l r) (hm : ∀ t, l.dlookup t = m t) : Sim (s.push r) (maps ++ [m]) ∧ Extends s (s.push r) := by
  obtain ⟨n, hn⟩ := hg.newer
  have hv : ∀ head ∈ s.heads, values r.1 head = values s.heap head := fun head hh => by
    rw [values, hn, walk_append (h.valid head hh), values]
  refine ⟨⟨hg.older, ?_, ?_⟩, [r.2], rfl, hv⟩
  · intro head hh
    rcases List.mem_append.1 hh with hh | hh
    · intro a ha
      have := h.valid head hh a ha
      simp only [Store.push, hn, length_append]
      omega
    · cases List.mem_singleton.1 hh
      exact hg.valid
  · have hl : get r.1 r.2 = m := funext fun t => by rw [get, hg.values_eq, hm]
    have hh : s.heads.map (get r.1) = maps := by
      rw [← h.get_eq]
      exact map_congr_left fun head hh => funext fun t => by rw [get, hv head hh, get]
    simp [Store.push, hl, hh]

theorem Sim.step (h : Sim s maps) (op : Op V) :
    Sim (s.step op) (mapStep maps op) ∧ Extends s (s.step op) := by
  have hsame : Extends s s := ⟨[], by simp, fun _ _ => rfl⟩
  have hm : ∀ i, maps[i]? = (s.heads[i]?).map (get s.heap) := fun i => by rw [← h.get_eq, getElem?_map]
  cases op with
  | new => exact h.push ⟨⟨[], rfl⟩, h.older, by simp [Valid], by cases s.heap <;> rfl⟩ fun _ => rfl
  | add i v =>
    rw [Store.step, mapStep, hm]
    cases hh : s.heads[i]? with
    | none => exact ⟨h, hsame⟩
    | some head =>
      have hg := Grows.self h.older (h.valid head (mem_of_getElem? hh))
      exact h.push (hg.alloc v) fun t => dlookup_cons v _ t
  | remove i t =>
    rw [Store.step, mapStep, hm]
    cases hh : s.heads[i]? with
    | none => exact ⟨h, hsame⟩
    | some head =>
      have hg := Grows.remove h.older (h.valid head (mem_of_getElem? hh)) t
      exact h.push hg fun t' => dlookup_filter _ t t'

theorem Sim.foldl (h : Sim s maps) (ops : List (Op V)) :
    Sim (ops.foldl Store.step s) (ops.foldl mapStep maps) ∧ Extends s (ops.foldl Store.step s) := by
  induction ops generalizing s maps with
  | nil => exact ⟨h, [], by simp, fun _ _ => rfl⟩
  | cons op ops ih =>
    obtain ⟨hsim, hs, hh, hv⟩ := h.step op
    obtain ⟨hsim', hs', hh', hv'⟩ := ih hsim
    refine ⟨hsim', hs ++ hs', by simp [hh', hh], fun head hm => ?_⟩
    exact (hv' head (by simp [hh, hm])).trans (hv head hm)

/-- Each value is the map its operations make, equal values are equal maps, and no operation changes one. -/
theorem attributes_are_maps [∀ t, DecidableEq (V t)] (ops more : List (Op V)) :
    (run ops).heads.map (get (run ops).heap) = ops.foldl mapStep [] ∧
      (∀ head ∈ (run ops).heads, ∀ head' ∈ (run ops).heads,
        eq (values (run ops).heap head) (values (run ops).heap head') = true ↔
          get (run ops).heap head = get (run ops).heap head') ∧
      Extends (run ops) (run (ops ++ more)) := by
  have h : Sim (V := V) ⟨[], []⟩ [] := ⟨trivial, by simp, rfl⟩
  have hs := (h.foldl ops).1
  refine ⟨hs.get_eq, fun head _ head' _ => (eq_iff _ _).trans funext_iff.symm, ?_⟩
  rw [run, run, foldl_append]
  exact (hs.foldl more).2

end

end Attributes
