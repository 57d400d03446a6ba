import Mathlib.Tactic
/-!
# Taking turns

Queues, one for each key, are emptied in rounds. The keys alternate until only one queue has anything left.
-/

namespace Lib

open List

variable {α ι : Type*}

/-- The first of each queue, in the order of the keys. -/
def heads (keys : List ι) (queue : ι → List α) : List α := keys.filterMap fun k => (queue k).head?

def roundRobin (keys : List ι) : Nat → (ι → List α) → List α
  | 0, _ => []
  | rounds + 1, queue => heads keys queue ++ roundRobin keys rounds fun k => (queue k).tail

/-- Neighbours have different keys as long as two keys are left. -/
def Alternates (key : α → ι) : List α → Prop
  | a :: b :: rest => (key a = key b → ∀ c ∈ b :: rest, key c = key a) ∧ Alternates key (b :: rest)
  | _ => True

def KeyedBy (key : α → ι) (queue : ι → List α) : Prop := ∀ k, ∀ a ∈ queue k, key a = k

section
variable {key : α → ι} {keys : List ι} {queue : ι → List α} {rs i j : Nat} {l l' : List α} {a b : α}
  {k k' : ι}

theorem KeyedBy.tail (h : KeyedBy key queue) : KeyedBy key fun k => (queue k).tail :=
  fun k a ha => h k a (mem_of_mem_tail ha)

theorem keyedBy_filter [DecidableEq ι] (key : α → ι) (l : List α) : KeyedBy key fun k => l.filter (key · = k) :=
  fun _ _ ha => of_decide_eq_true (List.mem_filter.1 ha).2

theorem perm_of_filter_key_eq [DecidableEq α] [DecidableEq ι] {l' : List α}
    (h : ∀ k, l.filter (key · = k) = l'.filter (key · = k)) : l.Perm l' := by
  refine List.perm_iff_count.2 fun a => ?_
  have hc (l : List α) : (l.filter (key · = key a)).count a = l.count a := count_filter (decide_eq_true rfl)
  rw [← hc l, h, hc]

/-! ## Heads -/

theorem mem_heads : a ∈ heads keys queue ↔ ∃ k ∈ keys, (queue k).head? = some a := mem_filterMap

theorem heads_ne_nil (hk : k ∈ keys) (hq : queue k ≠ []) : heads keys queue ≠ [] := by
  obtain ⟨a, ha⟩ := Option.ne_none_iff_exists'.1 (mt List.head?_eq_none_iff.1 hq)
  exact ne_nil_of_mem (mem_heads.2 ⟨k, hk, ha⟩)

theorem heads_cons (k : ι) : heads (k :: keys) queue = (queue k).head?.toList ++ heads keys queue := by
  cases h : (queue k).head? with
  | none => simp [heads, h]
  | some a => simp [heads, h]

theorem heads_append (keys' : List ι) : heads (keys ++ keys') queue = heads keys queue ++ heads keys' queue :=
  filterMap_append

theorem key_head? (h : KeyedBy key queue) (ha : (queue k).head? = some a) : key a = k := h k a (mem_of_mem_head? ha)

theorem key_mem_of_mem_heads (h : KeyedBy key queue) (ha : a ∈ heads keys queue) : key a ∈ keys := by
  obtain ⟨k, hk, hh⟩ := mem_heads.1 ha
  rwa [key_head? h hh]

theorem filter_heads [DecidableEq ι] (h : KeyedBy key queue) (hky : keys.Nodup) (hk : k ∈ keys) :
    (heads keys queue).filter (key · = k) = (queue k).head?.toList := by
  have hf (j : ι) : (queue j).head?.toList.filter (key · = k) = if j = k then (queue j).head?.toList else [] := by
    cases hh : (queue j).head? with
    | none => simp
    | some a => simp [filter_cons, key_head? h hh]
  have hnone {keys : List ι} (hk : k ∉ keys) : (heads keys queue).filter (key · = k) = [] := by
    refine List.filter_eq_nil_iff.2 fun a ha hka => hk ?_
    rw [← of_decide_eq_true hka]
    exact key_mem_of_mem_heads h ha
  induction keys with
  | nil => cases hk
  | cons j keys ih =>
    rw [heads_cons, filter_append, hf]
    obtain ⟨hj, hky⟩ := List.nodup_cons.1 hky
    by_cases hjk : j = k
    · rw [if_pos hjk, hnone (hjk ▸ hj), append_nil, hjk]
    · rw [if_neg hjk, nil_append]
      exact ih hky ((List.mem_cons.1 hk).resolve_left (Ne.symm hjk))

/-! ## Rounds -/

theorem mem_roundRobin (ha : a ∈ roundRobin keys rs queue) : ∃ k ∈ keys, a ∈ queue k := by
  induction rs generalizing queue with
  | zero => cases ha
  | succ rs ih =>
    rcases List.mem_append.1 ha with ha | ha
    · obtain ⟨k, hk, hh⟩ := mem_heads.1 ha
      exact ⟨k, hk, mem_of_mem_head? hh⟩
    · obtain ⟨k, hk, ht⟩ := ih ha
      exact ⟨k, hk, mem_of_mem_tail ht⟩

theorem filter_roundRobin [DecidableEq ι] (h : KeyedBy key queue) (hky : keys.Nodup) (hk : k ∈ keys) :
    (roundRobin keys rs queue).filter (key · = k) = (queue k).take rs := by
  induction rs generalizing queue with
  | zero => rfl
  | succ rs ih =>
    rw [roundRobin, filter_append, filter_heads h hky hk, ih h.tail]
    cases queue k with
    | nil => simp
    | cons a q => rfl

theorem roundRobin_eq_flatMap (keys : List ι) (rs : Nat) (q : ι → List α) :
    roundRobin keys rs q = (List.range rs).flatMap fun k => keys.filterMap fun j => (q j)[k]? := by
  induction rs generalizing q with
  | zero => rfl
  | succ rs ih =>
    rw [range_succ_eq_map, flatMap_cons, flatMap_map, roundRobin, ih]
    simp only [heads, head?_eq_getElem?, getElem?_tail]

theorem filter_roundRobin_filter [DecidableEq ι] (hks : keys.Nodup) (hall : ∀ a ∈ l, key a ∈ keys)
    (hr : ∀ k ∈ keys, (l.filter (key · = k)).length ≤ rs) (k : ι) :
    (roundRobin keys rs fun k => l.filter (key · = k)).filter (key · = k) = l.filter (key · = k) := by
  have hky := keyedBy_filter key l
  have hmem : ∀ a ∈ roundRobin keys rs fun k => l.filter (key · = k), key a ∈ keys := by
    intro a ha
    obtain ⟨j, hj, hmem⟩ := mem_roundRobin ha
    rw [hky j a hmem]
    exact hj
  by_cases hk : k ∈ keys
  · rw [filter_roundRobin hky hks hk, take_of_length_le (hr k hk)]
  · have hnone {l' : List α} (h : ∀ a ∈ l', key a ∈ keys) : l'.filter (key · = k) = [] := by
      refine List.filter_eq_nil_iff.2 fun a ha hka => hk ?_
      rw [← of_decide_eq_true hka]
      exact h a ha
    rw [hnone hall, hnone hmem]

theorem head?_roundRobin (b af : List ι) (hb : ∀ j ∈ b, queue j = [])
    (hk : (queue k).head? = some a) : (roundRobin (b ++ k :: af) (rs + 1) queue).head? = some a := by
  have hnone : heads b queue = [] := List.filterMap_eq_nil_iff.2 fun j hj => by rw [hb j hj]; rfl
  rw [roundRobin, heads_append, hnone, heads_cons, hk]
  rfl

/-! ## Which comes first -/

theorem getElem?_mem_roundRobin (hk : k ∈ keys) (ha : (queue k)[i]? = some a) (hi : i < rs) :
    a ∈ roundRobin keys rs queue := by
  rw [roundRobin_eq_flatMap]
  exact List.mem_flatMap.2 ⟨i, List.mem_range.2 hi, List.mem_filterMap.2 ⟨k, hk, ha⟩⟩

/-- A queue comes before another in each round. -/
theorem sublist_roundRobin_of_key (hkk : [k, k'] <+ keys) (ha : (queue k)[i]? = some a) (hb : (queue k')[i]? = some b)
    (hi : i < rs) : [a, b] <+ roundRobin keys rs queue := by
  induction rs generalizing queue i with
  | zero => omega
  | succ rs ih =>
    rw [roundRobin]
    cases i with
    | zero =>
      have hh : [k, k'].filterMap (fun k => (queue k).head?) = [a, b] := by
        simp [head?_eq_getElem?, ha, hb]
      rw [← hh]
      exact (hkk.filterMap _).trans (sublist_append_left _ _)
    | succ i =>
      rw [← getElem?_tail] at ha hb
      exact (ih ha hb (by omega)).trans (sublist_append_right _ _)

/-- An earlier round comes before a later one. -/
theorem sublist_roundRobin_of_lt (hk : k ∈ keys) (hk' : k' ∈ keys) (ha : (queue k)[i]? = some a)
    (hb : (queue k')[j]? = some b) (hij : i < j) (hj : j < rs) : [a, b] <+ roundRobin keys rs queue := by
  induction rs generalizing queue i j with
  | zero => omega
  | succ rs ih =>
    rw [roundRobin]
    obtain ⟨j, rfl⟩ := Nat.exists_eq_add_of_lt hij
    rw [show i + j + 1 = (i + j) + 1 from rfl, ← getElem?_tail] at hb
    cases i with
    | zero =>
      have hfirst : a ∈ heads keys queue := mem_heads.2 ⟨k, hk, by rw [head?_eq_getElem?]; exact ha⟩
      exact (singleton_sublist.2 hfirst).append (singleton_sublist.2 (getElem?_mem_roundRobin hk' hb (by omega)))
    | succ i =>
      rw [← getElem?_tail] at ha
      exact (ih ha hb (by omega) (by omega)).trans (sublist_append_right _ _)

theorem sublist_of_filter_eq {p : α → Bool} {s : List α} (h : l.filter p = l'.filter p) (hs : ∀ a ∈ s, p a)
    (hsub : s <+ l) : s <+ l' := by
  have hf := hsub.filter p
  rw [h, filter_eq_self.2 hs] at hf
  exact hf.trans filter_sublist

theorem not_sublist_swap (hn : l.Nodup) (hab : [a, b] <+ l) : ¬ [b, a] <+ l := by
  induction l with
  | nil => cases hab
  | cons c l ih =>
    obtain ⟨hc, hn⟩ := List.nodup_cons.1 hn
    intro hba
    cases hab with
    | cons _ hab =>
      cases hba with
      | cons _ hba => exact ih hn hab hba
      | cons_cons _ hba => exact hc (hab.subset (by simp))
    | cons_cons _ hab =>
      cases hba with
      | cons _ hba => exact hc (hba.subset (by simp))
      | cons_cons _ hba => exact hc (hab.subset (by simp))

theorem eq_of_perm_of_sublist (hp : l.Perm l') (hn : l'.Nodup) (h : ∀ a b, [a, b] <+ l → [a, b] <+ l') : l = l' := by
  have hl : l.Pairwise fun a b => [a, b] <+ l' := pairwise_of_forall_sublist fun hab => h _ _ hab
  have hl' : l'.Pairwise fun a b => [a, b] <+ l' := pairwise_of_forall_sublist fun hab => hab
  exact Perm.eq_of_pairwise (fun a b _ _ hab hba => absurd hba (not_sublist_swap hn hab)) hl hl' hp
/-! ## Alternation -/

theorem alternates_cons : Alternates key (a :: l) ↔
    (∀ b ∈ l.head?, key a = key b → ∀ c ∈ l, key c = key a) ∧ Alternates key l := by
  cases l with
  | nil => simp [Alternates]
  | cons b l => simp [Alternates]

theorem Alternates.append {r : List α} (hl : (l.map key).Nodup) (hrest : Alternates key r)
    (hlast : ∀ a ∈ l.getLast?, ∀ b ∈ r.head?, key a = key b → ∀ c ∈ r, key c = key a) : Alternates key (l ++ r) := by
  induction l with
  | nil => exact hrest
  | cons a l ih =>
    obtain ⟨ha, hl⟩ := List.nodup_cons.1 hl
    cases l with
    | nil =>
      cases r with
      | nil => trivial
      | cons b r => exact ⟨hlast a rfl b rfl, hrest⟩
    | cons b l =>
      refine ⟨fun hab => absurd (hab ▸ mem_cons_self) ha, ih hl fun a' ha' => hlast a' ?_⟩
      rwa [getLast?_cons_cons]

theorem map_key_heads (h : KeyedBy key queue) : ((heads keys queue).map key).Sublist keys := by
  induction keys with
  | nil => exact .slnil
  | cons k keys ih =>
    rw [heads_cons]
    cases hh : (queue k).head? with
    | none => exact ih.cons k
    | some a =>
      rw [← key_head? h hh]
      exact ih.cons_cons (key a)

theorem key_roundRobin_tail (h : KeyedBy key queue) (hk : keys.Nodup) {b : α}
    (ha : a ∈ (heads keys queue).getLast?) (hb : b ∈ (roundRobin keys rs fun k => (queue k).tail).head?)
    (hab : key a = key b) : ∀ c ∈ roundRobin keys rs fun k => (queue k).tail, key c = key a := by
  intro c hc
  have hka : key a ∈ keys := key_mem_of_mem_heads h (mem_of_getLast? ha)
  obtain ⟨before, af, rfl⟩ := append_of_mem hka
  obtain ⟨j, hj, hcj⟩ := mem_roundRobin hc
  have hkc : key c = j := h.tail j c hcj
  have hne : (queue j).tail ≠ [] := ne_nil_of_mem hcj
  obtain ⟨-, haf, hd⟩ := List.nodup_append.1 hk
  rw [hkc]
  rcases List.mem_append.1 hj with hj | hj
  · -- The next round would begin with an earlier key.
    cases rs with
    | zero => cases hc
    | succ rs =>
      have hr : heads before (fun k => (queue k).tail) ≠ [] := heads_ne_nil hj hne
      rw [roundRobin, heads_append, append_assoc, head?_append_of_ne_nil _ hr] at hb
      have hbf : key b ∈ before := key_mem_of_mem_heads h.tail (mem_of_mem_head? hb)
      exact absurd hab.symm (hd _ hbf _ mem_cons_self)
  · rcases List.mem_cons.1 hj with hj | hj
    · exact hj
    · -- The round would end with a later key.
      have hr : heads af queue ≠ [] := heads_ne_nil hj fun hq => hne (by rw [hq]; rfl)
      rw [heads_append, heads_cons, ← append_assoc, getLast?_append_of_ne_nil _ hr] at ha
      exact absurd (key_mem_of_mem_heads h (mem_of_getLast? ha)) (List.nodup_cons.1 haf).1

theorem alternates_roundRobin (h : KeyedBy key queue) (hk : keys.Nodup) :
    Alternates key (roundRobin keys rs queue) := by
  induction rs generalizing queue with
  | zero => trivial
  | succ rs ih =>
    have hr : ((heads keys queue).map key).Nodup := hk.sublist (map_key_heads h)
    exact .append hr (ih h.tail) fun a ha b hb hab => key_roundRobin_tail h hk ha hb hab

end

end Lib
