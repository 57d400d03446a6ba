import Mathlib.Tactic
/-!
# Partition points

Binary search for the end of the part of a list on which a test succeeds. A window is halved and keeps its start.
-/

namespace Lib

open List

variable {α : Type} {test : α → Bool} {l : List α}

def bisect (test : Nat → Bool) : Nat → Nat → Nat → Nat
  | 0, base, _ => base
  | fuel + 1, base, size =>
    if size > 1 then
      let half := size / 2
      let mid := base + half
      bisect test fuel (if test mid then mid else base) (size - half)
    else base

def partitionPoint (test : α → Bool) (l : List α) : Nat :=
  if l.length = 0 then 0
  else
    let base := bisect (fun i => l[i]?.any test) l.length 0 l.length
    if l[base]?.any test then base + 1 else base

/-- The test holds exactly before `k`. -/
structure CutAt (test : Nat → Bool) (length k : Nat) : Prop where
  le : k ≤ length
  before : ∀ i < k, test i = true
  after : ∀ i, k ≤ i → i < length → test i = false

theorem bisect_cut {t : Nat → Bool} {length k f b s : Nat} (h : CutAt t length k) (hf : s ≤ f)
    (hs : 0 < s) (hb : b ≤ k) (hend : k ≤ b + s) (hl : b + s ≤ length) :
    bisect t f b s ≤ k ∧ k ≤ bisect t f b s + 1 ∧ bisect t f b s < length := by
  induction f generalizing b s with
  | zero => omega
  | succ f ih =>
    rw [bisect]
    split_ifs with ho
    · dsimp only
      cases hm : t (b + s / 2) with
      | true =>
        -- The cut is after the middle.
        have hc : b + s / 2 < k := by
          by_contra hle
          have := h.after (b + s / 2) (by omega) (by omega)
          rw [hm] at this
          cases this
        rw [if_pos rfl]
        exact ih (by omega) (by omega) (by omega) (by omega) (by omega)
      | false =>
        have hc : k ≤ b + s / 2 := by
          by_contra hlt
          have := h.before (b + s / 2) (by omega)
          rw [hm] at this
          cases this
        rw [if_neg Bool.false_ne_true]
        exact ih (by omega) (by omega) (by omega) (by omega) (by omega)
    · omega

theorem partitionPoint_eq {k : Nat} (h : CutAt (fun i => l[i]?.any test) l.length k) : partitionPoint test l = k := by
  unfold partitionPoint
  split_ifs with hempty
  · exact (Nat.le_zero.1 (hempty ▸ h.le)).symm
  · obtain ⟨hle, hn, hlt⟩ := bisect_cut h le_rfl (Nat.pos_of_ne_zero hempty) (Nat.zero_le k)
      (by rw [Nat.zero_add]; exact h.le) (Nat.zero_add _).le
    dsimp only
    split_ifs with ht
    · by_contra hne
      have := h.after (bisect (fun i => l[i]?.any test) l.length 0 l.length) (by omega) hlt
      rw [this] at ht
      cases ht
    · by_contra hne
      have := h.before (bisect (fun i => l[i]?.any test) l.length 0 l.length) (by omega)
      exact ht this

/-! ## Lists that are cut in two -/

theorem partitionPoint_append {b af : List α} (hb : ∀ a ∈ b, test a = true)
    (ha : ∀ a ∈ af, test a = false) : partitionPoint test (b ++ af) = b.length := by
  apply partitionPoint_eq
  refine ⟨by simp, fun i hi => ?_, fun i hi hlt => ?_⟩
  · simp only [getElem?_append_left hi, getElem?_eq_getElem hi]
    exact hb _ (getElem_mem hi)
  · rw [length_append] at hlt
    have hi' : i - b.length < af.length := by omega
    simp only [getElem?_append_right hi, getElem?_eq_getElem hi']
    exact ha _ (getElem_mem hi')

section
variable (h : l.Pairwise fun a b => test b = true → test a = true)
include h

theorem filter_append_filter : (l.filter test ++ l.filter fun a => !test a) = l := by
  induction l with
  | nil => rfl
  | cons a l ih =>
    obtain ⟨hh, ht⟩ := List.pairwise_cons.1 h
    cases ha : test a with
    | true => simp [ha, ih ht]
    | false =>
      -- nothing after a failure passes
      have hnone : ∀ b ∈ l, test b = false := by
        intro b hb
        cases hb' : test b with
        | false => rfl
        | true =>
          rw [hh b hb hb'] at ha
          cases ha
      have hf : l.filter test = [] := by simpa using hnone
      have hall : (l.filter fun a => !test a) = l := by simpa using hnone
      simp [ha, hf, hall]

theorem partitionPoint_eq_length : partitionPoint test l = (l.filter test).length := by
  conv_lhs => rw [← filter_append_filter h]
  exact partitionPoint_append (fun a ha => (List.mem_filter.1 ha).2)
    (fun a ha => by simpa using (List.mem_filter.1 ha).2)

theorem partitionPoint_cuts :
    l.take (partitionPoint test l) = l.filter test ∧ l.drop (partitionPoint test l) = l.filter fun a => !test a := by
  have ha := filter_append_filter h
  have hp := partitionPoint_eq_length h
  have ht : l.take (l.filter test).length = l.filter test := List.prefix_iff_eq_take.1 ⟨_, ha⟩ |>.symm
  refine ⟨by rw [hp, ht], ?_⟩
  have hs := take_append_drop (l.filter test).length l
  rw [ht] at hs
  rw [hp]
  exact append_cancel_left (hs.trans ha.symm)

end

end Lib
