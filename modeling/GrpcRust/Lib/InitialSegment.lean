import Mathlib.Tactic
/-!
# Numbers without gaps

A finite set of numbers holds every number below its size just when it is an initial segment.
-/

namespace Lib

variable {s : Finset Nat}

theorem eq_range_of_forall_lt_card (h : ∀ n < s.card, n ∈ s) : s = Finset.range s.card := by
  refine (Finset.eq_of_subset_of_card_le (fun n hn => h n (Finset.mem_range.1 hn)) ?_).symm
  rw [Finset.card_range]

theorem forall_lt_card_iff : (∀ n < s.card, n ∈ s) ↔ ∀ m ∈ s, ∀ n < m, n ∈ s := by
  constructor
  · intro h m hm n hn
    rw [eq_range_of_forall_lt_card h, Finset.mem_range] at hm
    exact h n (hn.trans hm)
  · intro h n hn
    by_contra hmem
    -- without `n` every member is below it, so there are at most `n`
    have hs : s ⊆ Finset.range n := by
      intro m hm
      rw [Finset.mem_range]
      rcases lt_trichotomy m n with hlt | rfl | hgt
      · exact hlt
      · exact absurd hm hmem
      · exact absurd (h m hm n hgt) hmem
    have hc := Finset.card_le_card hs
    rw [Finset.card_range] at hc
    omega

end Lib
