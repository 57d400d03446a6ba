import Mathlib.Data.List.MinMax
import Mathlib.Data.List.Forall2
import Mathlib.Data.Prod.Lex
import Mathlib.Tactic
/-!
# Choosing from a list

The first of the best-scored elements. An element without a score is not chosen.
-/

namespace Lib

open List

variable {α β κ : Type} {l : List α} {R : α → β → Prop} {l' : List β}

/-! ## The least element -/

section
variable [LinearOrder κ]

def iterMin (l : List κ) : Option κ := l.argmin id

theorem argmin_eq_some_iff {f : α → κ} (hf : Function.Injective f) {l : List α} {m : α} :
    l.argmin f = some m ↔ m ∈ l ∧ ∀ a ∈ l, f m ≤ f a := by
  refine ⟨fun h => ⟨argmin_mem h, fun a ha => le_of_mem_argmin ha h⟩, fun ⟨hm, hle⟩ => ?_⟩
  cases har : l.argmin f with
  | none =>
    rw [List.argmin_eq_none.1 har] at hm
    cases hm
  | some m' => rw [hf (le_antisymm (le_of_mem_argmin hm har) (hle m' (argmin_mem har)))]

theorem iterMin_eq_some_iff {l : List κ} {m : κ} : iterMin l = some m ↔ m ∈ l ∧ ∀ a ∈ l, m ≤ a :=
  argmin_eq_some_iff Function.injective_id

end

/-! ## Scored indices -/

section
variable {score : α → Option κ} {i : Nat}

def scored (score : α → Option κ) (l : List α) : List (κ × Nat) :=
  l.zipIdx.filterMap fun a => (score a.1).map fun s => (s, a.2)

theorem mem_scored {s : κ} : (s, i) ∈ scored score l ↔ ∃ a, l[i]? = some a ∧ score a = some s := by
  unfold scored
  rw [mem_filterMap]
  constructor
  · rintro ⟨⟨a, j⟩, hm, hs⟩
    obtain ⟨s', hs', heq⟩ := Option.map_eq_some_iff.1 hs
    cases heq
    exact ⟨a, List.mem_zipIdx_iff_getElem?.1 hm, hs'⟩
  · rintro ⟨a, hg, hs⟩
    exact ⟨(a, i), List.mem_zipIdx_iff_getElem?.2 hg, by rw [hs]; rfl⟩

theorem argmin_scored_eq_some_iff [LinearOrder κ] :
    ((scored score l).argmin toLex).map (·.2) = some i ↔ ∃ a s, l[i]? = some a ∧ score a = some s ∧
      ∀ j b t, l[j]? = some b → score b = some t → s < t ∨ s = t ∧ i ≤ j := by
  rw [Option.map_eq_some_iff]
  constructor
  · rintro ⟨⟨s, k⟩, hm, rfl⟩
    obtain ⟨hmem, hle⟩ := (argmin_eq_some_iff toLex.injective).1 hm
    obtain ⟨a, ha, hs⟩ := mem_scored.1 hmem
    refine ⟨a, s, ha, hs, fun j b t hb ht => ?_⟩
    exact Prod.Lex.toLex_le_toLex.1 (hle (t, j) (mem_scored.2 ⟨b, hb, ht⟩))
  · rintro ⟨a, s, ha, hs, hle⟩
    refine ⟨(s, i), (argmin_eq_some_iff toLex.injective).2 ⟨mem_scored.2 ⟨a, ha, hs⟩, ?_⟩, rfl⟩
    rintro ⟨t, j⟩ hmem
    obtain ⟨b, hb, ht⟩ := mem_scored.1 hmem
    exact Prod.Lex.toLex_le_toLex.2 (hle j b t hb ht)

end

theorem getElem?_of_forall₂ (h : List.Forall₂ R l l') (i : Nat) :
    l[i]? = none ∧ l'[i]? = none ∨ ∃ a b, l[i]? = some a ∧ l'[i]? = some b ∧ R a b := by
  induction h generalizing i with
  | nil => exact .inl ⟨rfl, rfl⟩
  | cons hab _ ih =>
    cases i with
    | zero => exact .inr ⟨_, _, rfl, rfl, hab⟩
    | succ i => exact ih i

end Lib
