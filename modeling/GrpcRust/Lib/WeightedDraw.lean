import Mathlib.Algebra.BigOperators.Group.List.Basic
import Mathlib.Data.Nat.Count
import Mathlib.Tactic
/-!
# Draws by weight

The draws below the sum of a list of weights are cut into one interval per weight.
-/

namespace Lib

open List

def drawIndex : List Nat → Nat → Option Nat
  | [], _ => none
  | w :: ws, draw => if draw < w then some 0 else (drawIndex ws (draw - w)).map (· + 1)

theorem drawIndex_of_lt {w d : Nat} (ws : List Nat) (h : d < w) : drawIndex (w :: ws) d = some 0 := if_pos h

theorem drawIndex_add (w : Nat) (ws : List Nat) (d : Nat) :
    drawIndex (w :: ws) (w + d) = (drawIndex ws d).map (· + 1) := by
  rw [drawIndex, if_neg (Nat.not_lt.2 (Nat.le_add_right w d)), Nat.add_sub_cancel_left]

theorem exists_drawIndex {ws : List Nat} {d : Nat} (h : d < ws.sum) : ∃ i, drawIndex ws d = some i := by
  induction ws generalizing d with
  | nil => exact absurd h (Nat.not_lt_zero d)
  | cons w ws ih =>
    rw [sum_cons] at h
    rcases Nat.lt_or_ge d w with hlt | hge
    · exact ⟨0, drawIndex_of_lt ws hlt⟩
    · obtain ⟨r, rfl⟩ := Nat.exists_eq_add_of_le hge
      obtain ⟨i, hi⟩ := ih (Nat.lt_of_add_lt_add_left h)
      exact ⟨i + 1, by rw [drawIndex_add, hi]; rfl⟩

theorem drawIndex_bounds {ws : List Nat} {d i : Nat} (h : drawIndex ws d = some i) :
    i < ws.length ∧ (ws.take i).sum ≤ d ∧ d < (ws.take (i + 1)).sum := by
  induction ws generalizing d i with
  | nil => cases h
  | cons w ws ih =>
    rcases Nat.lt_or_ge d w with hlt | hge
    · rw [drawIndex_of_lt ws hlt] at h
      cases h
      exact ⟨Nat.succ_pos _, Nat.zero_le d, hlt⟩
    · obtain ⟨r, rfl⟩ := Nat.exists_eq_add_of_le hge
      rw [drawIndex_add] at h
      obtain ⟨j, hj, rfl⟩ := Option.map_eq_some_iff.1 h
      obtain ⟨hlt, hle, hlt'⟩ := ih hj
      refine ⟨Nat.succ_lt_succ hlt, ?_, ?_⟩
      · rw [take_succ_cons, sum_cons]
        exact Nat.add_le_add_left hle w
      · rw [take_succ_cons, sum_cons]
        exact Nat.add_lt_add_left hlt' w

variable {p : Nat → Prop}

theorem count_const_of_forall [DecidablePred p] {n : Nat} (h : ∀ d < n, p d) : Nat.count p n = n := by
  rw [Nat.count_eq_card_filter_range, Finset.filter_true_of_mem fun d hd => h d (Finset.mem_range.1 hd),
    Finset.card_range]

theorem count_zero_of_forall [DecidablePred p] {n : Nat} (h : ∀ d < n, ¬ p d) : Nat.count p n = 0 := by
  rw [Nat.count_eq_card_filter_range, Finset.filter_false_of_mem fun d hd => h d (Finset.mem_range.1 hd),
    Finset.card_empty]

theorem count_drawIndex (ws : List Nat) (i : Nat) :
    Nat.count (fun draw => drawIndex ws draw = some i) ws.sum = (ws[i]?).getD 0 := by
  induction ws generalizing i with
  | nil => rfl
  | cons w ws ih =>
    rw [sum_cons, Nat.count_add]
    simp only [drawIndex_add]
    cases i with
    | zero =>
      rw [count_const_of_forall fun d hd => drawIndex_of_lt ws hd, count_zero_of_forall fun d _ h => ?_]
      · rfl
      · obtain ⟨_, _, h⟩ := Option.map_eq_some_iff.1 h
        cases h
    | succ i =>
      have hs (draw : Nat) : (drawIndex ws draw).map (· + 1) = some (i + 1) ↔ drawIndex ws draw = some i := by
        constructor
        · intro h
          obtain ⟨j, hj, hij⟩ := Option.map_eq_some_iff.1 h
          exact Nat.succ.inj hij ▸ hj
        · intro h
          rw [h]
          rfl
      rw [count_zero_of_forall fun d hd h => ?_, Nat.zero_add]
      · simp only [hs]
        exact ih i
      · rw [drawIndex_of_lt ws hd] at h
        cases h

/-! ## Items with weights -/

section
variable {T : Type} {es : List (T × Nat)} {weight d : Nat}

def drawItem (entries : List (T × Nat)) (draw : Nat) : Option T :=
  (drawIndex (entries.map Prod.snd) draw).bind fun i => entries[i]?.map Prod.fst

def totalWeight (entries : List (T × Nat)) : Nat := (entries.map Prod.snd).sum

theorem totalWeight_cons (e : T × Nat) (entries : List (T × Nat)) :
    totalWeight (e :: entries) = e.2 + totalWeight entries := sum_cons

theorem drawItem_of_lt {e : T × Nat} (es : List (T × Nat)) (h : d < e.2) :
    drawItem (e :: es) d = some e.1 := by
  rw [drawItem, map_cons, drawIndex_of_lt _ h]
  rfl

theorem drawItem_add (e : T × Nat) (es : List (T × Nat)) (draw : Nat) :
    drawItem (e :: es) (e.2 + draw) = drawItem es draw := by
  rw [drawItem, map_cons, drawIndex_add, Option.bind_map]
  rfl

theorem exists_drawItem (h : d < totalWeight es) : ∃ item, drawItem es d = some item := by
  obtain ⟨i, hi⟩ := exists_drawIndex h
  have hlt := (drawIndex_bounds hi).1
  rw [length_map] at hlt
  exact ⟨es[i].1, by rw [drawItem, hi, Option.bind_some, getElem?_eq_getElem hlt]; rfl⟩

def weightOf [DecidableEq T] (entries : List (T × Nat)) (item : T) : Nat := totalWeight (entries.filter (·.1 = item))

theorem weightOf_cons [DecidableEq T] (e : T × Nat) (es : List (T × Nat)) (item : T) :
    weightOf (e :: es) item = (if e.1 = item then e.2 else 0) + weightOf es item := by
  rw [weightOf, filter_cons]
  simp only [decide_eq_true_eq]
  split_ifs
  · exact totalWeight_cons _ _
  · exact (Nat.zero_add _).symm

theorem count_drawItem [DecidableEq T] (es : List (T × Nat)) (item : T) :
    Nat.count (fun draw => drawItem es draw = some item) (totalWeight es) = weightOf es item := by
  induction es with
  | nil => rfl
  | cons e es ih =>
    rw [totalWeight_cons, Nat.count_add, weightOf_cons]
    simp only [drawItem_add]
    rw [ih]
    refine congrArg (· + weightOf es item) ?_
    split_ifs with hi
    · refine count_const_of_forall fun d hd => ?_
      rw [drawItem_of_lt es hd, hi]
    · refine count_zero_of_forall fun d hd h => ?_
      rw [drawItem_of_lt es hd] at h
      exact hi (Option.some.inj h)

theorem count_getElem? [DecidableEq T] (im : List T) (item : T) :
    Nat.count (fun i => im[i]? = some item) im.length = im.countP (· = item) := by
  induction im with
  | nil => rfl
  | cons first im ih =>
    rw [length_cons, Nat.add_comm, Nat.count_add, countP_cons, Nat.add_comm]
    simp only [Nat.add_comm 1, getElem?_cons_succ, decide_eq_true_eq]
    rw [ih]
    refine congrArg (List.countP _ im + ·) ?_
    rw [Nat.count_succ, Nat.count_zero, Nat.zero_add]
    simp only [getElem?_cons_zero, Option.some.injEq]

theorem weightOf_of_equal [DecidableEq T] (h : ∀ e ∈ es, e.2 = weight)
    (item : T) : weightOf es item = (es.map Prod.fst).countP (· = item) * weight := by
  induction es with
  | nil => exact (Nat.zero_mul weight).symm
  | cons e es ih =>
    rw [forall_mem_cons] at h
    rw [weightOf_cons, ih h.2, h.1, map_cons, countP_cons, Nat.add_mul, Nat.add_comm]
    simp only [decide_eq_true_eq, ite_mul, Nat.one_mul, Nat.zero_mul]

theorem totalWeight_of_equal (h : ∀ e ∈ es, e.2 = weight) : totalWeight es = es.length * weight := by
  rw [totalWeight, sum_eq_card_nsmul (es.map Prod.snd) weight, length_map, smul_eq_mul]
  intro w hw
  obtain ⟨e, he, rfl⟩ := List.mem_map.1 hw
  exact h e he

end

end Lib
