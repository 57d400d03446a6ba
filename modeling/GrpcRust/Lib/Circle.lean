import GrpcRust.Lib.PartitionPoint
/-!
# Searching around a circle

A search starts at the first entry that is not before a position and goes on around the end.
-/

namespace Lib

open List

variable {α β : Type} {l : List α}

def circularFind (f : α → Option β) (l : List α) (start : Nat) : Option β :=
  (List.range l.length).findSome? fun off => l[(start + off) % l.length]?.bind f

theorem circularFind_eq (f : α → Option β) {s : Nat} (h : s ≤ l.length) :
    circularFind f l s = (l.drop s ++ l.take s).findSome? f := by
  have ht : (List.range l.length).map (fun off => l[(s + off) % l.length]?) = (l.rotate s).map some := by
    apply ext_getElem?
    intro i
    by_cases hi : i < l.length
    · simp [hi, Nat.add_comm]
    · simp [hi]
  have hf : (fun off => l[(s + off) % l.length]?.bind f) =
      (fun o : Option α => o.bind f) ∘ fun off => l[(s + off) % l.length]? := rfl
  rw [← rotate_eq_drop_append_take h, circularFind, hf, ← findSome?_map, ht, findSome?_map]
  rfl

section
variable {P : Type} [LinearOrder P] (key : α → P)

def clockwise (l : List α) (position : P) : List α :=
  (l.filter fun a => position ≤ key a) ++ l.filter fun a => key a < position

theorem mem_clockwise {l : List α} {p : P} {a : α} : a ∈ clockwise key l p ↔ a ∈ l := by
  simp only [clockwise, mem_append, mem_filter, decide_eq_true_eq, ← and_or_left, le_or_gt, and_true]

theorem circularFind_partitionPoint (f : α → Option β) {l : List α} (h : l.Pairwise fun a b => key a ≤ key b) (p : P) :
    circularFind f l (partitionPoint (fun a => key a < p) l) = (clockwise key l p).findSome? f := by
  have hc : l.Pairwise fun a b => decide (key b < p) = true → decide (key a < p) = true := by
    refine h.imp fun {a b} hle hlt => ?_
    rw [decide_eq_true_eq] at hlt ⊢
    exact hle.trans_lt hlt
  obtain ⟨ht, hd⟩ := partitionPoint_cuts hc
  have hle : partitionPoint (fun a => decide (key a < p)) l ≤ l.length := by
    rw [partitionPoint_eq_length hc]
    exact length_filter_le ..
  have hn : (fun a => !decide (key a < p)) = fun a => decide (p ≤ key a) := by
    funext a
    rw [← decide_not]
    simp only [not_lt]
  rw [circularFind_eq f hle, ht, hd, hn, clockwise]

end

theorem findSome?_eq_bind (f : α → Option β) (l : List α) : l.findSome? f = (l.find? fun a => (f a).isSome).bind f := by
  induction l with
  | nil => rfl
  | cons a l ih =>
    rw [findSome?_cons, find?_cons]
    cases ha : f a with
    | none => simpa using ih
    | some b => simp [ha]

theorem find?_of_stronger {p q : α → Bool} (hpq : ∀ a, q a = true → p a = true) {a : α}
    (h : l.find? p = some a) (hq : q a = true) : l.find? q = some a := by
  obtain ⟨_, bf, af, rfl, hbf⟩ := List.find?_eq_some_iff_append.1 h
  refine List.find?_eq_some_iff_append.2 ⟨hq, bf, af, rfl, fun b hb => ?_⟩
  cases hqb : q b with
  | false => rfl
  | true => simpa [hpq b hqb] using hbf b hb

end Lib
