import Mathlib.Tactic
/-!
# First occurrences

Loops that append what is not in the list yet keep the first occurrences, `List.eraseDups`, also of each other's
results.
-/

namespace Lib

open List

variable {α : Type} [DecidableEq α] {β : Type}

def extendNew (acc xs : List α) : List α := xs.foldl (fun acc x => if x ∈ acc then acc else acc ++ [x]) acc

theorem extendNew_cons (acc : List α) (x : α) (xs : List α) :
    extendNew acc (x :: xs) = extendNew (if x ∈ acc then acc else acc ++ [x]) xs := rfl

theorem extendNew_append (acc xs ys : List α) : extendNew acc (xs ++ ys) = extendNew (extendNew acc xs) ys := by
  rw [extendNew, foldl_append]
  rfl

@[simp] theorem mem_extendNew {acc xs : List α} {a : α} : a ∈ extendNew acc xs ↔ a ∈ acc ∨ a ∈ xs := by
  induction xs generalizing acc with
  | nil => simp [extendNew]
  | cons x xs ih =>
    rw [extendNew_cons, ih]
    split
    · rename_i hx
      constructor
      · rintro (h | h)
        · exact .inl h
        · exact .inr (.tail _ h)
      · rintro (h | h)
        · exact .inl h
        · rcases List.mem_cons.1 h with rfl | h
          · exact .inl hx
          · exact .inr h
    · simp [or_assoc]

theorem eraseDups_snoc (l : List α) (x : α) :
    (l ++ [x]).eraseDups = if x ∈ l then l.eraseDups else l.eraseDups ++ [x] := by
  rw [eraseDups_append]
  by_cases hx : x ∈ l <;> simp [List.removeAll, hx, eraseDups_cons]

theorem nodup_eraseDups [BEq β] [LawfulBEq β] (l : List β) : l.eraseDups.Nodup := by
  induction l using List.reverseRecOn with
  | nil => exact nodup_nil
  | append_singleton l x ih =>
    rw [eraseDups_append]
    by_cases hx : x ∈ l
    · simpa [List.removeAll, hx] using ih
    · have hne : ∀ y ∈ l, y ≠ x := fun y hy heq => hx (heq ▸ hy)
      simpa [List.removeAll, hx, eraseDups_cons, nodup_append, ih] using hne

theorem eraseDups_of_nodup [BEq β] [LawfulBEq β] {l : List β} (h : l.Nodup) : l.eraseDups = l := by
  induction l with
  | nil => simp
  | cons x l ih =>
    obtain ⟨hx, hl⟩ := List.nodup_cons.1 h
    have hk : l.filter (fun y => !y == x) = l := by
      refine List.filter_eq_self.2 fun y hy => ?_
      have hne : y ≠ x := fun heq => hx (heq ▸ hy)
      simpa using hne
    rw [eraseDups_cons, hk, ih hl]

theorem extendNew_eraseDups (l xs : List α) : extendNew l.eraseDups xs = (l ++ xs).eraseDups := by
  induction xs generalizing l with
  | nil => simp [extendNew]
  | cons x xs ih =>
    have hs : (l ++ x :: xs).eraseDups = extendNew (l ++ [x]).eraseDups xs := by
      rw [ih, append_assoc, singleton_append]
    rw [extendNew_cons, hs, eraseDups_snoc]
    simp only [mem_eraseDups]

theorem extendNew_extendNew (acc b xs : List α) : extendNew acc (extendNew b xs) = extendNew acc (b ++ xs) := by
  induction xs generalizing b with
  | nil => simp [extendNew]
  | cons x xs ih =>
    rw [extendNew_cons, ih]
    split
    · rename_i hx
      have hin : x ∈ extendNew acc b := mem_extendNew.2 (.inr hx)
      rw [extendNew_append, extendNew_append, extendNew_cons, if_pos hin]
    · rw [append_assoc]
      rfl

theorem extendNew_eraseDups_right (acc xs : List α) : extendNew acc xs.eraseDups = extendNew acc xs := by
  have hxs : xs.eraseDups = extendNew [] xs := (extendNew_eraseDups [] xs).symm
  rw [hxs, extendNew_extendNew, nil_append]

end Lib
