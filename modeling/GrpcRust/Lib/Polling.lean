import Mathlib.Tactic
/-!
# Polling to the end

`Yields` is what a caller gets who polls a stream until it ends or fails for the first time.
-/

namespace Lib

inductive Poll (ε α : Type)
  | pending
  | ended
  | item (item : α)
  | failed (failure : ε)
deriving DecidableEq

variable {S ε α : Type}

def collect (poll : S → Poll ε α × S) : Nat → S → Option (List α × Option ε)
  | 0, _ => none
  | fuel + 1, s =>
    match poll s with
    | (.pending, s) => collect poll fuel s
    | (.ended, _) => some ([], none)
    | (.item item, s) => (collect poll fuel s).map fun (items, failure) => (item :: items, failure)
    | (.failed failure, _) => some ([], some failure)

def Yields (poll : S → Poll ε α × S) (s : S) (items : List α) (failure : Option ε) : Prop :=
  ∃ fuel, collect poll fuel s = some (items, failure)

section
variable {poll : S → Poll ε α × S} {s s' : S} {items : List α} {failure : Option ε}

theorem yields_iff_succ : Yields poll s items failure ↔ ∃ fuel, collect poll (fuel + 1) s = some (items, failure) := by
  constructor
  · rintro ⟨_ | fuel, h⟩
    · cases h
    · exact ⟨fuel, h⟩
  · rintro ⟨fuel, h⟩
    exact ⟨_, h⟩

theorem yields_of_pending (h : poll s = (.pending, s')) :
    Yields poll s items failure ↔ Yields poll s' items failure := by
  rw [yields_iff_succ]
  simp only [collect, h]
  exact Iff.rfl

theorem yields_of_item {item : α} (h : poll s = (.item item, s')) :
    Yields poll s items failure ↔ ∃ r, items = item :: r ∧ Yields poll s' r failure := by
  rw [yields_iff_succ]
  simp only [collect, h]
  constructor
  · rintro ⟨f, hf⟩
    obtain ⟨⟨r, failure⟩, hrest, heq⟩ := Option.map_eq_some_iff.1 hf
    cases heq
    exact ⟨r, rfl, f, hrest⟩
  · rintro ⟨r, rfl, f, hrest⟩
    exact ⟨f, by rw [hrest]; rfl⟩

theorem yields_of_ended (h : poll s = (.ended, s')) : Yields poll s items failure ↔ items = [] ∧ failure = none := by
  rw [yields_iff_succ]
  simp only [collect, h, exists_const, Option.some.injEq, Prod.mk.injEq, eq_comm]

theorem yields_of_failed {f : ε} (h : poll s = (.failed f, s')) :
    Yields poll s items failure ↔ items = [] ∧ failure = some f := by
  rw [yields_iff_succ]
  simp only [collect, h, exists_const, Option.some.injEq, Prod.mk.injEq, eq_comm]

theorem Yields.congr (h : poll s = poll s') : Yields poll s items failure ↔ Yields poll s' items failure := by
  rw [yields_iff_succ, yields_iff_succ]
  simp only [collect, h]

theorem Yields.unique {items' : List α} {failure' : Option ε} (h : Yields poll s items failure)
    (h' : Yields poll s items' failure') : items = items' ∧ failure = failure' := by
  obtain ⟨fuel, h⟩ := h
  induction fuel generalizing s items items' with
  | zero => cases h
  | succ fuel ih =>
    rcases hp : poll s with ⟨_ | _ | item | f, s'⟩
    · rw [yields_of_pending hp] at h'
      simp only [collect, hp] at h
      exact ih h' h
    · obtain ⟨rfl, rfl⟩ := (yields_of_ended hp).1 h'
      exact (yields_of_ended hp).1 ⟨_, h⟩
    · obtain ⟨r', rfl, hr'⟩ := (yields_of_item hp).1 h'
      simp only [collect, hp] at h
      obtain ⟨⟨r, failure⟩, hrest, heq⟩ := Option.map_eq_some_iff.1 h
      cases heq
      obtain ⟨rfl, rfl⟩ := ih hr' hrest
      exact ⟨rfl, rfl⟩
    · obtain ⟨rfl, rfl⟩ := (yields_of_failed hp).1 h'
      exact (yields_of_failed hp).1 ⟨_, h⟩

end

inductive Polls (step : S → Poll ε α → S → Prop) : S → List (Poll ε α) → S → Prop
  | nil (s : S) : Polls step s [] s
  | cons {s s' s'' : S} {p : Poll ε α} {ps : List (Poll ε α)} (first : step s p s') (rest : Polls step s' ps s'') :
      Polls step s (p :: ps) s''

section
variable {step : S → Poll ε α → S → Prop} {s s' s'' : S} {p : Poll ε α} {ps qs : List (Poll ε α)}

theorem Polls.single (h : step s p s') : Polls step s [p] s' := .cons h (.nil _)

theorem Polls.append (h : Polls step s ps s') (h' : Polls step s' qs s'') : Polls step s (ps ++ qs) s'' := by
  induction h with
  | nil => exact h'
  | cons first _ ih => exact .cons first (ih h')

end

def Poll.Last : Poll ε α → Prop
  | .pending => False
  | .item _ => False
  | _ => True

theorem exists_yields_of_last {p : S → Poll ε α × S} {s : S} (h : (p s).1.Last) :
    ∃ im failure, Yields p s im failure := by
  rcases hp : p s with ⟨_ | _ | item | f, s'⟩
  · rw [hp] at h
    exact h.elim
  · exact ⟨_, _, (yields_of_ended hp).2 ⟨rfl, rfl⟩⟩
  · rw [hp] at h
    exact h.elim
  · exact ⟨_, _, (yields_of_failed hp).2 ⟨rfl, rfl⟩⟩

end Lib
