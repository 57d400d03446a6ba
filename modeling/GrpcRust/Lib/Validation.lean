import Mathlib.Data.List.Forall2
import Mathlib.Tactic
/-!
# Validating a list

`validateAll` stops at the first error; `validateKept` may leave elements out.
-/

namespace Lib

open List

variable {ε ε' α β γ : Type} {f : α → Except ε β} {a : α} {l : List α} {out bs : List β} {cs : List γ}
  {x : Except ε α}

def validateAll (f : α → Except ε β) : List α → Except ε (List β)
  | [] => .ok []
  | a :: l => do
    let b ← f a
    let bs ← validateAll f l
    return b :: bs

def validateKept (f : α → Except ε (Option β)) : List α → Except ε (List β)
  | [] => .ok []
  | a :: l => do
    let b ← f a
    let bs ← validateKept f l
    return b.toList ++ bs

theorem bind_eq_ok {b : β} : (x >>= f) = .ok b ↔ ∃ a, x = .ok a ∧ f a = .ok b := by
  cases x with
  | error e =>
    constructor
    · intro h
      cases h
    · rintro ⟨_, h, _⟩
      cases h
  | ok a =>
    constructor
    · intro h
      exact ⟨a, rfl, h⟩
    · rintro ⟨_, h, hf⟩
      cases h
      exact hf

theorem exists_error_iff : (∃ e, x = .error e) ↔ ¬ ∃ a, x = .ok a := by
  cases x <;> simp

/-- A fold that stops at an error, with the list of what it has handled. -/
theorem foldlM_holds {σ : Type} {f : σ → α → Except ε σ} {g : α → List γ} {R : List γ → σ → Prop} {done : List γ}
    {s s' : σ} (h : R done s) (hs : l.foldlM f s = .ok s')
    (hstep : ∀ {a done s s'}, R done s → f s a = .ok s' → R (done ++ g a) s') : R (done ++ l.flatMap g) s' := by
  induction l generalizing done s with
  | nil =>
    cases hs
    rwa [flatMap_nil, append_nil]
  | cons a l ih =>
    rw [List.foldlM_cons] at hs
    obtain ⟨s₁, hs₁, hs⟩ := bind_eq_ok.1 hs
    rw [flatMap_cons, ← append_assoc]
    exact ih (hstep h hs₁) hs

theorem mapError_eq_ok {f : ε → ε'} : x.mapError f = .ok a ↔ x = .ok a := by
  cases x with
  | error e => exact ⟨fun h => (nomatch h), fun h => (nomatch h)⟩
  | ok a =>
    constructor
    · intro h
      cases h
      rfl
    · intro h
      cases h
      rfl

theorem validateKept_cons {f : α → Except ε (Option β)} (h : validateKept f (a :: l) = .ok out) :
    ∃ b bs, f a = .ok b ∧ validateKept f l = .ok bs ∧ out = b.toList ++ bs := by
  obtain ⟨b, hb, h⟩ := bind_eq_ok.1 h
  obtain ⟨bs, hbs, h⟩ := bind_eq_ok.1 h
  cases h
  exact ⟨b, bs, hb, hbs, rfl⟩

theorem mem_validateKept {f : α → Except ε (Option β)} (h : validateKept f l = .ok out) (b : β) :
    b ∈ out ↔ ∃ a ∈ l, f a = .ok (some b) := by
  induction l generalizing out with
  | nil =>
    cases h
    simp
  | cons a l ih =>
    obtain ⟨c, bs, hc, hbs, rfl⟩ := validateKept_cons h
    rw [mem_append, ih hbs, exists_mem_cons_iff, hc, Option.mem_toList]
    exact or_congr ⟨fun h => congrArg Except.ok h, Except.ok.inj⟩ Iff.rfl

theorem ok_of_validateKept {f : α → Except ε (Option β)} (h : validateKept f l = .ok out) (ha : a ∈ l) :
    ∃ b, f a = .ok b := by
  induction l generalizing out with
  | nil => cases ha
  | cons a' l ih =>
    obtain ⟨c, bs, hc, hbs, rfl⟩ := validateKept_cons h
    rcases List.mem_cons.1 ha with rfl | ha
    · exact ⟨c, hc⟩
    · exact ih hbs ha

theorem exists_validateKept_iff {f : α → Except ε (Option β)} :
    (∃ out, validateKept f l = .ok out) ↔ ∀ a ∈ l, ∃ b, f a = .ok b := by
  constructor
  · rintro ⟨out, h⟩ a ha
    exact ok_of_validateKept h ha
  · intro h
    induction l with
    | nil => exact ⟨[], rfl⟩
    | cons a l ih =>
      obtain ⟨b, hb⟩ := h a mem_cons_self
      obtain ⟨bs, hbs⟩ := ih fun a ha => h a (mem_cons_of_mem _ ha)
      exact ⟨b.toList ++ bs, bind_eq_ok.2 ⟨b, hb, bind_eq_ok.2 ⟨bs, hbs, rfl⟩⟩⟩

theorem validateAll_eq (f : α → Except ε β) (l : List α) :
    validateAll f l = validateKept (fun a => some <$> f a) l := by
  induction l with
  | nil => rfl
  | cons a l ih =>
    rw [validateAll, validateKept, ih]
    cases f a <;> rfl

theorem map_some_eq_ok {o : Option α} : some <$> x = .ok o ↔ ∃ a, x = .ok a ∧ o = some a := by
  cases x <;> simp [Functor.map, Except.map, eq_comm]

theorem mem_validateAll (h : validateAll f l = .ok out) (b : β) : b ∈ out ↔ ∃ a ∈ l, f a = .ok b := by
  rw [validateAll_eq] at h
  simp only [mem_validateKept h, map_some_eq_ok, Option.some.injEq, exists_eq_right']

theorem ok_of_validateAll (h : validateAll f l = .ok out) (ha : a ∈ l) : ∃ b, f a = .ok b := by
  rw [validateAll_eq] at h
  obtain ⟨o, ho⟩ := ok_of_validateKept h ha
  obtain ⟨b, hb, -⟩ := map_some_eq_ok.1 ho
  exact ⟨b, hb⟩

theorem exists_validateAll_iff : (∃ out, validateAll f l = .ok out) ↔ ∀ a ∈ l, ∃ b, f a = .ok b := by
  simp only [validateAll_eq, exists_validateKept_iff, map_some_eq_ok, exists_comm (α := Option β), exists_and_left,
    exists_eq, and_true]

end Lib
