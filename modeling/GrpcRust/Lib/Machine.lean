import Mathlib.Tactic
/-!
# Runs of a machine

A machine takes inputs and produces outputs. Invariants come from `Machine.run_inv`.
-/

namespace Lib

universe u v w

structure Machine (S : Type u) (I : Type v) (O : Type w) where
  init : S
  step : S → I → S × List O

namespace Machine
variable {S : Type u} {I : Type v} {O : Type w} (M : Machine S I O)

variable (is : List I) (C : List I → I → Prop) (s : S) (i : I)

def next : S := (M.step s i).1

def out : List O := (M.step s i).2

def run : S := is.foldl M.next M.init

@[simp] theorem run_nil : M.run [] = M.init := rfl

@[simp] theorem run_snoc : M.run (is ++ [i]) = M.next (M.run is) i := by simp [run]

def outputsFrom : S → List I → List O
  | _, [] => []
  | s, i :: is => M.out s i ++ outputsFrom (M.next s i) is

def outputs : List O := M.outputsFrom M.init is

theorem outputsFrom_snoc (is : List I) (i : I) :
    M.outputsFrom s (is ++ [i]) = M.outputsFrom s is ++ M.out (is.foldl M.next s) i := by
  induction is generalizing s with
  | nil => simp [outputsFrom]
  | cons j is ih => simp [outputsFrom, ih]

@[simp] theorem outputs_nil : M.outputs [] = [] := rfl

@[simp] theorem outputs_snoc : M.outputs (is ++ [i]) = M.outputs is ++ M.out (M.run is) i :=
  M.outputsFrom_snoc M.init is i

theorem run_inv {P : S → Prop} (h0 : P M.init) (hs : ∀ s i, P s → P (M.next s i)) (is : List I) : P (M.run is) := by
  induction is using List.reverseRecOn with
  | nil => exact h0
  | append_singleton is i ih => rw [run_snoc]; exact hs _ _ ih

def Along (is : List I) : Prop := ∀ pre i, pre ++ [i] <+: is → C pre i

theorem along_nil : Along C [] := by
  intro pre i h
  simp at h

theorem along_snoc {C : List I → I → Prop} {is : List I} {i : I} : Along C (is ++ [i]) ↔ Along C is ∧ C is i := by
  constructor
  · intro h
    exact ⟨fun pre j hp => h pre j (hp.trans (List.prefix_append _ _)), h is i (List.prefix_refl _)⟩
  · rintro ⟨h, hi⟩ pre j hp
    rcases List.prefix_concat_iff.1 (by simpa using hp) with he | he
    · obtain ⟨rfl, rfl⟩ : pre = is ∧ j = i := by simpa using he
      exact hi
    · exact h pre j he

end Machine
end Lib
