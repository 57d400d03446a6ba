import Mathlib.Tactic
/-!
# Interleaved steps

Parts take steps in any order; `C` may restrict them. Invariants come from `Reachable.inv`.
-/

namespace Lib

universe u v

structure Transition (S : Type u) (I : Type v) where
  init : S
  step : S → I → Option S

namespace Transition
variable {S : Type u} {I : Type v} {T : Transition S I} {C : S → I → Prop} {s : S} {is : List I}

inductive Reachable (T : Transition S I) (C : S → I → Prop) : S → Prop where
  | init : Reachable T C T.init
  | step {s s' : S} (i : I) : Reachable T C s → C s i → T.step s i = some s' → Reachable T C s'

theorem Reachable.inv {P : S → Prop} (h0 : P T.init)
    (hs : ∀ s i s', P s → C s i → T.step s i = some s' → P s') (h : T.Reachable C s) : P s := by
  induction h with
  | init => exact h0
  | step i _ hc hst ih => exact hs _ i _ ih hc hst

def run (T : Transition S I) (is : List I) : Option S := is.foldlM T.step T.init

abbrev Reached (T : Transition S I) (s : S) : Prop := T.Reachable (fun _ _ => True) s

theorem Reached.foldlM {s' : S} (h : T.Reached s) (his : is.foldlM T.step s = some s') : T.Reached s' := by
  induction is generalizing s with
  | nil =>
    cases his
    exact h
  | cons i is ih =>
    rw [List.foldlM_cons] at his
    obtain ⟨s₁, hs, hrest⟩ := Option.bind_eq_some_iff.1 his
    exact ih (.step i h trivial hs) hrest

theorem reached_of_run (h : T.run is = some s) : T.Reached s := Reached.foldlM .init h

end Transition

end Lib
