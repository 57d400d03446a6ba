import GrpcRust.LoadBalancing.Child
/-!
# The picker of round_robin

`RoundRobinPicker` of `client/load_balancing/round_robin.rs`.
-/

namespace LoadBalancing

variable {K : Type}

structure RoundRobinPicker (K : Type) where
  pickers : List (DynPicker K)
  next : Nat
deriving DecidableEq

/-- The counter advances modulo `2^64`; an index out of bounds gives none. -/
def RoundRobinPicker.pick (picker : RoundRobinPicker K) : RoundRobinPicker K × Option (DynPicker K) :=
  ({ picker with next := (picker.next + 1) % 2 ^ 64 }, picker.pickers[picker.next % picker.pickers.length]?)

namespace RoundRobinPicker

def picks : Nat → RoundRobinPicker K → List (Option (DynPicker K))
  | 0, _ => []
  | n + 1, picker => picker.pick.2 :: picks n picker.pick.1

theorem picks_eq {n : Nat} {picker : RoundRobinPicker K} (h : picker.next + n < 2 ^ 64) : picks n picker =
    (List.range' picker.next n).map fun i => picker.pickers[i % picker.pickers.length]? := by
  induction n generalizing picker with
  | zero => rfl
  | succ n ih =>
    rw [List.range'_succ, List.map_cons, picks]
    have hnext : picker.pick.1.next = picker.next + 1 := Nat.mod_eq_of_lt (by omega)
    rw [ih (by omega), hnext]
    rfl

/-- In a turn every child is asked once, in order from the next one on. -/
theorem turn_asks_each_child (picker : RoundRobinPicker K) (h : picker.next + picker.pickers.length < 2 ^ 64) :
    picks picker.pickers.length picker = (picker.pickers.rotate picker.next).map some := by
  rw [picks_eq h]
  refine List.ext_getElem (by simp) fun i hi _ => ?_
  have hlt := Nat.mod_lt (picker.next + i) (show 0 < picker.pickers.length by simp at hi; omega)
  simp [List.getElem_rotate, Nat.add_comm i, hlt]

theorem turn_asks_each_child_two : picks 2 (⟨[.queuing 0, .queuing 1], 1⟩ : RoundRobinPicker Unit) =
    [some (.queuing 1), some (.queuing 0)] :=
  turn_asks_each_child ⟨[.queuing 0, .queuing 1], 1⟩ (by decide)

end RoundRobinPicker

end LoadBalancing
