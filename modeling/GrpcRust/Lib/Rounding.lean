import Mathlib.Algebra.Order.Floor.Div
import Mathlib.Tactic
/-!
# Rounded quotients and even shares

A quotient that is rounded up, and a total that is shared out among `n` by rounding the running sum.
-/

namespace Lib

variable {t n k : Nat}

theorem le_ceilDiv_mul (hn : 0 < n) (k : Nat) : k ≤ (k ⌈/⌉ n) * n := by
  rw [Nat.mul_comm]
  exact le_smul_ceilDiv hn

theorem ceilDiv_mul_lt (hn : 0 < n) (k : Nat) : (k ⌈/⌉ n) * n < k + n := by
  rw [Nat.ceilDiv_eq_add_pred_div]
  have hle := Nat.div_mul_le_self (k + n - 1) n
  omega

theorem lt_ceilDiv_of_div_lt {scale part w p : Nat} (hs : 0 < scale) (hw : 0 < w)
    (h : scale * part / w < p) : part < (p * w) ⌈/⌉ scale := by
  rw [Nat.div_lt_iff_lt_mul hw] at h
  rw [← not_le, ceilDiv_le_iff_le_smul hs, smul_eq_mul]
  exact not_le.2 h

def shareEnd (total n k : Nat) : Nat := (total * k) ⌈/⌉ n

theorem shareEnd_zero (t n : Nat) : shareEnd t n 0 = 0 := by simp [shareEnd]

theorem shareEnd_self (hn : 0 < n) (total : Nat) : shareEnd total n n = total := by
  rw [shareEnd, Nat.mul_comm, ← smul_eq_mul]
  exact smul_ceilDiv hn total

theorem shareEnd_add_div_le (hn : 0 < n) (t k : Nat) : shareEnd t n k + t / n ≤ shareEnd t n (k + 1) := by
  have hend := ceilDiv_mul_lt hn (t * k)
  have hnx : t * k + t ≤ ((t * (k + 1)) ⌈/⌉ n) * n := le_ceilDiv_mul hn (t * (k + 1))
  have hd := Nat.div_mul_le_self t n
  change (t * k) ⌈/⌉ n + t / n ≤ (t * (k + 1)) ⌈/⌉ n
  by_contra hlt
  have hm : ((t * (k + 1)) ⌈/⌉ n + 1) * n ≤ ((t * k) ⌈/⌉ n + t / n) * n := Nat.mul_le_mul_right n (by omega)
  rw [Nat.add_mul, Nat.add_mul] at hm
  omega

theorem shareEnd_succ_le (hn : 0 < n) (t k : Nat) : shareEnd t n (k + 1) ≤ shareEnd t n k + t ⌈/⌉ n := by
  have hend := le_ceilDiv_mul hn (t * k)
  have hc := le_ceilDiv_mul hn t
  unfold shareEnd
  rw [ceilDiv_le_iff_le_smul hn, smul_eq_mul, Nat.mul_comm n, Nat.add_mul, Nat.mul_add, Nat.mul_one]
  omega

theorem ceilDiv_le_div_add_one (t n : Nat) (hn : 0 < n) : t ⌈/⌉ n ≤ t / n + 1 := by
  rw [ceilDiv_le_iff_le_smul hn, smul_eq_mul]
  have hlt := Nat.lt_mul_div_succ t hn
  omega

def share (total n k : Nat) : Nat := shareEnd total n (k + 1) - shareEnd total n k

theorem sum_share (hn : 0 < n) (t k : Nat) : ((List.range k).map (share t n)).sum = shareEnd t n k := by
  induction k with
  | zero => exact (shareEnd_zero t n).symm
  | succ k ih =>
    have hle : shareEnd t n k ≤ shareEnd t n (k + 1) := (Nat.le_add_right ..).trans (shareEnd_add_div_le hn t k)
    rw [List.range_succ, List.map_append, List.sum_append, ih, List.map_singleton, List.sum_singleton, share]
    omega

theorem share_eq (hn : 0 < n) (t k : Nat) : share t n k = t / n ∨ share t n k = t ⌈/⌉ n := by
  have hl := shareEnd_add_div_le hn t k
  have hh := shareEnd_succ_le hn t k
  have hnr := ceilDiv_le_div_add_one t n hn
  unfold share
  omega

theorem share_of_dvd (hn : 0 < n) (h : n ∣ t) (k : Nat) : share t n k = t / n := by
  obtain ⟨m, rfl⟩ := h
  have heq : (n * m) ⌈/⌉ n = n * m / n := by
    rw [← smul_eq_mul, smul_ceilDiv hn, smul_eq_mul, Nat.mul_div_cancel_left m hn]
  have hs := share_eq hn (n * m) k
  rw [heq] at hs
  exact hs.elim id id

end Lib
