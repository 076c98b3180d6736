import Mathlib.Algebra.Order.Ring.Nat
import Mathlib.Tactic.Ring

namespace Mtcp.Average

/-! Averages in fixed point. An average over about `n` samples is kept `n` times too large, so
that a share of one in `n` can make room for the next sample without a fraction. -/

variable {n x y m lo hi : Nat}

def blend (n x m : Nat) : Nat := x - x / n + m

theorem sub_div_mono (hn : 0 < n) (h : x ≤ y) : x - x / n ≤ y - y / n := by
  induction y, h using Nat.le_induction with
  | base => exact le_rfl
  | succ y _ ih =>
    have hstep : (y + 1) / n ≤ y / n + 1 := by
      calc (y + 1) / n ≤ (y + n) / n := Nat.div_le_div_right (by omega)
        _ = y / n + 1 := Nat.add_div_right y hn
    have hle : y / n ≤ y := Nat.div_le_self y n
    omega

theorem mul_sub_div (hn : 0 < n) (a : Nat) : n * a - n * a / n = (n - 1) * a := by
  rw [Nat.mul_div_cancel_left a hn, Nat.sub_mul, one_mul]

theorem pred_mul_add (hn : 0 < n) (a : Nat) : (n - 1) * a + a = n * a := by
  obtain ⟨k, rfl⟩ : ∃ k, n = k + 1 := ⟨n - 1, by omega⟩
  simp only [Nat.add_sub_cancel]
  ring

theorem blend_le (hn : 0 < n) (hx : x ≤ n * hi) (hm : m ≤ hi) : blend n x m ≤ n * hi := by
  calc blend n x m ≤ (n * hi - n * hi / n) + hi := Nat.add_le_add (sub_div_mono hn hx) hm
    _ = n * hi := by rw [mul_sub_div hn, pred_mul_add hn]

theorem le_blend (hn : 0 < n) (hx : n * lo ≤ x) (hm : lo ≤ m) : n * lo ≤ blend n x m := by
  calc n * lo = (n * lo - n * lo / n) + lo := by rw [mul_sub_div hn, pred_mul_add hn]
    _ ≤ blend n x m := Nat.add_le_add (sub_div_mono hn hx) hm

end Mtcp.Average
