import Mathlib.Data.List.Basic
import Mathlib.Tactic.Ring

namespace Mtcp.LittleEndian

/-! Numbers as bytes, the lowest first. -/

def bytes : Nat → Nat → List UInt8
  | 0, _ => []
  | width + 1, n => UInt8.ofNat n :: bytes width (n / 256)

def value : List UInt8 → Nat
  | [] => 0
  | b :: bs => b.toNat + 256 * value bs

@[simp]
theorem length_bytes (width n : Nat) : (bytes width n).length = width := by
  induction width generalizing n with
  | zero => rfl
  | succ width ih => rw [bytes, List.length_cons, ih]

theorem value_lt (bs : List UInt8) : value bs < 256 ^ bs.length := by
  induction bs with
  | nil => exact Nat.one_pos
  | cons b bs ih =>
    have hb := b.toNat_lt
    rw [value, List.length_cons, pow_succ]
    omega

theorem value_bytes {width n : Nat} (h : n < 256 ^ width) : value (bytes width n) = n := by
  induction width generalizing n with
  | zero =>
    rw [pow_zero, Nat.lt_one_iff] at h
    rw [h, bytes, value]
  | succ width ih =>
    have hdiv : n / 256 < 256 ^ width := by
      apply Nat.div_lt_of_lt_mul
      rw [← Nat.pow_succ']
      exact h
    rw [bytes, value, ih hdiv, UInt8.toNat_ofNat']
    exact Nat.mod_add_div n 256

theorem bytes_value (bs : List UInt8) : bytes bs.length (value bs) = bs := by
  induction bs with
  | nil => rfl
  | cons b bs ih =>
    have hb := b.toNat_lt
    have hdiv : (b.toNat + 256 * value bs) / 256 = value bs := by omega
    have hlow : UInt8.ofNat (b.toNat + 256 * value bs) = b := by
      apply UInt8.toNat_inj.mp
      rw [UInt8.toNat_ofNat']
      omega
    rw [List.length_cons, value, bytes, hdiv, ih, hlow]

end Mtcp.LittleEndian
