import Mathlib.Tactic

namespace Mtcp.Serial

open UInt32 Bool

/-- Distance walked forwards around the 32-bit circle to get from one word to another. -/
def fwd (a b : UInt32) : Nat := (b - a).toNat

def signed (a : UInt32) : Int := a.toBitVec.toInt

def lt (a b : UInt32) : Bool := decide (signed (a - b) < 0)

def leq (a b : UInt32) : Bool := decide (signed (a - b) ≤ 0)

def gt (a b : UInt32) : Bool := decide (0 < signed (a - b))

def geq (a b : UInt32) : Bool := decide (0 ≤ signed (a - b))

def between (a b c : UInt32) : Bool := geq a b && leq a c

theorem signed_eq (a : UInt32) :
    signed a = if a.toNat < 2147483648 then (a.toNat : Int) else a.toNat - 4294967296 := by
  simp only [signed, BitVec.toInt_eq_toNat_cond, toNat_toBitVec]
  split <;> split <;> omega

theorem signed_ofNat_sub {a b : Nat} (h1 : a < b + 2147483648) (h2 : b ≤ a + 2147483648) :
    signed (UInt32.ofNat a - UInt32.ofNat b) = (a : Int) - b := by
  rw [signed_eq, UInt32.toNat_sub, UInt32.toNat_ofNat', UInt32.toNat_ofNat']
  split <;> omega

variable (a b : UInt32)

theorem fwd_eq : fwd a b = (b.toNat + 4294967296 - a.toNat) % 4294967296 := by
  have ha := a.toNat_lt
  simp only [fwd, UInt32.toNat_sub]
  omega

theorem fwd_lt : fwd a b < 4294967296 := (b - a).toNat_lt

@[simp] theorem fwd_self (a : UInt32) : fwd a a = 0 := by simp [fwd]

theorem eq_of_fwd_eq_zero {a b : UInt32} (h : fwd a b = 0) : b = a := by
  rw [fwd_eq] at h
  have ha := a.toNat_lt
  have hb := b.toNat_lt
  exact UInt32.toNat_inj.mp (by omega)

theorem fwd_trans (a b c : UInt32) : fwd a c = (fwd a b + fwd b c) % 4294967296 := by
  have ha := a.toNat_lt
  have hb := b.toNat_lt
  have hc := c.toNat_lt
  rw [fwd_eq, fwd_eq, fwd_eq]
  omega

theorem fwd_add_ofNat (n : Nat) : fwd a (b + UInt32.ofNat n) = (fwd a b + n) % 4294967296 := by
  have ha := a.toNat_lt
  have hb := b.toNat_lt
  rw [fwd_eq, fwd_eq, UInt32.toNat_add, UInt32.toNat_ofNat']
  omega

theorem fwd_add_one : fwd a (b + 1) = (fwd a b + 1) % 4294967296 := fwd_add_ofNat a b 1

theorem fwd_succ_succ : fwd (a + 1) (b + 1) = fwd a b := by
  have h := fwd_trans a (a + 1) b
  have h1 := fwd_lt a b
  have h2 := fwd_lt (a + 1) b
  rw [fwd_add_one, fwd_self] at h
  rw [fwd_add_one]
  omega

theorem add_fwd : a + UInt32.ofNat (fwd a b) = b := by
  apply eq_of_fwd_eq_zero
  have h := fwd_trans b a b
  rw [fwd_self] at h
  rw [fwd_add_ofNat]
  omega

theorem lt_iff : lt a b ↔ 2147483648 ≤ fwd b a := by
  have h := fwd_lt b a
  simp only [lt, decide_eq_true_eq, signed_eq, fwd] at h ⊢
  split <;> omega

theorem leq_iff : leq a b ↔ fwd b a = 0 ∨ 2147483648 ≤ fwd b a := by
  have h := fwd_lt b a
  simp only [leq, decide_eq_true_eq, signed_eq, fwd] at h ⊢
  split <;> omega

theorem leq_of_fwd_lt {a b : UInt32} (h : fwd a b < 2147483648) : leq a b := by
  have htrans := fwd_trans b a b
  have hlt := fwd_lt b a
  rw [fwd_self] at htrans
  rw [leq_iff]
  omega

theorem fwd_le_of_leq {a b : UInt32} (h : leq a b) : fwd a b ≤ 2147483648 := by
  have htrans := fwd_trans b a b
  have hlt := fwd_lt b a
  have hlt' := fwd_lt a b
  rw [fwd_self] at htrans
  rw [leq_iff] at h
  omega

theorem fwd_le_of_lt {a b : UInt32} (h : lt a b) : 0 < fwd a b ∧ fwd a b ≤ 2147483648 := by
  have htrans := fwd_trans b a b
  have hlt := fwd_lt b a
  have hlt' := fwd_lt a b
  rw [fwd_self] at htrans
  rw [lt_iff] at h
  omega

theorem gt_iff : gt a b ↔ 0 < fwd b a ∧ fwd b a < 2147483648 := by
  have h := fwd_lt b a
  simp only [gt, decide_eq_true_eq, signed_eq, fwd] at h ⊢
  split <;> omega

theorem geq_iff : geq a b ↔ fwd b a < 2147483648 := by
  have h := fwd_lt b a
  simp only [geq, decide_eq_true_eq, signed_eq, fwd] at h ⊢
  split <;> omega

theorem not_lt_iff : lt a b = false ↔ fwd b a < 2147483648 := by
  rw [← not_eq_true, lt_iff, not_le]

theorem not_leq_iff : leq a b = false ↔ 0 < fwd b a ∧ fwd b a < 2147483648 := by
  rw [← not_eq_true, leq_iff]
  omega

theorem not_gt_iff : gt a b = false ↔ fwd b a = 0 ∨ 2147483648 ≤ fwd b a := by
  rw [← not_eq_true, gt_iff]
  omega

theorem gt_self (a : UInt32) : gt a a = false := by
  rw [not_gt_iff, fwd_self]
  exact .inl rfl

theorem gt_eq_false_of_lt {a b : UInt32} (h : lt a b) : gt a b = false := by
  rw [lt_iff] at h
  rw [not_gt_iff]
  exact .inr h

theorem not_gt_of_old {head nxt x : UInt32} {len : Nat} (hle : fwd x head + len ≤ 2147483648)
    (hlt : fwd x head < 2147483648) (hnxt : fwd head nxt ≤ len) : gt x nxt = false := by
  rw [not_gt_iff]
  have hback := fwd_trans head x head
  have h1 := fwd_lt head x
  have htrans := fwd_trans nxt head x
  have hcircle := fwd_trans nxt head nxt
  have h2 := fwd_lt nxt head
  rw [fwd_self] at hback hcircle
  omega

theorem not_geq_iff : geq a b = false ↔ 2147483648 ≤ fwd b a := by
  rw [← not_eq_true, geq_iff, not_lt]

/-- Where a word that is not beyond the end of a stretch can lie: at or before its start,
inside it, or exactly half a circle ahead of an empty one. -/
theorem not_gt_add_cases {head x : UInt32} {len : Nat} (hlen : len < 2147483648)
    (h : gt x (head + UInt32.ofNat len) = false) :
    fwd x head + len ≤ 2147483648 ∧ fwd x head < 2147483648 ∨
      0 < fwd head x ∧ fwd head x ≤ len ∨ fwd head x = 2147483648 ∧ len = 0 := by
  rw [not_gt_iff] at h
  have h1 := fwd_trans head (head + UInt32.ofNat len) x
  have h2 := fwd_trans head x head
  have h3 := fwd_lt (head + UInt32.ofNat len) x
  have h4 := fwd_lt head x
  have h5 := fwd_lt x head
  rw [fwd_add_ofNat, fwd_self] at h1
  rw [fwd_self] at h2
  omega

end Mtcp.Serial
