import Mathlib.Algebra.BigOperators.Group.List.Basic
import Mathlib.Tactic

namespace Mtcp.OnesComplement

open List

/-! Sums of sixteen-bit words whose carries are added at the low end, and the bytes they are the
sums of. -/

def add (a b : Nat) : Nat := (a + b) % 65536 + (a + b) / 65536

def sum (ws : List Nat) : Nat := ws.foldl add 0

/-- Only zero stands for zero; of the two words that are zero modulo 65535 it is the other that
stands for a positive number. -/
def residue (n : Nat) : Nat := if n = 0 then 0 else (n - 1) % 65535 + 1

variable (n : Nat) (ws : List Nat) (bs : List UInt8)

theorem residue_le : residue n ≤ 65535 := by
  unfold residue
  split <;> omega

theorem residue_mod : residue n % 65535 = n % 65535 := by
  unfold residue
  split <;> omega

theorem residue_eq_zero_iff : residue n = 0 ↔ n = 0 := by
  unfold residue
  split <;> omega

theorem eq_residue {r n : Nat} (hle : r ≤ 65535) (hzero : r = 0 ↔ n = 0)
    (hmod : r % 65535 = n % 65535) : r = residue n := by
  unfold residue
  split <;> omega

theorem residue_eq_max_iff {n : Nat} (hpos : 0 < n) : residue n = 65535 ↔ n % 65535 = 0 := by
  unfold residue
  split <;> omega

theorem add_residue {w : Nat} (hw : w < 65536) : add (residue n) w = residue (n + w) := by
  unfold add residue
  split_ifs <;> omega

theorem foldl_add (h : ∀ w ∈ ws, w < 65536) (n : Nat) :
    ws.foldl add (residue n) = residue (n + ws.sum) := by
  induction ws generalizing n with
  | nil => rw [foldl_nil, sum_nil, Nat.add_zero]
  | cons w ws ih =>
    obtain ⟨hw, hws⟩ := forall_mem_cons.mp h
    rw [foldl_cons, add_residue n hw, ih hws, sum_cons, Nat.add_assoc]

theorem sum_eq_residue (h : ∀ w ∈ ws, w < 65536) : sum ws = residue ws.sum := by
  have hfold := foldl_add ws h 0
  rwa [Nat.zero_add] at hfold

theorem fold_carry {n : Nat} (h : n < 131071) : (n + n / 65536) % 65536 = residue n := by
  obtain hlow | hhigh := Nat.lt_or_ge n 65536
  · rw [Nat.div_eq_of_lt hlow, Nat.add_zero, Nat.mod_eq_of_lt hlow]
    exact eq_residue (by omega) Iff.rfl rfl
  · have hdiv : n / 65536 = 1 := by omega
    have hmod : (n + 1) % 65536 = n - 65535 := by omega
    rw [hdiv, hmod]
    exact eq_residue (by omega) (by omega) (by omega)

theorem fold_twice {n : Nat} (h : n < 4294967296) :
    (n / 65536 + n % 65536 + (n / 65536 + n % 65536) / 65536) % 65536 = residue n := by
  rw [fold_carry (by omega)]
  exact eq_residue (residue_le _) (by unfold residue; split <;> omega)
    (by unfold residue; split <;> omega)

def swap (w : Nat) : Nat := 256 * (w % 256) + w / 256

theorem swap_complement {w : Nat} (h : w ≤ 65535) : swap (65535 - swap w) = 65535 - w := by
  unfold swap
  omega

theorem sum_map_swap : (ws.map swap).sum % 65535 = 256 * ws.sum % 65535 := by
  induction ws with
  | nil => rfl
  | cons w ws ih =>
    rw [map_cons, sum_cons, sum_cons, swap]
    omega

theorem sum_map_swap_eq_zero : (ws.map swap).sum = 0 ↔ ws.sum = 0 := by
  induction ws with
  | nil => rfl
  | cons w ws ih =>
    rw [map_cons, sum_cons, sum_cons, swap]
    omega

theorem residue_map_swap : residue (ws.map swap).sum = swap (residue ws.sum) := by
  have hmod := sum_map_swap ws
  have hzero := sum_map_swap_eq_zero ws
  symm
  apply eq_residue
  · have hle := residue_le ws.sum
    unfold swap
    omega
  · rw [hzero]
    unfold swap residue
    split <;> omega
  · rw [hmod]
    unfold swap residue
    split <;> omega

/-- The words of some bytes, low byte first, padded with a zero byte. -/
def words : List UInt8 → List Nat
  | a :: b :: bs => (a.toNat + 256 * b.toNat) :: words bs
  | [a] => [a.toNat]
  | [] => []

def netWords : List UInt8 → List Nat
  | a :: b :: bs => (256 * a.toNat + b.toNat) :: netWords bs
  | [a] => [256 * a.toNat]
  | [] => []

def checksum (bs : List UInt8) : Nat := 65535 - sum (netWords bs)

theorem words_lt : ∀ w ∈ words bs, w < 65536 := by
  fun_induction words bs with
  | case1 a b bs ih =>
    have ha := a.toNat_lt
    have hb := b.toNat_lt
    exact forall_mem_cons.mpr ⟨by omega, ih⟩
  | case2 a =>
    have ha := a.toNat_lt
    exact forall_mem_singleton.mpr (by omega)
  | case3 => exact fun w hw => absurd hw not_mem_nil

theorem netWords_eq_map : netWords bs = (words bs).map swap := by
  fun_induction words bs with
  | case1 a b bs ih =>
    have ha := a.toNat_lt
    rw [netWords, map_cons, ih, swap]
    congr 1
    omega
  | case2 a =>
    have ha := a.toNat_lt
    rw [netWords, map_singleton, swap]
    congr 1
    omega
  | case3 => rfl

theorem checksum_eq : checksum bs = 65535 - swap (residue (words bs).sum) := by
  have hlt : ∀ w ∈ netWords bs, w < 65536 := by
    rw [netWords_eq_map, forall_mem_map]
    intro w hw
    have hlt := words_lt bs w hw
    unfold swap
    omega
  rw [checksum, sum_eq_residue _ hlt, netWords_eq_map, residue_map_swap]

theorem checksum_eq_zero_iff : checksum bs = 0 ↔ residue (words bs).sum = 65535 := by
  have hle := residue_le (words bs).sum
  rw [checksum_eq, swap]
  omega

theorem length_words : (words bs).length = (bs.length + 1) / 2 := by
  fun_induction words bs with
  | case1 a b bs ih =>
    rw [length_cons, ih, length_cons, length_cons]
    omega
  | case2 | case3 => simp

theorem sum_words_le : (words bs).sum ≤ 65535 * ((bs.length + 1) / 2) := by
  rw [← length_words, Nat.mul_comm]
  apply sum_le_card_nsmul
  intro w hw
  exact Nat.le_of_lt_succ (words_lt bs w hw)

theorem words_append {as : List UInt8} (h : as.length % 2 = 0) (bs : List UInt8) :
    words (as ++ bs) = words as ++ words bs := by
  fun_induction words as with
  | case1 a b as ih =>
    rw [length_cons, length_cons] at h
    rw [cons_append, cons_append, words, ih (by omega), cons_append]
  | case2 a => cases h
  | case3 => rfl

theorem sum_words_concat (h : bs.length % 2 = 1) (b : UInt8) :
    (words (bs ++ [b])).sum = (words bs).sum + 256 * b.toNat := by
  fun_induction words bs with
  | case1 x y bs ih =>
    rw [length_cons, length_cons] at h
    rw [cons_append, cons_append, words, sum_cons, ih (by omega), sum_cons]
    omega
  | case2 x => rfl
  | case3 => cases h

theorem words_set (i : Nat) (a b : UInt8) (h : 2 * i + 1 < bs.length) :
    words ((bs.set (2 * i) a).set (2 * i + 1) b) = (words bs).set i (a.toNat + 256 * b.toNat) := by
  induction i generalizing bs with
  | zero =>
    match bs, h with
    | x :: y :: bs, _ => rfl
  | succ i ih =>
    match bs, h with
    | x :: y :: bs, h =>
      rw [length_cons, length_cons] at h
      have hrest := ih bs (by omega)
      exact congrArg (_ :: ·) hrest

theorem sum_set {ws : List Nat} {i : Nat} (h : i < ws.length) (w : Nat) :
    (ws.set i w).sum + ws[i] = ws.sum + w := by
  induction ws generalizing i with
  | nil => cases h
  | cons x ws ih =>
    cases i with
    | zero =>
      rw [set_cons_zero, sum_cons, sum_cons, getElem_cons_zero]
      omega
    | succ i =>
      have hrest := ih (Nat.lt_of_succ_lt_succ h)
      rw [set_cons_succ, sum_cons, sum_cons, getElem_cons_succ]
      omega

end Mtcp.OnesComplement
