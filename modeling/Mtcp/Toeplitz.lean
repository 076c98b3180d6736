import Mathlib.Data.BitVec

namespace Mtcp.Toeplitz

open BitVec

variable {w v : Nat} {x : BitVec w} {ks ls : List UInt32} {res : UInt32}

/-- The keys of the bits that are set in a word, from the top one on, are added to `res`. -/
def absorb (x : BitVec w) : List UInt32 → UInt32 → UInt32
  | [], res => res
  | k :: ks, res => absorb (x <<< 1) ks (if x.msb then res ^^^ k else res)

theorem absorb_eq_xor (x : BitVec w) (ks : List UInt32) (res : UInt32) :
    absorb x ks res = res ^^^ absorb x ks 0 := by
  induction ks generalizing x res with
  | nil => simp [absorb]
  | cons k ks ih =>
    rw [absorb, ih, absorb, ih (x <<< 1) (if x.msb then 0 ^^^ k else 0)]
    cases x.msb <;> simp [UInt32.xor_assoc]

theorem absorb_append (x : BitVec w) (ks ls : List UInt32) (res : UInt32) :
    absorb x (ks ++ ls) res = absorb (x <<< ks.length) ls (absorb x ks res) := by
  induction ks generalizing x res with
  | nil => simp [absorb]
  | cons k ks ih =>
    rw [List.cons_append, absorb, ih, absorb, List.length_cons, Nat.add_comm, BitVec.shiftLeft_add]

theorem absorb_congr {y : BitVec v} (h : ∀ i < ks.length, x.getMsbD i = y.getMsbD i)
    (res : UInt32) : absorb x ks res = absorb y ks res := by
  induction ks generalizing x y res with
  | nil => rfl
  | cons k ks ih =>
    have hmsb : x.msb = y.msb := h 0 (Nat.succ_pos _)
    rw [absorb, absorb, hmsb]
    apply ih
    intro i hi
    rw [getMsbD_shiftLeft, getMsbD_shiftLeft]
    exact h (i + 1) (Nat.succ_lt_succ hi)

def swap32 (x : UInt32) : UInt32 :=
  ⟨x.toBitVec.extractLsb' 0 8 ++ x.toBitVec.extractLsb' 8 8 ++ x.toBitVec.extractLsb' 16 8 ++
    x.toBitVec.extractLsb' 24 8⟩

def swap16 (x : UInt16) : UInt16 :=
  ⟨x.toBitVec.extractLsb' 0 8 ++ x.toBitVec.extractLsb' 8 8⟩

theorem getLsbD_swap32 (x : UInt32) {i : Nat} (hi : i < 32) :
    (swap32 x).toBitVec.getLsbD i = x.toBitVec.getLsbD (8 * (3 - i / 8) + i % 8) := by
  simp only [swap32, getLsbD_append, getLsbD_extractLsb']
  grind

theorem getLsbD_swap16 (x : UInt16) {i : Nat} (hi : i < 16) :
    (swap16 x).toBitVec.getLsbD i = x.toBitVec.getLsbD (8 * (1 - i / 8) + i % 8) := by
  simp only [swap16, getLsbD_append, getLsbD_extractLsb']
  grind

theorem swap32_swap32 (x : UInt32) : swap32 (swap32 x) = x := by
  apply UInt32.toBitVec_inj.mp
  apply BitVec.eq_of_getLsbD_eq
  intro i hi
  rw [getLsbD_swap32 _ hi, getLsbD_swap32 _ (by omega)]
  congr 1
  omega

theorem swap16_swap16 (x : UInt16) : swap16 (swap16 x) = x := by
  apply UInt16.toBitVec_inj.mp
  apply eq_of_getLsbD_eq
  intro i hi
  rw [getLsbD_swap16 _ hi, getLsbD_swap16 _ (by omega)]
  congr 1
  omega

theorem getMsbD_swap32 (x : UInt32) {p i : Nat} (hp : p < 4) (hi : i < 8) :
    (swap32 x).toBitVec.getMsbD (i + 8 * p) = x.toBitVec.getMsbD (i + 8 * (3 - p)) := by
  simp only [getMsbD_eq_getLsbD]
  rw [getLsbD_swap32 x (by omega), decide_eq_true (show i + 8 * p < 32 by omega),
    decide_eq_true (show i + 8 * (3 - p) < 32 by omega)]
  congr 2
  omega

theorem getMsbD_swap16 (x : UInt16) {p i : Nat} (hp : p < 2) (hi : i < 8) :
    (swap16 x).toBitVec.getMsbD (i + 8 * p) = x.toBitVec.getMsbD (i + 8 * (1 - p)) := by
  simp only [getMsbD_eq_getLsbD]
  rw [getLsbD_swap16 x (by omega), decide_eq_true (show i + 8 * p < 16 by omega),
    decide_eq_true (show i + 8 * (1 - p) < 16 by omega)]
  congr 2
  omega

theorem absorb_byte_congr {y : BitVec v} {p q : Nat} (hks : ks.length = 8)
    (h : ∀ i < 8, x.getMsbD (i + 8 * p) = y.getMsbD (i + 8 * q)) :
    absorb (x <<< (8 * p)) ks 0 = absorb (y <<< (8 * q)) ks 0 := by
  apply absorb_congr
  intro i hi
  rw [getMsbD_shiftLeft, getMsbD_shiftLeft]
  exact h i (hks ▸ hi)

theorem absorb_two_bytes (x : BitVec w) (hks : ks.length = 8) (res : UInt32) :
    absorb x (ks ++ ks) res =
      res ^^^ (absorb (x <<< (8 * 0)) ks 0 ^^^ absorb (x <<< (8 * 1)) ks 0) := by
  rw [absorb_append, hks, absorb_eq_xor (x <<< 8), absorb_eq_xor x ks res, UInt32.xor_assoc,
    Nat.mul_zero, Nat.mul_one, shiftLeft_zero]

theorem absorb_four_bytes (x : BitVec w) (hks : ks.length = 8) :
    absorb x ((ks ++ ks) ++ (ks ++ ks)) 0 =
      absorb (x <<< (8 * 0)) ks 0 ^^^ absorb (x <<< (8 * 1)) ks 0 ^^^
        (absorb (x <<< (8 * 2)) ks 0 ^^^ absorb (x <<< (8 * 3)) ks 0) := by
  have hlen : (ks ++ ks).length = 16 := by rw [List.length_append, hks]
  rw [absorb_append, hlen, absorb_two_bytes _ hks, absorb_two_bytes _ hks, UInt32.zero_xor,
    ← shiftLeft_add, ← shiftLeft_add]

theorem absorb_swap32 (x : UInt32) (hks : ks.length = 8) :
    absorb (swap32 x).toBitVec ((ks ++ ks) ++ (ks ++ ks)) 0 =
      absorb x.toBitVec ((ks ++ ks) ++ (ks ++ ks)) 0 := by
  have hbyte : ∀ p < 4, absorb ((swap32 x).toBitVec <<< (8 * p)) ks 0 =
      absorb (x.toBitVec <<< (8 * (3 - p))) ks 0 := fun p hp =>
    absorb_byte_congr hks fun i hi => getMsbD_swap32 x hp hi
  rw [absorb_four_bytes _ hks, absorb_four_bytes _ hks, hbyte 0 (by omega), hbyte 1 (by omega),
    hbyte 2 (by omega), hbyte 3 (by omega), Nat.sub_zero, Nat.sub_self]
  generalize absorb (x.toBitVec <<< (8 * 0)) ks 0 = a
  generalize absorb (x.toBitVec <<< (8 * 3)) ks 0 = b
  rw [UInt32.xor_comm, UInt32.xor_comm b, UInt32.xor_comm _ a]

theorem absorb_swap16 (x : UInt16) (hks : ks.length = 8) :
    absorb (swap16 x).toBitVec (ks ++ ks) 0 = absorb x.toBitVec (ks ++ ks) 0 := by
  have hbyte : ∀ p < 2, absorb ((swap16 x).toBitVec <<< (8 * p)) ks 0 =
      absorb (x.toBitVec <<< (8 * (1 - p))) ks 0 := fun p hp =>
    absorb_byte_congr hks fun i hi => getMsbD_swap16 x hp hi
  rw [absorb_two_bytes _ hks, absorb_two_bytes _ hks, hbyte 0 (by omega), hbyte 1 (by omega),
    Nat.sub_zero, Nat.sub_self, UInt32.xor_comm (absorb (x.toBitVec <<< (8 * 1)) ks 0)]

end Mtcp.Toeplitz
