import Mathlib.Data.BitVec

namespace Mtcp.Flags

def Single (b : UInt32) : Prop := ∃ k < 32, b.toBitVec = BitVec.twoPow 32 k

def Meets (x b : UInt32) : Prop := x &&& b ≠ 0

instance (x b : UInt32) : Decidable (Meets x b) := inferInstanceAs (Decidable (x &&& b ≠ 0))

theorem meets_iff_bits {x b : UInt32} :
    Meets x b ↔ ∃ k, x.toBitVec.getLsbD k ∧ b.toBitVec.getLsbD k := by
  constructor
  · intro h
    by_contra hno
    apply h
    apply UInt32.eq_of_toBitVec_eq
    apply BitVec.eq_of_getLsbD_eq
    intro k _
    have hk : ¬(x.toBitVec.getLsbD k ∧ b.toBitVec.getLsbD k) := fun hk => hno ⟨k, hk⟩
    simpa using hk
  · rintro ⟨k, hx, hb⟩ h
    have hk := congrArg (fun y : UInt32 => y.toBitVec.getLsbD k) h
    simp [hx, hb] at hk

theorem Single.bit {b : UInt32} (h : Single b) : ∃ k < 32, ∀ j, b.toBitVec.getLsbD j ↔ j = k := by
  obtain ⟨k, hk, hb⟩ := h
  refine ⟨k, hk, fun j => ?_⟩
  rw [hb, BitVec.getLsbD_twoPow]
  constructor
  · intro hj
    simp at hj
    omega
  · rintro rfl
    simpa using hk

theorem Single.meets_iff {b : UInt32} (h : Single b) :
    ∃ k < 32, ∀ x, Meets x b ↔ x.toBitVec.getLsbD k := by
  obtain ⟨k, hk, hbit⟩ := h.bit
  refine ⟨k, hk, fun x => ?_⟩
  rw [meets_iff_bits]
  constructor
  · rintro ⟨j, hx, hj⟩
    rwa [(hbit j).mp hj] at hx
  · intro hx
    exact ⟨k, hx, (hbit k).mpr rfl⟩

theorem Single.ne_zero {b : UInt32} (h : Single b) : b ≠ 0 := by
  obtain ⟨k, -, hbit⟩ := h.bit
  rintro rfl
  simpa using (hbit k).mpr rfl

theorem Single.meets_self {b : UInt32} (h : Single b) : Meets b b := by
  obtain ⟨k, -, hbit⟩ := h.bit
  exact meets_iff_bits.mpr ⟨k, (hbit k).mpr rfl, (hbit k).mpr rfl⟩

theorem Single.meets_single {b c : UInt32} (hb : Single b) (hc : Single c) : Meets c b ↔ b = c := by
  constructor
  · intro h
    obtain ⟨k, hkb, hkc⟩ := meets_iff_bits.mp h
    obtain ⟨i, -, hbit⟩ := hb.bit
    obtain ⟨j, -, hcit⟩ := hc.bit
    have hki : k = i := (hbit k).mp hkc
    have hkj : k = j := (hcit k).mp hkb
    apply UInt32.eq_of_toBitVec_eq
    apply BitVec.eq_of_getLsbD_eq
    intro l _
    rw [Bool.eq_iff_iff, hbit l, hcit l, ← hki, ← hkj]
  · rintro rfl
    exact hb.meets_self

theorem Single.meets_or {b c : UInt32} (hb : Single b) (hc : Single c) (x : UInt32) :
    Meets (x ||| c) b ↔ Meets x b ∨ b = c := by
  rw [← hb.meets_single hc]
  obtain ⟨k, -, hk⟩ := hb.meets_iff
  simp [hk]

theorem Single.meets_clear {b c : UInt32} (hb : Single b) (hc : Single c) (x : UInt32) :
    Meets (x &&& ~~~c) b ↔ Meets x b ∧ b ≠ c := by
  rw [ne_eq, ← hb.meets_single hc]
  obtain ⟨k, hlt, hk⟩ := hb.meets_iff
  simp [hk, hlt]

@[simp]
theorem not_meets_zero (b : UInt32) : ¬Meets 0 b := by
  simp [Meets]

end Mtcp.Flags
