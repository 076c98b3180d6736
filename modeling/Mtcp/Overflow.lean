import Mtcp.Manager

namespace Mtcp.Manager

open Serial List
open Function (update_of_ne update_self update)

variable {α ω : Type} {m : Manager α ω}

/-! `RearrangeRTOStore`: from the overflow list of the retransmission wheel into its slots. -/

def dueIn (m : Manager α ω) (i : α) : Nat := fwd m.rtoNowTs (m.tsRto i)

def dueSlot (m : Manager α ω) (i : α) : Nat := (m.rtoNowIdx.toNat + m.dueIn i) % 3000

/-- The streams due within the span of the wheel go to their slots in the order of the list,
the others stay, and nothing else moves. -/
structure Rearranged [DecidableEq α] (m m' : Manager α ω) : Prop where
  slots : ∀ k < 3000, m'.rtoList k = m.rtoList k ++
    (m.rtoList 3000).filter fun i => decide (m.dueIn i < 3000 ∧ m.dueSlot i = k)
  later : m'.rtoList 3000 = (m.rtoList 3000).filter fun i => decide (3000 ≤ m.dueIn i)
  index : ∀ i, m'.onRtoIdx i =
    if i ∈ m.rtoList 3000 ∧ m.dueIn i < 3000 then (m.dueSlot i : Int) else m.onRtoIdx i

/-- The few distances at which the slot counted backwards is also the one counted forwards. -/
def Coincides (idx due : Nat) : Prop :=
  due = 0 ∨ due = 1500 ∧ 1500 ≤ idx ∨ due = 1148 ∧ idx < 1148 ∨ due = 2648 ∧ idx < 2648

def takenSlot (m : Manager α ω) (i : α) : Nat := wheelSlot (m.rtoNowTs - m.tsRto i) m.rtoNowIdx

/-! One round. -/

theorem toNat_overdue (m : Manager α ω) (i : α) :
    (m.rtoNowTs - m.tsRto i).toNat = (4294967296 - m.dueIn i) % 4294967296 := by
  have htrans := fwd_trans m.rtoNowTs (m.tsRto i) m.rtoNowTs
  have hlt := fwd_lt (m.tsRto i) m.rtoNowTs
  have hlt' := fwd_lt m.rtoNowTs (m.tsRto i)
  rw [fwd_self] at htrans
  change fwd (m.tsRto i) m.rtoNowTs = _
  unfold dueIn
  omega

/-- The distance of a stream that is not overdue is not positive, so the stream is moved. -/
theorem signed_lt_of_due {i : α} (h : m.dueIn i ≤ 1073741824) :
    signed (m.rtoNowTs - m.tsRto i) < 3000 := by
  rw [signed_eq, toNat_overdue]
  split <;> omega

theorem takenSlot_lt (m : Manager α ω) (i : α) : m.takenSlot i < 3000 := wheelSlot_lt _ _

theorem takenSlot_eq_iff {i : α} (hidx : m.rtoNowIdx.toNat < 3000) (h : m.dueIn i < 3000) :
    m.takenSlot i = m.dueSlot i ↔ Coincides m.rtoNowIdx.toNat (m.dueIn i) := by
  have hslot : m.takenSlot i =
      ((4294967296 - m.dueIn i) % 4294967296 + m.rtoNowIdx.toNat) % 4294967296 % 3000 := by
    unfold takenSlot wheelSlot
    rw [UInt32.toNat_mod, UInt32.toNat_add, toNat_overdue]
    rfl
  -- The sum wraps unless the index is at least the distance, and 2^32 is 2296 modulo 3000.
  have htaken : m.takenSlot i = if m.dueIn i ≤ m.rtoNowIdx.toNat then
      m.rtoNowIdx.toNat - m.dueIn i
      else (m.rtoNowIdx.toNat + 5296 - m.dueIn i) % 3000 := by
    rw [hslot]
    split <;> omega
  have hdue : m.dueSlot i = if m.rtoNowIdx.toNat + m.dueIn i < 3000 then
      m.rtoNowIdx.toNat + m.dueIn i else m.rtoNowIdx.toNat + m.dueIn i - 3000 := by
    unfold dueSlot
    split <;> omega
  unfold Coincides
  rw [htaken, hdue]
  split <;> split <;> omega

variable [DecidableEq α]

theorem rearrange_due {i : α} (h : m.dueIn i ≤ 1073741824) :
    m.rearrange i = (m.deleteRTO 3000 i).insertRTO (m.takenSlot i) i := by
  exact if_pos (signed_lt_of_due h)

/-! The whole list. -/

theorem foldl_rearrange (xs : List α) (m : Manager α ω) (hxs : m.rtoList 3000 = xs)
    (hdue : ∀ i ∈ xs, m.dueIn i ≤ 1073741824) : (xs.foldl rearrange m).rtoList 3000 = [] ∧
      (∀ k < 3000, (xs.foldl rearrange m).rtoList k =
        m.rtoList k ++ xs.filter fun i => decide (m.takenSlot i = k)) ∧
      ∀ i, (xs.foldl rearrange m).onRtoIdx i =
        if i ∈ xs then (m.takenSlot i : Int) else m.onRtoIdx i := by
  induction xs generalizing m with
  | nil => exact ⟨hxs, by simp, by simp⟩
  | cons x xs ih =>
    rw [foldl_cons, rearrange_due (hdue x (.head _))]
    have hlt := m.takenSlot_lt x
    have hrest : ((m.deleteRTO 3000 x).insertRTO (m.takenSlot x) x).rtoList 3000 = xs := by
      simp only [insertRTO, deleteRTO]
      rw [update_of_ne (by omega), update_self, hxs, erase_cons_head]
    obtain ⟨hnil, hslots, hindex⟩ := ih ((m.deleteRTO 3000 x).insertRTO (m.takenSlot x) x) hrest
      fun i hi => hdue i (mem_cons_of_mem x hi)
    refine ⟨hnil, fun k hk => ?_, fun i => ?_⟩
    · have hkeep : (m.deleteRTO 3000 x).rtoList k = m.rtoList k := update_of_ne (by omega) _ _
      rw [hslots k hk]
      change update (m.deleteRTO 3000 x).rtoList (m.takenSlot x) _ k ++
        xs.filter (fun i => decide (m.takenSlot i = k)) = _
      by_cases hx : m.takenSlot x = k
      · rw [hx, update_self, hkeep, filter_cons_of_pos (by simp [hx]), append_assoc]
        rfl
      · rw [update_of_ne (Ne.symm hx), hkeep, filter_cons_of_neg (by simp [hx])]
    · rw [hindex i]
      change (if i ∈ xs then (m.takenSlot i : Int) else
        update (update m.onRtoIdx x (-1)) x (m.takenSlot x) i) = _
      by_cases hi : i = x
      · simp [hi]
      · simp [hi]

/-- The distances are counted the wrong way, so the whole overflow list is moved, each stream
as far back as it should go ahead. It ends up as it should only if every stream is due within
the wheel at one of the distances where the two agree. -/
theorem rearranged_iff (m : Manager α ω) (hidx : m.rtoNowIdx.toNat < 3000)
    (hdue : ∀ i ∈ m.rtoList 3000, m.dueIn i ≤ 1073741824) :
    Rearranged m m.rearrangeRTOStore ↔ ∀ i ∈ m.rtoList 3000,
      m.dueIn i < 3000 ∧ Coincides m.rtoNowIdx.toNat (m.dueIn i) := by
  obtain ⟨hnil, hslots, hindex⟩ := foldl_rearrange (m.rtoList 3000) m rfl hdue
  constructor
  · intro h i hi
    have hlater := h.later
    rw [show m.rearrangeRTOStore.rtoList 3000 = [] from hnil, eq_comm,
      List.filter_eq_nil_iff] at hlater
    have hsoon : m.dueIn i < 3000 := by simpa using hlater i hi
    refine ⟨hsoon, (takenSlot_eq_iff hidx hsoon).mp ?_⟩
    have hrule := h.index i
    rw [if_pos ⟨hi, hsoon⟩, show m.rearrangeRTOStore.onRtoIdx i = _ from hindex i,
      if_pos hi] at hrule
    exact Int.natCast_inj.mp hrule
  · intro h
    have hsame : ∀ i ∈ m.rtoList 3000, m.takenSlot i = m.dueSlot i := fun i hi =>
      (takenSlot_eq_iff hidx (h i hi).1).mpr (h i hi).2
    refine ⟨fun k hk => ?_, ?_, fun i => ?_⟩
    · refine (hslots k hk).trans (congrArg _ (List.filter_congr fun i hi => ?_))
      simp [hsame i hi, (h i hi).1]
    · refine hnil.trans (List.filter_eq_nil_iff.mpr fun i hi => ?_).symm
      simpa using (h i hi).1
    · rw [show m.rearrangeRTOStore.onRtoIdx i = _ from hindex i]
      by_cases hi : i ∈ m.rtoList 3000
      · rw [if_pos hi, if_pos ⟨hi, (h i hi).1⟩, hsame i hi]
      · rw [if_neg hi, if_neg fun hboth => hi hboth.1]

/-- Two streams wait, one due now and one due in 1500 ticks, and the wheel is past its middle. -/
def halfway : Manager Nat Unit where
  rtoNowIdx := 2000
  rtoNowTs := 7000
  rtoList := fun k => if k = 3000 then [1, 2] else []
  onRtoIdx := fun i => if i = 1 ∨ i = 2 then 3000 else -1
  tsRto := fun i => if i = 1 then 7000 else 8500
  rest := ()

theorem rearranged_iff_halfway : Rearranged halfway halfway.rearrangeRTOStore :=
  (rearranged_iff halfway (by decide) (by decide)).mpr (by unfold Coincides; decide)

def tenTicks : Manager Nat Unit where
  rtoNowIdx := 1000
  rtoNowTs := 7000
  rtoList := fun k => if k = 3000 then [1] else []
  onRtoIdx := fun i => if i = 1 then 3000 else -1
  tsRto := fun _ => 7010
  rest := ()

/-- It goes to slot 990, which comes up 2990 ticks later. -/
theorem rearranged_backwards :
    tenTicks.dueIn 1 = 10 ∧ tenTicks.dueSlot 1 = 1010 ∧
      tenTicks.rearrangeRTOStore.rtoList 990 = [1] ∧
      tenTicks.rearrangeRTOStore.rtoList 1010 = [] ∧
      ¬ Rearranged tenTicks tenTicks.rearrangeRTOStore := by
  refine ⟨by decide, by decide, by decide, by decide, fun h => ?_⟩
  have hslot := h.slots 1010 (by decide)
  exact absurd hslot (by decide)

end Mtcp.Manager
