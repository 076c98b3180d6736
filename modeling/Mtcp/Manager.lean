import Mtcp.Serial

namespace Mtcp

open Serial List
open Function (update_of_ne update_self)

/-- The timers of `struct mtcp_manager`. Slot 3000 of the wheel takes what lies beyond its
`RTO_HASH` ticks. -/
structure Manager (α ω : Type) where
  rtoNowIdx : UInt32 := 0
  rtoNowTs : UInt32 := 0
  rtoList : Nat → List α := fun _ => []
  rtoListCnt : Int := 0
  onRtoIdx : α → Int := fun _ => -1
  tsRto : α → UInt32 := fun _ => 0
  onTimewaitList : α → Bool := fun _ => false
  rest : ω

namespace Manager

variable {α ω : Type} [DecidableEq α]

def insertRTO (k : Nat) (i : α) (m : Manager α ω) : Manager α ω :=
  { m with
    rtoList := Function.update m.rtoList k (m.rtoList k ++ [i])
    onRtoIdx := Function.update m.onRtoIdx i k }

def deleteRTO (k : Nat) (i : α) (m : Manager α ω) : Manager α ω :=
  { m with
    rtoList := Function.update m.rtoList k ((m.rtoList k).erase i)
    onRtoIdx := Function.update m.onRtoIdx i (-1) }

/-- The slot for a distance; the index is added and reduced without a sign. -/
def wheelSlot (diff nowIdx : UInt32) : Nat := ((diff + nowIdx) % 3000).toNat

def rebase (i : α) (m : Manager α ω) : Manager α ω :=
  if m.rtoListCnt = 0 then { m with rtoNowIdx := 0, rtoNowTs := m.tsRto i } else m

def addtoRTOList (i : α) (m : Manager α ω) : Manager α ω :=
  let m := m.rebase i
  if m.onRtoIdx i < 0 then
    if m.onTimewaitList i then m
    else
      let diff := m.tsRto i - m.rtoNowTs
      let k := if signed diff < 3000 then wheelSlot diff m.rtoNowIdx else 3000
      { m.insertRTO k i with rtoListCnt := m.rtoListCnt + 1 }
  else m

def removeFromRTOList (i : α) (m : Manager α ω) : Manager α ω :=
  if m.onRtoIdx i < 0 then m
  else { m.deleteRTO (m.onRtoIdx i).toNat i with rtoListCnt := m.rtoListCnt - 1 }

/-- One round of `RearrangeRTOStore`. The distance is taken the other way round. -/
def rearrange (m : Manager α ω) (walk : α) : Manager α ω :=
  let diff := m.rtoNowTs - m.tsRto walk
  if signed diff < 3000 then
    (m.deleteRTO 3000 walk).insertRTO (wheelSlot diff m.rtoNowIdx) walk
  else m

def rearrangeRTOStore (m : Manager α ω) : Manager α ω := (m.rtoList 3000).foldl rearrange m

variable (handleRTO : α → Manager α ω → Manager α ω) (notOnRtoList : α → Manager α ω → Manager α ω)

/-- The inner loop of `CheckRtmTimeout`, over the streams of one slot. It also returns the
number of streams looked at. -/
def checkSlot (k : Nat) (thresh : Int) :
    List α → Int → Manager α ω → Int × Manager α ω
  | [], cnt, m => (cnt, m)
  | walk :: next, cnt, m =>
    if thresh < cnt + 1 then (cnt + 1, m)
    else if 0 ≤ m.onRtoIdx walk then
      checkSlot k thresh next (cnt + 1)
        (handleRTO walk { m.deleteRTO k walk with rtoListCnt := m.rtoListCnt - 1 })
    else checkSlot k thresh next (cnt + 1) (notOnRtoList walk m)

def tick (m : Manager α ω) : Manager α ω :=
  let m := { m with rtoNowIdx := (m.rtoNowIdx + 1) % 3000, rtoNowTs := m.rtoNowTs + 1 }
  if m.rtoNowIdx % 1000 = 0 then m.rearrangeRTOStore else m

/-- The outer loop of `CheckRtmTimeout`, and whether `thresh` has ended it. -/
def checkLoop (curTs : UInt32) (thresh : Int) : Nat → Int → Manager α ω → Bool × Manager α ω
  | 0, _, m => (false, m)
  | fuel + 1, cnt, m =>
    if signed (curTs - m.rtoNowTs) < 0 then (false, m)
    else
      match checkSlot handleRTO notOnRtoList m.rtoNowIdx.toNat thresh
          (m.rtoList m.rtoNowIdx.toNat) cnt m with
      | (cnt, m) => if thresh < cnt then (true, m) else checkLoop curTs thresh fuel cnt m.tick

def checkRtmTimeout (curTs : UInt32) (thresh : Int) (m : Manager α ω) : Bool × Manager α ω :=
  if m.rtoListCnt = 0 then (false, m)
  else
    checkLoop handleRTO notOnRtoList curTs thresh
      ((signed (curTs - m.rtoNowTs)).toNat + 1) 0 m

theorem wheelSlot_lt (diff idx : UInt32) : wheelSlot diff idx < 3000 := by
  unfold wheelSlot
  rw [UInt32.toNat_mod]
  exact Nat.mod_lt _ (by decide)

section frame

variable {m : Manager α ω} {β : Type} {f : Manager α ω → β}

theorem rearrangeRTOStore_frame (hf : ∀ u x, f (rearrange u x) = f u) :
    f m.rearrangeRTOStore = f m := by
  have hmove : ∀ (xs : List α) (u : Manager α ω), f (xs.foldl rearrange u) = f u := by
    intro xs
    induction xs with
    | nil => intro u; rfl
    | cons x xs ih => intro u; rw [foldl_cons, ih, hf]
  exact hmove _ m

theorem tick_frame (hf : ∀ u x, f (rearrange u x) = f u) : f m.tick = f { m with
      rtoNowIdx := (m.rtoNowIdx + 1) % 3000, rtoNowTs := m.rtoNowTs + 1 } := by
  unfold tick
  dsimp only
  split
  · exact rearrangeRTOStore_frame hf
  · rfl

end frame

theorem rearrange_rest (m : Manager α ω) (x : α) : (m.rearrange x).rest = m.rest := by
  unfold rearrange
  dsimp only
  split <;> rfl

theorem rearrange_onTimewaitList (m : Manager α ω) (x : α) :
    (m.rearrange x).onTimewaitList = m.onTimewaitList := by
  unfold rearrange
  dsimp only
  split <;> rfl

theorem rearrange_nowIdx (m : Manager α ω) (x : α) : (m.rearrange x).rtoNowIdx = m.rtoNowIdx := by
  unfold rearrange
  dsimp only
  split <;> rfl

end Manager

structure RtoLinked {α ω : Type} (m : Manager α ω) : Prop where
  mem : ∀ k i, i ∈ m.rtoList k ↔ m.onRtoIdx i = k
  nodup : ∀ k, (m.rtoList k).Nodup

namespace RtoLinked

variable {α ω : Type} {m : Manager α ω}

theorem notMem (h : RtoLinked m) {i : α} (hi : m.onRtoIdx i < 0) (k : Nat) : i ∉ m.rtoList k := by
  rw [h.mem]
  omega

variable [DecidableEq α]

theorem insertRTO (h : RtoLinked m) {i : α} (hi : m.onRtoIdx i < 0) (k : Nat) :
    RtoLinked (m.insertRTO k i) where
  mem := by
    intro k' j
    simp only [Manager.insertRTO]
    by_cases hk : k' = k <;> by_cases hj : j = i
    · simp [hk, hj]
    · simp [hk, hj, h.mem]
    · rw [hj, update_of_ne hk, update_self, h.mem]
      omega
    · simp [hk, hj, h.mem]
  nodup := by
    intro k'
    simp only [Manager.insertRTO]
    by_cases hk : k' = k
    · rw [hk, update_self]
      exact nodup_append.mpr ⟨h.nodup k, nodup_singleton i, by
        rintro a ha b hb rfl
        rw [mem_singleton.mp hb] at ha
        exact h.notMem hi k ha⟩
    · rw [update_of_ne hk]
      exact h.nodup k'

theorem deleteRTO (h : RtoLinked m) {i : α} {k : Nat} (hi : m.onRtoIdx i = k) :
    RtoLinked (m.deleteRTO k i) where
  mem := by
    intro k' j
    simp only [Manager.deleteRTO]
    by_cases hk : k' = k <;> by_cases hj : j = i
    · rw [hk, hj, update_self, update_self, (h.nodup k).mem_erase_iff]
      exact ⟨fun hne => absurd rfl hne.1, fun hneg => by omega⟩
    · rw [hk, update_self, update_of_ne hj, (h.nodup k).mem_erase_iff, h.mem]
      exact and_iff_right hj
    · rw [hj, update_of_ne hk, update_self, h.mem, hi]
      omega
    · rw [update_of_ne hk, update_of_ne hj]
      exact h.mem k' j
  nodup := by
    intro k'
    simp only [Manager.deleteRTO]
    by_cases hk : k' = k
    · rw [hk, update_self]
      exact (h.nodup k).erase i
    · rw [update_of_ne hk]
      exact h.nodup k'

end RtoLinked

end Mtcp
