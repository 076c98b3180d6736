import Mathlib.Algebra.BigOperators.Group.Finset.Basic
import Mathlib.Algebra.BigOperators.Group.Finset.Piecewise
import Mtcp.Senders

namespace Mtcp

open Serial Manager List ListManager
open Function (update update_self update_of_ne update_eq_self)

variable {α ω : Type} [DecidableEq α]

/-! The flags, the links and the counters of one kind of list. -/

theorem nextIn_mem {l : List α} {x y : α} (h : nextIn l x = some y) : y ∈ l := by
  fun_induction nextIn l x with
  | case1 b l x => simp_all
  | case2 a b l x _ ih => exact mem_cons_of_mem a (ih h)
  | case3 => cases h

theorem nextIn_ne {l : List α} {x y : α} (hl : l.Nodup) (h : nextIn l x = some y) : y ≠ x := by
  fun_induction nextIn l x with
  | case1 b l x =>
    rw [Option.some.injEq] at h
    intro hyx
    rw [nodup_cons] at hl
    exact hl.1 (by simp [← hyx, h])
  | case2 a b l x _ ih => exact ih hl.of_cons h
  | case3 => cases h

theorem nextIn_mem_erase {l : List α} {x y : α} (hl : l.Nodup) (h : nextIn l x = some y) :
    y ∈ l.erase x := hl.mem_erase_iff.mpr ⟨nextIn_ne hl h, nextIn_mem h⟩

/-- The streams with the flag are linked into the list of their sender, once, and counted. -/
structure Linked (sender : α → Nat) (l : SenderLists α) : Prop where
  mem : ∀ k i, i ∈ l.list k ↔ l.on i = true ∧ sender i = k
  nodup : ∀ k, (l.list k).Nodup
  cnt : ∀ k, l.cnt k = (l.list k).length

namespace Linked

variable {sender : α → Nat} {l : SenderLists α} {k : Nat} {i : α}

omit [DecidableEq α] in
/-- One list changes, and no flag but those of its sender. -/
theorem change (h : Linked sender l) {xs : List α} {cnt : Int} {on : α → Bool}
    (hon : ∀ j, sender j ≠ k → on j = l.on j) (hmem : ∀ j, j ∈ xs ↔ on j = true ∧ sender j = k)
    (hnodup : xs.Nodup) (hcnt : cnt = xs.length) :
    Linked sender ⟨update l.list k xs, update l.cnt k cnt, on⟩ where
  mem := by
    intro k' j
    dsimp only
    by_cases hk : k' = k
    · rw [hk, update_self, hmem]
    · rw [update_of_ne hk, h.mem]
      refine and_congr_left fun hj => ?_
      rw [hon j (hj ▸ hk)]
  nodup := by
    intro k'
    dsimp only
    by_cases hk : k' = k
    · rw [hk, update_self]
      exact hnodup
    · rw [update_of_ne hk]
      exact h.nodup k'
  cnt := by
    intro k'
    dsimp only
    by_cases hk : k' = k
    · rw [hk, update_self, update_self, hcnt]
    · rw [update_of_ne hk, update_of_ne hk, h.cnt]

omit [DecidableEq α] in
theorem reorder (h : Linked sender l) {xs : List α} (hp : xs.Perm (l.list k)) :
    Linked sender { l with list := update l.list k xs } := by
  have hlist := @change α sender l k h xs (l.cnt k) l.on (fun _ _ => rfl)
    (fun j => hp.mem_iff.trans (h.mem k j)) (hp.nodup_iff.mpr (h.nodup k))
    ((h.cnt k).trans (congrArg _ hp.length_eq.symm))
  rwa [update_eq_self] at hlist

theorem put (h : Linked sender l) (hi : l.on i = false) (hk : sender i = k) {xs : List α}
    (hp : xs.Perm (i :: l.list k)) :
    Linked sender
      { list := update l.list k xs
        cnt := update l.cnt k (l.cnt k + 1)
        on := update l.on i true } := by
  refine h.change (fun j hj => update_of_ne ?_ _ _) (fun j => ?_) ?_ ?_
  · rintro rfl
    exact hj hk
  · rw [hp.mem_iff, mem_cons, h.mem]
    by_cases hj : j = i
    · simp [hj, hk]
    · simp [hj]
  · rw [hp.nodup_iff, nodup_cons, h.mem]
    exact ⟨by simp [hi], h.nodup k⟩
  · rw [hp.length_eq, h.cnt, length_cons]
    omega

theorem takeOff (h : Linked sender l) (hi : i ∈ l.list k) :
    Linked sender
      { list := update l.list k ((l.list k).erase i)
        cnt := update l.cnt k (l.cnt k + -1)
        on := update l.on i false } := by
  refine h.change (fun j hj => update_of_ne ?_ _ _) (fun j => ?_) ((h.nodup k).erase i) ?_
  · rintro rfl
    exact hj ((h.mem k j).mp hi).2
  · rw [(h.nodup k).mem_erase_iff, h.mem]
    by_cases hj : j = i
    · simp [hj]
    · simp [hj]
  · have hpos := length_pos_of_mem hi
    rw [length_erase_of_mem hi, h.cnt]
    omega

theorem add (h : Linked sender l) (i : α) : Linked sender (l.add (sender i) i) := by
  unfold SenderLists.add
  cases hi : l.on i with
  | true => exact h
  | false => exact h.put hi rfl (perm_append_singleton i _)

theorem remove (h : Linked sender l) (i : α) : Linked sender (l.remove (sender i) i) := by
  unfold SenderLists.remove
  cases hi : l.on i with
  | true => exact h.takeOff ((h.mem _ i).mpr ⟨hi, rfl⟩)
  | false => exact h

end Linked

theorem SenderLists.remove_of_off {l : SenderLists α} {i : α} (hi : l.on i = false) (k : Nat) :
    l.remove k i = l := if_neg (by simp [hi])

/-! The retransmission wheel with its counter. -/

omit [DecidableEq α] in
theorem total_update (L : Nat → List α) (xs : List α) {k n : Nat} (hk : k < n) :
    ∑ j ∈ Finset.range n, (update L k xs j).length + (L k).length =
      ∑ j ∈ Finset.range n, (L j).length + xs.length := by
  have hmem : k ∈ Finset.range n := Finset.mem_range.mpr hk
  have hother : ∀ j ∈ (Finset.range n).erase k, (update L k xs j).length = (L j).length := by
    intro j hj
    rw [update_of_ne (Finset.ne_of_mem_erase hj)]
  rw [← Finset.add_sum_erase _ _ hmem, ← Finset.add_sum_erase _ (fun j => (L j).length) hmem,
    Finset.sum_congr rfl hother, update_self]
  omega

structure OnWheel (m : Manager α ω) : Prop extends RtoLinked m where
  slot : ∀ i, m.onRtoIdx i ≤ 3000
  cnt : m.rtoListCnt = ∑ k ∈ Finset.range 3001, (m.rtoList k).length

namespace OnWheel

variable {m : Manager α ω} {i : α} {k : Nat}

theorem total_insert (m : Manager α ω) (hk : k ≤ 3000) (i : α) :
    ∑ j ∈ Finset.range 3001, ((m.insertRTO k i).rtoList j).length =
      ∑ j ∈ Finset.range 3001, (m.rtoList j).length + 1 := by
  have h := total_update m.rtoList (m.rtoList k ++ [i]) (n := 3001) (Nat.lt_succ_of_le hk)
  rw [length_append, length_singleton] at h
  simp only [Manager.insertRTO]
  omega

theorem total_delete (h : OnWheel m) (hi : m.onRtoIdx i = k) :
    ∑ j ∈ Finset.range 3001, ((m.deleteRTO k i).rtoList j).length + 1 =
      ∑ j ∈ Finset.range 3001, (m.rtoList j).length := by
  have hk := h.slot i
  have hmem := (h.mem k i).mpr hi
  have hpos := length_pos_of_mem hmem
  have htotal := total_update m.rtoList ((m.rtoList k).erase i) (n := 3001) (k := k) (by omega)
  rw [length_erase_of_mem hmem] at htotal
  simp only [Manager.deleteRTO]
  omega

theorem slot_insert (h : ∀ j, m.onRtoIdx j ≤ 3000) (hk : k ≤ 3000) (j : α) :
    (m.insertRTO k i).onRtoIdx j ≤ 3000 := by
  simp only [Manager.insertRTO]
  by_cases hj : j = i
  · rw [hj, update_self]
    omega
  · rw [update_of_ne hj]
    exact h j

theorem slot_delete (h : ∀ j, m.onRtoIdx j ≤ 3000) (j : α) :
    (m.deleteRTO k i).onRtoIdx j ≤ 3000 := by
  simp only [Manager.deleteRTO]
  by_cases hj : j = i
  · rw [hj, update_self]
    omega
  · rw [update_of_ne hj]
    exact h j

theorem insert (h : OnWheel m) (hi : m.onRtoIdx i < 0) (hk : k ≤ 3000) :
    OnWheel { m.insertRTO k i with rtoListCnt := m.rtoListCnt + 1 } where
  mem := (h.toRtoLinked.insertRTO hi k).mem
  nodup := (h.toRtoLinked.insertRTO hi k).nodup
  slot := slot_insert h.slot hk
  cnt := by
    have htotal := total_insert m hk i
    rw [h.cnt, htotal]
    rfl

theorem delete (h : OnWheel m) (hi : m.onRtoIdx i = k) :
    OnWheel { m.deleteRTO k i with rtoListCnt := m.rtoListCnt - 1 } where
  mem := (h.toRtoLinked.deleteRTO hi).mem
  nodup := (h.toRtoLinked.deleteRTO hi).nodup
  slot := slot_delete (k := k) h.slot
  cnt := by
    have htotal := h.total_delete hi
    change m.rtoListCnt - 1 = ((∑ j ∈ _, ((m.deleteRTO k i).rtoList j).length : Nat) : Int)
    rw [h.cnt, ← htotal]
    omega

theorem move (h : OnWheel m) (hi : m.onRtoIdx i = 3000) (hk : k ≤ 3000) :
    OnWheel ((m.deleteRTO 3000 i).insertRTO k i) := by
  have hoff : (m.deleteRTO 3000 i).onRtoIdx i < 0 := by simp [Manager.deleteRTO]
  refine ⟨(h.toRtoLinked.deleteRTO hi).insertRTO hoff k, slot_insert (slot_delete h.slot) hk, ?_⟩
  change m.rtoListCnt = _
  rw [h.cnt, ← h.total_delete hi, total_insert _ hk]

omit [DecidableEq α] in
theorem rebase (h : OnWheel m) (i : α) : OnWheel (m.rebase i) := by
  unfold Manager.rebase
  split
  · exact ⟨⟨h.mem, h.nodup⟩, h.slot, h.cnt⟩
  · exact h

theorem addtoRTOList (h : OnWheel m) (i : α) : OnWheel (m.addtoRTOList i) := by
  unfold Manager.addtoRTOList
  have hbase := h.rebase i
  generalize m.rebase i = u at hbase ⊢
  dsimp only
  split
  · next hi =>
    split
    · exact hbase
    · refine hbase.insert hi ?_
      split
      · exact (wheelSlot_lt _ _).le
      · exact le_rfl
  · exact hbase

theorem rearrange (h : OnWheel m) (hi : m.onRtoIdx i = 3000) : OnWheel (m.rearrange i) := by
  unfold Manager.rearrange
  dsimp only
  split
  · exact h.move hi (wheelSlot_lt _ _).le
  · exact h

end OnWheel

/-! What the operations of the wheel leave alone. -/

section frame

variable (m : Manager α ω) (i : α)

theorem addtoRTOList_rest : (m.addtoRTOList i).rest = m.rest := by
  unfold Manager.addtoRTOList Manager.rebase
  dsimp only
  split <;> split <;> first | rfl | (split <;> rfl)

theorem addtoRTOList_onTimewaitList : (m.addtoRTOList i).onTimewaitList = m.onTimewaitList := by
  unfold Manager.addtoRTOList Manager.rebase
  dsimp only
  split <;> split <;> first | rfl | (split <;> rfl)

theorem removeFromRTOList_rest : (m.removeFromRTOList i).rest = m.rest := by
  unfold Manager.removeFromRTOList
  split <;> rfl

theorem removeFromRTOList_onTimewaitList :
    (m.removeFromRTOList i).onTimewaitList = m.onTimewaitList := by
  unfold Manager.removeFromRTOList
  split <;> rfl

end frame

/-! All lists of a manager. -/

structure TimersAgree (m : ListManager α ω) : Prop where
  wheel : OnWheel m
  waiting : ∀ i, i ∈ m.rest.timewaitList ↔ m.onTimewaitList i = true
  waitNodup : m.rest.timewaitList.Nodup
  waitCnt : m.rest.timewaitListCnt = m.rest.timewaitList.length
  apart : ∀ i, m.onTimewaitList i = true → m.onRtoIdx i < 0

/-- All but the send lists, from which `WriteTCPDataList` takes a stream without touching its
flag. -/
structure AgreeOutside (sender : α → Nat) (m : ListManager α ω) : Prop where
  sender_eq : m.rest.sender = sender
  control : Linked sender m.rest.control
  ack : Linked sender m.rest.ack
  timers : TimersAgree m
  noMismatch : m.rest.mismatch = false

/-- Flags, counters and links agree, and no branch that found otherwise was taken. -/
structure Agree (sender : α → Nat) (m : ListManager α ω) : Prop extends AgreeOutside sender m where
  send : Linked sender m.rest.send

namespace TimersAgree

variable {m : ListManager α ω} {i : α}

omit [DecidableEq α] in
theorem mapRest (h : TimersAgree m) {f : StreamLists α ω → StreamLists α ω}
    (hlist : (f m.rest).timewaitList = m.rest.timewaitList)
    (hcnt : (f m.rest).timewaitListCnt = m.rest.timewaitListCnt) :
    TimersAgree (mapRest f m) where
  wheel := ⟨⟨h.wheel.mem, h.wheel.nodup⟩, h.wheel.slot, h.wheel.cnt⟩
  waiting := by
    intro i
    simpa only [ListManager.mapRest, hlist] using h.waiting i
  waitNodup := by simpa only [ListManager.mapRest, hlist] using h.waitNodup
  waitCnt := by simpa only [ListManager.mapRest, hlist, hcnt] using h.waitCnt
  apart := h.apart

theorem addtoRTOList (h : TimersAgree m) (i : α) : TimersAgree (m.addtoRTOList i) where
  wheel := h.wheel.addtoRTOList i
  waiting := by simpa only [addtoRTOList_rest, addtoRTOList_onTimewaitList] using h.waiting
  waitNodup := by simpa only [addtoRTOList_rest] using h.waitNodup
  waitCnt := by simpa only [addtoRTOList_rest] using h.waitCnt
  apart := by
    intro j hj
    rw [addtoRTOList_onTimewaitList] at hj
    have hidx : (m.rebase i).onRtoIdx = m.onRtoIdx := by unfold rebase; split <;> rfl
    have hwait : (m.rebase i).onTimewaitList = m.onTimewaitList := by
      unfold rebase; split <;> rfl
    unfold Manager.addtoRTOList
    dsimp only
    split
    · split
      · rw [hidx]
        exact h.apart j hj
      · next hi =>
        have hne : j ≠ i := by
          rintro rfl
          exact hi (by rw [hwait, hj])
        simp only [insertRTO, update_of_ne hne, hidx]
        exact h.apart j hj
    · rw [hidx]
      exact h.apart j hj

theorem armRTO (h : TimersAgree m) (i : α) (ts : UInt32) : TimersAgree (armRTO i ts m) := by
  refine TimersAgree.addtoRTOList ?_ i
  exact ⟨⟨⟨h.wheel.mem, h.wheel.nodup⟩, h.wheel.slot, h.wheel.cnt⟩, h.waiting, h.waitNodup,
    h.waitCnt, h.apart⟩

theorem onRtoIdx_deleteRTO (m : Manager α ω) (k : Nat) (i j : α) (hj : m.onRtoIdx j < 0) :
    (m.deleteRTO k i).onRtoIdx j < 0 := by
  by_cases hji : j = i
  · simp [Manager.deleteRTO, hji]
  · simpa [Manager.deleteRTO, hji] using hj

theorem delete (h : TimersAgree m) {k : Nat} (hi : m.onRtoIdx i = k) :
    TimersAgree { m.deleteRTO k i with rtoListCnt := m.rtoListCnt - 1 } where
  wheel := h.wheel.delete hi
  waiting := h.waiting
  waitNodup := h.waitNodup
  waitCnt := h.waitCnt
  apart := fun j hj => onRtoIdx_deleteRTO m k i j (h.apart j hj)

theorem removeFromRTOList (h : TimersAgree m) (i : α) : TimersAgree (m.removeFromRTOList i) := by
  unfold Manager.removeFromRTOList
  split
  · exact h
  · exact h.delete (by omega)

theorem leaveRTOList (h : TimersAgree m) (i : α) :
    TimersAgree (if 0 ≤ m.onRtoIdx i then m.removeFromRTOList i else m) := by
  split
  · exact h.removeFromRTOList i
  · exact h

theorem onRtoIdx_leaveRTOList (m : Manager α ω) (i : α) :
    (if 0 ≤ m.onRtoIdx i then m.removeFromRTOList i else m).onRtoIdx i < 0 := by
  split
  · next hi => simp [Manager.removeFromRTOList, not_lt.mpr hi, Manager.deleteRTO]
  · omega

theorem addtoTimewaitList (h : TimersAgree m) (ts : UInt32) (i : α) :
    TimersAgree (ListManager.addtoTimewaitList ts i m) := by
  unfold ListManager.addtoTimewaitList
  have hts : TimersAgree (ListManager.mapRest (fun r => { r with
      tsTwExpire := update r.tsTwExpire i ts }) m) := h.mapRest rfl rfl
  generalize ListManager.mapRest _ m = u at hts ⊢
  dsimp only
  split
  · next hi =>
    have hmem := (hts.waiting i).mpr hi
    have hp : (u.rest.timewaitList.erase i ++ [i]).Perm u.rest.timewaitList :=
      (perm_append_singleton i _).trans (perm_cons_erase hmem).symm
    refine ⟨⟨⟨hts.wheel.mem, hts.wheel.nodup⟩, hts.wheel.slot, hts.wheel.cnt⟩, ?_, ?_, ?_,
      hts.apart⟩
    · intro j
      exact hp.mem_iff.trans (hts.waiting j)
    · exact hp.nodup_iff.mpr hts.waitNodup
    · change u.rest.timewaitListCnt = (u.rest.timewaitList.erase i ++ [i]).length
      rw [hp.length_eq]
      exact hts.waitCnt
  · next hi =>
    have hoff := onRtoIdx_leaveRTOList u i
    have hleft := hts.leaveRTOList i
    have hwait : (if 0 ≤ u.onRtoIdx i then u.removeFromRTOList i else u).onTimewaitList =
        u.onTimewaitList := by
      split
      · exact removeFromRTOList_onTimewaitList u i
      · rfl
    rw [← hwait] at hi
    generalize (if 0 ≤ u.onRtoIdx i then u.removeFromRTOList i else u) = v at hoff hleft hi ⊢
    have hnotMem : i ∉ v.rest.timewaitList := by rwa [hleft.waiting]
    refine ⟨⟨⟨hleft.wheel.mem, hleft.wheel.nodup⟩, hleft.wheel.slot, hleft.wheel.cnt⟩,
      ?_, ?_, ?_, ?_⟩
    · intro j
      simp only [ListManager.mapRest]
      by_cases hj : j = i
      · simp [hj]
      · simpa [hj] using hleft.waiting j
    · exact (perm_append_singleton i _).nodup_iff.mpr (nodup_cons.mpr ⟨hnotMem, hleft.waitNodup⟩)
    · simp [ListManager.mapRest, hleft.waitCnt]
    · intro j hj
      by_cases hji : j = i
      · rw [hji]
        exact hoff
      · exact hleft.apart j (by simpa [ListManager.mapRest, hji] using hj)

theorem removeFromTimewaitList (h : TimersAgree m) (i : α) :
    TimersAgree (ListManager.removeFromTimewaitList i m) := by
  unfold ListManager.removeFromTimewaitList
  split
  · next hi =>
    have hmem := (h.waiting i).mpr hi
    have hpos := length_pos_of_mem hmem
    refine ⟨⟨⟨h.wheel.mem, h.wheel.nodup⟩, h.wheel.slot, h.wheel.cnt⟩, ?_, ?_, ?_, ?_⟩
    · intro j
      simp only [ListManager.mapRest, h.waitNodup.mem_erase_iff]
      by_cases hj : j = i
      · simp [hj]
      · simpa [hj] using h.waiting j
    · exact h.waitNodup.erase i
    · simp only [ListManager.mapRest, length_erase_of_mem hmem, h.waitCnt]
      omega
    · intro j hj
      by_cases hji : j = i
      · rw [hji]
        exact h.apart i hi
      · exact h.apart j (by simpa [ListManager.mapRest, hji] using hj)
  · exact h

end TimersAgree

end Mtcp
