import Mtcp.Manager
import Mtcp.Runs

namespace Mtcp

open Serial Runs Manager List UInt32 Bool Prod
open Function (update update_of_ne update_self)

variable {α : Type} [DecidableEq α]

/-! When the retransmission wheel calls `HandleRTO`. -/

/-- `HandleRTO` leaves the wheel alone; here it is only recorded. -/
def logRTO (i : α) (m : Manager α (List α)) : Manager α (List α) := { m with rest := m.rest ++ [i] }

/-- The wheel under a clock that does not wrap around: the time of the last call, the time
`rto_now_ts` stands for, and the deadlines of the streams that were inserted and neither
handled nor removed since. -/
structure TimedWheel (α : Type) where
  wheel : Manager α (List α) := { rest := [] }
  now : Nat := 0
  base : Nat := 0
  pending : List (α × Nat) := []

inductive TimerCall (α : Type) where
  | insert (i : α) (rto : Nat)
  | remove (i : α)
  | check (thresh : Int)

/-- One call of `CheckRtmTimeout`: whether `thresh` ended it, and the wheel with the streams
that were handled. -/
def checkAt (w : Manager α (List α)) (t : Nat) (thresh : Int) : Bool × Manager α (List α) :=
  Manager.checkRtmTimeout logRTO (fun _ m => m) (UInt32.ofNat t) thresh { w with rest := [] }

/-- A call at time `t`. Inserting sets `ts_rto`; a stream that is on the wheel stays where it
is. -/
def timerStep (s : TimedWheel α) (e : Nat × TimerCall α) : TimedWheel α :=
  match e.2 with
  | .insert i rto =>
    if s.wheel.onRtoIdx i < 0 then
      { wheel := { s.wheel with
          tsRto := Function.update s.wheel.tsRto i (UInt32.ofNat (e.1 + rto)) }.addtoRTOList i
        now := e.1
        base := if s.wheel.rtoListCnt = 0 then e.1 + rto else s.base
        pending := s.pending ++ [(i, e.1 + rto)] }
    else { s with wheel := s.wheel.addtoRTOList i, now := e.1 }
  | .remove i =>
    { s with
      wheel := s.wheel.removeFromRTOList i
      now := e.1
      pending := s.pending.filter fun p => p.1 ≠ i }
  | .check thresh =>
    { wheel := (checkAt s.wheel e.1 thresh).2
      now := e.1
      base := if s.wheel.rtoListCnt = 0 then s.base else max s.base (e.1 + 1)
      pending := s.pending.filter fun p => p.1 ∉ (checkAt s.wheel e.1 thresh).2.rest }

/-- `HandleRTO` is called once for each stream that is due, and for no other. -/
def OnTime (s : TimedWheel α) (t : Nat) (thresh : Int) : Prop :=
  (checkAt s.wheel t thresh).2.rest.Nodup ∧
    ∀ i, i ∈ (checkAt s.wheel t thresh).2.rest ↔ ∃ d ≤ t, (i, d) ∈ s.pending

/-- The clock does not run backwards, timeouts are positive and below 2^30 ticks, and `thresh`
ends no check. -/
def regularCall (s : TimedWheel α) (e : Nat × TimerCall α) : Bool :=
  decide (s.now ≤ e.1) &&
    match e.2 with
    | .insert _ rto => decide (1 ≤ rto) && decide (rto < 1073741824)
    | .remove _ => true
    | .check thresh => !(checkAt s.wheel e.1 thresh).1

/-- The wheel is not 2^30 ticks behind the clock; no stream is due whose deadline lies behind
the position of the wheel, and none waits in the last slot when it is rearranged. -/
def wheelReady (s : TimedWheel α) (e : Nat × TimerCall α) : Bool :=
  decide (s.wheel.rtoListCnt = 0) ||
    match e.2 with
    | .insert _ _ => decide (e.1 < s.base + 1073741824)
    | .remove _ => true
    | .check _ =>
      decide (e.1 < s.base + 1073741824) &&
        (s.pending.all fun p => decide (s.base ≤ p.2) || decide (e.1 < p.2)) &&
        ((s.wheel.rtoList 3000).isEmpty ||
          decide (s.wheel.rtoNowIdx.toNat % 1000 + (e.1 + 1 - s.base) < 1000))

/-- Where the streams with a deadline are. One whose deadline lies behind the position can be
anywhere. -/
structure Placed (m : Manager α (List α)) (base : Nat) (pending : List (α × Nat)) : Prop where
  nowTs : m.rtoNowTs = UInt32.ofNat base
  nowIdx : m.rtoNowIdx.toNat < 3000
  cnt : m.rtoListCnt = pending.length
  ids : (pending.map Prod.fst).Nodup
  on : ∀ i, 0 ≤ m.onRtoIdx i ↔ i ∈ pending.map Prod.fst
  linked : RtoLinked m
  timewait : ∀ i, m.onTimewaitList i = false
  slot : ∀ i d, (i, d) ∈ pending → base ≤ d →
    (d < base + 3000 ∧ m.onRtoIdx i = ((m.rtoNowIdx.toNat + (d - base)) % 3000 : Nat)) ∨
    (m.onRtoIdx i = 3000 ∧ base + 3000 ≤ d + m.rtoNowIdx.toNat % 1000)

theorem wheelSlot_ofNat {a b : Nat} {idx : UInt32} (h1 : b ≤ a) (h2 : a < b + 2147483648)
    (hidx : idx.toNat < 3000) :
    wheelSlot (UInt32.ofNat a - UInt32.ofNat b) idx = (idx.toNat + (a - b)) % 3000 := by
  unfold wheelSlot
  rw [UInt32.toNat_mod, UInt32.toNat_add, UInt32.toNat_sub, UInt32.toNat_ofNat',
    toNat_ofNat', show (3000 : UInt32).toNat = 3000 from rfl]
  omega

theorem nextIdx_toNat {idx : UInt32} (h : idx.toNat < 3000) :
    ((idx + 1) % 3000).toNat = (idx.toNat + 1) % 3000 := by
  rw [UInt32.toNat_mod, UInt32.toNat_add]
  change (idx.toNat + 1) % 4294967296 % 3000 = _
  omega

/-! The three calls. -/

section calls

variable {m : Manager α (List α)} {base : Nat} {pending : List (α × Nat)}

omit [DecidableEq α] in
theorem Placed.pending_of_cnt (h : Placed m base pending) (hcnt : m.rtoListCnt = 0) :
    pending = [] := by
  have hlen := h.cnt
  rw [hcnt] at hlen
  exact length_eq_zero_iff.mp (by omega)

omit [DecidableEq α] in
/-- Without a stream on it, the wheel can be turned to any deadline. -/
theorem Placed.rebase (h : Placed m base pending) (i : α) (d : Nat)
    (hts : m.tsRto i = UInt32.ofNat d) :
    Placed (m.rebase i) (if m.rtoListCnt = 0 then d else base) pending := by
  unfold Manager.rebase
  by_cases hcnt : m.rtoListCnt = 0
  · rw [if_pos hcnt, if_pos hcnt]
    have hnil := h.pending_of_cnt hcnt
    subst hnil
    exact ⟨hts, Nat.succ_pos _, h.cnt, h.ids, h.on, ⟨h.linked.mem, h.linked.nodup⟩, h.timewait,
      fun _ _ hp => nomatch hp⟩
  · rw [if_neg hcnt, if_neg hcnt]
    exact h

theorem Placed.insertRTO (h : Placed m base pending) {i : α} (hi : m.onRtoIdx i < 0) (d : Nat)
    (hnear : d < base + 2147483648) (hback : base ≤ d + 2147483648)
    {k : Nat} (hk : k = if signed (UInt32.ofNat d - m.rtoNowTs) < 3000 then
      wheelSlot (UInt32.ofNat d - m.rtoNowTs) m.rtoNowIdx else 3000) :
    Placed { m.insertRTO k i with rtoListCnt := m.rtoListCnt + 1 } base (pending ++ [(i, d)]) := by
  have hnew : i ∉ pending.map fst := by
    rw [← h.on]
    omega
  have hlinked := h.linked.insertRTO hi k
  refine ⟨h.nowTs, h.nowIdx, ?_, ?_, ?_, ⟨hlinked.mem, hlinked.nodup⟩, h.timewait, ?_⟩
  · simp [h.cnt]
  · rw [map_append]
    exact nodup_append.mpr ⟨h.ids, nodup_singleton i, by
      rintro a ha b hb rfl
      rw [mem_singleton.mp hb] at ha
      exact hnew ha⟩
  · intro j
    change 0 ≤ update m.onRtoIdx i k j ↔ _
    by_cases hj : j = i
    · simp [hj]
    · simp [hj, h.on]
  · intro j e hmem hle
    change (e < base + 3000 ∧ update m.onRtoIdx i k j = _) ∨
      (update m.onRtoIdx i k j = 3000 ∧ base + 3000 ≤ e + m.rtoNowIdx.toNat % 1000)
    obtain hold | hone := mem_append.mp hmem
    · have hj : j ≠ i := by
        rintro rfl
        exact hnew (mem_map_of_mem hold)
      rw [update_of_ne hj]
      exact h.slot j e hold hle
    · obtain ⟨rfl, rfl⟩ := mk.inj (mem_singleton.mp hone)
      rw [update_self, hk, h.nowTs, signed_ofNat_sub hnear hback]
      by_cases hshort : (e : Int) - base < 3000
      · rw [if_pos hshort, wheelSlot_ofNat hle hnear h.nowIdx]
        exact .inl ⟨by omega, rfl⟩
      · rw [if_neg hshort]
        exact .inr ⟨rfl, by omega⟩

theorem Placed.insert (h : Placed m base pending) {i : α} (hi : m.onRtoIdx i < 0) (d : Nat)
    (hnear : m.rtoListCnt = 0 ∨ d < base + 2147483648 ∧ base ≤ d + 2147483648) :
    Placed ({ m with tsRto := update m.tsRto i (ofNat d) }.addtoRTOList i)
      (if m.rtoListCnt = 0 then d else base) (pending ++ [(i, d)]) := by
  generalize hu : ({ m with tsRto := Function.update m.tsRto i (UInt32.ofNat d) } :
    Manager α (List α)) = u
  have hts : u.tsRto i = UInt32.ofNat d := by
    rw [← hu]
    exact update_self i _ _
  have hplaced : Placed u base pending := by
    rw [← hu]
    exact ⟨h.nowTs, h.nowIdx, h.cnt, h.ids, h.on, ⟨h.linked.mem, h.linked.nodup⟩, h.timewait,
      h.slot⟩
  have hcnt : u.rtoListCnt = m.rtoListCnt := hu ▸ rfl
  have hidx : u.onRtoIdx i < 0 := hu ▸ hi
  have hbase := hplaced.rebase i d hts
  have htsr : (u.rebase i).tsRto i = UInt32.ofNat d := by
    unfold Manager.rebase
    split <;> exact hts
  have hidxr : (u.rebase i).onRtoIdx i < 0 := by
    unfold Manager.rebase
    split <;> exact hidx
  rw [hcnt] at hbase
  unfold Manager.addtoRTOList
  rw [if_pos hidxr, hbase.timewait i, if_neg Bool.false_ne_true]
  refine hbase.insertRTO hidxr d ?_ ?_ ?_
  · split
    · omega
    · next hc => exact (hnear.resolve_left hc).1
  · split
    · omega
    · next hc => exact (hnear.resolve_left hc).2
  · rw [htsr]

omit [DecidableEq α] in
theorem Placed.deadline_eq (h : Placed m base pending) {i : α} {d e : Nat}
    (hd : (i, d) ∈ pending) (he : (i, e) ∈ pending) : d = e :=
  congrArg snd (inj_on_of_nodup_map h.ids hd he rfl)

theorem Placed.delete (h : Placed m base pending) {i : α} {k : Nat} (hi : m.onRtoIdx i = k) :
    Placed { m.deleteRTO k i with rtoListCnt := m.rtoListCnt - 1 } base
      (pending.filter fun p => p.1 ≠ i) := by
  have hmap : (pending.filter fun p => p.1 ≠ i).map fst = (pending.map fst).erase i := by
    rw [h.ids.erase_eq_filter, filter_map]
    congr 2
    funext p
    by_cases hp : p.1 = i <;> simp [hp]
  have hon : i ∈ pending.map fst := by
    rw [← h.on, hi]
    omega
  have hlinked := h.linked.deleteRTO hi
  refine ⟨h.nowTs, h.nowIdx, ?_, ?_, ?_, ⟨hlinked.mem, hlinked.nodup⟩, h.timewait, ?_⟩
  · have hlen := length_erase_of_mem hon
    have hpos := length_pos_of_mem hon
    rw [← hmap, length_map, length_map] at hlen
    rw [length_map] at hpos
    change m.rtoListCnt - 1 = _
    rw [h.cnt, hlen]
    omega
  · rw [hmap]
    exact h.ids.erase i
  · intro j
    rw [hmap, h.ids.mem_erase_iff]
    change 0 ≤ update m.onRtoIdx i (-1) j ↔ _
    by_cases hj : j = i
    · simp [hj]
    · simp [hj, h.on]
  · intro j e hmem hle
    obtain ⟨hold, hne⟩ := mem_filter.mp hmem
    have hj : j ≠ i := of_decide_eq_true hne
    change (e < base + 3000 ∧ update m.onRtoIdx i (-1) j = _) ∨
      (update m.onRtoIdx i (-1) j = 3000 ∧ base + 3000 ≤ e + m.rtoNowIdx.toNat % 1000)
    rw [update_of_ne hj]
    exact h.slot j e hold hle

theorem Placed.remove (h : Placed m base pending) (i : α) :
    Placed (m.removeFromRTOList i) base (pending.filter fun p => p.1 ≠ i) := by
  unfold Manager.removeFromRTOList
  by_cases hi : m.onRtoIdx i < 0
  · rw [if_pos hi]
    have hall : pending.filter (fun p => p.1 ≠ i) = pending := by
      rw [filter_eq_self]
      rintro ⟨j, e⟩ hp
      have hj : j ≠ i := by
        rintro rfl
        exact absurd ((h.on j).mpr (mem_map_of_mem hp)) (by omega)
      simpa using hj
    rw [hall]
    exact h
  · rw [if_neg hi]
    exact h.delete (Int.toNat_of_nonneg (not_lt.mp hi)).symm

theorem Placed.checkSlot {k : Nat} {thresh : Int} {xs : List α} (hxs : m.rtoList k = xs)
    (h : Placed m base pending) {cnt : Int}
    (hcut : ¬ thresh < (checkSlot logRTO (fun _ m => m) k thresh xs cnt m).1) :
    Placed (Manager.checkSlot logRTO (fun _ m => m) k thresh xs cnt m).2 base
        (pending.filter fun p => p.1 ∉ xs) ∧
      (Manager.checkSlot logRTO (fun _ m => m) k thresh xs cnt m).2.rest = m.rest ++ xs ∧
      (Manager.checkSlot logRTO (fun _ m => m) k thresh xs cnt m).2.rtoNowIdx = m.rtoNowIdx ∧
      ∀ k' ≠ k, (Manager.checkSlot logRTO (fun _ m => m) k thresh xs cnt m).2.rtoList k' =
        m.rtoList k' := by
  induction xs generalizing m cnt pending with
  | nil =>
    refine ⟨?_, (List.append_nil _).symm, rfl, fun _ _ => rfl⟩
    have hall : pending.filter (fun p => p.1 ∉ ([] : List α)) = pending := by simp
    rw [hall]
    exact h
  | cons walk next ih =>
    have hidx : m.onRtoIdx walk = k := by
      rw [← h.linked.mem, hxs]
      exact (.head _)
    unfold Manager.checkSlot at hcut ⊢
    by_cases hthresh : thresh < cnt + 1
    · rw [if_pos hthresh] at hcut
      exact absurd hthresh hcut
    · rw [if_neg hthresh, if_pos (by omega)] at hcut ⊢
      have hdel := h.delete hidx
      generalize hu : ({ m.deleteRTO k walk with rtoListCnt := m.rtoListCnt - 1 } :
        Manager α (List α)) = u at hcut hdel ⊢
      have hlist : (logRTO walk u).rtoList k = next := by
        rw [← hu]
        change Function.update m.rtoList k ((m.rtoList k).erase walk) k = next
        rw [Function.update_self, hxs, List.erase_cons_head]
      have hlog : Placed (logRTO walk u) base (pending.filter fun p => p.1 ≠ walk) :=
        ⟨hdel.nowTs, hdel.nowIdx, hdel.cnt, hdel.ids, hdel.on,
          ⟨hdel.linked.mem, hdel.linked.nodup⟩, hdel.timewait, hdel.slot⟩
      obtain ⟨h1, h2, h3, h4⟩ := ih hlist hlog hcut
      refine ⟨?_, ?_, ?_, ?_⟩
      · rw [List.filter_filter] at h1
        have hpred : (fun p : α × Nat => decide (p.1 ∉ walk :: next)) =
            fun p => decide (p.1 ∉ next) && decide (p.1 ≠ walk) := by
          funext p
          simp [Bool.and_comm]
        rw [hpred]
        exact h1
      · rw [h2, ← hu]
        simp [logRTO, deleteRTO]
      · rw [h3, ← hu]
        rfl
      · intro k' hk
        rw [h4 k' hk, ← hu]
        exact Function.update_of_ne hk _ _

theorem Placed.tick (h : Placed m base pending) (hdone : ∀ p ∈ pending, base < p.2)
    (hlast : m.rtoList 3000 = [] ∨ m.rtoNowIdx.toNat % 1000 + 1 < 1000) :
    Placed m.tick (base + 1) pending := by
  have hidx := h.nowIdx
  have hnext := nextIdx_toNat hidx
  have hturn : Placed { m with
      rtoNowIdx := (m.rtoNowIdx + 1) % 3000, rtoNowTs := m.rtoNowTs + 1 } (base + 1) pending := by
    refine ⟨?_, ?_, h.cnt, h.ids, h.on, ⟨h.linked.mem, h.linked.nodup⟩, h.timewait, ?_⟩
    · rw [h.nowTs, ofNat_add]
      rfl
    · change ((m.rtoNowIdx + 1) % 3000).toNat < 3000
      omega
    · intro i d hp _
      have hlt := hdone _ hp
      rw [hnext]
      obtain ⟨h1, h2⟩ | ⟨h1, h2⟩ := h.slot i d hp (by omega)
      · refine .inl ⟨by omega, ?_⟩
        rw [h2]
        omega
      · refine .inr ⟨h1, ?_⟩
        obtain hempty | hroom := hlast
        · have hmem := (h.linked.mem 3000 i).mpr h1
          rw [hempty] at hmem
          cases hmem
        · omega
  unfold Manager.tick
  dsimp only
  split
  · next hround =>
    obtain hempty | hroom := hlast
    · unfold Manager.rearrangeRTOStore
      rw [hempty]
      exact hturn
    · have hzero := congrArg UInt32.toNat hround
      rw [UInt32.toNat_mod, hnext] at hzero
      change (m.rtoNowIdx.toNat + 1) % 3000 % 1000 = 0 at hzero
      omega
  · exact hturn

end calls

/-! A whole check. -/

theorem tick_rest (m : Manager α (List α)) : m.tick.rest = m.rest := tick_frame rearrange_rest

theorem tick_nowIdx (m : Manager α (List α)) : m.tick.rtoNowIdx = (m.rtoNowIdx + 1) % 3000 :=
  tick_frame rearrange_nowIdx

theorem tick_last (m : Manager α (List α)) (h : m.rtoList 3000 = []) :
    m.tick.rtoList 3000 = [] := by
  unfold Manager.tick Manager.rearrangeRTOStore
  dsimp only
  rw [h]
  split <;> exact h

/-- The wheel in the middle of a check that began with `start`: what was due before the
position has been handled, once. -/
structure Turning (start : List (α × Nat)) (m : Manager α (List α)) (base : Nat) : Prop where
  placed : Placed m base (start.filter fun p => base ≤ p.2)
  handled : ∀ i, i ∈ m.rest ↔ ∃ d < base, (i, d) ∈ start
  once : m.rest.Nodup

section check

variable {start : List (α × Nat)} {m : Manager α (List α)} {base : Nat}

omit [DecidableEq α] in
theorem Turning.mem_slot (h : Turning start m base) (i : α) :
    i ∈ m.rtoList m.rtoNowIdx.toNat ↔ (i, base) ∈ start := by
  have hidx := h.placed.nowIdx
  rw [h.placed.linked.mem]
  constructor
  · intro hi
    have hon := (h.placed.on i).mp (by omega)
    obtain ⟨⟨j, d⟩, hp, rfl⟩ := mem_map.mp hon
    obtain ⟨hstart, hle⟩ := mem_filter.mp hp
    have hle := of_decide_eq_true hle
    dsimp only at hle hi
    have hd : d = base := by
      obtain ⟨h1, h2⟩ | ⟨h1, _⟩ := h.placed.slot j d hp hle
      · rw [h2] at hi
        omega
      · omega
    exact hd ▸ hstart
  · intro hi
    have hp : (i, base) ∈ start.filter fun p => base ≤ p.2 :=
      mem_filter.mpr ⟨hi, decide_eq_true (le_refl base)⟩
    obtain ⟨_, h2⟩ | ⟨_, h2⟩ := h.placed.slot i base hp (le_refl base)
    · rw [h2]
      omega
    · omega

theorem Turning.round (hids : (start.map fst).Nodup) (h : Turning start m base)
    {thresh cnt : Int} (hcut : ¬ thresh < (checkSlot logRTO (fun _ m => m) m.rtoNowIdx.toNat thresh
      (m.rtoList m.rtoNowIdx.toNat) cnt m).1)
    (hlast : m.rtoList 3000 = [] ∨ m.rtoNowIdx.toNat % 1000 + 1 < 1000) :
    Turning start (checkSlot logRTO (fun _ m => m) m.rtoNowIdx.toNat thresh
      (m.rtoList m.rtoNowIdx.toNat) cnt m).2.tick (base + 1) := by
  have hidx := h.placed.nowIdx
  have hslot := h.mem_slot
  have hnodup := h.placed.linked.nodup m.rtoNowIdx.toNat
  obtain ⟨hp, hrest, hsame, hother⟩ := h.placed.checkSlot rfl hcut
  have huniq : ∀ {i : α} {d e : Nat}, (i, d) ∈ start → (i, e) ∈ start → d = e := fun hd he =>
    congrArg snd (inj_on_of_nodup_map hids hd he rfl)
  generalize (checkSlot logRTO (fun _ m => m) m.rtoNowIdx.toNat thresh
    (m.rtoList m.rtoNowIdx.toNat) cnt m).2 = u at hp hrest hsame hother ⊢
  have hleft : (start.filter fun p => base ≤ p.2).filter
      (fun p => p.1 ∉ m.rtoList m.rtoNowIdx.toNat) = start.filter fun p => base + 1 ≤ p.2 := by
    rw [filter_filter]
    apply filter_congr
    rintro ⟨i, d⟩ hmem
    rw [Bool.eq_iff_iff]
    simp only [and_eq_true, decide_eq_true_eq, hslot]
    constructor
    · rintro ⟨hne, hle⟩
      have : d ≠ base := by
        rintro rfl
        exact hne hmem
      omega
    · intro hle
      exact ⟨fun hb => by have := huniq hb hmem; omega, by omega⟩
  rw [hleft] at hp
  refine ⟨hp.tick ?_ ?_, ?_, ?_⟩
  · intro p hmem
    have := of_decide_eq_true (mem_filter.mp hmem).2
    omega
  · rw [hsame, hother 3000 (by omega)]
    exact hlast
  · intro i
    rw [tick_rest, hrest, mem_append, h.handled, hslot]
    constructor
    · rintro (⟨d, hd, hmem⟩ | hmem)
      · exact ⟨d, by omega, hmem⟩
      · exact ⟨base, by omega, hmem⟩
    · rintro ⟨d, hd, hmem⟩
      obtain hlt | heq := Nat.lt_succ_iff_lt_or_eq.mp hd
      · exact .inl ⟨d, hlt, hmem⟩
      · exact .inr (heq ▸ hmem)
  · rw [tick_rest, hrest]
    refine nodup_append.mpr ⟨h.once, hnodup, ?_⟩
    rintro i hi j hj rfl
    obtain ⟨d, hd, hmem⟩ := (h.handled i).mp hi
    have := huniq hmem ((hslot i).mp hj)
    omega

theorem Turning.loop (hids : (start.map fst).Nodup) {t : Nat} (h : Turning start m base)
    (hpos : base ≤ t + 1) (hnear : t < base + 2147483648)
    (hlast : m.rtoList 3000 = [] ∨ m.rtoNowIdx.toNat % 1000 + (t + 1 - base) < 1000)
    {thresh cnt : Int} {fuel : Nat} (hfuel : t + 1 - base ≤ fuel)
    (hcut : (checkLoop logRTO (fun _ m => m) (ofNat t) thresh fuel cnt m).1 = false) :
    Turning start (checkLoop logRTO (fun _ m => m) (ofNat t) thresh fuel cnt m).2 (t + 1) := by
  induction fuel generalizing m base cnt with
  | zero =>
    have hb : base = t + 1 := by omega
    exact hb ▸ h
  | succ fuel ih =>
    unfold checkLoop at hcut ⊢
    rw [h.placed.nowTs, signed_ofNat_sub hnear (by omega)] at hcut ⊢
    by_cases hover : (t : Int) - base < 0
    · rw [if_pos hover]
      have hb : base = t + 1 := by omega
      exact hb ▸ h
    · rw [if_neg hover] at hcut ⊢
      have hidx := h.placed.nowIdx
      have hround : _ → _ → Turning start _ (base + 1) := @Turning.round _ _ start m base hids h
        thresh cnt
      have hslot := @Placed.checkSlot _ _ m base _ m.rtoNowIdx.toNat thresh _ rfl h.placed cnt
      generalize checkSlot logRTO (fun _ m => m) m.rtoNowIdx.toNat thresh
        (m.rtoList m.rtoNowIdx.toNat) cnt m = r at hcut hround hslot ⊢
      obtain ⟨cnt', u⟩ := r
      dsimp only at hcut hround hslot ⊢
      by_cases hthresh : thresh < cnt'
      · rw [if_pos hthresh] at hcut
        cases hcut
      · rw [if_neg hthresh] at hcut ⊢
        obtain ⟨_, _, hsame, hother⟩ := hslot hthresh
        refine ih (hround hthresh (hlast.imp_right fun _ => by omega)) (by omega) (by omega) ?_
          (by omega) hcut
        obtain hempty | hroom := hlast
        · exact .inl (tick_last u ((hother 3000 (by omega)).trans hempty))
        · right
          rw [tick_nowIdx, hsame, nextIdx_toNat hidx]
          omega

omit [DecidableEq α] in
theorem Placed.clearLog {pending : List (α × Nat)} (h : Placed m base pending) :
    Placed { m with rest := [] } base pending :=
  ⟨h.nowTs, h.nowIdx, h.cnt, h.ids, h.on, ⟨h.linked.mem, h.linked.nodup⟩, h.timewait, h.slot⟩

theorem Placed.check {s : TimedWheel α} (h : Placed s.wheel s.base s.pending) {t : Nat}
    {thresh : Int} (hahead : s.base ≤ t + 1073741824) (hcut : (checkAt s.wheel t thresh).1 = false)
    (hready : wheelReady s (t, .check thresh)) : OnTime s t thresh ∧
      Placed (checkAt s.wheel t thresh).2
        (if s.wheel.rtoListCnt = 0 then s.base else max s.base (t + 1))
        (s.pending.filter fun p => p.1 ∉ (checkAt s.wheel t thresh).2.rest) := by
  have hclear := h.clearLog
  -- a check that looks at no slot
  have hidle : (∀ p ∈ s.pending, t < p.2) →
      checkAt s.wheel t thresh = (false, { s.wheel with rest := [] }) → OnTime s t thresh ∧
        Placed (checkAt s.wheel t thresh).2 s.base
          (s.pending.filter fun p => p.1 ∉ (checkAt s.wheel t thresh).2.rest) := by
    intro hlater heq
    unfold OnTime
    rw [heq]
    refine ⟨⟨List.nodup_nil, fun i => ?_⟩, ?_⟩
    · constructor
      · intro hi
        cases hi
      · rintro ⟨d, hd, hmem⟩
        have := hlater _ hmem
        omega
    · have hall : s.pending.filter (fun p => p.1 ∉ ([] : List α)) = s.pending := by simp
      rw [hall]
      exact hclear
  by_cases hcnt : s.wheel.rtoListCnt = 0
  · rw [if_pos hcnt]
    refine hidle ?_ (if_pos hcnt)
    rw [h.pending_of_cnt hcnt]
    intro p hp
    cases hp
  · simp only [wheelReady, hcnt, decide_false, Bool.false_or, Bool.and_eq_true, decide_eq_true_eq,
      List.all_eq_true, Bool.or_eq_true, List.isEmpty_iff] at hready
    obtain ⟨⟨hnear, hbehind⟩, hlast⟩ := hready
    rw [if_neg hcnt]
    by_cases hpos : s.base ≤ t
    · have hfrom : ∀ p ∈ s.pending, s.base ≤ p.2 := by
        intro p hp
        have := hbehind p hp
        omega
      have hall : s.pending.filter (fun p => s.base ≤ p.2) = s.pending :=
        List.filter_eq_self.mpr fun p hp => decide_eq_true (hfrom p hp)
      have hturn : Turning s.pending { s.wheel with rest := [] } s.base := by
        refine ⟨hall.symm ▸ hclear, fun i => ⟨fun hi => (nomatch hi), ?_⟩, List.nodup_nil⟩
        rintro ⟨d, hd, hmem⟩
        have := hfrom _ hmem
        omega
      have heq : checkAt s.wheel t thresh = checkLoop logRTO (fun _ m => m) (UInt32.ofNat t) thresh
          ((signed (UInt32.ofNat t - s.wheel.rtoNowTs)).toNat + 1) 0
          { s.wheel with rest := [] } := if_neg hcnt
      rw [h.nowTs, signed_ofNat_sub (by omega) (by omega)] at heq
      rw [heq] at hcut
      have hend := hturn.loop h.ids (by omega) (by omega) hlast (by omega) hcut
      rw [← heq] at hend
      have hdue : ∀ i, i ∈ (checkAt s.wheel t thresh).2.rest ↔ ∃ d ≤ t, (i, d) ∈ s.pending := by
        intro i
        rw [hend.handled]
        simp only [Nat.lt_succ_iff]
      refine ⟨⟨hend.once, hdue⟩, ?_⟩
      have hleft : (s.pending.filter fun p => p.1 ∉ (checkAt s.wheel t thresh).2.rest) =
          s.pending.filter fun p => t + 1 ≤ p.2 := by
        apply List.filter_congr
        rintro ⟨i, d⟩ hmem
        rw [Bool.eq_iff_iff]
        simp only [decide_eq_true_eq, hdue]
        constructor
        · intro hno
          by_contra hle
          exact hno ⟨d, by omega, hmem⟩
        · rintro hle ⟨e, he, hmem'⟩
          have := h.deadline_eq hmem hmem'
          omega
      rw [hleft, max_eq_right (by omega)]
      exact hend.placed
    · rw [max_eq_left (by omega)]
      refine hidle (fun p hp => ?_) ?_
      · have := hbehind p hp
        omega
      · have hneg : signed (UInt32.ofNat t - s.wheel.rtoNowTs) < 0 := by
          rw [h.nowTs, signed_ofNat_sub (by omega) (by omega)]
          omega
        refine (if_neg hcnt).trans ?_
        exact if_pos hneg

end check

def WheelInv (s : TimedWheel α) : Prop :=
  Placed s.wheel s.base s.pending ∧ s.base ≤ s.now + 1073741824

theorem wheelInv_step (s : TimedWheel α) (e : Nat × TimerCall α) (h : WheelInv s)
    (hc : (regularCall s e && wheelReady s e)) : WheelInv (timerStep s e) := by
  obtain ⟨hplaced, hahead⟩ := h
  obtain ⟨hreg, hready⟩ := and_eq_true_iff.mp hc
  obtain ⟨t, call⟩ := e
  obtain ⟨hclock, hreg⟩ := and_eq_true_iff.mp hreg
  have hclock : s.now ≤ t := of_decide_eq_true hclock
  unfold timerStep WheelInv
  cases call with
  | insert i rto =>
    simp only [and_eq_true, decide_eq_true_eq] at hreg
    simp only [wheelReady, or_eq_true, decide_eq_true_eq] at hready
    dsimp only
    by_cases hi : s.wheel.onRtoIdx i < 0
    · rw [if_pos hi]
      refine ⟨hplaced.insert hi (t + rto) (hready.imp_right fun h => by omega), ?_⟩
      dsimp only
      split <;> omega
    · rw [if_neg hi]
      have hon : s.wheel.rtoListCnt ≠ 0 := by
        intro hcnt
        have hmem := (hplaced.on i).mp (not_lt.mp hi)
        rw [hplaced.pending_of_cnt hcnt] at hmem
        cases hmem
      have hsame : s.wheel.addtoRTOList i = s.wheel := by
        unfold Manager.addtoRTOList Manager.rebase
        rw [if_neg hon]
        exact if_neg hi
      dsimp only
      rw [hsame]
      exact ⟨hplaced, by omega⟩
  | remove i => exact ⟨hplaced.remove i, by dsimp only; omega⟩
  | check thresh =>
    have hcut : (checkAt s.wheel t thresh).1 = false := by simpa using hreg
    refine ⟨(hplaced.check (by omega) hcut hready).2, ?_⟩
    dsimp only
    split <;> omega

omit [DecidableEq α] in
theorem wheelInv_start : WheelInv ({} : TimedWheel α) := by
  refine ⟨⟨rfl, Nat.succ_pos _, rfl, nodup_nil, fun i => ?_, ⟨fun k i => ?_, fun _ =>
    nodup_nil⟩, fun _ => rfl, fun _ _ hp => (nomatch hp)⟩, Nat.zero_le _⟩
  · simp
  · simp

/-- Each check handles exactly the streams that are due, as long as no deadline lies behind
the position of the wheel when it is due, the last slot is empty when it is rearranged, and
the wheel is not left 2^30 ticks behind the clock. -/
theorem wheel_fires_on_time (es : List (Nat × TimerCall α)) (t : Nat) (thresh : Int)
    (ha : Along timerStep (fun s e => (regularCall s e && wheelReady s e) = true)
      ({} : TimedWheel α) (es ++ [(t, .check thresh)])) :
    OnTime (es.foldl timerStep {}) t thresh := by
  obtain ⟨hes, hcheck⟩ := ha.of_append
  obtain ⟨hplaced, hahead⟩ := foldl_invariant wheelInv_step wheelInv_start hes
  obtain ⟨hreg, hready⟩ := Bool.and_eq_true_iff.mp hcheck.1
  obtain ⟨hclock, hcut⟩ := Bool.and_eq_true_iff.mp hreg
  have hclock := of_decide_eq_true hclock
  exact (hplaced.check (by omega) (by simpa using hcut) hready).1

theorem wheel_fires_on_time_thrice :
    (checkAt (([(0, .insert 1 200), (5, .insert 2 300), (7, .insert 3 250), (9, .remove 3),
      (201, .check 9)] : List (Nat × TimerCall Nat)).foldl timerStep {}).wheel 305 9).2.rest = [2] ∧
    OnTime (([(0, .insert 1 200), (5, .insert 2 300), (7, .insert 3 250), (9, .remove 3),
      (201, .check 9)] : List (Nat × TimerCall Nat)).foldl timerStep {}) 305 9 :=
  ⟨by decide +kernel, wheel_fires_on_time _ 305 9 (by decide +kernel)⟩

/-- An empty wheel is re-based on a deadline 1000 ticks ahead, and a stream due after 200 is
missed. A stream due after 3297 waits in the last slot and is handled after 1001. -/
theorem wheel_misses_deadlines :
    ¬ OnTime (([(0, .insert 1 1000), (0, .insert 2 200)] :
        List (Nat × TimerCall Nat)).foldl timerStep {}) 200 9 ∧
      ¬ OnTime (([(0, .insert 1 1), (0, .insert 2 3297), (1, .check 9)] :
        List (Nat × TimerCall Nat)).foldl timerStep {}) 1001 9 := by
  constructor
  · intro h
    have hmissed : (checkAt (([(0, .insert 1 1000), (0, .insert 2 200)] :
        List (Nat × TimerCall Nat)).foldl timerStep {}).wheel 200 9).2.rest = [] := by
      decide +kernel
    have hdue := (h.2 2).mpr ⟨200, le_refl 200, by decide +kernel⟩
    rw [hmissed] at hdue
    cases hdue
  · intro h
    have hearly : (checkAt (([(0, .insert 1 1), (0, .insert 2 3297), (1, .check 9)] :
        List (Nat × TimerCall Nat)).foldl timerStep {}).wheel 1001 9).2.rest = [2] := by
      decide +kernel
    have hpending : (([(0, .insert 1 1), (0, .insert 2 3297), (1, .check 9)] :
        List (Nat × TimerCall Nat)).foldl timerStep {}).pending = [(2, 3297)] := by
      decide +kernel
    obtain ⟨d, hd, hmem⟩ := (h.2 2).mp (by rw [hearly]; exact List.mem_singleton.mpr rfl)
    rw [hpending] at hmem
    have := (Prod.mk.inj (List.mem_singleton.mp hmem)).2
    omega

end Mtcp
