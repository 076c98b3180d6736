import Mathlib.Data.List.Count
import Mathlib.Data.Option.Basic
import Mtcp.Spsc

namespace Mtcp.SendBuffers

open Spsc Runs List Option

/-! `SBInit` in the application and `SBFree` in the stack thread: send buffers go round through
`freeq`. -/

/-- A buffer is named by the chunk its `data` points to. `mp` has the chunks the pool can still
hand out, `owned` the buffers of the streams, `created` all that `SBInit` has made. -/
structure SbManager where
  curNum : UInt32 := 0
  mp : List Nat
  freeq : Spsc.State Nat
  owned : List Nat := []
  created : List Nat := []

def sbManagerCreate (mp : List Nat) (cnum : UInt32) : SbManager where
  mp := mp
  freeq := create Nat cnum.toNat

/-- `SBInit` after it has found `freeq` empty, with the answer of `malloc`. -/
def allocate (sbm : SbManager) (malloc : Bool) : SbManager :=
  match malloc, sbm.mp with
  | true, data :: mp =>
    { sbm with
      curNum := sbm.curNum + 1
      mp := mp
      owned := data :: sbm.owned
      created := data :: sbm.created }
  | _, _ => sbm

inductive Step where
  | sbInit
  | initNext (malloc : Bool)
  | sbFree (buf : Nat)
  | freeNext

/-- The buffer `SBDequeue` returns after its next access. -/
def dequeues : Spsc.Consumer Nat → List Nat
  | .readSlot buf _ => buf.toList
  | _ => []

/-- A thread begins a call when its last one is over. The stream whose buffer is freed gives it
up with the call. -/
def step (sbm : SbManager) : Step → SbManager
  | .sbInit => { sbm with freeq := Spsc.step sbm.freeq .dequeue }
  | .initNext malloc =>
    let next := { sbm with
      freeq := Spsc.step sbm.freeq .consume
      owned := dequeues sbm.freeq.consumer ++ sbm.owned }
    match sbm.freeq.consumer with
    | .readTail h t => if h ≠ t then next else allocate next malloc
    | _ => next
  | .sbFree buf =>
    match sbm.freeq.producer with
    | .idle =>
      if buf ∈ sbm.owned then
        { sbm with
          owned := sbm.owned.erase buf
          freeq := Spsc.step sbm.freeq (.enqueue buf) }
      else sbm
    | _ => sbm
  | .freeNext => { sbm with freeq := Spsc.step sbm.freeq .produce }

/-- The buffer `SBEnqueue` has been given and has not put into the queue. -/
def freeing : Producer Nat → List Nat
  | .idle => []
  | .readHead buf _ | .readTail buf _ _ | .wroteSlot buf _ => [buf]

/-- Each buffer is counted in the place where it is. -/
def Placed (sbm : SbManager) : Prop :=
  ∀ buf, sbm.owned.count buf + (freeing sbm.freeq.producer).count buf +
    sbm.freeq.enqueued.count buf = sbm.created.count buf + sbm.freeq.dequeued.count (some buf)

/-- While a buffer is on its way to the queue, the queue has not been seen full. -/
structure Counted (cnum : UInt32) (sbm : SbManager) : Prop where
  placed : Placed sbm
  fresh : (sbm.mp ++ sbm.created).Nodup
  chunks : sbm.mp.length + sbm.created.length ≤ cnum.toNat
  curNum : sbm.curNum = UInt32.ofNat sbm.created.length
  capacity : sbm.freeq.sq.capacity = cnum.toNat
  room : freeing sbm.freeq.producer = [] ∨ sbm.freeq.wasFull = false
  fulls : sbm.freeq.fulls = []

variable {cnum : UInt32} {sbm : SbManager} {xs : List (Option Nat)}

theorem Placed.partition (h : Placed sbm) (hn : Noted sbm.freeq xs) :
    ∃ queued, xs = queued.map some ∧
      (sbm.owned ++ freeing sbm.freeq.producer ++ queued).Perm sbm.created := by
  obtain ⟨taken, queued, henq, htaken, hqueued⟩ := map_eq_append_iff.mp hn.log.symm
  refine ⟨queued, hqueued.symm, perm_iff_count.mpr fun buf => ?_⟩
  have hcount := h buf
  rw [henq, ← htaken, count_append, count_map_of_injective _ _ (some_injective Nat)] at hcount
  rw [count_append, count_append]
  omega

/-- A buffer on its way to the queue is one of at most `cnum`, so the queue is not full. -/
theorem Counted.observe (h : Counted cnum sbm) (hn : Noted (observe sbm.freeq) xs) :
    Counted cnum { sbm with freeq := Spsc.observe sbm.freeq } := by
  refine ⟨h.placed, h.fresh, h.chunks, h.curNum, h.capacity, ?_, h.fulls⟩
  by_cases hidle : freeing sbm.freeq.producer = []
  · exact .inl hidle
  have hroom : sbm.freeq.wasFull = false := h.room.resolve_left hidle
  have hplaced : Placed { sbm with freeq := Spsc.observe sbm.freeq } := h.placed
  obtain ⟨queued, rfl, hperm⟩ := hplaced.partition hn
  have hlen := hperm.length_eq
  rw [length_append, length_append] at hlen
  have hqueue : remaining sbm.freeq.sq = queued.map some := hn.holds.between_eq
  have hlt : queued.length ≠ sbm.freeq.sq.capacity := by
    have hbusy := length_pos_of_ne_nil hidle
    have hchunks := h.chunks
    rw [h.capacity]
    dsimp only [Spsc.observe] at hlen
    omega
  right
  change (sbm.freeq.wasFull || (remaining sbm.freeq.sq).length == sbm.freeq.sq.capacity) = false
  rw [hroom, hqueue, length_map, Bool.false_or, beq_eq_false_iff_ne]
  exact hlt

theorem allocate_freeq (sbm : SbManager) (malloc : Bool) :
    (allocate sbm malloc).freeq = sbm.freeq := by
  unfold allocate
  split <;> rfl

section

variable (h : Counted cnum sbm)

include h

theorem Counted.allocate (malloc : Bool) : Counted cnum (allocate sbm malloc) := by
  unfold SendBuffers.allocate
  split
  · next data mp hmp =>
    have hfresh := h.fresh
    have hchunks := h.chunks
    rw [hmp] at hfresh hchunks
    refine ⟨fun buf => ?_, perm_middle.nodup_iff.mpr hfresh, ?_, ?_, h.capacity, h.room, h.fulls⟩
    · have hplaced := h.placed buf
      simp only [count_cons]
      omega
    · simp only [length_cons] at hchunks ⊢
      omega
    · rw [h.curNum]
      exact (UInt32.ofNat_add _ 1).symm
  · exact h

theorem counted_init : Counted cnum { sbm with freeq := act sbm.freeq .dequeue } := by
  unfold act
  cases sbm.freeq.consumer with
  | idle => exact ⟨h.placed, h.fresh, h.chunks, h.curNum, h.capacity, h.room, h.fulls⟩
  | readHead | readTail | readSlot => exact h

theorem counted_free (hp : sbm.freeq.producer = .idle) {buf : Nat}
    (hbuf : buf ∈ sbm.owned) : Counted cnum
      { sbm with owned := sbm.owned.erase buf, freeq := act sbm.freeq (.enqueue buf) } := by
  unfold act
  rw [hp]
  refine ⟨fun b => ?_, h.fresh, h.chunks, h.curNum, h.capacity, .inr rfl, h.fulls⟩
  have hplaced := h.placed b
  rw [hp] at hplaced
  have hcount := (perm_cons_erase hbuf).count_eq b
  rw [count_cons] at hcount
  simp only [freeing, count_cons, count_nil] at hplaced ⊢
  omega

/-- A call that finds the queue full has seen it full, which it cannot have. -/
theorem counted_produce (hn : Noted sbm.freeq xs) :
    Counted cnum { sbm with freeq := produce sbm.freeq } := by
  have hplaced := h.placed
  have hroom := h.room
  have hproducing := hn.producing
  unfold Placed at hplaced
  unfold produce
  cases hp : sbm.freeq.producer with
  | idle => exact h
  | readHead buf head =>
    rw [hp] at hplaced hroom
    exact ⟨hplaced, h.fresh, h.chunks, h.curNum, h.capacity, hroom, h.fulls⟩
  | readTail buf head tail =>
    rw [hp] at hplaced hroom hproducing
    obtain ⟨rfl, -, hfull⟩ := hproducing
    have hseen : sbm.freeq.wasFull = false := hroom.resolve_left (cons_ne_nil _ _)
    have hne : nextIndex sbm.freeq.sq sbm.freeq.sq.tail ≠ head := by
      intro heq
      rw [hfull heq] at hseen
      cases hseen
    dsimp only
    rw [if_pos hne]
    exact ⟨hplaced, h.fresh, h.chunks, h.curNum, h.capacity, hroom, h.fulls⟩
  | wroteSlot buf nt =>
    rw [hp] at hplaced
    refine ⟨fun b => ?_, h.fresh, h.chunks, h.curNum, h.capacity, .inl rfl, h.fulls⟩
    have hcount := hplaced b
    simp only [freeing, count_append, count_nil] at hcount ⊢
    omega

theorem counted_consume (hn : Noted sbm.freeq xs) : Counted cnum { sbm with
      freeq := consume sbm.freeq
      owned := dequeues sbm.freeq.consumer ++ sbm.owned } := by
  have hconsuming := hn.consuming
  unfold consume
  cases hc : sbm.freeq.consumer with
  | idle => exact h
  | readHead head => exact ⟨h.placed, h.fresh, h.chunks, h.curNum, h.capacity, h.room, h.fulls⟩
  | readTail head tail =>
    dsimp only
    split <;> exact ⟨h.placed, h.fresh, h.chunks, h.curNum, h.capacity, h.room, h.fulls⟩
  | readSlot buf head =>
    rw [hc] at hconsuming
    obtain ⟨queued, rfl, -⟩ := h.placed.partition hn
    obtain ⟨b, -, rfl⟩ := mem_map.mp (mem_of_head? hconsuming.2)
    refine ⟨fun b' => ?_, h.fresh, h.chunks, h.curNum, h.capacity, h.room, h.fulls⟩
    have hplaced := h.placed b'
    simp only [dequeues, toList_some, singleton_append, count_cons, count_append,
      count_nil, beq_iff_eq, some.injEq] at hplaced ⊢
    omega

end

theorem counted_step (e : Step) (h : ∃ xs, Noted sbm.freeq xs ∧ Counted cnum sbm) :
    ∃ xs, Noted (step sbm e).freeq xs ∧ Counted cnum (step sbm e) := by
  obtain ⟨xs, hn, h⟩ := h
  have hnext : ∀ a, ∃ ys, Noted (Spsc.step sbm.freeq a) ys := fun a => noted_step ⟨xs, hn⟩ a
  cases e with
  | sbInit =>
    obtain ⟨ys, hys⟩ := hnext .dequeue
    exact ⟨ys, hys, (counted_init h).observe hys⟩
  | initNext malloc =>
    obtain ⟨ys, hys⟩ := hnext .consume
    have hnew := (counted_consume h hn).observe hys
    dsimp only [step]
    split
    · split
      · exact ⟨ys, hys, hnew⟩
      · refine ⟨ys, ?_, hnew.allocate malloc⟩
        rw [allocate_freeq]
        exact hys
    · exact ⟨ys, hys, hnew⟩
  | sbFree buf =>
    dsimp only [step]
    split
    · next hp =>
      split
      · next hbuf =>
        obtain ⟨ys, hys⟩ := hnext (.enqueue buf)
        exact ⟨ys, hys, (counted_free h hp hbuf).observe hys⟩
      · exact ⟨xs, hn, h⟩
    · exact ⟨xs, hn, h⟩
  | freeNext =>
    obtain ⟨ys, hys⟩ := hnext .produce
    exact ⟨ys, hys, (counted_produce h hn).observe hys⟩

/-- In whatever order the accesses of the two threads come: every buffer is in one place, with one
stream, in `freeq` or in the hands of `SBFree`; there are `cur_num` of them, at most `cnum`; and
`SBEnqueue` has never found the queue full. -/
theorem buffers_recycled (mp : List Nat) (cnum : UInt32) (hmp : mp.Nodup)
    (hcnum : mp.length ≤ cnum.toNat) (steps : List Step) :
    ∃ sbm, sbm = steps.foldl step (sbManagerCreate mp cnum) ∧
      (∃ queued, remaining sbm.freeq.sq = queued.map some ∧
        (sbm.owned ++ freeing sbm.freeq.producer ++ queued).Perm sbm.created) ∧
      sbm.created.Nodup ∧ sbm.curNum.toNat = sbm.created.length ∧
      sbm.curNum.toNat ≤ cnum.toNat ∧ sbm.freeq.fulls = [] := by
  have hstart : Counted cnum (sbManagerCreate mp cnum) :=
    ⟨fun _ => rfl, (List.append_nil mp).symm ▸ hmp, hcnum, rfl, rfl, .inl rfl, rfl⟩
  obtain ⟨xs, hn, h⟩ := @foldl_invariant _ _ step
    (fun sbm => ∃ xs, Noted sbm.freeq xs ∧ Counted cnum sbm) (fun _ _ => True)
    (fun _ e h _ => counted_step e h) (sbManagerCreate mp cnum) steps
    ⟨[], noted_create _, hstart⟩ (along_of_forall (fun _ _ => trivial) _ steps)
  have hle : (steps.foldl step (sbManagerCreate mp cnum)).created.length ≤ cnum.toNat :=
    Nat.le_of_add_left_le h.chunks
  have hnum := (congrArg UInt32.toNat h.curNum).trans
    (UInt32.toNat_ofNat_of_lt' (Nat.lt_of_le_of_lt hle cnum.toNat_lt))
  refine ⟨_, rfl, ?_, (List.nodup_append.mp h.fresh).2.1, hnum,
    Nat.le_trans (Nat.le_of_eq hnum) hle, h.fulls⟩
  rw [show remaining _ = xs from hn.holds.between_eq]
  exact h.placed.partition hn

theorem buffers_recycled_one : ∃ sbm, sbm = [.sbInit, .initNext true, .initNext true, .sbFree 7,
      .freeNext, .freeNext, .sbInit, .freeNext, .initNext true, .initNext true,
      .initNext true].foldl step (sbManagerCreate [7] 1) ∧ sbm.owned = [7] ∧ sbm.curNum.toNat ≤ 1 ∧
      sbm.freeq.fulls = [] := by
  obtain ⟨sbm, rfl, -, -, -, hnum, hfulls⟩ := buffers_recycled [7] 1 (by decide) (by decide)
    [.sbInit, .initNext true, .initNext true, .sbFree 7, .freeNext, .freeNext, .sbInit, .freeNext,
      .initNext true, .initNext true, .initNext true]
  exact ⟨_, rfl, by decide, hnum, hfulls⟩

end Mtcp.SendBuffers
