import Mtcp.Epoll

namespace Mtcp.Pipes

open Flags Runs CountedRing List EventPoll

inductive Errno where
  | badf | inval | again | pipe
  deriving DecidableEq, Repr

/-- `struct pipe`; `socket` are the slots of its two ends. -/
structure RingPipe extends Pipe where
  socket : Bool → Nat
  buf : List UInt8
  bufOff : Nat
  bufTail : Nat

/-- What a call ends with: an error, or a count and the bytes it copied. A call on a blocking
end may have to wait. -/
inductive Outcome where
  | failed (e : Errno)
  | copied (n : Int) (bytes : List UInt8)
  | waits
  deriving DecidableEq, Repr

def raiseEventToPair (i : Nat) (event : UInt32) (pp : RingPipe) (p : EventPoll) : EventPoll :=
  let pair := if pp.socket false = i then pp.socket true else pp.socket false
  if (p.socket pair).nonblock ∧ (p.socket pair).epoll ≠ 0 then (addEpollEvent .usr pair event p).2
  else p

def levelTriggered (event : UInt32) (k : Socket) : Bool :=
  decide (Meets k.epoll event) && !decide (Meets k.epoll EPOLLET)

/-- The tests that both calls make first. -/
def pipeError (i : Nat) (pp : RingPipe) (p : EventPoll) : Option Errno :=
  if (p.socket i).socktype ≠ .pipe then some .badf
  else if (p.socket i).ptr = .null then some .badf
  else if pp.state = .closed then some .inval
  else none

def noBytes (i : Nat) (p : EventPoll) : Outcome :=
  if (p.socket i).nonblock then .failed .again else .copied 0 []

def RingPipe.readBytes (n : Nat) (pp : RingPipe) : RingPipe :=
  { pp with bufOff := advance pp.bufSize pp.bufOff n, bufLen := pp.bufLen - n }

def RingPipe.writeBytes (bytes : List UInt8) (pp : RingPipe) : RingPipe :=
  { pp with
    buf := writeBlock pp.buf pp.bufTail bytes
    bufTail := advance pp.bufSize pp.bufTail bytes.length
    bufLen := pp.bufLen + bytes.length }

def pipeRead (i : Nat) (len : Int) (pp : RingPipe) (p : EventPoll) :
    Outcome × RingPipe × EventPoll :=
  match pipeError i pp p with
  | some e => (.failed e, pp, p)
  | none =>
    if pp.state = .closeWait ∧ pp.bufLen = 0 then (.copied 0 [], pp, p)
    else if len ≤ 0 then (noBytes i p, pp, p)
    else if (p.socket i).nonblock = false ∧ pp.bufLen = 0 then (.waits, pp, p)
    else
      let toRead := min len.toNat pp.bufLen
      if toRead = 0 then
        (if pp.state = .active then .failed .again else .copied 0 [], pp, p)
      else
        let t := pp.readBytes toRead
        let p := if pp.bufLen = pp.bufSize then raiseEventToPair i EPOLLOUT pp p else p
        let p :=
          if 0 < t.bufLen then p.raiseIf (levelTriggered EPOLLIN) i EPOLLIN
          else if t.state = .closeWait then (addEpollEvent .usrShadow i EPOLLIN p).2
          else p
        (.copied toRead (readBlock pp.buf pp.bufOff toRead), t, p)

def bytesFrom (memory : Nat → UInt8) (n : Nat) : List UInt8 := (List.range n).map memory

def pipeWrite (i : Nat) (memory : Nat → UInt8) (len : Int) (pp : RingPipe) (p : EventPoll) :
    Outcome × RingPipe × EventPoll :=
  match pipeError i pp p with
  | some e => (.failed e, pp, p)
  | none =>
    if pp.state = .closeWait then (.failed .pipe, pp, p)
    else if len ≤ 0 then (noBytes i p, pp, p)
    else if (p.socket i).nonblock = false ∧ pp.bufLen = pp.bufSize then (.waits, pp, p)
    else
      let toWrite := min len.toNat (pp.bufSize - pp.bufLen)
      if toWrite = 0 then (.failed .again, pp, p)
      else
        let bytes := bytesFrom memory toWrite
        let t := pp.writeBytes bytes
        let p := if pp.bufLen = 0 then raiseEventToPair i EPOLLIN pp p else p
        let p :=
          if t.bufLen < t.bufSize then p.raiseIf (levelTriggered EPOLLOUT) i EPOLLOUT else p
        (.copied toWrite bytes, t, p)

inductive PipeCall where
  | read (side : Bool) (len : Int)
  | write (side : Bool) (memory : Nat → UInt8) (len : Int)

structure Traffic where
  pipe : RingPipe
  poll : EventPoll
  written : List UInt8 := []
  taken : List UInt8 := []

def Outcome.bytes : Outcome → List UInt8
  | .copied _ bytes => bytes
  | _ => []

def Traffic.call (t : Traffic) : PipeCall → Outcome × RingPipe × EventPoll
  | .read side len => pipeRead (t.pipe.socket side) len t.pipe t.poll
  | .write side memory len => pipeWrite (t.pipe.socket side) memory len t.pipe t.poll

def Traffic.step (t : Traffic) (c : PipeCall) : Traffic :=
  let r := t.call c
  { pipe := r.2.1
    poll := r.2.2
    written := match c with
      | .write _ _ _ => t.written ++ r.1.bytes
      | .read _ _ => t.written
    taken := match c with
      | .read _ _ => t.taken ++ r.1.bytes
      | .write _ _ _ => t.taken }

def RingPipe.contents (pp : RingPipe) : List UInt8 :=
  (List.range pp.bufLen).map fun k => pp.buf.getD (pos pp.bufSize pp.bufOff k) 0

def tests (k : Socket) : SockType × SockPtr × Bool := (k.socktype, k.ptr, k.nonblock)

structure Active (pp : RingPipe) (p : EventPoll) : Prop where
  state : pp.state = .active
  size : 0 < pp.bufSize
  length : pp.buf.length = pp.bufSize
  ends : ∀ side, ∃ ptr ≠ SockPtr.null, tests (p.socket (pp.socket side)) = (.pipe, ptr, true)

structure Queues (pp : RingPipe) (p : EventPoll) (xs : List UInt8) : Prop extends Active pp p where
  holds : Holds pp.buf pp.bufOff pp.bufLen xs
  tail : pp.bufTail = pos pp.bufSize pp.bufOff pp.bufLen

variable {pp : RingPipe} {p : EventPoll} {xs : List UInt8} {i : Nat} {event : UInt32}

theorem addEpollEvent_tests (q : EventQueueType) (i : Nat) (event : UInt32) (p : EventPoll)
    (j : Nat) : tests ((addEpollEvent q i event p).2.socket j) = tests (p.socket j) := by
  unfold addEpollEvent
  split_ifs
  · rfl
  · rfl
  · rfl
  · simp only [register, socket]
    by_cases h : j = i
    · subst h
      rw [modify_smap_self]
      rfl
    · rw [modify_smap_ne _ _ h]

theorem raiseIf_tests (test : Socket → Bool) (j : Nat) :
    tests ((p.raiseIf test i event).socket j) = tests (p.socket j) := by
  unfold raiseIf
  split
  · exact addEpollEvent_tests _ _ _ _ j
  · rfl

theorem raiseEventToPair_tests (j : Nat) :
    tests ((raiseEventToPair i event pp p).socket j) = tests (p.socket j) := by
  unfold raiseEventToPair
  dsimp only
  generalize (if pp.socket false = i then _ else _) = pair
  split
  · exact addEpollEvent_tests _ _ _ _ j
  · rfl

namespace Queues

theorem congr {q : EventPoll} (h : Queues pp p xs)
    (hq : ∀ j, tests (q.socket j) = tests (p.socket j)) : Queues pp q xs := by
  refine ⟨⟨h.state, h.size, h.length, fun side => ?_⟩, h.holds, h.tail⟩
  rw [hq]
  exact h.ends side

section

variable (h : Queues pp p xs)
include h

theorem bufLen_eq : pp.bufLen = xs.length := h.holds.count_eq

theorem bufLen_le : pp.bufLen ≤ pp.bufSize := h.length ▸ h.holds.count_le

theorem bufOff_lt : pp.bufOff < pp.bufSize := h.length ▸ h.holds.start_lt

theorem bufTail_lt : pp.bufTail < pp.bufSize := h.tail ▸ Nat.mod_lt _ h.size

theorem contents_eq : pp.contents = xs := by
  apply ext_getElem?
  intro k
  rw [RingPipe.contents, getElem?_map, h.bufLen_eq]
  by_cases hk : k < xs.length
  · have hcell := h.holds.cell k hk
    rw [h.length] at hcell
    rw [getElem?_range hk, Option.map_some, getD_eq_getElem?_getD, hcell,
      getElem?_eq_getElem hk, Option.getD_some]
  · rw [getElem?_eq_none (by simpa using hk), getElem?_eq_none (by omega)]
    rfl

theorem readBytes {n : Nat} (hn : n ≤ pp.bufLen) : Queues (pp.readBytes n) p (xs.drop n) := by
  have hpop := h.holds.popBlock hn
  have hoff := advance_eq h.bufOff_lt (hn.trans h.bufLen_le)
  rw [h.length] at hpop
  refine ⟨⟨h.state, h.size, h.length, h.ends⟩, hpop, ?_⟩
  change pp.bufTail = pos pp.bufSize (advance pp.bufSize pp.bufOff n) (pp.bufLen - n)
  rw [hoff, pos_pos, Nat.add_sub_cancel' hn]
  exact h.tail

theorem writeBytes {bytes : List UInt8} (hroom : pp.bufLen + bytes.length ≤ pp.bufSize) :
    Queues (pp.writeBytes bytes) p (xs ++ bytes) := by
  have htail := h.tail
  have hpush := h.holds.pushBlock (h.length.symm ▸ hroom)
  rw [h.length, ← htail] at hpush
  refine ⟨⟨h.state, h.size, ?_, h.ends⟩, hpush, ?_⟩
  · have hlen := @length_writeBlock _ pp.buf pp.bufTail bytes (h.length.symm ▸ h.bufTail_lt)
      (by rw [h.length]; omega)
    exact hlen.trans h.length
  · change advance pp.bufSize pp.bufTail bytes.length =
      pos pp.bufSize pp.bufOff (pp.bufLen + bytes.length)
    rw [advance_eq h.bufTail_lt (by omega), htail, pos_pos]

theorem passes (side : Bool) :
    pipeError (pp.socket side) pp p = none ∧ (p.socket (pp.socket side)).nonblock := by
  obtain ⟨ptr, hptr, hends⟩ := h.ends side
  have htype : (p.socket (pp.socket side)).socktype = .pipe := congrArg (·.1) hends
  have hnull : (p.socket (pp.socket side)).ptr = ptr := congrArg (·.2.1) hends
  refine ⟨?_, congrArg (·.2.2) hends⟩
  rw [pipeError, htype, hnull, h.state, if_neg (by decide), if_neg hptr, if_neg (by decide)]

theorem read (side : Bool) (len : Int) {n : Nat} (hn : n = min len.toNat pp.bufLen) :
    ∃ t q, pipeRead (pp.socket side) len pp p =
        (if n = 0 then .failed .again else .copied n (xs.take n), t, q) ∧
      Queues t q (xs.drop n) ∧ t.bufSize = pp.bufSize := by
  obtain ⟨herror, hnonblock⟩ := h.passes side
  unfold pipeRead
  rw [herror, hnonblock, h.state]
  rw [if_neg (by simp), noBytes, hnonblock, if_pos rfl, ← hn]
  have hnone : n = 0 → Queues pp p (xs.drop n) := fun h0 => by
    rw [h0]
    exact h
  by_cases hlen : len ≤ 0
  · have h0 : n = 0 := by omega
    rw [if_pos hlen, if_pos h0]
    exact ⟨pp, p, rfl, hnone h0, rfl⟩
  · rw [if_neg hlen, if_neg (by simp)]
    by_cases h0 : n = 0
    · rw [if_pos h0, if_pos h0, if_pos rfl]
      exact ⟨pp, p, rfl, hnone h0, rfl⟩
    · have hle : n ≤ pp.bufLen := hn ▸ min_le_right _ _
      rw [if_neg h0, if_neg h0, h.holds.readBlock_eq hle]
      refine ⟨_, _, rfl, (h.readBytes hle).congr fun j => ?_, rfl⟩
      split_ifs <;> simp only [raiseIf_tests, addEpollEvent_tests, raiseEventToPair_tests]

theorem write (side : Bool) (memory : Nat → UInt8) (len : Int) {n : Nat}
    (hn : n = min len.toNat (pp.bufSize - pp.bufLen)) :
    ∃ t q, pipeWrite (pp.socket side) memory len pp p =
        (if n = 0 then .failed .again else .copied n (bytesFrom memory n), t, q) ∧
      Queues t q (xs ++ bytesFrom memory n) ∧ t.bufSize = pp.bufSize := by
  obtain ⟨herror, hnonblock⟩ := h.passes side
  unfold pipeWrite
  rw [herror, hnonblock, h.state]
  rw [if_neg (by simp), noBytes, hnonblock, if_pos rfl, ← hn]
  have hnone : n = 0 → Queues pp p (xs ++ bytesFrom memory n) := fun h0 => by
    rw [h0, bytesFrom, range_zero, map_nil, append_nil]
    exact h
  by_cases hlen : len ≤ 0
  · have h0 : n = 0 := by omega
    rw [if_pos hlen, if_pos h0]
    exact ⟨pp, p, rfl, hnone h0, rfl⟩
  · rw [if_neg hlen, if_neg (by simp)]
    by_cases h0 : n = 0
    · rw [if_pos h0, if_pos h0]
      exact ⟨pp, p, rfl, hnone h0, rfl⟩
    · have hroom : pp.bufLen + (bytesFrom memory n).length ≤ pp.bufSize := by
        have hle := h.bufLen_le
        rw [bytesFrom, length_map, length_range]
        omega
      rw [if_neg h0, if_neg h0]
      refine ⟨_, _, rfl, (h.writeBytes hroom).congr fun j => ?_, rfl⟩
      split_ifs <;> simp only [raiseIf_tests, raiseEventToPair_tests]

end

end Queues

theorem bytes_of_count (n : Nat) (bytes : List UInt8) (h : n = 0 → bytes = []) :
    (if n = 0 then Outcome.failed .again else .copied n bytes).bytes = bytes := by
  split
  · next h0 => exact (h h0).symm
  · rfl

/-- Between the calls the bytes written are those taken and those in the pipe. -/
structure Traffic.Fifo (size : Nat) (t : Traffic) : Prop where
  queues : Queues t.pipe t.poll t.pipe.contents
  size : t.pipe.bufSize = size
  order : t.written = t.taken ++ t.pipe.contents

theorem fifo_step {size : Nat} (t : Traffic) (c : PipeCall) (h : t.Fifo size) :
    (t.step c).Fifo size := by
  cases c with
  | read side len =>
    obtain ⟨u, q, heq, hq, hsize⟩ := h.queues.read side len rfl
    have hc := hq.contents_eq
    have hbytes := bytes_of_count (min len.toNat t.pipe.bufLen)
      (t.pipe.contents.take (min len.toNat t.pipe.bufLen)) fun h0 => by rw [h0]; rfl
    refine ⟨?_, ?_, ?_⟩
    · simpa only [Traffic.step, Traffic.call, heq, hc] using hq
    · simpa only [Traffic.step, Traffic.call, heq] using hsize.trans h.size
    · simp only [Traffic.step, Traffic.call, heq, hc, hbytes]
      rw [append_assoc, take_append_drop]
      exact h.order
  | write side memory len =>
    obtain ⟨u, q, heq, hq, hsize⟩ := h.queues.write side memory len rfl
    have hc := hq.contents_eq
    have hbytes := bytes_of_count (min len.toNat (t.pipe.bufSize - t.pipe.bufLen))
      (bytesFrom memory (min len.toNat (t.pipe.bufSize - t.pipe.bufLen))) fun h0 => by rw [h0]; rfl
    refine ⟨?_, ?_, ?_⟩
    · simpa only [Traffic.step, Traffic.call, heq, hc] using hq
    · simpa only [Traffic.step, Traffic.call, heq] using hsize.trans h.size
    · simp only [Traffic.step, Traffic.call, heq, hc, hbytes]
      rw [h.order, append_assoc]

theorem fifo_run {pp : RingPipe} {p : EventPoll} (h : Active pp p) (hoff : pp.bufOff = 0)
    (htail : pp.bufTail = 0) (hlen : pp.bufLen = 0) (cs : List PipeCall) :
    (cs.foldl Traffic.step ⟨pp, p, [], []⟩).Fifo pp.bufSize := by
  have hstart : Queues pp p [] := by
    refine ⟨h, ?_, ?_⟩
    · rw [hoff, hlen]
      exact holds_empty (h.length ▸ h.size)
    · rw [htail, hoff, hlen, pos, Nat.add_zero, Nat.zero_mod]
  have hnone := hstart.contents_eq
  refine @foldl_invariant _ _ Traffic.step _ (fun _ _ => True) (fun t c ht _ => fifo_step t c ht)
    _ cs ⟨?_, rfl, ?_⟩ (along_of_forall (fun _ _ => trivial) _ cs)
  · rw [hnone]
    exact hstart
  · rw [hnone]
    rfl

/-- A pipe is a bounded queue of bytes: after any calls from both ends what was written is what
was read and what is still inside, the indices point at its ends, and the next call moves as many
bytes as it asks for and can get. -/
theorem pipe_is_bounded_fifo {pp : RingPipe} {p : EventPoll} (h : Active pp p)
    (hoff : pp.bufOff = 0) (htail : pp.bufTail = 0) (hlen : pp.bufLen = 0)
    (cs : List PipeCall) :
    let t := cs.foldl Traffic.step ⟨pp, p, [], []⟩
    t.written = t.taken ++ t.pipe.contents ∧
      t.pipe.contents.length = t.pipe.bufLen ∧ t.pipe.bufLen ≤ pp.bufSize ∧
      t.pipe.bufTail = (t.pipe.bufOff + t.pipe.bufLen) % pp.bufSize ∧
      t.pipe.bufOff < pp.bufSize ∧ t.pipe.bufTail < pp.bufSize ∧
      (∀ side len n, n = min len.toNat t.pipe.bufLen →
        (t.call (.read side len)).1 =
            (if n = 0 then .failed .again else .copied n (t.pipe.contents.take n)) ∧
          (t.step (.read side len)).pipe.contents = t.pipe.contents.drop n ∧
          t.pipe.bufOff + n < 2 * pp.bufSize) ∧
      (∀ side memory len n, n = min len.toNat (pp.bufSize - t.pipe.bufLen) →
        (t.call (.write side memory len)).1 =
            (if n = 0 then .failed .again else .copied n (bytesFrom memory n)) ∧
          (t.step (.write side memory len)).pipe.contents =
            t.pipe.contents ++ bytesFrom memory n ∧
          t.pipe.bufTail + n < 2 * pp.bufSize) ∧
      ∀ side memory len, (pp.bufSize : Int) - t.pipe.bufLen ≤ len →
        (t.step (.write side memory len)).pipe.bufLen = pp.bufSize := by
  have hfifo := fifo_run h hoff htail hlen cs
  intro t
  change t.Fifo pp.bufSize at hfifo
  have hq := hfifo.queues
  have hsize := hfifo.size
  have hle := hq.bufLen_le
  have hlow := hq.bufOff_lt
  have hhigh := hq.bufTail_lt
  rw [hsize] at hle hlow hhigh
  refine ⟨hfifo.order, hq.bufLen_eq.symm, hle, hsize ▸ hq.tail, hlow, hhigh,
    fun side len n hn => ?_, fun side memory len n hn => ?_, fun side memory len hroom => ?_⟩
  · obtain ⟨u, q, heq, hu, -⟩ := hq.read side len hn
    refine ⟨congrArg Prod.fst heq, ?_, by omega⟩
    simpa only [Traffic.step, Traffic.call, heq] using hu.contents_eq
  · rw [← hsize] at hn
    obtain ⟨u, q, heq, hu, -⟩ := hq.write side memory len hn
    refine ⟨congrArg Prod.fst heq, ?_, by omega⟩
    simpa only [Traffic.step, Traffic.call, heq] using hu.contents_eq
  · obtain ⟨u, q, heq, hu, -⟩ := hq.write side memory len rfl
    have hfull := hu.bufLen_eq
    rw [List.length_append, ← hq.bufLen_eq, bytesFrom, List.length_map, List.length_range] at hfull
    simp only [Traffic.step, Traffic.call, heq]
    omega

def fourBytes : RingPipe where
  state := .active
  bufLen := 0
  bufSize := 4
  socket := fun side => cond side 1 0
  buf := [0, 0, 0, 0]
  bufOff := 0
  bufTail := 0

def pipeEnds : EventPoll :=
  mtcpEpollCreate 8 ⟨fun _ => { socktype := .pipe, nonblock := true, ptr := .other }, []⟩

theorem pipe_is_bounded_fifo_four :
    let t := [PipeCall.write true (fun k => UInt8.ofNat k) 3, .read false 2,
      .write false (fun _ => 7) 9].foldl Traffic.step ⟨fourBytes, pipeEnds, [], []⟩
    t.pipe.contents = [2, 7, 7, 7] ∧ t.pipe.bufTail = 2 ∧
      t.written = t.taken ++ t.pipe.contents := by
  have hactive : Active fourBytes pipeEnds :=
    ⟨rfl, by decide, rfl, fun side => ⟨.other, by decide, rfl⟩⟩
  exact ⟨by decide, by decide, (pipe_is_bounded_fifo hactive rfl rfl rfl _).1⟩

end Mtcp.Pipes
