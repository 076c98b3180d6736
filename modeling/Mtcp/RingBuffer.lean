import Mtcp.Bytes
import Mtcp.Serial

namespace Mtcp

open Bytes

/-- `struct fragment_ctx`; the length is a 31-bit field. -/
structure FragmentCtx where
  seq : UInt32
  len : Nat
  deriving DecidableEq, Repr

/-- `struct tcp_ring_buffer`, its fragment contexts as a list and its pointers as offsets. -/
structure TcpRingBuffer where
  data : List UInt8
  head : Nat
  headOffset : Nat
  tailOffset : Nat
  mergedLen : Nat
  cumLen : Nat
  lastLen : Nat
  size : Nat
  headSeq : UInt32
  initSeq : UInt32
  fctx : List FragmentCtx
  deriving DecidableEq, Repr

namespace RingBuffer

def rbInit (junk : Nat → UInt8) (chunkSize : Nat) (initSeq : UInt32) : TcpRingBuffer where
  data := (List.range chunkSize).map junk
  head := 0
  headOffset := 0
  tailOffset := 0
  mergedLen := 0
  cumLen := 0
  lastLen := 0
  size := chunkSize
  headSeq := initSeq
  initSeq := initSeq
  fctx := []

def getMinSeq (a b : UInt32) : UInt32 :=
  if a = b then a else
  if a < b then (if (b - a).toNat ≤ 2147483647 then a else b)
  else (if (a - b).toNat ≤ 2147483647 then b else a)

def getMaxSeq (a b : UInt32) : UInt32 :=
  if a = b then a else
  if a < b then (if (b - a).toNat ≤ 2147483647 then b else a)
  else (if (a - b).toNat ≤ 2147483647 then a else b)

def canMerge (a b : FragmentCtx) : Bool :=
  let aEnd := a.seq + UInt32.ofNat a.len + 1
  let bEnd := b.seq + UInt32.ofNat b.len + 1
  !(getMinSeq aEnd b.seq == aEnd || getMinSeq bEnd a.seq == bEnd)

def mergeFragments (a b : FragmentCtx) : FragmentCtx :=
  let minSeq := getMinSeq a.seq b.seq
  let maxSeq := getMaxSeq (a.seq + UInt32.ofNat a.len) (b.seq + UInt32.ofNat b.len)
  ⟨minSeq, (maxSeq - minSeq).toNat % 2147483648⟩

/-- The loop of `RBPut` over the fragments: those in front of the cursor, the one being merged,
whether it is in the list, and the rest. -/
def mergeLoop (endSeq : UInt32) :
    List FragmentCtx → FragmentCtx → Bool → List FragmentCtx →
      List FragmentCtx × FragmentCtx × Bool × List FragmentCtx
  | pre, new, merged, [] => (pre, new, merged, [])
  | pre, new, merged, iter :: rest =>
    if canMerge new iter then mergeLoop endSeq pre (mergeFragments new iter) true rest
    else if merged || getMaxSeq endSeq iter.seq == iter.seq then (pre, new, merged, iter :: rest)
    else mergeLoop endSeq (pre ++ [iter]) new merged rest

/-- Where an unmerged fragment is linked in; `none` when the `assert` on the
predecessor fails. -/
def linkFragment (fctx pre : List FragmentCtx) (new : FragmentCtx) (iter : List FragmentCtx) :
    Option (List FragmentCtx) :=
  match fctx with
  | [] => some [new]
  | first :: _ =>
    if getMinSeq new.seq first.seq = new.seq then some (new :: fctx)
    else
      match pre.getLast? with
      | none => none
      | some prev =>
        let prevEnd := prev.seq + UInt32.ofNat prev.len
        if getMinSeq new.seq prevEnd = prevEnd then some (pre ++ new :: iter) else none

def putFragment (fctx : List FragmentCtx) (new : FragmentCtx) : Option (List FragmentCtx) :=
  match mergeLoop (new.seq + UInt32.ofNat new.len) [] new false fctx with
  | (pre, frag, true, iter) => some (pre ++ frag :: iter)
  | (pre, frag, false, iter) => linkFragment fctx pre frag iter

/-- Offsets and contents after the copy of `RBPut`, compacting first when the new bytes
would reach the end of the block. -/
def copyIn (buff : TcpRingBuffer) (bytes : List UInt8) (putx : Nat) : TcpRingBuffer :=
  let endOff := putx + bytes.length
  let buff :=
    if buff.size ≤ buff.headOffset + endOff then
      { buff with
        data := memmove buff.data 0 buff.head buff.lastLen
        tailOffset := buff.tailOffset - buff.headOffset
        headOffset := 0
        head := 0 }
    else buff
  let tail := if buff.tailOffset < buff.headOffset + endOff then buff.headOffset + endOff
    else buff.tailOffset
  { buff with
    data := memcpy buff.data (buff.head + putx) bytes
    tailOffset := tail
    lastLen := tail - buff.headOffset }

/-- What `RBPut` did: its return value, or the fault it ran into. -/
inductive PutResult where
  | ret (code : Int)
  | assertFailed
  | outOfBounds
  deriving DecidableEq, Repr

/-- `RBPut`. The window test is made on signed 32-bit offsets; a segment half the
sequence space away can pass it with a negative offset and is copied in front of the block.
Without a fragment context the bytes are copied and forgotten. -/
def rbPut (fragAlloc : Bool) (buff : TcpRingBuffer) (bytes : List UInt8) (curSeq : UInt32) :
    PutResult × TcpRingBuffer :=
  if bytes.length = 0 then (.ret 0, buff) else
  if getMinSeq buff.headSeq curSeq ≠ buff.headSeq then (.ret 0, buff) else
  let putx := Serial.signed (curSeq - buff.headSeq)
  let endOff := Serial.signed (curSeq - buff.headSeq + UInt32.ofNat bytes.length)
  if (buff.size : Int) < endOff then (.ret (-2), buff) else
  if putx < 0 ∨ endOff < 0 then (.outOfBounds, buff) else
  let buff := copyIn buff bytes putx.toNat
  if !fragAlloc then (.ret 0, buff) else
  match putFragment buff.fctx ⟨curSeq, bytes.length % 2147483648⟩ with
  | none => (.assertFailed, buff)
  | some fctx =>
    let buff := { buff with fctx }
    match fctx with
    | first :: _ =>
      if buff.headSeq = first.seq then
        (.ret bytes.length, { buff with
          cumLen := buff.cumLen + first.len - buff.mergedLen
          mergedLen := first.len })
      else (.ret bytes.length, buff)
    | [] => (.ret bytes.length, buff)

/-- `RBRemove`: the bytes dropped from the front, and whether its `assert(0)` was reached. -/
def rbRemove (buff : TcpRingBuffer) (len : Nat) : Nat × Bool × TcpRingBuffer :=
  let len := min len buff.mergedLen
  if len = 0 then (0, false, buff) else
  let buff' := { buff with
    headOffset := buff.headOffset + len
    head := buff.headOffset + len
    headSeq := buff.headSeq + UInt32.ofNat len
    mergedLen := buff.mergedLen - len
    lastLen := buff.lastLen - len }
  match buff.fctx with
  | [] => (len, true, buff')
  | first :: rest =>
    if len = first.len then (len, false, { buff' with fctx := rest })
    else if len < first.len then
      (len, false, { buff' with
        fctx := ⟨first.seq + UInt32.ofNat len, first.len - len⟩ :: rest })
    else (len, true, buff')

end RingBuffer

end Mtcp
