import Mtcp.LittleEndian

namespace Mtcp.Libos

open LittleEndian

/-! `libos_api.c`: arrays of buffers as frames in a byte stream. -/

/-- `zeus_sgarray`: the buffers. -/
abbrev Sga := List (List UInt8)

def magic : Nat := 91917171

/-- A `uint64_t` or `size_t` in memory. -/
def word (n : Nat) : List UInt8 := bytes 8 n

/-! The sender: the room in the send buffer of a socket, the bytes put into it so far, and how
many errors of `mtcp_write` were taken for success. -/

structure Sender where
  room : Nat
  sent : List UInt8 := []
  passed : Nat := 0

/-- `mtcp_write` on a connected non-blocking socket, with its result as the `size_t` it is
stored in: -1, also for a write of nothing, is the largest. -/
def mtcpWrite (buf : List UInt8) (s : Sender) : Nat × Sender :=
  if buf.length = 0 ∨ s.room = 0 then (2 ^ 64 - 1, s)
  else
    let n := min s.room buf.length
    (n, { s with room := s.room - n, sent := s.sent ++ buf.take n })

/-- A result that the test after a write lets pass. -/
def Sender.pass (count : Nat) (s : Sender) : Sender :=
  { s with passed := s.passed + if count = 2 ^ 64 - 1 then 1 else 0 }

/-- A `size_t` returned as an `int`. -/
def asInt (n : Nat) : Int := (UInt32.ofNat n).toInt32.toInt

/-- The second loop of `libos_mtcp_push`; `MTCP_SNDBUF_SIZE` is 8192. -/
def pushBufs : Sga → Nat → Sender → Int × Sender
  | [], total, s => (asInt total, s)
  | buf :: bufs, total, s =>
    if 8192 < buf.length then (-1, s) else
    match mtcpWrite (word buf.length) s with
    | (count, s) =>
      if count < 8 then (-1, s) else
      match mtcpWrite buf (s.pass count) with
      | (count, s) =>
        if count < buf.length then (-1, s) else pushBufs bufs (total + count) (s.pass count)

def totalLen (sga : Sga) : Nat := (sga.map fun buf => buf.length + 8).sum + 8

def libosMtcpPush (sga : Sga) (s : Sender) : Int × Sender :=
  match mtcpWrite (word magic) s with
  | (count, s) =>
    if count < 8 then (-1, s) else
    match mtcpWrite (word (totalLen sga)) (s.pass count) with
    | (count, s) =>
      if count < 8 then (-1, s) else
      match mtcpWrite (word sga.length) (s.pass count) with
      | (count, s) => if count < 8 then (-1, s) else pushBufs sga 0 (s.pass count)

/-! The receiver. -/

/-- `struct mtcp_pending_req`: the bytes read so far, if there is a buffer for them. -/
structure PendingReq where
  buf : Option (List UInt8)

/-- What ends the process: a wrong magic number, a read into memory that is not ours, an array
that does not fit its frame or its ten slots. -/
inductive Fault where
  | badMagic | wildWrite | overrun
  deriving DecidableEq, Repr

/-- A queue descriptor: its entry in `income_pending_req_map`, the bytes that its stream has ready,
and the largest block that `realloc` gives. The frames gone through and the arrays handed out are
recorded. -/
structure Receiver where
  req : Option PendingReq := none
  readable : List UInt8 := []
  heap : Nat := 2 ^ 47
  walked : List (List UInt8) := []
  returned : List Sga := []
  fault : Option Fault := none

def Receiver.abort (r : Receiver) (f : Fault) : Receiver := { r with fault := r.fault.or (some f) }

/-- `mtcp_read` on a connected non-blocking socket; `none` is `EAGAIN`. `CopyToUser` takes the
length as an `int`. -/
def mtcpRead (n : Nat) (r : Receiver) : Option (List UInt8) × Receiver :=
  if r.readable = [] ∨ asInt n ≤ 0 then (none, r)
  else (some (r.readable.take (asInt n).toNat),
    { r with readable := r.readable.drop (asInt n).toNat })

/-- Without an entry in the map the record is a new one, which nothing refers to any more. -/
def Receiver.keep (bytes : List UInt8) (r : Receiver) : Receiver :=
  { r with req := r.req.map fun _ => ⟨some bytes⟩ }

inductive Stage where
  | ready (bytes : List UInt8) (r : Receiver)
  | later (r : Receiver)

/-- Both places that read: what is missing up to a length, or later again. -/
def readUpTo (want : Nat) (bytes : List UInt8) (r : Receiver) : Stage :=
  if bytes.length < want then
    match mtcpRead (want - bytes.length) r with
    | (none, r) => .later (r.keep bytes)
    | (some got, r) =>
      if bytes.length + got.length < want then .later (r.keep (bytes ++ got))
      else .ready (bytes ++ got) r
  else .ready bytes r

def readBufs : Nat → List UInt8 → Option Sga
  | 0, _ => some []
  | n + 1, ptr =>
    if ptr.length < 8 then none else
    let len := value (ptr.take 8)
    let ptr := ptr.drop 8
    if ptr.length < len then none else (readBufs n (ptr.drop len)).map (ptr.take len :: ·)

/-- The array of a frame; `num_bufs` is an `int`. -/
def readSga (body : List UInt8) : Option Sga :=
  if body.length < 8 then none else
  let numBufs := asInt (value (body.take 8))
  if 10 < numBufs then none else readBufs numBufs.toNat (body.drop 8)

def popBody (bytes : List UInt8) (r : Receiver) : Int × Receiver :=
  if value (bytes.take 8) ≠ magic then (-1, r.abort .badMagic) else
  let want := (16 + value ((bytes.drop 8).take 8)) % 2 ^ 64
  if bytes.length < want ∧ r.heap < want then
    -- `realloc` returns NULL, and what is read is put there
    match mtcpRead (want - bytes.length) r with
    | (none, r) => (-9, { r with req := r.req.map fun _ => ⟨none⟩ })
    | (some _, r) => (-1, r.abort .wildWrite)
  else match readUpTo want bytes r with
  | .later r => (-9, r)
  | .ready bytes r =>
    let r := { r with walked := r.walked ++ [bytes] }
    match readSga (bytes.drop 16) with
    | none => (-1, r.abort .overrun)
    | some sga =>
      (asInt (sga.map List.length).sum,
        { r with req := r.req.map fun _ => ⟨none⟩, returned := r.returned ++ [sga] })

def popFrom (bytes : List UInt8) (r : Receiver) : Int × Receiver :=
  match readUpTo 16 bytes r with
  | .later r => (-9, r)
  | .ready bytes r => popBody bytes r

/-- `libos_mtcp_pop`. A new request record comes from `malloc` and its `buf` is not set:
`junk` says that it is not NULL by chance. -/
def libosMtcpPop (junk : Bool) (r : Receiver) : Int × Receiver :=
  match r.req with
  | some req => popFrom (req.buf.getD []) r
  | none =>
    if junk then
      match mtcpRead 16 r with
      | (none, r) => (-9, r)
      | (some _, r) => (-1, r.abort .wildWrite)
    else popFrom [] r

inductive Event where
  | arrive (chunk : List UInt8)
  | pop (junk : Bool)
  deriving DecidableEq

/-- A process that has failed does not go on. -/
def step (r : Receiver) (e : Event) : Receiver :=
  if r.fault.isSome then r else
  match e with
  | .arrive chunk => { r with readable := r.readable ++ chunk }
  | .pop junk => (libosMtcpPop junk r).2

def run (r : Receiver) (es : List Event) : Receiver := es.foldl step r

end Mtcp.Libos
