import Mtcp.CountedRing
import Mtcp.Flags
import Mtcp.Runs
import Mtcp.Sockets
import Mtcp.Stream

namespace Mtcp

open Flags Runs

structure EpollEvent where
  events : UInt32 := 0
  data : UInt64 := 0
  deriving DecidableEq, Repr

/-- `struct mtcp_epoll_event_int`. `born` is not in the source: which user of the slot the
event was raised for. -/
structure EpollEventInt where
  ev : EpollEvent := {}
  sockid : Nat := 0
  born : Nat := 0
  deriving DecidableEq, Repr

inductive EventQueueType where
  | usr | usrShadow | mtcp
  deriving DecidableEq, Repr

/-- `struct event_queue`; `stop` is its `end`. -/
structure EventQueue where
  events : List EpollEventInt
  start : Nat
  stop : Nat
  size : Nat
  numEvents : Nat

def createEventQueue (size : Nat) : EventQueue where
  events := List.replicate size {}
  start := 0
  stop := 0
  size := size
  numEvents := 0

namespace EventQueue

def put (e : EpollEventInt) (q : EventQueue) : EventQueue :=
  { q with
    events := q.events.set q.stop e
    stop := CountedRing.next q.size q.stop
    numEvents := q.numEvents + 1 }

def front (q : EventQueue) : EpollEventInt := q.events.getD q.start {}

def drop (q : EventQueue) : EventQueue :=
  { q with start := CountedRing.next q.size q.start, numEvents := q.numEvents - 1 }

def contents (q : EventQueue) : List EpollEventInt :=
  (List.range q.numEvents).map fun i => q.events.getD (CountedRing.pos q.size q.start i) {}

end EventQueue

/-- What happened in the queues: an event was queued, moved from the stack's queue to the
user's, or taken out, with its slot as it was then, and handed to the caller or not. -/
inductive EpollEffect where
  | accepted (t : EventQueueType) (e : EpollEventInt)
  | moved (e : EpollEventInt)
  | fetched (t : EventQueueType) (e : EpollEventInt) (slot : Socket) (returned : Bool)
  deriving DecidableEq, Repr

/-- The sockets of a core, its `struct mtcp_epoll`, and a log of what happened in it. -/
structure EventPoll where
  sockets : SocketMap
  queue : EventQueueType → EventQueue
  log : List EpollEffect

def mtcpEpollCreate (size : Nat) (m : SocketMap) : EventPoll where
  sockets := m
  queue := fun _ => createEventQueue size
  log := []

def EPOLLIN : UInt32 := 0x001
def EPOLLOUT : UInt32 := 0x004
def EPOLLERR : UInt32 := 0x008
def EPOLLHUP : UInt32 := 0x010
def EPOLLET : UInt32 := 0x80000000

namespace EventPoll

def socket (p : EventPoll) (i : Nat) : Socket := p.sockets.smap i

def entry (i : Nat) (event : UInt32) (p : EventPoll) : EpollEventInt where
  ev := ⟨event, (p.socket i).epData⟩
  sockid := i
  born := (p.socket i).allocs

def register (t : EventQueueType) (i : Nat) (event : UInt32) (p : EventPoll) : EventPoll where
  sockets := p.sockets.modify i fun s => { s with events := s.events ||| event }
  queue := Function.update p.queue t ((p.queue t).put (p.entry i event))
  log := p.log ++ [.accepted t (p.entry i event)]

end EventPoll

def addEpollEvent (t : EventQueueType) (i : Nat) (event : UInt32) (p : EventPoll) :
    Int × EventPoll :=
  if event = 0 then (-1, p)
  else if Meets (p.socket i).events event then (0, p)
  else if (p.queue t).size ≤ (p.queue t).numEvents then (-1, p)
  else (0, p.register t i event)

namespace EventPoll

def moveOne (p : EventPoll) : EventPoll :=
  { p with
    queue := Function.update (Function.update p.queue .usr
      ((p.queue .usr).put (p.queue .mtcp).front)) .mtcp (p.queue .mtcp).drop
    log := p.log ++ [.moved (p.queue .mtcp).front] }

def flushRounds : Nat → EventPoll → EventPoll
  | 0, p => p
  | fuel + 1, p =>
    if 0 < (p.queue .mtcp).numEvents ∧ (p.queue .usr).numEvents < (p.queue .usr).size then
      flushRounds fuel p.moveOne
    else p

end EventPoll

def flushEpollEvents (p : EventPoll) : EventPoll := p.flushRounds (p.queue .mtcp).numEvents

namespace EventPoll

/-- The test `mtcp_epoll_wait` makes before it hands an event out. -/
def validity (e : EpollEventInt) (p : EventPoll) : Bool :=
  decide ((p.socket e.sockid).socktype ≠ .unused) &&
    decide (Meets (p.socket e.sockid).epoll e.ev.events) &&
    decide (Meets (p.socket e.sockid).events e.ev.events)

/-- One round of a fetch loop: the front event is taken out and its bit cleared, whether it
is handed out or not. -/
def fetchOne (t : EventQueueType) (p : EventPoll) : EventPoll :=
  let e := (p.queue t).front
  { sockets := p.sockets.modify e.sockid fun s => { s with events := s.events &&& ~~~e.ev.events }
    queue := Function.update p.queue t (p.queue t).drop
    log := p.log ++ [.fetched t e (p.socket e.sockid) (p.validity e)] }

def handOut (t : EventQueueType) (p : EventPoll) (out : List EpollEvent) : List EpollEvent :=
  if p.validity (p.queue t).front then out ++ [(p.queue t).front.ev] else out

def fetchRounds (t : EventQueueType) (maxevents : Nat) :
    Nat → List EpollEvent → EventPoll → List EpollEvent × EventPoll
  | 0, out, p => (out, p)
  | fuel + 1, out, p =>
    if out.length < maxevents then
      fetchRounds t maxevents fuel (p.handOut t out) (p.fetchOne t)
    else (out, p)

/-- A fetch loop runs over the events that are queued when it starts. -/
def fetch (t : EventQueueType) (maxevents : Nat) (r : List EpollEvent × EventPoll) :
    List EpollEvent × EventPoll :=
  r.2.fetchRounds t maxevents (r.2.queue t).numEvents r.1

end EventPoll

/-- The fetch phase of `mtcp_epoll_wait`; a call that waits repeats it until it finds
something. -/
def mtcpEpollWait (maxevents : Nat) (p : EventPoll) : List EpollEvent × EventPoll :=
  EventPoll.fetch .usrShadow maxevents (EventPoll.fetch .usr maxevents ([], p))

def RingBuffer.hasUnread (b : Option TcpRingBuffer) : Bool :=
  match b with
  | some b => decide (0 < b.mergedLen)
  | none => false

/-- The source compares the bytes in the buffer with `snd_wnd`. -/
def writable (s : TcpStream) : Bool :=
  match s.sndvar.sndbuf with
  | some b => decide (b.len < s.sndvar.sndWnd.toNat)
  | none => true

def EventPoll.raiseIf (test : Socket → Bool) (i : Nat) (event : UInt32) (p : EventPoll) :
    EventPoll :=
  if test (p.socket i) then (addEpollEvent .usrShadow i event p).2 else p

def raisePendingStreamEvents (s : TcpStream) (i : Nat) (p : EventPoll) : EventPoll :=
  if s.state < .established then p
  else
    let p := p.raiseIf (fun k => decide (Meets k.epoll EPOLLIN) &&
      (RingBuffer.hasUnread s.rcvvar.rcvbuf || decide (s.state = .closeWait))) i EPOLLIN
    p.raiseIf (fun k => decide (Meets k.epoll EPOLLOUT) && writable s &&
      !decide (Meets k.events EPOLLOUT)) i EPOLLOUT

inductive PipeState where
  | closed | active | closeWait
  deriving DecidableEq, Repr

structure Pipe where
  state : PipeState
  bufLen : Nat
  bufSize : Nat

def raisePendingPipeEvents (pp : Pipe) (i : Nat) (p : EventPoll) : EventPoll :=
  if pp.state = .closed then p
  else
    let p := p.raiseIf (fun k => decide (Meets k.epoll EPOLLIN) &&
      (decide (0 < pp.bufLen) || decide (pp.state = .closeWait))) i EPOLLIN
    p.raiseIf (fun k => decide (Meets k.epoll EPOLLOUT) && decide (pp.bufLen < pp.bufSize))
      i EPOLLOUT

inductive Behind where
  | nothing
  | stream (s : TcpStream)
  | pipe (pp : Pipe)

def raisePendingEvents (b : Behind) (i : Nat) (p : EventPoll) : EventPoll :=
  match (p.socket i).socktype, b with
  | .stream, .stream s => raisePendingStreamEvents s i p
  | .pipe, .pipe pp => raisePendingPipeEvents pp i p
  | _, _ => p

inductive EpollOp where
  | add | mod | del
  deriving DecidableEq, Repr

def EventPoll.setInterest (i : Nat) (ev : EpollEvent) (p : EventPoll) : EventPoll :=
  { p with sockets := p.sockets.modify i fun s => { s with
      epData := ev.data
      epoll := ev.events ||| (EPOLLERR ||| EPOLLHUP)
      registered := ev.data :: s.registered } }

def EventPoll.dropInterest (i : Nat) (p : EventPoll) : EventPoll :=
  { p with sockets := p.sockets.modify i fun s => { s with epoll := 0 } }

def mtcpEpollCtl (op : EpollOp) (i : Nat) (ev : EpollEvent) (b : Behind) (p : EventPoll) :
    Int × EventPoll :=
  match op with
  | .add =>
    if (p.socket i).epoll ≠ 0 then (-1, p)
    else (0, raisePendingEvents b i (p.setInterest i ev))
  | .mod =>
    if (p.socket i).epoll = 0 then (-1, p)
    else (0, raisePendingEvents b i (p.setInterest i ev))
  | .del => if (p.socket i).epoll = 0 then (-1, p) else (0, p.dropInterest i)

inductive EpollAction where
  | add (t : EventQueueType) (i : Nat) (event : UInt32)
  | flush
  | ctl (op : EpollOp) (i : Nat) (ev : EpollEvent) (b : Behind)
  | wait (maxevents : Nat)
  | allocate (t : SockType)
  | free (i : Nat)

def epollStep (p : EventPoll) : EpollAction → EventPoll
  | .add t i event => (addEpollEvent t i event p).2
  | .flush => flushEpollEvents p
  | .ctl op i ev b => (mtcpEpollCtl op i ev b p).2
  | .wait maxevents => (mtcpEpollWait maxevents p).2
  | .allocate t => { p with sockets := (allocateSocket t p.sockets).2 }
  | .free i => { p with sockets := freeSocket i p.sockets }

def epollRun (p : EventPoll) (es : List EpollAction) : EventPoll := es.foldl epollStep p

end Mtcp
