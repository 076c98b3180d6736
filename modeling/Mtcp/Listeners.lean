import Mtcp.Sockets

namespace Mtcp.Listeners

/-! The listening sockets of a core: `socket.c`, the calls of `api.c` on them, and the listener
table of `fhash.c`. -/

inductive Errno where
  | badf | notSock | inval | addrInUse | noMem | afNoSupport | nFile | notConn
  deriving DecidableEq, Repr

/-- `struct tcp_listener`; its socket is the slot with the number `sockid`. -/
structure TcpListener where
  sockid : Nat
  backlog : Int
  deriving DecidableEq, Repr

/-- `struct sockaddr_in`, with the family and the length a caller passes along. -/
structure SockAddrIn where
  inet : Bool := true
  long : Bool := true
  addr : UInt32
  port : UInt16
  deriving DecidableEq, Repr

/-- What ends the process: a listener is used or freed after it was freed, or linked twice, or other
memory is used as one. -/
inductive Fault where
  | useAfterFree | linkedTwice | notAListener
  deriving DecidableEq, Repr

/-- What the calls see of a core: the slots, the listeners that are allocated by their address,
and the bins of the listener table. -/
structure Core where
  maxConcurrency : Nat
  eths : List UInt32
  sockets : SocketMap
  heap : Nat → Option TcpListener := fun _ => none
  listeners : Nat → List Nat := fun _ => []
  fault : Option Fault := none

def Core.socket (c : Core) (i : Nat) : Socket := c.sockets.smap i

def Core.abort (c : Core) (f : Fault) : Core := { c with fault := c.fault.or (some f) }

def createCore (maxConcurrency : Nat) (eths : List UInt32) : Core where
  maxConcurrency := maxConcurrency
  eths := eths
  sockets := createSockets maxConcurrency

/-- `HashListener`, on the port in network byte order. -/
def hashListener (port : UInt16) : Nat := (port &&& 1023).toNat

def Core.portOf (c : Core) (a : Nat) : UInt16 :=
  match c.heap a with
  | some l => (c.socket l.sockid).sport
  | none => 0

inductive Found where
  | null
  | listener (addr : Nat)
  | dangling
  deriving DecidableEq, Repr

/-- The loop of `ListenerHTSearch`, with `EqualListener`: it reads the listener of every entry
it passes. -/
def searchBin (c : Core) (port : UInt16) : List Nat → Found
  | [] => .null
  | a :: rest =>
    if (c.heap a).isNone then .dangling
    else if c.portOf a = port then .listener a
    else searchBin c port rest

def listenerHTSearch (c : Core) (port : UInt16) : Found :=
  searchBin c port (c.listeners (hashListener port))

/-- Whether an address still stands in one of the `NUM_BINS_LISTENERS` bins. -/
def Core.linked (c : Core) (a : Nat) : Bool :=
  (List.range 1024).any fun b => (c.listeners b).contains a

def listenerHTInsert (c : Core) (a : Nat) : Core :=
  let bin := hashListener (c.portOf a)
  { c with listeners := Function.update c.listeners bin (c.listeners bin ++ [a]) }

def mtcpSocket (inet stream : Bool) (c : Core) : Except Errno Nat × Core :=
  if !inet then (.error .afNoSupport, c) else
  if !stream then (.error .inval, c) else
  match allocateSocket .stream c.sockets with
  | (none, _) => (.error .nFile, c)
  | (some i, m) => (.ok i, { c with sockets := m })

/-- The checks of `mtcp_bind`: the error, or the address that is bound. -/
def bindable (i : Nat) (addr : Option SockAddrIn) (c : Core) : Except Errno SockAddrIn :=
  if c.maxConcurrency ≤ i then .error .badf else
  if (c.socket i).socktype = .unused then .error .badf else
  if (c.socket i).socktype ≠ .stream ∧ (c.socket i).socktype ≠ .listener then .error .notSock else
  match addr with
  | none => .error .inval
  | some sa =>
    if (c.socket i).addrBind then .error .inval
    else if !sa.inet || !sa.long then .error .inval
    else .ok sa

def bound (sa : SockAddrIn) (s : Socket) : Socket :=
  { s with saddr := sa.addr, sport := sa.port, addrBind := true }

def Core.rebound (i : Nat) (sa : SockAddrIn) (c : Core) : Core :=
  { c with sockets := c.sockets.modify i (bound sa) }

/-- `mtcp_bind`; whether the address is in use is not checked. -/
def mtcpBind (i : Nat) (addr : Option SockAddrIn) (c : Core) : Except Errno Nat × Core :=
  match bindable i addr c with
  | .error e => (.error e, c)
  | .ok sa => (.ok 0, c.rebound i sa)

/-- A STREAM socket becomes a LISTENER before anything else is checked. -/
def becomeListener (i : Nat) (c : Core) : Core :=
  if (c.socket i).socktype = .stream then
    { c with sockets := c.sockets.modify i fun s => { s with socktype := .listener } }
  else c

/-- The new listener at an address, with the socket that refers to it and its entry. -/
def installListener (i : Nat) (backlog : Int) (a : Nat) (c : Core) : Core :=
  listenerHTInsert { c with
    heap := Function.update c.heap a (some ⟨i, backlog⟩)
    sockets := c.sockets.modify i fun s => { s with ptr := .listener a } } a

/-- `mtcp_listen`. The allocator gives the address of an unused block, or none when something cannot
be made. -/
def mtcpListen (i : Nat) (backlog : Int) (calloc : Option Nat) (c : Core) :
    Except Errno Nat × Core :=
  if c.maxConcurrency ≤ i then (.error .badf, c) else
  if (c.socket i).socktype = .unused then (.error .badf, c) else
  let c := becomeListener i c
  if (c.socket i).socktype ≠ .listener then (.error .notSock, c) else
  if backlog ≤ 0 ∨ c.maxConcurrency < backlog then (.error .inval, c) else
  match listenerHTSearch c (c.socket i).sport with
  | .dangling => (.error .inval, c.abort .useAfterFree)
  | .listener _ => (.error .addrInUse, c)
  | .null =>
    match calloc with
    | none => (.error .noMem, c)
    | some a =>
      if (c.heap a).isSome then (.error .noMem, c)
      else if c.linked a then (.ok 0, c.abort .linkedTwice)
      else (.ok 0, installListener i backlog a c)

/-- `CloseListeningSocket`: the listener is freed, its entry stays in the table. -/
def closeListeningSocket (i : Nat) (c : Core) : Except Errno Nat × Core :=
  match (c.socket i).ptr with
  | .null => (.error .inval, c)
  | .listener a =>
    if (c.heap a).isNone then (.ok 0, c.abort .useAfterFree)
    else (.ok 0, { c with
      heap := Function.update c.heap a none
      sockets := c.sockets.modify i fun s => { s with ptr := .null } })
  | _ => (.ok 0, c.abort .notAListener)

/-- The `switch` of `mtcp_close`, as far as it concerns the listeners. -/
def closeByType (i : Nat) (c : Core) : Except Errno Nat × Core :=
  match (c.socket i).socktype with
  | .listener => closeListeningSocket i c
  | .stream => (if (c.socket i).ptr = .null then .error .notConn else .ok 0, c)
  | .proxy => (.error .inval, c)
  | _ => (.ok 0, c)

/-- `mtcp_close`: the slot is freed whatever came of it. -/
def mtcpClose (i : Nat) (c : Core) : Except Errno Nat × Core :=
  if c.maxConcurrency ≤ i then (.error .badf, c) else
  if (c.socket i).socktype = .unused then (.error .badf, c) else
  let r := closeByType i c
  (r.1, { r.2 with sockets := freeSocket i r.2.sockets })

/-- `FilterSYNPacket`: whether a SYN for an address and port of ours is accepted. -/
def filterSYNPacket (ip : UInt32) (port : UInt16) (c : Core) : Bool × Core :=
  match listenerHTSearch c port with
  | .null => (false, c)
  | .dangling => (false, c.abort .useAfterFree)
  | .listener a =>
    match c.heap a with
    | none => (false, c.abort .useAfterFree)
    | some l =>
      let s := c.socket l.sockid
      if s.sport = port then
        (if s.saddr ≠ 0 then decide (ip = s.saddr) else decide (ip ∈ c.eths), c)
      else (false, c)

inductive Action where
  | socket (inet stream : Bool)
  | bind (i : Nat) (addr : Option SockAddrIn)
  | listen (i : Nat) (backlog : Int) (calloc : Option Nat)
  | close (i : Nat)
  | syn (ip : UInt32) (port : UInt16)

/-- A core that has used freed memory does not go on. -/
def step (c : Core) (a : Action) : Core :=
  if c.fault.isSome then c else
  match a with
  | .socket inet stream => (mtcpSocket inet stream c).2
  | .bind i addr => (mtcpBind i addr c).2
  | .listen i backlog calloc => (mtcpListen i backlog calloc c).2
  | .close i => (mtcpClose i c).2
  | .syn ip port => (filterSYNPacket ip port c).2

def run (c : Core) (as : List Action) : Core := as.foldl step c

end Mtcp.Listeners
