import Mtcp.AddrPool
import Mtcp.Chains
import Mtcp.Listeners
import Mtcp.Stream

namespace Mtcp.Flows

open Listeners (SockAddrIn)

/-! The streams of all cores: their flow tables, the connections the applications open, the
ones the network opens, and the address pools of the cores and of the interfaces. -/

structure Tuple where
  src : Addr
  dst : Addr
  deriving DecidableEq, Repr

/-- What the flow table, `mtcp_connect` and `DestroyTCPStream` read of a stream and, not in the
source, whether `mtcp_connect` made it. -/
structure Flow where
  tuple : Tuple
  state : TcpState := .listen
  isBoundAddr : Bool := false
  byConnect : Bool := false
  deriving DecidableEq

inductive Errno where
  | badf | notSock | fault | afNoSupport | isConn | already | inval | again | noMem | inProgress
  deriving DecidableEq, Repr

/-- What ends the process: the assertion in `GetOutputInterface`, a list of a pool that is
taken apart. -/
inductive Fault where
  | noRoute | brokenList
  deriving DecidableEq, Repr

structure Route where
  mask : UInt32
  masked : UInt32
  bits : Nat
  nif : Nat

structure NetConfig where
  maxConcurrency : Nat
  numCpus : Nat
  numQueues : Nat
  endianCheck : Bool
  eths : List UInt32
  rtable : List Route
  gateway : Option Nat
  nifToEidx : Nat → Nat

/-- A core. `rssDest` is not in the source: the destination that `ap` was made for. -/
structure Core where
  api : Listeners.Core
  flowTable : Nat → List Nat := fun _ => []
  streams : Nat → Option Flow := fun _ => none
  gId : Nat := 0
  ap : Option AddrPool := none
  rssDest : Addr := ⟨0, 0⟩

def Core.socket (c : Core) (i : Nat) : Socket := c.api.socket i

structure System where
  cores : Nat → Core
  ap : Nat → Option AddrPool
  fault : Option Fault := none

def createSystem (cfg : NetConfig) : System where
  cores := fun _ => { api := Listeners.createCore cfg.maxConcurrency cfg.eths }
  ap := fun i => cfg.eths[i]?.bind fun ip => createAddressPool ip 1

def System.abort (s : System) (f : Fault) : System := { s with fault := s.fault.or (some f) }

def System.onCore (k : Nat) (f : Core → Core) (s : System) : System :=
  { s with cores := Function.update s.cores k (f (s.cores k)) }

inductive PoolId where
  | own (core : Nat)
  | eth (i : Nat)
  deriving DecidableEq

def System.pool (s : System) : PoolId → Option AddrPool
  | .own k => (s.cores k).ap
  | .eth i => s.ap i

def System.setPool (id : PoolId) (ap : Option AddrPool) (s : System) : System :=
  match id with
  | .own k => s.onCore k fun c => { c with ap := ap }
  | .eth i => { s with ap := Function.update s.ap i ap }

/-- `GetOutputInterface`: the first route that matches decides, with the gateway in place of a
default route. -/
def getOutputInterface (cfg : NetConfig) (daddr : UInt32) : Option Nat :=
  match cfg.rtable.find? fun r => daddr &&& r.mask == r.masked with
  | none => none
  | some r => if 0 < r.bits then some r.nif else cfg.gateway

def bytes32 (x : UInt32) : List UInt8 :=
  [x.toUInt8, (x >>> 8).toUInt8, (x >>> 16).toUInt8, (x >>> 24).toUInt8]

def bytes16 (x : UInt16) : List UInt8 := [x.toUInt8, (x >>> 8).toUInt8]

def signed (b : UInt8) : UInt32 := if b < 128 then b.toUInt32 else b.toUInt32 + 0xffffff00

/-- `HashFlow`, over the twelve bytes from `saddr` on. -/
def hashFlow (t : Tuple) : Nat :=
  let key := bytes32 t.src.addr ++ bytes32 t.dst.addr ++ bytes16 t.src.port ++ bytes16 t.dst.port
  let hash := key.foldl (fun hash b =>
    let hash := hash + signed b
    let hash := hash + (hash <<< 10)
    hash ^^^ (hash >>> 6)) 0
  let hash := hash + (hash <<< 3)
  let hash := hash ^^^ (hash >>> 11)
  let hash := hash + (hash <<< 15)
  (hash &&& 131071).toNat

def Core.tupleOf (c : Core) (id : Nat) : Tuple :=
  match c.streams id with
  | some f => f.tuple
  | none => ⟨⟨0, 0⟩, ⟨0, 0⟩⟩

def streamHTSearch (t : Tuple) (c : Core) : Option Nat :=
  Chains.search c.tupleOf hashFlow t c.flowTable

/-- `CreateTCPStream`, once it has the memory, with `StreamHTInsert`; the table is not searched. -/
def createTCPStream (f : Flow) (socket : Option Nat) (c : Core) : Core :=
  { c with
    gId := c.gId + 1
    streams := Function.update c.streams c.gId (some f)
    flowTable := Chains.insert (hashFlow f.tuple) c.gId c.flowTable
    api := match socket with
      | none => c.api
      | some i => { c.api with
          sockets := c.api.sockets.modify i fun s => { s with ptr := .stream c.gId } } }

/-- The new stream looks up its interface last. -/
def System.addStream (cfg : NetConfig) (k : Nat) (f : Flow) (socket : Option Nat) (s : System) :
    System :=
  let s := s.onCore k (createTCPStream f socket)
  if (getOutputInterface cfg f.tuple.dst.addr).isNone then s.abort .noRoute else s

/-- The end of `mtcp_init_rss`: the pool is made for `num_cpus` queues. -/
def installPool (cfg : NetConfig) (k : Nat) (saddrBase : UInt32) (numAddr : Int32) (dest : Addr)
    (mem : Bool) (s : System) : System :=
  if !mem then s else
  match createAddressPoolPerCore k cfg.numCpus cfg.endianCheck saddrBase numAddr dest with
  | none => s
  | some ap => s.onCore k fun c => { c with ap := some ap, rssDest := dest }

/-- `mtcp_init_rss`; the pool there was is destroyed first. -/
def mtcpInitRss (cfg : NetConfig) (k : Nat) (saddrBase : UInt32) (numAddr : Int32)
    (daddr dport : UInt32) (mem : Bool) (s : System) : System :=
  let s := s.onCore k fun c => { c with ap := none }
  let dest : Addr := ⟨daddr, dport.toUInt16⟩
  if saddrBase = 0 then
    match getOutputInterface cfg daddr with
    | none => s.abort .noRoute
    | some nif => installPool cfg k (cfg.eths.getD (cfg.nifToEidx nif) 0) numAddr dest mem s
  else installPool cfg k saddrBase numAddr dest mem s

def connectable (i : Nat) (addr : Option SockAddrIn) (c : Core) : Except Errno Addr :=
  if c.api.maxConcurrency ≤ i then .error .badf else
  if (c.socket i).socktype = .unused then .error .badf else
  if (c.socket i).socktype ≠ .stream then .error .notSock else
  match addr with
  | none => .error .fault
  | some sa =>
    if !sa.inet || !sa.long then .error .afNoSupport else
    match (c.socket i).ptr with
    | .null => .ok ⟨sa.addr, sa.port⟩
    | .stream id =>
      match c.streams id with
      | some f => if .synRcvd < f.state then .error .isConn else .error .already
      | none => .error .already
    | _ => .error .already

def bothBound (s : Socket) : Bool := s.addrBind && s.sport != 0 && s.saddr != 0

inductive Source where
  | given (src : Addr)
  | taken (id : PoolId) (src : Addr) (ap : AddrPool)
  | refused (e : Errno)
  | noRoute

/-- A source from the pool of the core, if it has one, and otherwise from the pool of the
interface towards the destination. -/
def fetchSource (cfg : NetConfig) (k : Nat) (sock : Socket) (dest : Addr) (s : System) : Source :=
  match (s.cores k).ap with
  | some ap =>
    match fetchAddressPerCore ap with
    | none => .refused .again
    | some (src, ap) => .taken (.own k) src ap
  | none =>
    match getOutputInterface cfg dest.addr with
    | none => .noRoute
    | some nif =>
      match s.ap nif with
      | none => .refused .again
      | some ap =>
        match fetchAddress k cfg.numQueues cfg.endianCheck dest ⟨sock.saddr, sock.sport⟩ ap with
        | none => .refused .again
        | some (src, ap) => .taken (.eth nif) src ap

/-- A source that is bound is used if its replies come to this core. -/
def source (cfg : NetConfig) (k : Nat) (sock : Socket) (dest : Addr) (s : System) : Source :=
  if bothBound sock then
    if getRSSCPUCore sock.saddr dest.addr sock.sport dest.port cfg.numQueues cfg.endianCheck ≠ k
    then .refused .inval else .given ⟨sock.saddr, sock.sport⟩
  else fetchSource cfg k sock dest s

def bindSource (i : Nat) (src : Addr) (c : Core) : Core :=
  { c with api := { c.api with sockets := c.api.sockets.modify i fun s =>
      { s with saddr := src.addr, sport := src.port, addrBind := true } } }

/-- The end of `mtcp_connect`. The call on a blocking socket goes on to wait for the state of
the stream. -/
def openStream (cfg : NetConfig) (k i : Nat) (src dest : Addr) (isDynBound mem queued : Bool)
    (s : System) : Except Errno Nat × System :=
  if !mem then (.error .noMem, s) else
  let f : Flow := ⟨⟨src, dest⟩, .synSent, isDynBound, true⟩
  (if !queued then .error .again
    else if ((s.cores k).socket i).nonblock then .error .inProgress else .ok 0,
   s.addStream cfg k f (some i))

/-- `mtcp_connect`. There may be no memory for the stream, and no room in the connect queue. -/
def mtcpConnect (cfg : NetConfig) (k i : Nat) (addr : Option SockAddrIn) (mem queued : Bool)
    (s : System) : Except Errno Nat × System :=
  match connectable i addr (s.cores k) with
  | .error e => (.error e, s)
  | .ok dest =>
    match source cfg k ((s.cores k).socket i) dest s with
    | .refused e => (.error e, s)
    | .noRoute => (.error .inval, s.abort .noRoute)
    | .given src => openStream cfg k i src dest false mem queued s
    | .taken id src ap =>
      openStream cfg k i src dest true mem queued
        ((s.setPool id (some ap)).onCore k (bindSource i src))

/-- The lookup of `ProcessTCPPacket` and `CreateNewFlowHTEntry`, for the tuple a segment has
seen from this side. What an existing stream makes of the segment is not part of this model. -/
def processTCPPacket (cfg : NetConfig) (k : Nat) (t : Tuple) (syn ack mem : Bool) (s : System) :
    System :=
  match streamHTSearch t (s.cores k) with
  | some _ => s
  | none =>
    if syn && !ack then
      let r := Listeners.filterSYNPacket t.src.addr t.src.port (s.cores k).api
      let s := s.onCore k fun c => { c with api := r.2 }
      if r.1 && mem then s.addStream cfg k { tuple := t } none else s
    else s

def System.freeTo (id : PoolId) (src : Addr) (s : System) : System :=
  match s.pool id with
  | none => s
  | some ap =>
    match freeAddress src ap with
    | .failed => s
    | .done ap => s.setPool id (some ap)
    | .corrupted => s.abort .brokenList

/-- The end of `DestroyTCPStream`: the pool of the core, if it has one, gets the source back. -/
def releaseSource (cfg : NetConfig) (k : Nat) (src : Addr) (s : System) : System :=
  if (s.cores k).ap.isSome then s.freeTo (.own k) src
  else
    match getOutputInterface cfg src.addr with
    | none => s.abort .noRoute
    | some nif => s.freeTo (.eth (cfg.nifToEidx nif)) src

def removeStream (id : Nat) (f : Flow) (c : Core) : Core :=
  { c with
    streams := Function.update c.streams id none
    flowTable := Chains.remove (hashFlow f.tuple) id c.flowTable }

def destroyTCPStream (cfg : NetConfig) (k id : Nat) (s : System) : System :=
  match (s.cores k).streams id with
  | none => s
  | some f =>
    let s := s.onCore k (removeStream id f)
    if f.isBoundAddr then releaseSource cfg k f.tuple.src s else s

def advance (id : Nat) (st : TcpState) (c : Core) : Core :=
  match c.streams id with
  | none => c
  | some f => { c with streams := Function.update c.streams id (some { f with state := st }) }

/-- What can happen on a core: a call on a socket, a segment, or something the protocol does to
one of its streams. -/
inductive Action where
  | api (a : Listeners.Action)
  | initRss (saddrBase : UInt32) (numAddr : Int32) (daddr dport : UInt32) (mem : Bool)
  | connect (i : Nat) (addr : Option SockAddrIn) (mem queued : Bool)
  | packet (t : Tuple) (syn ack mem : Bool)
  | advance (id : Nat) (st : TcpState)
  | destroy (id : Nat)

/-- A process that has failed does not go on. -/
def step (cfg : NetConfig) (s : System) (e : Nat × Action) : System :=
  if s.fault.isSome || (s.cores e.1).api.fault.isSome then s else
  match e.2 with
  | .api a => s.onCore e.1 fun c => { c with api := Listeners.step c.api a }
  | .initRss saddrBase numAddr daddr dport mem =>
    mtcpInitRss cfg e.1 saddrBase numAddr daddr dport mem s
  | .connect i addr mem queued => (mtcpConnect cfg e.1 i addr mem queued s).2
  | .packet t syn ack mem => processTCPPacket cfg e.1 t syn ack mem s
  | .advance id st => s.onCore e.1 (advance id st)
  | .destroy id => destroyTCPStream cfg e.1 id s

def run (cfg : NetConfig) (s : System) (es : List (Nat × Action)) : System := es.foldl (step cfg) s

variable {cfg : NetConfig} {s : System} {j k i : Nat} {addr : Option SockAddrIn}

theorem onCore_cores (s : System) (k j : Nat) (f : Core → Core) :
    (s.onCore k f).cores j = if j = k then f (s.cores k) else s.cores j := by
  simp only [System.onCore, Function.update_apply]

@[simp]
theorem abort_pool (s : System) (f : Fault) (id : PoolId) : (s.abort f).pool id = s.pool id := by
  cases id <;> rfl

def System.poolFor (cfg : NetConfig) (k : Nat) (dest : Addr) (s : System) : Option PoolId :=
  if (s.cores k).ap.isSome then some (.own k) else (getOutputInterface cfg dest.addr).map .eth

/-- What a free entry of the pool has to be like to be taken. -/
def takes (cfg : NetConfig) (k : Nat) (sock : Socket) (dest : Addr) (id : PoolId) (e : Addr) :
    Bool :=
  match id with
  | .own _ => true
  | .eth _ => eligible k cfg.numQueues cfg.endianCheck dest ⟨sock.saddr, sock.sport⟩ e

theorem fetchSource_cases (cfg : NetConfig) (k : Nat) (sock : Socket) (dest : Addr) (s : System) :
    fetchSource cfg k sock dest s = .refused .again ∨ fetchSource cfg k sock dest s = .noRoute ∨
    ∃ id src ap, fetchSource cfg k sock dest s = .taken id src (ap.take src) ∧
      s.poolFor cfg k dest = some id ∧ s.pool id = some ap ∧ src ∈ ap.free ∧
      takes cfg k sock dest id src := by
  unfold fetchSource System.poolFor
  cases hown : (s.cores k).ap with
  | some ap =>
    dsimp only
    cases hf : fetchAddressPerCore ap with
    | none => exact .inl rfl
    | some r =>
      obtain ⟨src, ap'⟩ := r
      obtain ⟨hmem, rfl⟩ := fetchAddressPerCore_eq_some hf
      exact .inr (.inr ⟨.own k, src, ap, rfl, rfl, hown, hmem, rfl⟩)
  | none =>
    cases getOutputInterface cfg dest.addr with
    | none => exact .inr (.inl rfl)
    | some nif =>
      dsimp only
      cases hap : s.ap nif with
      | none => exact .inl rfl
      | some ap =>
        dsimp only
        cases hf : fetchAddress k cfg.numQueues cfg.endianCheck dest
          ⟨sock.saddr, sock.sport⟩ ap with
        | none => exact .inl rfl
        | some r =>
          obtain ⟨src, ap'⟩ := r
          obtain ⟨hmem, htakes, rfl⟩ := fetchAddress_eq_some hf
          exact .inr (.inr ⟨.eth nif, src, ap, rfl, rfl, hap, hmem, htakes⟩)

def opened (src dest : Addr) (isDynBound : Bool) : Flow := ⟨⟨src, dest⟩, .synSent, isDynBound, true⟩

def System.taken (k i : Nat) (id : PoolId) (src : Addr) (ap : AddrPool) (s : System) : System :=
  (s.setPool id (some (ap.take src))).onCore k (bindSource i src)

theorem installPool_cases (cfg : NetConfig) (k : Nat) (saddrBase : UInt32) (numAddr : Int32)
    (dest : Addr) (mem : Bool) (s : System) : installPool cfg k saddrBase numAddr dest mem s = s ∨
    ∃ ap, createAddressPoolPerCore k cfg.numCpus cfg.endianCheck saddrBase numAddr dest = some ap ∧
      installPool cfg k saddrBase numAddr dest mem s =
        s.onCore k fun c => { c with ap := some ap, rssDest := dest } := by
  unfold installPool
  cases mem with
  | false => exact .inl rfl
  | true =>
    cases createAddressPoolPerCore k cfg.numCpus cfg.endianCheck saddrBase numAddr dest with
    | none => exact .inl rfl
    | some ap => exact .inr ⟨ap, rfl, rfl⟩

theorem mtcpConnect_cases (cfg : NetConfig) (k i : Nat) (addr : Option SockAddrIn)
    (mem queued : Bool) (s : System) : ((mtcpConnect cfg k i addr mem queued s).2 = s ∨
      (mtcpConnect cfg k i addr mem queued s).2 = s.abort .noRoute) ∨
    (∃ dest, connectable i addr (s.cores k) = .ok dest ∧ bothBound ((s.cores k).socket i) ∧
      getRSSCPUCore ((s.cores k).socket i).saddr dest.addr ((s.cores k).socket i).sport dest.port
        cfg.numQueues cfg.endianCheck = k ∧
      (mtcpConnect cfg k i addr mem queued s).2 = s.addStream cfg k
        (opened ⟨((s.cores k).socket i).saddr, ((s.cores k).socket i).sport⟩ dest false) (some i)) ∨
    ∃ dest id src ap, connectable i addr (s.cores k) = .ok dest ∧
      bothBound ((s.cores k).socket i) = false ∧ s.poolFor cfg k dest = some id ∧
      s.pool id = some ap ∧ src ∈ ap.free ∧ takes cfg k ((s.cores k).socket i) dest id src ∧
      ((mtcpConnect cfg k i addr mem queued s).2 = s.taken k i id src ap ∨
        (mtcpConnect cfg k i addr mem queued s).2 =
          (s.taken k i id src ap).addStream cfg k (opened src dest true) (some i)) := by
  unfold mtcpConnect
  cases hdest : connectable i addr (s.cores k) with
  | error e => exact .inl (.inl rfl)
  | ok dest =>
    dsimp only
    unfold source
    by_cases hb : bothBound ((s.cores k).socket i)
    · rw [if_pos hb]
      by_cases hcore : getRSSCPUCore ((s.cores k).socket i).saddr dest.addr
          ((s.cores k).socket i).sport dest.port cfg.numQueues cfg.endianCheck ≠ k
      · rw [if_pos hcore]
        exact .inl (.inl rfl)
      · rw [if_neg hcore]
        cases mem with
        | false => exact .inl (.inl rfl)
        | true => exact .inr (.inl ⟨dest, rfl, hb, not_not.mp hcore, rfl⟩)
    · rw [if_neg hb]
      obtain hsrc | hsrc | ⟨id, src, ap, hsrc, hid, hap, hmem, htakes⟩ :=
        fetchSource_cases cfg k ((s.cores k).socket i) dest s
      · rw [hsrc]
        exact .inl (.inl rfl)
      · rw [hsrc]
        exact .inl (.inr rfl)
      · rw [hsrc]
        refine .inr (.inr ⟨dest, id, src, ap, rfl, Bool.eq_false_iff.mpr hb, hid, hap, hmem, htakes,
          ?_⟩)
        cases mem with
        | false => exact .inl rfl
        | true => exact .inr rfl

end Mtcp.Flows
