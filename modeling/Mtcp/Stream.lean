import Mtcp.SendBuffer
import Mtcp.RingBuffer

namespace Mtcp

/-- `enum tcp_state`, in the order of its numbers. -/
inductive TcpState where
  | closed | listen | synSent | synRcvd | established | finWait1 | finWait2
  | closeWait | closing | lastAck | timeWait
  deriving DecidableEq, Repr

def TcpState.code : TcpState → Nat
  | .closed => 0
  | .listen => 1
  | .synSent => 2
  | .synRcvd => 3
  | .established => 4
  | .finWait1 => 5
  | .finWait2 => 6
  | .closeWait => 7
  | .closing => 8
  | .lastAck => 9
  | .timeWait => 10

instance : LT TcpState := ⟨fun a b => a.code < b.code⟩
instance : LE TcpState := ⟨fun a b => a.code ≤ b.code⟩
instance (a b : TcpState) : Decidable (a < b) := inferInstanceAs (Decidable (a.code < b.code))
instance (a b : TcpState) : Decidable (a ≤ b) := inferInstanceAs (Decidable (a.code ≤ b.code))

inductive TcpCloseReason where
  | notClosed | activeClose | passiveClose | connFail | connLost | reset | noMem
  | notAccepted | timedout
  deriving DecidableEq, Repr

theorem nil_length_lt : ([] : List UInt8).length < 65536 := by decide

/-- What a TCP header and the bytes behind it hold, in host order. `trailer` is the
memory after the payload, which option parsing can run into. -/
structure Segment where
  seq : UInt32
  ackSeq : UInt32 := 0
  window : UInt16 := 0
  syn : Bool := false
  ack : Bool := false
  fin : Bool := false
  rst : Bool := false
  opts : List UInt8 := []
  payload : List UInt8 := []
  trailer : List UInt8 := []
  payload_lt : payload.length < 65536 := by first | exact nil_length_lt | decide
  deriving DecidableEq

def Segment.payloadlen (seg : Segment) : UInt32 := UInt32.ofNat seg.payload.length

structure TcpRecvVars where
  rcvWnd : UInt32 := 0
  irs : UInt32 := 0
  sndWl1 : UInt32 := 0
  sndWl2 : UInt32 := 0
  dupAcks : UInt8 := 0
  lastAckSeq : UInt32 := 0
  tsRecent : UInt32 := 0
  tsLastackRcvd : UInt32 := 0
  tsLastTsUpd : UInt32 := 0
  tsTwExpire : UInt32 := 0
  srtt : UInt32 := 0
  mdev : UInt32 := 0
  mdevMax : UInt32 := 0
  rttvar : UInt32 := 0
  rttSeq : UInt32 := 0
  rcvbuf : Option TcpRingBuffer := none

structure TcpSendVars where
  mss : UInt16 := 0
  effMss : UInt16 := 0
  wscaleMine : UInt8 := 0
  wscalePeer : UInt8 := 0
  sndUna : UInt32 := 0
  sndWnd : UInt32 := 0
  peerWnd : UInt32 := 0
  iss : UInt32 := 0
  fss : UInt32 := 0
  nrtx : UInt8 := 0
  maxNrtx : UInt8 := 0
  rto : UInt32 := 0
  tsRto : UInt32 := 0
  cwnd : UInt32 := 0
  ssthresh : UInt32 := 0
  tsLastackSent : UInt32 := 0
  isWack : Bool := false
  ackCnt : BitVec 6 := 0
  onControlList : Bool := false
  onSendList : Bool := false
  onAckList : Bool := false
  onSendq : Bool := false
  onAckq : Bool := false
  onCloseq : Bool := false
  onResetq : Bool := false
  onCloseqInt : Bool := false
  onResetqInt : Bool := false
  isFinSent : Bool := false
  sndbuf : Option TcpSendBuffer := none

/-- How the process can die inside the stack. -/
inductive Fault where
  | seqBelowHead | seqBelowUna | lenNegative | noSendBuffer | sbPutShort | rbPutAssert
  | rbRemoveAssert | rcvbufOverrun | rtoZero | divideByZero | noListener | onTimeoutList
  | notOnTimewaitList | unknownState | noRcvbuf | optionLoop | notOnHashTable
  deriving DecidableEq, Repr

inductive StreamEvent where
  | read | write | close | error | listenerRead
  deriving DecidableEq, Repr

/-- The lists and queues of `struct mtcp_manager` that hold streams. -/
inductive StreamList where
  | control | send | ack | rto | timewait | timeout
  | connectq | sendq | ackq | closeq | closeqInt | resetq | resetqInt | destroyq | acceptq
  deriving DecidableEq, Repr

/-- The sequence numbers of a stream at the moment it becomes ESTABLISHED. -/
structure Snapshot where
  sndUna : UInt32
  sndNxt : UInt32
  iss : UInt32
  irs : UInt32
  rcvNxt : UInt32
  deriving DecidableEq, Repr

/-- What a stream did: segments given to the device, bytes taken from and handed to the
application, bytes removed from the send buffer, events raised, the peer's SYN processed,
the handshake completed, the peer's FIN consumed after so many bytes in order, destruction. -/
inductive Effect where
  | emit (seg : Segment)
  | standalone (seg : Segment)
  | take (bytes : List UInt8)
  | hand (bytes : List UInt8)
  | release (n : Nat)
  | raise (ev : StreamEvent)
  | peerSyn (seq : UInt32)
  | establish (snap : Snapshot)
  | consumeFin (seq : UInt32) (received : Nat)
  | destroy
  deriving DecidableEq

/-- `struct tcp_stream` with its receive and send variables. The last five fields are not
in the source: whether the socket it points to was freed, how often the stream is linked into
each list, the write buffers the device still has, a log of effects with the newest first, and
the first fault met. -/
structure TcpStream where
  socket : Option Nat := none
  state : TcpState := .closed
  closeReason : TcpCloseReason := .notClosed
  onHashTable : Bool := false
  onTimewaitList : Bool := false
  closed : Bool := false
  needWndAdv : Bool := false
  onRtoIdx : Int := 0
  onTimeoutList : Bool := false
  sawTimestamp : Bool := false
  sackPermit : Bool := false
  controlListWaiting : Bool := false
  haveReset : Bool := false
  sndNxt : UInt32 := 0
  rcvNxt : UInt32 := 0
  lastActiveTs : UInt32 := 0
  rcvvar : TcpRecvVars := {}
  sndvar : TcpSendVars := {}
  socketFreed : Bool := false
  occ : StreamList → Nat := fun _ => 0
  txRoom : Nat := 0
  trace : List Effect := []
  fault : Option Fault := none

namespace TcpStream

def attached (s : TcpStream) : Bool := s.socket.isSome && !s.socketFreed

def log (s : TcpStream) (e : Effect) : TcpStream := { s with trace := e :: s.trace }

/-- A failed `assert`, a null pointer or a division by zero. The first one counts. -/
def abort (s : TcpStream) (f : Fault) : TcpStream := { s with fault := s.fault.or (some f) }

def received (s : TcpStream) : Nat :=
  match s.rcvvar.rcvbuf with
  | none => 0
  | some buf => buf.cumLen

def snapshot (s : TcpStream) : Snapshot where
  sndUna := s.sndvar.sndUna
  sndNxt := s.sndNxt
  iss := s.sndvar.iss
  irs := s.rcvvar.irs
  rcvNxt := s.rcvNxt

def establish (s : TcpStream) : TcpStream :=
  { s with state := .established }.log (.establish s.snapshot)

def link (s : TcpStream) (l : StreamList) : TcpStream :=
  { s with occ := Function.update s.occ l (s.occ l + 1) }

def unlink (s : TcpStream) (l : StreamList) : TcpStream :=
  { s with occ := Function.update s.occ l (s.occ l - 1) }

end TcpStream

/-- The configuration entries the stream code reads, in the ranges the loader accepts. -/
structure Config where
  sndbufSize : Nat
  rcvbufSize : Nat
  tcpTimeout : Int
  tcpTimewait : UInt32
  sndbufSize_ge : 64 ≤ sndbufSize
  rcvbufSize_ge : 64 ≤ rcvbufSize
  sndbufSize_lt : sndbufSize < 2147483648
  rcvbufSize_lt : rcvbufSize < 2147483648

/-- What one call sees of the rest of the stack: the clock, the retransmission wheel and
how many other streams sit on it, whether allocations succeed and what the memory holds,
and the listener found for the destination port with room left in its accept queue. -/
structure Env where
  curTs : UInt32 := 0
  rtoNowIdx : UInt32 := 0
  rtoNowTs : UInt32 := 0
  rtoOthers : Nat := 0
  sbAlloc : Bool := true
  rbAlloc : Bool := true
  fragAlloc : Bool := true
  junk : Nat → UInt8 := fun _ => 0
  listener : Option Bool := none

end Mtcp
