import Mtcp.Stream

namespace Mtcp

open Serial SendBuffer

/-! The list operations of `tcp_out.c`, `timer.c` and `tcp_stream.c`. -/

def addtoControlList (s : TcpStream) : TcpStream :=
  if s.sndvar.onControlList then s else
    { s with sndvar.onControlList := true }.link .control

def removeFromControlList (s : TcpStream) : TcpStream :=
  if s.sndvar.onControlList then
    { s with sndvar.onControlList := false }.unlink .control
  else s

def addtoSendList (s : TcpStream) : TcpStream :=
  if s.sndvar.sndbuf.isNone then s.abort .noSendBuffer else
  if s.sndvar.onSendList then s else
    { s with sndvar.onSendList := true }.link .send

def removeFromSendList (s : TcpStream) : TcpStream :=
  if s.sndvar.onSendList then
    { s with sndvar.onSendList := false }.unlink .send
  else s

def addtoACKList (s : TcpStream) : TcpStream :=
  if s.sndvar.onAckList then s else
    { s with sndvar.onAckList := true }.link .ack

def removeFromACKList (s : TcpStream) : TcpStream :=
  if s.sndvar.onAckList then
    { s with sndvar.onAckList := false }.unlink .ack
  else s

inductive AckOpt where
  | now | aggregate | wack
  deriving DecidableEq, Repr

/-- `EnqueueACK`. The guard of `ACK_OPT_NOW` compares promoted integers and always holds,
so the six-bit counter wraps. -/
def enqueueACK (s : TcpStream) : AckOpt → TcpStream
  | .now => addtoACKList { s with sndvar.ackCnt := s.sndvar.ackCnt + 1 }
  | .aggregate => addtoACKList
      (if s.sndvar.ackCnt = 0 then { s with sndvar.ackCnt := 1 } else s)
  | .wack => addtoACKList { s with sndvar.isWack := true }

/-- The slot of the retransmission wheel for a deadline. An empty wheel is re-based on it. -/
def rtoSlot (env : Env) (tsRto : UInt32) : Int :=
  let nowIdx := if env.rtoOthers = 0 then 0 else env.rtoNowIdx
  let nowTs := if env.rtoOthers = 0 then tsRto else env.rtoNowTs
  if signed (tsRto - nowTs) < 3000 then ((tsRto - nowTs + nowIdx) % 3000).toNat else 3000

def addtoRTOList (env : Env) (s : TcpStream) : TcpStream :=
  if s.onRtoIdx < 0 then
    if s.onTimewaitList then s
    else { s with onRtoIdx := rtoSlot env s.sndvar.tsRto }.link .rto
  else s

def removeFromRTOList (s : TcpStream) : TcpStream :=
  if s.onRtoIdx < 0 then s else { s with onRtoIdx := -1 }.unlink .rto

def addtoTimewaitList (cfg : Config) (env : Env) (s : TcpStream) : TcpStream :=
  let s := { s with rcvvar.tsTwExpire := env.curTs + cfg.tcpTimewait }
  if s.onTimewaitList then (s.unlink .timewait).link .timewait
  else
    let s := if s.onRtoIdx ≥ 0 then removeFromRTOList s else s
    { s with onTimewaitList := true }.link .timewait

def removeFromTimewaitList (s : TcpStream) : TcpStream :=
  if s.onTimewaitList then { s with onTimewaitList := false }.unlink .timewait
  else s.abort .notOnTimewaitList

def addtoTimeoutList (s : TcpStream) : TcpStream :=
  if s.onTimeoutList then s.abort .onTimeoutList
  else { s with onTimeoutList := true }.link .timeout

def removeFromTimeoutList (s : TcpStream) : TcpStream :=
  if s.onTimeoutList then { s with onTimeoutList := false }.unlink .timeout else s

def updateTimeoutList (s : TcpStream) : TcpStream :=
  if s.onTimeoutList then (s.unlink .timeout).link .timeout else s

def updateRetransmissionTimer (env : Env) (s : TcpStream) : TcpStream :=
  let s := if s.sndvar.rto = 0 then s.abort .rtoZero else s
  let s := { s with sndvar.nrtx := 0 }
  let s := if s.onRtoIdx ≥ 0 then removeFromRTOList s else s
  if gt s.sndNxt s.sndvar.sndUna then
    addtoRTOList env
      { s with sndvar.tsRto := env.curTs + s.sndvar.rto }
  else s

/-- `RaiseReadEvent` and its siblings are recorded, not interpreted: which of them reach
an epoll queue depends on the socket. -/
def raiseEvent (ev : StreamEvent) (s : TcpStream) : TcpStream := s.log (.raise ev)

/-- `CreateTCPStream`; `iss` stands for the random choice. -/
def createTCPStream (cfg : Config) (iss : UInt32) (socket : Option Nat) : TcpStream where
  socket := socket
  state := .listen
  onHashTable := true
  onRtoIdx := -1
  sndNxt := iss
  rcvvar := { irs := 0, rcvWnd := 14600, sndWl1 := 0 - 1 }
  sndvar := {
    mss := 1460
    wscaleMine := 7
    wscalePeer := 0
    iss := iss
    sndUna := iss
    sndWnd := UInt32.ofNat cfg.sndbufSize
    rto := 500 }

/-- `DestroyTCPStream`. Only the lists with a membership flag are unlinked. -/
def destroyTCPStream (cfg : Config) (s : TcpStream) : TcpStream :=
  let s := removeFromControlList s
  let s := removeFromSendList s
  let s := removeFromACKList s
  let s := if s.onRtoIdx ≥ 0 then removeFromRTOList s else s
  let s := if s.onTimewaitList then removeFromTimewaitList s else s
  let s := if cfg.tcpTimeout > 0 then removeFromTimeoutList s else s
  let s := if s.onHashTable then s else s.abort .notOnHashTable
  { s with
    sndvar.sndbuf := none
    rcvvar.rcvbuf := none
    onHashTable := false }.log .destroy

end Mtcp
