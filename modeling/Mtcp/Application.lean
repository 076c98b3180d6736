import Mtcp.Timer

namespace Mtcp

open Serial SendBuffer RingBuffer Bytes

/-! The calls of `api.c` and `HandleApplicationCalls` of `core.c`. -/

/-- `mtcp_connect`; a full connect queue hands the new stream to the destroy queue. -/
def mtcpConnect (cfg : Config) (iss : UInt32) (sockid : Nat) (room : Bool) : TcpStream :=
  let s := createTCPStream cfg iss (some sockid)
  let s := { s with
    sndvar.cwnd := 1
    sndvar.ssthresh := s.sndvar.mss.toUInt32 * 10
    state := .synSent }
  if room then s.link .connectq else s.link .destroyq

/-- `mtcp_accept`; `sock` is the socket found free, if any. -/
def mtcpAccept (sock : Option Nat) (s : TcpStream) : TcpStream :=
  let s := s.unlink .acceptq
  if s.socket.isNone then { s with socket := sock } else s

/-- `mtcp_close` on a stream socket. The second one frees the socket and lets the stream point
to it. -/
def mtcpClose (s : TcpStream) : TcpStream :=
  if s.closed then { s with socketFreed := true }
  else
    let s := { s with closed := true, socket := none }
    match s.state with
    | .closed | .synSent => s.link .destroyq
    | .established | .closeWait =>
      { s with sndvar.onCloseq := true }.link .closeq
    | _ => s

def mtcpAbort (s : TcpStream) : TcpStream :=
  let s := { s with socket := none }
  match s.state with
  | .closed => s
  | .synSent | .closing | .lastAck | .timeWait =>
    { s with state := .closed, closeReason := .activeClose }.link .destroyq
  | _ =>
    if s.sndvar.onResetq then s
    else { s with sndvar.onResetq := true }.link .resetq

/-- Ask for a window advertisement once a reader has made room after a closed window. -/
def advertiseWindow (s : TcpStream) : TcpStream :=
  if s.needWndAdv && decide (s.sndvar.effMss.toUInt32 < s.rcvvar.rcvWnd) && !s.sndvar.onAckq then
    { s with sndvar.onAckq := true, needWndAdv := false }.link .ackq
  else s

def copyToUser (len : Int) (s : TcpStream) : Int × TcpStream :=
  match s.rcvvar.rcvbuf with
  | none => (-1, s.abort .noRcvbuf)
  | some buf =>
    let copylen := min (buf.mergedLen : Int) len
    if copylen ≤ 0 then (-1, s)
    else
      let bytes := slice buf.data buf.head copylen.toNat
      match rbRemove buf copylen.toNat with
      | (_, failed, buf) =>
        let s := if failed then s.abort .rbRemoveAssert else s
        let s := { s with
          rcvvar.rcvbuf := some buf
          rcvvar.rcvWnd := UInt32.ofNat (buf.size - buf.mergedLen) }
        (copylen, advertiseWindow (s.log (.hand bytes)))

def peekForUser (len : Int) (s : TcpStream) : Int × TcpStream :=
  match s.rcvvar.rcvbuf with
  | none => (-1, s.abort .noRcvbuf)
  | some buf =>
    let copylen := min (buf.mergedLen : Int) len
    if copylen ≤ 0 then (-1, s) else (copylen, s)

def nothingMerged (s : TcpStream) : Bool :=
  match s.rcvvar.rcvbuf with
  | none => true
  | some buf => buf.mergedLen == 0

/-- `mtcp_recv`. A blocking socket without a receive buffer runs into a null pointer. -/
def mtcpRecv (nonblock peek : Bool) (len : Nat) (s : TcpStream) : Int × TcpStream :=
  if ¬ (.established ≤ s.state ∧ s.state ≤ .closeWait) then (-1, s)
  else if s.state = .closeWait ∧ nothingMerged s then (0, s)
  else if nonblock && nothingMerged s then (-1, s)
  else if peek then peekForUser (signed (UInt32.ofNat len)) s
  else copyToUser (signed (UInt32.ofNat len)) s

def ensureSndbuf (cfg : Config) (env : Env) (s : TcpStream) : Option TcpSendBuffer :=
  match s.sndvar.sndbuf with
  | some buf => some buf
  | none => if env.sbAlloc then some (sbInit env.junk cfg.sndbufSize (s.sndvar.iss + 1)) else none

def copyFromUser (cfg : Config) (env : Env) (bytes : List UInt8) (s : TcpStream) :
    Int × TcpStream :=
  let sndlen := min (signed s.sndvar.sndWnd) (signed (UInt32.ofNat bytes.length))
  if sndlen ≤ 0 then (-1, s)
  else
    match ensureSndbuf cfg env s with
    | none => (-1, { s with closeReason := .noMem })
    | some buf =>
      match sbPut buf (bytes.take sndlen.toNat) with
      | (ret, buf) =>
        let s := if ret ≠ sndlen then s.abort .sbPutShort else s
        let s := { s with
          sndvar.sndbuf := some buf
          sndvar.sndWnd := UInt32.ofNat (buf.size - buf.len) }
        if ret ≤ 0 then (-1, s) else (ret, s.log (.take (bytes.take ret.toNat)))

def mtcpWrite (cfg : Config) (env : Env) (bytes : List UInt8) (s : TcpStream) :
    Int × TcpStream :=
  if ¬ (s.state = .established ∨ s.state = .closeWait) then (-1, s)
  else if bytes.length = 0 then (0, s)
  else
    match copyFromUser cfg env bytes s with
    | (ret, s) =>
      let s :=
        if 0 < ret ∧ ¬ (s.sndvar.onSendq ∨ s.sndvar.onSendList) then
          { s with sndvar.onSendq := true }.link .sendq
        else s
      (ret, if 0 < s.sndvar.sndWnd then raiseEvent .write s else s)

/-- The state change with which our side of the connection starts to close. -/
def beginClose (s : TcpStream) : TcpStream :=
  match s.state with
  | .established => { s with state := .finWait1 }
  | .closeWait => { s with state := .lastAck }
  | _ => s

def setFss (s : TcpStream) : TcpStream :=
  { s with sndvar := { s.sndvar with
    fss := match s.sndvar.sndbuf with
      | some buf => buf.headSeq + UInt32.ofNat buf.len
      | none => s.sndNxt } }

/-- The answer of the close and reset queues to a connection the peer has reset. -/
def destroyReset (cfg : Config) (s : TcpStream) : TcpStream :=
  if s.state ≠ .closed then
    destroyTCPStream cfg { s with closeReason := .reset, state := .closed }
  else s

def handleClose (cfg : Config) (s : TcpStream) : TcpStream :=
  let s := setFss { s with sndvar.onCloseq := false }
  let s := if 0 < cfg.tcpTimeout then removeFromTimeoutList s else s
  if s.haveReset then destroyReset cfg s
  else if s.sndvar.onControlList then
    { s with sndvar.onCloseqInt := true }.link .closeqInt
  else if s.sndvar.onSendList || s.sndvar.onAckList then
    { beginClose s with controlListWaiting := true }
  else if s.state ≠ .closed then addtoControlList (beginClose s)
  else s

def handleCloseInt (s : TcpStream) : TcpStream :=
  if s.sndvar.onControlList then s.link .closeqInt
  else
    let s := { s with sndvar.onCloseqInt := false }
    if s.state ≠ .closed then addtoControlList (beginClose s) else s

def sendRST (s : TcpStream) : TcpStream :=
  if s.state ≠ .closed then
    addtoControlList { s with closeReason := .activeClose, state := .closed }
  else s

def flushing (s : TcpStream) : Bool :=
  s.sndvar.onControlList || s.sndvar.onSendList || s.sndvar.onAckList

def handleReset (cfg : Config) (s : TcpStream) : TcpStream :=
  let s := { s with sndvar.onResetq := false }
  let s := if 0 < cfg.tcpTimeout then removeFromTimeoutList s else s
  if s.haveReset then destroyReset cfg s
  else if flushing s then
    { s with sndvar.onResetqInt := true }.link .resetqInt
  else sendRST s

def handleResetInt (s : TcpStream) : TcpStream :=
  if flushing s then s.link .resetqInt
  else sendRST { s with sndvar.onResetqInt := false }

/-- One round of the loops of `HandleApplicationCalls`: the stream is taken off a queue. -/
def dequeue (cfg : Config) (q : StreamList) (s : TcpStream) : TcpStream :=
  if s.occ q = 0 then s
  else
    let s := s.unlink q
    match q with
    | .connectq => addtoControlList s
    | .sendq => addtoSendList { s with sndvar.onSendq := false }
    | .ackq => enqueueACK { s with sndvar.onAckq := false } .aggregate
    | .closeq => handleClose cfg s
    | .closeqInt => handleCloseInt s
    | .resetq => handleReset cfg s
    | .resetqInt => handleResetInt s
    | .destroyq => destroyTCPStream cfg s
    | _ => s.link q

end Mtcp
