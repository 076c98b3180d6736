import Mtcp.Lists

namespace Mtcp

open Serial

/-- Report a failure to the application, or destroy a stream that has none left. -/
def raiseErrorOrDestroy (cfg : Config) (s : TcpStream) : TcpStream :=
  if s.socket.isSome then raiseEvent .error s else destroyTCPStream cfg s

/-- `HandleRTO` after `TCP_MAX_RTX` retransmissions. -/
def exceedMaxRtx (cfg : Config) (s : TcpStream) : TcpStream :=
  if s.state < .established then
    destroyTCPStream cfg { s with state := .closed, closeReason := .connFail }
  else
    raiseErrorOrDestroy cfg { s with state := .closed, closeReason := .connLost }

def backoffRTO (s : TcpStream) : UInt32 :=
  if .established ≤ s.state then
    let backoff := min s.sndvar.nrtx 7
    let rto := ((s.rcvvar.srtt >>> 3) + s.rcvvar.rttvar) <<< backoff.toUInt32
    if rto = 0 then s.sndvar.rto else rto
  else if .synSent ≤ s.state then
    if s.sndvar.nrtx < 7 then s.sndvar.rto <<< 1 else s.sndvar.rto
  else s.sndvar.rto

def halvedSsthresh (v : TcpSendVars) : UInt32 :=
  max (min v.cwnd v.peerWnd / 2) (2 * v.mss.toUInt32)

/-- The last part of `HandleRTO`: go back to `snd_una` and choose between data and control. -/
def retransmit (s : TcpStream) : TcpStream :=
  let s := { s with sndNxt := s.sndvar.sndUna }
  match s.state with
  | .established | .closeWait => addtoSendList s
  | .finWait1 | .closing | .lastAck =>
    if lt s.sndNxt s.sndvar.fss then
      addtoSendList { removeFromControlList s with controlListWaiting := true }
    else addtoControlList s
  | _ => addtoControlList s

/-- The counters, the timeout and the congestion window after one more loss. -/
def backOff (s : TcpStream) : TcpStream :=
  let s := { s with sndvar.nrtx := s.sndvar.nrtx + 1 }
  { s with sndvar := { s.sndvar with
    maxNrtx := max s.sndvar.maxNrtx s.sndvar.nrtx
    rto := backoffRTO s
    ssthresh := halvedSsthresh s.sndvar
    cwnd := s.sndvar.mss.toUInt32 } }

/-- The part of `HandleRTO` that depends on the state. -/
def retryOrGiveUp (cfg : Config) (s : TcpStream) : TcpStream :=
  match s.state with
  | .synSent =>
    if 7 < s.sndvar.nrtx then
      raiseErrorOrDestroy cfg { s with state := .closed, closeReason := .connFail }
    else retransmit s
  | .synRcvd => if s.haveReset then destroyTCPStream cfg s else retransmit s
  | .established | .closeWait | .lastAck | .finWait1 | .closing => retransmit s
  | .closed | .listen | .finWait2 | .timeWait => s.abort .unknownState

def handleRTO (cfg : Config) (s : TcpStream) : TcpStream :=
  if s.sndvar.rto = 0 then s.abort .rtoZero
  else if s.closeReason ≠ .notClosed then s
  else if ¬ s.sndvar.nrtx < 16 then exceedMaxRtx cfg s
  else retryOrGiveUp cfg (backOff s)

/-- `CheckRtmTimeout` reaches the slot of the wheel the stream sits in. -/
def checkRtmTimeout (cfg : Config) (env : Env) (s : TcpStream) : TcpStream :=
  if s.onRtoIdx = env.rtoNowIdx.toNat ∧ 0 ≤ signed (env.curTs - env.rtoNowTs) then
    handleRTO cfg ({ s with onRtoIdx := -1 }.unlink .rto)
  else s

/-- `RearrangeRTOStore` moves a stream from the overflow list into a slot. -/
def rearrangeRTOStore (env : Env) (s : TcpStream) : TcpStream :=
  let diff := env.rtoNowTs - s.sndvar.tsRto
  if s.onRtoIdx = 3000 ∧ signed diff < 3000 then
    { s with onRtoIdx := ((diff + env.rtoNowIdx) % 3000).toNat }
  else s

def checkTimewaitExpire (cfg : Config) (env : Env) (s : TcpStream) : TcpStream :=
  if s.onTimewaitList ∧ 0 ≤ signed (env.curTs - s.rcvvar.tsTwExpire) ∧
      ¬ s.sndvar.onControlList then
    let s := { s with onTimewaitList := false }.unlink .timewait
    destroyTCPStream cfg { s with state := .closed, closeReason := .activeClose }
  else s

/-- `CheckConnectionTimeout`. The main loop calls it only with a positive time limit. -/
def checkConnectionTimeout (cfg : Config) (env : Env) (s : TcpStream) : TcpStream :=
  if s.onTimeoutList ∧ cfg.tcpTimeout ≤ signed (env.curTs - s.lastActiveTs) then
    let s := { s with onTimeoutList := false }.unlink .timeout
    raiseErrorOrDestroy cfg { s with state := .closed, closeReason := .timedout }
  else s

end Mtcp
