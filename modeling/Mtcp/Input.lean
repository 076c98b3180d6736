import Mtcp.Options
import Mtcp.Timer

namespace Mtcp

open Serial SendBuffer RingBuffer Options

/-! `tcp_in.c`: what a stream does with a received segment. -/

def handlePassiveOpen (cfg : Config) (env : Env) (iss : UInt32) (seg : Segment) : TcpStream :=
  let s := createTCPStream cfg iss none
  parseTCPOptions env seg { s with
    rcvvar.irs := seg.seq
    sndvar.peerWnd := seg.window.toUInt32
    sndvar.cwnd := 1
    rcvNxt := seg.seq }

/-- The congestion window at the end of a handshake: two segments, or one after a
retransmitted SYN. -/
def openingCwnd (v : TcpSendVars) : UInt32 :=
  if v.cwnd = 1 then v.mss.toUInt32 * 2 else v.mss.toUInt32

def handleActiveOpen (env : Env) (seg : Segment) (s : TcpStream) : TcpStream :=
  let s := parseTCPOptions env seg { s with
    rcvvar.irs := seg.seq
    rcvvar.sndWl1 := seg.seq - 1
    rcvvar.lastAckSeq := seg.ackSeq
    sndNxt := seg.ackSeq
    sndvar.peerWnd := seg.window.toUInt32
    rcvNxt := seg.seq + 1 }
  updateRetransmissionTimer env { s with
    sndvar.cwnd := openingCwnd s.sndvar
    sndvar.ssthresh := s.sndvar.mss.toUInt32 * 10 }

/-- The PAWS part of `ValidateSequence`. -/
def checkTimestamp (env : Env) (seg : Segment) (s : TcpStream) : Bool × TcpStream :=
  if !seg.rst && s.sawTimestamp then
    match parseTCPTimestamp seg with
    | none => (false, s.abort .optionLoop)
    | some none => (false, s)
    | some (some (tsVal, tsRef)) =>
      if lt tsVal s.rcvvar.tsRecent then (false, enqueueACK s .now)
      else
        (true, { s with
          rcvvar.tsLastTsUpd :=
            if gt tsVal s.rcvvar.tsRecent then env.curTs else s.rcvvar.tsLastTsUpd
          rcvvar.tsRecent := tsVal
          rcvvar.tsLastackRcvd := tsRef })
  else (true, s)

def inWindow (seg : Segment) (s : TcpStream) : Bool :=
  between (seg.seq + seg.payloadlen) s.rcvNxt (s.rcvNxt + s.rcvvar.rcvWnd)

/-- How `ValidateSequence` answers a segment outside the window. -/
def answerUnexpected (cfg : Config) (env : Env) (seg : Segment) (s : TcpStream) : TcpStream :=
  if seg.rst then s
  else if s.state = .established then
    if seg.seq + 1 = s.rcvNxt then enqueueACK s .aggregate
    else if leq seg.seq s.rcvNxt then enqueueACK s .aggregate
    else enqueueACK s .now
  else
    addtoControlList (if s.state = .timeWait then addtoTimewaitList cfg env s else s)

def validateSequence (cfg : Config) (env : Env) (seg : Segment) (s : TcpStream) :
    Bool × TcpStream :=
  match checkTimestamp env seg s with
  | (false, s) => (false, s)
  | (true, s) => if inWindow seg s then (true, s) else (false, answerUnexpected cfg env seg s)

/-- `ProcessRST`, for the states above SYN_SENT in which it is called. -/
def processRST (cfg : Config) (seg : Segment) (s : TcpStream) : TcpStream :=
  match s.state with
  | .synRcvd =>
    if seg.ackSeq = s.sndNxt then
      destroyTCPStream cfg { s with state := .closed, closeReason := .reset }
    else s
  | .finWait1 | .finWait2 | .lastAck | .closing | .timeWait =>
    destroyTCPStream cfg { s with state := .closed, closeReason := .activeClose }
  | _ =>
    if s.sndvar.onCloseq || s.sndvar.onCloseqInt || s.sndvar.onResetq || s.sndvar.onResetqInt
    then s
    else raiseEvent .close { s with state := .closeWait, closeReason := .reset }

/-- `EstimateRTT`; the deviation is computed in a signed 64-bit integer. -/
def estimateRTT (s : TcpStream) (mrtt : UInt32) : TcpRecvVars :=
  let r := s.rcvvar
  let m : Int := if mrtt = 0 then 1 else mrtt.toNat
  if r.srtt ≠ 0 then
    let m := m - (r.srtt >>> 3).toNat
    let srtt := UInt32.ofInt (r.srtt.toNat + m)
    let dev : Int := (r.mdev >>> 2).toNat
    let m := if m < 0 then (if 0 < -m - dev then (-m - dev) / 8 else -m - dev) else m - dev
    let mdev := UInt32.ofInt (r.mdev.toNat + m)
    let mdevMax := max r.mdevMax mdev
    let rttvar := if r.mdevMax < mdev then max r.rttvar mdevMax else r.rttvar
    if gt s.sndvar.sndUna r.rttSeq then
      { r with
        srtt := srtt
        mdev := mdev
        rttvar := if mdevMax < rttvar then rttvar - ((rttvar - mdevMax) >>> 2) else rttvar
        rttSeq := s.sndNxt
        mdevMax := 0 }
    else { r with srtt := srtt, mdev := mdev, rttvar := rttvar, mdevMax := mdevMax }
  else
    let mdev := UInt32.ofInt (m * 2)
    { r with
      srtt := UInt32.ofInt (m * 8)
      mdev := mdev
      mdevMax := mdev
      rttvar := mdev
      rttSeq := s.sndNxt }

/-- In the closing states an acknowledgement of our FIN is read as one of the last byte. -/
def effectiveAck (seg : Segment) (s : TcpStream) : UInt32 :=
  if (s.state = .finWait1 ∨ s.state = .finWait2 ∨ s.state = .closing ∨ s.state = .closeWait ∨
      s.state = .lastAck) ∧ s.sndvar.isFinSent ∧ seg.ackSeq = s.sndvar.fss + 1
  then seg.ackSeq - 1 else seg.ackSeq

def segmentWindow (seg : Segment) (s : TcpStream) : UInt32 :=
  if seg.syn then seg.window.toUInt32
  else seg.window.toUInt32 <<< s.sndvar.wscalePeer.toUInt32

def updateWindow (seg : Segment) (ackSeq : UInt32) (s : TcpStream) : TcpStream :=
  let cwindow := segmentWindow seg s
  if lt s.rcvvar.sndWl1 seg.seq || (s.rcvvar.sndWl1 == seg.seq && lt s.rcvvar.sndWl2 ackSeq) ||
      (s.rcvvar.sndWl2 == ackSeq && decide (s.sndvar.peerWnd < cwindow)) then
    let prev := s.sndvar.peerWnd
    let s := { s with
      sndvar.peerWnd := cwindow
      rcvvar.sndWl1 := seg.seq
      rcvvar.sndWl2 := ackSeq }
    if prev < s.sndNxt - s.sndvar.sndUna ∧ s.sndNxt - s.sndvar.sndUna ≤ cwindow then
      raiseEvent .write s
    else s
  else s

/-- The duplicate test of `ProcessACK`; the edge is the one before the window update. -/
def isDuplicate (seg : Segment) (ackSeq edge : UInt32) (s : TcpStream) : Bool :=
  lt ackSeq s.sndNxt && (ackSeq == s.rcvvar.lastAckSeq && seg.payload.length == 0) &&
    s.rcvvar.sndWl2 + s.sndvar.peerWnd == edge

/-- The counter is eight bits wide, and its overflow test compares promoted integers. -/
def countDupAcks (dup : Bool) (ackSeq : UInt32) (s : TcpStream) : TcpStream :=
  if dup then { s with rcvvar.dupAcks := s.rcvvar.dupAcks + 1 }
  else { s with rcvvar.dupAcks := 0, rcvvar.lastAckSeq := ackSeq }

def fastRetransmit (ackSeq : UInt32) (s : TcpStream) : TcpStream :=
  let s := if lt ackSeq s.sndNxt then { s with sndNxt := ackSeq } else s
  let ssthresh := halvedSsthresh s.sndvar
  addtoSendList { s with
    sndvar.ssthresh := ssthresh
    sndvar.cwnd := ssthresh + 3 * s.sndvar.mss.toUInt32
    sndvar.nrtx := if s.sndvar.nrtx < 16 then s.sndvar.nrtx + 1 else s.sndvar.nrtx }

def respondDupAcks (dup : Bool) (ackSeq : UInt32) (s : TcpStream) : TcpStream :=
  if dup && s.rcvvar.dupAcks == 3 then fastRetransmit ackSeq s
  else if 3 < s.rcvvar.dupAcks then
    if s.sndvar.cwnd < s.sndvar.cwnd + s.sndvar.mss.toUInt32 then
      { s with sndvar.cwnd := s.sndvar.cwnd + s.sndvar.mss.toUInt32 }
    else s
  else s

/-- `RECOVERY_AFTER_LOSS`: jump forwards over what turned out to have arrived. -/
def recoverAfterLoss (buf : TcpSendBuffer) (ackSeq : UInt32) (s : TcpStream) : TcpStream :=
  if gt ackSeq s.sndNxt then
    let s := { s with sndNxt := ackSeq }
    if buf.len = 0 then removeFromSendList s else s
  else s

def updateRTO (env : Env) (s : TcpStream) : TcpStream :=
  if s.sawTimestamp then
    let r := estimateRTT s (env.curTs - s.rcvvar.tsLastackRcvd)
    let rto := (r.srtt >>> 3) + r.rttvar
    let s := { s with rcvvar := r, sndvar.rto := rto }
    if rto = 0 then s.abort .rtoZero else s
  else s

def growCwnd (packets : UInt32) (s : TcpStream) : TcpStream :=
  let v := s.sndvar
  let mss := v.mss.toUInt32
  if .established ≤ s.state then
    if v.cwnd < v.ssthresh then
      if v.cwnd < v.cwnd + mss then
        { s with sndvar := { v with cwnd := v.cwnd + mss * packets } }
      else s
    else if v.cwnd = 0 then s.abort .divideByZero
    else
      let newCwnd := v.cwnd + packets * mss * mss / v.cwnd
      if v.cwnd < newCwnd then { s with sndvar := { v with cwnd := newCwnd } } else s
  else s

/-- The last part of `ProcessACK`: new data is acknowledged and leaves the send buffer. -/
def removeAcked (env : Env) (buf : TcpSendBuffer) (ackSeq : UInt32) (s : TcpStream) :
    TcpStream :=
  let rmlen := ackSeq - buf.headSeq
  if s.sndvar.effMss = 0 then s.abort .divideByZero
  else
    let effMss := s.sndvar.effMss.toUInt32
    let packets := (rmlen / effMss).toUInt16
    let packets := if rmlen < rmlen / effMss * effMss then packets + 1 else packets
    let s := growCwnd packets.toUInt32 (updateRTO env s)
    let removed := (sbRemove buf rmlen.toNat).2
    let prev := s.sndvar.sndWnd
    let s := { s.log (.release (buf.len - removed.len)) with sndvar := { s.sndvar with
      sndbuf := some removed
      sndUna := ackSeq
      sndWnd := UInt32.ofNat (removed.size - removed.len) } }
    updateRetransmissionTimer env (if prev = 0 then raiseEvent .write s else s)

/-- The part of `ProcessACK` before anything is removed. -/
def noteAck (seg : Segment) (buf : TcpSendBuffer) (ackSeq : UInt32) (s : TcpStream) :
    TcpStream :=
  let edge := s.sndvar.peerWnd + s.rcvvar.sndWl2
  let s := updateWindow seg ackSeq s
  let dup := isDuplicate seg ackSeq edge s
  recoverAfterLoss buf ackSeq (respondDupAcks dup ackSeq (countDupAcks dup ackSeq s))

def processACK (env : Env) (seg : Segment) (s : TcpStream) : TcpStream :=
  match s.sndvar.sndbuf with
  | none => s.abort .noSendBuffer
  | some buf =>
    let ackSeq := effectiveAck seg s
    if gt ackSeq (buf.headSeq + UInt32.ofNat buf.len) then s
    else
      let s := noteAck seg buf ackSeq s
      if geq buf.headSeq ackSeq then s else removeAcked env buf ackSeq s

/-- The receive buffer, allocated at the first payload. -/
def ensureRcvbuf (cfg : Config) (env : Env) (s : TcpStream) : Option TcpRingBuffer :=
  match s.rcvvar.rcvbuf with
  | some buf => some buf
  | none => if env.rbAlloc then some (rbInit env.junk cfg.rcvbufSize (s.rcvvar.irs + 1)) else none

def putPayload (env : Env) (seg : Segment) (buf : TcpRingBuffer) (s : TcpStream) : TcpStream :=
  match rbPut env.fragAlloc buf seg.payload seg.seq with
  | (res, buf) =>
    let s :=
      match res with
      | .ret _ => s
      | .assertFailed => s.abort .rbPutAssert
      | .outOfBounds => s.abort .rcvbufOverrun
    { s with rcvvar.rcvbuf := some buf }

/-- After the application has closed, merged bytes are thrown away at once. -/
def discardMerged (s : TcpStream) : TcpStream :=
  match s.rcvvar.rcvbuf with
  | none => s
  | some buf =>
    if s.state = .finWait1 ∨ s.state = .finWait2 then
      match rbRemove buf buf.mergedLen with
      | (_, failed, buf) =>
        let s := if failed then s.abort .rbRemoveAssert else s
        { s with rcvvar.rcvbuf := some buf }
    else s

def advanceRcvNxt (s : TcpStream) : TcpStream :=
  match s.rcvvar.rcvbuf with
  | none => s
  | some buf =>
    { s with
      rcvNxt := buf.headSeq + UInt32.ofNat buf.mergedLen
      rcvvar.rcvWnd := UInt32.ofNat (buf.size - buf.mergedLen) }

def processTCPPayload (cfg : Config) (env : Env) (seg : Segment) (s : TcpStream) :
    Int × TcpStream :=
  if lt (seg.seq + seg.payloadlen) s.rcvNxt then (0, s)
  else if gt (seg.seq + seg.payloadlen) (s.rcvNxt + s.rcvvar.rcvWnd) then (0, s)
  else
    match ensureRcvbuf cfg env s with
    | none => (-1, raiseEvent .error { s with state := .closed, closeReason := .noMem })
    | some buf =>
      let prev := s.rcvNxt
      let s := advanceRcvNxt (discardMerged (putPayload env seg buf s))
      if leq s.rcvNxt prev then (0, s)
      else (1, if s.state = .established then raiseEvent .read s else s)

def handlePayload (cfg : Config) (env : Env) (seg : Segment) (s : TcpStream) : TcpStream :=
  if 0 < seg.payload.length then
    match processTCPPayload cfg env seg s with
    | (ret, s) => if ret ≠ 0 then enqueueACK s .aggregate else enqueueACK s .now
  else s

def handleAck (env : Env) (seg : Segment) (s : TcpStream) : TcpStream :=
  if s.sndvar.sndbuf.isSome then processACK env seg s else s

def handleListen (seg : Segment) (s : TcpStream) : TcpStream :=
  if seg.syn then
    let s :=
      if s.state = .listen then { s with rcvNxt := s.rcvNxt + 1 }.log (.peerSyn seg.seq) else s
    addtoControlList { s with state := .synRcvd }
  else s

/-- The SYN/ACK branch of `Handle_TCP_ST_SYN_SENT`. -/
def completeActiveOpen (cfg : Config) (env : Env) (seg : Segment) (s : TcpStream) : TcpStream :=
  let s := handleActiveOpen env seg (s.log (.peerSyn seg.seq))
  let s := { s with
    sndvar.nrtx := 0
    rcvNxt := s.rcvvar.irs + 1 }
  let s := (removeFromRTOList s).establish
  if s.socket.isSome then
    let s := addtoControlList (raiseEvent .write s)
    if 0 < cfg.tcpTimeout then addtoTimeoutList s else s
  else
    let s := sendTCPPacketStandalone env 0 (seg.seq + seg.payloadlen + 1) true s
    destroyTCPStream cfg { s with closeReason := .activeClose }

def unacceptableAck (seg : Segment) (s : TcpStream) : Bool :=
  leq seg.ackSeq s.sndvar.iss || gt seg.ackSeq s.sndNxt

def handleSynSent (cfg : Config) (env : Env) (seg : Segment) (s : TcpStream) : TcpStream :=
  if seg.ack && unacceptableAck seg s then
    if seg.rst then s else sendTCPPacketStandalone env seg.ackSeq 0 false s
  else
    let s :=
      if seg.ack then { s with sndvar.sndUna := s.sndvar.sndUna + 1 }
      else s
    if seg.rst then
      if seg.ack then
        raiseErrorOrDestroy cfg { s with state := .closeWait, closeReason := .reset }
      else s
    else if seg.syn then
      if seg.ack then completeActiveOpen cfg env seg s
      else
        addtoControlList
          ({ s with state := .synRcvd, sndNxt := s.sndvar.iss }.log (.peerSyn seg.seq))
    else s

/-- The accept queue of the listener takes the new connection, or it is reset. -/
def offerToListener (cfg : Config) (env : Env) (s : TcpStream) : TcpStream :=
  match env.listener with
  | none => s.abort .noListener
  | some room =>
    let s :=
      if room then s.link .acceptq
      else addtoControlList { s with closeReason := .notAccepted, state := .closed }
    raiseEvent .listenerRead (if 0 < cfg.tcpTimeout then addtoTimeoutList s else s)

def handleSynRcvd (cfg : Config) (env : Env) (seg : Segment) (s : TcpStream) : TcpStream :=
  if seg.ack then
    if seg.ackSeq ≠ s.sndvar.iss + 1 then s
    else
      let s := removeFromRTOList { s with
        sndvar.sndUna := s.sndvar.sndUna + 1
        sndvar.cwnd := openingCwnd s.sndvar
        sndvar.nrtx := 0
        sndNxt := seg.ackSeq
        rcvNxt := s.rcvvar.irs + 1 }
      offerToListener cfg env s.establish
  else addtoControlList { s with sndNxt := s.sndvar.iss }

def handleEstablished (cfg : Config) (env : Env) (seg : Segment) (s : TcpStream) : TcpStream :=
  if seg.syn then addtoControlList { s with sndNxt := seg.ackSeq }
  else
    let s := handlePayload cfg env seg s
    let s := if seg.ack then handleAck env seg s else s
    if seg.fin then
      if seg.seq + seg.payloadlen = s.rcvNxt then
        let s := s.log (.consumeFin (seg.seq + seg.payloadlen) s.received)
        raiseEvent .read (addtoControlList { s with state := .closeWait, rcvNxt := s.rcvNxt + 1 })
      else enqueueACK s .now
    else s

def handleCloseWait (env : Env) (seg : Segment) (s : TcpStream) : TcpStream :=
  if lt seg.seq s.rcvNxt then addtoControlList s else handleAck env seg s

def handleLastAck (cfg : Config) (env : Env) (seg : Segment) (s : TcpStream) : TcpStream :=
  if lt seg.seq s.rcvNxt then s
  else if seg.ack then
    let s := handleAck env seg s
    if !s.sndvar.isFinSent then s
    else if seg.ackSeq = s.sndvar.fss + 1 then
      let s := updateRetransmissionTimer env
        { s with sndvar.sndUna := s.sndvar.sndUna + 1 }
      destroyTCPStream cfg { s with state := .closed, closeReason := .passiveClose }
    else addtoControlList s
  else addtoControlList s

/-- The acknowledgement of our FIN in `Handle_TCP_ST_FIN_WAIT_1`. -/
def ackOfFin (seg : Segment) (s : TcpStream) : TcpStream :=
  if s.sndvar.isFinSent ∧ seg.ackSeq = s.sndvar.fss + 1 then
    let s := { s with
      sndvar.sndUna := seg.ackSeq
      sndvar.nrtx := 0
      sndNxt := if gt seg.ackSeq s.sndNxt then seg.ackSeq else s.sndNxt }
    { removeFromRTOList s with state := .finWait2 }
  else s

def finAfterClose (cfg : Config) (env : Env) (seg : Segment) (s : TcpStream) : TcpStream :=
  if seg.fin ∧ seg.seq + seg.payloadlen = s.rcvNxt then
    let s := s.log (.consumeFin (seg.seq + seg.payloadlen) s.received)
    let s := { s with rcvNxt := s.rcvNxt + 1 }
    let s :=
      match s.state with
      | .finWait1 => { s with state := .closing }
      | .finWait2 => addtoTimewaitList cfg env { s with state := .timeWait }
      | _ => s
    addtoControlList s
  else s

def handleFinWait1 (cfg : Config) (env : Env) (seg : Segment) (s : TcpStream) : TcpStream :=
  if lt seg.seq s.rcvNxt then addtoControlList s
  else if seg.ack then
    finAfterClose cfg env seg (handlePayload cfg env seg (ackOfFin seg (handleAck env seg s)))
  else s

/-- Here the FIN moves the stream to TIME_WAIT whatever state it is in: running out of
memory for the payload has just made it CLOSED. -/
def handleFinWait2 (cfg : Config) (env : Env) (seg : Segment) (s : TcpStream) : TcpStream :=
  if seg.ack then
    let s := handlePayload cfg env seg (handleAck env seg s)
    if seg.fin ∧ seg.seq + seg.payloadlen = s.rcvNxt then
      let s := s.log (.consumeFin (seg.seq + seg.payloadlen) s.received)
      addtoControlList
        (addtoTimewaitList cfg env { s with state := .timeWait, rcvNxt := s.rcvNxt + 1 })
    else s
  else s

def handleClosing (cfg : Config) (env : Env) (seg : Segment) (s : TcpStream) : TcpStream :=
  if seg.ack then
    let s := handleAck env seg s
    if !s.sndvar.isFinSent then s
    else if seg.ackSeq ≠ s.sndvar.fss + 1 then s
    else
      let s := updateRetransmissionTimer env { s with
        sndvar.sndUna := seg.ackSeq
        sndNxt := seg.ackSeq }
      addtoTimewaitList cfg env { s with state := .timeWait }
  else s

def handleTimeWait (cfg : Config) (env : Env) (s : TcpStream) : TcpStream :=
  addtoControlList
    (if s.onTimewaitList then addtoTimewaitList cfg env (removeFromTimewaitList s) else s)

/-- The `switch` of `ProcessTCPPacket`. -/
def dispatch (cfg : Config) (env : Env) (seg : Segment) (s : TcpStream) : TcpStream :=
  match s.state with
  | .listen => handleListen seg s
  | .synSent => handleSynSent cfg env seg s
  | .synRcvd =>
    if seg.syn ∧ seg.seq = s.rcvvar.irs then handleListen seg s
    else
      let s := handleSynRcvd cfg env seg s
      if 0 < seg.payload.length ∧ s.state = .established then handleEstablished cfg env seg s
      else s
  | .established => handleEstablished cfg env seg s
  | .closeWait => handleCloseWait env seg s
  | .lastAck => handleLastAck cfg env seg s
  | .finWait1 => handleFinWait1 cfg env seg s
  | .finWait2 => handleFinWait2 cfg env seg s
  | .closing => handleClosing cfg env seg s
  | .timeWait => handleTimeWait cfg env s
  | .closed => s

/-- `ProcessTCPPacket` once the sequence number is validated. -/
def processValidated (cfg : Config) (env : Env) (seg : Segment) (s : TcpStream) : TcpStream :=
  let s := updateTimeoutList { s with
    sndvar.peerWnd := segmentWindow seg s
    lastActiveTs := env.curTs }
  if seg.rst then
    let s := { s with haveReset := true }
    if .synSent < s.state then processRST cfg seg s else dispatch cfg env seg s
  else dispatch cfg env seg s

def processTCPPacket (cfg : Config) (env : Env) (seg : Segment) (s : TcpStream) : TcpStream :=
  if .synRcvd < s.state then
    match validateSequence cfg env seg s with
    | (false, s) => s
    | (true, s) => processValidated cfg env seg s
  else processValidated cfg env seg s

/-- A SYN for a listening port creates a stream and is processed by it at once. -/
def createNewFlow (cfg : Config) (env : Env) (iss : UInt32) (seg : Segment) : TcpStream :=
  processTCPPacket cfg env seg (handlePassiveOpen cfg env iss seg)

end Mtcp
