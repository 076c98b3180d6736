import Mtcp.Options

namespace Mtcp

open Serial Options Bytes

structure Flags where
  fin : Bool := false
  syn : Bool := false
  rst : Bool := false
  ack : Bool := false
  wack : Bool := false

/-- The segment `SendTCPPacket` builds. A window probe is sent one below `snd_nxt`, and a
FIN always at `fss`. -/
def buildSegment (env : Env) (s : TcpStream) (flags : Flags) (payload : List UInt8)
    (h : payload.length < 65536) : Segment where
  seq := if flags.wack then s.sndNxt - 1 else if flags.fin then s.sndvar.fss else s.sndNxt
  ackSeq := if flags.ack then s.rcvNxt else 0
  window := (min (s.rcvvar.rcvWnd >>> (if flags.syn then 0 else s.sndvar.wscaleMine.toUInt32))
    65535).toUInt16
  syn := flags.syn
  ack := flags.ack
  fin := flags.fin && !flags.wack
  rst := flags.rst
  opts := generateTCPOptions s env.curTs flags.syn
  payload := payload
  payload_lt := h

def markFin (seg : Segment) (s : TcpStream) : TcpStream :=
  if seg.fin then { s with sndvar.isFinSent := true } else s

def noteAckSent (env : Env) (flags : Flags) (s : TcpStream) : TcpStream :=
  if flags.ack then
    updateTimeoutList { s with
      sndvar.tsLastackSent := env.curTs
      lastActiveTs := env.curTs }
  else s

/-- An advertised window of zero has to be followed by another advertisement. -/
def noteZeroWindow (flags : Flags) (s : TcpStream) : TcpStream :=
  if s.rcvvar.rcvWnd >>> (if flags.syn then 0 else s.sndvar.wscaleMine.toUInt32) = 0 then
    { s with needWndAdv := true }
  else s

def advanceSndNxt (seg : Segment) (s : TcpStream) : TcpStream :=
  let s := { s with sndNxt := s.sndNxt + seg.payloadlen }
  if seg.syn || seg.fin then { s with sndNxt := s.sndNxt + 1 } else s

def armTimer (env : Env) (seg : Segment) (s : TcpStream) : TcpStream :=
  if 0 < seg.payload.length || seg.syn || seg.fin then
    addtoRTOList env { s with sndvar.tsRto := env.curTs + s.sndvar.rto }
  else s

/-- The bookkeeping of `SendTCPPacket` once a write buffer was obtained. -/
def sendSegment (env : Env) (s : TcpStream) (flags : Flags) (payload : List UInt8)
    (h : payload.length < 65536) : TcpStream :=
  let seg := buildSegment env s flags payload h
  let s := markFin seg { s with txRoom := s.txRoom - 1 }
  let s := noteZeroWindow flags (noteAckSent env flags s)
  armTimer env seg (advanceSndNxt seg (s.log (.emit seg)))

theorem sendSegment_shape (env : Env) (s : TcpStream) (flags : Flags) (payload : List UInt8)
    (h : payload.length < 65536) : ∃ finSent lastack tsRto adv nxt active idx occ,
      (∀ l, l ≠ .rto → l ≠ .timeout → occ l = s.occ l) ∧
      sendSegment env s flags payload h = { s with
        sndvar.isFinSent := finSent, sndvar.tsLastackSent := lastack, sndvar.tsRto := tsRto
        needWndAdv := adv
        sndNxt := nxt
        lastActiveTs := active
        onRtoIdx := idx
        occ := occ
        txRoom := s.txRoom - 1
        trace := .emit (buildSegment env s flags payload h) :: s.trace } := by
  have hfin : ∀ seg w, ∃ b, markFin seg w = { w with sndvar.isFinSent := b } := by
    intro seg w
    unfold markFin
    split <;> exact ⟨_, rfl⟩
  have hack : ∀ w, ∃ lastack active occ, (∀ l, l ≠ .timeout → occ l = w.occ l) ∧
      noteAckSent env flags w = { w with
        sndvar.tsLastackSent := lastack
        lastActiveTs := active
        occ := occ } := by
    intro w
    unfold noteAckSent updateTimeoutList
    split
    · split
      · refine ⟨_, _, _, fun l hl => ?_, rfl⟩
        simp [TcpStream.unlink, hl]
      · exact ⟨_, _, _, fun _ _ => rfl, rfl⟩
    · exact ⟨_, _, _, fun _ _ => rfl, rfl⟩
  have hzero : ∀ w, ∃ adv, noteZeroWindow flags w = { w with needWndAdv := adv } := by
    intro w
    unfold noteZeroWindow
    split_ifs <;> exact ⟨_, rfl⟩
  have hnxt : ∀ seg w, ∃ nxt, advanceSndNxt seg w = { w with sndNxt := nxt } := by
    intro seg w
    unfold advanceSndNxt
    split <;> exact ⟨_, rfl⟩
  have harm : ∀ seg w, ∃ tsRto idx occ, (∀ l, l ≠ .rto → occ l = w.occ l) ∧
      armTimer env seg w = { w with
        sndvar.tsRto := tsRto
        onRtoIdx := idx
        occ := occ } := by
    intro seg w
    unfold armTimer addtoRTOList
    split
    · split
      · split
        · exact ⟨_, _, _, fun _ _ => rfl, rfl⟩
        · refine ⟨_, _, _, fun l hl => ?_, rfl⟩
          simp [hl]
      · exact ⟨_, _, _, fun _ _ => rfl, rfl⟩
    · exact ⟨_, _, _, fun _ _ => rfl, rfl⟩
  unfold sendSegment
  generalize hseg : buildSegment env s flags payload h = seg
  obtain ⟨finSent, hf⟩ := hfin seg { s with txRoom := s.txRoom - 1 }
  obtain ⟨lastack, active, occ, hocc, ha⟩ := hack (markFin seg { s with txRoom := s.txRoom - 1 })
  obtain ⟨adv, hz⟩ := hzero (noteAckSent env flags (markFin seg { s with txRoom := s.txRoom - 1 }))
  dsimp only
  rw [hz, ha, hf]
  obtain ⟨nxt, hn⟩ := hnxt seg (TcpStream.log _ (.emit seg))
  rw [hn]
  obtain ⟨tsRto, idx, occ', hocc', hr⟩ := harm seg _
  refine ⟨finSent, lastack, tsRto, adv, nxt, active, idx, occ', fun l hrto htimeout => ?_, hr⟩
  refine (hocc' l hrto).trans ((hocc l htimeout).trans ?_)
  rw [hf]

def sendTCPPacket (env : Env) (s : TcpStream) (flags : Flags) (payload : List UInt8) :
    Int × TcpStream :=
  if h : payload.length + calculateOptionLength flags.syn > s.sndvar.mss.toNat then (-1, s)
  else if s.txRoom = 0 then (-2, s)
  else
    (payload.length + (if flags.syn || (flags.fin && !flags.wack) then 1 else 0),
      sendSegment env s flags payload (by have := s.sndvar.mss.toNat_lt; omega))

def tsToMsec (t : UInt32) : UInt32 := t * 1000 / 1000

def remainingWindow (s : TcpStream) : Int :=
  signed (min s.sndvar.cwnd s.sndvar.peerWnd - (s.sndNxt - s.sndvar.sndUna))

/-- No room for a full segment, with something already in flight. -/
def windowFull (s : TcpStream) : Bool :=
  decide (remainingWindow s ≤ 0) || (decide (remainingWindow s < s.sndvar.mss.toNat) &&
    decide (0 < (s.sndNxt - s.sndvar.sndUna).toNat))

/-- The bytes of the next packet, limited by the window and the MSS; the length is passed
on in 16 bits. -/
def nextPacket (s : TcpStream) (buf : TcpSendBuffer) : List UInt8 :=
  let off := s.sndNxt - buf.headSeq
  let len := min (UInt32.ofNat buf.len - off) (UInt32.ofNat (remainingWindow s).toNat)
  let pktLen := min len (s.sndvar.mss.toUInt32 - 12)
  slice buf.data (buf.head + off.toNat) (pktLen.toNat % 65536)

/-- A full window makes the flush ask for an advertisement every half second. -/
def probeWindow (env : Env) (s : TcpStream) : TcpStream :=
  if s.sndvar.peerWnd ≤ s.sndvar.cwnd ∧ 500 < tsToMsec (env.curTs - s.sndvar.tsLastackSent) then
    enqueueACK s .wack
  else s

/-- The loop of `FlushTCPSendingBuffer`. Every round that goes on uses up a write buffer,
so `txRoom + 1` rounds are enough. -/
def flushLoop (env : Env) : Nat → TcpStream → Int → Int × TcpStream
  | 0, s, packets => (packets, s)
  | fuel + 1, s, packets =>
    match s.sndvar.sndbuf with
    | none => (packets, s)
    | some buf =>
      if lt s.sndNxt buf.headSeq then (packets, s.abort .seqBelowHead)
      else if lt s.sndNxt s.sndvar.sndUna then (packets, s.abort .seqBelowUna)
      else if buf.len < (s.sndNxt - buf.headSeq).toNat then (packets, s.abort .lenNegative)
      else if UInt32.ofNat buf.len - (s.sndNxt - buf.headSeq) = 0 then (packets, s)
      else if windowFull s then (-3, probeWindow env s)
      else
        match sendTCPPacket env s { ack := true } (nextPacket s buf) with
        | (sndlen, s) => if sndlen < 0 then (-3, s) else flushLoop env fuel s (packets + 1)

def flushTCPSendingBuffer (env : Env) (s : TcpStream) : Int × TcpStream :=
  match s.sndvar.sndbuf with
  | none => (0, s.abort .noSendBuffer)
  | some buf => if buf.len = 0 then (0, s) else flushLoop env (s.txRoom + 1) s 0

def sendFin (env : Env) (s : TcpStream) : Int × TcpStream :=
  sendTCPPacket env s { fin := true, ack := true } []

def sendAck (env : Env) (s : TcpStream) : Int × TcpStream := sendTCPPacket env s { ack := true } []

def sendControlPacket (cfg : Config) (env : Env) (s : TcpStream) : Int × TcpStream :=
  match s.state with
  | .synSent => sendTCPPacket env s { syn := true } []
  | .synRcvd =>
    sendTCPPacket env { s with sndNxt := s.sndvar.iss } { syn := true, ack := true } []
  | .established | .closeWait | .finWait2 | .timeWait => sendAck env s
  | .lastAck | .finWait1 =>
    if s.sndvar.onSendList || s.sndvar.onAckList then (-1, s) else sendFin env s
  | .closing =>
    if s.sndvar.isFinSent then
      if s.sndNxt = s.sndvar.fss then sendFin env s else sendAck env s
    else sendFin env s
  | .closed =>
    if s.sndvar.onSendList || s.sndvar.onAckList then (-1, s)
    else
      match sendTCPPacket env s { rst := true } [] with
      | (ret, s) => if 0 ≤ ret then (ret, destroyTCPStream cfg s) else (ret, s)
  | .listen => (0, s)

/-- What `WriteTCPControlList` does with a stream it takes off the list. -/
def writeTCPControl (cfg : Config) (env : Env) (s : TcpStream) : TcpStream :=
  let s := s.unlink .control
  if s.sndvar.onControlList then
    let s := { s with sndvar.onControlList := false }
    match sendControlPacket cfg env s with
    | (ret, s) =>
      if ret < 0 then
        { s with sndvar.onControlList := true }.link .control
      else s
  else s

/-- The piggybacked acknowledgements are taken off `ack_cnt` after a data pass. -/
def piggyback (ackCnt : BitVec 6) (ret : Int) : BitVec 6 :=
  if ret < ackCnt.toNat then ackCnt - BitVec.ofInt 6 ret else 0

def canFlush (s : TcpStream) : Bool :=
  s.state = .closeWait || s.state = .finWait1 || s.state = .lastAck

/-- Data waits in ESTABLISHED until the control packet is out. -/
def sendData (env : Env) (s : TcpStream) : Int × TcpStream :=
  if s.state = .established then
    if s.sndvar.onControlList then (-1, s) else flushTCPSendingBuffer env s
  else if canFlush s then flushTCPSendingBuffer env s
  else (0, s)

/-- A control packet that waited for data or acknowledgements is queued when the stream
has left both lists. -/
def releaseControl (blocked : Bool) (s : TcpStream) : TcpStream :=
  if s.controlListWaiting && !blocked then addtoControlList { s with controlListWaiting := false }
  else s

/-- What `WriteTCPDataList` does with a stream it takes off the list. -/
def writeTCPData (env : Env) (s : TcpStream) : TcpStream :=
  let s := s.unlink .send
  if s.sndvar.onSendList then
    match sendData env s with
    | (ret, s) =>
      if ret < 0 then s.link .send
      else
        let s := { s with
          sndvar.onSendList := false
          sndvar.ackCnt := piggyback s.sndvar.ackCnt ret }
        releaseControl s.sndvar.onAckList s
  else s

/-- The inner loop of `WriteTCPACKList`, one queued acknowledgement a round. -/
def ackLoop (env : Env) : Nat → TcpStream → TcpStream
  | 0, s => s
  | fuel + 1, s =>
    if s.sndvar.ackCnt = 0 then s
    else
      match sendAck env s with
      | (ret, s) =>
        if ret < 0 then s
        else ackLoop env fuel
          { s with sndvar.ackCnt := s.sndvar.ackCnt - 1 }

def toAck (s : TcpStream) : Bool :=
  (s.state = .established || s.state = .closeWait || s.state = .finWait1 ||
      s.state = .finWait2 || s.state = .timeWait) &&
    match s.rcvvar.rcvbuf with
    | none => false
    | some buf => leq s.rcvNxt (buf.headSeq + UInt32.ofNat buf.mergedLen)

def sendWack (env : Env) (s : TcpStream) : TcpStream :=
  if s.sndvar.isWack then
    match sendTCPPacket env { s with sndvar.isWack := false }
        { ack := true, wack := true } [] with
    | (ret, s) => if ret < 0 then { s with sndvar.isWack := true } else s
  else s

/-- What `WriteTCPACKList` does with a stream on the list. -/
def writeTCPACK (env : Env) (s : TcpStream) : TcpStream :=
  if s.sndvar.onAckList then
    let s :=
      if toAck s then
        let s := sendWack env (ackLoop env s.sndvar.ackCnt.toNat s)
        if s.sndvar.ackCnt = 0 && !s.sndvar.isWack then
          { s with sndvar.onAckList := false }.unlink .ack
        else s
      else
        { s with sndvar.onAckList := false, sndvar.ackCnt := 0, sndvar.isWack := false }.unlink .ack
    releaseControl s.sndvar.onSendList s
  else s.unlink .ack

end Mtcp
