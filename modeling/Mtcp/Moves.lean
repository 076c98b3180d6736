import Mtcp.Conn
import Mtcp.Runs

namespace Mtcp

open Serial SendBuffer RingBuffer Bytes

def Fault.sendAssert : Fault → Bool
  | .seqBelowHead | .seqBelowUna | .lenNegative => true
  | _ => false

def TcpState.flushes : TcpState → Bool
  | .established | .closeWait | .finWait1 | .lastAck => true
  | _ => false

def TcpState.early : TcpState → Bool
  | .listen | .synSent | .synRcvd => true
  | _ => false

namespace Conn

/-- What only a completed handshake brings, and how often the stream can be queued. -/
structure Shape (v : Conn) : Prop where
  sndbuf : v.state.early = true → v.sndbuf = none
  lists : v.state.early = true → v.sendList = false ∧ v.sendq = false ∧ v.waiting = false
  closing : v.state.early = true → v.closes = 0 ∧ v.closesInt = 0 ∧ v.finSent = false
  timewait : v.timewait = true → v.state = .timeWait ∨ v.state = .closed
  queue : v.sends = if v.sendq then 1 else 0
  once : v.closes + v.closesInt ≤ if v.closed then 1 else 0

def sendBase (v : Conn) : UInt32 :=
  match v.sndbuf with
  | some buf => buf.headSeq
  | none => v.iss + 1

def sendLen (v : Conn) : Nat :=
  match v.sndbuf with
  | some buf => buf.len
  | none => 0

/-- Where a FIN goes if the stream is closed now. -/
def sendEnd (v : Conn) : UInt32 :=
  match v.sndbuf with
  | some buf => buf.headSeq + UInt32.ofNat buf.len
  | none => v.sndNxt

def Ordered (v : Conn) (buf : TcpSendBuffer) : Prop :=
  lt v.sndNxt buf.headSeq = false ∧ lt v.sndNxt v.sndUna = false ∧
    fwd buf.headSeq v.sndNxt ≤ buf.len

def received (v : Conn) : Nat :=
  match v.rcvbuf with
  | none => 0
  | some buf => buf.cumLen

def snapshot (v : Conn) : Snapshot where
  sndUna := v.sndUna
  sndNxt := v.sndNxt
  iss := v.iss
  irs := v.irs
  rcvNxt := v.rcvNxt

def establish (v : Conn) : Conn :=
  { v with state := .established, rto := false, log := .establish v.snapshot :: v.log }

/-- A segment given to the device. Only what occupies sequence numbers starts the timer. -/
def emitted (v : Conn) (seg : Segment) : Conn :=
  { v with
    log := .emit seg :: v.log
    finSent := v.finSent || seg.fin
    sndNxt := v.sndNxt + UInt32.ofNat seg.payload.length +
      (if seg.syn || seg.fin then 1 else 0)
    rto := if 0 < seg.payload.length || seg.syn || seg.fin then v.rto || !v.timewait else v.rto }

/-- Where an acknowledgement leaves `snd_nxt`: a third duplicate pulls it back, one beyond
it pushes it on. -/
def ackedNxt (v : Conn) (x : UInt32) (fast : Bool) : UInt32 :=
  if fast then x else if gt x v.sndNxt then x else v.sndNxt

/-- The connection before anything is removed from the send buffer. -/
def noted (v : Conn) (buf : TcpSendBuffer) (x : UInt32) (fast : Bool) : Conn :=
  { v with
    sndNxt := v.ackedNxt x fast
    sendList := if fast then true else
      if gt x v.sndNxt ∧ buf.len = 0 then false else v.sendList }

def acked (v : Conn) (buf : TcpSendBuffer) (x : UInt32) (fast : Bool) : Conn :=
  if geq buf.headSeq x then v.noted buf x fast
  else
    { v.noted buf x fast with
      sndbuf := some (sbRemove buf (fwd buf.headSeq x)).2
      sndUna := x
      rto := gt (v.ackedNxt x fast) x && !v.timewait
      log := .release (buf.len - (sbRemove buf (fwd buf.headSeq x)).2.len) :: v.log }

def retransmitted (v : Conn) : Conn :=
  let v := { v with rto := false, sndNxt := v.sndUna }
  match v.state with
  | .established | .closeWait => { v with sendList := true }
  | .finWait1 | .closing | .lastAck =>
    if lt v.sndUna v.fss then { v with control := false, waiting := true, sendList := true }
    else { v with control := true }
  | _ => { v with control := true }

theorem acked_eq (v : Conn) (buf : TcpSendBuffer) (x : UInt32) (fast : Bool) :
    v.acked buf x fast = { v with
      sndNxt := (v.acked buf x fast).sndNxt
      sendList := (v.acked buf x fast).sendList
      sndbuf := (v.acked buf x fast).sndbuf
      sndUna := (v.acked buf x fast).sndUna
      rto := (v.acked buf x fast).rto
      log := (v.acked buf x fast).log } := by
  unfold acked
  split <;> rfl

theorem retransmitted_eq (v : Conn) : v.retransmitted = { v with
    rto := false
    sndNxt := v.sndUna
    control := v.retransmitted.control
    waiting := v.retransmitted.waiting
    sendList := v.retransmitted.sendList } := by
  unfold retransmitted
  dsimp only
  split <;> first | rfl | (split <;> rfl)

def receivedPayload (v : Conn) (buf : TcpRingBuffer) : Conn :=
  let buf :=
    if v.state = .finWait1 ∨ v.state = .finWait2 then (rbRemove buf buf.mergedLen).2.2 else buf
  { v with rcvbuf := some buf, rcvNxt := buf.headSeq + UInt32.ofNat buf.mergedLen }

end Conn

inductive Move where
  | crash (w : Conn)
  | assertFail (f : Fault)
  | destroy
  | control
  | uncontrol
  | wait
  | unwait
  | timewait (keep : Bool)
  | expire
  | shut (r : TcpCloseReason)
  | blame (r : TcpCloseReason)
  | reset
  | listen (seq : UInt32)
  | bareAck
  | refused
  | synAck (seq ack : UInt32)
  | loneSyn (seq : UInt32)
  | ackOfSyn
  | restart
  | jump (x : UInt32)
  | receive (frag : Bool) (buf : TcpRingBuffer) (seg : Segment)
  | ack (buf : TcpSendBuffer) (x : UInt32) (fast : Bool)
  | peerFin (seq : UInt32) (dest : TcpState)
  | finAcked
  | closingAcked
  | lastAcked
  | retransmit
  | connect
  | takeSendq
  | takeClose
  | postpone
  | takeCloseInt
  | beginClose
  | emitSyn (seg : Segment)
  | emitAck (seg : Segment)
  | emitFin (seg : Segment)
  | emitRst (seg : Segment)
  | emitData (buf : TcpSendBuffer) (seg : Segment)
  | unqueue
  | put (buf : TcpSendBuffer) (bytes : List UInt8)
  | hand (buf : TcpRingBuffer) (n : Nat)
  | closeCall
  | closeMark

namespace Move

def apply (v : Conn) : Move → Conn
  | crash w => w
  | assertFail f => v.crash f
  | destroy => v.destroyed
  | control => { v with control := true }
  | uncontrol => { v with control := false }
  | wait => { v with waiting := true }
  | unwait => { v with waiting := false }
  | timewait keep => { v with timewait := true, rto := v.rto && keep }
  | expire => { v with rto := false }
  | shut r => { v with state := .closed, reason := r }
  | blame r => { v with reason := r }
  | reset => { v with state := .closeWait, reason := .reset }
  | listen seq =>
    { v with state := .synRcvd, rcvNxt := v.rcvNxt + 1, log := .peerSyn seq :: v.log }
  | bareAck => { v with sndUna := v.sndUna + 1 }
  | refused => { v with sndUna := v.sndUna + 1, state := .closeWait, reason := .reset }
  | synAck seq a =>
    { v with
      sndUna := v.sndUna + 1
      irs := seq
      sndNxt := a
      rcvNxt := seq + 1
      log := .peerSyn seq :: v.log }.establish
  | loneSyn seq =>
    { v with state := .synRcvd, sndNxt := v.iss, log := .peerSyn seq :: v.log }
  | ackOfSyn =>
    { v with sndUna := v.sndUna + 1, sndNxt := v.iss + 1, rcvNxt := v.irs + 1 }.establish
  | restart => { v with sndNxt := v.iss }
  | jump x => { v with sndNxt := x }
  | receive frag buf seg => v.receivedPayload (rbPut frag buf seg.payload seg.seq).2
  | ack buf x fast => v.acked buf x fast
  | peerFin seq dest =>
    { v with
      state := dest
      rcvNxt := v.rcvNxt + 1
      log := .consumeFin seq v.received :: v.log }
  | finAcked =>
    { v with
      sndUna := v.fss + 1
      sndNxt := if gt (v.fss + 1) v.sndNxt then v.fss + 1 else v.sndNxt
      rto := false
      state := .finWait2 }
  | closingAcked =>
    { v with sndUna := v.fss + 1, sndNxt := v.fss + 1, rto := false, state := .timeWait }
  | lastAcked =>
    { v with
      sndUna := v.sndUna + 1
      rto := gt v.sndNxt (v.sndUna + 1) && !v.timewait
      state := .closed
      reason := .passiveClose }
  | retransmit => v.retransmitted
  | connect => { v with connects := v.connects - 1, control := true }
  | takeSendq => { v with sends := v.sends - 1, sendq := false, sendList := true }
  | takeClose =>
    { v with
      closes := v.closes - 1
      fss := v.sendEnd }
  | postpone => { v with closesInt := v.closesInt + 1 }
  | takeCloseInt => { v with closesInt := v.closesInt - 1 }
  | beginClose =>
    { v with state := if v.state = .established then .finWait1 else .lastAck }
  | emitSyn seg => { v.emitted seg with control := false }
  | emitAck seg | emitFin seg | emitRst seg | emitData _ seg => v.emitted seg
  | unqueue => { v with sendList := false }
  | put buf bytes =>
    { v with
      sndbuf := some (sbPut buf bytes).2
      sendq := v.sendq || !v.sendList
      sends := if v.sendq || v.sendList then v.sends else v.sends + 1
      log := .take bytes :: v.log }
  | hand buf n =>
    { v with
      rcvbuf := some (rbRemove buf n).2.2
      log := .hand (slice buf.data buf.head n) :: v.log }
  | closeCall => { v with closed := true, closes := v.closes + 1 }
  | closeMark => { v with closed := true }

/-- A segment that carries no flag but ACK. -/
def Plain (seg : Segment) : Prop :=
  seg.syn = false ∧ seg.fin = false ∧ seg.rst = false ∧ seg.ack = true

def Acceptable (v : Conn) (ack : UInt32) : Prop :=
  leq ack v.iss = false ∧ gt ack v.sndNxt = false

def guard (cfg : Config) (v : Conn) : Move → Prop
  | crash w => w.alive = v.alive ∧ ∃ f : Fault, f.sendAssert = false ∧ w.fault = v.fault.or (some f)
  | assertFail f => f.sendAssert = true ∧ v.state.flushes = true ∧ v.sendList = true ∧
      ∃ buf, v.sndbuf = some buf ∧ 0 < buf.len ∧ ¬ v.Ordered buf
  | control => v.state ≠ .synSent
  | wait => v.state.early = false
  | postpone => v.state.early = false ∧ v.closed = true ∧ v.closes = 0 ∧ v.closesInt = 0 ∧
      v.fss = v.sendEnd
  | timewait _ => v.state = .timeWait
  | expire => v.reason ≠ .notClosed
  | shut r | blame r => r ≠ .notClosed
  | reset => v.state = .established ∨ v.state = .closeWait
  | listen _ => v.state = .listen
  | bareAck | refused => v.state = .synSent ∧ ∃ a, Acceptable v a
  | synAck _ a => v.alive = true ∧ v.state = .synSent ∧ Acceptable v a
  | loneSyn _ => v.state = .synSent
  | ackOfSyn => v.alive = true ∧ v.state = .synRcvd
  | restart => v.state = .synRcvd
  | jump _ => v.state = .established
  | receive frag buf seg =>
      (v.state = .established ∨ v.state = .finWait1 ∨ v.state = .finWait2) ∧
      (v.rcvbuf = some buf ∨
        v.rcvbuf = none ∧ ∃ junk, buf = rbInit junk cfg.rcvbufSize (v.irs + 1)) ∧
      0 < seg.payload.length ∧ ∃ code, (rbPut frag buf seg.payload seg.seq).1 = .ret code
  | ack buf x fast => v.sndbuf = some buf ∧
      gt x (buf.headSeq + UInt32.ofNat buf.len) = false ∧ (fast = true → lt x v.sndNxt = true)
  | peerFin seq dest => seq = v.rcvNxt ∧
      (v.state = .established ∧ dest = .closeWait ∨ v.state = .finWait1 ∧ dest = .closing ∨
        v.state = .finWait2 ∧ dest = .timeWait ∨ v.state = .closed ∧ dest = .closed)
  | finAcked => v.state = .finWait1 ∧ v.finSent = true
  | closingAcked => v.state = .closing ∧ v.finSent = true
  | lastAcked => v.state = .lastAck ∧ v.finSent = true
  | retransmit => v.rto = true ∧ v.reason = .notClosed ∧
      (v.state = .synSent ∨ v.state = .synRcvd ∨
        (v.state = .established ∨ v.state = .closeWait) ∧ v.sndbuf.isSome ∨
        (v.state = .finWait1 ∨ v.state = .closing ∨ v.state = .lastAck) ∧
          (lt v.sndUna v.fss = true → v.sndbuf.isSome))
  | connect => 0 < v.connects
  | takeSendq => 0 < v.sends ∧ v.sndbuf.isSome
  | takeClose => 0 < v.closes
  | takeCloseInt => 0 < v.closesInt
  | beginClose => (v.state = .established ∨ v.state = .closeWait) ∧
      v.closes = 0 ∧ (0 < v.closesInt ∨ v.fss = v.sendEnd)
  | emitSyn seg => v.control = true ∧ seg.syn = true ∧ seg.fin = false ∧ seg.rst = false ∧
      seg.payload = [] ∧ seg.seq = v.sndNxt ∧
      (v.state = .synSent ∧ seg.ack = false ∧ seg.ackSeq = 0 ∨
        v.state = .synRcvd ∧ v.sndNxt = v.iss ∧ seg.ack = true ∧ seg.ackSeq = v.rcvNxt)
  | emitAck seg => Plain seg ∧ seg.payload = [] ∧ seg.ackSeq = v.rcvNxt ∧
      (seg.seq = v.sndNxt ∨ seg.seq = v.sndNxt - 1) ∧ .established ≤ v.state
  | emitFin seg => seg.syn = false ∧ seg.fin = true ∧ seg.rst = false ∧ seg.ack = true ∧
      seg.payload = [] ∧ seg.ackSeq = v.rcvNxt ∧ seg.seq = v.fss ∧
      ((v.state = .finWait1 ∨ v.state = .lastAck) ∧ v.sendList = false ∨
        v.state = .closing ∧ (v.finSent = false ∨ v.sndNxt = v.fss))
  | emitRst seg => seg.syn = false ∧ seg.fin = false ∧ seg.rst = true ∧ seg.ack = false ∧
      seg.payload = [] ∧ seg.ackSeq = 0 ∧ seg.seq = v.sndNxt ∧ v.state = .closed
  | emitData buf seg => v.state.flushes = true ∧ v.sendList = true ∧ v.sndbuf = some buf ∧
      0 < buf.len ∧ v.Ordered buf ∧ Plain seg ∧ seg.ackSeq = v.rcvNxt ∧ seg.seq = v.sndNxt ∧
      ∃ n, n ≤ buf.len - fwd buf.headSeq v.sndNxt ∧
        seg.payload = slice buf.data (buf.head + fwd buf.headSeq v.sndNxt) n
  | unqueue => v.fault = none → v.state.flushes = true → ∃ buf, v.sndbuf = some buf ∧
      (buf.len = 0 ∨ v.sndNxt = buf.headSeq + UInt32.ofNat buf.len)
  | put buf bytes => (v.state = .established ∨ v.state = .closeWait) ∧ bytes ≠ [] ∧
      (v.sndbuf = some buf ∨
        v.sndbuf = none ∧ ∃ junk, buf = sbInit junk cfg.sndbufSize (v.iss + 1)) ∧
      (sbPut buf bytes).1 = bytes.length
  | hand buf n => v.rcvbuf = some buf ∧ 0 < n ∧ n ≤ buf.mergedLen ∧
      (rbRemove buf n).2.1 = false
  | closeCall => (v.state = .established ∨ v.state = .closeWait) ∧ v.closed = false
  | destroy | uncontrol | unwait | closeMark => True

theorem fault_of_apply {cfg : Config} {v : Conn} {m : Move} (hg : m.guard cfg v)
    (h : (apply v m).fault = none) : v.fault = none := by
  cases m with
  | crash w =>
    obtain ⟨_, f, _, hw⟩ := hg
    change w.fault = none at h
    rw [hw] at h
    cases hf : v.fault with
    | none => rfl
    | some g => simp [hf] at h
  | assertFail f =>
    change v.fault.or (some f) = none at h
    cases hf : v.fault with
    | none => rfl
    | some g => simp [hf] at h
  | ack buf x fast => exact (congrArg Conn.fault (v.acked_eq buf x fast)).symm.trans h
  | retransmit => exact (congrArg Conn.fault v.retransmitted_eq).symm.trans h
  | _ => exact h

end Move

end Mtcp
