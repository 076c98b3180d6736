import Mtcp.Moves

namespace Mtcp

open Serial SendBuffer RingBuffer Bytes Runs

structure SameSend (v w : Conn) : Prop where
  sndbuf : v.sndbuf = w.sndbuf
  sndUna : v.sndUna = w.sndUna
  sndNxt : v.sndNxt = w.sndNxt
  fss : v.fss = w.fss
  finSent : v.finSent = w.finSent
  iss : v.iss = w.iss
  sendList : v.sendList = w.sendList
  alive : v.alive = w.alive
  log : v.log = w.log

theorem SameSend.refl (v : Conn) : SameSend v v := ⟨rfl, rfl, rfl, rfl, rfl, rfl, rfl, rfl, rfl⟩

theorem SameSend.trans {u v w : Conn} (h : SameSend u v) (h' : SameSend v w) : SameSend u w :=
  ⟨h.sndbuf.trans h'.sndbuf, h.sndUna.trans h'.sndUna, h.sndNxt.trans h'.sndNxt, h.fss.trans h'.fss,
    h.finSent.trans h'.finSent, h.iss.trans h'.iss, h.sendList.trans h'.sendList,
    h.alive.trans h'.alive, h.log.trans h'.log⟩

def validated (cfg : Config) (env : Env) (seg : Segment) (s : TcpStream) : Bool :=
  !decide (.synRcvd < s.state) || (validateSequence cfg env seg s).1

/-- A segment that can be the third duplicate acknowledgement in a row. -/
def thirdDuplicate (seg : Segment) (s : TcpStream) : Bool :=
  s.rcvvar.dupAcks == 2 && effectiveAck seg s == s.rcvvar.lastAckSeq && seg.payload.isEmpty

/-- `CheckRtmTimeout` finds the stream in the slot whose time has come. -/
def rtoExpired (env : Env) (s : TcpStream) : Bool :=
  decide (s.onRtoIdx = env.rtoNowIdx.toNat ∧ 0 ≤ signed (env.curTs - env.rtoNowTs))

def AckDone (s : TcpStream) (seg : Segment) (v : Conn) : Prop :=
  match s.sndvar.sndbuf with
  | none => SameSend v (conn s)
  | some buf =>
    if gt (effectiveAck seg s) (buf.headSeq + UInt32.ofNat buf.len) then SameSend v (conn s)
    else ∃ fast, SameSend v ((conn s).acked buf (effectiveAck seg s) fast) ∧
      (fast = true → thirdDuplicate seg s = true)

/-- A payload that arrives in ESTABLISHED meets the buffer and `rcv_nxt` that the segment found,
unless this very segment has completed the handshake. -/
def Arrives (cfg : Config) (s : TcpStream) (e : Env × Action) (seg : Segment) (v : Conn) : Prop :=
  v.state = .established → v.rcvbuf = s.rcvvar.rcvbuf ∧ (s.state = .synRcvd ∨
    s.state = .established ∧ v.rcvNxt = s.rcvNxt ∧ validated cfg e.1 seg s = true ∧
      seg.syn = false)

/-- Why a move is made: what the stream and the event it meets have to do with it. -/
def Cause (cfg : Config) (s : TcpStream) (e : Env × Action) (v : Conn) : Move → Prop
  | .bareAck => ∃ seg, e.2 = .rx seg ∧ s.state = .synSent ∧ seg.ack = true ∧ seg.syn = false ∧
      seg.rst = false ∧ unacceptableAck seg s = false
  | .refused => ∃ seg, e.2 = .rx seg ∧ s.state = .synSent ∧ seg.ack = true ∧ seg.rst = true ∧
      unacceptableAck seg s = false
  | .synAck seq ack => ∃ seg, e.2 = .rx seg ∧ s.state = .synSent ∧ seg.syn = true ∧
      seg.ack = true ∧ seg.rst = false ∧ seq = seg.seq ∧ ack = seg.ackSeq ∧
      unacceptableAck seg s = false
  | .loneSyn seq => ∃ seg, e.2 = .rx seg ∧ s.state = .synSent ∧ seg.syn = true ∧
      seg.ack = false ∧ seg.rst = false ∧ seq = seg.seq
  | .ackOfSyn => ∃ seg, e.2 = .rx seg ∧ s.state = .synRcvd ∧ seg.ack = true ∧
      seg.ackSeq = s.sndvar.iss + 1 ∧ SameSend v (conn s)
  | .jump x => ∃ seg, e.2 = .rx seg ∧ s.state = .established ∧ seg.syn = true ∧
      seg.rst = false ∧ x = seg.ackSeq ∧ validated cfg e.1 seg s = true ∧ SameSend v (conn s)
  | .blame r => r ≠ .reset
  | .reset => ∃ seg, e.2 = .rx seg ∧ seg.rst = true ∧ validated cfg e.1 seg s = true ∧
      (s.state = .established ∨ s.state = .closeWait)
  | .receive _ _ seg => e.2 = .rx seg ∧ seg.rst = false ∧
      lt (seg.seq + seg.payloadlen) v.rcvNxt = false ∧ Arrives cfg s e seg v
  | .ack _ x fast => ∃ seg, e.2 = .rx seg ∧ seg.rst = false ∧ x = effectiveAck seg s ∧
      validated cfg e.1 seg s = true ∧ .synRcvd < s.state ∧ s.onHashTable = true ∧
      SameSend v (conn s) ∧ (fast = true → thirdDuplicate seg s = true) ∧
      v.state = s.state ∧ s.state ≠ .timeWait
  | .peerFin seq _ => ∃ seg, e.2 = .rx seg ∧ seg.fin = true ∧ seg.rst = false ∧
      seq = seg.seq + seg.payloadlen ∧
      (v.state = .finWait1 → s.state = .finWait1 ∧ seg.ack = true ∧
        validated cfg e.1 seg s = true ∧ (v.fault = none → AckDone s seg v))
  | .restart => (∃ seg, e.2 = .rx seg ∧ seg.ack = false) ∨ ∃ room, e.2 = .controlPass room
  | .finAcked | .closingAcked | .lastAcked => ∃ seg, e.2 = .rx seg ∧ seg.rst = false ∧
      seg.ack = true ∧ seg.ackSeq = v.fss + 1 ∧ validated cfg e.1 seg s = true ∧
      s.state = v.state ∧ (v.fault = none → AckDone s seg v)
  | .retransmit => e.2 = .rtm ∧ rtoExpired e.1 s = true ∧ v.state = s.state ∧ SameSend v (conn s)
  | .emitFin _ => (∃ room, e.2 = .controlPass room) ∧ v.state = s.state ∧ SameSend v (conn s) ∧
      (s.state = .closing ∨ s.sndvar.onAckList = false) ∧ s.sndvar.onControlList = true
  | .beginClose => (e.2 = .dequeue .closeq ∨ e.2 = .dequeue .closeqInt) ∧
      v.sendq = s.sndvar.onSendq
  | .put _ _ => (∃ bytes, e.2 = .write bytes) ∧ v.closesInt = s.occ .closeqInt
  | .closeCall | .closeMark => e.2 = .close
  | _ => True

abbrev Steps (cfg : Config) (s : TcpStream) (e : Env × Action) : Conn → Conn → Prop :=
  Reaches (Move.guard cfg) Move.apply (Cause cfg s e)

variable {cfg : Config} {s : TcpStream} {e : Env × Action}

theorem crash_steps (v : Conn) (f : Fault) (hf : f.sendAssert = false) :
    Steps cfg s e v (v.crash f) :=
  Reaches.single (.crash (v.crash f)) ⟨rfl, f, hf, rfl⟩ trivial rfl

theorem crash_to {v w : Conn} (hal : w.alive = v.alive)
    (h : ∃ f, f.sendAssert = false ∧ w.fault = v.fault.or (some f)) : Steps cfg s e v w :=
  Reaches.single (.crash w) ⟨hal, h⟩ trivial rfl

theorem Steps.fault_eq_none {v w : Conn} (h : Steps cfg s e v w) (hw : w.fault = none) :
    v.fault = none := by
  induction h with
  | refl => exact hw
  | tail _ hm ih =>
    obtain ⟨m, hg, _, rfl⟩ := hm
    exact ih (Move.fault_of_apply hg hw)

theorem AckDone.congr {seg : Segment} {v w : Conn} (h : AckDone s seg w) (hs : SameSend v w) :
    AckDone s seg v := by
  unfold AckDone at h ⊢
  cases hbuf : s.sndvar.sndbuf with
  | none =>
    rw [hbuf] at h
    exact hs.trans h
  | some buf =>
    rw [hbuf] at h
    dsimp only at h ⊢
    split_ifs at h ⊢ with hgt
    · exact hs.trans h
    · obtain ⟨fast, h, hfast⟩ := h
      exact ⟨fast, hs.trans h, hfast⟩

/-- Between two faults only one that is no check of a flush can have been added. -/
def Faulted (a b : Option Fault) : Prop :=
  b = a ∨ ∃ f : Fault, f.sendAssert = false ∧ b = a.or (some f)

theorem Faulted.refl (a : Option Fault) : Faulted a a := .inl rfl

theorem Faulted.trans {a b c : Option Fault} (h : Faulted a b) (h' : Faulted b c) :
    Faulted a c := by
  rcases h with rfl | ⟨f, hf, rfl⟩
  · exact h'
  · rcases h' with rfl | ⟨g, _, rfl⟩
    · exact .inr ⟨f, hf, rfl⟩
    · refine .inr ⟨f, hf, ?_⟩
      cases a <;> rfl

theorem refault_steps (v : Conn) {fault : Option Fault} (hf : Faulted v.fault fault) :
    Steps cfg s e v { v with fault := fault } := by
  rcases hf with rfl | hf
  · exact .refl v
  · exact crash_to rfl hf

theorem Conn.crash_fault (v : Conn) (f : Fault) : (v.crash f).fault ≠ none := by
  cases h : v.fault <;> simp [Conn.crash, h]

theorem shut_steps (v : Conn) (r : TcpCloseReason) (hr : r ≠ .notClosed) :
    Steps cfg s e v { v with state := .closed, reason := r } :=
  Reaches.single (.shut r) hr trivial rfl

theorem blame_steps (v : Conn) (r : TcpCloseReason) (hr : r ≠ .notClosed) (hreset : r ≠ .reset) :
    Steps cfg s e v { v with reason := r } :=
  Reaches.single (.blame r) hr hreset rfl

theorem destroyTCPStream_steps (t : TcpStream) :
    Steps cfg s e (conn t) (conn (destroyTCPStream cfg t)) := by
  rw [conn_destroyTCPStream]
  have hd : Steps cfg s e (conn t) (conn t).destroyed := Reaches.single .destroy trivial trivial rfl
  split
  · exact hd
  · exact hd.trans (crash_steps _ _ rfl)

end Mtcp
