import Mtcp.Pace
import Mtcp.Ackless

namespace Mtcp

open Serial SendBuffer RingBuffer Options

variable {cfg : Config} {env : Env} {seg : Segment} {s : TcpStream}

/-! Rules for what depends on the pace only. -/

/-- An acknowledgement is processed after the payload, for which there may have been no memory. -/
structure Reads (s u : TcpStream) : Prop where
  pace : SamePace s u
  sndbuf : u.sndvar.sndbuf = s.sndvar.sndbuf
  state : u.state = s.state ∨ s.state = .established ∧ u.state = .closed
  ack : ∀ seg, effectiveAck seg u = effectiveAck seg s

theorem Reads.refl (s : TcpStream) : Reads s s := ⟨.refl s, rfl, .inl rfl, fun _ => rfl⟩

theorem handlePayload_sndbuf (env : Env) (seg : Segment) (s : TcpStream) :
    (handlePayload cfg env seg s).sndvar.sndbuf = s.sndvar.sndbuf :=
  congrArg SendState.sndbuf (handlePayload_sendState env seg s)

theorem pace_arrived (seg : Segment) (s : TcpStream) : SamePace s (arrived env seg s) :=
  (arrive_path env seg s).pace (by decide)

section rules

variable {I : TcpStream → Prop} (hpace : ∀ {u v}, I u → SamePace u v → I v)
  (hset : ∀ {u v : TcpStream}, I u → tuning v = tuning u → v.fault = u.fault →
    .established ≤ v.state → I v)

include hpace

include hset in
theorem handleEstablished_rule (hst : s.state = .established)
    (hack : ∀ u, Reads s u → I u → I (handleAck env seg u)) (h : I s) :
    I (handleEstablished cfg env seg s) := by
  unfold handleEstablished
  split
  · exact hpace h (((addtoControlList_path _).pace (by decide)).after (.of_eq rfl rfl rfl rfl))
  · have hput := hpace h ((handlePayload_path cfg env seg s).pace (by decide))
    have hread : Reads s (handlePayload cfg env seg s) := by
      have hstate : (handlePayload cfg env seg s).state = s.state ∨
          s.state = .established ∧ (handlePayload cfg env seg s).state = .closed := by
        obtain hsame | ⟨hclosed, -⟩ := @handlePayload_state cfg env seg s
        · exact .inl hsame
        · exact .inr ⟨hst, hclosed⟩
      refine ⟨(handlePayload_path cfg env seg s).pace (by decide), handlePayload_sndbuf env seg s,
        hstate, fun seg' => ?_⟩
      obtain hsame | ⟨-, hclosed⟩ := hstate
      · simp [effectiveAck, hsame, hst]
      · simp [effectiveAck, hclosed, hst]
    have hacked : I (if seg.ack then handleAck env seg (handlePayload cfg env seg s)
        else handlePayload cfg env seg s) := by
      split
      · exact hack _ hread hput
      · exact hput
    dsimp only
    generalize (if seg.ack then handleAck env seg (handlePayload cfg env seg s)
      else handlePayload cfg env seg s) = w at hacked ⊢
    split
    · split
      · have hfin : I ({ (w.log (.consumeFin (seg.seq + seg.payloadlen) w.received)) with
            state := .closeWait, rcvNxt := w.rcvNxt + 1 }) :=
          hset hacked rfl rfl (show TcpState.established ≤ .closeWait by decide)
        have hlist := hpace hfin ((addtoControlList_path _).pace (by decide))
        exact hpace hlist (.of_eq rfl rfl rfl rfl)
      · exact hpace hacked ((enqueueACK_path w _).pace (by decide))
    · exact hacked

theorem handleCloseWait_rule (hack : I (handleAck env seg s)) (h : I s) :
    I (handleCloseWait env seg s) := by
  unfold handleCloseWait
  split
  · exact hpace h ((addtoControlList_path s).pace (by decide))
  · exact hack

theorem handleLastAck_rule (hst : s.state = .lastAck) (hack : I (handleAck env seg s)) (h : I s) :
    I (handleLastAck cfg env seg s) := by
  have hstate : (handleAck env seg s).state.handshaking = false := by
    rw [handleAck_state, hst]
    rfl
  unfold handleLastAck
  split
  · exact h
  · split
    · dsimp only
      generalize handleAck env seg s = w at hack hstate ⊢
      split
      · exact hack
      · split
        · have htimer : SamePace w (updateRetransmissionTimer env
              { w with sndvar.sndUna := w.sndvar.sndUna + 1 }) :=
            .after (pace_updateRetransmissionTimer _ (by exact hstate)) (.of_eq rfl rfl rfl rfl)
          generalize updateRetransmissionTimer env
            { w with sndvar.sndUna := w.sndvar.sndUna + 1 } = v at htimer ⊢
          have hshut : SamePace v { v with state := .closed, closeReason := .passiveClose } :=
            .shut rfl rfl rfl
          exact hpace hack
            (((destroyTCPStream_path _ cfg).pace (by decide)).after (hshut.after htimer))
        · exact hpace hack ((addtoControlList_path w).pace (by decide))
    · exact hpace h ((addtoControlList_path s).pace (by decide))

theorem handleFinWait1_rule (hst : s.state = .finWait1) (hack : I (handleAck env seg s)) (h : I s) :
    I (handleFinWait1 cfg env seg s) := by
  have hstate : .established ≤ (handleAck env seg s).state := by
    rw [handleAck_state, hst]
    decide
  unfold handleFinWait1
  split
  · exact hpace h ((addtoControlList_path s).pace (by decide))
  · split
    · generalize handleAck env seg s = w at hack hstate ⊢
      have hfin := (ackOfFin_path seg w hstate).pace (by decide)
      have hput := hpace hack (((handlePayload_path cfg env seg _).pace (by decide)).after hfin)
      exact hpace hput ((finAfterClose_path cfg env seg _).pace (by decide))
    · exact h

include hset in
theorem handleFinWait2_rule (hack : I (handleAck env seg s)) (h : I s) :
    I (handleFinWait2 cfg env seg s) := by
  unfold handleFinWait2
  split
  · have hput := hpace hack ((handlePayload_path cfg env seg _).pace (by decide))
    dsimp only
    generalize handlePayload cfg env seg (handleAck env seg s) = w at hput ⊢
    split
    · have hwait : I { (w.log (.consumeFin (seg.seq + seg.payloadlen) w.received)) with
          state := .timeWait, rcvNxt := w.rcvNxt + 1 } :=
        hset hput rfl rfl (show TcpState.established ≤ .timeWait by decide)
      exact hpace hwait (((addtoControlList_path _).pace (by decide)).after
          ((addtoTimewaitList_path _ cfg env).pace (by decide)))
    · exact hput
  · exact h

include hset in
theorem handleClosing_rule (hst : s.state = .closing) (hack : I (handleAck env seg s)) (h : I s) :
    I (handleClosing cfg env seg s) := by
  have hstate : (handleAck env seg s).state.handshaking = false := by
    rw [handleAck_state, hst]
    rfl
  unfold handleClosing
  split
  · dsimp only
    generalize handleAck env seg s = w at hack hstate ⊢
    split
    · exact hack
    · split
      · exact hack
      · have htimer : SamePace w (updateRetransmissionTimer env { w with
            sndvar.sndUna := seg.ackSeq
            sndNxt := seg.ackSeq }) :=
          .after (pace_updateRetransmissionTimer _ (by exact hstate)) (.of_eq rfl rfl rfl rfl)
        generalize updateRetransmissionTimer env { w with
          sndvar.sndUna := seg.ackSeq
          sndNxt := seg.ackSeq } = v at htimer ⊢
        have hwait : I { v with state := .timeWait } :=
          hset (hpace hack htimer) rfl rfl (show TcpState.established ≤ .timeWait by decide)
        exact hpace hwait ((addtoTimewaitList_path _ cfg env).pace (by decide))
  · exact h

include hset in
theorem dispatch_rule (hst : .established ≤ s.state)
    (hack : ∀ u, Reads s u → I u → I (handleAck env seg u)) (h : I s) :
    I (dispatch cfg env seg s) := by
  have hself : I (handleAck env seg s) := hack s (.refl s) h
  unfold dispatch
  split
  · next hs => exact absurd hst (by rw [hs]; decide)
  · next hs => exact absurd hst (by rw [hs]; decide)
  · next hs => exact absurd hst (by rw [hs]; decide)
  · next hs => exact handleEstablished_rule hpace hset hs hack h
  · exact handleCloseWait_rule hpace hself h
  · next hs => exact handleLastAck_rule hpace hs hself h
  · next hs => exact handleFinWait1_rule hpace hs hself h
  · exact handleFinWait2_rule hpace hset hself h
  · next hs => exact handleClosing_rule hpace hset hs hself h
  · exact hpace h ((handleTimeWait_path cfg env s).pace (by decide))
  · exact h

include hset in
theorem processValidated_rule (hst : .established ≤ s.state)
    (hack : ∀ u, seg.rst = false → Reads (arrived env seg s) u → I u → I (handleAck env seg u))
    (h : I s) : I (processValidated cfg env seg s) := by
  have harr : I (arrived env seg s) := hpace h (pace_arrived seg s)
  have hlate : .established ≤ (arrived env seg s).state := by
    rw [state_of_conn (arrived_conn env seg s)]
    exact hst
  rw [processValidated_arrived]
  generalize arrived env seg s = w at harr hack hlate ⊢
  split
  · rw [if_pos (synSent_lt_of_le hlate)]
    have hmark : SamePace w { w with haveReset := true } := .of_eq rfl rfl rfl rfl
    exact hpace harr
      (((processRST_path cfg seg _ (by exact synSent_lt_of_le hlate)).pace (by decide)).after hmark)
  · next hr =>
    exact dispatch_rule hpace hset hlate (fun u hu => hack u (by simpa using hr) hu) harr

include hset in
theorem packet_rule (hst : .established ≤ s.state) (hstamp : I (checkTimestamp env seg s).2)
    (hack : ∀ u, (checkTimestamp env seg s).1 → (validateSequence cfg env seg s).1 →
      seg.rst = false → Reads (arrived env seg (checkTimestamp env seg s).2) u → I u →
      I (handleAck env seg u)) : I (processTCPPacket cfg env seg s) := by
  have hlate : .synRcvd < s.state := by
    cases hs : s.state <;> first | decide | exact absurd hst (by rw [hs]; decide)
  have hstate : (checkTimestamp env seg s).2.state = s.state :=
    (checkTimestamp_path env seg s).state (by decide)
  unfold processTCPPacket
  rw [if_pos hlate]
  unfold validateSequence at hack ⊢
  generalize checkTimestamp env seg s = r at hstamp hack hstate ⊢
  obtain ⟨ok, w⟩ := r
  cases ok with
  | false => exact hstamp
  | true =>
    dsimp only at hack ⊢
    cases hwin : inWindow seg w with
    | false => exact hpace hstamp ((answerUnexpected_path cfg env seg w).pace (by decide))
    | true =>
      rw [hwin] at hack
      exact processValidated_rule hpace hset (hstate ▸ hst) (fun u => hack u rfl rfl) hstamp

end rules

/-! An acknowledgement. -/

def acksNewData (seg : Segment) (s : TcpStream) : Bool :=
  match s.sndvar.sndbuf with
  | none => false
  | some buf =>
    !gt (effectiveAck seg s) (buf.headSeq + UInt32.ofNat buf.len) &&
      !geq buf.headSeq (effectiveAck seg s)

def ackedPackets (rmlen effMss : UInt32) : UInt32 :=
  (if rmlen < rmlen / effMss * effMss then (rmlen / effMss).toUInt16 + 1
    else (rmlen / effMss).toUInt16).toUInt32

/-- The end of `ProcessACK`, after the congestion window has grown. -/
def takeAcked (env : Env) (buf : TcpSendBuffer) (ackSeq : UInt32) (s : TcpStream) : TcpStream :=
  let removed := (sbRemove buf (ackSeq - buf.headSeq).toNat).2
  let prev := s.sndvar.sndWnd
  let s := { s.log (.release (buf.len - removed.len)) with sndvar := { s.sndvar with
    sndbuf := some removed
    sndUna := ackSeq
    sndWnd := UInt32.ofNat (removed.size - removed.len) } }
  updateRetransmissionTimer env (if prev = 0 then raiseEvent .write s else s)

theorem removeAcked_eq (env : Env) (buf : TcpSendBuffer) (x : UInt32) (s : TcpStream) :
    removeAcked env buf x s = if s.sndvar.effMss = 0 then s.abort .divideByZero
      else takeAcked env buf x (growCwnd
        (ackedPackets (x - buf.headSeq) s.sndvar.effMss.toUInt32) (updateRTO env s)) := rfl

structure Unsampled (s u : TcpStream) : Prop where
  state : u.state = s.state
  mss : u.sndvar.mss = s.sndvar.mss
  effMss : u.sndvar.effMss = s.sndvar.effMss
  echo : u.rcvvar.tsLastackRcvd = s.rcvvar.tsLastackRcvd
  saw : u.sawTimestamp = s.sawTimestamp

theorem Unsampled.trans {s t u : TcpStream} (h : Unsampled s t) (h' : Unsampled t u) :
    Unsampled s u :=
  ⟨h'.state.trans h.state, h'.mss.trans h.mss, h'.effMss.trans h.effMss, h'.echo.trans h.echo,
    h'.saw.trans h.saw⟩

theorem Unsampled.of_pace {s u : TcpStream} (h : SamePace s u) (hstate : u.state = s.state) :
    Unsampled s u :=
  ⟨hstate, congrArg Tuning.mss h.tuning, congrArg Tuning.effMss h.tuning,
    congrArg Tuning.echo h.tuning, congrArg Tuning.saw h.tuning⟩

theorem unsampled_respondDupAcks (dup : Bool) (x : UInt32) (s : TcpStream) :
    Unsampled s (respondDupAcks dup x s) := by
  unfold respondDupAcks
  split
  · refine Unsampled.trans ?_ (.of_pace ((addtoSendList_path _).pace (by decide))
        ((addtoSendList_path _).state (by decide)))
    split
    · exact ⟨rfl, rfl, rfl, rfl, rfl⟩
    · exact ⟨rfl, rfl, rfl, rfl, rfl⟩
  · split_ifs
    · exact ⟨rfl, rfl, rfl, rfl, rfl⟩
    · exact ⟨rfl, rfl, rfl, rfl, rfl⟩
    · exact ⟨rfl, rfl, rfl, rfl, rfl⟩

section ack

variable {I : TcpStream → Prop} (hpace : ∀ {u v}, I u → SamePace u v → I v)
include hpace

theorem noteAck_rule (buf : TcpSendBuffer) (x : UInt32)
    (hdup : ∀ u dup, u.state = s.state → I u → I (respondDupAcks dup x u)) (h : I s) :
    I (noteAck seg buf x s) ∧ Unsampled s (noteAck seg buf x s) := by
  have hwin := (updateWindow_path seg s x).pace (by decide)
  have hstate := (updateWindow_path seg s x).state (by decide)
  unfold noteAck
  dsimp only
  generalize isDuplicate seg x _ _ = dup
  generalize updateWindow seg x s = u at hwin hstate ⊢
  have hcount : SamePace s (countDupAcks dup x u) :=
    ((countDupAcks_path u dup x).pace (by decide)).after hwin
  have hcounted := ((countDupAcks_path u dup x).state (by decide)).trans hstate
  generalize countDupAcks dup x u = v at hcount hcounted ⊢
  have hresp := hdup v dup hcounted (hpace h hcount)
  have hun := (Unsampled.of_pace hcount hcounted).trans (unsampled_respondDupAcks dup x v)
  generalize respondDupAcks dup x v = w at hresp hun ⊢
  have hlast := (recoverAfterLoss_path w buf x).pace (by decide)
  exact ⟨hpace hresp hlast, hun.trans (.of_pace hlast
    ((recoverAfterLoss_path w buf x).state (by decide)))⟩

theorem removeAcked_rule (buf : TcpSendBuffer) (x : UInt32) (hst : s.state.handshaking = false)
    (hzero : s.sndvar.effMss = 0 → I (s.abort .divideByZero))
    (hgrow : s.sndvar.effMss ≠ 0 → I (growCwnd
      (ackedPackets (x - buf.headSeq) s.sndvar.effMss.toUInt32) (updateRTO env s))) :
    I (removeAcked env buf x s) := by
  rw [removeAcked_eq]
  split
  · next h0 => exact hzero h0
  · next h0 =>
    have hgrown := hgrow h0
    have hstate : (growCwnd (ackedPackets (x - buf.headSeq) s.sndvar.effMss.toUInt32)
        (updateRTO env s)).state = s.state :=
      ((growCwnd_path _ _).state (by decide)).trans ((updateRTO_path env s).state (by decide))
    generalize growCwnd _ (updateRTO env s) = u at hgrown hstate ⊢
    rw [← hstate] at hst
    refine hpace hgrown ?_
    unfold takeAcked
    dsimp only
    split
    · exact (pace_updateRetransmissionTimer _ (by exact hst)).after (.of_eq rfl rfl rfl rfl)
    · exact (pace_updateRetransmissionTimer _ (by exact hst)).after (.of_eq rfl rfl rfl rfl)

theorem handleAck_rule (hst : s.state.handshaking = false)
    (hdup : ∀ u dup x, u.state = s.state → I u → I (respondDupAcks dup x u))
    (hzero : ∀ u, Unsampled s u → u.sndvar.effMss = 0 → I u → I (u.abort .divideByZero))
    (hgrow : ∀ u buf, Unsampled s u → s.sndvar.sndbuf = some buf → acksNewData seg s →
      u.sndvar.effMss ≠ 0 → I u →
      I (growCwnd (ackedPackets (effectiveAck seg s - buf.headSeq) u.sndvar.effMss.toUInt32)
        (updateRTO env u))) (h : I s) : I (handleAck env seg s) := by
  unfold handleAck
  split
  · unfold processACK
    split
    · exact hpace h (.abort (by decide) (fun h0 => absurd h0 (by decide)))
    · next buf hbuf =>
      dsimp only
      split
      · exact h
      · next hgt =>
        obtain ⟨hnoted, hun⟩ := @noteAck_rule seg s I hpace buf (effectiveAck seg s)
          (fun u dup hu => hdup u dup _ hu) h
        generalize noteAck seg buf (effectiveAck seg s) s = u at hnoted hun ⊢
        split
        · exact hnoted
        · next hgeq =>
          have hnew : acksNewData seg s := by
            unfold acksNewData
            rw [hbuf]
            simp [hgt, hgeq]
          refine removeAcked_rule hpace buf _ (by rw [hun.state]; exact hst)
            (fun h0 => hzero u hun h0 hnoted) fun h0 => ?_
          exact hgrow u buf hun hbuf hnew h0 hnoted
  · exact h

end ack

/-! The handshake. -/

/-- The pace of a client once it has read the options of the SYN/ACK. -/
def openedTuning (s : TcpStream) : Tuning :=
  { tuning s with cwnd := openingCwnd s.sndvar, ssthresh := s.sndvar.mss.toUInt32 * 10 }

/-- The options have been read; they may be endless, and the timeout zero. -/
structure Opens (s v : TcpStream) : Prop where
  tuning : tuning v = openedTuning s
  fault : ∀ f, v.fault = some f →
    s.fault = some f ∨ f ≠ .divideByZero ∧ (f = .rtoZero → s.sndvar.rto = 0)

theorem handleActiveOpen_opens (s : TcpStream) : ∃ u, tuning u = tuning s ∧ u.fault = s.fault ∧
    Opens (parseTCPOptions env seg u) (handleActiveOpen env seg s) := by
  refine ⟨{ s with
    rcvvar.irs := seg.seq, rcvvar.sndWl1 := seg.seq - 1, rcvvar.lastAckSeq := seg.ackSeq
    sndNxt := seg.ackSeq
    sndvar.peerWnd := seg.window.toUInt32
    rcvNxt := seg.seq + 1 }, rfl, rfl, ?_⟩
  unfold handleActiveOpen
  generalize parseTCPOptions env seg _ = p
  have htimer := @pace_restart env { p with
    sndvar.cwnd := openingCwnd p.sndvar
    sndvar.ssthresh := p.sndvar.mss.toUInt32 * 10 }
  exact ⟨htimer.tuning, htimer.fault⟩

section handshake

variable {I : TcpStream → Prop} (hpace : ∀ {u v}, I u → SamePace u v → I v)
include hpace

theorem completeActiveOpen_rule (hopen : ∀ u v, tuning u = tuning s → u.fault = s.fault →
      Opens (parseTCPOptions env seg u) v → v.state = .established → I v) :
    I (completeActiveOpen cfg env seg s) := by
  obtain ⟨u, htuning, hfault, ha⟩ := @handleActiveOpen_opens env seg (s.log (.peerSyn seg.seq))
  have hopened := fun v => hopen u v htuning hfault
  generalize parseTCPOptions env seg u = p at ha hopened
  unfold completeActiveOpen
  generalize handleActiveOpen env seg _ = a at ha ⊢
  have hoff := (removeFromRTOList_path { a with
    sndvar.nrtx := 0
    rcvNxt := a.rcvvar.irs + 1 }).pace (by decide)
  dsimp only
  generalize removeFromRTOList _ = b at hoff ⊢
  have hrto : a.sndvar.rto = p.sndvar.rto := congrArg Tuning.rto ha.tuning
  have hin : I b.establish := by
    refine hopened _ ⟨hoff.tuning.trans ha.tuning, fun f hf => ?_⟩ rfl
    obtain hf | ⟨hne, hzero⟩ := hoff.fault f hf
    · exact ha.fault f hf
    · exact .inr ⟨hne, fun h0 => hrto.symm.trans (hzero h0)⟩
  generalize b.establish = c at hin ⊢
  split
  · have hlist : SamePace c (addtoControlList (raiseEvent .write c)) :=
      ((addtoControlList_path _).pace (by decide)).after (.of_eq rfl rfl rfl rfl)
    exact hpace hin (.ite (((addtoTimeoutList_path _).pace (by decide)).after hlist) hlist)
  · exact hpace hin
      (((destroyTCPStream_path _ cfg).pace (by decide)).after (.of_eq rfl rfl rfl rfl))

theorem handleSynSent_rule (hst : s.state = .synSent)
    (hreset : seg.ack → ∀ v, tuning v = tuning s → v.fault = s.fault → v.state = .closeWait → I v)
    (hsyn : seg.ack = false → ∀ v, tuning v = tuning s → v.sndvar.nrtx = s.sndvar.nrtx →
      v.fault = s.fault → v.state = .synRcvd → I v)
    (hopen : seg.rst = false → seg.syn → seg.ack → unacceptableAck seg s = false →
      ∀ u v, tuning u = tuning s → u.fault = s.fault → Opens (parseTCPOptions env seg u) v →
        v.state = .established → I v) (h : I s) : I (handleSynSent cfg env seg s) := by
  unfold handleSynSent
  split
  · split
    · exact h
    · exact hpace h (.of_eq rfl rfl rfl rfl)
  · next hun =>
    have hsame : SamePace s (if seg.ack then
        { s with sndvar.sndUna := s.sndvar.sndUna + 1 } else s) :=
      .ite (.of_eq rfl rfl rfl rfl) (.refl s)
    have hfault : (if seg.ack then
        { s with sndvar.sndUna := s.sndvar.sndUna + 1 } else s).fault =
        s.fault := by
      split <;> rfl
    have hstate : (if seg.ack then
        { s with sndvar.sndUna := s.sndvar.sndUna + 1 } else s).state =
        .synSent := by
      split <;> exact hst
    generalize (if seg.ack then
      { s with sndvar.sndUna := s.sndvar.sndUna + 1 } else s) = u
      at hsame hfault hstate ⊢
    split
    · split
      · next hack =>
        have hclosing : I { u with state := .closeWait, closeReason := .reset } :=
          hreset hack _ hsame.tuning hfault rfl
        exact hpace hclosing ((raiseErrorOrDestroy_path cfg _).pace (by decide))
      · exact hpace h hsame
    · next hr =>
      split
      · next hs =>
        split
        · next hack =>
          refine completeActiveOpen_rule hpace fun w v hw hf => ?_
          have hacc : unacceptableAck seg s = false := by simpa [hack] using hun
          exact hopen (by simpa using hr) hs hack hacc w v (hw.trans hsame.tuning) (hf.trans hfault)
        · next hack =>
          have hnrtx := hsame.nrtx (by rw [hstate]; rfl)
          have hboth : I ({ u with state := .synRcvd, sndNxt := u.sndvar.iss }.log
              (.peerSyn seg.seq)) := hsyn (by simpa using hack) _ hsame.tuning hnrtx hfault rfl
          exact hpace hboth ((addtoControlList_path _).pace (by decide))
      · exact hpace h hsame

/-- A server; a stream that has just become ESTABLISHED has no send buffer yet. -/
theorem dispatch_synRcvd_rule
    (hset : ∀ {u v : TcpStream}, I u → tuning v = tuning u → v.fault = u.fault →
      .established ≤ v.state → I v) (hst : s.state = .synRcvd) (hbuf : s.sndvar.sndbuf = none)
    (hopen : ∀ v, tuning v = { tuning s with cwnd := openingCwnd s.sndvar } →
      v.fault = s.fault → v.state = .established → I v) (h : I s) :
    I (dispatch cfg env seg s) := by
  have hreply : I (handleSynRcvd cfg env seg s) := by
    unfold handleSynRcvd
    split
    · split
      · exact h
      · have hoff := (removeFromRTOList_path { s with
          sndvar.sndUna := s.sndvar.sndUna + 1
          sndvar.cwnd := openingCwnd s.sndvar, sndvar.nrtx := 0
          sndNxt := seg.ackSeq
          rcvNxt := s.rcvvar.irs + 1 }).pace (by decide)
        have hfault : (removeFromRTOList { s with
          sndvar.sndUna := s.sndvar.sndUna + 1
          sndvar.cwnd := openingCwnd s.sndvar, sndvar.nrtx := 0
          sndNxt := seg.ackSeq
          rcvNxt := s.rcvvar.irs + 1 }).fault = s.fault :=
          congrArg Conn.fault (conn_removeFromRTOList _)
        generalize removeFromRTOList _ = u at hoff hfault ⊢
        have hin : I u.establish := hopen _ hoff.tuning hfault rfl
        exact hpace hin ((offerToListener_path cfg env _).pace (by decide))
    · exact hpace h (((addtoControlList_path _).pace (by decide)).after (.of_eq rfl rfl rfl rfl))
  have hnone := (@handleSynRcvd_buffers cfg env seg s).2.trans hbuf
  unfold dispatch
  rw [hst]
  dsimp only
  split
  · unfold handleListen
    split
    · rw [if_neg (by rw [hst]; decide)]
      exact hpace h
        (((addtoControlList_path _).pace (by decide)).after (.of_eq rfl rfl hst.symm rfl))
    · exact h
  · generalize handleSynRcvd cfg env seg s = w at hreply hnone ⊢
    split
    · next hest =>
      refine handleEstablished_rule hpace hset hest.2 (fun u hu hin => ?_) hreply
      unfold handleAck
      rw [hu.sndbuf, hnone]
      exact hin
    · exact hreply

theorem processValidated_early (hdisp : ∀ w, SamePace s w → w.state = s.state →
      w.fault = s.fault → w.sndvar.sndbuf = s.sndvar.sndbuf →
      (s.state = .synRcvd → seg.rst = false) → I w → I (dispatch cfg env seg w)) (h : I s) :
    I (processValidated cfg env seg s) := by
  have hsame := @pace_arrived env seg s
  have hconn := arrived_conn env seg s
  have harr : I (arrived env seg s) := hpace h hsame
  have hdisp :=
    fun w hw (hc : conn w = conn s) => hdisp w hw (congrArg Conn.state hc) (congrArg Conn.fault hc)
    (congrArg Conn.sndbuf hc)
  rw [processValidated_arrived]
  generalize arrived env seg s = w at harr hsame hconn ⊢
  have hmark : SamePace w { w with haveReset := true } := .of_eq rfl rfl rfl rfl
  split
  · split
    · next hlow =>
      exact hpace harr (((processRST_path cfg seg _ (by exact hlow)).pace (by decide)).after hmark)
    · next hlow =>
      refine hdisp _ (hmark.after hsame) hconn (fun hs => ?_) (hpace harr hmark)
      rw [show w.state = .synRcvd from (congrArg Conn.state hconn).trans hs] at hlow
      exact absurd (by decide) hlow
  · next hr => exact hdisp w hsame hconn (fun _ => by simpa using hr) harr

end handshake

structure Accepts (s t : TcpStream) : Prop where
  tuning : tuning t = tuning s
  nrtx : t.sndvar.nrtx = s.sndvar.nrtx
  fault : t.fault = s.fault
  state : t.state = .synRcvd

theorem dispatch_listen (hst : s.state = .listen) (hsyn : seg.syn) :
    Accepts s (dispatch cfg env seg s) := by
  have hd : dispatch cfg env seg s = addtoControlList { { s with rcvNxt := s.rcvNxt + 1 }.log
      (.peerSyn seg.seq) with state := .synRcvd } := by
    unfold dispatch handleListen
    rw [hst, hsyn]
    rfl
  rw [hd]
  have hlist := (addtoControlList_path { { s with rcvNxt := s.rcvNxt + 1 }.log
    (.peerSyn seg.seq) with state := .synRcvd }).pace (by decide)
  have hstate := addtoControlList_state { { s with rcvNxt := s.rcvNxt + 1 }.log
    (.peerSyn seg.seq) with state := .synRcvd }
  exact ⟨hlist.tuning, hlist.nrtx (by rw [hstate]; rfl),
    congrArg Conn.fault (conn_addtoControlList _), hstate⟩

theorem createNewFlow_accepts (iss : UInt32) (hsyn : seg.syn) :
    Accepts (handlePassiveOpen cfg env iss seg) (createNewFlow cfg env iss seg) := by
  have hstate : (handlePassiveOpen cfg env iss seg).state = .listen := by
    obtain h | h := conn_parseTCPOptions env seg { createTCPStream cfg iss none with
      rcvvar.irs := seg.seq
      sndvar.peerWnd := seg.window.toUInt32, sndvar.cwnd := 1
      rcvNxt := seg.seq } <;> exact congrArg Conn.state h
  unfold createNewFlow processTCPPacket
  generalize handlePassiveOpen cfg env iss seg = p at hstate ⊢
  rw [if_neg (by rw [hstate]; decide)]
  have harr : (arrived env seg p).state = .listen :=
    (state_of_conn (arrived_conn env seg p)).trans hstate
  have hnrtx : (arrived env seg p).sndvar.nrtx = p.sndvar.nrtx := by
    unfold arrived updateTimeoutList
    split <;> rfl
  have hsame := @pace_arrived env seg p
  have hfault : (arrived env seg p).fault = p.fault := congrArg Conn.fault (arrived_conn env seg p)
  rw [processValidated_arrived]
  generalize arrived env seg p = w at harr hnrtx hsame hfault ⊢
  rw [if_neg (by rw [harr]; decide : ¬ TcpState.synSent < w.state)]
  have hmark := @dispatch_listen cfg env seg { w with haveReset := true } harr hsyn
  have hplain := @dispatch_listen cfg env seg w harr hsyn
  split
  · exact ⟨hmark.tuning.trans hsame.tuning, hmark.nrtx.trans hnrtx, hmark.fault.trans hfault,
      hmark.state⟩
  · exact ⟨hplain.tuning.trans hsame.tuning, hplain.nrtx.trans hnrtx, hplain.fault.trans hfault,
      hplain.state⟩

theorem act_pace (a : Action) (hrx : ∀ seg, a ≠ .rx seg) (hrtm : a ≠ .rtm) :
    SamePace s (act cfg env s a) := by
  cases a with
  | rx seg => exact absurd rfl (hrx seg)
  | rtm => exact absurd rfl hrtm
  | rearrange => exact (rearrangeRTOStore_path env s).pace (by decide)
  | timewait => exact (checkTimewaitExpire_path cfg env s).pace (by decide)
  | timeout => exact .ite ((checkConnectionTimeout_path cfg env s).pace (by decide)) (.refl s)
  | dequeue q => exact (dequeue_path cfg s q).pace (by decide)
  | controlPass room =>
    exact .ite (((writeTCPControl_path env _ cfg).pace (by decide)).after (.of_eq rfl rfl rfl rfl))
      (.refl s)
  | dataPass room =>
    exact .ite (((writeTCPData_path env _).pace (by decide)).after (.of_eq rfl rfl rfl rfl))
      (.refl s)
  | ackPass room =>
    exact .ite (((writeTCPACK_path env _).pace (by decide)).after (.of_eq rfl rfl rfl rfl))
      (.refl s)
  | accept sock => exact .ite ((mtcpAccept_path s sock).pace (by decide)) (.refl s)
  | write bytes => exact .ite ((mtcpWrite_path cfg env s bytes).pace (by decide)) (.refl s)
  | recv nonblock peek len =>
    exact .ite ((mtcpRecv_path s nonblock peek len).pace (by decide)) (.refl s)
  | close => exact .ite ((mtcpClose_path s).pace (by decide)) (.refl s)
  | abort => exact .ite ((mtcpAbort_path s).pace (by decide)) (.refl s)

end Mtcp
