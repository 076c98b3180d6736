import Mtcp.Refine.Input

namespace Mtcp

open Serial SendBuffer RingBuffer Bytes Runs Options

variable {cfg : Config} {s : TcpStream} {e : Env × Action}

/-! After our own close. -/

variable (env : Env) (seg : Segment) (t : TcpStream)

theorem addtoTimewaitList_state : (addtoTimewaitList cfg env t).state = t.state :=
  congrArg Conn.state (conn_addtoTimewaitList cfg env t)

theorem timewait_steps (hst : t.state = .timeWait) :
    Steps cfg s e (conn t) (conn (addtoTimewaitList cfg env t)) := by
  rw [conn_addtoTimewaitList]
  refine .single (.timewait t.onTimewaitList) hst trivial ?_
  change _ = { conn t with timewait := true, rto := (conn t).rto && (conn t).timewait }
  rw [Bool.and_comm]

theorem ackOfFin_steps (hst : t.state = .finWait1)
    (hc : seg.ackSeq = t.sndvar.fss + 1 → FinAckCause cfg s e (conn t)) : ackOfFin seg t = t ∨
      (ackOfFin seg t).state = .finWait2 ∧ Steps cfg s e (conn t) (conn (ackOfFin seg t)) := by
  unfold ackOfFin
  split
  · next h =>
    obtain ⟨hfin, hseq⟩ := h
    refine .inr ⟨rfl, ?_⟩
    have hw : conn { removeFromRTOList { t with
        sndvar.sndUna := seg.ackSeq, sndvar.nrtx := 0
        sndNxt := if gt seg.ackSeq t.sndNxt then seg.ackSeq else t.sndNxt } with
        state := .finWait2 } = Move.apply (conn t) .finAcked := by
      change { conn (removeFromRTOList _) with state := .finWait2 } = _
      rw [conn_removeFromRTOList, hseq]
      rfl
    exact .single .finAcked ⟨hst, hfin⟩ (hc hseq) hw
  · exact .inl rfl

theorem finAfterClose_steps (he : e.2 = .rx seg) (hrst : seg.rst = false)
    (hst : t.state = .finWait1 ∨ t.state = .finWait2 ∨ t.state = .closed)
    (hfw : t.state = .finWait1 → s.state = .finWait1 ∧ seg.ack ∧ validated cfg e.1 seg s ∧
      (t.fault = none → AckDone s seg (conn t))) :
    Steps cfg s e (conn t) (conn (finAfterClose cfg env seg t)) := by
  unfold finAfterClose
  split
  · next h =>
    obtain ⟨hfin, hseq⟩ := h
    rcases hst with hst | hst | hst
    · have hmove : Steps cfg s e (conn t) (Move.apply (conn t)
          (.peerFin (seg.seq + seg.payloadlen) .closing)) :=
        Reaches.single (.peerFin (seg.seq + seg.payloadlen) .closing) ⟨hseq, .inr (.inl ⟨hst, rfl⟩)⟩
          ⟨seg, he, hfin, hrst, rfl, fun _ => hfw hst⟩ rfl
      simp only [TcpStream.log, hst]
      exact hmove.trans
        (control_steps { t.log (.consumeFin (seg.seq + seg.payloadlen) t.received) with
        rcvNxt := t.rcvNxt + 1, state := .closing } (by simp))
    · have hmove : Steps cfg s e (conn t) _ :=
        peerFin_steps .timeWait he hrst hfin hseq (.inr (.inl ⟨hst, rfl⟩))
      simp only [TcpStream.log, hst]
      have htw : Steps cfg s e _ _ := timewait_steps env
        { t.log (.consumeFin (seg.seq + seg.payloadlen) t.received) with
          rcvNxt := t.rcvNxt + 1, state := .timeWait } rfl
      refine hmove.trans (htw.trans (control_steps _ ?_))
      rw [addtoTimewaitList_state]
      simp
    · have hmove : Steps cfg s e (conn t) _ :=
        peerFin_steps .closed he hrst hfin hseq (.inr (.inr ⟨hst, rfl⟩))
      simp only [TcpStream.log, hst]
      exact hmove.trans
        (control_steps { t.log (.consumeFin (seg.seq + seg.payloadlen) t.received) with
        rcvNxt := t.rcvNxt + 1, state := .closed } (by simp))
  · exact .refl _

theorem handleFinWait1_steps (hst : t.state = .finWait1) (hs : s.state = .finWait1)
    (h : AckReady cfg s e seg t) :
    Steps cfg s e (conn t) (conn (handleFinWait1 cfg env seg t)) := by
  unfold handleFinWait1
  split
  · exact control_steps t (by simp [hst])
  · split
    · next hack =>
      have ho := handleAck_outcome env seg t h
      generalize handleAck env seg t = u at ho ⊢
      have hus : u.state = .finWait1 := (congrArg Conn.state ho.frame).trans hst
      have hfin : ∃ w, ackOfFin seg u = w ∧ Steps cfg s e (conn u) (conn w) ∧
          (w.state = .finWait1 ∧ w = u ∨ w.state = .finWait2) := by
        have hcases : ackOfFin seg u = u ∨ (ackOfFin seg u).state = .finWait2 ∧
            Steps cfg s e (conn u) (conn (ackOfFin seg u)) :=
          ackOfFin_steps seg u hus (ho.finAck h (hs.trans hst.symm) hack)
        rcases hcases with heq | ⟨hfw2, hsteps⟩
        · exact ⟨u, heq, Reaches.refl _, .inl ⟨hus, rfl⟩⟩
        · exact ⟨_, rfl, hsteps, .inr hfw2⟩
      obtain ⟨w, hw, hwsteps, hws⟩ := hfin
      rw [hw]
      have hlate : w.state ≠ .established := by rcases hws with ⟨h1, _⟩ | h1 <;> simp [h1]
      have hp : PayloadOutcome cfg s e w _ := handlePayload_outcome env seg w h.event h.rst
        (by rcases hws with ⟨h1, _⟩ | h1 <;> simp [h1]) fun hest => absurd hest hlate
      generalize handlePayload cfg env seg w = p at hp ⊢
      refine (ho.plainSteps (hs.trans hst.symm)).trans (hwsteps.trans ?_)
      rcases hp.result with ⟨hrecv, hsteps⟩ | hmem
      · have hps : p.state = w.state := congrArg Conn.state hrecv
        refine hsteps.trans (finAfterClose_steps env seg p h.event h.rst ?_ fun hp1 => ?_)
        · rcases hws with ⟨h1, _⟩ | h1 <;> simp [hps, h1]
        · refine ⟨hs, hack, h.valid, fun hnone => ?_⟩
          rcases hws with ⟨_, rfl⟩ | h1
          · exact (ho.done (hsteps.fault_eq_none hnone)).congr hrecv.sameSend
          · rw [hps, h1] at hp1
            cases hp1
      · have hps : p.state = .closed := congrArg Conn.state hmem
        have hshut : Steps cfg s e (conn w) (conn p) := by
          rw [hmem]
          exact shut_steps _ .noMem (by decide)
        refine hshut.trans (finAfterClose_steps env seg p h.event h.rst (.inr (.inr hps)) ?_)
        intro hp1
        rw [hps] at hp1
        cases hp1
    · exact .refl _

theorem handleFinWait2_steps (hst : t.state = .finWait2) (hs : s.state = t.state)
    (h : AckReady cfg s e seg t) :
    Steps cfg s e (conn t) (conn (handleFinWait2 cfg env seg t)) := by
  unfold handleFinWait2
  split
  · have ho := handleAck_outcome env seg t h
    generalize handleAck env seg t = u at ho ⊢
    have hus : u.state = .finWait2 := (congrArg Conn.state ho.frame).trans hst
    refine (ho.plainSteps hs).trans ?_
    have hp : PayloadOutcome cfg s e u _ :=
      handlePayload_outcome env seg u h.event h.rst (.inr (.inr hus)) fun hest =>
        absurd (hus.symm.trans hest) (by decide)
    generalize handlePayload cfg env seg u = p at hp ⊢
    dsimp only
    have htail : ∀ w, w.state = .timeWait → Steps cfg s e (conn w)
        (conn (addtoControlList (addtoTimewaitList cfg env w))) := by
      intro w hw
      refine (timewait_steps env w hw).trans (control_steps _ ?_)
      rw [addtoTimewaitList_state, hw]
      decide
    rcases hp.result with ⟨hrecv, hsteps⟩ | hmem
    · have hps : p.state = .finWait2 := (congrArg Conn.state hrecv).trans hus
      refine hsteps.trans ?_
      split
      · next hfin =>
        have hmove : Steps cfg s e (conn p) _ :=
          peerFin_steps .timeWait h.event h.rst hfin.1 hfin.2 (.inr (.inl ⟨hps, rfl⟩))
        exact hmove.trans (htail { p.log (.consumeFin (seg.seq + seg.payloadlen) p.received) with
          state := .timeWait, rcvNxt := p.rcvNxt + 1 } rfl)
      · exact .refl _
    · split
      · next hfin =>
        have hrcv : p.rcvNxt = u.rcvNxt := congrArg Conn.rcvNxt hmem
        have hmove : Steps cfg s e (conn u) _ := peerFin_steps .timeWait h.event h.rst hfin.1
          (hfin.2.trans hrcv) (.inr (.inl ⟨hus, rfl⟩))
        refine hmove.trans ((blame_steps _ .noMem (by decide) (by decide)).trans ?_)
        refine Reaches.trans (Reaches.of_eq ?_) (htail
          { p.log (.consumeFin (seg.seq + seg.payloadlen) p.received) with
            state := .timeWait, rcvNxt := p.rcvNxt + 1 } rfl)
        change { conn p with
          state := .timeWait
          rcvNxt := p.rcvNxt + 1
          log := .consumeFin (seg.seq + seg.payloadlen) (conn p).received :: (conn p).log } = _
        rw [hmem, hrcv]
        rfl
      · rw [hmem]
        exact shut_steps _ .noMem (by decide)
  · exact .refl _

theorem handleClosing_steps (hst : t.state = .closing) (hs : s.state = t.state)
    (h : AckReady cfg s e seg t) : Steps cfg s e (conn t) (conn (handleClosing cfg env seg t)) := by
  unfold handleClosing
  split
  · next hack =>
    have ho := handleAck_outcome env seg t h
    generalize handleAck env seg t = u at ho ⊢
    have hus : u.state = .closing := (congrArg Conn.state ho.frame).trans hst
    refine (ho.plainSteps hs).trans ?_
    dsimp only
    split
    · exact .refl _
    · next hfin =>
      split
      · exact .refl _
      · next hseq =>
        have hsent : u.sndvar.isFinSent := by simpa using hfin
        have hcause := ho.finAck h hs hack (not_not.mp hseq)
        rw [not_not.mp hseq]
        obtain ⟨fault, hf, hc⟩ := conn_restartTimer env { u with
          sndvar.sndUna := u.sndvar.fss + 1, sndNxt := u.sndvar.fss + 1 }
        generalize updateRetransmissionTimer env _ = w at hc ⊢
        have hmove : Steps cfg s e (conn u) (Move.apply (conn u) .closingAcked) :=
          Reaches.single .closingAcked ⟨hus, hsent⟩ hcause rfl
        have hw : conn { w with state := .timeWait } =
            { Move.apply (conn u) .closingAcked with fault := fault } := by
          change { conn w with state := .timeWait } = _
          rw [hc]
          have hself : gt (u.sndvar.fss + 1) (u.sndvar.fss + 1) = false :=
            (not_gt_iff _ _).mpr (.inl (fwd_self _))
          rw [hself]
          rfl
        refine hmove.trans ((refault_steps _ hf).trans ?_)
        rw [← hw]
        exact timewait_steps env { w with state := .timeWait } rfl
  · exact .refl _

theorem handleTimeWait_steps (hst : t.state = .timeWait) :
    Steps cfg s e (conn t) (conn (handleTimeWait cfg env t)) := by
  unfold handleTimeWait
  split
  · next htw =>
    have hoff := conn_removeFromTimewaitList t htw
    generalize removeFromTimewaitList t = u at hoff ⊢
    have hus : u.state = .timeWait := (congrArg Conn.state hoff).trans hst
    have hon : Steps cfg s e (conn t) (conn (addtoTimewaitList cfg env u)) := by
      refine .single (.timewait false) hst trivial ?_
      rw [conn_addtoTimewaitList, hoff]
      simp [Move.apply]
    refine hon.trans (control_steps _ ?_)
    rw [addtoTimewaitList_state, hus]
    decide
  · exact control_steps t (by simp [hst])

/-! The handshake. -/

theorem handleListen_steps (hst : t.state = .listen ∨ t.state = .synRcvd) :
    Steps cfg s e (conn t) (conn (handleListen seg t)) := by
  unfold handleListen
  split
  · rcases hst with hst | hst
    · rw [if_pos hst]
      have hmove : Steps cfg s e (conn t) (Move.apply (conn t) (.listen seg.seq)) :=
        Reaches.single (.listen seg.seq) hst trivial rfl
      exact hmove.trans
        (control_steps { { t with rcvNxt := t.rcvNxt + 1 }.log (.peerSyn seg.seq) with
        state := .synRcvd } (by simp))
    · rw [if_neg (by simp [hst])]
      refine Reaches.trans (Reaches.of_eq ?_) (control_steps { t with state := .synRcvd } (by simp))
      rw [← hst]
  · exact .refl _

theorem timeout_steps : Steps cfg s e (conn t)
    (conn (if 0 < cfg.tcpTimeout then addtoTimeoutList t else t)) := by
  split
  · rw [conn_addtoTimeoutList]
    split
    · exact crash_steps _ _ rfl
    · exact .refl _
  · exact .refl _

theorem conn_handleActiveOpen :
    ∃ fault rto, Faulted t.fault fault ∧ conn (handleActiveOpen env seg t) = { conn t with
      irs := seg.seq
      sndNxt := seg.ackSeq
      rcvNxt := seg.seq + 1
      fault := fault
      rto := rto } := by
  unfold handleActiveOpen
  have hparse := conn_parseTCPOptions env seg { t with
    rcvvar.irs := seg.seq, rcvvar.sndWl1 := seg.seq - 1, rcvvar.lastAckSeq := seg.ackSeq
    sndNxt := seg.ackSeq
    sndvar.peerWnd := seg.window.toUInt32
    rcvNxt := seg.seq + 1 }
  generalize parseTCPOptions env seg _ = u at hparse ⊢
  obtain ⟨fault, hf, hc⟩ := conn_restartTimer env { u with
    sndvar.cwnd := openingCwnd u.sndvar
    sndvar.ssthresh := u.sndvar.mss.toUInt32 * 10 }
  refine ⟨fault, gt u.sndNxt u.sndvar.sndUna && !u.onTimewaitList, ?_, ?_⟩
  · refine Faulted.trans ?_ hf
    rcases hparse with h | h
    · exact .inl (congrArg Conn.fault h)
    · exact .inr ⟨.optionLoop, rfl, congrArg Conn.fault h⟩
  · rw [hc]
    change { conn u with
      fault := fault, rto := gt u.sndNxt u.sndvar.sndUna && !u.onTimewaitList } = _
    generalize (gt u.sndNxt u.sndvar.sndUna && !u.onTimewaitList) = rto
    rcases hparse with h | h
    · rw [h]
      rfl
    · rw [h]
      rfl

theorem completeActiveOpen_steps
    (hmove : ∀ w, w = Move.apply (conn t) (.synAck seg.seq seg.ackSeq) → Steps cfg s e (conn t) w) :
    Steps cfg s e (conn t) (conn (completeActiveOpen cfg env seg
      { t with sndvar.sndUna := t.sndvar.sndUna + 1 })) := by
  unfold completeActiveOpen
  obtain ⟨fault, rto, hf, hc⟩ := conn_handleActiveOpen env seg (TcpStream.log
    { t with sndvar.sndUna := t.sndvar.sndUna + 1 } (.peerSyn seg.seq))
  generalize handleActiveOpen env seg _ = u at hc ⊢
  dsimp only
  have hirs : u.rcvvar.irs = seg.seq := congrArg Conn.irs hc
  generalize hw : TcpStream.establish (removeFromRTOList { u with
    sndvar.nrtx := 0, rcvNxt := u.rcvvar.irs + 1 }) = w
  have hwc : conn w = { Move.apply (conn t) (.synAck seg.seq seg.ackSeq) with fault := fault } := by
    have hrm := conn_removeFromRTOList { u with
      sndvar.nrtx := 0, rcvNxt := u.rcvvar.irs + 1 }
    generalize removeFromRTOList _ = x at hrm hw
    rw [← hw]
    change { conn x with
      state := .established, log := .establish (conn x).snapshot :: (conn x).log } = _
    rw [hrm]
    change (fun v : Conn => { v with
      rto := false
      rcvNxt := u.rcvvar.irs + 1
      state := .established
      log := .establish ({ v with rcvNxt := u.rcvvar.irs + 1 } : Conn).snapshot :: v.log })
        (conn u) = _
    rw [hirs, hc]
    rfl
  have hsteps : Steps cfg s e (conn t) (conn w) := by
    rw [hwc]
    exact (hmove _ rfl).trans (refault_steps _ hf)
  have hws : w.state = .established := congrArg Conn.state hwc
  split
  · refine hsteps.trans (Reaches.trans ?_ (timeout_steps _))
    rw [← conn_raiseEvent .write w]
    exact control_steps _ (by simp [raiseEvent, TcpStream.log, hws])
  · have hblame := hsteps.trans (blame_steps _ .activeClose (by decide) (by decide))
    exact hblame.trans (Reaches.trans (Reaches.of_eq rfl) (destroyTCPStream_steps
      { sendTCPPacketStandalone env 0 (seg.seq + seg.payloadlen + 1) true w with
        closeReason := .activeClose }))

theorem raiseErrorOrDestroy_steps : Steps cfg s e (conn t) (conn (raiseErrorOrDestroy cfg t)) := by
  unfold raiseErrorOrDestroy
  split
  · exact .refl _
  · exact destroyTCPStream_steps t

theorem handleSynSent_steps (he : e.2 = .rx seg) (hal : t.onHashTable)
    (hst : t.state = .synSent) (hs : conn t = conn s) :
    Steps cfg s e (conn t) (conn (handleSynSent cfg env seg t)) := by
  have hss : s.state = .synSent := (congrArg Conn.state hs).symm.trans hst
  have hunacc : unacceptableAck seg t = unacceptableAck seg s := by
    unfold unacceptableAck
    rw [show t.sndvar.iss = s.sndvar.iss from congrArg Conn.iss hs,
      show t.sndNxt = s.sndNxt from congrArg Conn.sndNxt hs]
  have hacc : unacceptableAck seg t = false → Move.Acceptable (conn t) seg.ackSeq := by
    intro h
    unfold unacceptableAck at h
    simpa [Move.Acceptable, conn] using h
  unfold handleSynSent
  split
  · split
    · exact .refl _
    · exact .refl _
  · next hok =>
    cases hack : seg.ack with
    | true =>
      have hno : unacceptableAck seg t = false := by simpa [hack] using hok
      simp only [if_true]
      split_ifs with hrst hsyn
      · have hmove : Steps cfg s e (conn t) (Move.apply (conn t) .refused) :=
          Reaches.single .refused ⟨hst, _, hacc hno⟩ ⟨seg, he, hss, hack, hrst, hunacc ▸ hno⟩ rfl
        exact hmove.trans (raiseErrorOrDestroy_steps { t with
          sndvar.sndUna := t.sndvar.sndUna + 1
          state := .closeWait, closeReason := .reset })
      · refine completeActiveOpen_steps env seg t ?_
        rintro w rfl
        exact .single (.synAck seg.seq seg.ackSeq) ⟨hal, hst, hacc hno⟩
          ⟨seg, he, hss, hsyn, hack, eq_false_of_ne_true hrst, rfl, rfl, hunacc ▸ hno⟩ rfl
      · exact .single .bareAck ⟨hst, _, hacc hno⟩ ⟨seg, he, hss, hack, eq_false_of_ne_true hsyn,
            eq_false_of_ne_true hrst, hunacc ▸ hno⟩ rfl
    | false =>
      simp only [Bool.false_eq_true, if_false]
      split_ifs with hrst hsyn
      · exact .refl _
      · have hmove : Steps cfg s e (conn t) (Move.apply (conn t) (.loneSyn seg.seq)) :=
          Reaches.single (.loneSyn seg.seq) hst
            ⟨seg, he, hss, hsyn, hack, eq_false_of_ne_true hrst, rfl⟩ rfl
        exact hmove.trans (control_steps
          ({ t with state := .synRcvd, sndNxt := t.sndvar.iss }.log (.peerSyn seg.seq))
          (by simp [TcpStream.log]))
      · exact .refl _

theorem offerToListener_steps : Steps cfg s e (conn t) (conn (offerToListener cfg env t)) ∧
      SameSend (conn (offerToListener cfg env t)) (conn t) := by
  unfold offerToListener
  split
  · exact ⟨crash_steps _ _ rfl, rfl, rfl, rfl, rfl, rfl, rfl, rfl, rfl, rfl⟩
  · next room _ =>
    have hsame : ∀ u,
        SameSend (conn (if 0 < cfg.tcpTimeout then addtoTimeoutList u else u)) (conn u) := by
      intro u
      split
      · rw [conn_addtoTimeoutList]
        split
        · exact ⟨rfl, rfl, rfl, rfl, rfl, rfl, rfl, rfl, rfl⟩
        · exact .refl _
      · exact .refl _
    have hoffer : Steps cfg s e (conn t) (conn (if room then t.link .acceptq
        else addtoControlList { t with closeReason := .notAccepted, state := .closed })) ∧
        SameSend (conn (if room then t.link .acceptq
          else addtoControlList { t with closeReason := .notAccepted, state := .closed }))
          (conn t) := by
      split
      · rw [conn_link _ _ (by decide)]
        exact ⟨Reaches.refl _, .refl _⟩
      · refine ⟨(shut_steps (conn t) .notAccepted (by decide)).trans (control_steps
          { t with closeReason := .notAccepted, state := .closed } (by simp)), ?_⟩
        rw [conn_addtoControlList]
        exact ⟨rfl, rfl, rfl, rfl, rfl, rfl, rfl, rfl, rfl⟩
    rw [conn_raiseEvent]
    exact ⟨hoffer.1.trans (timeout_steps _), (hsame _).trans hoffer.2⟩

theorem handleSynRcvd_buffers : (handleSynRcvd cfg env seg t).rcvvar.rcvbuf = t.rcvvar.rcvbuf ∧
      (handleSynRcvd cfg env seg t).sndvar.sndbuf = t.sndvar.sndbuf := by
  have hoffer : ∀ u, (offerToListener cfg env u).rcvvar.rcvbuf = u.rcvvar.rcvbuf ∧
      (offerToListener cfg env u).sndvar.sndbuf = u.sndvar.sndbuf := by
    intro u
    unfold offerToListener addtoTimeoutList addtoControlList
    split
    · exact ⟨rfl, rfl⟩
    · dsimp only
      split_ifs <;> exact ⟨rfl, rfl⟩
  unfold handleSynRcvd
  split
  · split
    · exact ⟨rfl, rfl⟩
    · exact ⟨(hoffer _).1.trans (congrArg Conn.rcvbuf (conn_removeFromRTOList _)),
        (hoffer _).2.trans (congrArg Conn.sndbuf (conn_removeFromRTOList _))⟩
  · exact ⟨congrArg Conn.rcvbuf (conn_addtoControlList _),
      congrArg Conn.sndbuf (conn_addtoControlList _)⟩

/-- A stream that leaves SYN_RCVD for ESTABLISHED has `snd_nxt` at the acknowledgement. -/
theorem handleSynRcvd_steps (he : e.2 = .rx seg) (hal : t.onHashTable)
    (hst : t.state = .synRcvd) (hs : conn t = conn s) :
    Steps cfg s e (conn t) (conn (handleSynRcvd cfg env seg t)) ∧
      (handleSynRcvd cfg env seg t).sndvar.sndbuf = t.sndvar.sndbuf ∧
      ((handleSynRcvd cfg env seg t).state = .established →
        (handleSynRcvd cfg env seg t).sndNxt = seg.ackSeq) := by
  have hss : s.state = .synRcvd := (congrArg Conn.state hs).symm.trans hst
  unfold handleSynRcvd
  split
  · next hack =>
    split
    · refine ⟨Reaches.refl _, rfl, fun h => ?_⟩
      rw [hst] at h
      cases h
    · next hseq =>
      have hiss := not_not.mp hseq
      dsimp only
      generalize hw : TcpStream.establish (removeFromRTOList { t with
        sndvar.sndUna := t.sndvar.sndUna + 1, sndvar.cwnd := openingCwnd t.sndvar, sndvar.nrtx := 0
        sndNxt := seg.ackSeq
        rcvNxt := t.rcvvar.irs + 1 }) = w
      have hwc : conn w = Move.apply (conn t) .ackOfSyn := by
        have hrm := conn_removeFromRTOList { t with
          sndvar.sndUna := t.sndvar.sndUna + 1
          sndvar.cwnd := openingCwnd t.sndvar, sndvar.nrtx := 0
          sndNxt := seg.ackSeq
          rcvNxt := t.rcvvar.irs + 1 }
        generalize removeFromRTOList _ = x at hrm hw
        rw [← hw]
        change { conn x with
          state := .established, log := .establish (conn x).snapshot :: (conn x).log } = _
        rw [hrm, hiss]
        rfl
      have hmove : Steps cfg s e (conn t) (conn w) := by
        refine .single .ackOfSyn ⟨hal, hst⟩ ?_ hwc
        refine ⟨seg, he, hss, hack, ?_, hs ▸ .refl _⟩
        rw [hiss]
        exact congrArg (· + 1) (congrArg Conn.iss hs)
      have hwb : w.sndvar.sndbuf = t.sndvar.sndbuf := congrArg Conn.sndbuf hwc
      have hwn : w.sndNxt = seg.ackSeq := (congrArg Conn.sndNxt hwc).trans hiss.symm
      obtain ⟨hsteps, hsame⟩ : Steps cfg s e _ _ ∧ _ := offerToListener_steps env w
      exact ⟨hmove.trans hsteps, hsame.sndbuf.trans hwb, fun _ => hsame.sndNxt.trans hwn⟩
  · next hack =>
    have hmove : Steps cfg s e (conn t) (Move.apply (conn t) .restart) :=
      Reaches.single .restart hst (.inl ⟨seg, he, eq_false_of_ne_true hack⟩) rfl
    have hctl := conn_addtoControlList { t with sndNxt := t.sndvar.iss }
    refine ⟨hmove.trans (control_steps { t with sndNxt := t.sndvar.iss } (by simp [hst])),
      congrArg Conn.sndbuf hctl, fun h => ?_⟩
    rw [show (addtoControlList { t with sndNxt := t.sndvar.iss }).state = t.state from
      congrArg Conn.state hctl, hst] at h
    cases h

/-! `ProcessTCPPacket`. -/

theorem processRST_steps (he : e.2 = .rx seg) (hrst : seg.rst)
    (hval : validated cfg e.1 seg s) (hst : .synSent < t.state) (hs : conn t = conn s) :
    Steps cfg s e (conn t) (conn (processRST cfg seg t)) := by
  have hshut : ∀ r, r ≠ .notClosed → Steps cfg s e (conn t)
      (conn (destroyTCPStream cfg { t with state := .closed, closeReason := r })) := by
    intro r hr
    exact (shut_steps (conn t) r hr).trans
      (destroyTCPStream_steps { t with state := .closed, closeReason := r })
  have hreset : t.state = .established ∨ t.state = .closeWait → Steps cfg s e (conn t)
      (conn (if t.sndvar.onCloseq || t.sndvar.onCloseqInt || t.sndvar.onResetq ||
          t.sndvar.onResetqInt then t
        else raiseEvent .close { t with state := .closeWait, closeReason := .reset })) := by
    intro h
    split
    · exact .refl _
    · refine .single .reset h ⟨seg, he, hrst, hval, ?_⟩ rfl
      rw [← show t.state = s.state from congrArg Conn.state hs]
      exact h
  unfold processRST
  cases h : t.state with
  | synRcvd =>
    dsimp only
    split
    · exact hshut .reset (by decide)
    · exact .refl _
  | finWait1 | finWait2 | lastAck | closing | timeWait => exact hshut .activeClose (by decide)
  | established => exact hreset (.inl h)
  | closeWait => exact hreset (.inr h)
  | closed | listen | synSent =>
    rw [h] at hst
    exact absurd hst (by decide)

theorem checkTimestamp_steps : Steps cfg s e (conn t) (conn (checkTimestamp env seg t).2) := by
  unfold checkTimestamp
  split
  · split
    · exact crash_steps _ _ rfl
    · exact .refl _
    · split
      · rw [conn_enqueueACK]
        exact .refl _
      · exact .refl _
  · exact .refl _

theorem answerUnexpected_steps (hst : .synRcvd < t.state) :
    Steps cfg s e (conn t) (conn (answerUnexpected cfg env seg t)) := by
  unfold answerUnexpected
  have hsyn : t.state ≠ .synSent := by
    intro h
    rw [h] at hst
    exact absurd hst (by decide)
  split_ifs with hrst hest h1 h2 htw
  · exact .refl _
  · rw [conn_enqueueACK]
    exact .refl _
  · rw [conn_enqueueACK]
    exact .refl _
  · rw [conn_enqueueACK]
    exact .refl _
  · refine (timewait_steps env t htw).trans (control_steps _ ?_)
    rw [addtoTimewaitList_state]
    exact hsyn
  · exact control_steps t hsyn

def restamped (upd recent echo : UInt32) (s : TcpStream) : TcpStream :=
  { s with rcvvar.tsLastTsUpd := upd, rcvvar.tsRecent := recent, rcvvar.tsLastackRcvd := echo }

theorem checkTimestamp_restamps (hok : (checkTimestamp env seg t).1) :
    ∃ upd recent echo, (checkTimestamp env seg t).2 = restamped upd recent echo t := by
  revert hok
  unfold checkTimestamp
  split
  · split
    · simp
    · simp
    · split
      · simp
      · exact fun _ => ⟨_, _, _, rfl⟩
  · exact fun _ => ⟨_, _, _, rfl⟩

theorem validateSequence_steps (hst : .synRcvd < t.state) :
    Steps cfg s e (conn t) (conn (validateSequence cfg env seg t).2) := by
  have hts : Steps cfg s e _ _ := checkTimestamp_steps env seg t
  have htrue := checkTimestamp_restamps env seg t
  unfold validateSequence
  generalize checkTimestamp env seg t = r at hts htrue ⊢
  obtain ⟨ok, u⟩ := r
  cases ok with
  | false => exact hts
  | true =>
    obtain ⟨upd, recent, echo, rfl : u = _⟩ := htrue rfl
    dsimp only
    split
    · exact hts
    · exact hts.trans (answerUnexpected_steps env seg _ hst)

theorem validateSequence_true (hok : (validateSequence cfg env seg t).1) :
    ∃ upd recent echo, (validateSequence cfg env seg t).2 = restamped upd recent echo t := by
  have htrue := checkTimestamp_restamps env seg t
  unfold validateSequence at hok ⊢
  generalize checkTimestamp env seg t = r at hok htrue ⊢
  obtain ⟨ok, u⟩ := r
  cases ok with
  | false => cases hok
  | true =>
    dsimp only at hok ⊢
    split at hok
    · next hin =>
      rw [if_pos hin]
      exact htrue rfl
    · cases hok

/-- A segment is turned away, or it is processed once the timestamps are updated. -/
theorem processTCPPacket_cases (cfg : Config) :
    .synRcvd < t.state ∧ validated cfg env seg t = false ∧
      processTCPPacket cfg env seg t = (validateSequence cfg env seg t).2 ∨
    ∃ upd recent echo, validated cfg env seg t ∧ processTCPPacket cfg env seg t =
      processValidated cfg env seg (restamped upd recent echo t) := by
  have htrue := @validateSequence_true cfg env seg t
  unfold processTCPPacket validated
  by_cases hlate : .synRcvd < t.state
  · rw [if_pos hlate, decide_eq_true hlate]
    generalize validateSequence cfg env seg t = r at htrue ⊢
    obtain ⟨ok, u⟩ := r
    cases ok with
    | false => exact .inl ⟨hlate, rfl, rfl⟩
    | true =>
      obtain ⟨upd, recent, echo, rfl : u = _⟩ := htrue rfl
      exact .inr ⟨upd, recent, echo, rfl, rfl⟩
  · rw [if_neg hlate, decide_eq_false hlate]
    exact .inr ⟨_, _, _, rfl, rfl⟩

theorem dispatch_steps (he : e.2 = .rx seg) (hal : t.onHashTable)
    (hval : validated cfg e.1 seg s) (hs : conn t = conn s) (hd : dupState t = dupState s)
    (hrst : seg.rst → t.state ≤ .synSent) (hshape : (conn s).Shape) :
    Steps cfg s e (conn t) (conn (dispatch cfg env seg t)) := by
  have hstate : t.state = s.state := congrArg Conn.state hs
  have hready : .synRcvd < t.state ∧ t.state ≠ .timeWait → AckReady cfg s e seg t := by
    rintro ⟨hlate, hover⟩
    refine ⟨he, ?_, hval, hstate ▸ hlate, hstate ▸ hover,
      (congrArg Conn.alive hs).symm.trans hal, ?_, hs ▸ .refl _, hd⟩
    · cases h : seg.rst with
      | false => rfl
      | true =>
        have hle := hrst h
        change t.state.code ≤ _ at hle
        change _ < t.state.code at hlate
        simp only [TcpState.code] at hle hlate
        omega
    · unfold effectiveAck
      rw [hstate, show t.sndvar.isFinSent = s.sndvar.isFinSent from congrArg Conn.finSent hs,
        show t.sndvar.fss = s.sndvar.fss from congrArg Conn.fss hs]
  unfold dispatch
  cases hst : t.state with
  | listen => exact handleListen_steps seg t (.inl hst)
  | synSent => exact handleSynSent_steps env seg t he hal hst hs
  | synRcvd =>
    dsimp only
    split
    · exact handleListen_steps seg t (.inr hst)
    · obtain ⟨hsteps, hbuf, hnxt⟩ := handleSynRcvd_steps env seg t he hal hst hs
      have hrcv := (@handleSynRcvd_buffers cfg env seg t).1
      generalize handleSynRcvd cfg env seg t = u at hsteps hbuf hnxt hrcv ⊢
      have hnone : u.sndvar.sndbuf = none := by
        rw [hbuf, show t.sndvar.sndbuf = s.sndvar.sndbuf from congrArg Conn.sndbuf hs]
        refine hshape.sndbuf ?_
        change s.state.early
        rw [← hstate, hst]
        rfl
      split
      · next hest =>
        refine hsteps.trans (handleEstablished_steps env seg u he ?_ hest.2 (fun _ _ => ?_)
          (.inl hnone) fun _ => .inl (hnxt hest.2))
        · cases h : seg.rst with
          | false => rfl
          | true =>
            have hle := hrst h
            rw [hst] at hle
            exact absurd hle (by decide)
        · exact ⟨hrcv.trans (congrArg Conn.rcvbuf hs), .inl (hstate.symm.trans hst)⟩
      · exact hsteps
  | established =>
    have hr := hready (by rw [hst]; decide)
    have hsst := hstate.symm.trans hst
    refine handleEstablished_steps env seg t he hr.rst hst (fun hsyn _ =>
      ⟨congrArg Conn.rcvbuf hs, .inr ⟨hsst, congrArg Conn.rcvNxt hs, hval, hsyn⟩⟩)
      (.inr ⟨hsst, hr⟩) fun hsyn => .inr ?_
    exact ⟨seg, he, hsst, hsyn, hr.rst, rfl, hval, hr.send⟩
  | closeWait =>
    exact handleCloseWait_steps env seg t hst hstate.symm (hready (by rw [hst]; decide))
  | lastAck => exact handleLastAck_steps env seg t hst hstate.symm (hready (by rw [hst]; decide))
  | finWait1 =>
    exact handleFinWait1_steps env seg t hst (hstate.symm.trans hst) (hready (by rw [hst]; decide))
  | finWait2 =>
    exact handleFinWait2_steps env seg t hst hstate.symm (hready (by rw [hst]; decide))
  | closing => exact handleClosing_steps env seg t hst hstate.symm (hready (by rw [hst]; decide))
  | timeWait => exact handleTimeWait_steps env t hst
  | closed => exact .refl _

theorem processValidated_steps (he : e.2 = .rx seg) (hal : t.onHashTable)
    (hval : validated cfg e.1 seg s) (hs : conn t = conn s) (hd : dupState t = dupState s)
    (hshape : (conn s).Shape) : Steps cfg s e (conn t) (conn (processValidated cfg env seg t)) := by
  unfold processValidated
  have hu : conn (updateTimeoutList { t with
      sndvar.peerWnd := segmentWindow seg t
      lastActiveTs := env.curTs }) = conn t := conn_updateTimeoutList _
  have hdu : dupState (updateTimeoutList { t with
      sndvar.peerWnd := segmentWindow seg t
      lastActiveTs := env.curTs }) = dupState t := by
    unfold updateTimeoutList
    split <;> rfl
  generalize updateTimeoutList _ = u at hu hdu ⊢
  have hau : u.onHashTable := (congrArg Conn.alive hu).trans hal
  dsimp only
  rw [← hu]
  split
  · next hrst =>
    split
    · next hlate =>
      exact processRST_steps seg { u with haveReset := true } he hrst hval hlate (hu.trans hs)
    · next hlate =>
      refine dispatch_steps env seg { u with haveReset := true } he hau hval (hu.trans hs)
        (hdu.trans hd) (fun _ => ?_) hshape
      exact Nat.le_of_not_lt hlate
  · next hrst =>
    exact dispatch_steps env seg u he hau hval (hu.trans hs) (hdu.trans hd)
      (fun h => absurd h hrst) hshape

theorem processTCPPacket_steps (he : e = (env, .rx seg)) (hal : s.onHashTable)
    (hshape : (conn s).Shape) : Steps cfg s e (conn s) (conn (processTCPPacket cfg env seg s)) := by
  subst he
  obtain ⟨hlate, -, heq⟩ | ⟨upd, recent, echo, hval, heq⟩ := processTCPPacket_cases env seg s cfg
  · rw [heq]
    exact validateSequence_steps env seg s hlate
  · rw [heq]
    exact processValidated_steps env seg (restamped upd recent echo s) rfl hal hval rfl rfl hshape

end Mtcp
