import Mtcp.Changes

namespace Mtcp

open Serial SendBuffer RingBuffer Options

/-! The changes each function makes, in the order of the source files. -/

/-! `tcp_out.c`, `timer.c` and `tcp_stream.c`: the lists. -/

section lists

variable (s : TcpStream)

theorem addtoControlList_path : Path [.on .control] s (addtoControlList s) := by
  unfold addtoControlList
  split
  · exact .refl s
  · next h => exact .of_step (.onControl (eq_false_of_ne_true h)) (by decide)

theorem removeFromControlList_path : Path [.off .control] s (removeFromControlList s) := by
  unfold removeFromControlList
  split
  · exact .of_step .offControl (by decide)
  · exact .refl s

theorem addtoSendList_path : Path [.fault, .on .send] s (addtoSendList s) := by
  unfold addtoSendList
  split
  · exact .of_step (.fault _ nofun nofun) (by decide)
  · split
    · exact .refl s
    · next h => exact .of_step (.onSend (eq_false_of_ne_true h)) (by decide)

theorem removeFromSendList_path : Path [.off .send] s (removeFromSendList s) := by
  unfold removeFromSendList
  split
  · exact .of_step .offSend (by decide)
  · exact .refl s

theorem addtoACKList_path : Path [.on .ack] s (addtoACKList s) := by
  unfold addtoACKList
  split
  · exact .refl s
  · next h => exact .of_step (.onAck (eq_false_of_ne_true h)) (by decide)

theorem removeFromACKList_path : Path [.off .ack] s (removeFromACKList s) := by
  unfold removeFromACKList
  split
  · exact .of_step .offAck (by decide)
  · exact .refl s

theorem enqueueACK_path (opt : AckOpt) : Path [.acks, .on .ack] s (enqueueACK s opt) := by
  cases opt with
  | now | wack => exact .next (addtoACKList_path _) (.of_step (.acks _ _) (by decide)) (by decide)
  | aggregate =>
    exact .next (addtoACKList_path _)
      (.ite (.of_step (.acks _ _) (by decide)) (.refl s)) (by decide)

theorem addtoRTOList_path (env : Env) : Path [.on .rto] s (addtoRTOList env s) := by
  unfold addtoRTOList
  split
  · next h =>
    split
    · exact .refl s
    · exact .of_step (.onRto _ h (rtoSlot_nonneg env _)) (by decide)
  · exact .refl s

theorem removeFromRTOList_path : Path [.off .rto] s (removeFromRTOList s) := by
  unfold removeFromRTOList
  split
  · exact .refl s
  · exact .of_step .offRto (by decide)

theorem stopTimer_path : Path [.off .rto] s (if s.onRtoIdx ≥ 0 then removeFromRTOList s else s) :=
  .ite (removeFromRTOList_path s) (.refl s)

def timewaitKinds : List Change := [.clock, .off .rto, .on .timewait, .again .timewait]

theorem addtoTimewaitList_path (cfg : Config) (env : Env) :
    Path timewaitKinds s (addtoTimewaitList cfg env s) := by
  have hgo : ∀ u, Path timewaitKinds u (if u.onTimewaitList then
      (u.unlink .timewait).link .timewait else
      { (if u.onRtoIdx ≥ 0 then removeFromRTOList u else u) with
        onTimewaitList := true }.link .timewait) := by
    intro u
    split
    · next hon => exact .of_step (.againTimewait hon) (by decide)
    · next hoff =>
      have hstop := stopTimer_path u
      have hflag : (if u.onRtoIdx ≥ 0 then removeFromRTOList u else u).onTimewaitList = false := by
        rw [hstop.view (·.onTimewaitList) fun hk hstep => by
          cases hstep <;> first | rfl | exact absurd hk (by decide)]
        exact eq_false_of_ne_true hoff
      exact .step (.onTimewait hflag) (hstop.mono (by decide)) (by decide)
  exact .after (hgo _) (.of_step (.clock _ _ _) (by decide))

theorem removeFromTimewaitList_path :
    Path [.fault, .off .timewait] s (removeFromTimewaitList s) := by
  unfold removeFromTimewaitList
  split
  · exact .of_step .offTimewait (by decide)
  · exact .of_step (.fault _ nofun nofun) (by decide)

theorem addtoTimeoutList_path : Path [.fault, .on .timeout] s (addtoTimeoutList s) := by
  unfold addtoTimeoutList
  split
  · exact .of_step (.fault _ nofun nofun) (by decide)
  · next h => exact .of_step (.onTimeout (eq_false_of_ne_true h)) (by decide)

theorem removeFromTimeoutList_path : Path [.off .timeout] s (removeFromTimeoutList s) := by
  unfold removeFromTimeoutList
  split
  · exact .of_step .offTimeout (by decide)
  · exact .refl s

theorem updateTimeoutList_path : Path [.again .timeout] s (updateTimeoutList s) := by
  unfold updateTimeoutList
  split
  · next h => exact .of_step (.againTimeout h) (by decide)
  · exact .refl s

def restartKinds : List Change := [.rtoZero, .nrtx, .off .rto, .deadline, .on .rto]

theorem updateRetransmissionTimer_path (env : Env) :
    Path restartKinds s (updateRetransmissionTimer env s) := by
  have hzero : Path restartKinds s (if s.sndvar.rto = 0 then s.abort .rtoZero else s) := by
    split
    · next h => exact .of_step (.rtoZero h) (by decide)
    · exact .refl s
  have hnrtx : ∀ u, Path restartKinds u
      { u with sndvar.nrtx := 0 } := fun _ => .of_step (.nrtx 0) (by decide)
  have hdeadline : ∀ u, Path restartKinds u { u with sndvar.tsRto := env.curTs + u.sndvar.rto } :=
    fun _ => .of_step (.deadline _) (by decide)
  have hoff := Path.next (stopTimer_path _) ((hnrtx _).after hzero) (by decide)
  exact .ite (.next (addtoRTOList_path _ env) ((hdeadline _).after hoff) (by decide)) hoff

theorem raiseEvent_path (ev : StreamEvent) : Path [.raise] s (raiseEvent ev s) :=
  .of_step (.raise ev) (by decide)

def destroyKinds : List Change :=
  [.off .control, .off .send, .off .ack, .off .rto, .off .timewait, .off .timeout, .fault, .destroy]

theorem destroyTCPStream_path (cfg : Config) : Path destroyKinds s (destroyTCPStream cfg s) := by
  have hhash : ∀ u, Path destroyKinds u (if u.onHashTable then u else u.abort .notOnHashTable) :=
    fun u => .ite (.refl u) (.of_step (.fault _ nofun nofun) (by decide))
  have hfree : ∀ u, Path destroyKinds u ({ u with
      sndvar.sndbuf := none
      rcvvar.rcvbuf := none
      onHashTable := false }.log .destroy) := fun _ => .of_step .destroy (by decide)
  have htimewait : ∀ u, Path destroyKinds u
      (if u.onTimewaitList then removeFromTimewaitList u else u) :=
    fun u => .ite ((removeFromTimewaitList_path u).mono (by decide)) (.refl u)
  have htimeout : ∀ u, Path destroyKinds u
      (if cfg.tcpTimeout > 0 then removeFromTimeoutList u else u) :=
    fun u => .ite ((removeFromTimeoutList_path u).mono (by decide)) (.refl u)
  have hwrites : Path destroyKinds s
      (removeFromACKList (removeFromSendList (removeFromControlList s))) :=
    .next (removeFromACKList_path _) (.next (removeFromSendList_path _)
        ((removeFromControlList_path s).mono (by decide)) (by decide)) (by decide)
  have hlists :=
    (htimeout _).after ((htimewait _).after (.next (stopTimer_path _) hwrites (by decide)))
  exact (hfree _).after ((hhash _).after hlists)

end lists

/-! `tcp_out.c` -/

def sendKinds : List Change :=
  [.sent, .clock, .again .timeout, .emit, .sndNxt, .deadline, .on .rto]

def flushKinds : List Change := .fault :: .acks :: .on .ack :: sendKinds

section output

variable (env : Env) (s : TcpStream)

theorem sendSegment_path (flags : Flags) (payload : List UInt8) (h : payload.length < 65536) :
    Path sendKinds s (sendSegment env s flags payload h) := by
  generalize hseg : buildSegment env s flags payload h = seg
  have hroom : Path sendKinds s { s with txRoom := s.txRoom - 1 } :=
    .of_step (.sent _ _ _) (by decide)
  have hfin : ∀ u, Path sendKinds u (markFin seg u) :=
    fun u => .ite (.of_step (.sent _ _ _) (by decide)) (.refl u)
  have hack : ∀ u, Path sendKinds u (noteAckSent env flags u) := fun u =>
    .ite (.next (updateTimeoutList_path _) (.of_step (.clock _ _ _) (by decide)) (by decide))
      (.refl u)
  have hzero : ∀ u, Path sendKinds u (noteZeroWindow flags u) :=
    fun u => .ite (.of_step (.sent _ _ _) (by decide)) (.refl u)
  have hemit : ∀ u, Path sendKinds u (u.log (.emit seg)) := fun _ => .of_step (.emit _) (by decide)
  have hnxt : ∀ u, Path sendKinds u (advanceSndNxt seg u) :=
    fun _ => .ite (.of_step (.sndNxt _) (by decide)) (.of_step (.sndNxt _) (by decide))
  have harm : ∀ u, Path sendKinds u (armTimer env seg u) := fun u =>
    .ite (.next (addtoRTOList_path _ env) (.of_step (.deadline _) (by decide)) (by decide))
      (.refl u)
  have hnote := (hzero _).after ((hack _).after ((hfin _).after hroom))
  unfold sendSegment
  rw [hseg]
  exact (harm _).after ((hnxt _).after ((hemit _).after hnote))

theorem sendTCPPacket_path (flags : Flags) (payload : List UInt8) :
    Path sendKinds s (sendTCPPacket env s flags payload).2 := by
  obtain ⟨-, heq⟩ | ⟨-, -, hlt, heq⟩ := sendTCPPacket_cases env s flags payload
  · rw [heq]
    exact .refl s
  · rw [heq]
    exact sendSegment_path env s flags payload hlt

theorem probeWindow_path : Path [.acks, .on .ack] s (probeWindow env s) :=
  .ite (enqueueACK_path s .wack) (.refl s)

theorem flushTCPSendingBuffer_path : Path flushKinds s (flushTCPSendingBuffer env s).2 := by
  apply @flushTCPSendingBuffer_rule (Path flushKinds) env
  · exact Path.refl
  · exact fun h h' => h'.after h
  · rintro u f (hf | rfl)
    · exact .of_step (.fault f (by rintro rfl; cases hf) (by rintro rfl; cases hf)) (by decide)
    · exact .of_step (.fault _ nofun nofun) (by decide)
  · exact fun u => (probeWindow_path env u).mono (by decide)
  · exact fun u flags payload h => (sendSegment_path env u flags payload h).mono (by decide)

theorem sendData_path : Path flushKinds s (sendData env s).2 := by
  unfold sendData
  split_ifs
  · exact .refl s
  · exact flushTCPSendingBuffer_path env s
  · exact flushTCPSendingBuffer_path env s
  · exact .refl s

def controlKinds : List Change := destroyKinds ++ sendKinds

theorem sendControlPacket_path (cfg : Config) :
    Path controlKinds s (sendControlPacket cfg env s).2 := by
  have hsend : ∀ u flags, Path controlKinds u (sendTCPPacket env u flags []).2 :=
    fun u flags => (sendTCPPacket_path env u flags []).mono (by decide)
  unfold sendControlPacket
  split
  · exact hsend s _
  · exact (hsend _ _).after (.of_step (.sndNxt _) (by decide))
  iterate 4 exact hsend s _
  iterate 2
    split_ifs
    · exact .refl s
    · exact hsend s _
  · split_ifs <;> exact hsend s _
  · split_ifs
    · exact .refl s
    · have hrst := hsend s { rst := true }
      generalize sendTCPPacket env s { rst := true } [] = r at hrst ⊢
      obtain ⟨ret, w⟩ := r
      dsimp only
      split_ifs
      · exact .next (destroyTCPStream_path w cfg) hrst (by decide)
      · exact hrst
  · exact .refl s

def relisted (r : Int × TcpStream) : TcpStream :=
  if r.1 < 0 then { r.2 with sndvar := { r.2.sndvar with onControlList := true } }.link .control
  else r.2

def controlPassKinds : List Change := .on .control :: controlKinds

theorem writeTCPControl_path (cfg : Config) :
    Path controlPassKinds s (writeTCPControl cfg env s) := by
  have hoff : ∀ u, Path controlPassKinds u
      ({ u with sndvar.onControlList := false }.unlink .control) :=
    fun _ => .of_step .offControl (by decide)
  unfold writeTCPControl
  dsimp only
  split
  · have hsend := sendControlPacket_path env
      ({ s with sndvar.onControlList := false }.unlink .control) cfg
    have hclear : (sendControlPacket cfg env ({ s with
        sndvar.onControlList := false }.unlink .control)).2.sndvar.onControlList = false := by
      refine @Path.keeps _ _ _ (·.sndvar.onControlList = false) hsend (fun hk hstep hu => ?_) rfl
      cases hstep <;> first | exact hu | rfl | exact absurd hk (by decide)
    have hw := Path.after ((hsend.mono (by decide)) : Path controlPassKinds _ _) (hoff s)
    change Path controlPassKinds s (relisted (sendControlPacket cfg env ({ s with
      sndvar.onControlList := false }.unlink .control)))
    generalize sendControlPacket cfg env _ = r at hw hclear ⊢
    exact .ite (.step (.onControl hclear) hw (by decide)) hw
  · next h =>
    have hflag : s.sndvar.onControlList = false := eq_false_of_ne_true h
    have heq : s.unlink .control = { s with sndvar.onControlList := false }.unlink .control := by
      rw [← hflag]
    rw [heq]
    exact hoff s

theorem releaseControl_path (blocked : Bool) :
    Path [.waiting, .on .control] s (releaseControl blocked s) :=
  .ite (.next (addtoControlList_path _) (.of_step (.waiting _) (by decide)) (by decide)) (.refl s)

def dataPassKinds : List Change :=
  .take .send :: .put .send :: .unflag :: .waiting :: .on .control :: flushKinds

/-- During the pass the stream is off the list while its flag still is on. -/
theorem writeTCPData_path : Path dataPassKinds s (writeTCPData env s) := by
  have htake : Path dataPassKinds s (s.unlink .send) := .of_step (.take _) (by decide)
  have hclear : ∀ (u : TcpStream) n, Path dataPassKinds u { u with
      sndvar.onSendList := false, sndvar.ackCnt := n } := by
    intro u n
    have hacks : Path dataPassKinds u { u with sndvar.ackCnt := n } :=
      .of_step (.acks _ _) (by decide)
    exact Path.step .unflag hacks (by decide)
  unfold writeTCPData
  apply Path.ite _ htake
  have hw := Path.next (sendData_path env (s.unlink .send)) htake (by decide)
  generalize sendData env (s.unlink .send) = r at hw ⊢
  obtain ⟨ret, w⟩ := r
  apply Path.ite
  · exact .step (.put _) hw (by decide)
  · exact .next (releaseControl_path _ _) ((hclear w _).after hw) (by decide)

def ackKinds : List Change := .acks :: sendKinds

theorem ackLoop_path (fuel : Nat) : Path ackKinds s (ackLoop env fuel s) := by
  induction fuel generalizing s with
  | zero => exact .refl s
  | succ fuel ih =>
    unfold ackLoop
    have hsend : Path ackKinds s (sendAck env s).2 :=
      (sendTCPPacket_path env s _ _).mono (by decide)
    generalize sendAck env s = r at hsend ⊢
    obtain ⟨ret, w⟩ := r
    dsimp only
    split_ifs
    · exact .refl s
    · exact hsend
    · exact (ih _).after (.step (.acks _ _) hsend (by decide))

theorem sendWack_path : Path ackKinds s (sendWack env s) := by
  apply Path.ite _ (.refl s)
  have hclear : Path ackKinds s { s with sndvar.isWack := false } :=
    .of_step (.acks _ _) (by decide)
  have hsend := Path.next (sendTCPPacket_path env
    { s with sndvar.isWack := false } { ack := true, wack := true } [])
    hclear (by decide)
  generalize sendTCPPacket env _ _ [] = r at hsend ⊢
  obtain ⟨ret, w⟩ := r
  exact .ite (.step (.acks _ _) hsend (by decide)) hsend

def ackPassKinds : List Change := .off .ack :: .waiting :: .on .control :: ackKinds

theorem writeTCPACK_path : Path ackPassKinds s (writeTCPACK env s) := by
  have hoff : ∀ u, Path ackPassKinds u ({ u with sndvar.onAckList := false }.unlink .ack) :=
    fun _ => .of_step .offAck (by decide)
  have hclear : Path ackPassKinds s { s with sndvar.ackCnt := 0, sndvar.isWack := false } :=
        .of_step (.acks _ _) (by decide)
  have hsend : Path ackPassKinds s (sendWack env (ackLoop env s.sndvar.ackCnt.toNat s)) :=
    .next (sendWack_path env _) ((ackLoop_path env s _).mono (by decide)) (by decide)
  unfold writeTCPACK
  split
  · apply Path.after ((releaseControl_path _ _).mono (by decide))
    exact .ite (.ite ((hoff _).after hsend) hsend) ((hoff _).after hclear)
  · next h =>
    have hflag : s.sndvar.onAckList = false := eq_false_of_ne_true h
    have heq : s.unlink .ack = { s with sndvar.onAckList := false }.unlink .ack := by
      rw [← hflag]
    rw [heq]
    exact hoff s

end output

/-! `timer.c` -/

section timers

variable (cfg : Config) (env : Env) (s : TcpStream)

def errorKinds : List Change := .raise :: destroyKinds

theorem raiseErrorOrDestroy_path : Path errorKinds s (raiseErrorOrDestroy cfg s) :=
  .ite ((raiseEvent_path s _).mono (by decide)) ((destroyTCPStream_path s cfg).mono (by decide))

def giveUpKinds : List Change := .shut :: errorKinds

theorem exceedMaxRtx_path : Path giveUpKinds s (exceedMaxRtx cfg s) :=
  .ite (.next (destroyTCPStream_path _ cfg) (.of_step (.shut _) (by decide)) (by decide))
    (.next (raiseErrorOrDestroy_path cfg _) (.of_step (.shut _) (by decide)) (by decide))

def retransmitKinds : List Change :=
  [.sndNxt, .fault, .on .send, .off .control, .waiting, .on .control]

theorem retransmit_path : Path retransmitKinds s (retransmit s) := by
  have hback : Path retransmitKinds s { s with sndNxt := s.sndvar.sndUna } :=
    .of_step (.sndNxt _) (by decide)
  have hwait : ∀ u, Path retransmitKinds u { u with controlListWaiting := true } :=
    fun _ => .of_step (.waiting _) (by decide)
  have hdata : Path retransmitKinds s (if lt s.sndvar.sndUna s.sndvar.fss then
      addtoSendList { removeFromControlList { s with sndNxt := s.sndvar.sndUna } with
        controlListWaiting := true }
      else addtoControlList { s with sndNxt := s.sndvar.sndUna }) := by
    apply Path.ite
    · apply Path.after ((addtoSendList_path _).mono (by decide))
      exact (hwait _).after (.next (removeFromControlList_path _) hback (by decide))
    · exact .next (addtoControlList_path _) hback (by decide)
  unfold retransmit
  dsimp only
  split
  iterate 2 exact .next (addtoSendList_path _) hback (by decide)
  iterate 3 exact hdata
  · exact .next (addtoControlList_path _) hback (by decide)

def retryKinds : List Change := retransmitKinds ++ giveUpKinds

theorem retryOrGiveUp_path : Path retryKinds s (retryOrGiveUp cfg s) := by
  have hretry : Path retryKinds s (retransmit s) := (retransmit_path s).mono (by decide)
  unfold retryOrGiveUp
  split
  · exact .ite (.next (raiseErrorOrDestroy_path cfg _) (.of_step (.shut _) (by decide)) (by decide))
      hretry
  · exact .ite ((destroyTCPStream_path s cfg).mono (by decide)) hretry
  iterate 5 exact hretry
  all_goals exact .of_step (.fault _ nofun nofun) (by decide)

def rtoKinds : List Change := .off .rto :: .rtoZero :: .backOff :: retryKinds

theorem handleRTO_path : Path rtoKinds s (handleRTO cfg s) := by
  have hback : Path rtoKinds s (backOff s) := .of_step .backOff (by decide)
  unfold handleRTO
  split
  · next h => exact .of_step (.rtoZero h) (by decide)
  · exact .ite (.refl s) (.ite ((exceedMaxRtx_path cfg s).mono (by decide))
      (.next (retryOrGiveUp_path cfg _) hback (by decide)))

theorem checkRtmTimeout_path : Path rtoKinds s (checkRtmTimeout cfg env s) :=
  .ite (.after (handleRTO_path cfg _) (.of_step .offRto (by decide))) (.refl s)

theorem rearrangeRTOStore_path : Path [.slot] s (rearrangeRTOStore env s) := by
  unfold rearrangeRTOStore
  dsimp only
  split
  · next h => exact .of_step (.slot _ (by rw [h.1]; decide) (Int.natCast_nonneg _)) (by decide)
  · exact .refl s

theorem checkTimewaitExpire_path : Path giveUpKinds s (checkTimewaitExpire cfg env s) := by
  have hoff : Path giveUpKinds s ({ s with onTimewaitList := false }.unlink .timewait) :=
    .of_step .offTimewait (by decide)
  have hshut := Path.step (.shut .activeClose) hoff (by decide)
  exact .ite (.next (destroyTCPStream_path _ cfg) hshut (by decide)) (.refl s)

theorem checkConnectionTimeout_path : Path giveUpKinds s (checkConnectionTimeout cfg env s) := by
  have hoff : Path giveUpKinds s ({ s with onTimeoutList := false }.unlink .timeout) :=
    .of_step .offTimeout (by decide)
  have hshut := Path.step (.shut .timedout) hoff (by decide)
  exact .ite (.next (raiseErrorOrDestroy_path cfg _) hshut (by decide)) (.refl s)

end timers

/-! `tcp_in.c` -/

section input

variable (cfg : Config) (env : Env) (seg : Segment) (s : TcpStream)

def parseKinds : List Change := [.options, .fault]

theorem parseTCPOptions_path : Path parseKinds s (parseTCPOptions env seg s) := by
  apply parseTCPOptions_rule
  · intro i u hu
    refine Path.after ?_ hu
    unfold parseRound
    dsimp only
    split_ifs
    iterate 3 exact .refl u
    iterate 4 exact .of_step (.options _ _ _ _ _ _ _) (by decide)
    · exact .refl u
  · exact .of_step (.fault _ nofun nofun) (by decide)
  · exact .refl s

def openingKinds : List Change := .opening :: .congestion :: (parseKinds ++ restartKinds)

theorem handleActiveOpen_path : Path openingKinds s (handleActiveOpen env seg s) := by
  have hcwnd : ∀ u, Path openingKinds u { u with
      sndvar.cwnd := openingCwnd u.sndvar
      sndvar.ssthresh := u.sndvar.mss.toUInt32 * 10 } :=
    fun _ => .of_step (.congestion _ _) (by decide)
  apply Path.after ((updateRetransmissionTimer_path _ env).mono (by decide))
  apply (hcwnd _).after
  exact .next (parseTCPOptions_path env seg _)
    (.of_step (.opening _ _ _ _ _ _) (by decide)) (by decide)

def answerKinds : List Change := .acks :: .on .ack :: .on .control :: timewaitKinds

def stampKinds : List Change := [.stamps, .fault, .acks, .on .ack]

theorem checkTimestamp_path : Path stampKinds s (checkTimestamp env seg s).2 := by
  unfold checkTimestamp
  split
  · split
    · exact .of_step (.fault _ nofun nofun) (by decide)
    · exact .refl s
    · split
      · exact (enqueueACK_path s .now).mono (by decide)
      · exact .of_step (.stamps _ _ _) (by decide)
  · exact .refl s

theorem answerUnexpected_path : Path answerKinds s (answerUnexpected cfg env seg s) := by
  have hack : ∀ opt, Path answerKinds s (enqueueACK s opt) :=
    fun opt => (enqueueACK_path s opt).mono (by decide)
  apply Path.ite (.refl s)
  apply Path.ite
  · exact .ite (hack .aggregate) (.ite (hack .aggregate) (hack .now))
  · exact .next (addtoControlList_path _)
      (.ite ((addtoTimewaitList_path s cfg env).mono (by decide)) (.refl s)) (by decide)

def validateKinds : List Change := stampKinds ++ answerKinds

theorem validateSequence_path : Path validateKinds s (validateSequence cfg env seg s).2 := by
  unfold validateSequence
  have hts : Path validateKinds s _ := (checkTimestamp_path env seg s).mono (by decide)
  generalize checkTimestamp env seg s = r at hts ⊢
  obtain ⟨_ | _, w⟩ := r
  · exact hts
  · dsimp only
    split
    · exact hts
    · exact .next (answerUnexpected_path cfg env seg w) hts (by decide)

def rstKinds : List Change := .enter :: .reason :: giveUpKinds

theorem processRST_path (hlow : .synSent < s.state) : Path rstKinds s (processRST cfg seg s) := by
  have hdestroy : ∀ r, Path rstKinds s
      (destroyTCPStream cfg { s with state := .closed, closeReason := r }) :=
    fun r => .next (destroyTCPStream_path _ cfg) (.of_step (.shut r) (by decide)) (by decide)
  have henter : Path rstKinds s { s with state := .closeWait } :=
    .of_step (.enter _ hlow (by decide)) (by decide)
  have hreset : Path rstKinds s { s with state := .closeWait, closeReason := .reset } :=
    Path.step (.reason .reset) henter (by decide)
  unfold processRST
  split
  · exact .ite (hdestroy _) (.refl s)
  iterate 5 exact hdestroy _
  · exact .ite (.refl s) (.next (raiseEvent_path _ _) hreset (by decide))

theorem updateWindow_path (ackSeq : UInt32) :
    Path [.peerWnd, .raise] s (updateWindow seg ackSeq s) := by
  have hset : Path [.peerWnd, .raise] s { s with
      sndvar.peerWnd := segmentWindow seg s
      rcvvar.sndWl1 := seg.seq, rcvvar.sndWl2 := ackSeq } :=
    .of_step (.peerWnd _ _ _) (by decide)
  exact .ite (.ite (.next (raiseEvent_path _ _) hset (by decide)) hset) (.refl s)

theorem countDupAcks_path (dup : Bool) (ackSeq : UInt32) :
    Path [.dupAcks] s (countDupAcks dup ackSeq s) :=
  .ite (.of_step (.dupAcks _ _) (by decide)) (.of_step (.dupAcks _ _) (by decide))

def lossKinds : List Change := [.sndNxt, .fast, .congestion, .fault, .on .send]

theorem respondDupAcks_path (dup : Bool) (ackSeq : UInt32) :
    Path lossKinds s (respondDupAcks dup ackSeq s) := by
  have hcut : ∀ u, Path lossKinds u { u with
      sndvar.ssthresh := halvedSsthresh u.sndvar
      sndvar.cwnd := halvedSsthresh u.sndvar + 3 * u.sndvar.mss.toUInt32
      sndvar.nrtx := if u.sndvar.nrtx < 16 then u.sndvar.nrtx + 1 else u.sndvar.nrtx } :=
    fun _ => .of_step (.fast _ _ _) (by decide)
  have hfast : Path lossKinds s (fastRetransmit ackSeq s) := by
    apply Path.after ((addtoSendList_path _).mono (by decide))
    exact (hcut _).after (.ite (.of_step (.sndNxt _) (by decide)) (.refl s))
  exact .ite hfast (.ite (.ite (.of_step (.congestion _ _) (by decide)) (.refl s)) (.refl s))

theorem recoverAfterLoss_path (buf : TcpSendBuffer) (ackSeq : UInt32) :
    Path [.sndNxt, .off .send] s (recoverAfterLoss buf ackSeq s) :=
  .ite (.ite (.next (removeFromSendList_path _) (.of_step (.sndNxt _) (by decide)) (by decide))
    (.of_step (.sndNxt _) (by decide))) (.refl s)

def noteKinds : List Change := .peerWnd :: .raise :: .dupAcks :: .off .send :: lossKinds

theorem noteAck_path (buf : TcpSendBuffer) (ackSeq : UInt32) :
    Path noteKinds s (noteAck seg buf ackSeq s) := by
  apply Path.after ((recoverAfterLoss_path _ _ _).mono (by decide))
  apply Path.after ((respondDupAcks_path _ _ _).mono (by decide))
  exact .next (countDupAcks_path _ _ _)
    ((updateWindow_path seg s ackSeq).mono (by decide)) (by decide)

theorem updateRTO_path : Path [.rtt, .rtoZero] s (updateRTO env s) := by
  have hset : ∀ mrtt rto, Path [.rtt, .rtoZero] s
      { s with rcvvar := estimateRTT s mrtt, sndvar.rto := rto } :=
    fun _ _ => .of_step (.rtt _ _) (by decide)
  apply Path.ite _ (.refl s)
  dsimp only
  split
  · next h => exact .step (.rtoZero h) (hset _ _) (by decide)
  · exact hset _ _

theorem growCwnd_path (packets : UInt32) : Path [.congestion, .divide] s (growCwnd packets s) := by
  have hgrow : ∀ cwnd, Path [.congestion, .divide] s { s with sndvar.cwnd := cwnd } :=
        fun _ => .of_step (.congestion _ _) (by decide)
  exact .ite (.ite (.ite (hgrow _) (.refl s))
      (.ite (.of_step .divide (by decide)) (.ite (hgrow _) (.refl s))))
    (.refl s)

def removeKinds : List Change :=
  .divide :: .rtt :: .congestion :: .removed :: .raise :: restartKinds

theorem removeAcked_path (buf : TcpSendBuffer) (ackSeq : UInt32) :
    Path removeKinds s (removeAcked env buf ackSeq s) := by
  unfold removeAcked
  dsimp only
  apply Path.ite (.of_step .divide (by decide))
  generalize hw : growCwnd _ (updateRTO env s) = w
  have hgrow : Path removeKinds s w := by
    rw [← hw]
    exact .next (growCwnd_path _ _) ((updateRTO_path env s).mono (by decide)) (by decide)
  generalize (sbRemove buf (ackSeq - buf.headSeq).toNat).2 = removed
  have hset : Path removeKinds s { w.log (.release (buf.len - removed.len)) with
      sndvar := { w.sndvar with
        sndbuf := some removed
        sndUna := ackSeq
        sndWnd := UInt32.ofNat (removed.size - removed.len) } } :=
    .step (.removed _ _ _) hgrow (by decide)
  exact .next (updateRetransmissionTimer_path _ env)
    (.ite (.next (raiseEvent_path _ _) hset (by decide)) hset) (by decide)

def processAckKinds : List Change := noteKinds ++ removeKinds

theorem handleAck_path : Path processAckKinds s (handleAck env seg s) := by
  apply Path.ite _ (.refl s)
  unfold processACK
  cases s.sndvar.sndbuf with
  | none => exact .of_step (.fault _ nofun nofun) (by decide)
  | some buf =>
    have hnote : Path processAckKinds s (noteAck seg buf (effectiveAck seg s) s) :=
      (noteAck_path seg s buf _).mono (by decide)
    exact .ite (.refl s) (.ite hnote (.next (removeAcked_path env _ buf _) hnote (by decide)))

def payloadKinds : List Change := [.fault, .store, .shut, .raise, .acks, .on .ack]

def rebuffered (buf : TcpRingBuffer) (s : TcpStream) : TcpStream :=
  { s with rcvvar.rcvbuf := some buf }

/-- The bytes are stored and thrown away before anything else is updated. -/
theorem discardMerged_putPayload (buf : TcpRingBuffer) : ∃ b t, Path [.fault] s t ∧
    discardMerged (putPayload env seg buf s) = rebuffered b t := by
  have hput : ∃ b t, Path [.fault] s t ∧ putPayload env seg buf s = rebuffered b t := by
    unfold putPayload
    generalize rbPut env.fragAlloc buf seg.payload seg.seq = r
    obtain ⟨res, b⟩ := r
    cases res with
    | ret n => exact ⟨b, s, .refl s, rfl⟩
    | assertFailed => exact ⟨b, _, .of_step (.fault .rbPutAssert nofun nofun) (by decide), rfl⟩
    | outOfBounds => exact ⟨b, _, .of_step (.fault .rcvbufOverrun nofun nofun) (by decide), rfl⟩
  obtain ⟨b, t, hpath, hput⟩ := hput
  rw [hput]
  change ∃ b' t', Path [.fault] s t' ∧ (if t.state = .finWait1 ∨ t.state = .finWait2 then
    rebuffered (rbRemove b b.mergedLen).2.2 (if (rbRemove b b.mergedLen).2.1 then
      (rebuffered b t).abort .rbRemoveAssert else rebuffered b t)
    else rebuffered b t) = rebuffered b' t'
  split
  · generalize rbRemove b b.mergedLen = r
    obtain ⟨n, failed, b'⟩ := r
    cases failed with
    | false => exact ⟨b', t, hpath, rfl⟩
    | true =>
      exact ⟨b', _, .step (.fault .rbRemoveAssert nofun nofun) hpath (by decide), rfl⟩
  · exact ⟨b, t, hpath, rfl⟩

theorem processTCPPayload_path : Path payloadKinds s (processTCPPayload cfg env seg s).2 := by
  unfold processTCPPayload
  split
  · exact .refl s
  · split
    · exact .refl s
    · cases ensureRcvbuf cfg env s with
      | none => exact .next (raiseEvent_path _ _) (.of_step (.shut .noMem) (by decide)) (by decide)
      | some buf =>
        obtain ⟨b, t, hpath, heq⟩ := discardMerged_putPayload env seg s buf
        have hstore : Path payloadKinds t (advanceRcvNxt (rebuffered b t)) :=
          .of_step (.store b) (by decide)
        have hput := hstore.after (hpath.mono (by decide))
        dsimp only
        rw [heq]
        generalize advanceRcvNxt (rebuffered b t) = w at hput ⊢
        split
        · exact hput
        · exact .ite (.next (raiseEvent_path _ _) hput (by decide)) hput

theorem handlePayload_path : Path payloadKinds s (handlePayload cfg env seg s) := by
  apply Path.ite _ (.refl s)
  have hput := processTCPPayload_path cfg env seg s
  generalize processTCPPayload cfg env seg s = r at hput ⊢
  obtain ⟨ret, w⟩ := r
  exact .ite (.next (enqueueACK_path w _) hput (by decide))
    (.next (enqueueACK_path w _) hput (by decide))

def listenKinds : List Change := [.rcvNxt, .note, .synRcvd, .on .control]

theorem handleListen_path : Path listenKinds s (handleListen seg s) := by
  have hsyn : ∀ u, Path listenKinds u { u with state := .synRcvd } :=
    fun _ => .of_step .synRcvd (by decide)
  have hnext : Path listenKinds s { s with rcvNxt := s.rcvNxt + 1 } :=
    .of_step (.rcvNxt _) (by decide)
  have hnote := Path.step (.note (.peerSyn seg.seq) rfl) hnext (by decide)
  exact .ite (.next (addtoControlList_path _) ((hsyn _).after (.ite hnote (.refl s))) (by decide))
    (.refl s)

def synSentKinds : List Change :=
  .note :: .rcvNxt :: .sndUna :: .sndNxt :: .synRcvd :: .refuse :: .reason :: .establish ::
    .on .control :: .on .timeout :: (openingKinds ++ errorKinds)

theorem completeActiveOpen_path : Path synSentKinds s (completeActiveOpen cfg env seg s) := by
  have hsyn : Path synSentKinds s (s.log (.peerSyn seg.seq)) := .of_step (.note _ rfl) (by decide)
  have hnrtx : ∀ u, Path synSentKinds u
      { u with sndvar.nrtx := 0, rcvNxt := u.rcvvar.irs + 1 } := by
    intro u
    have hzero : Path synSentKinds u { u with sndvar.nrtx := 0 } := .of_step (.nrtx _) (by decide)
    exact Path.step (.rcvNxt _) hzero (by decide)
  have hest : ∀ u, Path synSentKinds u u.establish := fun _ => .of_step .establish (by decide)
  have hopen := (hest _).after (Path.next (removeFromRTOList_path _)
    ((hnrtx _).after (Path.next (handleActiveOpen_path env seg _) hsyn (by decide))) (by decide))
  unfold completeActiveOpen
  dsimp only
  generalize (removeFromRTOList _).establish = w at hopen ⊢
  apply Path.ite
  · have hcontrol : Path synSentKinds s (addtoControlList (raiseEvent .write w)) :=
      .next (addtoControlList_path _) (.next (raiseEvent_path _ _) hopen (by decide)) (by decide)
    exact .ite (.next (addtoTimeoutList_path _) hcontrol (by decide)) hcontrol
  · have hrst : Path synSentKinds s
        (sendTCPPacketStandalone env 0 (seg.seq + seg.payloadlen + 1) true w) :=
      .step (.note _ rfl) hopen (by decide)
    have hreason := Path.step (.reason .activeClose) hrst (by decide)
    exact .next (destroyTCPStream_path _ cfg) hreason (by decide)

theorem handleSynSent_path : Path synSentKinds s (handleSynSent cfg env seg s) := by
  apply Path.ite
  · exact .ite (.refl s) (.of_step (.note _ rfl) (by decide))
  · have hack : Path synSentKinds s (if seg.ack then
        { s with sndvar.sndUna := s.sndvar.sndUna + 1 } else s) :=
      .ite (.of_step (.sndUna _) (by decide)) (.refl s)
    generalize (if seg.ack then
      { s with sndvar.sndUna := s.sndvar.sndUna + 1 } else s) = w at hack ⊢
    apply Path.ite
    · apply Path.ite _ hack
      have hrefuse := Path.step .refuse hack (by decide)
      exact .next (raiseErrorOrDestroy_path cfg _) hrefuse (by decide)
    · refine .ite (.ite ?_ ?_) hack
      · exact (completeActiveOpen_path cfg env seg w).after hack
      · have hsyn := Path.step .synRcvd hack (by decide)
        have hback := Path.step (.sndNxt w.sndvar.iss) hsyn (by decide)
        exact .next (addtoControlList_path _)
          (.step (.note (.peerSyn seg.seq) rfl) hback (by decide)) (by decide)

def offerKinds : List Change :=
  [.fault, .put .acceptq, .shut, .on .control, .on .timeout, .raise]

theorem offerToListener_path : Path offerKinds s (offerToListener cfg env s) := by
  unfold offerToListener
  cases env.listener with
  | none => exact .of_step (.fault _ nofun nofun) (by decide)
  | some room =>
    have hshut : Path offerKinds s { s with closeReason := .notAccepted, state := .closed } :=
      .of_step (.shut _) (by decide)
    have hoffer : Path offerKinds s (if room then s.link .acceptq
        else addtoControlList { s with closeReason := .notAccepted, state := .closed }) :=
      .ite (.of_step (.put _) (by decide)) (.next (addtoControlList_path _) hshut (by decide))
    exact .next (raiseEvent_path _ _)
      (.ite (.next (addtoTimeoutList_path _) hoffer (by decide)) hoffer) (by decide)

def synRcvdKinds : List Change := .opened :: .off .rto :: .establish :: .sndNxt :: offerKinds

theorem handleSynRcvd_path : Path synRcvdKinds s (handleSynRcvd cfg env seg s) := by
  have hest : ∀ u, Path synRcvdKinds u u.establish := fun _ => .of_step .establish (by decide)
  have hset : Path synRcvdKinds s { s with
      sndvar.sndUna := s.sndvar.sndUna + 1, sndvar.cwnd := openingCwnd s.sndvar, sndvar.nrtx := 0
      sndNxt := seg.ackSeq
      rcvNxt := s.rcvvar.irs + 1 } := .of_step (.opened _ _ _ _) (by decide)
  apply Path.ite
  · apply Path.ite (.refl s)
    exact .next (offerToListener_path cfg env _)
      ((hest _).after (.next (removeFromRTOList_path _) hset (by decide))) (by decide)
  · exact .next (addtoControlList_path _) (.of_step (.sndNxt _) (by decide)) (by decide)

theorem handlePayload_or_closed : (handlePayload cfg env seg s).state = s.state ∨
    (handlePayload cfg env seg s).state = .closed := by
  refine @Path.rule _ _ _ (fun u v => v.state = u.state ∨ v.state = .closed)
    (handlePayload_path cfg env seg s) (fun _ => .inl rfl) ?_ ?_
  · rintro u v w (huv | huv) (hvw | hvw)
    · exact .inl (hvw.trans huv)
    · exact .inr hvw
    · exact .inr (hvw.trans huv)
    · exact .inr hvw
  · intro k u v hk hstep
    cases hstep <;> first | exact .inl rfl | exact .inr rfl | exact absurd hk (by decide)

theorem enter_path {ks : List Change} {st : TcpState} {t : TcpStream} (h : .established ≤ st)
    (hst : .synSent < t.state ∨ t.state = .closed) (henter : .enter ∈ ks)
    (hrevive : .revive ∈ ks) : Path ks t { t with state := st } := by
  obtain hlow | hclosed := hst
  · exact .of_step (.enter st hlow h) henter
  · exact .of_step (.revive st hclosed h) hrevive

def establishedKinds : List Change :=
  .sndNxt :: .rcvNxt :: .note :: .enter :: .revive :: .on .control :: .raise ::
    (payloadKinds ++ processAckKinds)

theorem handleEstablished_path (hst : s.state = .established) :
    Path establishedKinds s (handleEstablished cfg env seg s) := by
  apply Path.ite
  · exact .next (addtoControlList_path _) (.of_step (.sndNxt _) (by decide)) (by decide)
  · have hput : Path establishedKinds s (handlePayload cfg env seg s) :=
      (handlePayload_path cfg env seg s).mono (by decide)
    have hstate : .synSent < (handlePayload cfg env seg s).state ∨
        (handlePayload cfg env seg s).state = .closed := by
      obtain h | h := handlePayload_or_closed cfg env seg s
      · rw [h, hst]
        exact .inl (by decide)
      · exact .inr h
    dsimp only
    generalize handlePayload cfg env seg s = u at hput hstate ⊢
    have hack : Path establishedKinds s (if seg.ack then handleAck env seg u else u) :=
      .ite (.next (handleAck_path env seg u) hput (by decide)) hput
    have hstate' : .synSent < (if seg.ack then handleAck env seg u else u).state ∨
        (if seg.ack then handleAck env seg u else u).state = .closed := by
      split
      · rw [(handleAck_path env seg u).state (by decide)]
        exact hstate
      · exact hstate
    generalize (if seg.ack then handleAck env seg u else u) = w at hack hstate' ⊢
    refine .ite (.ite ?_ (.next (enqueueACK_path w _) hack (by decide))) hack
    have hnote : Path establishedKinds w
        (w.log (.consumeFin (seg.seq + seg.payloadlen) w.received)) :=
          .of_step (.note _ rfl) (by decide)
    have henter : Path establishedKinds w
        { w.log (.consumeFin (seg.seq + seg.payloadlen) w.received) with state := .closeWait } :=
      .after (enter_path (by decide) hstate' (by decide) (by decide)) hnote
    have hnext := Path.step (.rcvNxt (w.rcvNxt + 1)) (henter.after hack) (by decide)
    exact .next (raiseEvent_path _ _)
      (.next (addtoControlList_path _) hnext (by decide)) (by decide)

theorem handleCloseWait_path :
    Path (.on .control :: processAckKinds) s (handleCloseWait env seg s) :=
  .ite ((addtoControlList_path s).mono (by decide)) ((handleAck_path env seg s).mono (by decide))

def lastAckKinds : List Change := .on .control :: .sndUna :: (processAckKinds ++ giveUpKinds)

theorem handleLastAck_path : Path lastAckKinds s (handleLastAck cfg env seg s) := by
  unfold handleLastAck
  have hack : Path lastAckKinds s (handleAck env seg s) :=
    (handleAck_path env seg s).mono (by decide)
  have hcontrol : ∀ u, Path lastAckKinds u (addtoControlList u) :=
    fun u => (addtoControlList_path u).mono (by decide)
  generalize handleAck env seg s = w at hack ⊢
  refine .ite (.refl s) (.ite (.ite hack (.ite ?_ ((hcontrol w).after hack))) (hcontrol s))
  have huna := Path.step (.sndUna (w.sndvar.sndUna + 1)) hack (by decide)
  have htimer := Path.next (updateRetransmissionTimer_path _ env) huna (by decide)
  have hshut := Path.step (.shut .passiveClose) htimer (by decide)
  exact .next (destroyTCPStream_path _ cfg) hshut (by decide)

theorem ackOfFin_path (hst : .established ≤ s.state) :
    Path [.finAcked, .off .rto, .enter] s (ackOfFin seg s) := by
  apply Path.ite _ (.refl s)
  have hset : Path [.finAcked, .off .rto, .enter] s { s with
      sndvar.sndUna := seg.ackSeq, sndvar.nrtx := 0
      sndNxt := if gt seg.ackSeq s.sndNxt then seg.ackSeq else s.sndNxt } :=
    .of_step (.finAcked _ _ hst) (by decide)
  have hoff := Path.next (removeFromRTOList_path _) hset (by decide)
  refine Path.step (.enter .finWait2 ?_ (by decide)) hoff (by decide)
  rw [(removeFromRTOList_path _).state (by decide)]
  exact synSent_lt_of_le hst

def finKinds : List Change := .note :: .rcvNxt :: .enter :: .on .control :: timewaitKinds

theorem finAfterClose_path : Path finKinds s (finAfterClose cfg env seg s) := by
  apply Path.ite _ (.refl s)
  apply Path.after ((addtoControlList_path _).mono (by decide))
  have hnote : Path finKinds s (s.log (.consumeFin (seg.seq + seg.payloadlen) s.received)) :=
    .of_step (.note _ rfl) (by decide)
  have hnext := Path.step (.rcvNxt (s.rcvNxt + 1)) hnote (by decide)
  split
  · next hst => exact .step (.enter _ (by rw [hst]; decide) (by decide)) hnext (by decide)
  · next hst =>
    have henter := Path.step (.enter .timeWait (by rw [hst]; decide) (by decide)) hnext (by decide)
    exact .next (addtoTimewaitList_path _ cfg env) henter (by decide)
  · exact hnext

def closingKinds : List Change :=
  .finAcked :: .sndUna :: .off .rto :: .revive :: (finKinds ++ payloadKinds ++ processAckKinds)

theorem handleFinWait1_path (hst : s.state = .finWait1) :
    Path closingKinds s (handleFinWait1 cfg env seg s) := by
  refine .ite ((addtoControlList_path s).mono (by decide)) (.ite ?_ (.refl s))
  apply Path.after ((finAfterClose_path cfg env seg _).mono (by decide))
  apply Path.after ((handlePayload_path cfg env seg _).mono (by decide))
  refine Path.next (ackOfFin_path seg _ ?_)
    ((handleAck_path env seg s).mono (by decide)) (by decide)
  rw [(handleAck_path env seg s).state (by decide), hst]
  decide

theorem handleFinWait2_path (hst : s.state = .finWait2) :
    Path closingKinds s (handleFinWait2 cfg env seg s) := by
  apply Path.ite _ (.refl s)
  have hput : Path closingKinds s (handlePayload cfg env seg (handleAck env seg s)) :=
    .next (handlePayload_path cfg env seg _)
      ((handleAck_path env seg s).mono (by decide)) (by decide)
  have hstate : .synSent < (handlePayload cfg env seg (handleAck env seg s)).state ∨
      (handlePayload cfg env seg (handleAck env seg s)).state = .closed := by
    obtain h | h := handlePayload_or_closed cfg env seg (handleAck env seg s)
    · rw [h, (handleAck_path env seg s).state (by decide), hst]
      exact .inl (by decide)
    · exact .inr h
  generalize handlePayload cfg env seg (handleAck env seg s) = w at hput hstate ⊢
  apply Path.ite _ hput
  have hnote : Path closingKinds w (w.log (.consumeFin (seg.seq + seg.payloadlen) w.received)) :=
    .of_step (.note _ rfl) (by decide)
  have henter : Path closingKinds w
      { w.log (.consumeFin (seg.seq + seg.payloadlen) w.received) with state := .timeWait } :=
    .after (enter_path (by decide) hstate (by decide) (by decide)) hnote
  have hnext := Path.step (.rcvNxt (w.rcvNxt + 1)) (henter.after hput) (by decide)
  exact .next (addtoControlList_path _)
    (.next (addtoTimewaitList_path _ cfg env) hnext (by decide)) (by decide)

def timewaitAckKinds : List Change := .sndUna :: .enter :: (timewaitKinds ++ processAckKinds)

theorem handleClosing_path (hst : s.state = .closing) :
    Path timewaitAckKinds s (handleClosing cfg env seg s) := by
  apply Path.ite _ (.refl s)
  have hack : Path timewaitAckKinds s (handleAck env seg s) :=
    (handleAck_path env seg s).mono (by decide)
  have hstate : .synSent < (handleAck env seg s).state := by
    rw [(handleAck_path env seg s).state (by decide), hst]
    decide
  generalize handleAck env seg s = w at hack hstate ⊢
  refine .ite hack (.ite hack ?_)
  have huna := Path.step (.sndUna seg.ackSeq) hack (by decide)
  have hset := Path.step (.sndNxt seg.ackSeq) huna (by decide)
  have htimer := Path.next (updateRetransmissionTimer_path _ env) hset (by decide)
  refine .next (addtoTimewaitList_path _ cfg env)
    (.step (.enter .timeWait ?_ (by decide)) htimer (by decide)) (by decide)
  rw [(updateRetransmissionTimer_path _ env).state (by decide)]
  exact hstate

theorem handleTimeWait_path : Path (.on .control :: .fault :: .off .timewait :: timewaitKinds) s
    (handleTimeWait cfg env s) :=
  .next (addtoControlList_path _) (.ite (.next (addtoTimewaitList_path _ cfg env)
    ((removeFromTimewaitList_path s).mono (by decide)) (by decide)) (.refl s)) (by decide)

def segmentKinds : List Change :=
  .arrive :: .again .timeout :: .reset :: .enter :: .revive :: .finAcked :: .off .timewait ::
    (validateKinds ++ listenKinds ++ synSentKinds ++ synRcvdKinds ++ payloadKinds ++
      processAckKinds)

theorem dispatch_path : Path segmentKinds s (dispatch cfg env seg s) := by
  unfold dispatch
  split
  · exact (handleListen_path seg s).mono (by decide)
  · exact (handleSynSent_path cfg env seg s).mono (by decide)
  · apply Path.ite ((handleListen_path seg s).mono (by decide))
    have hrcvd : Path segmentKinds s (handleSynRcvd cfg env seg s) :=
      (handleSynRcvd_path cfg env seg s).mono (by decide)
    dsimp only
    split
    · next h => exact .next (handleEstablished_path cfg env seg _ h.2) hrcvd (by decide)
    · exact hrcvd
  · next hst => exact (handleEstablished_path cfg env seg s hst).mono (by decide)
  · exact (handleCloseWait_path env seg s).mono (by decide)
  · exact (handleLastAck_path cfg env seg s).mono (by decide)
  · next hst => exact (handleFinWait1_path cfg env seg s hst).mono (by decide)
  · next hst => exact (handleFinWait2_path cfg env seg s hst).mono (by decide)
  · next hst => exact (handleClosing_path cfg env seg s hst).mono (by decide)
  · exact (handleTimeWait_path cfg env s).mono (by decide)
  · exact .refl s

theorem arrive_path : Path [.arrive, .again .timeout] s (updateTimeoutList { s with
    sndvar.peerWnd := segmentWindow seg s
    lastActiveTs := env.curTs }) :=
  .next (updateTimeoutList_path _) (.of_step (.arrive _ _) (by decide)) (by decide)

theorem processTCPPacket_path : Path segmentKinds s (processTCPPacket cfg env seg s) := by
  have hvalid : ∀ u, Path segmentKinds u (processValidated cfg env seg u) := by
    intro u
    have harrive : Path segmentKinds u _ := (arrive_path env seg u).mono (by decide)
    unfold processValidated
    dsimp only
    generalize updateTimeoutList _ = w at harrive ⊢
    have hreset := Path.step .reset harrive (by decide)
    split
    · split
      · next hlow =>
        have hrst := processRST_path cfg seg { w with haveReset := true } hlow
        exact .after (hrst.mono (by decide)) hreset
      · exact .after (dispatch_path cfg env seg _) hreset
    · exact .after (dispatch_path cfg env seg w) harrive
  unfold processTCPPacket
  split
  · have hcheck : Path segmentKinds s (validateSequence cfg env seg s).2 :=
      (validateSequence_path cfg env seg s).mono (by decide)
    generalize validateSequence cfg env seg s = r at hcheck ⊢
    obtain ⟨_ | _, w⟩ := r
    · exact hcheck
    · exact (hvalid w).after hcheck
  · exact hvalid s

end input

/-! `api.c` and `core.c` -/

section calls

variable (cfg : Config) (env : Env) (s : TcpStream)

theorem mtcpAccept_path (sock : Option Nat) :
    Path [.take .acceptq, .socket] s (mtcpAccept sock s) := by
  have htake : Path [.take .acceptq, .socket] s (s.unlink .acceptq) :=
    .of_step (.take _) (by decide)
  exact .ite (.step (.socket _ _ _) htake (by decide)) htake

def closeKinds : List Change :=
  [.socket, .marks, .shut, .put .destroyq, .put .closeq, .put .resetq]

theorem mtcpClose_path : Path closeKinds s (mtcpClose s) := by
  have hclose : Path closeKinds s { s with closed := true, socket := none } :=
    .of_step (.socket _ _ _) (by decide)
  have hmark := Path.step (.marks s.sndvar.onSendq s.sndvar.onAckq true
    s.sndvar.onResetq s.sndvar.onCloseqInt s.sndvar.onResetqInt) hclose (by decide)
  apply Path.ite (.of_step (.socket _ _ _) (by decide))
  dsimp only
  split
  iterate 2 exact .step (.put _) hclose (by decide)
  iterate 2 exact .step (.put _) hmark (by decide)
  · exact hclose

theorem mtcpAbort_path : Path closeKinds s (mtcpAbort s) := by
  have hdetach : Path closeKinds s { s with socket := none } := .of_step (.socket _ _ _) (by decide)
  have hshut := Path.step (.shut .activeClose) hdetach (by decide)
  have hmark := Path.step (.marks s.sndvar.onSendq s.sndvar.onAckq s.sndvar.onCloseq
    true s.sndvar.onCloseqInt s.sndvar.onResetqInt) hdetach (by decide)
  unfold mtcpAbort
  dsimp only
  split
  · exact hdetach
  iterate 4 exact .step (.put _) hshut (by decide)
  · exact .ite hdetach (.step (.put _) hmark (by decide))

def recvKinds : List Change := [.fault, .read, .note, .advertise]

theorem advertiseWindow_path : Path [.advertise] s (advertiseWindow s) :=
  .ite (.of_step .advertise (by decide)) (.refl s)

theorem copyToUser_path (len : Int) : Path recvKinds s (copyToUser len s).2 := by
  unfold copyToUser
  split
  · exact .of_step (.fault _ nofun nofun) (by decide)
  · next buf _ =>
    dsimp only
    split
    · exact .refl s
    · generalize rbRemove buf (min (buf.mergedLen : Int) len).toNat = r
      obtain ⟨n, failed, b⟩ := r
      have hfail : Path recvKinds s (if failed then s.abort .rbRemoveAssert else s) :=
        .ite (.of_step (.fault _ nofun nofun) (by decide)) (.refl s)
      have hread := Path.step (.read b) hfail (by decide)
      exact .next (advertiseWindow_path _)
        (.step (.note (.hand _) rfl) hread (by decide)) (by decide)

theorem mtcpRecv_path (nonblock peek : Bool) (len : Nat) :
    Path recvKinds s (mtcpRecv nonblock peek len s).2 := by
  have hpeek : ∀ n, Path recvKinds s (peekForUser n s).2 := by
    intro n
    unfold peekForUser
    split
    · exact .of_step (.fault _ nofun nofun) (by decide)
    · dsimp only
      split <;> exact .refl s
  unfold mtcpRecv
  split
  · exact .refl s
  · split_ifs
    · exact .refl s
    · exact .refl s
    · exact hpeek _
    · exact copyToUser_path s _

def writeKinds : List Change := [.reason, .fault, .written, .note, .marks, .put .sendq, .raise]

theorem copyFromUser_path (bytes : List UInt8) :
    Path writeKinds s (copyFromUser cfg env bytes s).2 := by
  unfold copyFromUser
  dsimp only
  split
  · exact .refl s
  · cases ensureSndbuf cfg env s with
    | none => exact .of_step (.reason _) (by decide)
    | some buf =>
      dsimp only
      generalize sbPut buf _ = r
      obtain ⟨ret, b⟩ := r
      have hshort : Path writeKinds s (if ret ≠ min (signed s.sndvar.sndWnd)
          (signed (UInt32.ofNat bytes.length)) then s.abort .sbPutShort else s) :=
        .ite (.of_step (.fault _ nofun nofun) (by decide)) (.refl s)
      have hput := Path.step (.written b) hshort (by decide)
      split
      · exact hput
      · exact .step (.note (.take _) rfl) hput (by decide)

theorem mtcpWrite_path (bytes : List UInt8) : Path writeKinds s (mtcpWrite cfg env bytes s).2 := by
  unfold mtcpWrite
  split
  · exact .refl s
  · split
    · exact .refl s
    · have hcopy := copyFromUser_path cfg env s bytes
      generalize copyFromUser cfg env bytes s = r at hcopy ⊢
      obtain ⟨ret, w⟩ := r
      have hmark := Path.step (.marks true w.sndvar.onAckq w.sndvar.onCloseq
        w.sndvar.onResetq w.sndvar.onCloseqInt w.sndvar.onResetqInt) hcopy (by decide)
      have hlink : Path writeKinds s (if 0 < ret ∧ ¬ (w.sndvar.onSendq ∨ w.sndvar.onSendList) then
          { w with sndvar.onSendq := true }.link .sendq else w) :=
        .ite (.step (.put _) hmark (by decide)) hcopy
      exact .ite (.next (raiseEvent_path _ _) hlink (by decide)) hlink

theorem beginClose_path : Path [.enter] s (beginClose s) := by
  unfold beginClose
  split
  · next h => exact .of_step (.enter _ (by rw [h]; decide) (by decide)) (by decide)
  · next h => exact .of_step (.enter _ (by rw [h]; decide) (by decide)) (by decide)
  · exact .refl s

theorem destroyReset_path : Path giveUpKinds s (destroyReset cfg s) :=
  .ite (.next (destroyTCPStream_path _ cfg) (.of_step (.shut _) (by decide)) (by decide)) (.refl s)

theorem sendRST_path : Path [.shut, .on .control] s (sendRST s) :=
  .ite (.next (addtoControlList_path _) (.of_step (.shut .activeClose) (by decide)) (by decide))
    (.refl s)

def requestKinds : List Change :=
  [.marks, .enter, .shut, .on .control, .put .closeqInt, .put .resetqInt]

def dequeueKinds : List Change := .fss :: .waiting :: (requestKinds ++ giveUpKinds)

theorem handleClose_path : Path dequeueKinds s (handleClose cfg s) := by
  have hmark : Path dequeueKinds s { s with sndvar.onCloseq := false } :=
    .of_step (.marks _ _ _ _ _ _) (by decide)
  have hfss := Path.step .fss hmark (by decide)
  have hoff : ∀ u, Path dequeueKinds u
      (if 0 < cfg.tcpTimeout then removeFromTimeoutList u else u) :=
    fun u => .ite ((removeFromTimeoutList_path u).mono (by decide)) (.refl u)
  have hstart := (hoff _).after hfss
  unfold handleClose
  dsimp only
  generalize (if 0 < cfg.tcpTimeout then removeFromTimeoutList _ else _ : TcpStream) = w
    at hstart ⊢
  have hbegin : Path dequeueKinds s (beginClose w) := .next (beginClose_path w) hstart (by decide)
  have hagain := Path.step (.marks w.sndvar.onSendq w.sndvar.onAckq w.sndvar.onCloseq
    w.sndvar.onResetq true w.sndvar.onResetqInt) hstart (by decide)
  apply Path.ite (.next (destroyReset_path cfg w) hstart (by decide))
  apply Path.ite (.step (.put _) hagain (by decide))
  apply Path.ite (.step (.waiting _) hbegin (by decide))
  exact .ite (.next (addtoControlList_path _) hbegin (by decide)) hstart

theorem handleCloseInt_path : Path requestKinds s (handleCloseInt s) := by
  have hmark : Path requestKinds s { s with sndvar.onCloseqInt := false } :=
    .of_step (.marks _ _ _ _ _ _) (by decide)
  have hbegin := Path.next (beginClose_path _) hmark (by decide)
  exact .ite (.of_step (.put _) (by decide))
    (.ite (.next (addtoControlList_path _) hbegin (by decide)) hmark)

theorem handleReset_path : Path dequeueKinds s (handleReset cfg s) := by
  have hmark : Path dequeueKinds s { s with sndvar.onResetq := false } :=
    .of_step (.marks _ _ _ _ _ _) (by decide)
  have hoff : ∀ u, Path dequeueKinds u
      (if 0 < cfg.tcpTimeout then removeFromTimeoutList u else u) :=
    fun u => .ite ((removeFromTimeoutList_path u).mono (by decide)) (.refl u)
  have hstart := (hoff _).after hmark
  unfold handleReset
  dsimp only
  generalize (if 0 < cfg.tcpTimeout then removeFromTimeoutList _ else _ : TcpStream) = w
    at hstart ⊢
  have hagain := Path.step (.marks w.sndvar.onSendq w.sndvar.onAckq w.sndvar.onCloseq
    w.sndvar.onResetq w.sndvar.onCloseqInt true) hstart (by decide)
  apply Path.ite (.next (destroyReset_path cfg w) hstart (by decide))
  exact .ite (.step (.put _) hagain (by decide)) (.next (sendRST_path w) hstart (by decide))

theorem handleResetInt_path : Path requestKinds s (handleResetInt s) := by
  have hmark : Path requestKinds s { s with sndvar.onResetqInt := false } :=
    .of_step (.marks _ _ _ _ _ _) (by decide)
  exact .ite (.of_step (.put _) (by decide)) (.next (sendRST_path _) hmark (by decide))

def queueKinds : List Change :=
  .take .connectq :: .take .sendq :: .take .ackq :: .take .closeq :: .take .closeqInt ::
    .take .resetq :: .take .resetqInt :: .take .destroyq :: .on .send :: .acks :: .on .ack ::
    dequeueKinds

theorem unlink_link {s : TcpStream} {q : StreamList} (h : s.occ q ≠ 0) :
    (s.unlink q).link q = s := by
  have hpos : s.occ q - 1 + 1 = s.occ q := Nat.sub_add_cancel (Nat.pos_of_ne_zero h)
  simp [TcpStream.unlink, TcpStream.link, hpos]

theorem dequeue_path (q : StreamList) : Path queueKinds s (dequeue cfg q s) := by
  unfold dequeue
  split
  · exact .refl s
  · next hocc =>
    have hback : Path queueKinds s ((s.unlink q).link q) := by
      rw [unlink_link hocc]
      exact .refl s
    have hmark : ∀ (u : TcpStream) sendq ackq, Path queueKinds u
        { u with sndvar.onSendq := sendq, sndvar.onAckq := ackq } :=
      fun _ _ _ => .of_step (.marks _ _ _ _ _ _) (by decide)
    cases q with
    | connectq => exact .next (addtoControlList_path _) (.of_step (.take _) (by decide)) (by decide)
    | sendq =>
      exact .next (addtoSendList_path _)
        (.after (hmark _ _ _) (.of_step (.take .sendq) (by decide))) (by decide)
    | ackq =>
      exact .next (enqueueACK_path _ _)
        (.after (hmark _ _ _) (.of_step (.take .ackq) (by decide))) (by decide)
    | closeq => exact .next (handleClose_path cfg _) (.of_step (.take _) (by decide)) (by decide)
    | closeqInt => exact .next (handleCloseInt_path _) (.of_step (.take _) (by decide)) (by decide)
    | resetq => exact .next (handleReset_path cfg _) (.of_step (.take _) (by decide)) (by decide)
    | resetqInt => exact .next (handleResetInt_path _) (.of_step (.take _) (by decide)) (by decide)
    | destroyq =>
      exact .next (destroyTCPStream_path _ cfg) (.of_step (.take _) (by decide)) (by decide)
    | _ => exact hback

theorem act_path (a : Action) : ∃ ks, Path ks s (act cfg env s a) := by
  have hroom : ∀ room, Path sendKinds s { s with txRoom := room } :=
    fun _ => .of_step (.sent _ _ _) (by decide)
  cases a with
  | rx seg => exact ⟨_, .ite (processTCPPacket_path cfg env seg s) (.refl s)⟩
  | rtm => exact ⟨_, checkRtmTimeout_path cfg env s⟩
  | rearrange => exact ⟨_, rearrangeRTOStore_path env s⟩
  | timewait => exact ⟨_, checkTimewaitExpire_path cfg env s⟩
  | timeout => exact ⟨_, .ite (checkConnectionTimeout_path cfg env s) (.refl s)⟩
  | dequeue q => exact ⟨_, dequeue_path cfg s q⟩
  | controlPass room =>
    exact ⟨_, .ite ((writeTCPControl_path env _ cfg).after ((hroom room).mono (by decide)))
      (.refl s)⟩
  | dataPass room =>
    exact ⟨_, .ite ((writeTCPData_path env _).after ((hroom room).mono (by decide))) (.refl s)⟩
  | ackPass room =>
    exact ⟨_, .ite ((writeTCPACK_path env _).after ((hroom room).mono (by decide))) (.refl s)⟩
  | accept sock => exact ⟨_, .ite (mtcpAccept_path s sock) (.refl s)⟩
  | write bytes => exact ⟨_, .ite (mtcpWrite_path cfg env s bytes) (.refl s)⟩
  | recv nonblock peek len => exact ⟨_, .ite (mtcpRecv_path s nonblock peek len) (.refl s)⟩
  | close => exact ⟨_, .ite (mtcpClose_path s) (.refl s)⟩
  | abort => exact ⟨_, .ite (mtcpAbort_path s) (.refl s)⟩

theorem run_changes {I : TcpStream → Prop} (hstep : ∀ {k s t}, Change.Step k s t → I s → I t)
    (hs : I s) (es : List (Env × Action)) : I (run cfg s es) := by
  induction es generalizing s with
  | nil => exact hs
  | cons e es ih =>
    apply ih
    unfold step
    split
    · obtain ⟨ks, hpath⟩ := act_path cfg e.1 s e.2
      exact hpath.keeps (fun _ h => hstep h) hs
    · exact hs

end calls

end Mtcp
