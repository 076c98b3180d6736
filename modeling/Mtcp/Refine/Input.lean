import Mtcp.Refine.Cause

namespace Mtcp

open Serial SendBuffer RingBuffer Bytes Runs Option Bool

variable {cfg : Config} {s : TcpStream} {e : Env × Action}

/-! `ProcessACK`. -/

variable (v : Conn) (env : Env) (seg : Segment) (t : TcpStream) (buf : TcpSendBuffer) (x : UInt32)

theorem conn_updateWindow (t : TcpStream) : conn (updateWindow seg x t) = conn t := by
  unfold updateWindow
  dsimp only
  split_ifs <;> rfl

theorem updateWindow_dupAcks (t : TcpStream) :
    (updateWindow seg x t).rcvvar.dupAcks = t.rcvvar.dupAcks ∧
      (updateWindow seg x t).rcvvar.lastAckSeq = t.rcvvar.lastAckSeq := by
  unfold updateWindow
  dsimp only
  split_ifs <;> exact ⟨rfl, rfl⟩

theorem conn_countDupAcks (dup : Bool) (x : UInt32) (t : TcpStream) :
    conn (countDupAcks dup x t) = conn t := by
  unfold countDupAcks
  split <;> rfl

theorem conn_fastRetransmit (t : TcpStream) (hbuf : t.sndvar.sndbuf.isSome) (hlt : lt x t.sndNxt) :
    conn (fastRetransmit x t) = { conn t with sndNxt := x, sendList := true } := by
  unfold fastRetransmit
  rw [if_pos hlt, conn_addtoSendList, if_neg (by simpa [← isSome_iff_ne_none] using hbuf)]
  rfl

theorem conn_recoverAfterLoss (t : TcpStream) : conn (recoverAfterLoss buf x t) = { conn t with
        sndNxt := if gt x t.sndNxt then x else t.sndNxt
        sendList := if gt x t.sndNxt ∧ buf.len = 0 then false else t.sndvar.onSendList } := by
  unfold recoverAfterLoss
  split_ifs with h1 h2 h3 h3 h3
  · rw [conn_removeFromSendList]
    rfl
  · exact absurd ⟨h1, h2⟩ h3
  · exact absurd h3.2 h2
  · rfl
  · exact absurd h3.1 h1
  · rfl

structure ThirdDup (seg : Segment) (x : UInt32) (t : TcpStream) : Prop where
  count : t.rcvvar.dupAcks = 2
  same : x = t.rcvvar.lastAckSeq
  bare : seg.payload = []
  below : lt x t.sndNxt = true

theorem conn_respondDupAcks (dup : Bool) (x : UInt32) (t : TcpStream)
    (h : ¬ (dup ∧ t.rcvvar.dupAcks = 3)) : conn (respondDupAcks dup x t) = conn t := by
  have hfast : (dup && t.rcvvar.dupAcks == 3) = false := by simpa using h
  unfold respondDupAcks
  rw [hfast, if_neg Bool.false_ne_true]
  split_ifs <;> rfl

def retransmits (seg : Segment) (x : UInt32) (t : TcpStream) : Bool :=
  t.rcvvar.dupAcks == 2 &&
    isDuplicate seg x (t.sndvar.peerWnd + t.rcvvar.sndWl2) (updateWindow seg x t)

theorem conn_noteAck_eq (t : TcpStream) (hbuf : t.sndvar.sndbuf = some buf) :
    (retransmits seg x t → ThirdDup seg x t) ∧
      conn (noteAck seg buf x t) = (conn t).noted buf x (retransmits seg x t) := by
  unfold noteAck retransmits
  dsimp only
  have hw := conn_updateWindow seg x t
  have hd := updateWindow_dupAcks seg x t
  generalize updateWindow seg x t = u at hw hd ⊢
  generalize hdup : isDuplicate seg x _ u = dup
  have hnxt : u.sndNxt = t.sndNxt := congrArg Conn.sndNxt hw
  have hc := conn_countDupAcks dup x u
  by_cases h3 : dup ∧ (countDupAcks dup x u).rcvvar.dupAcks = 3
  · obtain ⟨rfl, hcount⟩ := h3
    simp only [isDuplicate, and_eq_true, beq_iff_eq, List.length_eq_zero_iff] at hdup
    obtain ⟨⟨hlt, hlast, hpay⟩, -⟩ := hdup
    have hdup2 : u.rcvvar.dupAcks = 2 := by
      simp only [countDupAcks, if_true] at hcount
      have := congrArg (· - 1) hcount
      simpa using this
    have htwo : t.rcvvar.dupAcks = 2 := hd.1.symm.trans hdup2
    rw [htwo, beq_self_eq_true, Bool.true_and]
    refine ⟨fun _ => ⟨htwo, hlast.trans hd.2, hpay, hnxt ▸ hlt⟩, ?_⟩
    have hfast : conn (respondDupAcks true x (countDupAcks true x u)) =
        { conn t with sndNxt := x, sendList := true } := by
      unfold respondDupAcks
      rw [if_pos (by simpa using hcount), conn_fastRetransmit, hc, hw]
      · rw [show (countDupAcks true x u).sndvar.sndbuf = some buf from
          (congrArg Conn.sndbuf (hc.trans hw)).trans hbuf]
        rfl
      · rw [show (countDupAcks true x u).sndNxt = u.sndNxt from congrArg Conn.sndNxt hc]
        exact hlt
    generalize respondDupAcks true x (countDupAcks true x u) = w at hfast ⊢
    have hwx : w.sndNxt = x := congrArg Conn.sndNxt hfast
    have hwl : w.sndvar.onSendList := congrArg Conn.sendList hfast
    have hxx : gt x x = false := by
      rw [not_gt_iff]
      exact .inl (fwd_self x)
    rw [conn_recoverAfterLoss, hwx, hwl, hxx, hfast]
    rfl
  · have hslow : (t.rcvvar.dupAcks == 2 && dup) = false := by
      rw [and_eq_false_iff, beq_eq_false_iff_ne]
      by_contra hboth
      obtain ⟨htwo, hdup⟩ := not_or.mp hboth
      refine h3 ⟨eq_true_of_not_eq_false hdup, ?_⟩
      rw [countDupAcks, if_pos (eq_true_of_not_eq_false hdup)]
      rw [hd.1, not_not.mp htwo]
      rfl
    rw [hslow]
    refine ⟨nofun, ?_⟩
    have hr := (conn_respondDupAcks dup x _ h3).trans (hc.trans hw)
    generalize respondDupAcks dup x (countDupAcks dup x u) = w at hr ⊢
    have hwn : w.sndNxt = t.sndNxt := congrArg Conn.sndNxt hr
    have hwl : w.sndvar.onSendList = t.sndvar.onSendList := congrArg Conn.sendList hr
    rw [conn_recoverAfterLoss, hwn, hwl, hr]
    rfl

theorem conn_noteAck (t : TcpStream) (hbuf : t.sndvar.sndbuf = some buf) :
    ∃ fast, (fast = true → ThirdDup seg x t) ∧
      conn (noteAck seg buf x t) = (conn t).noted buf x fast :=
  ⟨_, conn_noteAck_eq seg buf x t hbuf⟩

theorem noteAck_effMss (s : TcpStream) : (noteAck seg buf x s).sndvar.effMss = s.sndvar.effMss := by
  have hup : (updateWindow seg x s).sndvar.effMss = s.sndvar.effMss := by
    unfold updateWindow
    dsimp only
    split_ifs <;> rfl
  have hcount : ∀ dup t, (countDupAcks dup x t).sndvar.effMss = t.sndvar.effMss := by
    intro dup t
    unfold countDupAcks
    split <;> rfl
  have hresp : ∀ dup t, (respondDupAcks dup x t).sndvar.effMss = t.sndvar.effMss := by
    intro dup t
    unfold respondDupAcks fastRetransmit addtoSendList
    dsimp only
    split_ifs <;> rfl
  have hrec : ∀ t, (recoverAfterLoss buf x t).sndvar.effMss = t.sndvar.effMss := by
    intro t
    unfold recoverAfterLoss removeFromSendList
    dsimp only
    split_ifs <;> rfl
  unfold noteAck
  rw [hrec, hresp, hcount, hup]

theorem estimateRTT_frame (mrtt : UInt32) :
    (estimateRTT t mrtt).irs = t.rcvvar.irs ∧ (estimateRTT t mrtt).rcvbuf = t.rcvvar.rcvbuf := by
  unfold estimateRTT
  dsimp only
  split_ifs <;> exact ⟨rfl, rfl⟩

theorem conn_updateRTO : ∃ fault,
    Faulted t.fault fault ∧ conn (updateRTO env t) = { conn t with fault := fault } := by
  unfold updateRTO
  split
  · obtain ⟨hirs, hbuf⟩ := estimateRTT_frame t (env.curTs - t.rcvvar.tsLastackRcvd)
    generalize estimateRTT t (env.curTs - t.rcvvar.tsLastackRcvd) = r at hirs hbuf ⊢
    dsimp only
    split
    · exact ⟨_, .inr ⟨.rtoZero, rfl, rfl⟩, by simp [conn, TcpStream.abort, hirs, hbuf]⟩
    · exact ⟨_, .refl _, by simp [conn, hirs, hbuf]⟩
  · exact ⟨_, .refl _, rfl⟩

theorem conn_growCwnd (packets : UInt32) (t : TcpStream) : ∃ fault,
    Faulted t.fault fault ∧ conn (growCwnd packets t) = { conn t with fault := fault } := by
  unfold growCwnd
  dsimp only
  split_ifs
  · exact ⟨_, .refl _, rfl⟩
  · exact ⟨_, .refl _, rfl⟩
  · exact ⟨_, .inr ⟨.divideByZero, rfl, rfl⟩, rfl⟩
  · exact ⟨_, .refl _, rfl⟩
  · exact ⟨_, .refl _, rfl⟩
  · exact ⟨_, .refl _, rfl⟩

theorem conn_restartTimer : ∃ fault, Faulted t.fault fault ∧
    conn (updateRetransmissionTimer env t) =
      { conn t with fault := fault, rto := gt t.sndNxt t.sndvar.sndUna && !t.onTimewaitList } := by
  rw [conn_updateRetransmissionTimer]
  refine ⟨_, ?_, rfl⟩
  split
  · exact .inr ⟨.rtoZero, rfl, rfl⟩
  · exact .refl _

theorem conn_removeAcked_of_mss (t : TcpStream) (hmss : t.sndvar.effMss ≠ 0) :
    ∃ fault, Faulted t.fault fault ∧ conn (removeAcked env buf x t) = { conn t with
      fault := fault
      sndbuf := some (sbRemove buf (fwd buf.headSeq x)).2
      sndUna := x
      rto := gt t.sndNxt x && !t.onTimewaitList
      log := .release (buf.len - (sbRemove buf (fwd buf.headSeq x)).2.len) :: (conn t).log } := by
  unfold removeAcked
  dsimp only
  rw [if_neg hmss]
  obtain ⟨f1, hf1, h1⟩ := conn_updateRTO env t
  generalize updateRTO env t = u at h1 ⊢
  have hu : u.fault = f1 := congrArg Conn.fault h1
  obtain ⟨f2, hf2, h2⟩ := conn_growCwnd (if x - buf.headSeq < _ then _ else _ : UInt16).toUInt32 u
  generalize growCwnd _ u = w at h2 ⊢
  have hw : w.fault = f2 := congrArg Conn.fault h2
  generalize hr : (if w.sndvar.sndWnd = 0 then raiseEvent .write _ else _ : TcpStream) = r
  have hc : conn r = { conn w with
      sndbuf := some (sbRemove buf (fwd buf.headSeq x)).2
      sndUna := x
      log := .release (buf.len - (sbRemove buf (fwd buf.headSeq x)).2.len) :: (conn w).log } := by
    rw [← hr]
    split <;> rfl
  obtain ⟨f3, hf3, h3⟩ := conn_restartTimer env r
  have hrf : r.fault = f2 := (congrArg Conn.fault hc).trans hw
  have hrn : r.sndNxt = t.sndNxt := by
    rw [show r.sndNxt = w.sndNxt from congrArg Conn.sndNxt hc,
      show w.sndNxt = u.sndNxt from congrArg Conn.sndNxt h2]
    exact congrArg Conn.sndNxt h1
  have hrt : r.onTimewaitList = t.onTimewaitList := by
    rw [show r.onTimewaitList = w.onTimewaitList from congrArg Conn.timewait hc,
      show w.onTimewaitList = u.onTimewaitList from congrArg Conn.timewait h2]
    exact congrArg Conn.timewait h1
  have hru : r.sndvar.sndUna = x := congrArg Conn.sndUna hc
  refine ⟨f3, (hf1.trans (hu ▸ hf2)).trans (hrf ▸ hf3), ?_⟩
  rw [h3, hrn, hrt, hru, hc, h2, h1]

theorem removeAcked_of_no_mss {t : TcpStream} (hmss : t.sndvar.effMss = 0) :
    removeAcked env buf x t = t.abort .divideByZero :=
  if_pos hmss

theorem conn_removeAcked (t : TcpStream) :
    conn (removeAcked env buf x t) = (conn t).crash .divideByZero ∨
    ∃ fault, Faulted t.fault fault ∧ conn (removeAcked env buf x t) = { conn t with
      fault := fault
      sndbuf := some (sbRemove buf (fwd buf.headSeq x)).2
      sndUna := x
      rto := gt t.sndNxt x && !t.onTimewaitList
      log := .release (buf.len - (sbRemove buf (fwd buf.headSeq x)).2.len) :: (conn t).log } := by
  by_cases hmss : t.sndvar.effMss = 0
  · rw [removeAcked_of_no_mss env buf x hmss]
    exact .inl rfl
  · exact .inr (conn_removeAcked_of_mss env buf x t hmss)

def SendOnly (v w : Conn) : Prop :=
  w = { v with
    sndNxt := w.sndNxt
    sndUna := w.sndUna
    sndbuf := w.sndbuf
    sendList := w.sendList
    rto := w.rto
    log := w.log
    fault := w.fault }

theorem SendOnly.refl : SendOnly v v := rfl

theorem sendOnly_acked (fast : Bool) : SendOnly v (v.acked buf x fast) := by
  unfold SendOnly Conn.acked
  split <;> rfl

theorem SameSend.acked {v w : Conn} (h : SameSend v w) (buf : TcpSendBuffer) (x : UInt32)
    (fast : Bool) : SameSend (v.acked buf x fast) (w.acked buf x fast) := by
  obtain ⟨h1, h2, h3, h4, h5, h6, h7, h8, h9⟩ := h
  unfold Conn.acked
  split
  · exact ⟨h1, h2, by simp [Conn.noted, Conn.ackedNxt, h3], h4, h5, h6,
      by simp [Conn.noted, h3, h7], h8, h9⟩
  · exact ⟨rfl, rfl, by simp [Conn.noted, Conn.ackedNxt, h3], h4, h5, h6,
      by simp [Conn.noted, h3, h7], h8, by rw [h9]⟩

/-- A connection seen in another state, as a failed allocation leaves it. -/
def Conn.seenAs (v : Conn) (state : TcpState) (reason : TcpCloseReason) : Conn :=
  { v with state := state, reason := reason }

theorem acked_seenAs (fast : Bool) (state : TcpState) (reason : TcpCloseReason) :
    (v.seenAs state reason).acked buf x fast = (v.acked buf x fast).seenAs state reason := by
  unfold Conn.acked
  split <;> rfl

def dupState (t : TcpStream) : UInt8 × UInt32 := (t.rcvvar.dupAcks, t.rcvvar.lastAckSeq)

/-- Where `ProcessACK` is called: nothing it reads has changed since the segment arrived. -/
structure AckReady (cfg : Config) (s : TcpStream) (e : Env × Action) (seg : Segment)
    (t : TcpStream) : Prop where
  event : e.2 = .rx seg
  rst : seg.rst = false
  valid : validated cfg e.1 seg s = true
  late : .synRcvd < s.state
  active : s.state ≠ .timeWait
  found : s.onHashTable = true
  ackSeq : effectiveAck seg t = effectiveAck seg s
  send : SameSend (conn t) (conn s)
  dups : dupState t = dupState s

/-- What `ProcessACK` does, seen in the state the segment found: at most one acknowledgement,
then perhaps a fault. -/
structure AckOutcome (cfg : Config) (s : TcpStream) (e : Env × Action) (seg : Segment)
    (t r : TcpStream) : Prop where
  frame : SendOnly (conn t) (conn r)
  steps : ∀ reason,
    Steps cfg s e ((conn t).seenAs s.state reason) ((conn r).seenAs s.state reason)
  done : r.fault = none → AckDone s seg (conn r)

theorem processACK_outcome (hbuf : t.sndvar.sndbuf = some buf) (h : AckReady cfg s e seg t) :
    AckOutcome cfg s e seg t (processACK env seg t) := by
  have hsbuf : s.sndvar.sndbuf = some buf := h.send.sndbuf.symm.trans hbuf
  unfold processACK
  rw [hbuf]
  dsimp only
  rw [h.ackSeq]
  generalize hx : effectiveAck seg s = x
  split
  · next hgt =>
    refine ⟨.refl _, fun _ => Reaches.refl _, fun _ => ?_⟩
    unfold AckDone
    rw [hsbuf]
    dsimp only
    rw [hx, if_pos hgt]
    exact h.send
  · next hgt =>
    obtain ⟨fast, hfast, hnote⟩ := conn_noteAck seg buf x t hbuf
    have hthird : fast = true → thirdDuplicate seg s = true := by
      intro hf
      obtain ⟨h1, h2, h3, _⟩ := hfast hf
      have hd := Prod.ext_iff.mp h.dups
      have hcount : s.rcvvar.dupAcks = 2 := hd.1.symm.trans h1
      have hlast : x = s.rcvvar.lastAckSeq := h2.trans hd.2
      simp [thirdDuplicate, hx, hcount, hlast, h3]
    have hmove : ∀ reason, Steps cfg s e ((conn t).seenAs s.state reason)
        (((conn t).acked buf x fast).seenAs s.state reason) := by
      intro reason
      refine .single (.ack buf x fast)
        ⟨hbuf, eq_false_of_ne_true hgt, fun hf => (hfast hf).below⟩ ?_
        (acked_seenAs _ _ _ _ _ _).symm
      obtain ⟨h1, h2, h3, h4, h5, h6, h7, h8, h9⟩ := h.send
      exact ⟨seg, h.event, h.rst, hx.symm, h.valid, h.late, h.found,
        ⟨h1, h2, h3, h4, h5, h6, h7, h8, h9⟩, hthird, rfl, h.active⟩
    have hdone : ∀ r, SameSend (conn r) ((conn t).acked buf x fast) → AckDone s seg (conn r) := by
      intro r hr
      unfold AckDone
      rw [hsbuf]
      dsimp only
      rw [hx, if_neg hgt]
      have hs := h.send.acked buf x fast
      exact ⟨fast, hr.trans hs, hthird⟩
    split
    · next hgeq =>
      have hacked : conn (noteAck seg buf x t) = (conn t).acked buf x fast := by
        rw [hnote, Conn.acked, if_pos hgeq]
      exact ⟨hacked ▸ sendOnly_acked _ _ _ _, hacked ▸ hmove, fun _ => hdone _ (hacked ▸ .refl _)⟩
    · next hgeq =>
      generalize noteAck seg buf x t = u at hnote ⊢
      have huf : u.fault = t.fault := congrArg Conn.fault hnote
      have hun : u.sndNxt = (conn t).ackedNxt x fast := congrArg Conn.sndNxt hnote
      have hut : u.onTimewaitList = t.onTimewaitList := congrArg Conn.timewait hnote
      rcases conn_removeAcked env buf x u with hdie | ⟨fault, hf, hrem⟩
      · refine ⟨?_, ?_, fun hnone => ?_⟩
        · rw [hdie, hnote]
          rfl
        · intro reason
          rw [hdie, hnote]
          exact crash_to rfl ⟨.divideByZero, rfl, rfl⟩
        · exact absurd ((congrArg Conn.fault hdie).symm.trans hnone) (Conn.crash_fault _ _)
      · have hacked : conn (removeAcked env buf x u) =
            { (conn t).acked buf x fast with fault := fault } := by
          rw [hrem, hnote, hun, hut, Conn.acked, if_neg hgeq]
          rfl
        have hframe := sendOnly_acked (conn t) buf x fast
        have hfault : ((conn t).acked buf x fast).fault = t.fault :=
          congrArg Conn.fault ((conn t).acked_eq buf x fast)
        refine ⟨?_, ?_, fun _ => hdone _ ?_⟩
        · rw [hacked]
          unfold SendOnly at hframe ⊢
          rw [hframe]
        · intro reason
          rw [hacked]
          have hf' : Faulted (((conn t).acked buf x fast).seenAs s.state reason).fault fault := by
            change Faulted ((conn t).acked buf x fast).fault fault
            rw [hfault]
            exact huf ▸ hf
          exact (hmove reason).trans (refault_steps _ hf')
        · rw [hacked]
          exact ⟨rfl, rfl, rfl, rfl, rfl, rfl, rfl, rfl, rfl⟩

theorem handleAck_outcome (h : AckReady cfg s e seg t) :
    AckOutcome cfg s e seg t (handleAck env seg t) := by
  unfold handleAck
  cases hbuf : t.sndvar.sndbuf with
  | none =>
    refine ⟨.refl _, fun _ => Reaches.refl _, fun _ => ?_⟩
    unfold AckDone
    rw [show s.sndvar.sndbuf = none from h.send.sndbuf.symm.trans hbuf]
    exact h.send
  | some buf => exact processACK_outcome env seg t buf hbuf h

theorem handleAck_of_none (hbuf : t.sndvar.sndbuf = none) : handleAck env seg t = t := by
  rw [handleAck, hbuf]
  rfl

/-! `ProcessTCPPayload`. -/

theorem conn_putPayload (buf : TcpRingBuffer) (t : TcpStream) : ∃ fault, Faulted t.fault fault ∧
      conn (putPayload env seg buf t) = { conn t with
        rcvbuf := some (rbPut env.fragAlloc buf seg.payload seg.seq).2, fault := fault } ∧
      ((∃ code, (rbPut env.fragAlloc buf seg.payload seg.seq).1 = .ret code) ∧ fault = t.fault ∨
        ∃ f, f.sendAssert = false ∧ fault = t.fault.or (some f)) := by
  unfold putPayload
  generalize rbPut env.fragAlloc buf seg.payload seg.seq = r
  obtain ⟨res, buf'⟩ := r
  cases res with
  | ret code => exact ⟨_, .refl _, rfl, .inl ⟨⟨code, rfl⟩, rfl⟩⟩
  | assertFailed =>
    exact ⟨_, .inr ⟨.rbPutAssert, rfl, rfl⟩, rfl, .inr ⟨.rbPutAssert, rfl, rfl⟩⟩
  | outOfBounds =>
    exact ⟨_, .inr ⟨.rcvbufOverrun, rfl, rfl⟩, rfl, .inr ⟨.rcvbufOverrun, rfl, rfl⟩⟩

theorem conn_discardMerged (buf : TcpRingBuffer) (hbuf : t.rcvvar.rcvbuf = some buf) :
    ∃ fault, Faulted t.fault fault ∧ conn (discardMerged t) = { conn t with
        rcvbuf := some (if t.state = .finWait1 ∨ t.state = .finWait2 then
          (rbRemove buf buf.mergedLen).2.2 else buf)
        fault := fault } := by
  unfold discardMerged
  rw [hbuf]
  dsimp only
  split
  · generalize rbRemove buf buf.mergedLen = r
    obtain ⟨n, failed, buf'⟩ := r
    cases failed with
    | false => exact ⟨_, .refl _, rfl⟩
    | true => exact ⟨_, .inr ⟨.rbRemoveAssert, rfl, rfl⟩, rfl⟩
  · refine ⟨_, .refl _, ?_⟩
    rw [← hbuf]
    rfl

theorem conn_advanceRcvNxt (buf : TcpRingBuffer) (hbuf : t.rcvvar.rcvbuf = some buf) :
    conn (advanceRcvNxt t) =
      { conn t with rcvNxt := buf.headSeq + UInt32.ofNat buf.mergedLen } := by
  unfold advanceRcvNxt
  rw [hbuf]
  simp [conn, hbuf]

theorem conn_receivePayload (buf : TcpRingBuffer) (t : TcpStream) : ∃ fault, Faulted t.fault fault ∧
      conn (advanceRcvNxt (discardMerged (putPayload env seg buf t))) =
        { (conn t).receivedPayload (rbPut env.fragAlloc buf seg.payload seg.seq).2 with
          fault := fault } ∧
      ((∃ code, (rbPut env.fragAlloc buf seg.payload seg.seq).1 = .ret code) ∨
        ∃ f, f.sendAssert = false ∧ fault = t.fault.or (some f)) := by
  obtain ⟨f1, hf1, h1, hres⟩ := conn_putPayload env seg buf t
  generalize putPayload env seg buf t = u at h1 ⊢
  have hub : u.rcvvar.rcvbuf = _ := congrArg Conn.rcvbuf h1
  have huf : u.fault = f1 := congrArg Conn.fault h1
  have hus : u.state = t.state := congrArg Conn.state h1
  obtain ⟨f2, hf2, h2⟩ := conn_discardMerged u _ hub
  generalize discardMerged u = w at h2 ⊢
  have hwb : w.rcvvar.rcvbuf = _ := congrArg Conn.rcvbuf h2
  refine ⟨f2, hf1.trans (huf ▸ hf2), ?_, ?_⟩
  · rw [conn_advanceRcvNxt w _ hwb, h2, h1, hus]
    rfl
  · rcases hres with ⟨hret, _⟩ | ⟨f, hf, hfault⟩
    · exact .inl hret
    · refine .inr ⟨f, hf, ?_⟩
      rw [huf, hfault] at hf2
      rcases hf2 with rfl | ⟨g, _, rfl⟩
      · rfl
      · cases t.fault <;> rfl

theorem dupState_enqueueACK (opt : AckOpt) : dupState (enqueueACK t opt) = dupState t := by
  cases opt <;> unfold enqueueACK addtoACKList <;> dsimp only <;> split_ifs <;> rfl

theorem dupState_receivePayload (buf : TcpRingBuffer) (t : TcpStream) :
    dupState (advanceRcvNxt (discardMerged (putPayload env seg buf t))) = dupState t := by
  have h1 : ∀ u, dupState (advanceRcvNxt u) = dupState u := by
    intro u
    unfold advanceRcvNxt
    split <;> rfl
  have h2 : ∀ u, dupState (discardMerged u) = dupState u := by
    intro u
    unfold discardMerged
    split
    · rfl
    · split
      · generalize rbRemove _ _ = r
        obtain ⟨n, failed, buf'⟩ := r
        cases failed <;> rfl
      · rfl
  rw [h1, h2]
  unfold putPayload
  generalize rbPut env.fragAlloc buf seg.payload seg.seq = r
  obtain ⟨res, buf'⟩ := r
  cases res <;> rfl

def RecvOnly (v w : Conn) : Prop :=
  w = { v with rcvNxt := w.rcvNxt, rcvbuf := w.rcvbuf, fault := w.fault }

theorem RecvOnly.sameSend {v w : Conn} (h : RecvOnly v w) : SameSend w v := by
  rw [h]
  exact ⟨rfl, rfl, rfl, rfl, rfl, rfl, rfl, rfl, rfl⟩

/-- What a payload does: it goes into the receive buffer, or there is no memory for one. -/
structure PayloadOutcome (cfg : Config) (s : TcpStream) (e : Env × Action)
    (t r : TcpStream) : Prop where
  dups : dupState r = dupState t
  result : RecvOnly (conn t) (conn r) ∧ Steps cfg s e (conn t) (conn r) ∨
    conn r = { conn t with state := .closed, reason := .noMem }

theorem processTCPPayload_outcome (he : e.2 = .rx seg) (hrst : seg.rst = false)
    (hpay : 0 < seg.payload.length)
    (hst : t.state = .established ∨ t.state = .finWait1 ∨ t.state = .finWait2)
    (harr : Arrives cfg s e seg (conn t)) :
    PayloadOutcome cfg s e t (processTCPPayload cfg env seg t).2 := by
  have hskip : PayloadOutcome cfg s e t t := ⟨rfl, .inl ⟨rfl, Reaches.refl _⟩⟩
  unfold processTCPPayload
  split
  · exact hskip
  · next hlt =>
    split
    · exact hskip
    · split
      · exact ⟨rfl, .inr rfl⟩
      · next buf hbuf =>
        have hd := dupState_receivePayload env seg buf t
        obtain ⟨fault, hf, hconn, hres⟩ := conn_receivePayload env seg buf t
        have hput : PayloadOutcome cfg s e t
            (advanceRcvNxt (discardMerged (putPayload env seg buf t))) := by
          refine ⟨hd, .inl ⟨?_, ?_⟩⟩
          · rw [hconn]
            rfl
          · rcases hres with hret | hdie
            · have hinit : t.rcvvar.rcvbuf = some buf ∨ t.rcvvar.rcvbuf = none ∧
                  ∃ junk, buf = rbInit junk cfg.rcvbufSize (t.rcvvar.irs + 1) := by
                unfold ensureRcvbuf at hbuf
                split at hbuf
                · next heq =>
                  obtain rfl := some.inj hbuf
                  exact .inl heq
                · next heq =>
                  split at hbuf
                  · exact .inr ⟨heq, env.junk, (some.inj hbuf).symm⟩
                  · cases hbuf
              have hmove : Steps cfg s e (conn t) ((conn t).receivedPayload
                  (rbPut env.fragAlloc buf seg.payload seg.seq).2) :=
                Reaches.single (.receive env.fragAlloc buf seg) ⟨hst, hinit, hpay, hret⟩
                  ⟨he, hrst, eq_false_of_ne_true hlt, harr⟩ rfl
              rw [hconn]
              exact hmove.trans (refault_steps _ hf)
            · rw [hconn]
              exact crash_to rfl hdie
        generalize advanceRcvNxt (discardMerged (putPayload env seg buf t)) = r at hput ⊢
        dsimp only
        split_ifs
        · exact hput
        · exact ⟨hput.dups, hput.result⟩
        · exact hput

theorem handlePayload_outcome (he : e.2 = .rx seg) (hrst : seg.rst = false)
    (hst : t.state = .established ∨ t.state = .finWait1 ∨ t.state = .finWait2)
    (harr : Arrives cfg s e seg (conn t)) :
    PayloadOutcome cfg s e t (handlePayload cfg env seg t) := by
  unfold handlePayload
  split
  · next hpay =>
    have hp : PayloadOutcome cfg s e t _ :=
      processTCPPayload_outcome env seg t he hrst hpay hst harr
    generalize processTCPPayload cfg env seg t = r at hp ⊢
    obtain ⟨ret, w⟩ := r
    have henq : ∀ opt, PayloadOutcome cfg s e t (enqueueACK w opt) := by
      intro opt
      refine ⟨(dupState_enqueueACK w opt).trans hp.dups, ?_⟩
      rw [conn_enqueueACK]
      exact hp.result
    dsimp only
    split
    · exact henq _
    · exact henq _
  · exact ⟨rfl, .inl ⟨rfl, Reaches.refl _⟩⟩

/-! The handlers of the single states. -/

theorem control_steps (h : t.state ≠ .synSent) :
    Steps cfg s e (conn t) (conn (addtoControlList t)) := by
  rw [conn_addtoControlList]
  exact .single .control h trivial rfl

theorem seenAs_self : (conn t).seenAs t.state t.closeReason = conn t := rfl

theorem peerFin_steps {v : Conn} {seg : Segment} (dest : TcpState) (he : e.2 = .rx seg)
    (hrst : seg.rst = false) (hfin : seg.fin) (hseq : seg.seq + seg.payloadlen = v.rcvNxt)
    (hst : v.state = .established ∧ dest = .closeWait ∨ v.state = .finWait2 ∧ dest = .timeWait ∨
      v.state = .closed ∧ dest = .closed) : Steps cfg s e v { v with
      state := dest
      rcvNxt := v.rcvNxt + 1
      log := .consumeFin (seg.seq + seg.payloadlen) v.received :: v.log } := by
  refine .single (.peerFin (seg.seq + seg.payloadlen) dest) ⟨hseq, ?_⟩
    ⟨seg, he, hfin, hrst, rfl, fun h => ?_⟩ rfl
  · rcases hst with h | h | h
    · exact .inl h
    · exact .inr (.inr (.inl h))
    · exact .inr (.inr (.inr h))
  · rcases hst with ⟨h', _⟩ | ⟨h', _⟩ | ⟨h', _⟩ <;> rw [h'] at h <;> cases h

/-- In ESTABLISHED the connection goes on, or it is left CLOSED without memory, and the same moves
lead to it from ESTABLISHED. -/
theorem established_outcome (he : e.2 = .rx seg) (hrst : seg.rst = false)
    (hst : t.state = .established) (harr : Arrives cfg s e seg (conn t))
    (hack : t.sndvar.sndbuf = none ∨ s.state = .established ∧ AckReady cfg s e seg t)
    (r : TcpStream) (hr : r = if seg.ack then handleAck env seg (handlePayload cfg env seg t)
      else handlePayload cfg env seg t) :
    (r.state = .established ∧ Steps cfg s e (conn t) (conn r)) ∨
      (r.state = .closed ∧ r.closeReason = .noMem ∧
        Steps cfg s e (conn t) ((conn r).seenAs .established t.closeReason)) := by
  have hp : PayloadOutcome cfg s e t _ := handlePayload_outcome env seg t he hrst (.inl hst) harr
  generalize handlePayload cfg env seg t = u at hp hr
  have hready : SameSend (conn u) (conn t) → (u.state = .established ∨ u.state = .closed) →
      u.sndvar.sndbuf = none ∨ s.state = .established ∧ AckReady cfg s e seg u := by
    intro hsame hus
    rcases hack with hnone | ⟨hs, h⟩
    · exact .inl (hsame.sndbuf.trans hnone)
    · have hx : effectiveAck seg u = effectiveAck seg t := by
        unfold effectiveAck
        rcases hus with hus | hus <;> simp [hus, hst]
      exact .inr ⟨hs, h.event, h.rst, h.valid, h.late, h.active, h.found, hx.trans h.ackSeq,
        hsame.trans h.send, hp.dups.trans h.dups⟩
  have hackSteps : (u.sndvar.sndbuf = none ∨ s.state = .established ∧ AckReady cfg s e seg u) →
      r.state = u.state ∧ r.closeReason = u.closeReason ∧ ∀ reason,
        Steps cfg s e ((conn u).seenAs .established reason)
          ((conn r).seenAs .established reason) := by
    intro h
    have hsame : r = u → r.state = u.state ∧ r.closeReason = u.closeReason ∧ ∀ reason,
        Steps cfg s e ((conn u).seenAs .established reason)
          ((conn r).seenAs .established reason) := by
      rintro rfl
      exact ⟨rfl, rfl, fun _ => Reaches.refl _⟩
    split at hr
    · rcases h with hnone | ⟨hs, hr'⟩
      · exact hsame (hr.trans (handleAck_of_none env seg u hnone))
      · have ho := handleAck_outcome env seg u hr'
        rw [← hr] at ho
        exact ⟨congrArg Conn.state ho.frame, congrArg Conn.reason ho.frame, hs ▸ ho.steps⟩
    · exact hsame hr
  rcases hp.result with ⟨hrecv, hsteps⟩ | hmem
  · have hus : u.state = .established := (congrArg Conn.state hrecv).trans hst
    obtain ⟨h1, h2, h3⟩ := hackSteps (hready hrecv.sameSend (.inl hus))
    refine .inl ⟨h1.trans hus, hsteps.trans ?_⟩
    have h := h3 u.closeReason
    rw [← hus, seenAs_self] at h
    rw [← h1, ← h2, seenAs_self] at h
    exact h
  · have hus : u.state = .closed := congrArg Conn.state hmem
    have hur : u.closeReason = .noMem := congrArg Conn.reason hmem
    have hsame : SameSend (conn u) (conn t) := by
      rw [hmem]
      exact ⟨rfl, rfl, rfl, rfl, rfl, rfl, rfl, rfl, rfl⟩
    obtain ⟨h1, h2, h3⟩ := hackSteps (hready hsame (.inr hus))
    refine .inr ⟨h1.trans hus, h2.trans hur, ?_⟩
    have h := h3 t.closeReason
    rw [hmem] at h
    rw [← hst] at h ⊢
    exact h

theorem handleEstablished_steps (he : e.2 = .rx seg) (hrst : seg.rst = false)
    (hst : t.state = .established) (harr : seg.syn = false → Arrives cfg s e seg (conn t))
    (hack : t.sndvar.sndbuf = none ∨ s.state = .established ∧ AckReady cfg s e seg t)
    (hjump : seg.syn → t.sndNxt = seg.ackSeq ∨ Cause cfg s e (conn t) (.jump seg.ackSeq)) :
    Steps cfg s e (conn t) (conn (handleEstablished cfg env seg t)) := by
  unfold handleEstablished
  split
  · next hsyn =>
    have hset : Steps cfg s e (conn t) { conn t with sndNxt := seg.ackSeq } := by
      rcases hjump hsyn with heq | hc
      · rw [← heq]
        exact .refl _
      · exact .single (.jump seg.ackSeq) hst hc rfl
    refine hset.trans (control_steps { t with sndNxt := seg.ackSeq } ?_)
    simp [hst]
  · next hsyn =>
    have harr' := harr (eq_false_of_ne_true hsyn)
    dsimp only
    generalize hr : (if seg.ack then handleAck env seg (handlePayload cfg env seg t)
      else handlePayload cfg env seg t) = r
    rcases established_outcome env seg t he hrst hst harr' hack r hr.symm
      with ⟨hrs, hsteps⟩ | ⟨hrs, hrr, hsteps⟩
    · split
      · next hfin =>
        split
        · next hseq =>
          have hf : Steps cfg s e (conn r) _ :=
            peerFin_steps .closeWait he hrst hfin hseq (.inl ⟨hrs, rfl⟩)
          refine hsteps.trans (hf.trans ?_)
          rw [conn_raiseEvent]
          exact control_steps { r.log (.consumeFin (seg.seq + seg.payloadlen) r.received) with
            state := .closeWait, rcvNxt := r.rcvNxt + 1 } (by simp)
        · rw [conn_enqueueACK]
          exact hsteps
      · exact hsteps
    · have hshut : Steps cfg s e (conn t) (conn r) := by
        have h := hsteps.trans (shut_steps _ .noMem (by decide))
        rw [← hrr, ← hrs] at h
        exact h
      split
      · next hfin =>
        split
        · next hseq =>
          have hf : Steps cfg s e ((conn r).seenAs .established t.closeReason) _ :=
            peerFin_steps .closeWait he hrst hfin hseq (.inl ⟨rfl, rfl⟩)
          refine hsteps.trans (hf.trans ((blame_steps _ .noMem (by decide) (by decide)).trans ?_))
          rw [conn_raiseEvent, ← hrr]
          exact control_steps { r.log (.consumeFin (seg.seq + seg.payloadlen) r.received) with
            state := .closeWait, rcvNxt := r.rcvNxt + 1 } (by simp)
        · rw [conn_enqueueACK]
          exact hshut
      · exact hshut

theorem AckOutcome.plainSteps {seg : Segment} {t r : TcpStream}
    (h : AckOutcome cfg s e seg t r) (hst : s.state = t.state) :
    Steps cfg s e (conn t) (conn r) := by
  have hs := h.steps t.closeReason
  rw [hst, seenAs_self] at hs
  have h1 : r.state = t.state := congrArg Conn.state h.frame
  have h2 : r.closeReason = t.closeReason := congrArg Conn.reason h.frame
  rw [← h1, ← h2, seenAs_self] at hs
  exact hs

theorem handleCloseWait_steps (hst : t.state = .closeWait) (hs : s.state = t.state)
    (hack : AckReady cfg s e seg t) :
    Steps cfg s e (conn t) (conn (handleCloseWait env seg t)) := by
  unfold handleCloseWait
  split
  · exact control_steps t (by simp [hst])
  · exact (handleAck_outcome env seg t hack).plainSteps hs

def FinAckCause (cfg : Config) (s : TcpStream) (e : Env × Action) (v : Conn) : Prop :=
  ∃ seg, e.2 = .rx seg ∧ seg.rst = false ∧ seg.ack = true ∧ seg.ackSeq = v.fss + 1 ∧
    validated cfg e.1 seg s = true ∧ s.state = v.state ∧ (v.fault = none → AckDone s seg v)

theorem AckOutcome.finAck {seg : Segment} {t r : TcpStream} (ho : AckOutcome cfg s e seg t r)
    (h : AckReady cfg s e seg t) (hs : s.state = t.state) (hack : seg.ack)
    (hseq : seg.ackSeq = r.sndvar.fss + 1) : FinAckCause cfg s e (conn r) := by
  refine ⟨seg, h.event, h.rst, hack, hseq, h.valid, hs.trans ?_, ho.done⟩
  exact (congrArg Conn.state ho.frame).symm

theorem handleLastAck_steps (hst : t.state = .lastAck) (hs : s.state = t.state)
    (hready : AckReady cfg s e seg t) :
    Steps cfg s e (conn t) (conn (handleLastAck cfg env seg t)) := by
  unfold handleLastAck
  split
  · exact .refl _
  · split
    · next hack =>
      have ho := handleAck_outcome env seg t hready
      generalize handleAck env seg t = u at ho ⊢
      have hus : u.state = .lastAck := (congrArg Conn.state ho.frame).trans hst
      refine (ho.plainSteps hs).trans ?_
      dsimp only
      split
      · exact .refl _
      · next hfin =>
        split
        · next hseq =>
          have hsent : u.sndvar.isFinSent := by simpa using hfin
          obtain ⟨fault, hf, hc⟩ := conn_restartTimer env
            { u with sndvar.sndUna := u.sndvar.sndUna + 1 }
          generalize updateRetransmissionTimer env _ = w at hc ⊢
          have hmove : Steps cfg s e (conn u) (Move.apply (conn u) .lastAcked) :=
            Reaches.single .lastAcked ⟨hus, hsent⟩ (ho.finAck hready hs hack hseq) rfl
          refine hmove.trans ((refault_steps _ hf).trans ?_)
          have hlast : conn { w with state := .closed, closeReason := .passiveClose } =
              { Move.apply (conn u) .lastAcked with fault := fault } := by
            change { conn w with state := .closed, reason := .passiveClose } = _
            rw [hc]
            rfl
          rw [← hlast]
          exact destroyTCPStream_steps _
        · exact control_steps u (by simp [hus])
    · exact control_steps t (by simp [hst])

end Mtcp
