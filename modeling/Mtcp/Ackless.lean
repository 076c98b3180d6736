import Mtcp.Absorbing

namespace Mtcp

open Serial SendBuffer RingBuffer Bool

variable {cfg : Config}

/-! Segments without the ACK flag and the send side. -/

/-- What a peer acknowledges, and the timer for what it does not. -/
structure SendState where
  sndUna : UInt32
  sndNxt : UInt32
  sndbuf : Option TcpSendBuffer
  cwnd : UInt32
  ssthresh : UInt32
  dupAcks : UInt8
  onRtoIdx : Int
  tsRto : UInt32

def sendState (s : TcpStream) : SendState where
  sndUna := s.sndvar.sndUna
  sndNxt := s.sndNxt
  sndbuf := s.sndvar.sndbuf
  cwnd := s.sndvar.cwnd
  ssthresh := s.sndvar.ssthresh
  dupAcks := s.rcvvar.dupAcks
  onRtoIdx := s.onRtoIdx
  tsRto := s.sndvar.tsRto

/-- The states in which both sides have sent their SYN and ours is not over. -/
def TcpState.acknowledging : TcpState → Bool
  | .established | .closeWait | .finWait1 | .finWait2 | .closing | .lastAck => true
  | _ => false

/-- The duplicate test of `ProcessACK`, on the stream as the segment finds it. -/
def looksDuplicate (seg : Segment) (s : TcpStream) : Bool :=
  lt (effectiveAck seg s) s.sndNxt &&
    (effectiveAck seg s == s.rcvvar.lastAckSeq && seg.payload.length == 0) &&
    (effectiveAck seg s == s.rcvvar.sndWl2 || !(lt s.rcvvar.sndWl1 seg.seq ||
      (s.rcvvar.sndWl1 == seg.seq && lt s.rcvvar.sndWl2 (effectiveAck seg s))))

/-- `ProcessACK` has nothing to do: the number is beyond the buffer, or it is old, no
duplicate and not ahead of `snd_nxt`. -/
def idleAck (seg : Segment) (s : TcpStream) : Bool :=
  match s.sndvar.sndbuf with
  | none => true
  | some buf =>
    gt (effectiveAck seg s) (buf.headSeq + UInt32.ofNat buf.len) ||
      (geq buf.headSeq (effectiveAck seg s) && !gt (effectiveAck seg s) s.sndNxt &&
        s.rcvvar.dupAcks == 0 && !looksDuplicate seg s)

/-- Only a SYN in ESTABLISHED and anything in CLOSE_WAIT can use the acknowledgement number
of a segment without the flag. -/
def acklessIdle (cfg : Config) (env : Env) (seg : Segment) (s : TcpStream) : Bool :=
  seg.rst || !validated cfg env seg s ||
    match s.state with
    | .established => !seg.syn || seg.ackSeq == s.sndNxt
    | .closeWait => lt seg.seq s.rcvNxt || idleAck seg s
    | _ => true

/-- The send side is as it was, unless a RST has closed the stream. -/
def AcklessKept (cfg : Config) (env : Env) (seg : Segment) (s : TcpStream) : Prop :=
  sendState (processTCPPacket cfg env seg s) = sendState s ∨
    seg.rst = true ∧ (processTCPPacket cfg env seg s).state = .closed

/-- The buffer starts at `snd_una`, and a segment can hold something. -/
def SendSound (s : TcpStream) : Prop :=
  ∀ buf, s.sndvar.sndbuf = some buf → s.sndvar.sndUna = buf.headSeq ∧ s.sndvar.effMss ≠ 0

/-! What leaves the send side alone. -/

def sendSideKinds : List Change :=
  [.on .rto, .off .rto, .slot, .deadline, .sndNxt, .sndUna, .opening, .opened, .finAcked, .backOff,
    .congestion, .fast, .rtt, .dupAcks, .removed, .written, .destroy]

theorem Path.sendState {ks : List Change} {s t : TcpStream} (h : Path ks s t)
    (hks : ∀ k ∈ ks, k ∉ sendSideKinds) : sendState t = sendState s :=
  h.view Mtcp.sendState fun hk hstep => by
    have hout := hks _ hk
    cases hstep <;> first | rfl | exact absurd (by decide) hout

theorem Path.dupAcks {ks : List Change} {s t : TcpStream} (h : Path ks s t)
    (hks : .dupAcks ∉ ks) : t.rcvvar.dupAcks = s.rcvvar.dupAcks := by
  refine h.view (·.rcvvar.dupAcks) fun hk hstep => ?_
  cases hstep with
  | dupAcks n last => exact absurd hk hks
  | rtt mrtt rto =>
    dsimp only [estimateRTT]
    split_ifs <;> rfl
  | _ => rfl

variable (env : Env) (seg : Segment) (buf : TcpSendBuffer) (x : UInt32) (s : TcpStream)

theorem addtoControlList_sendState : sendState (addtoControlList s) = sendState s :=
  (addtoControlList_path s).sendState (by decide)

theorem enqueueACK_sendState (opt : AckOpt) : sendState (enqueueACK s opt) = sendState s :=
  (enqueueACK_path s opt).sendState (by decide)

theorem arrived_sendState : sendState (arrived env seg s) = sendState s :=
  (arrive_path env seg s).sendState (by decide)

theorem validateSequence_sendState (hs : s.state ≠ .timeWait) :
    sendState (validateSequence cfg env seg s).2 = sendState s := by
  have hts := (checkTimestamp_path env seg s).sendState (by decide)
  have hst := (checkTimestamp_path env seg s).state (by decide)
  unfold validateSequence
  generalize checkTimestamp env seg s = r at hts hst ⊢
  obtain ⟨ok, u⟩ := r
  cases ok with
  | false => exact hts
  | true =>
    dsimp only at hts hst ⊢
    unfold answerUnexpected
    rw [if_neg (hst ▸ hs : u.state ≠ .timeWait)]
    split_ifs
    · exact hts
    · exact hts
    iterate 3 exact (enqueueACK_sendState u _).trans hts
    · exact (addtoControlList_sendState u).trans hts

theorem handlePayload_sendState : sendState (handlePayload cfg env seg s) = sendState s :=
  (handlePayload_path cfg env seg s).sendState (by decide)

/-! `ProcessACK` on a segment whose window has been stored already. -/

theorem isDuplicate_updateWindow (hw : s.sndvar.peerWnd = segmentWindow seg s) :
    isDuplicate seg (effectiveAck seg s) (s.sndvar.peerWnd + s.rcvvar.sndWl2)
      (updateWindow seg (effectiveAck seg s) s) = looksDuplicate seg s := by
  unfold looksDuplicate
  generalize effectiveAck seg s = x
  have hsame : (s.rcvvar.sndWl2 == x &&
      decide (s.sndvar.peerWnd < segmentWindow seg s)) = false := by
    rw [hw]
    simp
  have hnxt : (updateWindow seg x s).sndNxt = s.sndNxt :=
    congrArg Conn.sndNxt (conn_updateWindow seg x s)
  have hlast := (updateWindow_dupAcks seg x s).2
  unfold isDuplicate
  rw [hnxt, hlast]
  congr 1
  unfold updateWindow
  dsimp only
  rw [hsame, Bool.or_false]
  cases hup : (lt s.rcvvar.sndWl1 seg.seq ||
      (s.rcvvar.sndWl1 == seg.seq && lt s.rcvvar.sndWl2 x)) with
  | true =>
    have hedge : (x + segmentWindow seg s == s.sndvar.peerWnd + s.rcvvar.sndWl2) =
        (x == s.rcvvar.sndWl2) := by
      rw [hw, UInt32.add_comm x, Bool.eq_iff_iff, beq_iff_eq, beq_iff_eq]
      exact UInt32.add_right_inj _
    rw [if_pos rfl, Bool.not_true, Bool.or_false]
    split_ifs <;> exact hedge
  | false =>
    rw [if_neg Bool.false_ne_true, Bool.not_false, Bool.or_true, UInt32.add_comm, beq_self_eq_true]

theorem recoverAfterLoss_sendState : sendState (recoverAfterLoss buf x s) =
      { sendState s with sndNxt := if gt x s.sndNxt then x else s.sndNxt } := by
  unfold recoverAfterLoss removeFromSendList
  dsimp only
  split_ifs <;> rfl

theorem noteAck_sendState (hw : s.sndvar.peerWnd = segmentWindow seg s)
    (hdup : looksDuplicate seg s = false) :
    sendState (noteAck seg buf (effectiveAck seg s) s) = { sendState s with
      dupAcks := 0
      sndNxt := if gt (effectiveAck seg s) s.sndNxt then effectiveAck seg s else s.sndNxt } := by
  unfold noteAck
  dsimp only
  rw [isDuplicate_updateWindow seg s hw, hdup, recoverAfterLoss_sendState]
  have hu := (updateWindow_path seg s (effectiveAck seg s)).sendState (by decide)
  generalize effectiveAck seg s = x at hu ⊢
  generalize updateWindow seg x s = u at hu ⊢
  have hcount : respondDupAcks false x (countDupAcks false x u) = countDupAcks false x u := rfl
  have hc : sendState (countDupAcks false x u) = { sendState u with dupAcks := 0 } := rfl
  rw [hcount, hc, hu, show (countDupAcks false x u).sndNxt = s.sndNxt from
    congrArg SendState.sndNxt hu]

theorem noteAck_dupAcks (hw : s.sndvar.peerWnd = segmentWindow seg s) :
    (noteAck seg buf (effectiveAck seg s) s).rcvvar.dupAcks =
      if looksDuplicate seg s then s.rcvvar.dupAcks + 1 else 0 := by
  unfold noteAck
  dsimp only
  rw [isDuplicate_updateWindow seg s hw, (recoverAfterLoss_path _ buf _).dupAcks (by decide),
    (respondDupAcks_path _ _ _).dupAcks (by decide)]
  unfold countDupAcks
  split
  · exact congrArg (· + 1) (updateWindow_dupAcks seg _ s).1
  · rfl

theorem removeAcked_sndUna (hmss : s.sndvar.effMss ≠ 0) :
    (removeAcked env buf x s).sndvar.sndUna = x := by
  obtain ⟨_, _, h⟩ := conn_removeAcked_of_mss env buf x s hmss
  exact congrArg Conn.sndUna h

theorem handleAck_idle (hw : s.sndvar.peerWnd = segmentWindow seg s) (hidle : idleAck seg s)
    : sendState (handleAck env seg s) = sendState s := by
  unfold handleAck processACK
  unfold idleAck at hidle
  cases hbuf : s.sndvar.sndbuf with
  | none => rfl
  | some buf =>
    rw [hbuf] at hidle
    simp only [Option.isSome_some, if_true]
    split
    · rfl
    · next hgt =>
      simp only [hgt, Bool.false_or, Bool.and_eq_true, Bool.not_eq_true', beq_iff_eq] at hidle
      obtain ⟨⟨⟨hold, hjump⟩, hcount⟩, hdup⟩ := hidle
      rw [if_pos hold, noteAck_sendState seg buf s hw hdup, hjump, ← hcount]
      rfl

theorem handleAck_busy (hw : s.sndvar.peerWnd = segmentWindow seg s) (hsound : SendSound s)
    (hbusy : idleAck seg s = false) : sendState (handleAck env seg s) ≠ sendState s := by
  intro hkept
  unfold handleAck processACK at hkept
  unfold idleAck at hbusy
  cases hbuf : s.sndvar.sndbuf with
  | none =>
    rw [hbuf] at hbusy
    cases hbusy
  | some buf =>
    obtain ⟨huna, hmss⟩ := hsound buf hbuf
    rw [hbuf] at hbusy hkept
    simp only [or_eq_false_iff] at hbusy
    obtain ⟨hin, hbusy⟩ := hbusy
    simp only [Option.isSome_some, if_true, hin, false_eq_true, if_false] at hkept
    have hnote := noteAck_dupAcks seg buf s hw
    have hcount : s.rcvvar.dupAcks = if looksDuplicate seg s then s.rcvvar.dupAcks + 1 else 0 := by
      rw [← hnote]
      refine (congrArg SendState.dupAcks hkept).symm.trans ?_
      split
      · rfl
      · exact (removeAcked_path env _ buf _).dupAcks (by decide)
    have hdup : looksDuplicate seg s = false := by
      by_contra h
      rw [not_eq_false] at h
      rw [h, if_pos rfl] at hcount
      have hone := congrArg (· - s.rcvvar.dupAcks) hcount
      simp only [UInt8.sub_self, UInt8.add_comm _ 1, UInt8.add_sub_cancel] at hone
      exact absurd hone (by decide)
    rw [hdup, if_neg Bool.false_ne_true] at hcount
    have hsend := noteAck_sendState seg buf s hw hdup
    split at hkept
    · next hold =>
      -- an old number, no duplicate: only the jump is left
      have hjump : gt (effectiveAck seg s) s.sndNxt := by
        simpa [hold, hcount, hdup] using hbusy
      have hnxt := congrArg SendState.sndNxt (hsend.symm.trans hkept)
      rw [hjump] at hnxt
      change effectiveAck seg s = s.sndNxt at hnxt
      rw [hnxt] at hjump
      exact absurd hjump (by rw [(not_gt_iff _ _).mpr (.inl (fwd_self _))]; decide)
    · next hnew =>
      -- new data: the buffer starts at the number, so `snd_una` was not there before
      have hmss' : (noteAck seg buf (effectiveAck seg s) s).sndvar.effMss ≠ 0 := by
        rw [noteAck_effMss]
        exact hmss
      have hx := removeAcked_sndUna env buf (effectiveAck seg s) _ hmss'
      have hhead : effectiveAck seg s = buf.headSeq :=
        (hx.symm.trans (congrArg SendState.sndUna hkept)).trans huna
      rw [hhead, (geq_iff _ _).mpr (by rw [fwd_self]; decide)] at hnew
      exact hnew rfl

/-! The six states. -/

theorem acknowledging_late {st : TcpState} (h : st.acknowledging) :
    .synRcvd < st ∧ .synSent < st ∧ st ≠ .timeWait := by
  revert h
  cases st <;> decide

theorem arrived_peerWnd :
    (arrived env seg s).sndvar.peerWnd = segmentWindow seg (arrived env seg s) := by
  unfold arrived updateTimeoutList
  split <;> rfl

theorem arrived_idleAck : idleAck seg (arrived env seg s) = idleAck seg s := by
  unfold arrived updateTimeoutList
  split <;> rfl

theorem processRST_kept (hs : s.state.acknowledging) :
    sendState (processRST cfg seg s) = sendState s ∨ (processRST cfg seg s).state = .closed := by
  unfold processRST
  split
  · next h =>
    rw [h] at hs
    cases hs
  · exact .inr (destroyTCPStream_state _)
  · exact .inr (destroyTCPStream_state _)
  · exact .inr (destroyTCPStream_state _)
  · exact .inr (destroyTCPStream_state _)
  · exact .inr (destroyTCPStream_state _)
  · left
    split <;> rfl

theorem handleEstablished_ackless (hack : seg.ack = false) :
    sendState (handleEstablished cfg env seg s) =
      { sendState s with sndNxt := if seg.syn then seg.ackSeq else s.sndNxt } := by
  unfold handleEstablished
  rw [hack]
  cases seg.syn with
  | true => exact addtoControlList_sendState _
  | false =>
    have hp := @handlePayload_sendState cfg env seg s
    simp only [false_eq_true, if_false]
    generalize handlePayload cfg env seg s = u at hp ⊢
    split_ifs
    · exact (addtoControlList_sendState _).trans hp
    · exact (enqueueACK_sendState u _).trans hp
    · exact hp

theorem dispatch_ackless (hack : seg.ack = false) (hs : s.state.acknowledging) :
    (s.state = .established ∧ sendState (dispatch cfg env seg s) =
      { sendState s with sndNxt := if seg.syn then seg.ackSeq else s.sndNxt }) ∨
    (s.state = .closeWait ∧ sendState (dispatch cfg env seg s) =
      sendState (if lt seg.seq s.rcvNxt then s else handleAck env seg s)) ∨
    (s.state ≠ .established ∧ s.state ≠ .closeWait ∧
      sendState (dispatch cfg env seg s) = sendState s) := by
  unfold dispatch
  cases hst : s.state with
  | established => exact .inl ⟨rfl, handleEstablished_ackless env seg s hack⟩
  | closeWait =>
    refine .inr (.inl ⟨rfl, ?_⟩)
    dsimp only [handleCloseWait]
    split
    · exact addtoControlList_sendState s
    · rfl
  | finWait1 =>
    refine .inr (.inr ⟨by decide, by decide, ?_⟩)
    dsimp only [handleFinWait1]
    rw [hack]
    split
    · exact addtoControlList_sendState s
    · rfl
  | finWait2 =>
    refine .inr (.inr ⟨by decide, by decide, ?_⟩)
    dsimp only [handleFinWait2]
    rw [hack]
    rfl
  | closing =>
    refine .inr (.inr ⟨by decide, by decide, ?_⟩)
    dsimp only [handleClosing]
    rw [hack]
    rfl
  | lastAck =>
    refine .inr (.inr ⟨by decide, by decide, ?_⟩)
    dsimp only [handleLastAck]
    rw [hack]
    split
    · rfl
    · exact addtoControlList_sendState s
  | _ =>
    rw [hst] at hs
    cases hs

theorem processTCPPacket_ackless (hs : s.state.acknowledging) (hrst : seg.rst = false) :
    (validated cfg env seg s = false ∧ sendState (processTCPPacket cfg env seg s) = sendState s) ∨
    ∃ upd recent echo, validated cfg env seg s ∧ processTCPPacket cfg env seg s =
      dispatch cfg env seg (arrived env seg (restamped upd recent echo s)) := by
  obtain ⟨-, -, htw⟩ := acknowledging_late hs
  obtain ⟨-, hval, heq⟩ | ⟨upd, recent, echo, hval, heq⟩ := processTCPPacket_cases env seg s cfg
  · rw [heq]
    exact .inl ⟨hval, validateSequence_sendState env seg s htw⟩
  · exact .inr ⟨upd, recent, echo, hval, heq.trans (processValidated_eq env seg _ hrst)⟩

theorem rst_kept (hs : s.state.acknowledging) (hrst : seg.rst) : AcklessKept cfg env seg s := by
  obtain ⟨-, hsyn, htw⟩ := acknowledging_late hs
  unfold AcklessKept
  obtain ⟨-, -, heq⟩ | ⟨upd, recent, echo, -, heq⟩ := processTCPPacket_cases env seg s cfg
  · rw [heq]
    exact .inl (validateSequence_sendState env seg s htw)
  · have ha := state_of_conn (arrived_conn env seg (restamped upd recent echo s))
    have hkept := arrived_sendState env seg (restamped upd recent echo s)
    rw [heq, processValidated_arrived, if_pos hrst]
    generalize arrived env seg _ = u at ha hkept ⊢
    rw [if_pos (ha ▸ hsyn)]
    obtain h | h := @processRST_kept cfg seg { u with haveReset := true }
      ((congrArg TcpState.acknowledging ha).trans hs)
    · exact .inl (h.trans hkept)
    · exact .inr ⟨hrst, h⟩

/-- In the six states a segment without the ACK flag leaves the send side alone, unless it is
a SYN in ESTABLISHED whose number is not `snd_nxt`, or anything in CLOSE_WAIT with a number
`ProcessACK` can use; such a segment always changes it. -/
theorem ackless_keeps_send_state (hs : s.state.acknowledging = true) (hack : seg.ack = false) :
    (acklessIdle cfg env seg s = true → AcklessKept cfg env seg s) ∧
      (SendSound s → AcklessKept cfg env seg s → acklessIdle cfg env seg s = true) := by
  unfold acklessIdle
  cases hrst : seg.rst with
  | true => exact ⟨fun _ => rst_kept env seg s hs hrst, fun _ _ => rfl⟩
  | false =>
    have hno : ∀ st, ¬ (seg.rst = true ∧ st = TcpState.closed) := fun _ h => by
      rw [hrst] at h
      cases h.1
    obtain ⟨hval, hkept⟩ | ⟨upd, recent, echo, hval, hproc⟩ :=
      @processTCPPacket_ackless cfg env seg s hs hrst
    · rw [hval]
      exact ⟨fun _ => .inl hkept, fun _ _ => rfl⟩
    · rw [hval]
      unfold AcklessKept
      rw [hproc, or_iff_left (hno _)]
      generalize hu : restamped upd recent echo s = u
      have ha : conn (arrived env seg u) = conn s := (arrived_conn env seg u).trans (hu ▸ rfl)
      have hkept : sendState (arrived env seg u) = sendState s :=
        (arrived_sendState env seg u).trans (hu ▸ rfl)
      have hst : (arrived env seg u).state = s.state := state_of_conn ha
      have hnxt : (arrived env seg u).rcvNxt = s.rcvNxt := congrArg Conn.rcvNxt ha
      have hidle : idleAck seg (arrived env seg u) = idleAck seg s :=
        (arrived_idleAck env seg u).trans (hu ▸ rfl)
      have hw := arrived_peerWnd env seg u
      have hsound : SendSound s → SendSound (arrived env seg u) := by
        intro h buf hbuf
        have hb : s.sndvar.sndbuf = some buf := (congrArg SendState.sndbuf hkept).symm.trans hbuf
        have hm : (arrived env seg u).sndvar.effMss = s.sndvar.effMss := by
          subst hu
          unfold arrived updateTimeoutList
          split <;> rfl
        rw [show (arrived env seg u).sndvar.sndUna = s.sndvar.sndUna from
          congrArg SendState.sndUna hkept, hm]
        exact h buf hb
      generalize arrived env seg u = a at hkept hst hnxt hidle hw hsound ⊢
      rw [← hst, ← hkept]
      obtain ⟨h1, h2⟩ | ⟨h1, h2⟩ | ⟨h1, h2, h3⟩ :=
        @dispatch_ackless cfg env seg a hack (hst ▸ hs)
      · have hn : a.sndNxt = s.sndNxt := congrArg SendState.sndNxt hkept
        rw [h1, h2, ← hn]
        cases seg.syn with
        | false => exact ⟨fun _ => rfl, fun _ _ => rfl⟩
        | true =>
          constructor
          · intro h
            have hx : seg.ackSeq = a.sndNxt := by simpa using h
            rw [hx]
            rfl
          · intro _ h
            have hx : seg.ackSeq = a.sndNxt := congrArg SendState.sndNxt h
            simpa using hx
      · rw [h1, h2, ← hnxt, ← hidle]
        cases lt seg.seq a.rcvNxt with
        | true => exact ⟨fun _ => rfl, fun _ _ => rfl⟩
        | false =>
          refine ⟨fun h => handleAck_idle env seg a hw (by simpa using h), fun hs h => ?_⟩
          by_contra hbusy
          exact handleAck_busy env seg a hw (hsound hs) (by simpa using hbusy) h
      · rw [h3]
        refine ⟨fun _ => rfl, fun _ _ => ?_⟩
        split
        · next h => exact absurd h h1
        · next h => exact absurd h h2
        · rfl

theorem ackless_keeps_send_state_client :
    (run .small client (atRest clientHandshake)).state = .established ∧
      AcklessKept .small {} { seq := 501, ackSeq := 7, payload := [1, 2] }
        (run .small client (atRest clientHandshake)) :=
  ⟨by decide, (ackless_keeps_send_state {} _ _ (by decide) rfl).1 (by decide)⟩

/-- Without the flag, a SYN in ESTABLISHED moves `snd_nxt` and a segment in CLOSE_WAIT takes
three bytes out of the send buffer. -/
theorem ackless_segments_move_send_state :
    ¬ AcklessKept .small {} { seq := 501, ackSeq := 7, window := 1000, syn := true }
        (run .small client (atRest clientHandshake)) ∧
      ¬ AcklessKept .small {} { seq := 502, ackSeq := 104, window := 1000 }
        (run .small client (atRest (clientHandshake ++ [.write [1, 2, 3], .dequeue .sendq,
          .dataPass 1,
          .rx { seq := 501, ackSeq := 101, window := 1000, ack := true, fin := true }]))) := by
  constructor
  · rintro (h | ⟨h, _⟩)
    · exact absurd (congrArg SendState.sndNxt h) (by decide)
    · cases h
  · rintro (h | ⟨h, _⟩)
    · exact absurd (congrArg SendState.sndUna h) (by decide)
    · cases h

end Mtcp
