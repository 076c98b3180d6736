import Mtcp.Absorbing
import Mtcp.Closing
import Mtcp.Stored

namespace Mtcp

open Serial SendBuffer RingBuffer Runs Option Bool

variable {cfg : Config}

/-! The lists a FIN waits on. -/

/-- Whether a stream exists and which of the lists of a send pass it is on. -/
structure Places where
  alive : Bool
  control : Bool
  waiting : Bool
  send : Bool
  ack : Bool

def places (s : TcpStream) : Places where
  alive := s.onHashTable
  control := s.sndvar.onControlList
  waiting := s.controlListWaiting
  send := s.sndvar.onSendList
  ack := s.sndvar.onAckList

structure KeepsPlaces (s t : TcpStream) : Prop where
  control : s.sndvar.onControlList = true → t.sndvar.onControlList = true
  waiting : s.controlListWaiting = true → t.controlListWaiting = true
  send : s.sndvar.onSendList = true → t.sndvar.onSendList = true
  ack : s.sndvar.onAckList = true → t.sndvar.onAckList = true

def Stays (s t : TcpStream) : Prop := t.onHashTable = true → s.onHashTable = true ∧ KeepsPlaces s t

namespace Stays

variable {s t u : TcpStream}

theorem of_eq (h : places t = places s) : Stays s t := by
  intro ht
  refine ⟨(congrArg Places.alive h).symm.trans ht, ?_, ?_, ?_, ?_⟩
  · exact (congrArg Places.control h).trans
  · exact (congrArg Places.waiting h).trans
  · exact (congrArg Places.send h).trans
  · exact (congrArg Places.ack h).trans

theorem refl (s : TcpStream) : Stays s s := .of_eq rfl

theorem after (h' : Stays t u) (h : Stays s t) : Stays s u := by
  intro hu
  obtain ⟨ht, h'⟩ := h' hu
  obtain ⟨hs, h⟩ := h ht
  exact ⟨hs, fun hc => h'.control (h.control hc), fun hw => h'.waiting (h.waiting hw),
    fun hl => h'.send (h.send hl), fun ha => h'.ack (h.ack ha)⟩

theorem congr (h : Stays s t) (hu : places u = places t) : Stays s u := (of_eq hu).after h

theorem ite {c : Prop} [Decidable c] (h : Stays s t) (h' : Stays s u) :
    Stays s (if c then t else u) := by
  split
  · exact h
  · exact h'

theorem dead (h : t.onHashTable = false) : Stays s t := by
  intro ht
  rw [h] at ht
  cases ht

end Stays

/-- The kinds that take a stream off a list it was on. -/
def leaveKinds : List Change := [.off .control, .off .send, .off .ack, .unflag, .waiting]

theorem Path.stays {ks : List Change} {s t : TcpStream} (h : Path ks s t)
    (hks : ∀ k ∈ ks, k ∉ leaveKinds) : Stays s t := by
  refine h.rule Stays.refl (fun h h' => h'.after h) fun hk hstep => ?_
  have hout := hks _ hk
  cases hstep with
  | offControl | offSend | offAck | unflag | waiting => exact absurd (by decide) hout
  | onControl => exact fun ht => ⟨ht, fun _ => rfl, id, id, id⟩
  | onSend => exact fun ht => ⟨ht, id, id, fun _ => rfl, id⟩
  | onAck => exact fun ht => ⟨ht, id, id, id, fun _ => rfl⟩
  | destroy => exact .dead rfl
  | _ => exact .of_eq rfl

theorem addtoSendList_listed (s : TcpStream) (hf : (addtoSendList s).fault = none) :
    (addtoSendList s).sndvar.onSendList ∧
      (addtoSendList s).controlListWaiting = s.controlListWaiting := by
  have hconn := conn_addtoSendList s
  by_cases hnone : s.sndvar.sndbuf.isNone
  · rw [if_pos hnone] at hconn
    exact absurd ((congrArg Conn.fault hconn).symm.trans hf) (Conn.crash_fault _ _)
  · rw [if_neg hnone] at hconn
    exact ⟨congrArg Conn.sendList hconn, congrArg Conn.waiting hconn⟩

theorem raiseErrorOrDestroy_stays (s : TcpStream) : Stays s (raiseErrorOrDestroy cfg s) :=
  .ite (.of_eq rfl) (.dead rfl)

/-- A FIN not yet sent waits on the control list, or to be put there after the send and
acknowledgement lists. -/
def FinPending (t : TcpStream) : Prop :=
  t.sndvar.onControlList = true ∨
    t.controlListWaiting = true ∧ (t.sndvar.onSendList = true ∨ t.sndvar.onAckList = true)

theorem KeepsPlaces.pending {s t : TcpStream} (h : KeepsPlaces s t) (hs : FinPending s) :
    FinPending t := by
  obtain hc | ⟨hw, hl | ha⟩ := hs
  · exact .inl (h.control hc)
  · exact .inr ⟨h.waiting hw, .inl (h.send hl)⟩
  · exact .inr ⟨h.waiting hw, .inr (h.ack ha)⟩

theorem releaseControl_pending {blocked : Bool} {u : TcpStream}
    (hb : blocked → u.sndvar.onSendList ∨ u.sndvar.onAckList)
    (hu : u.sndvar.onControlList ∨ u.controlListWaiting) :
    FinPending (releaseControl blocked u) := by
  unfold releaseControl
  split
  · exact .inl (addtoControlList_control _)
  · next hnot =>
    obtain hc | hw := hu
    · exact .inl hc
    · cases blocked with
      | true => exact .inr ⟨hw, hb rfl⟩
      | false =>
        rw [hw] at hnot
        exact absurd rfl hnot

theorem FinPending.noted {s : TcpStream} (h : FinPending s) :
    s.sndvar.onControlList ∨ s.controlListWaiting := h.imp id And.left

section passes

variable {s : TcpStream} (env : Env)

theorem writeTCPControl_pending (hst : s.state = .finWait1 ∨ s.state = .lastAck)
    (hs : FinPending s) : FinPending (writeTCPControl cfg env s) ∨
      (writeTCPControl cfg env s).sndvar.isFinSent := by
  unfold writeTCPControl
  dsimp only
  split
  · generalize hu : { s.unlink .control with
      sndvar.onControlList := false } = u
    have hsend : sendControlPacket cfg env u =
        if u.sndvar.onSendList || u.sndvar.onAckList then (-1, u) else sendFin env u := by
      have hstate : u.state = s.state := by rw [← hu]; rfl
      unfold sendControlPacket
      obtain h | h := hst <;> rw [hstate, h]
    rw [hsend]
    split
    · exact .inl (.inl rfl)
    · unfold sendFin
      have hfin : ∀ h, (sendSegment env u { fin := true, ack := true } [] h).sndvar.isFinSent =
          true := by
        intro h
        have hc := congrArg Conn.finSent (conn_sendSegment env u { fin := true, ack := true } [] h)
        exact hc.trans (or_true _)
      have hcases := sendTCPPacket_cases env u { fin := true, ack := true } []
      generalize sendTCPPacket env u { fin := true, ack := true } [] = r at hcases ⊢
      obtain ⟨ret, w⟩ := r
      split
      · exact .inl (.inl rfl)
      · next hret =>
        obtain ⟨hneg, -⟩ | ⟨-, -, hlt, rfl⟩ := hcases
        · exact absurd hneg hret
        · exact .inr (hfin hlt)
  · exact .inl hs

theorem writeTCPData_pending (hs : FinPending s) :
    (writeTCPData env s).onHashTable → FinPending (writeTCPData env s) := by
  have hstays := (sendData_path env (s.unlink .send)).stays (by decide)
  unfold writeTCPData
  dsimp only
  generalize sendData env (s.unlink .send) = r at hstays ⊢
  obtain ⟨ret, w⟩ := r
  have hrelease : ∀ blocked u, (releaseControl blocked u).onHashTable = u.onHashTable :=
    fun blocked u => (releaseControl_path u blocked).view (·.onHashTable) fun hk hstep => by
      cases hstep <;> first | rfl | exact absurd hk (by decide)
  split_ifs
  · exact fun halive => (hstays halive).2.pending hs
  · intro halive
    rw [hrelease] at halive
    have hw : FinPending w := (hstays halive).2.pending hs
    exact releaseControl_pending .inr hw.noted
  · exact fun _ => hs

theorem writeTCPACK_pending (hs : FinPending s) : FinPending (writeTCPACK env s) := by
  have hsent : places (sendWack env (ackLoop env s.sndvar.ackCnt.toNat s)) = places s :=
    ((sendWack_path env _).after (ackLoop_path env s _)).view places fun hk hstep => by
      cases hstep <;> first | rfl | exact absurd hk (by decide)
  have hnoted := hs.noted
  unfold writeTCPACK
  split
  · dsimp only
    generalize sendWack env (ackLoop env s.sndvar.ackCnt.toNat s) = u at hsent ⊢
    refine releaseControl_pending .inl ?_
    have hu : u.sndvar.onControlList ∨ u.controlListWaiting :=
      hnoted.imp (congrArg Places.control hsent).trans (congrArg Places.waiting hsent).trans
    split_ifs
    · exact hu
    · exact hu
    · exact hnoted
  · exact hs

end passes

/-! A received segment. -/

section input

variable {s : TcpStream} (env : Env) (seg : Segment)

theorem noteAck_ackList (buf : TcpSendBuffer) (x : UInt32) (s : TcpStream) :
    (noteAck seg buf x s).sndvar.onAckList = s.sndvar.onAckList :=
  (noteAck_path seg s buf x).view (·.sndvar.onAckList) fun hk hstep => by
    cases hstep <;> first | rfl | exact absurd hk (by decide)

/-- Only an acknowledgement beyond `snd_nxt` takes a stream with nothing to send off the send
list. -/
theorem noteAck_stays {buf : TcpSendBuffer} {x : UInt32} (hbuf : s.sndvar.sndbuf = some buf)
    (hx : ¬ (gt x s.sndNxt ∧ buf.len = 0)) : Stays s (noteAck seg buf x s) := by
  obtain ⟨-, hnote⟩ := conn_noteAck_eq seg buf x s hbuf
  have hack := noteAck_ackList seg buf x s
  generalize noteAck seg buf x s = t at hnote hack ⊢
  have halive : t.onHashTable = s.onHashTable := congrArg Conn.alive hnote
  have hcontrol : t.sndvar.onControlList = s.sndvar.onControlList := congrArg Conn.control hnote
  have hwait : t.controlListWaiting = s.controlListWaiting := congrArg Conn.waiting hnote
  have hsend : t.sndvar.onSendList = if retransmits seg x s then true else
      if gt x s.sndNxt ∧ buf.len = 0 then false else s.sndvar.onSendList :=
    congrArg Conn.sendList hnote
  rw [if_neg hx] at hsend
  intro ht
  refine ⟨halive.symm.trans ht, hcontrol.trans, hwait.trans, fun hl => ?_, hack.trans⟩
  rw [hsend, hl, ite_self]

theorem handleAck_stays (hnext : ∀ buf, s.sndvar.sndbuf = some buf → buf.len = 0 →
    s.sndNxt = buf.headSeq) : Stays s (handleAck env seg s) := by
  unfold handleAck processACK
  cases hbuf : s.sndvar.sndbuf with
  | none => exact .refl s
  | some buf =>
    dsimp only
    split
    · split
      · exact .refl s
      · next hgt =>
        have hx : ¬ (gt (effectiveAck seg s) s.sndNxt ∧ buf.len = 0) := by
          rintro ⟨hbeyond, hempty⟩
          rw [hempty, show UInt32.ofNat 0 = 0 from rfl, UInt32.add_zero] at hgt
          exact hgt (hnext buf hbuf hempty ▸ hbeyond)
        have hnote := noteAck_stays seg hbuf hx
        split
        · exact hnote
        · exact ((removeAcked_path env _ buf _).stays (by decide)).after hnote
    · exact .refl s

theorem ackOfFin_stays (s : TcpStream) : Stays s (ackOfFin seg s) := by
  unfold ackOfFin
  split
  · refine Stays.congr (s := s) (.refl s) ?_
    exact (removeFromRTOList_path _).view places fun hk hstep => by
      cases hstep <;> first | rfl | exact absurd hk (by decide)
  · exact .refl s

theorem handleFinWait1_stays (hnext : ∀ buf, s.sndvar.sndbuf = some buf → buf.len = 0 →
    s.sndNxt = buf.headSeq) : Stays s (handleFinWait1 cfg env seg s) := by
  unfold handleFinWait1
  split_ifs
  · exact (addtoControlList_path s).stays (by decide)
  · exact ((finAfterClose_path cfg env seg _).stays (by decide)).after
      (((handlePayload_path cfg env seg _).stays (by decide)).after
        ((ackOfFin_stays seg _).after (handleAck_stays env seg hnext)))
  · exact .refl s

theorem handleLastAck_stays (hnext : ∀ buf, s.sndvar.sndbuf = some buf → buf.len = 0 →
    s.sndNxt = buf.headSeq) : Stays s (handleLastAck cfg env seg s) := by
  have hack := handleAck_stays env seg hnext
  unfold handleLastAck
  dsimp only
  split_ifs
  · exact .refl s
  · exact hack
  · exact .dead rfl
  · exact ((addtoControlList_path _).stays (by decide)).after hack
  · exact (addtoControlList_path s).stays (by decide)

section

variable (hst : s.state = .finWait1 ∨ s.state = .lastAck)

include hst

theorem processRST_dead : (processRST cfg seg s).onHashTable = false := by
  unfold processRST
  obtain h | h := hst <;> rw [h] <;> rfl

theorem processValidated_stays
    (hnext : ∀ buf, s.sndvar.sndbuf = some buf → buf.len = 0 → s.sndNxt = buf.headSeq) :
    Stays s (processValidated cfg env seg s) := by
  have hconn : conn (arrived env seg s) = conn s := conn_updateTimeoutList _
  have harrive : Stays s (arrived env seg s) := (arrive_path env seg s).stays (by decide)
  rw [processValidated_arrived]
  generalize arrived env seg s = u at hconn harrive ⊢
  have hstate : u.state = s.state := congrArg Conn.state hconn
  have hbuf : u.sndvar.sndbuf = s.sndvar.sndbuf := congrArg Conn.sndbuf hconn
  have hnxt : u.sndNxt = s.sndNxt := congrArg Conn.sndNxt hconn
  have hready : ∀ buf, u.sndvar.sndbuf = some buf → buf.len = 0 → u.sndNxt = buf.headSeq := by
    intro buf hb hl
    rw [hnxt]
    exact hnext buf (hbuf ▸ hb) hl
  split
  · have hlate : TcpState.synSent < u.state := by
      rw [hstate]
      obtain h | h := hst <;> rw [h] <;> decide
    rw [if_pos hlate]
    exact .dead (processRST_dead seg (hstate ▸ hst))
  · refine Stays.after ?_ harrive
    unfold dispatch
    obtain h | h := hst
    · rw [hstate, h]
      exact handleFinWait1_stays env seg hready
    · rw [hstate, h]
      exact handleLastAck_stays env seg hready

theorem processTCPPacket_stays
    (hnext : ∀ buf, s.sndvar.sndbuf = some buf → buf.len = 0 → s.sndNxt = buf.headSeq) :
    Stays s (processTCPPacket cfg env seg s) := by
  obtain ⟨-, -, heq⟩ | ⟨upd, recent, echo, -, heq⟩ := processTCPPacket_cases env seg s cfg
  · rw [heq]
    exact (validateSequence_path cfg env seg s).stays (by decide)
  · rw [heq]
    have hstamp : Stays s (restamped upd recent echo s) :=
      (Path.of_step (.stamps upd recent echo) (List.mem_singleton_self _)).stays (by decide)
    refine Stays.after ?_ hstamp
    exact processValidated_stays env seg hst hnext

end

end input

/-! The timers and the queues. -/

section calls

variable {s : TcpStream} (env : Env)

theorem retransmit_pending (hst : s.state = .finWait1 ∨ s.state = .lastAck)
    (hf : (retransmit s).fault = none) : FinPending (retransmit s) := by
  have heq : retransmit s =
      if lt s.sndvar.sndUna s.sndvar.fss then
        addtoSendList { removeFromControlList { s with sndNxt := s.sndvar.sndUna } with
          controlListWaiting := true }
      else addtoControlList { s with sndNxt := s.sndvar.sndUna } := by
    unfold retransmit
    obtain h | h := hst
    · rw [h]
    · rw [h]
  rw [heq] at hf ⊢
  by_cases hlt : lt s.sndvar.sndUna s.sndvar.fss
  · rw [if_pos hlt] at hf ⊢
    obtain ⟨hsend, hwait⟩ := addtoSendList_listed _ hf
    exact .inr ⟨hwait, .inl hsend⟩
  · rw [if_neg hlt]
    exact .inl (addtoControlList_control _)

theorem checkRtmTimeout_pending (hst : s.state = .finWait1 ∨ s.state = .lastAck)
    (hs : FinPending s) (hf : (checkRtmTimeout cfg env s).fault = none)
    (hl : (checkRtmTimeout cfg env s).onHashTable) : FinPending (checkRtmTimeout cfg env s) := by
  unfold checkRtmTimeout at hf hl ⊢
  split_ifs at hf hl ⊢
  · generalize hu : { s with onRtoIdx := -1 }.unlink .rto = u at hf hl ⊢
    have hplaces : places u = places s := by rw [← hu]; rfl
    have hstate : u.state = s.state := by rw [← hu]; rfl
    have hkeep : Stays u (handleRTO cfg u) → FinPending (handleRTO cfg u) :=
      fun hstays => ((hstays.after (.of_eq hplaces)) hl).2.pending hs
    have hretry : retryOrGiveUp cfg (backOff u) = retransmit (backOff u) := by
      have hback : (backOff u).state = s.state := hstate
      unfold retryOrGiveUp
      obtain h | h := hst
      · rw [hback, h]
      · rw [hback, h]
    unfold handleRTO at hf hkeep ⊢
    split_ifs at hf hkeep ⊢
    · exact hkeep (.of_eq rfl)
    · exact hkeep (.refl u)
    · rw [hretry] at hf ⊢
      exact retransmit_pending (hstate ▸ hst) hf
    · refine hkeep ?_
      unfold exceedMaxRtx
      split
      · exact .dead rfl
      · exact (raiseErrorOrDestroy_stays _).after (.of_eq rfl)
  · exact hs

/-- Whatever the state before, a close that is taken up leaves the FIN on its way. -/
theorem handleClose_pending (s : TcpStream) : (handleClose cfg s).onHashTable →
    (handleClose cfg s).state ≠ .closed → FinPending (handleClose cfg s) := by
  unfold handleClose
  dsimp only
  generalize (if 0 < cfg.tcpTimeout then removeFromTimeoutList _ else _) = t
  have hbegin : (beginClose t).sndvar = t.sndvar := by
    unfold beginClose
    split <;> rfl
  split_ifs with hreset hcontrol hlists hopen
  · unfold destroyReset
    split
    · exact nofun
    · next hclosed => exact fun _ hne => absurd hne hclosed
  · exact fun _ _ => .inl hcontrol
  · intro _ _
    refine .inr ⟨rfl, ?_⟩
    rw [hbegin]
    exact or_eq_true_iff.mp hlists
  · exact fun _ _ => .inl (addtoControlList_control _)
  · exact fun _ hne => absurd hne hopen

theorem handleCloseInt_pending (s : TcpStream) : (handleCloseInt s).state ≠ .closed →
    FinPending (handleCloseInt s) := by
  unfold handleCloseInt
  dsimp only
  split_ifs with hcontrol hopen
  · exact fun _ => .inl hcontrol
  · exact fun _ => .inl (addtoControlList_control _)
  · exact fun hne => absurd hne hopen

theorem dequeue_close_pending {a : Action} (s : TcpStream)
    (ha : a = .dequeue .closeq ∨ a = .dequeue .closeqInt) : act cfg env s a = s ∨
      ((act cfg env s a).onHashTable → (act cfg env s a).state ≠ .closed →
        FinPending (act cfg env s a)) := by
  obtain rfl | rfl := ha
  · unfold act dequeue
    dsimp only
    split
    · exact .inl rfl
    · exact .inr (handleClose_pending _)
  · unfold act dequeue
    dsimp only
    split
    · exact .inl rfl
    · exact .inr fun _ => handleCloseInt_pending _

theorem handleReset_stays (s : TcpStream) : Stays s (handleReset cfg s) := by
  have hleave : Stays s (if 0 < cfg.tcpTimeout then
      removeFromTimeoutList { s with sndvar.onResetq := false }
      else { s with sndvar.onResetq := false }) :=
    .ite (((removeFromTimeoutList_path _).stays (by decide)).after (.of_eq rfl)) (.of_eq rfl)
  unfold handleReset
  dsimp only
  generalize (if 0 < cfg.tcpTimeout then removeFromTimeoutList _ else _) = t at hleave ⊢
  split_ifs
  · unfold destroyReset
    split
    · exact .dead rfl
    · exact hleave
  · exact hleave.congr rfl
  · exact ((sendRST_path t).stays (by decide)).after hleave

theorem dequeue_stays (q : StreamList) (hq : q ≠ .closeq ∧ q ≠ .closeqInt) (s : TcpStream) :
    Stays s (dequeue cfg q s) := by
  unfold dequeue
  split
  · exact .refl s
  · have hunlink : Stays s (s.unlink q) := .of_eq rfl
    split
    · exact ((addtoControlList_path _).stays (by decide)).after hunlink
    · exact ((addtoSendList_path _).stays (by decide)).after (.of_eq rfl)
    · exact ((enqueueACK_path _ _).stays (by decide)).after (.of_eq rfl)
    · exact absurd rfl hq.1
    · exact absurd rfl hq.2
    · exact (handleReset_stays _).after hunlink
    · exact ((handleResetInt_path _).stays (by decide)).after hunlink
    · exact .dead rfl
    · exact .of_eq rfl

theorem act_pending {a : Action} (hst : s.state = .finWait1 ∨ s.state = .lastAck)
    (hnext : ∀ buf, s.sndvar.sndbuf = some buf → buf.len = 0 → s.sndNxt = buf.headSeq)
    (hs : FinPending s) (hf : (act cfg env s a).fault = none) (hl : (act cfg env s a).onHashTable)
    (hfin : (act cfg env s a).sndvar.isFinSent = false)
    (ha : a ≠ .dequeue .closeq ∧ a ≠ .dequeue .closeqInt) : FinPending (act cfg env s a) := by
  have hkeep : Stays s (act cfg env s a) → FinPending (act cfg env s a) :=
    fun hstays => (hstays hl).2.pending hs
  cases a with
  | rx seg => exact hkeep (.ite (processTCPPacket_stays env seg hst hnext) (.refl s))
  | rtm => exact checkRtmTimeout_pending env hst hs hf hl
  | rearrange => exact hkeep ((rearrangeRTOStore_path env s).stays (by decide))
  | timewait =>
    refine hkeep ?_
    exact .ite (.dead rfl) (.refl s)
  | timeout =>
    refine hkeep (.ite ?_ (.refl s))
    exact .ite ((raiseErrorOrDestroy_stays _).after (.of_eq rfl)) (.refl s)
  | dequeue q =>
    refine hkeep (dequeue_stays q ⟨?_, ?_⟩ s)
    · rintro rfl
      exact ha.1 rfl
    · rintro rfl
      exact ha.2 rfl
  | controlPass room =>
    unfold act at hfin ⊢
    dsimp only at hfin ⊢
    split_ifs at hfin ⊢
    · have hcases := @writeTCPControl_pending cfg { s with txRoom := room } env hst hs
      refine hcases.resolve_right ?_
      rw [hfin]
      decide
    · exact hs
  | dataPass room =>
    unfold act at hl ⊢
    dsimp only at hl ⊢
    split_ifs at hl ⊢
    · exact writeTCPData_pending env hs hl
    · exact hs
  | ackPass room =>
    unfold act
    dsimp only
    split
    · exact writeTCPACK_pending env hs
    · exact hs
  | accept sock => exact hkeep (.ite ((mtcpAccept_path s sock).stays (by decide)) (.refl s))
  | write bytes =>
    exact hkeep (.ite ((mtcpWrite_path cfg env s bytes).stays (by decide)) (.refl s))
  | recv nonblock peek len =>
    exact hkeep (.ite ((mtcpRecv_path s nonblock peek len).stays (by decide)) (.refl s))
  | close => exact hkeep (.ite ((mtcpClose_path s).stays (by decide)) (.refl s))
  | abort => exact hkeep (.ite ((mtcpAbort_path s).stays (by decide)) (.refl s))

end calls

/-! The order of the sequence numbers. -/

/-- `snd_una <= snd_nxt <= head_seq + len`, as long as the FIN does not take `snd_nxt` past the
buffered bytes. -/
def sendOrdered (s : TcpStream) : Bool := s.sndvar.isFinSent || inOrder s

def Conn.SendOrdered (v : Conn) : Prop :=
  v.finSent = false → ∀ buf, v.sndbuf = some buf → fwd v.sndUna v.sndNxt < 2147483648 ∧
    fwd v.sndNxt (buf.headSeq + UInt32.ofNat buf.len) < 2147483648

theorem sendOrdered_iff (s : TcpStream) : sendOrdered s ↔ (conn s).SendOrdered := by
  unfold sendOrdered inOrder Conn.SendOrdered
  change _ ↔ (s.sndvar.isFinSent = false → ∀ buf, s.sndvar.sndbuf = some buf → _)
  cases s.sndvar.sndbuf with
  | none => simp
  | some buf =>
    cases s.sndvar.isFinSent with
    | true => simp
    | false => simp [geq_iff, conn]

def Conn.Tight (v : Conn) : Prop :=
  v.finSent = false → ∀ buf, v.sndbuf = some buf → buf.len = 0 → v.sndUna = buf.headSeq

theorem Conn.Tight.next {v : Conn} (h : v.Tight) (ho : v.SendOrdered) (hfin : v.finSent = false)
    {buf : TcpSendBuffer} (hbuf : v.sndbuf = some buf) (hlen : buf.len = 0) :
    v.sndNxt = buf.headSeq := by
  obtain ⟨h1, h2⟩ := ho hfin buf hbuf
  rw [hlen, show UInt32.ofNat 0 = 0 from rfl, UInt32.add_zero] at h2
  rw [h hfin buf hbuf hlen] at h1
  have htrans := fwd_trans buf.headSeq v.sndNxt buf.headSeq
  rw [fwd_self] at htrans
  exact eq_of_fwd_eq_zero (by omega)

/-- Inside a step an acknowledgement may have moved `snd_una` half the sequence space ahead of an
empty buffer. -/
def Conn.Loose (v : Conn) : Prop :=
  v.finSent = false → ∀ buf, v.sndbuf = some buf → buf.len = 0 → v.sndUna = buf.headSeq ∨
    fwd buf.headSeq v.sndUna = 2147483648 ∧ (v.sndNxt = buf.headSeq ∨ v.sndNxt = v.sndUna)

theorem Conn.Tight.loose {v : Conn} (h : v.Tight) : v.Loose :=
  fun hfin buf hbuf hlen => .inl (h hfin buf hbuf hlen)

theorem Conn.Loose.tight {v : Conn} (h : v.Loose) (ho : v.SendOrdered) : v.Tight := by
  intro hfin buf hbuf hlen
  obtain huna | ⟨hfar, hnxt⟩ := h hfin buf hbuf hlen
  · exact huna
  · obtain ⟨h1, h2⟩ := ho hfin buf hbuf
    rw [hlen, show UInt32.ofNat 0 = 0 from rfl, UInt32.add_zero] at h2
    have htrans := fwd_trans buf.headSeq v.sndUna buf.headSeq
    have hlt := fwd_lt v.sndUna buf.headSeq
    rw [fwd_self, hfar] at htrans
    obtain hnxt | hnxt := hnxt
    · rw [hnxt] at h1
      omega
    · rw [hnxt] at h2
      omega

theorem Conn.Loose.keep {v w : Conn} (h : v.Loose) (hfin : w.finSent = false → v.finSent = false)
    (hbuf : w.sndbuf = v.sndbuf) (huna : w.sndUna = v.sndUna) (hnxt : w.sndNxt = v.sndNxt) :
    w.Loose := by
  intro hf buf hb hlen
  rw [huna, hnxt]
  exact h (hfin hf) buf (hbuf ▸ hb) hlen

theorem Conn.Loose.apply {s : TcpStream} {e : Env × Action} {v : Conn} {m : Move}
    (hs : (conn s).Tight) (ho : (conn s).SendOrdered) (hrun : Running v) (hst : v.Stored cfg)
    (h : v.Loose) (hg : m.guard cfg v) (hm : m.calm ∨ m = .destroy)
    (hcause : Cause cfg s e v m) : (Move.apply v m).Loose := by
  have hearly : ∀ w : Conn, v.state.early → w.sndbuf = v.sndbuf → w.Loose := by
    intro w he hw _ buf hb
    rw [hw, hrun.shape.sndbuf he] at hb
    cases hb
  -- What the segment or the timeout finds is what the step started from.
  have hsame : SameSend v (conn s) → ∀ w : Conn, w.finSent = v.finSent → w.sndbuf = v.sndbuf →
      w.sndUna = v.sndUna → w.Loose := by
    intro hsend w hfin hbuf huna hf buf hb hlen
    rw [huna, hsend.sndUna]
    exact .inl (hs (by rw [← hsend.finSent, ← hfin, hf]) buf (by rw [← hsend.sndbuf, ← hbuf, hb])
      hlen)
  cases m with
  | crash | assertFail => obtain hm | hm := hm <;> cases hm
  | destroy => exact fun _ buf hb => by cases hb
  | bareAck | refused => exact hearly _ (state_of hg.1 rfl) rfl
  | synAck seq a => exact hearly _ (state_of hg.2.1 rfl) rfl
  | loneSyn | restart => exact hearly _ (state_of hg rfl) rfl
  | ackOfSyn => exact hearly _ (state_of hg.2 rfl) rfl
  | jump x =>
    obtain ⟨seg, -, -, -, -, -, -, hsend⟩ := hcause
    exact hsame hsend _ rfl rfl rfl
  | ack buf x fast =>
    obtain ⟨seg, -, -, -, -, -, -, hsend, -, -, -⟩ := hcause
    obtain ⟨hfin, -⟩ := acked_close v buf x fast
    change (v.acked buf x fast).Loose
    obtain ⟨-, hnoted⟩ | ⟨huna, ⟨rest, hrest, -, -, hhead, -, -⟩ | ⟨⟨hfar, hempty⟩, hrest⟩⟩ :=
      hst.acked_cases fast hg.1 hg.2.1
    · rw [hnoted]
      exact hsame hsend _ rfl rfl rfl
    · intro _ b hb _
      rw [hrest, some.injEq] at hb
      rw [huna, ← hb, hhead]
      exact .inl rfl
    · intro hf b hb _
      rw [hrest, some.injEq] at hb
      have hnext : v.sndNxt = buf.headSeq := by
        rw [hsend.sndNxt]
        exact hs.next ho (by rw [← hsend.finSent, ← hfin, hf]) (by rw [← hsend.sndbuf, hg.1]) hempty
      have hnxt : (v.acked buf x fast).sndNxt = v.ackedNxt x fast := by
        unfold Conn.acked
        split <;> rfl
      rw [huna, ← hb, hnxt]
      refine .inr ⟨hfar, ?_⟩
      unfold Conn.ackedNxt
      split_ifs
      · exact .inr rfl
      · exact .inr rfl
      · exact .inl hnext
  | finAcked | closingAcked | lastAcked =>
    intro hf
    rw [show (Move.apply v _).finSent = v.finSent from rfl, hg.2] at hf
    cases hf
  | retransmit =>
    obtain ⟨-, hbuf, hfin, -⟩ := retransmitted_frame v
    obtain ⟨huna, -⟩ := retransmitted_una v
    exact hsame hcause.2.2.2 _ hfin hbuf huna
  | emitSyn seg =>
    refine hearly _ ?_ rfl
    obtain ⟨h', -⟩ | ⟨h', -⟩ := hg.2.2.2.2.2.2
    · exact state_of h' rfl
    · exact state_of h' rfl
  | emitAck seg =>
    obtain ⟨⟨hsyn, hfin, -, -⟩, hpay, -⟩ := hg
    exact h.keep (fun hf => (or_eq_false_iff.mp hf).1) rfl rfl (emitted_empty hsyn hfin hpay)
  | emitRst seg =>
    obtain ⟨hsyn, hfin, -, -, hpay, -⟩ := hg
    exact h.keep (fun hf => (or_eq_false_iff.mp hf).1) rfl rfl (emitted_empty hsyn hfin hpay)
  | emitFin seg =>
    intro hf
    have hfin := (or_eq_false_iff.mp hf).2
    rw [hg.2.1] at hfin
    cases hfin
  | emitData buf seg =>
    obtain ⟨-, -, hbuf, hpos, -⟩ := hg
    intro _ b hb hlen
    change v.sndbuf = some b at hb
    rw [hbuf, some.injEq] at hb
    rw [← hb] at hlen
    omega
  | put buf bytes =>
    have hold : Wf buf := by
      obtain hbuf | ⟨-, junk, rfl⟩ := hg.2.2.1
      · exact (hst buf hbuf).1
      · exact wf_sbInit _ _ _
    obtain ⟨-, -, hlen, -⟩ := sbPut_spec hold hg.2.1 hg.2.2.2
    have hpos := List.length_pos_of_ne_nil hg.2.1
    intro _ b hb hempty
    rw [← some.inj hb] at hempty
    omega
  | _ => exact h

/-! The FIN is on its way. -/

structure Conn.Wanting (v : Conn) : Prop where
  state : v.state = .finWait1 ∨ v.state = .lastAck
  finSent : v.finSent = false
  reason : v.reason = .notClosed

theorem Conn.Wanting.congr {v w : Conn} (h : w.Wanting) (hst : w.state = v.state)
    (hfin : w.finSent = v.finSent) (hr : w.reason = v.reason) : v.Wanting :=
  ⟨hst ▸ h.state, hfin ▸ h.finSent, hr ▸ h.reason⟩

theorem Conn.Wanting.of_apply {v : Conn} {m : Move} (hg : m.guard cfg v)
    (hm : m.calm ∨ m = .destroy) (hne : m ≠ .beginClose) (h : (m.apply v).Wanting) : v.Wanting := by
  have hst := h.state
  rw [Move.apply_state] at hst
  cases m with
  | crash w => obtain hm | hm := hm <;> cases hm
  | beginClose => exact absurd rfl hne
  | shut r | reset | listen seq | refused | synAck seq a | loneSyn seq | ackOfSyn | finAcked
  | closingAcked | lastAcked => obtain hst | hst := hst <;> cases hst
  | blame r => exact absurd h.reason hg
  | peerFin seq dest =>
    obtain ⟨-, rfl⟩ | ⟨-, rfl⟩ | ⟨-, rfl⟩ | ⟨-, rfl⟩ := hg.2 <;>
      obtain hst | hst := hst <;> cases hst
  | ack buf x fast =>
    exact h.congr (Move.apply_state v (.ack buf x fast)) (acked_close v buf x fast).1
      (congrArg Conn.reason (v.acked_eq buf x fast) :)
  | retransmit =>
    exact h.congr (Move.apply_state v .retransmit) (retransmitted_frame v).2.2.1
      (congrArg Conn.reason v.retransmitted_eq :)
  | emitSyn seg | emitAck seg | emitFin seg | emitRst seg | emitData buf seg =>
    exact ⟨hst, (or_eq_false_iff.mp h.finSent).1, h.reason⟩
  | _ => exact h.congr rfl rfl rfl

theorem wanting_before {s : TcpStream} {e : Env × Action} (hrun : Running (conn s))
    (hf : (step cfg s e).fault = none) (hl : (step cfg s e).onHashTable)
    (he : e.2 ≠ .dequeue .closeq ∧ e.2 ≠ .dequeue .closeqInt)
    (h : (conn (step cfg s e)).Wanting) : s.onHashTable ∧ (conn s).Wanting := by
  have hmove : ∀ v m, Running v →
      (v.alive → v.Wanting → s.onHashTable ∧ (conn s).Wanting) → m.guard cfg v →
      m.calm ∨ m = .destroy → Cause cfg s e v m → (m.apply v).alive →
      (m.apply v).Wanting → s.onHashTable ∧ (conn s).Wanting := by
    intro v m _ hv hg hm hcause hal happly
    refine hv (Move.alive_of_apply hg hal) (happly.of_apply hg hm ?_)
    rintro rfl
    obtain ⟨hclose | hclose, -⟩ := hcause
    · exact he.1 hclose
    · exact he.2 hclose
  obtain ⟨-, hwant⟩ := (step_path s e fun _ => hrun.shape).running hmove hrun.shape
    (fun hal hw => ⟨hal, hw⟩) hf
  exact hwant hl h

structure Awaited (cfg : Config) (s : TcpStream) : Prop where
  running : Running (conn s)
  stored : (conn s).Stored cfg
  tight : (conn s).SendOrdered → (conn s).Tight
  pending : s.onHashTable = true → (conn s).Wanting → FinPending s

section

variable {s : TcpStream} {e : Env × Action} (h : Awaited cfg s) (ho : sendOrdered s = true)
include h ho

theorem Awaited.tight_step (hf : (step cfg s e).fault = none) :
    Running (conn (step cfg s e)) ∧ (conn (step cfg s e)).Stored cfg ∧
      ((conn (step cfg s e)).SendOrdered → (conn (step cfg s e)).Tight) := by
  have hord := (sendOrdered_iff s).mp ho
  have hs := h.tight hord
  have hmove : ∀ v m, Running v → v.Stored cfg ∧ v.Loose → m.guard cfg v →
      m.calm ∨ m = .destroy → Cause cfg s e v m →
      (m.apply v).Stored cfg ∧ (m.apply v).Loose := by
    rintro v m hrun ⟨hst, hloose⟩ hg hm hcause
    exact ⟨hst.apply hg hm, hloose.apply hs hord hrun hst hg hm hcause⟩
  obtain ⟨hrun, hst, hloose⟩ := (step_path s e fun _ => h.running.shape).running hmove
    h.running.shape ⟨h.stored, hs.loose⟩ hf
  exact ⟨hrun, hst, hloose.tight⟩

theorem Awaited.pending_step (hf : (step cfg s e).fault = none)
    (hl : (step cfg s e).onHashTable) (hwant : (conn (step cfg s e)).Wanting) :
    FinPending (step cfg s e) := by
  have hopen : (step cfg s e).state ≠ .closed := by
    have hst : (step cfg s e).state = .finWait1 ∨ (step cfg s e).state = .lastAck := hwant.state
    obtain h' | h' := hst <;> rw [h'] <;> decide
  have hact : step cfg s e = act cfg e.1 s e.2 := by
    rw [step, show s.fault = none from h.running.fault]
    rfl
  by_cases hclose : e.2 = .dequeue .closeq ∨ e.2 = .dequeue .closeqInt
  · obtain hsame | hpending := @dequeue_close_pending cfg e.1 e.2 s hclose
    · rw [hact, hsame] at hl hwant ⊢
      exact h.pending hl hwant
    · rw [hact] at hl hopen ⊢
      exact hpending hl hopen
  · have hne := not_or.mp hclose
    obtain ⟨hal, hs⟩ := wanting_before h.running hf hl hne hwant
    have hord := (sendOrdered_iff s).mp ho
    have hnext : ∀ buf, s.sndvar.sndbuf = some buf → buf.len = 0 → s.sndNxt = buf.headSeq :=
      fun buf hb hlen => (h.tight hord).next hord hs.finSent hb hlen
    rw [hact] at hf hl hwant ⊢
    exact act_pending e.1 hs.state hnext (h.pending hal hs) hf hl hwant.finSent hne

theorem Awaited.step (hf : (Mtcp.step cfg s e).fault = none) : Awaited cfg (Mtcp.step cfg s e) := by
  obtain ⟨hrun, hst, htight⟩ := h.tight_step ho hf
  exact ⟨hrun, hst, htight, h.pending_step ho hf⟩

end

theorem Opened.awaited {s : TcpStream} (hs : Opened cfg s) (hf : s.fault = none) :
    Awaited cfg s := by
  have hst := hs.started hf
  have hearly : (conn s).state.early := by
    generalize conn s = v at hst
    cases hst with
    | active | passive => rfl
  have hbuf : (conn s).sndbuf = none := hst.shape.sndbuf hearly
  refine ⟨⟨hf, hst.shape⟩, stored_started hst, fun _ _ buf hb => ?_, fun _ hwant => ?_⟩
  · rw [hbuf] at hb
    cases hb
  · obtain h | h := hwant.state <;> rw [h] at hearly <;> cases hearly

/-- In a run in which `snd_una <= snd_nxt <= head_seq + len` holds until the FIN is sent, a stream
that has to send one is on the control list or waits to be put there. -/
theorem fin_never_forgotten (s : TcpStream) (es : List (Env × Action)) (hs : Opened cfg s)
    (ha : Along (step cfg) (fun s _ => sendOrdered s = true) s es)
    (hf : (run cfg s es).fault = none) (hl : (run cfg s es).onHashTable = true)
    (hst : (run cfg s es).state = .finWait1 ∨ (run cfg s es).state = .lastAck)
    (hfin : (run cfg s es).sndvar.isFinSent = false)
    (hreason : (run cfg s es).closeReason = .notClosed) :
    (run cfg s es).sndvar.onControlList = true ∨ (run cfg s es).controlListWaiting = true ∧
      ((run cfg s es).sndvar.onSendList = true ∨ (run cfg s es).sndvar.onAckList = true) := by
  have hstep : ∀ t e, (t.fault = none → Awaited cfg t) → sendOrdered t = true →
      (step cfg t e).fault = none → Awaited cfg (step cfg t e) := by
    intro t e ht ho hft
    have hbefore := (step_path t e fun h => (ht h).running.shape).fault_eq_none hft
    exact (ht hbefore).step ho hft
  have hinv : Awaited cfg (run cfg s es) := foldl_invariant hstep hs.awaited ha hf
  exact hinv.pending hl ⟨hst, hfin, hreason⟩

def closedWithData : List Action :=
  clientHandshake ++ [.write [1, 2, 3], .dequeue .sendq, .close, .dequeue .closeq]

theorem fin_never_forgotten_client :
    let t := run .small client (atRest closedWithData)
    t.state = .finWait1 ∧ (t.sndvar.onControlList = true ∨ t.controlListWaiting = true ∧
      (t.sndvar.onSendList = true ∨ t.sndvar.onAckList = true)) :=
  ⟨by decide, fin_never_forgotten client (atRest closedWithData) client_opened (by decide)
    (by decide) (by decide) (by decide) (by decide) (by decide)⟩

end Mtcp
