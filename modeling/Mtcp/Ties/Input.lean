import Mtcp.Ties.Lists

namespace Mtcp

open Serial SendBuffer RingBuffer Options

variable {cfg : Config}

/-! `tcp_in.c`. -/

section input

variable (env : Env) (seg : Segment) (s : TcpStream)

theorem raiseErrorOrDestroy_ties :
    TiesUnless cfg (s.socket = none) s (raiseErrorOrDestroy cfg s) := by
  unfold raiseErrorOrDestroy
  split
  · exact SameTies.unless (.of_eq rfl)
  · next hnone =>
    exact .inr ⟨Option.not_isSome_iff_eq_none.mp hnone, destroyTCPStream_destroyed s⟩

theorem completeActiveOpen_ties :
    TiesUnless cfg (s.socket = none) s (completeActiveOpen cfg env seg s) := by
  unfold completeActiveOpen
  dsimp only
  have hopen : SameTies cfg s (handleActiveOpen env seg (s.log (.peerSyn seg.seq))) :=
    ((handleActiveOpen_path env seg _).ties (by decide)).after (.of_eq rfl)
  generalize handleActiveOpen env seg (s.log (.peerSyn seg.seq)) = u at hopen ⊢
  have hstop : SameTies cfg s (removeFromRTOList { u with
      sndvar.nrtx := 0, rcvNxt := u.rcvvar.irs + 1 }) :=
    ((removeFromRTOList_path _).ties (by decide)).after (hopen.congr rfl)
  generalize removeFromRTOList { u with
    sndvar.nrtx := 0, rcvNxt := u.rcvvar.irs + 1 } = v at hstop ⊢
  have hest : SameTies cfg s v.establish := hstop.congr rfl
  generalize v.establish = w at hest ⊢
  split
  · refine SameTies.unless
      ((addtoTimeoutList_ties _).after (((addtoControlList_path _).ties (by decide)).after ?_))
    exact hest.congr rfl
  · next hnone =>
    refine .inr ⟨?_, (destroyTCPStream_destroyed _).after (hest.congr rfl)⟩
    rw [← hest.socket]
    exact Option.not_isSome_iff_eq_none.mp hnone

/-- In SYN_SENT only an acceptable acknowledgement finds that the application has gone. -/
theorem handleSynSent_ties :
    TiesUnless cfg (s.socket = none ∧ seg.ack ∧ unacceptableAck seg s = false ∧
      (seg.rst || seg.syn)) s (handleSynSent cfg env seg s) := by
  unfold handleSynSent
  split
  · refine SameTies.unless (.ite (.refl s) ?_)
    exact .of_eq rfl
  · next hacc =>
    have hack : seg.ack → unacceptableAck seg s = false := by
      intro h
      simpa [h] using hacc
    have hu : SameTies cfg s
        (if seg.ack then { s with sndvar.sndUna := s.sndvar.sndUna + 1 } else s) :=
      .ite (.of_eq rfl) (.refl s)
    generalize (if seg.ack then { s with sndvar.sndUna := s.sndvar.sndUna + 1 }
      else s : TcpStream) = u at hu ⊢
    split_ifs with hrst hack' hsyn hack'
    · have hreset : SameTies cfg s { u with state := .closeWait, closeReason := .reset } :=
        hu.congr rfl
      refine ((raiseErrorOrDestroy_ties _).after hreset).mono fun h => ?_
      exact ⟨hu.socket.symm.trans h, hack', hack hack', by rw [hrst]; rfl⟩
    · exact hu.unless
    · refine ((completeActiveOpen_ties env seg u).after hu).mono fun h => ?_
      exact ⟨hu.socket.symm.trans h, hack', hack hack', by rw [hsyn, Bool.or_true]⟩
    · have hsyn' : SameTies cfg s ({ u with state := .synRcvd, sndNxt := u.sndvar.iss }.log
          (.peerSyn seg.seq)) := hu.congr rfl
      exact (((addtoControlList_path _).ties (by decide)).after hsyn').unless
    · exact hu.unless

theorem offerToListener_ties : MoreTies cfg s (offerToListener cfg env s) := by
  have hraise : ∀ u, MoreTies cfg s u → MoreTies cfg s
      (raiseEvent .listenerRead (if 0 < cfg.tcpTimeout then addtoTimeoutList u else u)) :=
    fun u hu =>
      (((raiseEvent_path _ _).ties (by decide)).after (addtoTimeoutList_ties u)).more.after hu
  unfold offerToListener
  split
  · exact SameTies.more (.of_eq rfl)
  · next room _ =>
    cases room with
    | true => exact hraise _ (.link rfl s)
    | false =>
      exact hraise (addtoControlList { s with closeReason := .notAccepted, state := .closed })
        (SameTies.more (((addtoControlList_path _).ties (by decide)).after (.of_eq rfl)))

theorem handleSynRcvd_ties : MoreTies cfg s (handleSynRcvd cfg env seg s) := by
  have hest : ∀ u, SameTies cfg u u.establish := fun _ => .of_eq rfl
  unfold handleSynRcvd
  split_ifs
  · exact (SameTies.refl s).more
  · refine (offerToListener_ties env _).after (SameTies.more ?_)
    exact (hest _).after (((removeFromRTOList_path _).ties (by decide)).after (.of_eq rfl))
  · exact SameTies.more (((addtoControlList_path _).ties (by decide)).after (.of_eq rfl))

theorem handleLastAck_ties :
    TiesUnless cfg (lt seg.seq s.rcvNxt = false ∧ seg.ack ∧ s.sndvar.isFinSent ∧
      seg.ackSeq = s.sndvar.fss + 1) s (handleLastAck cfg env seg s) := by
  unfold handleLastAck
  split
  · exact (SameTies.refl s).unless
  · next hlt =>
    split
    · next hack =>
      have ha : SameTies cfg s _ := (handleAck_path env seg s).ties (by decide)
      have hsend := handleAck_sendOnly env seg s
      dsimp only
      generalize handleAck env seg s = a at ha hsend ⊢
      have hfin : a.sndvar.isFinSent = s.sndvar.isFinSent := congrArg Conn.finSent hsend
      have hfss : a.sndvar.fss = s.sndvar.fss := congrArg Conn.fss hsend
      split_ifs with h1 h2
      · exact ha.unless
      · have hup : SameTies cfg s (updateRetransmissionTimer env
            { a with sndvar.sndUna := a.sndvar.sndUna + 1 }) :=
          ((updateRetransmissionTimer_path _ env).ties (by decide)).after (ha.congr rfl)
        refine .inr ⟨⟨eq_false_of_ne_true hlt, hack, ?_, hfss ▸ h2⟩,
          (destroyTCPStream_destroyed _).after (hup.congr rfl)⟩
        rw [← hfin]
        simpa using h1
      · exact (((addtoControlList_path a).ties (by decide)).after ha).unless
    · exact ((addtoControlList_path s).ties (by decide)).unless

/-- The handlers that destroy a stream: its owner has gone, or our FIN is acknowledged. -/
def dispatchDestroys : Bool :=
  match s.state with
  | .synSent => s.socket.isNone && seg.ack && !unacceptableAck seg s && (seg.rst || seg.syn)
  | .lastAck =>
    !lt seg.seq s.rcvNxt && seg.ack && s.sndvar.isFinSent && seg.ackSeq == s.sndvar.fss + 1
  | _ => false

def resetDestroys : Bool :=
  match s.state with
  | .synRcvd => seg.ackSeq == s.sndNxt
  | .finWait1 | .finWait2 | .lastAck | .closing | .timeWait => true
  | _ => false

def packetDestroys (cfg : Config) : Bool :=
  validated cfg env seg s &&
    if seg.rst then
      if .synSent < s.state then resetDestroys seg s else dispatchDestroys seg s
    else dispatchDestroys seg s

theorem dispatch_ties : TiesUnless cfg (dispatchDestroys seg s) s (dispatch cfg env seg s) := by
  unfold dispatch
  split
  · exact ((handleListen_path seg s).ties (by decide)).unless
  · next hst =>
    refine (handleSynSent_ties env seg s).mono fun ⟨h1, h2, h3, h4⟩ => ?_
    simp only [dispatchDestroys, hst, h1, h2, h3, h4]
    rfl
  · refine .inl ?_
    split
    · exact ((handleListen_path seg s).ties (by decide)).more
    · have hr := @handleSynRcvd_ties cfg env seg s
      dsimp only
      split
      · next hest =>
        exact ((handleEstablished_path cfg env seg _ hest.2).ties (by decide)).more.after hr
      · exact hr
  · next hst => exact ((handleEstablished_path cfg env seg s hst).ties (by decide)).unless
  · exact ((handleCloseWait_path env seg s).ties (by decide)).unless
  · next hst =>
    refine (handleLastAck_ties env seg s).mono fun ⟨h1, h2, h3, h4⟩ => ?_
    simp only [dispatchDestroys, hst, h1, h2, h3, h4, beq_self_eq_true]
    rfl
  · next hst => exact ((handleFinWait1_path cfg env seg s hst).ties (by decide)).unless
  · next hst => exact ((handleFinWait2_path cfg env seg s hst).ties (by decide)).unless
  · next hst => exact ((handleClosing_path cfg env seg s hst).ties (by decide)).unless
  · exact ((handleTimeWait_path cfg env s).ties (by decide)).unless
  · exact (SameTies.refl s).unless

theorem processRST_ties : TiesUnless cfg (resetDestroys seg s) s (processRST cfg seg s) := by
  have hdestroy : ∀ r, Destroyed cfg s
      (destroyTCPStream cfg { s with state := .closed, closeReason := r }) :=
    fun r => (destroyTCPStream_destroyed _).after (.of_eq rfl)
  unfold processRST
  split
  · next hst =>
    split
    · next hack => exact .inr ⟨by simp [resetDestroys, hst, hack], hdestroy _⟩
    · exact (SameTies.refl s).unless
  all_goals first
    | next hst => exact .inr ⟨by simp [resetDestroys, hst], hdestroy _⟩
    | exact SameTies.unless (.ite (.refl s) (.of_eq rfl))

theorem processTCPPacket_ties :
    TiesUnless cfg (packetDestroys env seg s cfg) s (processTCPPacket cfg env seg s) := by
  have hgo : ∀ t, SameTies cfg s t → conn t = conn s → validated cfg env seg s →
      TiesUnless cfg (packetDestroys env seg s cfg) s (processValidated cfg env seg t) := by
    intro t ht hc hval
    have harr : SameTies cfg s (arrived env seg t) :=
      ((arrive_path env seg t).ties (by decide)).after ht
    have hca : conn (arrived env seg t) = conn s := (arrived_conn env seg t).trans hc
    rw [processValidated_arrived]
    generalize arrived env seg t = u at harr hca ⊢
    have hst : u.state = s.state := congrArg Conn.state hca
    have hrst : resetDestroys seg u = resetDestroys seg s := by
      unfold resetDestroys
      rw [hst, show u.sndNxt = s.sndNxt from congrArg Conn.sndNxt hca]
    have hdis : dispatchDestroys seg u = dispatchDestroys seg s := by
      unfold dispatchDestroys unacceptableAck
      rw [hst, harr.socket, show u.sndNxt = s.sndNxt from congrArg Conn.sndNxt hca,
        show u.rcvNxt = s.rcvNxt from congrArg Conn.rcvNxt hca,
        show u.sndvar.iss = s.sndvar.iss from congrArg Conn.iss hca,
        show u.sndvar.fss = s.sndvar.fss from congrArg Conn.fss hca,
        show u.sndvar.isFinSent = s.sndvar.isFinSent from congrArg Conn.finSent hca]
    have hset : SameTies cfg s { u with haveReset := true } := harr.congr rfl
    unfold packetDestroys
    rw [hval, Bool.true_and, ← hst, ← hrst, ← hdis]
    by_cases h1 : seg.rst
    · rw [if_pos h1, if_pos h1]
      by_cases h2 : .synSent < u.state
      · rw [if_pos h2, if_pos h2]
        exact (processRST_ties seg _).after hset
      · rw [if_neg h2, if_neg h2]
        exact (dispatch_ties env seg _).after hset
    · rw [if_neg h1, if_neg h1]
      exact (dispatch_ties env seg u).after harr
  obtain ⟨-, -, heq⟩ | ⟨upd, recent, echo, hval, heq⟩ := processTCPPacket_cases env seg s cfg
  · rw [heq]
    exact ((validateSequence_path cfg env seg s).ties (by decide)).unless
  · rw [heq]
    exact hgo (restamped upd recent echo s) (.of_eq rfl) rfl hval

end input

end Mtcp
