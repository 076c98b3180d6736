import Mtcp.Refine.Segment
import Mtcp.Refine.Output

namespace Mtcp

open Serial SendBuffer RingBuffer Bytes Runs UInt32 Option

variable {cfg : Config} {s : TcpStream} {e : Env × Action}

/-! The timers. -/

variable (env : Env) (v : Conn) (t : TcpStream)

/-- Giving up leaves a close reason, so the expired timer can come second. -/
theorem giveUp_steps (r : TcpCloseReason) (hr : r ≠ .notClosed)
    (ht : conn t = { v with rto := false }) :
    Steps cfg s e v (conn { t with state := .closed, closeReason := r }) := by
  change Steps cfg s e v { conn t with state := .closed, reason := r }
  rw [ht]
  have hshut : Steps cfg s e v { v with state := .closed, reason := r } := shut_steps v r hr
  exact hshut.trans (Reaches.single .expire hr trivial rfl)

theorem exceedMaxRtx_steps (ht : conn t = { v with rto := false }) :
    Steps cfg s e v (conn (exceedMaxRtx cfg t)) := by
  unfold exceedMaxRtx
  split
  · exact (giveUp_steps v t .connFail (by decide) ht).trans (destroyTCPStream_steps _)
  · exact (giveUp_steps v t .connLost (by decide) ht).trans (raiseErrorOrDestroy_steps _)

theorem retransmit_steps (hc : Cause cfg s e v .retransmit) (ht : conn t = { v with rto := false })
    (hon : v.rto) (hr : v.reason = .notClosed)
    (hst : t.state = .synSent ∨ t.state = .synRcvd ∨ t.state = .established ∨
      t.state = .closeWait ∨ t.state = .lastAck ∨ t.state = .finWait1 ∨ t.state = .closing) :
    Steps cfg s e v (conn (retransmit t)) := by
  have hv : v.state = t.state := (congrArg Conn.state ht).symm
  have hbuf : v.sndbuf = t.sndvar.sndbuf := (congrArg Conn.sndbuf ht).symm
  have huna : v.sndUna = t.sndvar.sndUna := (congrArg Conn.sndUna ht).symm
  have hfss : v.fss = t.sndvar.fss := (congrArg Conn.fss ht).symm
  have hfault : v.fault = t.fault := (congrArg Conn.fault ht).symm
  have hback : conn { t with sndNxt := t.sndvar.sndUna } =
      { v with rto := false, sndNxt := v.sndUna } := by
    change { conn t with sndNxt := t.sndvar.sndUna } = _
    rw [ht, huna]
  have halive : v.alive = t.onHashTable := (congrArg Conn.alive ht).symm
  have hdata : ∀ u, u.sndvar.sndbuf = t.sndvar.sndbuf → u.fault = t.fault →
      u.onHashTable = t.onHashTable →
      { conn u with sendList := true } = v.retransmitted →
      (v.sndbuf.isSome → Move.guard cfg v .retransmit) →
      Steps cfg s e v (conn (addtoSendList u)) := by
    intro u hub huf hua hsome hg
    cases hb : t.sndvar.sndbuf with
    | none =>
      refine crash_to ?_ ⟨.noSendBuffer, rfl, ?_⟩
      · rw [conn_addtoSendList, hub, hb]
        exact hua.trans halive.symm
      · rw [conn_addtoSendList, hub, hb, hfault, ← huf]
        rfl
    | some buf =>
      refine .single .retransmit (hg (by rw [hbuf, hb]; rfl)) hc ?_
      rw [conn_addtoSendList, hub, hb]
      exact hsome
  have hcontrol : Move.guard cfg v .retransmit →
      { v with rto := false, sndNxt := v.sndUna, control := true } = v.retransmitted →
      Steps cfg s e v (conn (addtoControlList { t with sndNxt := t.sndvar.sndUna })) := by
    intro hg hw
    refine .single .retransmit hg hc ?_
    rw [conn_addtoControlList, hback]
    exact hw
  have hclose : t.state = .finWait1 ∨ t.state = .closing ∨ t.state = .lastAck →
      Steps cfg s e v (conn (if lt t.sndvar.sndUna t.sndvar.fss then
        addtoSendList { removeFromControlList { t with sndNxt := t.sndvar.sndUna } with
          controlListWaiting := true }
        else addtoControlList { t with sndNxt := t.sndvar.sndUna })) := by
    intro h
    have hret : v.retransmitted = if lt v.sndUna v.fss then
        { v with rto := false, sndNxt := v.sndUna, control := false, waiting := true,
                 sendList := true }
        else { v with rto := false, sndNxt := v.sndUna, control := true } := by
      unfold Conn.retransmitted
      rw [← hv] at h
      rcases h with h | h | h <;> simp only [h]
    rw [← huna, ← hfss]
    split
    · next hlt =>
      have hrm := conn_removeFromControlList { t with sndNxt := v.sndUna }
      generalize removeFromControlList { t with sndNxt := v.sndUna } = u at hrm ⊢
      rw [huna, hback] at hrm
      refine hdata { u with controlListWaiting := true } (congrArg Conn.sndbuf hrm |>.trans hbuf)
        (congrArg Conn.fault hrm |>.trans hfault) (congrArg Conn.alive hrm |>.trans halive) ?_ ?_
      · rw [hret, if_pos hlt]
        change { conn u with waiting := true, sendList := true } = _
        rw [hrm]
      · exact fun hs => ⟨hon, hr, .inr (.inr (.inr ⟨hv ▸ h, fun _ => hs⟩))⟩
    · next hlt =>
      rw [huna]
      refine hcontrol ⟨hon, hr, .inr (.inr (.inr ⟨hv ▸ h, fun h' => absurd h' hlt⟩))⟩ ?_
      rw [hret, if_neg hlt]
  have hopen : t.state = .synSent ∨ t.state = .synRcvd →
      Steps cfg s e v (conn (addtoControlList { t with sndNxt := t.sndvar.sndUna })) := by
    intro h
    rw [← hv] at h
    refine hcontrol ⟨hon, hr, ?_⟩ ?_
    · rcases h with h | h
      · exact .inl h
      · exact .inr (.inl h)
    · unfold Conn.retransmitted
      rcases h with h | h <;> simp only [h]
  have hflow : t.state = .established ∨ t.state = .closeWait →
      Steps cfg s e v (conn (addtoSendList { t with sndNxt := t.sndvar.sndUna })) := by
    intro h
    rw [← hv] at h
    refine hdata _ rfl rfl rfl ?_ fun hs => ⟨hon, hr, .inr (.inr (.inl ⟨h, hs⟩))⟩
    rw [hback]
    unfold Conn.retransmitted
    rcases h with h | h <;> simp only [h]
  unfold retransmit
  rcases hst with h | h | h | h | h | h | h
  · simpa only [h] using hopen (.inl h)
  · simpa only [h] using hopen (.inr h)
  · simpa only [h] using hflow (.inl h)
  · simpa only [h] using hflow (.inr h)
  · simpa only [h] using hclose (.inr (.inr h))
  · simpa only [h] using hclose (.inl h)
  · simpa only [h] using hclose (.inr (.inl h))

theorem destroyed_steps {v : Conn} (t : TcpStream) (h : (conn t).destroyed = v.destroyed) :
    Steps cfg s e v (conn (destroyTCPStream cfg t)) := by
  rw [conn_destroyTCPStream, h]
  have hd : Steps cfg s e v v.destroyed := .single .destroy trivial trivial rfl
  split
  · exact hd
  · exact hd.trans (crash_steps _ _ rfl)

theorem retryOrGiveUp_steps (hc : Cause cfg s e v .retransmit)
    (ht : conn t = { v with rto := false }) (hon : v.rto) (hr : v.reason = .notClosed) :
    Steps cfg s e v (conn (retryOrGiveUp cfg t)) := by
  have hfault : v.fault = t.fault := (congrArg Conn.fault ht).symm
  have hback : t.state ∉ [.closed, .listen, .finWait2, .timeWait] →
      Steps cfg s e v (conn (retransmit t)) := by
    intro h
    refine retransmit_steps v t hc ht hon hr ?_
    cases hst : t.state <;> simp_all
  have hunknown : Steps cfg s e v (conn (t.abort .unknownState)) := by
    refine crash_to (congrArg Conn.alive ht :) ⟨.unknownState, rfl, ?_⟩
    rw [hfault]
    rfl
  unfold retryOrGiveUp
  cases hst : t.state with
  | synSent =>
    dsimp only
    split
    · exact (giveUp_steps v t .connFail (by decide) ht).trans (raiseErrorOrDestroy_steps _)
    · exact hback (by simp [hst])
  | synRcvd =>
    dsimp only
    split
    · refine destroyed_steps t ?_
      rw [ht]
      rfl
    · exact hback (by simp [hst])
  | established | closeWait | lastAck | finWait1 | closing => exact hback (by simp [hst])
  | closed | listen | finWait2 | timeWait => exact hunknown

theorem handleRTO_steps (hc : Cause cfg s e v .retransmit) (ht : conn t = { v with rto := false })
    (hon : v.rto) : Steps cfg s e v (conn (handleRTO cfg t)) := by
  have hr : v.reason = t.closeReason := (congrArg Conn.reason ht).symm
  have hfault : v.fault = t.fault := (congrArg Conn.fault ht).symm
  unfold handleRTO
  split
  · refine crash_to (congrArg Conn.alive ht :) ⟨.rtoZero, rfl, ?_⟩
    rw [hfault]
    rfl
  · split
    · next hclosed =>
      refine .single .expire ?_ trivial ht
      change v.reason ≠ _
      rw [hr]
      exact hclosed
    · next hopen =>
      split
      · exact exceedMaxRtx_steps v t ht
      · exact retryOrGiveUp_steps v (backOff t) hc ht hon (hr.trans (not_not.mp hopen))

theorem checkRtmTimeout_steps (he : e = (env, .rtm)) :
    Steps cfg s e (conn s) (conn (checkRtmTimeout cfg env s)) := by
  unfold checkRtmTimeout
  split
  · next hslot =>
    subst he
    refine handleRTO_steps (conn s) _ ⟨rfl, decide_eq_true hslot, rfl, .refl _⟩ ?_ ?_
    · rw [conn_unlink _ _ (by decide)]
      rfl
    · refine (onWheel_eq_true_iff _).mpr ?_
      rw [hslot.1]
      exact Int.natCast_nonneg _
  · exact .refl _

theorem rearrangeRTOStore_conn : conn (rearrangeRTOStore env t) = conn t := by
  unfold rearrangeRTOStore
  dsimp only
  split
  · next h =>
    have hslot : onWheel (((env.rtoNowTs - t.sndvar.tsRto + env.rtoNowIdx) % 3000).toNat) :=
      (onWheel_eq_true_iff _).mpr (Int.natCast_nonneg _)
    have hidx : onWheel t.onRtoIdx := by
      rw [h.1]
      rfl
    simp only [conn, hslot, hidx]
  · rfl

theorem checkTimewaitExpire_steps :
    Steps cfg s e (conn t) (conn (checkTimewaitExpire cfg env t)) := by
  unfold checkTimewaitExpire
  split
  · have hun := conn_unlink { t with onTimewaitList := false } .timewait (by decide)
    generalize TcpStream.unlink { t with onTimewaitList := false } .timewait = u at hun ⊢
    refine (shut_steps (conn t) .activeClose (by decide)).trans (destroyed_steps _ ?_)
    change ({ conn u with state := .closed, reason := .activeClose } : Conn).destroyed = _
    rw [hun]
    rfl
  · exact .refl _

theorem checkConnectionTimeout_steps :
    Steps cfg s e (conn t) (conn (checkConnectionTimeout cfg env t)) := by
  unfold checkConnectionTimeout
  split
  · have hun := conn_unlink { t with onTimeoutList := false } .timeout (by decide)
    generalize TcpStream.unlink { t with onTimeoutList := false } .timeout = u at hun ⊢
    have hshut : Steps cfg s e (conn t)
        (conn { u with state := .closed, closeReason := .timedout }) := by
      change Steps cfg s e (conn t) { conn u with state := .closed, reason := .timedout }
      rw [hun]
      exact shut_steps (conn t) .timedout (by decide)
    exact hshut.trans (raiseErrorOrDestroy_steps _)
  · exact .refl _

/-! `HandleApplicationCalls`. -/

theorem destroyReset_steps : Steps cfg s e (conn t) (conn (destroyReset cfg t)) := by
  unfold destroyReset
  split
  · exact (shut_steps (conn t) .reset (by decide)).trans
      (destroyTCPStream_steps { t with closeReason := .reset, state := .closed })
  · exact .refl _

theorem sendRST_steps : Steps cfg s e (conn t) (conn (sendRST t)) := by
  unfold sendRST
  split
  · exact (shut_steps (conn t) .activeClose (by decide)).trans
      (control_steps { t with closeReason := .activeClose, state := .closed } (by simp))
  · exact .refl _

theorem handleReset_steps : Steps cfg s e (conn t) (conn (handleReset cfg t)) := by
  unfold handleReset
  dsimp only
  have hu := conn_leaveTimeout (0 < cfg.tcpTimeout) { t with sndvar.onResetq := false }
  generalize (if 0 < cfg.tcpTimeout then removeFromTimeoutList { t with sndvar.onResetq := false }
    else { t with sndvar.onResetq := false }) = u at hu ⊢
  refine Reaches.trans (Reaches.of_eq hu) ?_
  split_ifs
  · exact destroyReset_steps u
  · rw [conn_link _ _ (by decide)]
    exact .refl _
  · exact sendRST_steps u

theorem handleResetInt_steps : Steps cfg s e (conn t) (conn (handleResetInt t)) := by
  unfold handleResetInt
  split
  · rw [conn_link _ _ (by decide)]
    exact .refl _
  · exact sendRST_steps { t with sndvar.onResetqInt := false }

theorem beginClose_steps (hc : Cause cfg s e (conn t) .beginClose) (hcl : t.occ .closeq = 0)
    (hfss : 0 < t.occ .closeqInt ∨ t.sndvar.fss = (conn t).sendEnd) :
    Steps cfg s e (conn t) (conn (beginClose t)) := by
  unfold beginClose
  split
  · next hst =>
    refine .single .beginClose ⟨.inl hst, hcl, hfss⟩ hc ?_
    simp [Move.apply, conn, hst]
  · next hst =>
    refine .single .beginClose ⟨.inr hst, hcl, hfss⟩ hc ?_
    simp [Move.apply, conn, hst]
  · exact .refl _

theorem beginClose_early (h : t.state.early = false) : (beginClose t).state.early = false := by
  unfold beginClose
  split
  · rfl
  · rfl
  · exact h

theorem not_synSent_of_early {t : TcpStream} (h : t.state.early = false) : t.state ≠ .synSent := by
  intro hst
  rw [hst] at h
  cases h

theorem conn_setFss : conn (setFss t) = { conn t with fss := (conn t).sendEnd } := rfl

theorem conn_unlink_closeq :
    conn (t.unlink .closeq) = { conn t with closes := t.occ .closeq - 1 } := by
  simp [conn, TcpStream.unlink]

theorem early_of_occ (hshape : (conn s).Shape) (h : 0 < s.occ .closeq ∨ 0 < s.occ .closeqInt) :
    s.state.early = false := by
  cases hst : s.state.early with
  | false => rfl
  | true =>
    obtain ⟨h1, h2, _⟩ := hshape.closing hst
    change s.occ .closeq = 0 at h1
    change s.occ .closeqInt = 0 at h2
    omega

theorem handleClose_steps (he : e.2 = .dequeue .closeq) (hocc : 0 < t.occ .closeq)
    (hs : t.sndvar.onSendq = s.sndvar.onSendq) (hshape : (conn t).Shape) :
    Steps cfg s e (conn t) (conn (handleClose cfg (t.unlink .closeq))) := by
  have hearly := early_of_occ hshape (.inl hocc)
  have hone : t.closed ∧ t.occ .closeq = 1 ∧ t.occ .closeqInt = 0 := by
    have honce : t.occ .closeq + t.occ .closeqInt ≤ if t.closed then 1 else 0 := hshape.once
    cases hc : t.closed with
    | true =>
      rw [hc] at honce
      simp only [if_true] at honce
      exact ⟨rfl, by omega, by omega⟩
    | false =>
      rw [hc] at honce
      simp only [Bool.false_eq_true, if_false] at honce
      omega
  unfold handleClose
  dsimp only
  have hu := conn_leaveTimeout (0 < cfg.tcpTimeout) (setFss
    { t.unlink .closeq with sndvar.onCloseq := false })
  generalize (if 0 < cfg.tcpTimeout then removeFromTimeoutList (setFss _) else setFss _) = u at hu ⊢
  have htake : Steps cfg s e (conn t) (conn u) := by
    refine .single .takeClose hocc trivial (hu.trans ?_)
    rw [conn_setFss]
    change (fun v : Conn => { v with fss := v.sendEnd }) (conn (t.unlink .closeq)) = _
    rw [conn_unlink_closeq]
    rfl
  have hfss : u.sndvar.fss = (conn u).sendEnd := by
    rw [show u.sndvar.fss = _ from congrArg Conn.fss hu, hu]
    rfl
  have hcl : u.occ .closeq = 0 := by
    rw [show u.occ .closeq = _ from congrArg Conn.closes hu]
    change (t.unlink .closeq).occ .closeq = 0
    simp [TcpStream.unlink, hone.2.1]
  have hci : u.occ .closeqInt = 0 := by
    rw [show u.occ .closeqInt = _ from congrArg Conn.closesInt hu]
    change (t.unlink .closeq).occ .closeqInt = 0
    simp [TcpStream.unlink, hone.2.2]
  have hcause : Cause cfg s e (conn u) .beginClose := ⟨.inl he, (congrArg Conn.sendq hu).trans hs⟩
  have hue : u.state.early = false := by
    rw [show u.state = t.state from congrArg Conn.state hu]
    exact hearly
  refine htake.trans ?_
  split_ifs with hrst hctl hlist hst
  · exact destroyReset_steps u
  · refine .single .postpone
      ⟨hue, (congrArg Conn.closed hu).trans hone.1, hcl, hci, hfss⟩ trivial ?_
    simp [Move.apply, conn, TcpStream.link]
  · have hbegin := beginClose_steps u hcause hcl (.inr hfss)
    exact hbegin.trans (Reaches.single .wait (beginClose_early u hue) trivial rfl)
  · have hbegin := beginClose_steps u hcause hcl (.inr hfss)
    exact hbegin.trans (control_steps _ (not_synSent_of_early (beginClose_early u hue)))
  · exact .refl _

/-- Taking an entry off `closeq_int` comes last, after the close it stands for. -/
theorem handleCloseInt_steps (he : e.2 = .dequeue .closeqInt) (hocc : 0 < t.occ .closeqInt)
    (hs : t.sndvar.onSendq = s.sndvar.onSendq) (hshape : (conn t).Shape) :
    Steps cfg s e (conn t) (conn (handleCloseInt (t.unlink .closeqInt))) := by
  have hearly := early_of_occ hshape (.inr hocc)
  have hcl : t.occ .closeq = 0 := by
    have honce : t.occ .closeq + t.occ .closeqInt ≤ if t.closed then 1 else 0 := hshape.once
    split at honce <;> omega
  unfold handleCloseInt
  split
  · refine .of_eq ?_
    simp [conn, TcpStream.link, TcpStream.unlink, Nat.sub_add_cancel hocc]
  · have hcause : Cause cfg s e (conn t) .beginClose := ⟨.inr he, hs⟩
    have hbegin := beginClose_steps t hcause hcl (.inl hocc)
    have htake : ∀ v, 0 < v.closesInt → Steps cfg s e v { v with closesInt := v.closesInt - 1 } :=
      fun v hv => Reaches.single .takeCloseInt hv trivial rfl
    have hun : ∀ u, conn (u.unlink .closeqInt) =
        { conn u with closesInt := u.occ .closeqInt - 1 } := by
      intro u
      simp [conn, TcpStream.unlink]
    dsimp only
    split
    · have hb : beginClose { t.unlink .closeqInt with
          sndvar.onCloseqInt := false } =
          { (beginClose t).unlink .closeqInt with
            sndvar :=
              { ((beginClose t).unlink .closeqInt).sndvar with onCloseqInt := false } } := by
        cases hst : t.state <;> simp [beginClose, TcpStream.unlink, hst]
      rw [hb]
      have hocc' : (beginClose t).occ .closeqInt = t.occ .closeqInt := by
        unfold beginClose
        split <;> rfl
      refine hbegin.trans ((htake _ (lt_of_lt_of_eq hocc hocc'.symm)).trans ?_)
      refine Reaches.trans (Reaches.of_eq ?_) (control_steps { (beginClose t).unlink .closeqInt with
        sndvar.onCloseqInt := false } ?_)
      · exact hun (beginClose t)
      · exact not_synSent_of_early (beginClose_early t hearly)
    · exact (htake (conn t) hocc).trans (Reaches.of_eq (hun t))

theorem dequeue_steps (q : StreamList) (he : e.2 = .dequeue q) (hshape : (conn s).Shape) :
    Steps cfg s e (conn s) (conn (dequeue cfg q s)) := by
  unfold dequeue
  split
  · exact .refl _
  · next hocc =>
    have hocc := Nat.pos_of_ne_zero hocc
    have hplain : q ≠ .connectq ∧ q ≠ .closeq ∧ q ≠ .closeqInt ∧ q ≠ .sendq →
        conn (s.unlink q) = conn s :=
      fun h => conn_unlink s q h
    cases q with
    | connectq =>
      refine .single .connect hocc trivial ?_
      rw [conn_addtoControlList]
      simp [Move.apply, conn, TcpStream.unlink]
    | sendq =>
      rw [conn_addtoSendList]
      split
      · exact crash_to rfl ⟨.noSendBuffer, rfl, rfl⟩
      · next hsome =>
        refine .single .takeSendq ⟨hocc, ?_⟩ trivial ?_
        · change s.sndvar.sndbuf.isSome
          simpa [isSome_iff_ne_none, TcpStream.unlink] using hsome
        · simp [Move.apply, conn, TcpStream.unlink]
    | ackq =>
      rw [conn_enqueueACK]
      exact .of_eq (hplain (by decide))
    | closeq => exact handleClose_steps s he hocc rfl hshape
    | closeqInt => exact handleCloseInt_steps s he hocc rfl hshape
    | resetq =>
      exact Reaches.trans (Reaches.of_eq (hplain (by decide))) (handleReset_steps _)
    | resetqInt =>
      exact Reaches.trans (Reaches.of_eq (hplain (by decide))) (handleResetInt_steps _)
    | destroyq =>
      exact Reaches.trans (Reaches.of_eq (hplain (by decide))) (destroyTCPStream_steps _)
    | _ =>
      rw [conn_link _ _ (by decide), conn_unlink _ _ (by decide)]
      exact .refl _

/-! The calls of the application. -/

theorem mtcpAccept_conn (sock : Option Nat) (t : TcpStream) :
    conn (mtcpAccept sock t) = conn t := by
  unfold mtcpAccept
  dsimp only
  split
  · exact conn_unlink t .acceptq (by decide)
  · exact conn_unlink t .acceptq (by decide)

theorem mtcpClose_steps (he : e.2 = .close) : Steps cfg s e (conn s) (conn (mtcpClose s)) := by
  have hmark : Steps cfg s e (conn s) { conn s with closed := true } :=
    Reaches.single .closeMark trivial he rfl
  have hcall : s.closed = false → s.state = .established ∨ s.state = .closeWait →
      Steps cfg s e (conn s)
      (conn (TcpStream.link { s with
        closed := true
        socket := none
        sndvar.onCloseq := true } .closeq)) := by
    intro hc h
    refine .single .closeCall ⟨h, hc⟩ he ?_
    simp [Move.apply, conn, TcpStream.link]
  unfold mtcpClose
  split
  · exact .refl _
  · next hc =>
    have hc' : s.closed = false := eq_false_of_ne_true hc
    cases hst : s.state with
    | closed | synSent =>
      rw [conn_link _ _ (by decide)]
      simpa only [conn, hst] using hmark
    | established => simpa only [hst] using hcall hc' (.inl hst)
    | closeWait => simpa only [hst] using hcall hc' (.inr hst)
    | _ => simpa only [conn, hst] using hmark

theorem mtcpAbort_steps : Steps cfg s e (conn t) (conn (mtcpAbort t)) := by
  have hdestroy : Steps cfg s e (conn t) (conn (TcpStream.link { t with
      socket := none, state := .closed, closeReason := .activeClose } .destroyq)) := by
    rw [conn_link _ _ (by decide)]
    exact shut_steps (conn t) .activeClose (by decide)
  have hreset : Steps cfg s e (conn t) (conn (if t.sndvar.onResetq then { t with socket := none }
      else TcpStream.link { t with
        socket := none, sndvar.onResetq := true } .resetq)) := by
    split
    · exact .refl _
    · rw [conn_link _ _ (by decide)]
      exact .refl _
  unfold mtcpAbort
  cases hst : t.state with
  | closed => simpa only [conn, hst] using Reaches.refl (conn t)
  | synSent | closing | lastAck | timeWait => exact hdestroy
  | _ => simpa only [hst] using hreset

theorem conn_advertiseWindow : conn (advertiseWindow t) = conn t := by
  unfold advertiseWindow
  split
  · rw [conn_link _ _ (by decide)]
    rfl
  · rfl

theorem copyToUser_steps (len : Int) (t : TcpStream) :
    Steps cfg s e (conn t) (conn (copyToUser len t).2) := by
  unfold copyToUser
  split
  · exact crash_steps _ _ rfl
  · next buf hbuf =>
    dsimp only
    split
    · exact .refl _
    · next hpos =>
      generalize hn : (min (buf.mergedLen : Int) len).toNat = n
      have hle : n ≤ buf.mergedLen := by omega
      have hpos' : 0 < n := by omega
      generalize hr : rbRemove buf n = r
      obtain ⟨m, failed, buf'⟩ := r
      cases failed with
      | false =>
        rw [conn_advertiseWindow]
        refine .single (.hand buf n) ⟨hbuf, hpos', hle, by rw [hr]⟩ trivial ?_
        simp only [Move.apply, hr]
        rfl
      | true =>
        rw [conn_advertiseWindow]
        exact crash_to rfl ⟨.rbRemoveAssert, rfl, rfl⟩

theorem mtcpRecv_steps (nonblock peek : Bool) (len : Nat) (t : TcpStream) :
    Steps cfg s e (conn t) (conn (mtcpRecv nonblock peek len t).2) := by
  unfold mtcpRecv
  split_ifs
  · exact .refl _
  · exact .refl _
  · unfold peekForUser
    split
    · exact crash_steps _ _ rfl
    · dsimp only
      split
      · exact .refl _
      · exact .refl _
  · exact copyToUser_steps _ t
  · exact .refl _

theorem ensureSndbuf_cases {env : Env} {t : TcpStream} {buf : TcpSendBuffer}
    (h : ensureSndbuf cfg env t = some buf) : t.sndvar.sndbuf = some buf ∨
      t.sndvar.sndbuf = none ∧ ∃ junk, buf = sbInit junk cfg.sndbufSize (t.sndvar.iss + 1) := by
  unfold ensureSndbuf at h
  split at h
  · next heq =>
    obtain rfl := some.inj h
    exact .inl heq
  · next heq =>
    split at h
    · exact .inr ⟨heq, env.junk, (some.inj h).symm⟩
    · cases h

/-- What `CopyFromUser` does: nothing, a note of missing memory, a crash, or all of what
the window lets it take. -/
theorem copyFromUser_cases (bytes : List UInt8) (t : TcpStream) :
    ((copyFromUser cfg env bytes t).1 ≤ 0 ∧ (conn (copyFromUser cfg env bytes t).2 = conn t ∨
        conn (copyFromUser cfg env bytes t).2 = { conn t with reason := .noMem })) ∨
    ((copyFromUser cfg env bytes t).2.onHashTable = t.onHashTable ∧ ∃ f, f.sendAssert = false ∧
        (copyFromUser cfg env bytes t).2.fault = t.fault.or (some f)) ∨
    ∃ buf put, put ≠ [] ∧ ensureSndbuf cfg env t = some buf ∧ (sbPut buf put).1 = put.length ∧
      0 < (copyFromUser cfg env bytes t).1 ∧ conn (copyFromUser cfg env bytes t).2 = { conn t with
        sndbuf := some (sbPut buf put).2
        log := .take put :: (conn t).log } := by
  unfold copyFromUser
  dsimp only
  generalize hlen : min (signed t.sndvar.sndWnd) (signed (ofNat bytes.length)) = n
  split
  · exact .inl ⟨by simp, .inl rfl⟩
  · next hn =>
    split
    · exact .inl ⟨by simp, .inr rfl⟩
    · next buf hbuf =>
      have hput : (bytes.take n.toNat).length = n.toNat := by
        have hsigned : signed (ofNat bytes.length) ≤ bytes.length := by
          rw [signed_eq, toNat_ofNat']
          split <;> omega
        rw [List.length_take]
        omega
      have hnil : bytes.take n.toNat ≠ [] := by
        intro h
        rw [h] at hput
        simp only [List.length_nil] at hput
        omega
      generalize hr : sbPut buf (bytes.take n.toNat) = r
      obtain ⟨ret, buf'⟩ := r
      by_cases hret : ret = n
      · subst hret
        rw [if_neg (not_not.mpr rfl), if_neg hn]
        refine .inr (.inr ⟨buf, _, hnil, hbuf, ?_, by omega, ?_⟩)
        · rw [hr, hput]
          exact (Int.toNat_of_nonneg (by omega)).symm
        · rw [hr]
          rfl
      · refine .inr (.inl ⟨?_, .sbPutShort, rfl, ?_⟩)
        · rw [if_pos hret]
          split <;> rfl
        · rw [if_pos hret]
          split <;> rfl

theorem conn_signalRoom :
    conn (if 0 < t.sndvar.sndWnd then raiseEvent .write t else t) = conn t := by
  split <;> rfl

theorem mtcpWrite_steps (bytes : List UInt8) (he : e.2 = .write bytes) :
    Steps cfg s e (conn s) (conn (mtcpWrite cfg env bytes s).2) := by
  unfold mtcpWrite
  split
  · exact .refl _
  · next hst =>
    split
    · exact .refl _
    · have hcopy := @copyFromUser_cases cfg env bytes s
      generalize copyFromUser cfg env bytes s = r at hcopy ⊢
      obtain ⟨ret, w⟩ := r
      rw [conn_signalRoom]
      obtain ⟨hret, hw⟩ | ⟨hal, f, hf, hfault⟩ | ⟨buf, put, hnil, hbuf, hput, hpos, hw⟩ := hcopy
      · rw [if_neg (by omega)]
        rcases hw with hw | hw
        · exact .of_eq hw
        · rw [hw]
          exact blame_steps _ .noMem (by decide) (by decide)
      · split
        · exact crash_to hal ⟨f, hf, hfault⟩
        · exact crash_to hal ⟨f, hf, hfault⟩
      · refine .single (.put buf put)
          ⟨not_not.mp hst, hnil, ensureSndbuf_cases hbuf, hput⟩ ⟨⟨bytes, he⟩, rfl⟩ ?_
        have hq : w.sndvar.onSendq = s.sndvar.onSendq := congrArg Conn.sendq hw
        have hl : w.sndvar.onSendList = s.sndvar.onSendList := congrArg Conn.sendList hw
        have hn : w.occ .sendq = s.occ .sendq := congrArg Conn.sends hw
        have happly : Move.apply (conn s) (.put buf put) = { conn w with
              sendq := w.sndvar.onSendq || !w.sndvar.onSendList
              sends := if w.sndvar.onSendq || w.sndvar.onSendList then w.occ .sendq
                else w.occ .sendq + 1 } := by
          rw [hw, hq, hl, hn]
          rfl
        rw [happly]
        split
        · next hidle =>
          have h1 : w.sndvar.onSendList = false := by
            simpa using fun h => hidle.2 (.inr h)
          have h2 : w.sndvar.onSendq = false := by
            simpa using fun h => hidle.2 (.inl h)
          simp [conn, TcpStream.link, h1, h2]
        · next hbusy =>
          have h1 : w.sndvar.onSendq ∨ w.sndvar.onSendList := not_not.mp fun h => hbusy ⟨hpos, h⟩
          obtain h1 | h1 := h1
          · simp [conn, h1]
          · simp [conn, h1]

/-! Every step of a stream is a path of moves of its connection. -/

theorem act_steps (hshape : (conn s).Shape) :
    Steps cfg s e (conn s) (conn (act cfg e.1 s e.2)) := by
  obtain ⟨env, a⟩ := e
  have hite : ∀ {c : Prop} [Decidable c] {t : TcpStream},
      (c → Steps cfg s (env, a) (conn s) (conn t)) →
      Steps cfg s (env, a) (conn s) (conn (if c then t else s)) := by
    intro c _ t ht
    split
    · next hc => exact ht hc
    · exact .refl _
  cases a with
  | rx seg => exact hite fun hal => processTCPPacket_steps env seg rfl hal hshape
  | rtm => exact checkRtmTimeout_steps env rfl
  | rearrange => exact .of_eq (rearrangeRTOStore_conn env s)
  | timewait => exact checkTimewaitExpire_steps env s
  | timeout => exact hite fun _ => checkConnectionTimeout_steps env s
  | dequeue q => exact dequeue_steps q rfl hshape
  | controlPass room =>
    exact hite fun _ => writeTCPControl_steps env { s with txRoom := room } ⟨room, rfl⟩ rfl rfl
  | dataPass room => exact hite fun _ => writeTCPData_steps env { s with txRoom := room } hshape
  | ackPass room => exact hite fun _ => writeTCPACK_steps env { s with txRoom := room } hshape
  | accept sock => exact hite fun _ => Reaches.of_eq (mtcpAccept_conn sock s)
  | write bytes => exact hite fun _ => mtcpWrite_steps env bytes rfl
  | recv nonblock peek len => exact hite fun _ => mtcpRecv_steps nonblock peek len s
  | close => exact hite fun _ => mtcpClose_steps rfl
  | abort => exact hite fun _ => mtcpAbort_steps s

theorem step_steps (hshape : (conn s).Shape) : Steps cfg s e (conn s) (conn (step cfg s e)) := by
  unfold step
  split
  · exact act_steps hshape
  · exact .refl _

end Mtcp
