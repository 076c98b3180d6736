import Mtcp.Ties.Input

namespace Mtcp

open Serial SendBuffer RingBuffer Options

variable {cfg : Config}

/-! `tcp_out.c`. -/

section output

variable (env : Env) (s : TcpStream)

theorem sendData_send : (sendData env s).2.occ .send = s.occ .send ∧
    (sendData env s).2.sndvar.onSendList = s.sndvar.onSendList := by
  have hview := (sendData_path env s).view (fun u => (u.occ .send, u.sndvar.onSendList))
    fun hk hstep => by
      cases hstep <;> first | rfl | exact absurd hk (by simp [flushKinds, sendKinds])
  exact ⟨congrArg Prod.fst hview, congrArg Prod.snd hview⟩

/-- Between unlinking and the end of the pass the flag and the send list disagree. -/
theorem writeTCPData_ties : SameTies cfg s (writeTCPData env s) := by
  unfold writeTCPData
  dsimp only
  have hocc : (s.unlink .send).occ .send = s.occ .send - 1 := by simp [TcpStream.unlink]
  have hout : ∀ l, l ≠ .send → (s.unlink .send).occ l = s.occ l :=
    fun l hl => Function.update_of_ne hl _ _
  split
  · next hon =>
    have hd : SameTies cfg _ _ := (sendData_path env (s.unlink .send)).ties (by decide)
    have hsend := sendData_send env (s.unlink .send)
    generalize sendData env (s.unlink .send) = r at hd hsend ⊢
    obtain ⟨ret, w⟩ := r
    rw [hocc] at hsend
    -- Whatever happens to the send list now, the rest is as the flush left it.
    have hpass : ∀ t, SameBut .send w t → (Agrees s .send → Agrees t .send) → SameTies cfg s t := by
      intro t ht hown
      have hsame : ∀ q, q.queue → t.occ q = s.occ q := by
        intro q hq
        have hne : q ≠ .send := by
          rintro rfl
          cases hq
        rw [ht.occ q hne, hd.occ_eq q hq, hout q hne]
      refine ⟨⟨ht.socket.trans hd.socket, ht.freed.trans hd.freed, ht.alive.trans hd.alive,
        ht.destroys.trans hd.destroys, fun q hq => (hsame q hq).ge, fun l hl hs => ?_,
        fun hs hon => ?_⟩, fun q hq => (hsame q hq).le⟩
      · by_cases hls : l = .send
        · rw [hls] at hs ⊢
          exact hown hs
        · have hw : Agrees w l := by
            refine hd.agrees l hl ?_
            unfold Agrees
            rw [hout l hls]
            exact hs
          unfold Agrees
          rw [ht.occ l hls, ht.flag l hls]
          exact hw
      · refine hd.timed hs ?_
        exact (ht.flag .timeout (by decide)).symm.trans hon
    have hone : Agrees s .send → w.occ .send = 0 := by
      intro hs
      rw [hsend.1, show s.occ .send = _ from hs, show s.flag .send = true from hon]
      rfl
    split
    · refine hpass _ ⟨rfl, rfl, rfl, rfl, fun q hq => Function.update_of_ne hq _ _,
        fun _ _ => rfl⟩ fun hs => ?_
      change Function.update w.occ .send (w.occ .send + 1) .send = w.sndvar.onSendList.toNat
      rw [Function.update_self, hone hs, hsend.2]
      change 0 + 1 = s.sndvar.onSendList.toNat
      rw [show s.sndvar.onSendList = true from hon]
      rfl
    · refine ((releaseControl_path _ _).ties (by decide)).after
        (hpass _ ⟨rfl, rfl, rfl, rfl, fun _ _ => rfl,
        fun q hq => ?_⟩ hone)
      cases q <;> first | rfl | exact absurd rfl hq
  · next hoff =>
    exact SameBut.unlink ⟨rfl, rfl, rfl, rfl, fun _ _ => rfl, fun _ _ => rfl⟩ rfl rfl
      (eq_false_of_ne_true hoff)

/-- A closed stream that `SendControlPacket` destroys after its RST. -/
def controlDestroys : Bool :=
  s.state = .closed && !(s.sndvar.onSendList || s.sndvar.onAckList) &&
    decide (12 ≤ s.sndvar.mss.toNat) && decide (0 < s.txRoom)

theorem sendTCPPacket_ret (flags : Flags) (payload : List UInt8)
    (h : 0 ≤ (sendTCPPacket env s flags payload).1) :
    payload.length + calculateOptionLength flags.syn ≤ s.sndvar.mss.toNat ∧ 0 < s.txRoom := by
  unfold sendTCPPacket at h
  split_ifs at h with h1 h2
  · cases h
  · cases h
  · exact ⟨not_lt.mp h1, Nat.pos_of_ne_zero h2⟩
  · exact ⟨not_lt.mp h1, Nat.pos_of_ne_zero h2⟩

theorem sendControlPacket_ties :
    ((sendControlPacket cfg env s).1 < 0 → ties (sendControlPacket cfg env s).2 = ties s) ∧
      TiesUnless cfg (controlDestroys s) s (sendControlPacket cfg env s).2 := by
  have hsend : ∀ u flags, ties u = ties s →
      ((sendTCPPacket env u flags []).1 < 0 → ties (sendTCPPacket env u flags []).2 = ties s) ∧
        TiesUnless cfg (controlDestroys s) s (sendTCPPacket env u flags []).2 := by
    intro u flags hu
    refine ⟨fun hret => ?_,
      (((sendTCPPacket_path env u flags []).ties (by decide)).after (.of_eq hu)).unless⟩
    obtain ⟨_, h⟩ | ⟨hpos, _⟩ := sendTCPPacket_cases env u flags []
    · rw [h]
      exact hu
    · omega
  have hstay : ∀ ret : Int, (ret < 0 → ties s = ties s) ∧ TiesUnless cfg (controlDestroys s) s s :=
        fun _ => ⟨fun _ => rfl, (SameTies.refl s).unless⟩
  unfold sendControlPacket
  split
  · exact hsend s _ rfl
  · exact hsend _ _ rfl
  · exact hsend s _ rfl
  · exact hsend s _ rfl
  · exact hsend s _ rfl
  · exact hsend s _ rfl
  · split
    · exact hstay _
    · exact hsend s _ rfl
  · split
    · exact hstay _
    · exact hsend s _ rfl
  · split_ifs
    · exact hsend s _ rfl
    · exact hsend s _ rfl
    · exact hsend s _ rfl
  · next hst =>
    split
    · exact hstay _
    · next hidle =>
      have hp := hsend s { rst := true } rfl
      have hret := sendTCPPacket_ret env s { rst := true } []
      have hties : SameTies cfg s _ :=
        (sendTCPPacket_path env s { rst := true } []).ties (by decide)
      generalize sendTCPPacket env s { rst := true } [] = r at hp hret hties ⊢
      obtain ⟨ret, w⟩ := r
      dsimp only at hp hret hties ⊢
      split
      · next hpos =>
        refine ⟨fun hneg => absurd hpos (by omega), .inr ⟨?_, ?_⟩⟩
        · obtain ⟨hmss, hroom⟩ := hret hpos
          have hmss' : 12 ≤ s.sndvar.mss.toNat := by simpa [calculateOptionLength] using hmss
          simp [controlDestroys, hst, hmss', hroom, hidle]
        · exact (destroyTCPStream_destroyed w).after hties
      · exact hp
  · exact hstay _

theorem writeTCPControl_ties :
    TiesUnless cfg (controlDestroys s) s (writeTCPControl cfg env s) := by
  have hgo : ∀ u, SameTies cfg s u → u.sndvar.onControlList = false →
      controlDestroys u = controlDestroys s →
      TiesUnless cfg (controlDestroys s) s (relisted (sendControlPacket cfg env u)) := by
    intro u hu hoff hsame
    have hp := @sendControlPacket_ties cfg env u
    rw [hsame] at hp
    generalize sendControlPacket cfg env u = r at hp ⊢
    obtain ⟨ret, w⟩ := r
    unfold relisted
    split
    · next hneg =>
      have hw : w.sndvar.onControlList = false :=
        (congrFun (congrArg Ties.flag (hp.1 hneg)) .control).trans hoff
      exact ((Change.Step.onControl hw).ties rfl |>.after (hu.congr (hp.1 hneg))).unless
    · exact hp.2.after hu
  unfold writeTCPControl
  dsimp only
  split
  · refine hgo _ ?_ rfl rfl
    exact Change.Step.offControl.ties rfl
  · next hoff =>
    exact SameTies.unless (SameBut.unlink ⟨rfl, rfl, rfl, rfl, fun _ _ => rfl, fun _ _ => rfl⟩
      rfl rfl (eq_false_of_ne_true hoff))

end output

/-! `timer.c`. -/

section timers

variable (env : Env) (s : TcpStream)

/-- The last retransmission fails, or a reset has reached a stream in SYN_RCVD. -/
def rtoDestroys : Bool :=
  s.closeReason = .notClosed &&
    if s.sndvar.nrtx < 16 then
      match s.state with
      | .synSent => decide (7 < s.sndvar.nrtx + 1) && s.socket.isNone
      | .synRcvd => s.haveReset
      | _ => false
    else decide (s.state < .established) || s.socket.isNone

theorem handleRTO_ties : TiesUnless cfg (rtoDestroys s) s (handleRTO cfg s) := by
  unfold handleRTO
  split_ifs with hrto hreason hmax
  · exact SameTies.unless (.of_eq rfl)
  · exact (SameTies.refl s).unless
  · have hback : SameTies cfg s (backOff s) := .of_eq rfl
    have hre : SameTies cfg s (retransmit (backOff s)) :=
      ((retransmit_path _).ties (by decide)).after hback
    have hreason' : s.closeReason = .notClosed := not_not.mp hreason
    unfold retryOrGiveUp
    split
    · next hst =>
      split
      · next hgive =>
        have hfail : SameTies cfg s { backOff s with state := .closed, closeReason := .connFail } :=
          .of_eq rfl
        refine ((raiseErrorOrDestroy_ties _).after hfail).mono fun hnone => ?_
        have hst' : s.state = .synSent := hst
        have hgive' : 7 < s.sndvar.nrtx + 1 := hgive
        have hnone' : s.socket = none := hnone
        simp [rtoDestroys, hreason', hmax, hst', hgive', hnone']
      · exact hre.unless
    · next hst =>
      split
      · next hreset =>
        have hst' : s.state = .synRcvd := hst
        have hreset' : s.haveReset := hreset
        exact .inr ⟨by simp [rtoDestroys, hreason', hmax, hst', hreset'],
          (destroyTCPStream_destroyed _).after hback⟩
      · exact hre.unless
    all_goals first
      | exact hre.unless
      | exact SameTies.unless (hback.congr rfl)
  · have hreason' : s.closeReason = .notClosed := not_not.mp hreason
    unfold exceedMaxRtx
    split
    · next hst =>
      exact .inr ⟨by simp [rtoDestroys, hreason', hmax, hst],
        (destroyTCPStream_destroyed _).after (.of_eq rfl)⟩
    · have hlost : SameTies cfg s { s with state := .closed, closeReason := .connLost } :=
        .of_eq rfl
      refine ((raiseErrorOrDestroy_ties _).after hlost).mono fun hnone => ?_
      have hnone' : s.socket = none := hnone
      simp [rtoDestroys, hreason', hmax, hnone']

theorem checkRtmTimeout_ties : TiesUnless cfg (rtoExpired env s ∧ rtoDestroys s) s
      (checkRtmTimeout cfg env s) := by
  unfold checkRtmTimeout
  split
  · next hexp =>
    have hoff : SameTies cfg s ({ s with onRtoIdx := -1 }.unlink .rto) :=
      Change.Step.offRto.ties rfl
    exact ((handleRTO_ties _).after hoff).mono fun h => ⟨decide_eq_true hexp, h⟩
  · exact (SameTies.refl s).unless

theorem checkTimewaitExpire_ties :
    TiesUnless cfg (s.onTimewaitList ∧ 0 ≤ signed (env.curTs - s.rcvvar.tsTwExpire) ∧
      ¬ s.sndvar.onControlList) s (checkTimewaitExpire cfg env s) := by
  unfold checkTimewaitExpire
  split
  · next hexp =>
    have hoff : SameTies cfg s ({ s with onTimewaitList := false }.unlink .timewait) :=
      Change.Step.offTimewait.ties rfl
    exact .inr ⟨hexp, (destroyTCPStream_destroyed _).after (hoff.congr rfl)⟩
  · exact (SameTies.refl s).unless

theorem checkConnectionTimeout_ties :
    TiesUnless cfg (s.onTimeoutList ∧ cfg.tcpTimeout ≤ signed (env.curTs - s.lastActiveTs) ∧
      s.socket = none) s (checkConnectionTimeout cfg env s) := by
  unfold checkConnectionTimeout
  split
  · next hexp =>
    have hoff : SameTies cfg s ({ s with onTimeoutList := false }.unlink .timeout) :=
      Change.Step.offTimeout.ties rfl
    have hshut : SameTies cfg s { TcpStream.unlink { s with onTimeoutList := false } .timeout with
        state := .closed, closeReason := .timedout } := hoff.congr rfl
    exact ((raiseErrorOrDestroy_ties _).after hshut).mono fun hnone => ⟨hexp.1, hexp.2, hnone⟩
  · exact (SameTies.refl s).unless

end timers

/-! `HandleApplicationCalls` of `core.c`, with the request taken off its queue. -/

section requests

variable (s : TcpStream)

theorem destroyReset_ties : TiesUnless cfg (s.state ≠ .closed) s (destroyReset cfg s) := by
  unfold destroyReset
  split
  · next hne => exact .inr ⟨hne, (destroyTCPStream_destroyed _).after (.of_eq rfl)⟩
  · exact (SameTies.refl s).unless

theorem leaveTimeout_ties {u : TcpStream} (hu : SameTies cfg s u) :
    let w := if 0 < cfg.tcpTimeout then removeFromTimeoutList u else u
    SameTies cfg s w ∧ w.haveReset = u.haveReset ∧ w.state = u.state := by
  refine ⟨.ite (((removeFromTimeoutList_path u).ties (by decide)).after hu) hu, ?_⟩
  unfold removeFromTimeoutList
  split_ifs <;> exact ⟨rfl, rfl⟩

theorem handleClose_ties :
    TiesUnless cfg (s.haveReset ∧ s.state ≠ .closed) s (handleClose cfg s) := by
  have hset : SameTies cfg s (setFss { s with sndvar.onCloseq := false }) := .of_eq rfl
  obtain ⟨hu, hreset, hst⟩ := leaveTimeout_ties s hset
  unfold handleClose
  dsimp only
  generalize (if 0 < cfg.tcpTimeout then _ else _ : TcpStream) = u at hu hreset hst ⊢
  split_ifs with h1
  · exact ((destroyReset_ties u).after hu).mono fun hne => ⟨hreset ▸ h1, hst ▸ hne⟩
  · exact .inl (MoreTies.after (.link rfl _) (SameTies.more (hu.congr rfl)))
  · exact SameTies.unless ((((beginClose_path u).ties (by decide)).after hu).congr rfl)
  · exact (((addtoControlList_path _).ties (by decide)).after
      (((beginClose_path u).ties (by decide)).after hu)).unless
  · exact hu.unless

theorem handleReset_ties :
    TiesUnless cfg (s.haveReset ∧ s.state ≠ .closed) s (handleReset cfg s) := by
  have hset : SameTies cfg s { s with sndvar.onResetq := false } := .of_eq rfl
  obtain ⟨hu, hreset, hst⟩ := leaveTimeout_ties s hset
  unfold handleReset
  dsimp only
  generalize (if 0 < cfg.tcpTimeout then _ else _ : TcpStream) = u at hu hreset hst ⊢
  split_ifs with h1
  · exact ((destroyReset_ties u).after hu).mono fun hne => ⟨hreset ▸ h1, hst ▸ hne⟩
  · exact .inl (MoreTies.after (.link rfl _) (SameTies.more (hu.congr rfl)))
  · exact (((sendRST_path u).ties (by decide)).after hu).unless

end requests

/-! Every step keeps the lists and their flags in agreement. -/

/-- Taking a stream off a queue and freeing its socket leave the lists alone as well. -/
def Change.relists : Change → Bool
  | .put q | .take q => !q.queue
  | .socket | .advertise => false
  | k => k.loose

theorem Path.listed {ks : List Change} {s t : TcpStream} (h : Path ks s t)
    (hks : ∀ k ∈ ks, k.relists = false) (hs : Listed cfg s) : Listed cfg t := by
  refine h.keeps (fun hk hstep hu => ?_) hs
  have hout := hks _ hk
  cases hl : Change.loose _ with
  | false => exact (hstep.ties hl).more.listed hu
  | true =>
    cases hstep with
    | put q => exact hu.link (by simpa [Change.relists] using hout)
    | take q => exact hu.unlink (by simpa [Change.relists] using hout)
    | socket sock freed closed => exact hu.congr (fun _ _ => rfl) rfl
    | advertise => exact Listed.link (hu.congr (fun _ _ => rfl) rfl) rfl
    | _ => exact absurd (hl.symm.trans hout) nofun

theorem dequeue_listed (q : StreamList) (s : TcpStream) (hs : Listed cfg s) :
    Listed cfg (dequeue cfg q s) := by
  by_cases hocc : s.occ q = 0
  · unfold dequeue
    rw [if_pos hocc]
    exact hs
  · have hu : q.queue → Listed cfg (s.unlink q) := hs.unlink
    unfold dequeue
    rw [if_neg hocc]
    cases q with
    | connectq => exact (addtoControlList_path _).listed (by decide) (hu rfl)
    | sendq => exact (addtoSendList_path _).listed (by decide) ((hu rfl).congr (fun _ _ => rfl) rfl)
    | ackq => exact (enqueueACK_path _ _).listed (by decide) ((hu rfl).congr (fun _ _ => rfl) rfl)
    | closeq => exact (handleClose_ties _).listed (hu rfl)
    | closeqInt => exact (handleCloseInt_path _).listed (by decide) (hu rfl)
    | resetq => exact (handleReset_ties _).listed (hu rfl)
    | resetqInt => exact (handleResetInt_path _).listed (by decide) (hu rfl)
    | destroyq => exact (destroyTCPStream_destroyed _).listed (hu rfl)
    | _ =>
      dsimp only
      rw [unlink_link hocc]
      exact hs

theorem act_listed (env : Env) (s : TcpStream) (a : Action) (hs : Listed cfg s) :
    Listed cfg (act cfg env s a) := by
  have hroom : ∀ room, Listed cfg { s with txRoom := room } :=
    fun room => hs.congr (fun _ _ => rfl) rfl
  cases a with
  | rx seg => exact iteInduction (fun _ => (processTCPPacket_ties env seg s).listed hs) fun _ => hs
  | rtm => exact (checkRtmTimeout_ties env s).listed hs
  | rearrange => exact (rearrangeRTOStore_path env s).listed (by decide) hs
  | timewait => exact (checkTimewaitExpire_ties env s).listed hs
  | timeout =>
    exact iteInduction (fun _ => (checkConnectionTimeout_ties env s).listed hs) fun _ => hs
  | dequeue q => exact dequeue_listed q s hs
  | controlPass room =>
    exact iteInduction (fun _ => (writeTCPControl_ties env _).listed (hroom room)) fun _ => hs
  | dataPass room =>
    exact iteInduction (fun _ => (writeTCPData_ties env _).more.listed (hroom room)) fun _ => hs
  | ackPass room =>
    exact iteInduction (fun _ => (writeTCPACK_path env _).listed (by decide) (hroom room))
      fun _ => hs
  | accept sock =>
    exact iteInduction (fun _ => (mtcpAccept_path s sock).listed (by decide) hs) fun _ => hs
  | write bytes =>
    exact iteInduction (fun _ => (mtcpWrite_path cfg env s bytes).listed (by decide) hs) fun _ => hs
  | recv nonblock peek len =>
    exact iteInduction (fun _ => (mtcpRecv_path s nonblock peek len).listed (by decide) hs)
      fun _ => hs
  | close => exact iteInduction (fun _ => (mtcpClose_path s).listed (by decide) hs) fun _ => hs
  | abort => exact iteInduction (fun _ => (mtcpAbort_path s).listed (by decide) hs) fun _ => hs

theorem step_listed (s : TcpStream) (e : Env × Action) (hs : Listed cfg s) :
    Listed cfg (step cfg s e) := by
  unfold step
  split
  · exact act_listed e.1 s e.2 hs
  · exact hs

theorem Opened.listed {s : TcpStream} (h : Opened cfg s) : Listed cfg s := by
  have hnew : ∀ iss socket, Listed cfg (createTCPStream cfg iss socket) := by
    intro iss socket
    exact ⟨fun l _ => by cases l <;> rfl, nofun⟩
  cases h with
  | active iss sockid room =>
    have hopen : Listed cfg { createTCPStream cfg iss (some sockid) with
        sndvar.cwnd := 1
        sndvar.ssthresh := (createTCPStream cfg iss (some sockid)).sndvar.mss.toUInt32 * 10
        state := .synSent } := (hnew iss (some sockid)).congr (fun _ _ => rfl) rfl
    unfold mtcpConnect
    split
    · exact hopen.link rfl
    · exact hopen.link rfl
  | passive env iss seg =>
    refine (processTCPPacket_ties env seg _).listed ?_
    exact (parseTCPOptions_path env seg _).listed (by decide)
      ((hnew iss none).congr (fun _ _ => rfl) rfl)

end Mtcp
