import Mtcp.Closing
import Mtcp.Stored

namespace Mtcp

open Serial SendBuffer Bytes Runs

variable {cfg : Config}

/-! The states in which the retransmission timer runs. -/

def TcpState.retries : TcpState → Bool
  | .synSent | .synRcvd | .established | .closeWait | .lastAck | .finWait1 | .closing => true
  | _ => false

/-- FIN_WAIT_2 gets no acknowledgement of something in the send buffer that leaves `snd_nxt`
beyond it. -/
def settledAck (s : TcpStream) (seg : Segment) : Bool :=
  match s.sndvar.sndbuf with
  | none => true
  | some buf =>
    s.state != .finWait2 || gt (effectiveAck seg s) (buf.headSeq + UInt32.ofNat buf.len) ||
      geq buf.headSeq (effectiveAck seg s) || !gt s.sndNxt (effectiveAck seg s)

/-! The timer. -/

/-- The timer does not run in FIN_WAIT_2 and TIME_WAIT, and a closed stream has a reason. -/
structure Silent (v : Conn) : Prop where
  begun : v.state ≠ .listen
  reason : v.state = .closed → v.reason ≠ .notClosed
  timer : v.state = .finWait2 ∨ v.state = .timeWait → v.rto = false

theorem Silent.of_retries {v : Conn} (h : v.state.retries) : Silent v := by
  have hne : ∀ st, st.retries = false → v.state ≠ st := by
    rintro st hst rfl
    rw [h] at hst
    cases hst
  refine ⟨hne _ rfl, fun h' => absurd h' (hne _ rfl), ?_⟩
  rintro (h' | h')
  · exact absurd h' (hne _ rfl)
  · exact absurd h' (hne _ rfl)

theorem Silent.retries {v : Conn} (h : Silent v) (hr : v.reason = .notClosed)
    (hrto : v.rto) : v.state.retries := by
  cases hst : v.state with
  | listen => exact absurd hst h.begun
  | closed => exact absurd hr (h.reason hst)
  | finWait2 => exact absurd (h.timer (.inl hst)) (by rw [hrto]; decide)
  | timeWait => exact absurd (h.timer (.inr hst)) (by rw [hrto]; decide)
  | _ => rfl

theorem Silent.keep {v w : Conn} (h : Silent v) (hst : w.state = v.state)
    (hreason : v.reason ≠ .notClosed → w.reason ≠ .notClosed)
    (hrto : v.rto = false → w.rto = false) : Silent w := by
  refine ⟨?_, ?_, ?_⟩
  · rw [hst]
    exact h.begun
  · rw [hst]
    exact fun hs => hreason (h.reason hs)
  · rw [hst]
    exact fun hs => hrto (h.timer hs)

theorem settledAck_move {s : TcpStream} {e : Env × Action} {v : Conn} {buf : TcpSendBuffer}
    {x : UInt32} {fast : Bool} (hc : onAccepted settledAck cfg s e)
    (hg : Move.guard cfg v (.ack buf x fast)) (hcause : Cause cfg s e v (.ack buf x fast))
    (hst : v.state = .finWait2) : geq buf.headSeq x ∨ gt v.sndNxt x = false := by
  obtain ⟨seg, he, hr, rfl, hval, -, -, hsame, -, hstate, -⟩ := hcause
  have hs : s.sndvar.sndbuf = some buf := hsame.sndbuf.symm.trans hg.1
  have hnxt : v.sndNxt = s.sndNxt := hsame.sndNxt
  have h := onAccepted_rx hc he hr hval
  unfold settledAck at h
  rw [hs] at h
  dsimp only at h
  rw [← hstate, hst, hg.2.1] at h
  rw [hnxt]
  simpa using h

theorem acked_timer {v : Conn} {buf : TcpSendBuffer} {x : UInt32} (fast : Bool)
    (hx : geq buf.headSeq x ∨ gt v.sndNxt x = false) (hrto : v.rto = false) :
    (v.acked buf x fast).rto = false := by
  by_cases hgeq : geq buf.headSeq x
  · rw [Conn.acked, if_pos hgeq]
    exact hrto
  · have hnxt : gt (v.ackedNxt x fast) x = false := by
      unfold Conn.ackedNxt
      split_ifs
      · exact gt_self x
      · exact gt_self x
      · exact hx.resolve_left hgeq
    rw [Conn.acked, if_neg hgeq]
    rw [hnxt, Bool.false_and]

theorem Silent.apply {s : TcpStream} {e : Env × Action} {v : Conn} {m : Move}
    (hc : onAccepted settledAck cfg s e) (h : Silent v) (hg : m.guard cfg v)
    (hm : m.calm ∨ m = .destroy) (hcause : Cause cfg s e v m) : Silent (m.apply v) := by
  cases m with
  | crash | assertFail => obtain hm | hm := hm <;> cases hm
  | destroy => exact ⟨h.begun, h.reason, fun _ => rfl⟩
  | timewait keep =>
    refine h.keep rfl id fun hrto => ?_
    change (v.rto && keep) = false
    rw [hrto, Bool.false_and]
  | expire => exact h.keep rfl id fun _ => rfl
  | blame r => exact h.keep rfl (fun _ => hg) id
  | shut r => exact ⟨nofun, fun _ => hg, nofun⟩
  | lastAcked => exact ⟨nofun, fun _ => nofun, nofun⟩
  | reset | listen seq | refused | synAck seq a | loneSyn seq | ackOfSyn =>
    exact .of_retries rfl
  | ack buf x fast =>
    have hst : (v.acked buf x fast).state = v.state := Move.apply_state v (.ack buf x fast)
    have hreason : (v.acked buf x fast).reason = v.reason := by
      unfold Conn.acked
      split <;> rfl
    change Silent (v.acked buf x fast)
    refine ⟨?_, ?_, ?_⟩
    · rw [hst]
      exact h.begun
    · rw [hst, hreason]
      exact h.reason
    · rw [hst]
      rintro (hfw | htw)
      · exact acked_timer fast (settledAck_move hc hg hcause hfw) (h.timer (.inl hfw))
      · obtain ⟨seg, -, -, -, -, -, -, -, -, hstate, hne⟩ := hcause
        exact absurd (hstate.symm.trans htw) hne
  | peerFin seq dest =>
    obtain ⟨-, rfl⟩ | ⟨-, rfl⟩ | ⟨h', rfl⟩ | ⟨h', rfl⟩ := hg.2
    · exact .of_retries rfl
    · exact .of_retries rfl
    · exact ⟨nofun, nofun, fun _ => h.timer (.inl h')⟩
    · exact h.keep h'.symm id id
  | finAcked | closingAcked => exact ⟨nofun, nofun, fun _ => rfl⟩
  | retransmit =>
    have hst : v.retransmitted.state = v.state := Move.apply_state v .retransmit
    apply Silent.of_retries
    change v.retransmitted.state.retries
    rw [hst]
    obtain h' | h' | ⟨h' | h', -⟩ | ⟨h' | h' | h', -⟩ := hg.2.2 <;> rw [h'] <;> rfl
  | beginClose =>
    apply Silent.of_retries
    change (if v.state = .established then TcpState.finWait1 else .lastAck).retries
    split <;> rfl
  | emitSyn seg =>
    apply Silent.of_retries
    change v.state.retries
    obtain ⟨h', -⟩ | ⟨h', -⟩ := hg.2.2.2.2.2.2 <;> rw [h'] <;> rfl
  | emitFin seg =>
    apply Silent.of_retries
    change v.state.retries
    obtain ⟨h' | h', -⟩ | ⟨h', -⟩ := hg.2.2.2.2.2.2.2 <;> rw [h'] <;> rfl
  | emitData buf seg =>
    apply Silent.of_retries
    change v.state.retries
    have hflush := hg.1
    cases hst : v.state <;> rw [hst] at hflush <;> first | rfl | cases hflush
  | emitAck seg =>
    refine h.keep rfl id fun hrto => ?_
    obtain ⟨⟨hsyn, hfin, -, -⟩, hpay, -⟩ := hg
    change (if 0 < seg.payload.length || seg.syn || seg.fin then v.rto || !v.timewait
      else v.rto) = false
    rw [hpay, hsyn, hfin]
    exact hrto
  | emitRst seg =>
    refine h.keep rfl id fun hrto => ?_
    obtain ⟨hsyn, hfin, -, -, hpay, -⟩ := hg
    change (if 0 < seg.payload.length || seg.syn || seg.fin then v.rto || !v.timewait
      else v.rto) = false
    rw [hpay, hsyn, hfin]
    exact hrto
  | put buf bytes =>
    apply Silent.of_retries
    change v.state.retries
    obtain h' | h' := hg.1 <;> rw [h'] <;> rfl
  | _ => exact h.keep rfl id id

theorem silent_started {v : Conn} (h : Started v) : Silent v := by
  cases h with
  | active | passive => exact .of_retries rfl

/-! `HandleRTO` in the states it knows. -/

def Known (t : TcpStream) : Prop := t.fault ≠ some .unknownState

theorem Known.crash {t u : TcpStream} (h : Known t) {f : Fault} (hf : f ≠ .unknownState)
    (hu : u.fault = t.fault.or (some f)) : Known u := by
  rw [Known, hu]
  cases ht : t.fault with
  | none => simpa using hf
  | some g =>
    rw [Known, ht] at h
    exact h

theorem Known.destroyTCPStream {t : TcpStream} (h : Known t) : Known (destroyTCPStream cfg t) := by
  have hfault := congrArg Conn.fault (conn_destroyTCPStream cfg t)
  by_cases hon : t.onHashTable
  · rw [if_pos hon] at hfault
    rw [Known, show (Mtcp.destroyTCPStream cfg t).fault = t.fault from hfault]
    exact h
  · rw [if_neg hon] at hfault
    exact h.crash (f := .notOnHashTable) (by decide) hfault

theorem Known.addtoSendList {t : TcpStream} (h : Known t) : Known (addtoSendList t) := by
  have hfault := congrArg Conn.fault (conn_addtoSendList t)
  by_cases hnone : t.sndvar.sndbuf.isNone
  · rw [if_pos hnone] at hfault
    exact h.crash (f := .noSendBuffer) (by decide) hfault
  · rw [if_neg hnone] at hfault
    rw [Known, show (Mtcp.addtoSendList t).fault = t.fault from hfault]
    exact h

theorem Known.retransmit {t : TcpStream} (h : Known t) : Known (retransmit t) := by
  have hcontrol : Known (addtoControlList { t with sndNxt := t.sndvar.sndUna }) := by
    have hfault := congrArg Conn.fault (conn_addtoControlList { t with sndNxt := t.sndvar.sndUna })
    exact fun hu => h (hfault.symm.trans hu)
  have hback : Known { removeFromControlList { t with sndNxt := t.sndvar.sndUna } with
      controlListWaiting := true } := by
    have hfault := congrArg Conn.fault
      (conn_removeFromControlList { t with sndNxt := t.sndvar.sndUna })
    exact fun hu => h (hfault.symm.trans hu)
  unfold Mtcp.retransmit
  dsimp only
  split
  · exact Known.addtoSendList h
  · exact Known.addtoSendList h
  all_goals first
    | exact hcontrol
    | split
      · exact hback.addtoSendList
      · exact hcontrol

theorem Known.raiseErrorOrDestroy {t : TcpStream} (h : Known t) :
    Known (raiseErrorOrDestroy cfg t) := by
  unfold Mtcp.raiseErrorOrDestroy
  split
  · exact h
  · exact h.destroyTCPStream

theorem Known.handleRTO {t : TcpStream} (h : Known t)
    (hst : t.closeReason = .notClosed → t.state.retries) : Known (handleRTO cfg t) := by
  unfold Mtcp.handleRTO
  by_cases hzero : t.sndvar.rto = 0
  · rw [if_pos hzero]
    exact h.crash (f := .rtoZero) (by decide) rfl
  rw [if_neg hzero]
  by_cases hclosed : t.closeReason ≠ .notClosed
  · rw [if_pos hclosed]
    exact h
  rw [if_neg hclosed]
  by_cases hmax : ¬ t.sndvar.nrtx < 16
  · rw [if_pos hmax]
    unfold exceedMaxRtx
    split
    · exact Known.destroyTCPStream h
    · exact Known.raiseErrorOrDestroy h
  rw [if_neg hmax]
  have hoff : Known (backOff t) := h
  have hstate : (backOff t).state.retries := hst (not_not.mp hclosed)
  unfold retryOrGiveUp
  cases hs : (backOff t).state with
  | synSent =>
    dsimp only
    split
    · exact Known.raiseErrorOrDestroy hoff
    · exact hoff.retransmit
  | synRcvd =>
    dsimp only
    split
    · exact hoff.destroyTCPStream
    · exact hoff.retransmit
  | established | closeWait | lastAck | finWait1 | closing => exact hoff.retransmit
  | closed | listen | finWait2 | timeWait =>
    rw [hs] at hstate
    cases hstate

/-- In a run in which FIN_WAIT_2 gets no acknowledgement that leaves `snd_nxt` beyond it,
`HandleRTO` is called only in states it knows. -/
theorem rto_only_where_handled (s : TcpStream) (es : List (Env × Action)) (hs : Opened cfg s)
    (ha : Along (step cfg) (fun s e => onAccepted settledAck cfg s e = true) s es)
    (hf : (run cfg s es).fault = none) (env : Env) :
    (rtoExpired env (run cfg s es) = true → (run cfg s es).closeReason = .notClosed →
      (run cfg s es).state.retries = true) ∧
    (step cfg (run cfg s es) (env, .rtm)).fault ≠ some .unknownState := by
  obtain ⟨-, hsilent⟩ := run_running (fun s e v m hc _ => Silent.apply hc)
    (fun v => silent_started) hs ha hf
  generalize run cfg s es = t at hf hsilent
  have hretries : rtoExpired env t = true → t.closeReason = .notClosed →
      t.state.retries = true := by
    intro hexpired hopen
    have hslot := of_decide_eq_true hexpired
    refine hsilent.retries hopen ((onWheel_eq_true_iff _).mpr ?_)
    rw [hslot.1]
    exact Int.natCast_nonneg _
  refine ⟨hretries, ?_⟩
  have hknown : Known t := by
    rw [Known, hf]
    nofun
  unfold step
  rw [hf]
  change Known (checkRtmTimeout cfg env t)
  unfold checkRtmTimeout
  split
  · next hslot =>
    have hfault : Known ({ t with onRtoIdx := -1 }.unlink .rto) := hknown
    exact hfault.handleRTO fun hopen => hretries (decide_eq_true hslot) hopen
  · exact hknown

def ackOf (x : UInt32) : Action := .rx { seq := 501, ackSeq := x, window := 1000, ack := true }

def finAcknowledged : List Action :=
  clientHandshake ++ [.write [1, 2, 3], .dequeue .sendq, .dataPass 1, ackOf 104, .close,
    .dequeue .closeq, .controlPass 1, ackOf 105]

theorem rto_only_where_handled_client :
    (run .small client (atRest finAcknowledged)).state = .finWait2 ∧
    (step .small (run .small client (atRest finAcknowledged)) ({}, .rtm)).fault ≠
      some .unknownState :=
  ⟨by decide, (rto_only_where_handled client (atRest finAcknowledged) client_opened (by decide)
    (by decide) {}).2⟩

/-- An acknowledgement half the sequence space ahead of the empty send buffer takes `snd_nxt`
with it, an old one takes `snd_nxt` back, and when the first one comes again the timer is
started in FIN_WAIT_2. It expires, and the assertion fails. -/
theorem timer_started_in_fin_wait_2 :
    let t := run .small client (atRest (finAcknowledged ++
      [ackOf 2147483752, ackOf 103, ackOf 2147483752]))
    t.fault = none ∧ t.state = .finWait2 ∧ t.closeReason = .notClosed ∧
      rtoExpired {} t = true ∧ (step .small t ({}, .rtm)).fault = some .unknownState := by
  decide

end Mtcp
