import Mtcp.Refine.Calls

namespace Mtcp

open Serial SendBuffer RingBuffer Bytes Runs Move

variable {cfg : Config}

/-! Invariants of the moves hold in every state a run reaches. -/

/-- A move that neither ends the run nor the stream. -/
def Move.calm : Move → Bool
  | .crash _ | .assertFail _ | .destroy => false
  | _ => true

variable {st : TcpState} {s : TcpStream} {v : Conn} {m : Move}

theorem Move.apply_alive (hm : m.calm) : (m.apply v).alive = v.alive := by
  cases m with
  | crash w => cases hm
  | ack buf x fast => exact (congrArg Conn.alive (v.acked_eq buf x fast) :)
  | retransmit => exact (congrArg Conn.alive v.retransmitted_eq :)
  | _ => first | rfl | cases hm

theorem Move.apply_fault (hm : m.calm) : (m.apply v).fault = v.fault := by
  cases m with
  | crash | assertFail => cases hm
  | ack buf x fast => exact (congrArg Conn.fault (v.acked_eq buf x fast) :)
  | retransmit => exact (congrArg Conn.fault v.retransmitted_eq :)
  | _ => rfl

theorem Move.calm_of_fault (hg : m.guard cfg v) (h : (m.apply v).fault = none) :
    m.calm ∨ m = .destroy := by
  cases m with
  | crash w =>
    obtain ⟨_, f, _, hw⟩ := hg
    change w.fault = none at h
    rw [hw] at h
    cases hf : v.fault <;> simp [hf] at h
  | assertFail f =>
    change v.fault.or (some f) = none at h
    cases hf : v.fault <;> simp [hf] at h
  | destroy => exact .inr rfl
  | _ => exact .inl rfl

def Move.dest (v : Conn) : Move → TcpState
  | .crash w => w.state
  | .shut _ => .closed
  | .reset | .refused => .closeWait
  | .listen _ | .loneSyn _ => .synRcvd
  | .synAck _ _ | .ackOfSyn => .established
  | .peerFin _ dest => dest
  | .finAcked => .finWait2
  | .closingAcked => .timeWait
  | .lastAcked => .closed
  | .beginClose => if v.state = .established then .finWait1 else .lastAck
  | _ => v.state

theorem Move.apply_state (v : Conn) (m : Move) : (m.apply v).state = m.dest v := by
  cases m with
  | ack buf x fast => exact (congrArg Conn.state (v.acked_eq buf x fast) :)
  | retransmit => exact (congrArg Conn.state v.retransmitted_eq :)
  | _ => rfl

theorem Move.apply_irs (hm : m.calm) (hne : ∀ seq a, m ≠ .synAck seq a) :
    (m.apply v).irs = v.irs := by
  cases m with
  | crash w => cases hm
  | synAck seq a => exact absurd rfl (hne seq a)
  | ack buf x fast => exact (congrArg Conn.irs (v.acked_eq buf x fast) :)
  | retransmit => exact (congrArg Conn.irs v.retransmitted_eq :)
  | _ => rfl

theorem Move.apply_connects (hm : m.calm) : (m.apply v).connects ≤ v.connects := by
  cases m with
  | crash w => cases hm
  | ack buf x fast => exact (congrArg Conn.connects (v.acked_eq buf x fast)).le
  | retransmit => exact (congrArg Conn.connects v.retransmitted_eq).le
  | connect => exact Nat.sub_le _ _
  | _ => exact le_refl _

def Move.effects (v : Conn) : Move → List Effect
  | .listen seq | .loneSyn seq => [.peerSyn seq]
  | .synAck seq a => [.establish ⟨v.sndUna + 1, a, v.iss, seq, seq + 1⟩, .peerSyn seq]
  | .ackOfSyn => [.establish ⟨v.sndUna + 1, v.iss + 1, v.iss, v.irs, v.irs + 1⟩]
  | .peerFin seq _ => [.consumeFin seq v.received]
  | .emitSyn seg | .emitAck seg | .emitFin seg | .emitRst seg | .emitData _ seg => [.emit seg]
  | .put _ bytes => [.take bytes]
  | .ack buf x _ => if geq buf.headSeq x then [] else
      [.release (buf.len - (sbRemove buf (fwd buf.headSeq x)).2.len)]
  | .hand buf n => [.hand (slice buf.data buf.head n)]
  | _ => []

theorem Move.apply_log (hm : m.calm ∨ m = .destroy) : (m.apply v).log = m.effects v ++ v.log := by
  cases m with
  | crash w => obtain h | h := hm <;> cases h
  | ack buf x fast =>
    change (v.acked buf x fast).log = _
    unfold Conn.acked
    dsimp only [effects]
    split <;> rfl
  | retransmit => exact (congrArg Conn.log v.retransmitted_eq :)
  | _ => rfl

theorem Conn.Shape.of_late (hs : v.state.early = false) (hq : v.sends = if v.sendq then 1 else 0)
    (ho : v.closes + v.closesInt ≤ if v.closed then 1 else 0)
    (htw : v.timewait → v.state = .timeWait ∨ v.state = .closed) : v.Shape where
  sndbuf he := by rw [hs] at he; cases he
  lists he := by rw [hs] at he; cases he
  closing he := by rw [hs] at he; cases he
  timewait := htw
  queue := hq
  once := ho

theorem Conn.Shape.timewait_eq_false (h : v.Shape) {st : TcpState} (hst : v.state = st)
    (hne : st ≠ .timeWait ∧ st ≠ .closed) : v.timewait = false := by
  subst hst
  cases htw : v.timewait with
  | false => rfl
  | true =>
    obtain h' | h' := h.timewait htw
    · exact absurd h' hne.1
    · exact absurd h' hne.2

/-- What the queues of the application hold of a stream has not changed. -/
structure SameQueues (v w : Conn) : Prop where
  sends : w.sends = v.sends
  sendq : w.sendq = v.sendq
  closes : w.closes = v.closes
  closesInt : w.closesInt = v.closesInt
  closed : w.closed = v.closed

theorem SameQueues.queue {v w : Conn} (hq : SameQueues v w) (h : v.Shape) :
    w.sends = if w.sendq then 1 else 0 := by
  rw [hq.sends, hq.sendq]
  exact h.queue

theorem SameQueues.once {v w : Conn} (hq : SameQueues v w) (h : v.Shape) :
    w.closes + w.closesInt ≤ if w.closed then 1 else 0 := by
  rw [hq.closes, hq.closesInt, hq.closed]
  exact h.once

theorem Conn.Shape.keep {v w : Conn} (h : v.Shape) (hs : w.state = v.state)
    (hq : SameQueues v w) (htw : w.timewait = v.timewait)
    (hl : v.state.early = false) : w.Shape := by
  refine .of_late (by rw [hs]; exact hl) (hq.queue h) (hq.once h) fun h' => ?_
  rw [hs]
  exact h.timewait (htw ▸ h')

theorem Conn.Shape.move {v w : Conn} (h : v.Shape) {st : TcpState} (hst : v.state = st)
    (hne : st ≠ .timeWait ∧ st ≠ .closed) (hl : w.state.early = false)
    (hq : SameQueues v w) (htw : w.timewait = v.timewait) : w.Shape := by
  refine .of_late hl (hq.queue h) (hq.once h) fun h' => ?_
  rw [htw, h.timewait_eq_false hst hne] at h'
  cases h'

theorem not_early_of_flushes (h : st.flushes) : st.early = false := by
  cases st <;> first | rfl | cases h

theorem not_early_of_le (h : .established ≤ st) : st.early = false := by
  cases st <;> first | rfl | exact absurd h (by decide)

theorem acked_frame (v : Conn) (buf : TcpSendBuffer) (x : UInt32) (fast : Bool) :
    (v.acked buf x fast).timewait = v.timewait ∧ SameQueues v (v.acked buf x fast) := by
  rw [v.acked_eq]
  exact ⟨rfl, rfl, rfl, rfl, rfl, rfl⟩

theorem retransmitted_frame (v : Conn) : v.retransmitted.timewait = v.timewait ∧
    v.retransmitted.sndbuf = v.sndbuf ∧ v.retransmitted.finSent = v.finSent ∧
    SameQueues v v.retransmitted := by
  rw [v.retransmitted_eq]
  exact ⟨rfl, rfl, rfl, rfl, rfl, rfl, rfl, rfl⟩

theorem retransmitted_una (v : Conn) : v.retransmitted.sndUna = v.sndUna ∧
    v.retransmitted.iss = v.iss ∧ v.retransmitted.sndNxt = v.sndUna := by
  rw [v.retransmitted_eq]
  exact ⟨rfl, rfl, rfl⟩

theorem retransmitted_early (h : v.state.early) :
    v.retransmitted = { v with rto := false, sndNxt := v.sndUna, control := true } := by
  unfold Conn.retransmitted
  cases hst : v.state <;> rw [hst] at h <;> first | rfl | cases h

theorem Conn.Shape.not_early_of_sndbuf (h : v.Shape) (hb : v.sndbuf.isSome) :
    v.state.early = false := by
  cases he : v.state.early with
  | false => rfl
  | true =>
    rw [h.sndbuf he] at hb
    cases hb

theorem state_of {f : TcpState → Bool} {b : Bool} (h : v.state = st) (hf : f st = b) :
    f v.state = b := h ▸ hf

theorem shape_apply (h : v.Shape) (hg : m.guard cfg v) (hm : m.calm ∨ m = .destroy) :
    (m.apply v).Shape := by
  have hst := apply_state v m
  have hopening : ∀ w, v.state = .listen ∨ v.state = .synSent → w.sndbuf = v.sndbuf →
      w.sendList = v.sendList ∧ w.sendq = v.sendq ∧ w.waiting = v.waiting →
      w.finSent = v.finSent → w.timewait = v.timewait → SameQueues v w → w.Shape := by
    intro w hv h1 h2 h3 h4 h5
    have he : v.state.early := by obtain hv | hv := hv <;> rw [hv] <;> rfl
    have htw : v.timewait = false := by
      obtain hv | hv := hv
      · exact h.timewait_eq_false hv (by decide)
      · exact h.timewait_eq_false hv (by decide)
    refine ⟨fun _ => h1.trans (h.sndbuf he), fun _ => ?_, fun _ => ?_, fun h' => ?_,
      h5.queue h, h5.once h⟩
    · rw [h2.1, h2.2.1, h2.2.2]
      exact h.lists he
    · rw [h5.closes, h5.closesInt, h3]
      exact h.closing he
    · rw [h4, htw] at h'
      cases h'
  cases m with
  | crash | assertFail => obtain h' | h' := hm <;> cases h'
  | destroy =>
    exact ⟨fun _ => rfl, fun he => ⟨rfl, (h.lists he).2⟩, h.closing, fun h' => (by cases h'),
      h.queue, h.once⟩
  | control | uncontrol | expire | blame r | bareAck | restart | connect | hand buf n =>
    exact ⟨h.sndbuf, h.lists, h.closing, h.timewait, h.queue, h.once⟩
  | unwait =>
    exact ⟨h.sndbuf, fun he => ⟨(h.lists he).1, (h.lists he).2.1, rfl⟩, h.closing, h.timewait,
      h.queue, h.once⟩
  | closeMark =>
    refine ⟨h.sndbuf, h.lists, h.closing, h.timewait, h.queue, ?_⟩
    have ho := h.once
    change v.closes + v.closesInt ≤ 1
    split at ho <;> omega
  | wait => exact h.keep rfl ⟨rfl, rfl, rfl, rfl, rfl⟩ rfl hg
  | postpone =>
    obtain ⟨hl, hc, h0, h1, _⟩ := hg
    refine .of_late hl h.queue ?_ h.timewait
    change v.closes + (v.closesInt + 1) ≤ if v.closed then 1 else 0
    rw [hc, h0, h1]
    decide
  | timewait keep => exact .of_late (state_of hg rfl) h.queue h.once fun _ => .inl hg
  | shut | lastAcked => exact .of_late rfl h.queue h.once fun _ => .inr rfl
  | reset =>
    obtain hg | hg := hg
    · exact h.move hg (by decide) rfl ⟨rfl, rfl, rfl, rfl, rfl⟩ rfl
    · exact h.move hg (by decide) rfl ⟨rfl, rfl, rfl, rfl, rfl⟩ rfl
  | listen seq =>
    exact hopening _ (.inl hg) rfl ⟨rfl, rfl, rfl⟩ rfl rfl ⟨rfl, rfl, rfl, rfl, rfl⟩
  | loneSyn seq =>
    exact hopening _ (.inr hg) rfl ⟨rfl, rfl, rfl⟩ rfl rfl ⟨rfl, rfl, rfl, rfl, rfl⟩
  | refused | finAcked | closingAcked =>
    exact h.move hg.1 (by decide) rfl ⟨rfl, rfl, rfl, rfl, rfl⟩ rfl
  | synAck seq a => exact h.move hg.2.1 (by decide) rfl ⟨rfl, rfl, rfl, rfl, rfl⟩ rfl
  | ackOfSyn => exact h.move hg.2 (by decide) rfl ⟨rfl, rfl, rfl, rfl, rfl⟩ rfl
  | jump x => exact h.keep rfl ⟨rfl, rfl, rfl, rfl, rfl⟩ rfl (state_of hg rfl)
  | receive frag buf seg =>
    obtain h' | h' | h' := hg.1
    · exact h.keep rfl ⟨rfl, rfl, rfl, rfl, rfl⟩ rfl (state_of h' rfl)
    · exact h.keep rfl ⟨rfl, rfl, rfl, rfl, rfl⟩ rfl (state_of h' rfl)
    · exact h.keep rfl ⟨rfl, rfl, rfl, rfl, rfl⟩ rfl (state_of h' rfl)
  | ack buf x fast =>
    obtain ⟨h1, h2⟩ := acked_frame v buf x fast
    refine h.keep hst h2 h1 (h.not_early_of_sndbuf ?_)
    rw [hg.1]
    rfl
  | peerFin seq dest =>
    obtain ⟨h', rfl⟩ | ⟨h', rfl⟩ | ⟨h', rfl⟩ | ⟨h', rfl⟩ := hg.2
    · exact h.move h' (by decide) rfl ⟨rfl, rfl, rfl, rfl, rfl⟩ rfl
    · exact h.move h' (by decide) rfl ⟨rfl, rfl, rfl, rfl, rfl⟩ rfl
    · exact h.move h' (by decide) rfl ⟨rfl, rfl, rfl, rfl, rfl⟩ rfl
    · exact h.keep h'.symm ⟨rfl, rfl, rfl, rfl, rfl⟩ rfl (state_of h' rfl)
  | retransmit =>
    obtain ⟨h1, h2, h3, hq⟩ := retransmitted_frame v
    change v.retransmitted.Shape
    change v.retransmitted.state = v.state at hst
    refine ⟨fun he => ?_, fun he => ?_, fun he => ?_, fun h' => ?_, hq.queue h, hq.once h⟩
    · rw [hst] at he
      exact h2.trans (h.sndbuf he)
    · rw [hst] at he
      rw [retransmitted_early he]
      exact h.lists he
    · rw [hst] at he
      rw [hq.closes, hq.closesInt, h3]
      exact h.closing he
    · rw [hst]
      exact h.timewait (h1 ▸ h')
  | takeSendq =>
    refine .of_late (h.not_early_of_sndbuf hg.2) ?_ h.once h.timewait
    have hq := h.queue
    change v.sends - 1 = 0
    split at hq <;> omega
  | takeClose =>
    refine ⟨h.sndbuf, h.lists, fun he => ?_, h.timewait, h.queue, ?_⟩
    · obtain ⟨h1, _⟩ := h.closing he
      change 0 < v.closes at hg
      omega
    · exact (Nat.add_le_add_right (Nat.sub_le _ _) _).trans h.once
  | takeCloseInt =>
    refine ⟨h.sndbuf, h.lists, fun he => ?_, h.timewait, h.queue, ?_⟩
    · obtain ⟨_, h1, _⟩ := h.closing he
      change 0 < v.closesInt at hg
      omega
    · exact (Nat.add_le_add_left (Nat.sub_le _ _) _).trans h.once
  | beginClose =>
    have hl : (Move.apply v .beginClose).state.early = false := by
      rw [hst]
      change (if v.state = .established then TcpState.finWait1 else .lastAck).early = false
      split <;> rfl
    obtain hg | hg := hg.1
    · exact h.move hg (by decide) hl ⟨rfl, rfl, rfl, rfl, rfl⟩ rfl
    · exact h.move hg (by decide) hl ⟨rfl, rfl, rfl, rfl, rfl⟩ rfl
  | emitSyn seg =>
    refine ⟨h.sndbuf, h.lists, fun he => ⟨(h.closing he).1, (h.closing he).2.1, ?_⟩, h.timewait,
      h.queue, h.once⟩
    change (v.finSent || seg.fin) = false
    rw [(h.closing he).2.2, hg.2.2.1]
    rfl
  | emitAck seg => exact h.keep rfl ⟨rfl, rfl, rfl, rfl, rfl⟩ rfl (not_early_of_le hg.2.2.2.2)
  | emitFin seg =>
    obtain ⟨h' | h', _⟩ | ⟨h', _⟩ := hg.2.2.2.2.2.2.2
    · exact h.keep rfl ⟨rfl, rfl, rfl, rfl, rfl⟩ rfl (state_of h' rfl)
    · exact h.keep rfl ⟨rfl, rfl, rfl, rfl, rfl⟩ rfl (state_of h' rfl)
    · exact h.keep rfl ⟨rfl, rfl, rfl, rfl, rfl⟩ rfl (state_of h' rfl)
  | emitRst seg => exact h.keep rfl ⟨rfl, rfl, rfl, rfl, rfl⟩ rfl (state_of hg.2.2.2.2.2.2.2 rfl)
  | emitData buf seg => exact h.keep rfl ⟨rfl, rfl, rfl, rfl, rfl⟩ rfl (not_early_of_flushes hg.1)
  | unqueue =>
    exact ⟨h.sndbuf, fun he => ⟨rfl, (h.lists he).2⟩, h.closing, h.timewait, h.queue, h.once⟩
  | put buf bytes =>
    have hl : v.state.early = false := by
      obtain h' | h' := hg.1
      · exact state_of h' rfl
      · exact state_of h' rfl
    refine .of_late hl ?_ h.once h.timewait
    have hq := h.queue
    change (if v.sendq || v.sendList then v.sends else v.sends + 1) =
      if v.sendq || !v.sendList then 1 else 0
    cases hsq : v.sendq <;> cases hsl : v.sendList <;> simp [hsq] at hq ⊢ <;> exact hq
  | closeCall =>
    have hl : v.state.early = false := by
      obtain h' | h' := hg.1
      · exact state_of h' rfl
      · exact state_of h' rfl
    refine .of_late hl h.queue ?_ h.timewait
    have ho := h.once
    rw [hg.2] at ho
    change v.closes + 1 + v.closesInt ≤ 1
    simp only [Bool.false_eq_true, if_false] at ho
    omega

structure Running (v : Conn) : Prop where
  fault : v.fault = none
  shape : v.Shape

structure Live (v : Conn) : Prop extends Running v where
  alive : v.alive = true

theorem Steps.running {e : Env × Action} {inv : Conn → Prop}
    (hmove : ∀ v m, Running v → inv v → m.guard cfg v → m.calm ∨ m = .destroy →
      Cause cfg s e v m → inv (m.apply v))
    {v w : Conn} (h : Steps cfg s e v w) (hshape : v.Shape) (hv : inv v) (hf : w.fault = none) :
    Running w ∧ inv w := by
  induction h with
  | refl => exact ⟨⟨hf, hshape⟩, hv⟩
  | tail _ hm ih =>
    obtain ⟨m, hg, hc, rfl⟩ := hm
    obtain ⟨hrun, hinv⟩ := ih (fault_of_apply hg hf)
    have hcalm := calm_of_fault hg hf
    exact ⟨⟨hf, shape_apply hrun.shape hg hcalm⟩, hmove _ m hrun hinv hg hcalm hc⟩

def Conn.created (iss : UInt32) : Conn where
  state := .listen
  reason := .notClosed
  alive := true
  fault := none
  iss := iss
  irs := 0
  sndNxt := iss
  sndUna := iss
  fss := 0
  finSent := false
  sndbuf := none
  rcvNxt := 0
  rcvbuf := none
  control := false
  sendList := false
  sendq := false
  waiting := false
  closed := false
  rto := false
  timewait := false
  connects := 0
  closes := 0
  closesInt := 0
  sends := 0
  log := []

theorem conn_mtcpConnect (iss : UInt32) (sockid : Nat) (room : Bool) :
    conn (mtcpConnect cfg iss sockid room) =
      { Conn.created iss with state := .synSent, connects := if room then 1 else 0 } := by
  cases room <;> rfl

theorem conn_handleListen (seg : Segment) (t : TcpStream) (hst : t.state = .listen)
    (hsyn : seg.syn) :
    conn (handleListen seg t) = { Move.apply (conn t) (.listen seg.seq) with control := true } := by
  unfold handleListen
  rw [if_pos hsyn]
  rw [if_pos hst, conn_addtoControlList]
  rfl

theorem conn_processValidated_listen (env : Env) (seg : Segment) (t : TcpStream)
    (hst : t.state = .listen) (hsyn : seg.syn) : conn (processValidated cfg env seg t) =
      { Move.apply (conn t) (.listen seg.seq) with control := true } := by
  unfold processValidated
  have hu : conn (updateTimeoutList { t with
      sndvar.peerWnd := segmentWindow seg t
      lastActiveTs := env.curTs }) = conn t := conn_updateTimeoutList _
  generalize updateTimeoutList _ = u at hu ⊢
  have hus : u.state = .listen := (congrArg Conn.state hu).trans hst
  have hlate : ¬ TcpState.synSent < u.state := by
    rw [hus]
    decide
  have hd : ∀ w, conn w = conn u → conn (dispatch cfg env seg w) =
      { Move.apply (conn t) (.listen seg.seq) with control := true } := by
    intro w hw
    have hws : w.state = .listen := (congrArg Conn.state hw).trans hus
    unfold dispatch
    rw [hws]
    rw [conn_handleListen seg w hws hsyn, hw, hu]
  dsimp only
  rw [if_neg hlate]
  split
  · exact hd _ rfl
  · exact hd _ rfl

def Conn.accepted (iss seq : UInt32) : Conn :=
  { Conn.created iss with
    state := .synRcvd
    irs := seq
    rcvNxt := seq + 1
    control := true
    log := [.peerSyn seq] }

theorem conn_createNewFlow (env : Env) (iss : UInt32) (seg : Segment) (hsyn : seg.syn) :
    conn (createNewFlow cfg env iss seg) = Conn.accepted iss seg.seq ∨
      conn (createNewFlow cfg env iss seg) = (Conn.accepted iss seg.seq).crash .optionLoop := by
  have hopen := conn_parseTCPOptions env seg { createTCPStream cfg iss none with
    rcvvar.irs := seg.seq
    sndvar.peerWnd := seg.window.toUInt32, sndvar.cwnd := 1
    rcvNxt := seg.seq }
  unfold createNewFlow handlePassiveOpen
  generalize Options.parseTCPOptions env seg _ = t at hopen ⊢
  have hst : t.state = .listen := by
    obtain h | h := hopen <;> exact congrArg Conn.state h
  have hearly : ¬ TcpState.synRcvd < t.state := by
    rw [hst]
    decide
  unfold processTCPPacket
  rw [if_neg hearly, conn_processValidated_listen env seg t hst hsyn]
  obtain h | h := hopen
  · rw [h]
    exact .inl rfl
  · rw [h]
    exact .inr rfl

inductive Started : Conn → Prop
  | active (iss : UInt32) (connects : Nat) (h : connects ≤ 1) :
      Started { Conn.created iss with state := .synSent, connects := connects }
  | passive (iss seq : UInt32) : Started (Conn.accepted iss seq)

theorem Opened.started (h : Opened cfg s) (hf : s.fault = none) : Started (conn s) := by
  cases h with
  | active iss sockid room =>
    rw [conn_mtcpConnect]
    exact .active iss _ (by split <;> omega)
  | passive env iss seg hsyn hack =>
    obtain h | h := conn_createNewFlow env iss seg hsyn
    · rw [h]
      exact .passive iss seg.seq
    · exact absurd ((congrArg Conn.fault h).symm.trans hf) (Conn.crash_fault _ _)

theorem Opened.fault_cases (h : Opened cfg s) :
    s.fault = none ∨ ∃ f, s.fault = some f ∧ f.sendAssert = false := by
  cases h with
  | active iss sockid room => exact .inl (congrArg Conn.fault (conn_mtcpConnect iss sockid room))
  | passive env iss seg hsyn hack =>
    obtain h | h := conn_createNewFlow env iss seg hsyn
    · exact .inl (congrArg Conn.fault h)
    · exact .inr ⟨.optionLoop, congrArg Conn.fault h, rfl⟩

theorem Started.shape (h : Started v) : v.Shape := by
  cases h with
  | active | passive =>
    exact ⟨fun _ => rfl, fun _ => ⟨rfl, rfl, rfl⟩, fun _ => ⟨rfl, rfl, rfl⟩,
      fun h' => (by cases h'), rfl, Nat.le_refl _⟩

theorem step_path (s : TcpStream) (e : Env × Action) (hshape : s.fault = none → (conn s).Shape) :
    Steps cfg s e (conn s) (conn (step cfg s e)) := by
  cases hf : s.fault with
  | none => exact step_steps (hshape hf)
  | some f =>
    unfold step
    rw [hf]
    exact .refl _

theorem step_shape (s : TcpStream) (e : Env × Action) (hshape : s.fault = none → (conn s).Shape)
    (hf : (step cfg s e).fault = none) : (conn (step cfg s e)).Shape := by
  have hpath : Steps cfg s e _ _ := step_path s e hshape
  have hrun := @Steps.running cfg s e (fun _ => True) (fun _ _ _ _ _ _ _ => trivial) _ _ hpath
    (hshape (hpath.fault_eq_none hf)) trivial hf
  exact hrun.1.shape

theorem Move.fault_stays (hg : m.guard cfg v) {f : Fault} (hf : v.fault = some f) :
    (m.apply v).fault = some f := by
  cases m with
  | crash w =>
    obtain ⟨_, g, _, hw⟩ := hg
    exact hw.trans (by rw [hf]; rfl)
  | assertFail g =>
    change v.fault.or (some g) = _
    rw [hf]
    rfl
  | ack buf x fast => exact (congrArg Conn.fault (v.acked_eq buf x fast)).trans hf
  | retransmit => exact (congrArg Conn.fault v.retransmitted_eq).trans hf
  | _ => exact hf

theorem Move.alive_of_apply (hg : m.guard cfg v) (h : (m.apply v).alive) : v.alive := by
  cases hm : m.calm with
  | true => exact (apply_alive hm).symm.trans h
  | false =>
    cases m with
    | crash w => exact hg.1.symm.trans h
    | assertFail f => exact h
    | destroy => cases h
    | _ => cases hm

/-- What the process has died of, if it has died, is not a check of a flush. -/
def Unasserted (inv : Conn → Prop) (v : Conn) : Prop :=
  v.fault = none ∧ Live v ∧ inv v ∨ ∃ f : Fault, v.fault = some f ∧ f.sendAssert = false

theorem Steps.assertless {e : Env × Action} {inv : Conn → Prop}
    (hmove : ∀ v m, Live v → inv v → m.guard cfg v → m.calm → Cause cfg s e v m → inv (m.apply v))
    (hsafe : ∀ v, inv v → ∀ f, ¬ guard cfg v (.assertFail f)) {v w : Conn}
    (h : Steps cfg s e v w) (hv : v.alive → Unasserted inv v) (hal : w.alive) :
    Unasserted inv w := by
  induction h with
  | refl => exact hv hal
  | tail _ hm ih =>
    obtain ⟨m, hg, hc, rfl⟩ := hm
    obtain ⟨hf, hl, hinv⟩ | ⟨f, hf, hno⟩ := ih (alive_of_apply hg hal)
    · cases hcalm : m.calm with
      | true =>
        have hf' := (apply_fault hcalm).trans hf
        exact .inl ⟨hf', ⟨⟨hf', shape_apply hl.shape hg (.inl hcalm)⟩, hal⟩,
          hmove _ m hl hinv hg hcalm hc⟩
      | false =>
        cases m with
        | crash w =>
          obtain ⟨_, f, hno, hw⟩ := hg
          exact .inr ⟨f, hw.trans (by rw [hf]; rfl), hno⟩
        | assertFail f => exact absurd hg (hsafe _ hinv f)
        | destroy => cases hal
        | _ => cases hcalm
    · exact .inr ⟨f, fault_stays hg hf, hno⟩

section Rules

variable {inv : Conn → Prop} {mid : TcpStream → Env × Action → Conn → Prop}
  {cond : TcpStream → Env × Action → Prop}

/-- The rule for runs from any stream: `inv` holds between the steps and `mid` inside them, as long
as the process runs. -/
theorem run_rule_from (henter : ∀ s e, cond s e → inv (conn s) → mid s e (conn s))
    (hmove : ∀ s e v m, cond s e → Running v → mid s e v → m.guard cfg v →
      m.calm ∨ m = .destroy → Cause cfg s e v m → mid s e (m.apply v))
    (hexit : ∀ s e, cond s e → Running (conn (step cfg s e)) → mid s e (conn (step cfg s e)) →
      inv (conn (step cfg s e))) {s : TcpStream} {es : List (Env × Action)}
    (hs : s.fault = none → Running (conn s) ∧ inv (conn s))
    (ha : Along (step cfg) cond s es) (hf : (run cfg s es).fault = none) :
    Running (conn (run cfg s es)) ∧ inv (conn (run cfg s es)) := by
  have hstep : ∀ t e, (t.fault = none → Running (conn t) ∧ inv (conn t)) → cond t e →
      (step cfg t e).fault = none → Running (conn (step cfg t e)) ∧ inv (conn (step cfg t e)) := by
    intro t e ht hc hf'
    have hpath : Steps cfg t e _ _ := step_path t e fun h => (ht h).1.shape
    obtain ⟨hrun, hinv⟩ := ht (hpath.fault_eq_none hf')
    obtain ⟨hrun', hmid⟩ := hpath.running (fun v m => hmove t e v m hc) hrun.shape
      (henter t e hc hinv) hf'
    exact ⟨hrun', hexit t e hc hrun' hmid⟩
  exact foldl_invariant hstep hs ha hf

/-- What holds at the start and is kept by the moves of every allowed event holds as long
as the process runs. -/
theorem run_running (hmove : ∀ s e v m, cond s e → Running v → inv v → m.guard cfg v →
      m.calm ∨ m = .destroy → Cause cfg s e v m → inv (m.apply v))
    (hstart : ∀ v, Started v → inv v) {s : TcpStream} {es : List (Env × Action)}
    (hs : Opened cfg s) (ha : Along (step cfg) cond s es) (hf : (run cfg s es).fault = none) :
    Running (conn (run cfg s es)) ∧ inv (conn (run cfg s es)) := by
  refine @run_rule_from cfg inv (fun _ _ => inv) cond (fun _ _ _ h => h) hmove
    (fun _ _ _ _ h => h) s es (fun hf' => ?_) ha hf
  have hst := hs.started hf'
  exact ⟨⟨hf', hst.shape⟩, hstart _ hst⟩

section

variable (henter : ∀ s e, cond s e → inv (conn s) → mid s e (conn s))
  (hmove : ∀ s e v m, cond s e → Live v → mid s e v → m.guard cfg v → m.calm = true →
    Cause cfg s e v m → mid s e (Move.apply v m))
  (hexit : ∀ s e, cond s e → Live (conn (step cfg s e)) → mid s e (conn (step cfg s e)) →
    inv (conn (step cfg s e)))
include henter hmove hexit

/-- The same for what only holds while the stream exists. -/
theorem run_rule_live_from {s : TcpStream} {es : List (Env × Action)}
    (hs : s.fault = none → Running (conn s) ∧ (s.onHashTable → inv (conn s)))
    (ha : Along (step cfg) cond s es) (hf : (run cfg s es).fault = none)
    (hl : (run cfg s es).onHashTable) : Live (conn (run cfg s es)) ∧ inv (conn (run cfg s es)) := by
  have hkeep : ∀ s e v m, cond s e → Running v → (v.alive → mid s e v) → m.guard cfg v →
      m.calm ∨ m = .destroy → Cause cfg s e v m →
      (m.apply v).alive → mid s e (m.apply v) := by
    intro s e v m hc hrun hinv hg hcalm hcause hal
    obtain hcalm | rfl := hcalm
    · have hal' : v.alive := (apply_alive hcalm).symm.trans hal
      exact hmove s e v m hc ⟨hrun, hal'⟩ (hinv hal') hg hcalm hcause
    · cases hal
  have hrule := @run_rule_from cfg (fun v => v.alive → inv v)
    (fun s e v => v.alive → mid s e v) cond
    (fun s e hc h hal => henter s e hc (h hal)) hkeep
    (fun s e hc hr h hal => hexit s e hc ⟨hr, hal⟩ (h hal)) s es hs ha hf
  exact ⟨⟨hrule.1, hl⟩, hrule.2 hl⟩

theorem run_rule_live (hstart : ∀ v, Started v → inv v) {s : TcpStream}
    {es : List (Env × Action)} (hs : Opened cfg s)
    (ha : Along (step cfg) cond s es) (hf : (run cfg s es).fault = none)
    (hl : (run cfg s es).onHashTable) : Live (conn (run cfg s es)) ∧ inv (conn (run cfg s es)) := by
  refine run_rule_live_from henter hmove hexit (fun hf' => ?_) ha hf hl
  have hst := hs.started hf'
  exact ⟨⟨hf', hst.shape⟩, fun _ => hstart _ hst⟩

end

section

variable (hmove : ∀ s e v m, cond s e → Live v → inv v → m.guard cfg v → m.calm = true →
  Cause cfg s e v m → inv (Move.apply v m))
include hmove

theorem run_invariant (hstart : ∀ v, Started v → inv v) {s : TcpStream}
    {es : List (Env × Action)} (hs : Opened cfg s) (ha : Along (step cfg) cond s es)
    (hf : (run cfg s es).fault = none) (hl : (run cfg s es).onHashTable) :
    Live (conn (run cfg s es)) ∧ inv (conn (run cfg s es)) :=
  run_rule_live (fun _ _ _ h => h) hmove (fun _ _ _ _ h => h) hstart hs ha hf hl

theorem run_assertless (hsafe : ∀ v, inv v → ∀ f, ¬ guard cfg v (.assertFail f))
    (hstart : ∀ v, Started v → inv v) {s : TcpStream} {es : List (Env × Action)}
    (hs : Opened cfg s) (ha : Along (step cfg) cond s es)
    (hal : (run cfg s es).onHashTable) : Unasserted inv (conn (run cfg s es)) := by
  have hstep : ∀ t e, ((t.fault = none → (conn t).Shape) ∧
      (t.onHashTable → Unasserted inv (conn t))) → cond t e →
      ((step cfg t e).fault = none → (conn (step cfg t e)).Shape) ∧
        ((step cfg t e).onHashTable → Unasserted inv (conn (step cfg t e))) := by
    rintro t e ⟨hshape, ht⟩ hc
    have hpath : Steps cfg t e _ _ := step_path t e hshape
    exact ⟨step_shape t e hshape,
      fun h => hpath.assertless (fun v m => hmove t e v m hc) hsafe ht h⟩
  refine (foldl_invariant hstep ⟨fun hf => (hs.started hf).shape, fun h => ?_⟩ ha).2 hal
  obtain hf | hf := hs.fault_cases
  · have hst := hs.started hf
    exact .inl ⟨hf, ⟨⟨hf, hst.shape⟩, h⟩, hstart _ hst⟩
  · exact .inr hf

end

end Rules

end Mtcp
