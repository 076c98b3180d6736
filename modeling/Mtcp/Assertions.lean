import Mtcp.Sending

namespace Mtcp

open Serial SendBuffer Bytes Runs

variable {cfg : Config}

/-! The checks of `FlushTCPSendingBuffer`. -/

/-- A third duplicate acknowledgement, to which `snd_nxt` falls back, is not below `snd_una`. -/
def freshDup (s : TcpStream) (seg : Segment) : Bool :=
  !(thirdDuplicate seg s && lt (effectiveAck seg s) s.sndvar.sndUna)

/-- The acknowledgement number of a SYN in ESTABLISHED, which becomes `snd_nxt`, lies inside
the send buffer. -/
def synInBuffer (s : TcpStream) (seg : Segment) : Bool :=
  !(s.state == .established && seg.syn) ||
    decide (fwd s.sndvar.sndUna seg.ackSeq ≤ (conn s).sendLen)

def drainedClose (s : TcpStream) : Action → Bool
  | .dequeue .closeq | .dequeue .closeqInt => !s.sndvar.onSendq
  | _ => true

def orderlySending (cfg : Config) (s : TcpStream) (e : Env × Action) : Bool :=
  noBareAck s e.2 && onAccepted nearAck cfg s e && onAccepted freshDup cfg s e &&
    onAccepted synInBuffer cfg s e && drainedClose s e.2

/-- `snd_nxt` lies inside the send buffer whenever a flush can look at it. -/
structure Aligned (v : Conn) : Prop where
  flow : v.state = .established ∨ v.state = .closeWait → fwd v.sendBase v.sndNxt ≤ v.sendLen
  close : v.state = .finWait1 ∨ v.state = .lastAck →
    v.sendq = false ∧ (v.sendList = true → fwd v.sendBase v.sndNxt ≤ v.sendLen)

variable {s : TcpStream} {e : Env × Action} {v : Conn} {buf : TcpSendBuffer} {seg : Segment}
  {x : UInt32} {fast : Bool}

theorem Aligned.of_idle (h : v.state.flushes = false) : Aligned v := by
  constructor
  · rintro (hs | hs) <;> rw [hs] at h <;> cases h
  · rintro (hs | hs) <;> rw [hs] at h <;> cases h

theorem Aligned.of_flow (hs : v.state = .established ∨ v.state = .closeWait)
    (h : fwd v.sendBase v.sndNxt ≤ v.sendLen) : Aligned v := by
  refine ⟨fun _ => h, fun hs' => ?_⟩
  obtain hs | hs := hs <;> obtain hs' | hs' := hs' <;> rw [hs] at hs' <;> cases hs'

theorem Aligned.listed (h : Aligned v) (hs : v.state.flushes) (hq : v.sendList) :
    fwd v.sendBase v.sndNxt ≤ v.sendLen := by
  cases hst : v.state with
  | established => exact h.flow (.inl hst)
  | closeWait => exact h.flow (.inr hst)
  | finWait1 => exact (h.close (.inl hst)).2 hq
  | lastAck => exact (h.close (.inr hst)).2 hq
  | _ => rw [hst] at hs; cases hs

theorem acked_aligned (h : Based cfg v) (hsend : v.state.sending)
    (hbuf : v.sndbuf = some buf) (hgt : gt x (buf.headSeq + UInt32.ofNat buf.len) = false)
    (hnear : ¬ Far buf x) (hdup : fast → lt x v.sndUna = false)
    (hn : fast = false → fwd v.sendBase v.sndNxt ≤ v.sendLen) :
    fwd (v.acked buf x fast).sendBase (v.acked buf x fast).sndNxt ≤
      (v.acked buf x fast).sendLen := by
  have hlen := h.len_lt
  have huna := h.una hsend
  rw [sendLen_some hbuf] at hlen hn
  rw [sendBase_some hbuf] at huna hn
  obtain ⟨hle, hlt, _, hw⟩ | ⟨hpos, hle, _, rest, _, _, hh, hl, _, hw⟩ :=
    acked_cases fast h hbuf hgt hnear
  · rw [hw]
    change fwd v.sendBase (v.ackedNxt x fast) ≤ v.sendLen
    rw [sendBase_some hbuf, sendLen_some hbuf]
    have hback := fwd_trans buf.headSeq x buf.headSeq
    have h1 := fwd_lt buf.headSeq x
    rw [fwd_self] at hback
    cases fast with
    | true =>
      have hx := hdup rfl
      rw [huna, not_lt_iff] at hx
      change fwd buf.headSeq x ≤ buf.len
      omega
    | false =>
      have hnxt := hn rfl
      have hno := not_gt_of_old hle hlt hnxt
      simp only [Conn.ackedNxt, hno, Bool.false_eq_true, if_false]
      exact hnxt
  · rw [hw]
    change fwd rest.headSeq (v.ackedNxt x fast) ≤ rest.len
    rw [hh, hl]
    cases fast with
    | true =>
      change fwd x x ≤ _
      rw [fwd_self]
      omega
    | false =>
      have hnxt := hn rfl
      cases hg : gt x v.sndNxt with
      | true =>
        simp only [Conn.ackedNxt, hg, Bool.false_eq_true, if_false, if_true, fwd_self]
        omega
      | false =>
        simp only [Conn.ackedNxt, hg, Bool.false_eq_true, if_false]
        rw [not_gt_iff] at hg
        have h1 := fwd_trans buf.headSeq v.sndNxt x
        have h2 := fwd_trans x v.sndNxt x
        have h3 := fwd_lt v.sndNxt x
        have h4 := fwd_lt x v.sndNxt
        rw [fwd_self] at h2
        omega

theorem acked_listed (hf : fast = false) (h : (v.acked buf x fast).sendList) : v.sendList := by
  have hn : (v.noted buf x fast).sendList := by
    rw [← h, Conn.acked]
    split <;> rfl
  subst hf
  change (if gt x v.sndNxt ∧ buf.len = 0 then false else v.sendList) at hn
  split at hn
  · cases hn
  · exact hn

theorem emitted_finSent (v : Conn) (hfin : seg.fin = false) :
    (v.emitted seg).finSent = v.finSent := by
  change (v.finSent || seg.fin) = _
  rw [hfin, Bool.or_false]

theorem emitted_empty (hsyn : seg.syn = false) (hfin : seg.fin = false) (hpay : seg.payload = []) :
    (v.emitted seg).sndNxt = v.sndNxt := by
  change v.sndNxt + UInt32.ofNat seg.payload.length + (if seg.syn || seg.fin then 1 else 0) = _
  rw [hpay, hsyn, hfin]
  exact (UInt32.add_zero _).trans (UInt32.add_zero _)

theorem emitted_sndNxt_plain (v : Conn) {seg : Segment} (hp : Move.Plain seg)
    (hpay : seg.payload = []) : (v.emitted seg).sndNxt = v.sndNxt :=
  emitted_empty hp.1 hp.2.1 hpay

theorem emitData_aligned (hb : Based cfg v) (hg : Move.guard cfg v (.emitData buf seg)) :
    fwd v.sendBase (v.emitted seg).sndNxt ≤ v.sendLen := by
  obtain ⟨_, _, hbuf, _, hord, hp, _, _, n, hn, hpay⟩ := hg
  have hlen := hb.len_lt
  have hwf := (hb.sound buf hbuf).1
  have hle : seg.payload.length ≤ n := by
    rw [hpay, slice]
    exact List.length_take_le _ _
  have hin := hord.2.2
  change fwd v.sendBase (v.sndNxt + UInt32.ofNat seg.payload.length +
    (if seg.syn || seg.fin then 1 else 0)) ≤ v.sendLen
  rw [hp.1, hp.2.1]
  simp only [Bool.or_self, Bool.false_eq_true, if_false, UInt32.add_zero]
  rw [fwd_add_ofNat, sendBase_some hbuf, sendLen_some hbuf] at *
  omega

/-- Off the send list, `snd_nxt` may be anywhere while closing. -/
theorem Aligned.unlisted {v w : Conn} (h : Aligned v)
    (hs : v.state = .finWait1 ∨ v.state = .lastAck)
    (hst : w.state = v.state) (hq : w.sendq = v.sendq) (hlist : w.sendList = false) :
    Aligned w := by
  constructor
  · intro hs'
    rw [hst] at hs'
    obtain hs | hs := hs <;> obtain hs' | hs' := hs' <;> rw [hs] at hs' <;> cases hs'
  · refine fun _ => ⟨hq.trans (h.close hs).1, fun hl => ?_⟩
    rw [hlist] at hl
    cases hl

theorem orderlySending_iff : orderlySending cfg s e ↔ noBareAck s e.2 ∧ onAccepted nearAck cfg s e ∧
      onAccepted freshDup cfg s e ∧ onAccepted synInBuffer cfg s e ∧ drainedClose s e.2 := by
  simp only [orderlySending, Bool.and_eq_true, and_assoc]

theorem freshDup_move (hc : onAccepted freshDup cfg s e)
    (hcause : Cause cfg s e v (.ack buf x fast)) (hf : fast) : lt x v.sndUna = false := by
  obtain ⟨seg, he, hr, rfl, hv, _, _, hsame, hdup, _⟩ := hcause
  have h := onAccepted_rx hc he hr hv
  have huna : v.sndUna = s.sndvar.sndUna := hsame.sndUna
  rw [huna]
  simpa [freshDup, hdup hf] using h

theorem synInBuffer_move (hc : onAccepted synInBuffer cfg s e)
    (hcause : Cause cfg s e v (.jump x)) : fwd v.sndUna x ≤ v.sendLen := by
  obtain ⟨seg, he, hst, hsyn, hr, rfl, hv, hsame⟩ := hcause
  have h := onAccepted_rx hc he hr hv
  have huna : v.sndUna = s.sndvar.sndUna := hsame.sndUna
  have hlen : v.sendLen = (conn s).sendLen := by
    rw [Conn.sendLen, Conn.sendLen, hsame.sndbuf]
  rw [huna, hlen]
  simpa [synInBuffer, hst, hsyn] using h

theorem drainedClose_move (hc : drainedClose s e.2) (hcause : Cause cfg s e v .beginClose) :
    v.sendq = false := by
  obtain ⟨he | he, hq⟩ := hcause
  · rw [he] at hc
    rw [hq]
    simpa [drainedClose] using hc
  · rw [he] at hc
    rw [hq]
    simpa [drainedClose] using hc

theorem Aligned.apply {m : Move} (hc : orderlySending cfg s e) (hl : Live v) (ho : Opening v)
    (hb : Based cfg v) (h : Aligned v) (hg : m.guard cfg v) (hm : m.calm)
    (hcause : Cause cfg s e v m) : Aligned (m.apply v) := by
  obtain ⟨_, hnear, hdup, hsyn, hdrain⟩ := orderlySending_iff.mp hc
  have hopened : ∀ w, v.state.early → w.sndbuf = v.sndbuf → w.iss = v.iss →
      w.sndNxt = v.iss + 1 → w.state = .established ∨ w.state = .closeWait → Aligned w := by
    intro w he h1 h2 h3 h4
    refine .of_flow h4 ?_
    rw [Conn.sendBase, h1, hl.shape.sndbuf he, h3]
    rw [h2, fwd_self]
    exact Nat.zero_le _
  cases m with
  | crash | assertFail | destroy => cases hm
  | shut r | listen seq | loneSyn seq | finAcked | closingAcked | lastAcked => exact .of_idle rfl
  | refused =>
    obtain ⟨hst, a, ha⟩ := hg
    exact hopened _ (state_of hst rfl) rfl rfl (ho.acceptable hst ha).2 (.inr rfl)
  | synAck seq a =>
    obtain ⟨_, hst, ha⟩ := hg
    exact hopened _ (state_of hst rfl) rfl rfl (ho.acceptable hst ha).1 (.inl rfl)
  | ackOfSyn => exact hopened _ (state_of hg.2 rfl) rfl rfl rfl (.inl rfl)
  | reset => exact .of_flow (.inr rfl) (h.flow hg)
  | restart =>
    refine .of_idle ?_
    change v.state.flushes = false
    rw [show v.state = .synRcvd from hg]
    rfl
  | jump x =>
    have hst : v.state = .established := hg
    refine .of_flow (.inl hst) ?_
    have huna := hb.una (by rw [hst]; rfl)
    change fwd v.sendBase x ≤ v.sendLen
    rw [← huna]
    exact synInBuffer_move hsyn hcause
  | ack buf x fast =>
    have hst := Move.apply_state v (.ack buf x fast)
    have hkey := fun hs hn => @acked_aligned cfg v buf x fast hb hs hg.1 hg.2.1
      (nearAck_move hnear hg.1 hcause) (freshDup_move hdup hcause) hn
    obtain ⟨_, hq⟩ := acked_frame v buf x fast
    change Aligned (v.acked buf x fast)
    change (v.acked buf x fast).state = v.state at hst
    constructor
    · intro hs
      rw [hst] at hs
      refine hkey ?_ fun _ => h.flow hs
      obtain hs | hs := hs <;> rw [hs] <;> rfl
    · intro hs
      rw [hst] at hs
      refine ⟨hq.sendq.trans (h.close hs).1, fun hlist => hkey ?_ fun hf => (h.close hs).2 ?_⟩
      · obtain hs | hs := hs <;> rw [hs] <;> rfl
      · exact acked_listed hf hlist
  | peerFin seq dest =>
    obtain ⟨h', rfl⟩ | ⟨_, rfl⟩ | ⟨_, rfl⟩ | ⟨_, rfl⟩ := hg.2
    · exact .of_flow (.inr rfl) (h.flow (.inl h'))
    · exact .of_idle rfl
    · exact .of_idle rfl
    · exact .of_idle rfl
  | retransmit =>
    have hst := Move.apply_state v .retransmit
    obtain ⟨_, hbuf, _, hq⟩ := retransmitted_frame v
    obtain ⟨_, hi, hn⟩ := retransmitted_una v
    change v.retransmitted.state = v.state at hst
    change Aligned v.retransmitted
    have hkey : v.state.sending →
        fwd v.retransmitted.sendBase v.retransmitted.sndNxt ≤ v.retransmitted.sendLen := by
      intro hs
      rw [hn, hb.una hs, Conn.sendBase, Conn.sendBase, hbuf, hi, fwd_self]
      exact Nat.zero_le _
    constructor
    · intro hs
      rw [hst] at hs
      refine hkey ?_
      obtain hs | hs := hs <;> rw [hs] <;> rfl
    · intro hs
      rw [hst] at hs
      refine ⟨hq.sendq.trans (h.close hs).1, fun _ => hkey ?_⟩
      obtain hs | hs := hs <;> rw [hs] <;> rfl
  | takeSendq =>
    refine ⟨h.flow, fun hs => ?_⟩
    have hsends := hl.shape.queue
    rw [(h.close hs).1] at hsends
    exact absurd hg.1 (by rw [hsends]; decide)
  | beginClose =>
    have hflow := h.flow hg.1
    have hq := drainedClose_move hdrain hcause
    refine ⟨fun hs => ?_, fun _ => ⟨hq, fun _ => hflow⟩⟩
    change (if v.state = .established then TcpState.finWait1 else .lastAck) = _ ∨
      (if v.state = .established then TcpState.finWait1 else .lastAck) = _ at hs
    split at hs <;> obtain hs | hs := hs <;> cases hs
  | emitSyn seg =>
    refine .of_idle ?_
    change v.state.flushes = false
    obtain ⟨hs, _⟩ | ⟨hs, _⟩ := hg.2.2.2.2.2.2 <;> rw [hs] <;> rfl
  | emitAck seg =>
    have hn := emitted_sndNxt_plain v hg.1 hg.2.1
    refine ⟨fun hs => ?_, fun hs => ⟨(h.close hs).1, fun hq => ?_⟩⟩
    · change fwd v.sendBase (v.emitted seg).sndNxt ≤ v.sendLen
      rw [hn]
      exact h.flow hs
    · change fwd v.sendBase (v.emitted seg).sndNxt ≤ v.sendLen
      rw [hn]
      exact (h.close hs).2 hq
  | emitFin seg =>
    obtain ⟨hs | hs, hq⟩ | ⟨hs, _⟩ := hg.2.2.2.2.2.2.2
    · exact h.unlisted (.inl hs) rfl rfl hq
    · exact h.unlisted (.inr hs) rfl rfl hq
    · refine .of_idle ?_
      change v.state.flushes = false
      rw [hs]
      rfl
  | emitRst seg =>
    refine .of_idle ?_
    change v.state.flushes = false
    rw [hg.2.2.2.2.2.2.2]
    rfl
  | emitData buf seg =>
    have hn := emitData_aligned hb hg
    exact ⟨fun _ => hn, fun hs => ⟨(h.close hs).1, fun _ => hn⟩⟩
  | unqueue => exact ⟨h.flow, fun hs => ⟨(h.close hs).1, fun hq => by cases hq⟩⟩
  | put buf bytes =>
    obtain ⟨_, _, hh, hlen⟩ := put_spec hb hg
    refine .of_flow hg.1 ?_
    change fwd (sbPut buf bytes).2.headSeq v.sndNxt ≤ (sbPut buf bytes).2.len
    rw [hh, hlen]
    exact Nat.le_add_right_of_le (h.flow hg.1)
  | _ => exact ⟨h.flow, h.close⟩

/-- What a step needs to keep: the handshake, the base of the buffer and the order. -/
structure Orderly (cfg : Config) (v : Conn) : Prop where
  opening : Opening v
  based : Based cfg v
  aligned : Aligned v

theorem Orderly.apply {m : Move} (hc : orderlySending cfg s e) (hl : Live v)
    (h : Orderly cfg v) (hg : m.guard cfg v) (hm : m.calm) (hcause : Cause cfg s e v m) :
    Orderly cfg (m.apply v) := by
  obtain ⟨hbare, hnear, _⟩ := orderlySending_iff.mp hc
  exact ⟨opening_apply hbare hl h.opening hg hm hcause,
    h.based.apply (fun hb => noBareAck_move hbare (hb ▸ hcause))
      (fun buf x fast hx => nearAck_move hnear (hx ▸ hg).1 (hx ▸ hcause)) hl h.opening hg hm,
    h.aligned.apply hc hl h.opening h.based hg hm hcause⟩

theorem orderly_started (h : Started v) : Orderly cfg v := by
  refine ⟨opening_started h, based_started h, .of_idle ?_⟩
  cases h <;> rfl

theorem Orderly.ordered (h : Orderly cfg v) (hs : v.state.flushes) (hq : v.sendList)
    {buf : TcpSendBuffer} (hbuf : v.sndbuf = some buf) : v.Ordered buf := by
  have hn := h.aligned.listed hs hq
  have hlen := h.based.len_lt
  have huna := h.based.una (by cases hst : v.state <;> rw [hst] at hs <;> first | rfl | cases hs)
  rw [sendBase_some hbuf] at hn huna
  rw [sendLen_some hbuf] at hn hlen
  refine ⟨?_, ?_, hn⟩
  · rw [not_lt_iff]
    omega
  · rw [huna, not_lt_iff]
    omega

theorem Orderly.no_assertFail (h : Orderly cfg v) (f : Fault) :
    ¬ Move.guard cfg v (.assertFail f) := by
  rintro ⟨_, hs, hq, buf, hbuf, _, hno⟩
  exact hno (h.ordered hs hq hbuf)

/-- No check of `FlushTCPSendingBuffer` has failed, and none would. -/
structure ChecksHold (s : TcpStream) : Prop where
  passed : ∀ f, s.fault = some f → f.sendAssert = false
  next : s.fault = none → s.state.flushes = true → s.sndvar.onSendList = true →
    ∀ buf, s.sndvar.sndbuf = some buf → 0 < buf.len →
      lt s.sndNxt buf.headSeq = false ∧ lt s.sndNxt s.sndvar.sndUna = false ∧
        fwd buf.headSeq s.sndNxt ≤ buf.len

/-- In a run whose events are orderly no check of `FlushTCPSendingBuffer` ever fails. -/
theorem flush_checks_hold (s : TcpStream) (es : List (Env × Action)) (hs : Opened cfg s)
    (ha : Along (step cfg) (fun s e => orderlySending cfg s e = true) s es)
    (hal : (run cfg s es).onHashTable = true) : ChecksHold (run cfg s es) := by
  have h := run_assertless (fun s e v m hc => Orderly.apply hc) (fun v h => h.no_assertFail)
    (fun v hv => orderly_started hv) hs ha hal
  obtain ⟨hf, _, hinv⟩ | ⟨f, hf, hno⟩ := h
  · refine ⟨fun f hf' => ?_, fun _ hst hq buf hbuf _ => hinv.ordered hst hq hbuf⟩
    cases hf.symm.trans hf'
  · refine ⟨fun g hg => ?_, fun hnone => ?_⟩
    · obtain rfl := Option.some.inj (hf.symm.trans hg)
      exact hno
    · cases hf.symm.trans hnone

theorem flush_checks_hold_client :
    (run .small client (atRest (clientHandshake ++
      [.write [1, 2, 3], .dequeue .sendq, .dataPass 1]))).sndNxt = 104 ∧
      ChecksHold (run .small client (atRest (clientHandshake ++
        [.write [1, 2, 3], .dequeue .sendq, .dataPass 1]))) :=
  ⟨by decide, flush_checks_hold _ _ client_opened (by decide) (by decide)⟩

/-- A SYN in ESTABLISHED moves `snd_nxt` to its acknowledgement number, below the buffer. -/
theorem syn_trips_flush_check :
    (run .small client (atRest (clientHandshake ++ [.write [1, 2, 3], .dequeue .sendq,
      .rx { seq := 501, ackSeq := 50, window := 1000, syn := true, ack := true },
      .controlPass 1, .dataPass 1]))).fault = some .seqBelowHead := by
  decide

end Mtcp
