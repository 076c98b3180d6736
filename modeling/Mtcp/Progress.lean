import Mtcp.Assertions

namespace Mtcp

open Serial SendBuffer Bytes Runs UInt32 Move

variable {cfg : Config}

/-! No send progress is lost between two steps. -/

/-- No SYN arrives once the handshake is over. -/
def noLateSyn (s : TcpStream) : Action → Bool
  | .rx seg => !(decide (.established ≤ s.state) && seg.syn)
  | _ => true

/-- `snd_una`, `snd_nxt` and the end of the send buffer, in the order of `TCP_SEQ_GEQ`. -/
def inOrder (s : TcpStream) : Bool :=
  match s.sndvar.sndbuf with
  | none => true
  | some buf => geq s.sndNxt s.sndvar.sndUna && geq (buf.headSeq + UInt32.ofNat buf.len) s.sndNxt

def TcpState.flows (st : TcpState) : Bool := st == .established || st == .closeWait

/-- An event that leaves the three numbers in order while data can be sent. -/
def steadyEvent (cfg : Config) (s : TcpStream) (e : Env × Action) : Bool :=
  noBareAck s e.2 && noLateSyn s e.2 &&
    (!(step cfg s e).state.flows || inOrder (step cfg s e))

variable {st : TcpState} {s : TcpStream} {e : Env × Action} {v : Conn} {m : Move}

theorem steadyEvent_iff : steadyEvent cfg s e ↔ noBareAck s e.2 ∧ noLateSyn s e.2 ∧
      ((step cfg s e).state.flows → inOrder (step cfg s e)) := by
  simp only [steadyEvent, Bool.and_eq_true, and_assoc, Bool.or_eq_true, Bool.not_eq_true']
  cases (step cfg s e).state.flows <;> simp

/-- The numbers are in order, unsent bytes are queued and sent ones are timed. -/
structure Progressing (v : Conn) : Prop where
  order : fwd v.sendBase v.sndNxt ≤ v.sendLen
  queued : v.reason = .notClosed → fwd v.sendBase v.sndNxt < v.sendLen →
    v.sendq = true ∨ v.sendList = true
  timed : v.reason = .notClosed → v.sndUna ≠ v.sndNxt → v.rto = true

structure Steady (cfg : Config) (v : Conn) : Prop where
  opening : Opening v
  based : Based cfg v
  progress : v.state.flows = true → Progressing v

def Gone (v : Conn) : Prop := v.state.early = false ∧ v.state.flows = false

/-- An acknowledgement has left the numbers out of order, and nothing else in the step will
mend them. -/
structure Broken (s : TcpStream) (e : Env × Action) (v : Conn) : Prop where
  event : ∃ seg, e.2 = .rx seg
  late : v.state.early = false
  moved : v.sndNxt ≠ s.sndNxt ∨ v.sndUna ≠ s.sndvar.sndUna
  order : ∃ buf, v.sndbuf = some buf ∧
    (geq v.sndNxt v.sndUna = false ∨ buf.len = 0 ∧ geq buf.headSeq v.sndNxt = false)

theorem flows_iff : st.flows ↔ st = .established ∨ st = .closeWait := by
  simp [TcpState.flows]

theorem flows_sending (h : st.flows) : st.sending := by
  cases st <;> first | rfl | cases h

theorem flows_flushes (h : st.flows) : st.flushes := by
  cases st <;> first | rfl | cases h

theorem Gone.apply (h : Gone v) (hg : m.guard cfg v) (hm : m.calm) : Gone (m.apply v) := by
  obtain ⟨hearly, hflow⟩ := h
  refine ⟨late_apply hearly hg hm, ?_⟩
  have hno : ∀ st, v.state = st → st.early ∨ st.flows → False := by
    rintro st rfl (h' | h')
    · rw [hearly] at h'
      cases h'
    · rw [hflow] at h'
      cases h'
  rw [apply_state]
  cases m with
  | crash w => cases hm
  | reset => obtain hg | hg := hg <;> exact (hno _ hg (.inr rfl)).elim
  | refused => exact (hno _ hg.1 (.inl rfl)).elim
  | synAck seq a => exact (hno _ hg.2.1 (.inl rfl)).elim
  | ackOfSyn => exact (hno _ hg.2 (.inl rfl)).elim
  | peerFin seq dest =>
    obtain ⟨h', rfl⟩ | ⟨_, rfl⟩ | ⟨_, rfl⟩ | ⟨_, rfl⟩ := hg.2
    · exact (hno _ h' (.inr rfl)).elim
    · rfl
    · rfl
    · rfl
  | beginClose => obtain h' | h' := hg.1 <;> exact (hno _ h' (.inr rfl)).elim
  | shut r | listen seq | loneSyn seq | finAcked | closingAcked | lastAcked => rfl
  | _ => exact hflow

theorem Broken.apply (h : Broken s e v) (hg : m.guard cfg v) (hm : m.calm)
    (hcause : Cause cfg s e v m) : Gone (m.apply v) ∨ Broken s e (m.apply v) := by
  obtain ⟨⟨seg, he⟩, hlate, hmoved, buf, hbuf, hord⟩ := h
  have hlate' := late_apply hlate hg hm
  have hno : ∀ st, v.state = st → st.early → False := by
    rintro st rfl h'
    rw [hlate] at h'
    cases h'
  have hsame : SameSend v (conn s) → False := by
    intro hs
    obtain h' | h' := hmoved
    · exact h' hs.sndNxt
    · exact h' hs.sndUna
  have hother : ∀ a, e.2 = a → (∀ seg, a ≠ .rx seg) → False := by
    intro a ha hne
    exact hne seg (ha.symm.trans he)
  cases m with
  | crash | assertFail | destroy => cases hm
  | listen | loneSyn | restart => exact (hno _ hg rfl).elim
  | bareAck | refused => exact (hno _ hg.1 rfl).elim
  | synAck seq a => exact (hno _ hg.2.1 rfl).elim
  | ackOfSyn => exact (hno _ hg.2 rfl).elim
  | emitSyn seg =>
    obtain ⟨hs, _⟩ | ⟨hs, _⟩ := hg.2.2.2.2.2.2
    · exact (hno _ hs rfl).elim
    · exact (hno _ hs rfl).elim
  | jump x =>
    obtain ⟨_, _, _, _, _, _, _, hs⟩ := hcause
    exact (hsame hs).elim
  | ack buf x fast =>
    obtain ⟨_, _, _, _, _, _, _, hs, _⟩ := hcause
    exact (hsame hs).elim
  | retransmit => exact (hother _ hcause.1 (by simp)).elim
  | put buf bytes =>
    obtain ⟨⟨bytes', hw⟩, _⟩ := hcause
    exact (hother _ hw (by simp)).elim
  | emitFin seg =>
    obtain ⟨⟨room, hw⟩, _⟩ := hcause
    exact (hother _ hw (by simp)).elim
  | emitData buf' seg =>
    obtain ⟨_, _, hb, hpos, hok, _⟩ := hg
    obtain rfl := Option.some.inj (hbuf.symm.trans hb)
    obtain h' | ⟨h', _⟩ := hord
    · rw [not_geq_iff] at h'
      have h2 := hok.2.1
      rw [not_lt_iff] at h2
      omega
    · omega
  | emitAck seg =>
    have hn := emitted_sndNxt_plain v hg.1 hg.2.1
    refine .inr ⟨⟨_, he⟩, hlate', ?_, buf, hbuf, ?_⟩
    · change (v.emitted seg).sndNxt ≠ _ ∨ _
      rw [hn]
      exact hmoved
    · change geq (v.emitted seg).sndNxt v.sndUna = false ∨
        _ ∧ geq buf.headSeq (v.emitted seg).sndNxt = false
      rw [hn]
      exact hord
  | emitRst seg =>
    refine .inl ⟨hlate', ?_⟩
    change v.state.flows = false
    rw [hg.2.2.2.2.2.2.2]
    rfl
  | shut r | finAcked | closingAcked | lastAcked => exact .inl ⟨rfl, rfl⟩
  | beginClose =>
    refine .inl ⟨hlate', ?_⟩
    change (if v.state = .established then TcpState.finWait1 else .lastAck).flows = false
    split <;> rfl
  | _ => exact .inr ⟨⟨_, he⟩, hlate', hmoved, buf, hbuf, hord⟩

theorem acked_progress {buf : TcpSendBuffer} {x : UInt32} {fast : Bool} (hb : Based cfg v)
    (hl : Live v) (hflow : v.state.flows) (h : Progressing v) (hbuf : v.sndbuf = some buf)
    (hgt : gt x (buf.headSeq + ofNat buf.len) = false) (hnear : ¬ Far buf x)
    (hdup : fast → lt x v.sndUna = false) : Progressing (v.acked buf x fast) := by
  have hsend := flows_sending hflow
  have hord := acked_aligned hb hsend hbuf hgt hnear hdup fun _ => h.order
  have hlen := hb.len_lt
  have huna := hb.una hsend
  have htw : v.timewait = false := by
    obtain hs | hs := flows_iff.mp hflow
    · exact hl.shape.timewait_eq_false hs (by decide)
    · exact hl.shape.timewait_eq_false hs (by decide)
  have hold := h.order
  rw [sendBase_some hbuf] at huna hold
  rw [sendLen_some hbuf] at hlen hold
  obtain ⟨hle, hlt, _, hw⟩ | ⟨hpos, hle, _, rest, _, _, hh, hrest, _, hw⟩ :=
    acked_cases fast hb hbuf hgt hnear
  · rw [hw] at hord ⊢
    have hback := fwd_trans buf.headSeq x buf.headSeq
    have h1 := fwd_lt buf.headSeq x
    rw [fwd_self] at hback
    cases fast with
    | true =>
      -- a duplicate that is neither old nor new is `snd_una` itself
      have hx := hdup rfl
      rw [huna, not_lt_iff] at hx
      have heq : x = v.sndUna := by
        rw [huna]
        exact eq_of_fwd_eq_zero (by omega)
      exact ⟨hord, fun _ _ => .inr rfl, fun _ hne => absurd heq.symm hne⟩
    | false =>
      have hno := not_gt_of_old hle hlt hold
      have hsame : v.noted buf x false = v := by
        simp [Conn.noted, Conn.ackedNxt, hno]
      rw [hsame]
      exact h
  · rw [hw] at hord ⊢
    have hne : buf.len ≠ 0 := by omega
    have hnoted : (v.noted buf x fast).sendList = (fast || v.sendList) := by
      cases fast <;> simp [Conn.noted, hne]
    refine ⟨hord, fun hr hlt => ?_, fun _ hne' => ?_⟩
    · -- bytes that are unsent now were unsent before
      rw [hnoted]
      cases fast with
      | true => exact .inr rfl
      | false =>
        refine h.queued hr ?_
        change fwd rest.headSeq (v.ackedNxt x false) < rest.len at hlt
        rw [hh, hrest] at hlt
        rw [sendBase_some hbuf, sendLen_some hbuf]
        have htrans := fwd_trans buf.headSeq x v.sndNxt
        cases hg : gt x v.sndNxt with
        | true =>
          rw [gt_iff] at hg
          have h1 := fwd_trans buf.headSeq v.sndNxt x
          omega
        | false =>
          simp only [Conn.ackedNxt, hg, Bool.false_eq_true, if_false] at hlt
          omega
    · rw [htw, Bool.not_false, Bool.and_true, gt_iff]
      change fwd rest.headSeq (v.ackedNxt x fast) ≤ rest.len at hord
      rw [hh, hrest] at hord
      refine ⟨Nat.pos_of_ne_zero fun h0 => hne' ?_, by omega⟩
      exact (eq_of_fwd_eq_zero h0).symm

theorem acked_broken {buf : TcpSendBuffer} {x : UInt32} {fast : Bool} (hb : Based cfg v)
    (hflow : v.state.flows) (h : Progressing v) (hg : guard cfg v (.ack buf x fast))
    (hcause : Cause cfg s e v (.ack buf x fast))
    (hbad : Far buf x ∨ fast ∧ lt x v.sndUna) : Broken s e (v.acked buf x fast) := by
  obtain ⟨hbuf, hgt, hfast⟩ := hg
  obtain ⟨seg, he, _, _, _, _, _, hsame, _⟩ := hcause
  have huna := hb.una (flows_sending hflow)
  have hlen := hb.len_lt
  have hord := h.order
  rw [sendBase_some hbuf] at huna hord
  rw [sendLen_some hbuf] at hlen hord
  have hlate : (v.acked buf x fast).state.early = false := by
    rw [show (v.acked buf x fast).state = v.state from apply_state v (.ack buf x fast)]
    exact sending_late (flows_sending hflow)
  have hn : v.sndNxt = s.sndNxt := hsame.sndNxt
  have hu : v.sndUna = s.sndvar.sndUna := hsame.sndUna
  by_cases hfar : Far buf x
  · obtain ⟨hx, h0⟩ := hfar
    have hnxt : v.sndNxt = buf.headSeq := eq_of_fwd_eq_zero (by omega)
    have hback := fwd_trans x buf.headSeq x
    have hback' := fwd_lt x buf.headSeq
    rw [fwd_self] at hback
    have hgeq : geq buf.headSeq x = false := by
      rw [not_geq_iff]
      omega
    have hne : x ≠ v.sndUna := by
      rintro rfl
      rw [huna, fwd_self] at hx
      cases hx
    have hw : v.acked buf x fast = { v.noted buf x fast with
        sndbuf := some buf
        sndUna := x
        rto := gt (v.ackedNxt x fast) x && !v.timewait
        log := .release 0 :: v.log } := by
      rw [Conn.acked, hgeq, sbRemove_of_empty _ h0, Nat.sub_self]
      rfl
    refine ⟨⟨seg, he⟩, hlate, ?_, buf, ?_, ?_⟩
    · rw [hw]
      exact .inr (hu ▸ hne)
    · rw [hw]
    · rw [hw]
      change geq (v.ackedNxt x fast) x = false ∨ _ ∧ geq buf.headSeq (v.ackedNxt x fast) = false
      cases fast with
      | true => exact .inr ⟨h0, hgeq⟩
      | false =>
        have hno : gt x v.sndNxt = false := by
          rw [hnxt, not_gt_iff]
          omega
        simp only [Conn.ackedNxt, hno, Bool.false_eq_true, if_false]
        rw [hnxt]
        exact .inl hgeq
  · obtain hbad | ⟨rfl, hlow⟩ := hbad
    · exact absurd hbad hfar
    rw [huna, lt_iff] at hlow
    obtain ⟨_, _, _, hw⟩ | ⟨_, hle, _⟩ := acked_cases true hb hbuf hgt hfar
    · refine ⟨⟨seg, he⟩, hlate, ?_, buf, ?_, ?_⟩
      · rw [hw]
        refine .inl fun hx => ?_
        change x = s.sndNxt at hx
        have hbelow := hfast rfl
        rw [hx, ← hn, lt_iff, fwd_self] at hbelow
        omega
      · rw [hw]
        exact hbuf
      · rw [hw]
        left
        change geq x v.sndUna = false
        rw [huna, not_geq_iff]
        exact hlow
    · omega

theorem Progressing.apply (hsyn : noLateSyn s e.2) (hl : Live v) (ho : Opening v)
    (hb : Based cfg v) (h : v.state.flows → Progressing v) (hg : m.guard cfg v)
    (hm : m.calm) (hcause : Cause cfg s e v m) (hack : ∀ buf x fast, m ≠ .ack buf x fast)
    (hflow : (m.apply v).state.flows) : Progressing (m.apply v) := by
  have hopened : ∀ w, v.state.early → w.sndbuf = v.sndbuf → w.iss = v.iss →
      w.sndUna = v.sndUna + 1 → w.sndNxt = v.iss + 1 → Progressing w := by
    intro w he h1 h2 h3 h4
    have hbase : w.sendBase = w.sndNxt := by
      rw [Conn.sendBase, h1, hl.shape.sndbuf he, h4]
      exact congrArg (· + 1) h2
    have hlen : w.sendLen = 0 := by
      rw [Conn.sendLen, h1, hl.shape.sndbuf he]
    refine ⟨?_, fun _ hlt => ?_, fun _ hne => absurd ?_ hne⟩
    · rw [hbase, fwd_self]
      exact Nat.zero_le _
    · rw [hlen] at hlt
      exact absurd hlt (Nat.not_lt_zero _)
    · rw [h3, h4, ho.una he]
  have hidle : ∀ st, v.state = st → st.flows = false → v.state.flows → False := by
    rintro st rfl h1 h2
    rw [h1] at h2
    cases h2
  have hst := apply_state v m
  rw [hst] at hflow
  have hkept : ∀ w, w.sndbuf = v.sndbuf → w.iss = v.iss → w.sndNxt = v.sndNxt →
      w.sndUna = v.sndUna → w.sendq = v.sendq → w.sendList = v.sendList →
      (w.reason = .notClosed → v.reason = .notClosed ∧ w.rto = v.rto) → v.state.flows →
      Progressing w := by
    intro w h1 h2 h3 h4 h5 h6 h7 hv
    have hbase : w.sendBase = v.sendBase := by rw [Conn.sendBase, Conn.sendBase, h1, h2]
    have hlen : w.sendLen = v.sendLen := by rw [Conn.sendLen, Conn.sendLen, h1]
    obtain ⟨ho, hq, ht⟩ := h hv
    refine ⟨?_, fun hr => ?_, fun hr => ?_⟩
    · rw [hbase, hlen, h3]
      exact ho
    · rw [hbase, hlen, h3, h5, h6]
      exact hq (h7 hr).1
    · rw [h3, h4, (h7 hr).2]
      exact ht (h7 hr).1
  cases m with
  | crash | assertFail | destroy => cases hm
  | shut r | listen seq | loneSyn seq | finAcked | closingAcked | lastAcked => cases hflow
  | bareAck | restart => exact (hidle _ (by first | exact hg.1 | exact hg) rfl hflow).elim
  | refused =>
    obtain ⟨hs, a, ha⟩ := hg
    exact hopened _ (state_of hs rfl) rfl rfl rfl (ho.acceptable hs ha).2
  | synAck seq a =>
    obtain ⟨_, hs, ha⟩ := hg
    exact hopened _ (state_of hs rfl) rfl rfl rfl (ho.acceptable hs ha).1
  | ackOfSyn => exact hopened _ (state_of hg.2 rfl) rfl rfl rfl rfl
  | timewait keep => exact (hidle _ hg rfl hflow).elim
  | expire | blame => exact hkept _ rfl rfl rfl rfl rfl rfl (fun hr => absurd hr hg) hflow
  | reset =>
    refine hkept _ rfl rfl rfl rfl rfl rfl (fun hr => by cases hr) ?_
    exact flows_iff.mpr hg
  | jump x =>
    obtain ⟨seg, he, hs, hy, _⟩ := hcause
    rw [he] at hsyn
    simp [noLateSyn, hs, hy] at hsyn
    exact absurd hsyn (by decide)
  | ack buf x fast => exact absurd rfl (hack buf x fast)
  | peerFin seq dest =>
    obtain ⟨h', rfl⟩ | ⟨_, rfl⟩ | ⟨_, rfl⟩ | ⟨_, rfl⟩ := hg.2
    · exact hkept _ rfl rfl rfl rfl rfl rfl (fun hr => ⟨hr, rfl⟩) (flows_iff.mpr (.inl h'))
    · cases hflow
    · cases hflow
    · cases hflow
  | retransmit =>
    obtain ⟨_, hbuf, _⟩ := retransmitted_frame v
    obtain ⟨hu, hi, hn⟩ := retransmitted_una v
    have hlist : v.retransmitted.sendList := by
      obtain hs | hs := flows_iff.mp hflow
      · simp only [Conn.retransmitted, show v.state = .established from hs]
      · simp only [Conn.retransmitted, show v.state = .closeWait from hs]
    change Progressing v.retransmitted
    refine ⟨?_, fun _ _ => .inr hlist, fun _ hne => absurd (hu.trans hn.symm) hne⟩
    rw [hn, hb.una (flows_sending hflow), Conn.sendBase, Conn.sendBase, hbuf, hi, fwd_self]
    exact Nat.zero_le _
  | takeSendq => exact ⟨(h hflow).order, fun _ _ => .inr rfl, (h hflow).timed⟩
  | beginClose =>
    change (if v.state = .established then TcpState.finWait1 else .lastAck).flows at hflow
    split at hflow <;> cases hflow
  | emitSyn seg =>
    obtain ⟨hs, _⟩ | ⟨hs, _⟩ := hg.2.2.2.2.2.2
    · exact (hidle _ hs rfl hflow).elim
    · exact (hidle _ hs rfl hflow).elim
  | emitFin seg =>
    obtain ⟨hs | hs, _⟩ | ⟨hs, _⟩ := hg.2.2.2.2.2.2.2
    · exact (hidle _ hs rfl hflow).elim
    · exact (hidle _ hs rfl hflow).elim
    · exact (hidle _ hs rfl hflow).elim
  | emitRst seg => exact (hidle _ hg.2.2.2.2.2.2.2 rfl hflow).elim
  | emitAck seg =>
    have hn := emitted_sndNxt_plain v hg.1 hg.2.1
    refine hkept _ rfl rfl hn rfl rfl rfl (fun hr => ⟨hr, ?_⟩) hflow
    change (if 0 < seg.payload.length || seg.syn || seg.fin then
      v.rto || !v.timewait else v.rto) = _
    rw [hg.2.1, hg.1.1, hg.1.2.1]
    rfl
  | emitData buf seg =>
    have hord := emitData_aligned hb hg
    obtain ⟨_, hlist, _, _, _, hp, _⟩ := hg
    refine ⟨hord, fun _ _ => .inr hlist, fun hr hne => ?_⟩
    change v.sndUna ≠ v.sndNxt + ofNat seg.payload.length +
      (if seg.syn || seg.fin then 1 else 0) at hne
    change (if 0 < seg.payload.length || seg.syn || seg.fin then v.rto || !v.timewait else v.rto) =
      true
    rw [hp.1, hp.2.1] at hne ⊢
    by_cases hpay : 0 < seg.payload.length
    · have htw : v.timewait = false := by
        obtain hs | hs := flows_iff.mp hflow
        · exact hl.shape.timewait_eq_false hs (by decide)
        · exact hl.shape.timewait_eq_false hs (by decide)
      simp [hpay, htw]
    · have h0 : seg.payload.length = 0 := by omega
      rw [h0] at hne ⊢
      refine (h hflow).timed hr ?_
      simpa using hne
  | unqueue =>
    obtain ⟨buf, hbuf, hend⟩ := hg hl.fault (flows_flushes hflow)
    have hv := h hflow
    refine ⟨hv.order, fun _ hlt => absurd hlt ?_, hv.timed⟩
    change ¬ fwd v.sendBase v.sndNxt < v.sendLen
    have hlen := hb.len_lt
    rw [sendBase_some hbuf, sendLen_some hbuf]
    rw [sendLen_some hbuf] at hlen
    obtain hend | hend := hend
    · omega
    · rw [hend, fwd_add_ofNat, fwd_self]
      omega
  | put buf bytes =>
    have hv := h (flows_iff.mpr hg.1)
    obtain ⟨_, _, hh, hlen⟩ := put_spec hb hg
    refine ⟨?_, fun _ _ => ?_, hv.timed⟩
    · change fwd (sbPut buf bytes).2.headSeq v.sndNxt ≤ (sbPut buf bytes).2.len
      rw [hh, hlen]
      exact Nat.le_add_right_of_le hv.order
    · change (v.sendq || !v.sendList) ∨ v.sendList
      cases v.sendList with
      | true => exact .inr rfl
      | false => exact .inl (by simp)
  | _ => exact hkept _ rfl rfl rfl rfl rfl rfl (fun hr => ⟨hr, rfl⟩) hflow

def Advancing (cfg : Config) (s : TcpStream) (e : Env × Action) (v : Conn) : Prop :=
  Steady cfg v ∨ Gone v ∨ Broken s e v

theorem Steady.apply (hc : steadyEvent cfg s e) (hl : Live v) (h : Steady cfg v)
    (hg : m.guard cfg v) (hm : m.calm) (hcause : Cause cfg s e v m) :
    Advancing cfg s e (m.apply v) := by
  obtain ⟨hbare, hsyn, _⟩ := steadyEvent_iff.mp hc
  have hopen := opening_apply hbare hl h.opening hg hm hcause
  have hne : m ≠ .bareAck := fun hb => noBareAck_move hbare (hb ▸ hcause)
  by_cases hack : ∃ buf x fast, m = .ack buf x fast
  · obtain ⟨buf, x, fast, rfl⟩ := hack
    have hst : (v.acked buf x fast).state = v.state := apply_state v (.ack buf x fast)
    have hlate : v.state.early = false := hl.shape.not_early_of_sndbuf (by rw [hg.1]; rfl)
    cases hflow : v.state.flows with
    | false => exact .inr (.inl ⟨hst ▸ hlate, hst ▸ hflow⟩)
    | true =>
      by_cases hbad : Far buf x ∨ fast ∧ lt x v.sndUna
      · exact .inr (.inr (acked_broken h.based hflow (h.progress hflow) hg hcause hbad))
      · have hfar : ¬ Far buf x := fun hf => hbad (.inl hf)
        have hdup : fast → lt x v.sndUna = false :=
          fun hf => eq_false_of_ne_true fun hlt => hbad (.inr ⟨hf, hlt⟩)
        refine .inl ⟨hopen, h.based.apply hne ?_ hl h.opening hg hm, fun _ => ?_⟩
        · rintro buf' x' fast' hm'
          cases hm'
          exact hfar
        · exact acked_progress h.based hl hflow (h.progress hflow) hg.1 hg.2.1 hfar hdup
  · have hno : ∀ buf x fast, m ≠ .ack buf x fast := fun buf x fast hm' => hack ⟨buf, x, fast, hm'⟩
    refine .inl ⟨hopen, h.based.apply hne ?_ hl h.opening hg hm, fun hf => ?_⟩
    · exact fun buf x fast hm' => absurd hm' (hno buf x fast)
    · exact Progressing.apply hsyn hl h.opening h.based h.progress hg hm hcause hno hf

theorem Advancing.apply (hc : steadyEvent cfg s e) (hl : Live v) (h : Advancing cfg s e v)
    (hg : m.guard cfg v) (hm : m.calm) (hcause : Cause cfg s e v m) :
    Advancing cfg s e (m.apply v) := by
  obtain h | h | h := h
  · exact h.apply hc hl hg hm hcause
  · exact .inr (.inl (h.apply hg hm))
  · exact .inr (h.apply hg hm hcause)

theorem Advancing.exit (hc : steadyEvent cfg s e) (h : Advancing cfg s e (conn (step cfg s e))) :
    Steady cfg (conn (step cfg s e)) ∨ Gone (conn (step cfg s e)) := by
  obtain h | h | h := h
  · exact .inl h
  · exact .inr h
  · obtain ⟨_, _, hord⟩ := steadyEvent_iff.mp hc
    obtain ⟨buf, hbuf, hbad⟩ := h.order
    cases hflow : (step cfg s e).state.flows with
    | false => exact .inr ⟨h.late, hflow⟩
    | true =>
      have hin := hord hflow
      have hb : (step cfg s e).sndvar.sndbuf = some buf := hbuf
      simp only [inOrder, hb, Bool.and_eq_true] at hin
      obtain hbad | ⟨h0, hbad⟩ := hbad
      · cases hbad.symm.trans hin.1
      · rw [h0, show UInt32.ofNat 0 = 0 from rfl, UInt32.add_zero] at hin
        cases hbad.symm.trans hin.2

structure NotStuck (s : TcpStream) : Prop where
  queued : ∀ buf, s.sndvar.sndbuf = some buf → fwd buf.headSeq s.sndNxt < buf.len →
    s.sndvar.onSendq = true ∨ s.sndvar.onSendList = true
  timed : s.sndvar.sndUna ≠ s.sndNxt → 0 ≤ s.onRtoIdx

/-- In ESTABLISHED and CLOSE_WAIT unsent bytes are queued and sent ones are timed. -/
theorem send_progress_kept (s : TcpStream) (es : List (Env × Action)) (hs : Opened cfg s)
    (ha : Along (step cfg) (fun s e => steadyEvent cfg s e = true) s es)
    (hf : (run cfg s es).fault = none) (hal : (run cfg s es).onHashTable = true)
    (hst : (run cfg s es).state = .established ∨ (run cfg s es).state = .closeWait)
    (hopen : (run cfg s es).closeReason = .notClosed) : NotStuck (run cfg s es) := by
  have hstart : ∀ v, Started v → Steady cfg v ∨ Gone v := by
    intro v hv
    refine .inl ⟨opening_started hv, based_started hv, fun hflow => ?_⟩
    cases hv <;> cases hflow
  have henter : ∀ (s : TcpStream) (e : Env × Action), steadyEvent cfg s e = true →
      Steady cfg (conn s) ∨ Gone (conn s) → Advancing cfg s e (conn s) := by
    rintro s e _ (h | h)
    · exact .inl h
    · exact .inr (.inl h)
  obtain ⟨hl, hinv⟩ := run_rule_live henter (fun s e v m hc => Advancing.apply hc)
    (fun s e hc _ => Advancing.exit hc) hstart hs ha hf hal
  have hflow : (conn (run cfg s es)).state.flows = true := flows_iff.mpr hst
  obtain hinv | ⟨_, hgone⟩ := hinv
  · obtain ⟨_, hq, ht⟩ := hinv.progress hflow
    refine ⟨fun buf hbuf hlt => hq hopen ?_, fun hne => ?_⟩
    · rw [sendBase_some hbuf, sendLen_some hbuf]
      exact hlt
    · exact of_decide_eq_true (ht hopen hne)
  · cases hgone.symm.trans hflow

theorem send_progress_kept_client :
    (run .small client (atRest (clientHandshake ++
      [.write [1, 2, 3], .dequeue .sendq, .dataPass 1, .write [4]]))).sndvar.sndUna = 101 ∧
      NotStuck (run .small client (atRest (clientHandshake ++
        [.write [1, 2, 3], .dequeue .sendq, .dataPass 1, .write [4]]))) :=
  ⟨by decide, send_progress_kept _ _ client_opened (by decide) (by decide) (by decide)
    (.inl (by decide)) (by decide)⟩

end Mtcp
