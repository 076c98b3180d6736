import Mtcp.Progress

namespace Mtcp

open Serial SendBuffer Bytes Runs UInt32

variable {cfg : Config}

/-! Our side of the connection closes: `fss` is where the send buffer ends. -/

def TcpState.begun : TcpState → Bool
  | .finWait1 | .finWait2 | .closing | .lastAck | .timeWait => true
  | _ => false

def Conn.Begun (v : Conn) : Prop := v.state.begun = true ∨ v.finSent = true

def Conn.bufEnd (v : Conn) : UInt32 := v.sendBase + UInt32.ofNat v.sendLen

/-- A SYN in ESTABLISHED, before anything was written, acknowledges our SYN. -/
def synAtStart (s : TcpStream) (seg : Segment) : Bool :=
  !(s.state == .established && seg.syn && s.sndvar.sndbuf.isNone) ||
    seg.ackSeq == s.sndvar.iss + 1

/-- The application does not write to a stream whose close was postponed. -/
def noLateWrite (s : TcpStream) : Action → Bool
  | .write _ => s.occ .closeqInt == 0
  | _ => true

/-- A close is taken up once, and then `fss` does not change any more. -/
structure Finishing (v : Conn) : Prop where
  sent : v.finSent = true → v.state.early = false ∧ v.state.flows = false
  taken : v.Begun → v.closes = 0
  fixed : 0 < v.closesInt ∧ v.state.flows = true ∨ v.Begun → v.fss = v.bufEnd
  start : v.state.flows = true → v.sndbuf = none → v.sndNxt = v.sendBase

theorem flows_not_begun {st : TcpState} (h : st.flows) : st.begun = false := by
  cases st <;> first | rfl | cases h

theorem begun_late {st : TcpState} (h : st.begun) : st.early = false ∧ st.flows = false := by
  cases st <;> first | exact ⟨rfl, rfl⟩ | cases h

theorem Finishing.not_begun {v : Conn} (h : Finishing v)
    (hs : v.state.early ∨ v.state.flows) : ¬ v.Begun := by
  rintro (hb | hb)
  · obtain ⟨h1, h2⟩ := begun_late hb
    rw [h1, h2] at hs
    obtain hs | hs := hs <;> cases hs
  · obtain ⟨h1, h2⟩ := h.sent hb
    rw [h1, h2] at hs
    obtain hs | hs := hs <;> cases hs

theorem Finishing.finSent_eq {v : Conn} (h : Finishing v)
    (hs : v.state.early ∨ v.state.flows) : v.finSent = false := by
  cases hf : v.finSent with
  | false => rfl
  | true => exact absurd (.inr hf) (h.not_begun hs)

theorem Finishing.sendEnd_eq {v : Conn} (h : Finishing v) (hs : v.state.flows) :
    v.sendEnd = v.bufEnd := by
  cases hb : v.sndbuf with
  | none =>
    rw [Conn.sendEnd, Conn.bufEnd, Conn.sendLen, hb]
    exact (h.start hs hb).trans (UInt32.add_zero _).symm
  | some buf => rw [Conn.sendEnd, Conn.bufEnd, Conn.sendLen, Conn.sendBase, hb]

theorem acked_close (v : Conn) (buf : TcpSendBuffer) (x : UInt32) (fast : Bool) :
    (v.acked buf x fast).finSent = v.finSent ∧ (v.acked buf x fast).fss = v.fss :=
  ⟨(congrArg Conn.finSent (v.acked_eq buf x fast) :), (congrArg Conn.fss (v.acked_eq buf x fast) :)⟩

theorem acked_bufEnd {v : Conn} {buf : TcpSendBuffer} {x : UInt32} {fast : Bool}
    (h : Based cfg v) (hbuf : v.sndbuf = some buf)
    (hgt : gt x (buf.headSeq + ofNat buf.len) = false) (hnear : ¬ Far buf x) :
    (v.acked buf x fast).bufEnd = v.bufEnd := by
  obtain ⟨_, _, _, hw⟩ | ⟨_, hle, _, rest, _, _, hh, hl, _, hw⟩ := acked_cases fast h hbuf hgt hnear
  · rw [hw]
    rfl
  · rw [hw]
    change rest.headSeq + ofNat rest.len = v.bufEnd
    rw [Conn.bufEnd, sendBase_some hbuf, sendLen_some hbuf, hh, hl]
    nth_rewrite 1 [← add_fwd buf.headSeq x]
    rw [UInt32.add_assoc, ← UInt32.ofNat_add, Nat.add_sub_cancel' hle]

theorem Finishing.of_quiet {v : Conn} (hf : v.finSent = false) (hb : v.state.begun = false)
    (hc : v.closesInt = 0 ∨ v.state.flows = false)
    (hs : v.state.flows → v.sndbuf = none → v.sndNxt = v.sendBase) : Finishing v := by
  have hno : ¬ v.Begun := by
    rintro (h | h)
    · rw [hb] at h
      cases h
    · rw [hf] at h
      cases h
  refine ⟨fun h => ?_, fun h => absurd h hno, fun h => ?_, hs⟩
  · rw [hf] at h
    cases h
  · obtain ⟨h1, h2⟩ | h := h
    · obtain hc | hc := hc
      · omega
      · rw [hc] at h2
        cases h2
    · exact absurd h hno

theorem Finishing.go_on {v w : Conn} (h : Finishing v) (hv : v.Begun)
    (hs : w.state.early = false ∧ w.state.flows = false) (hc : w.closes = v.closes)
    (hfss : w.fss = v.fss) (hend : w.bufEnd = v.bufEnd) : Finishing w := by
  refine ⟨fun _ => hs, fun _ => hc.trans (h.taken hv), fun _ => ?_, fun hflow => ?_⟩
  · rw [hfss, hend]
    exact h.fixed (.inr hv)
  · rw [hs.2] at hflow
    cases hflow

theorem emitFin_state {v : Conn} {seg : Segment} (hg : Move.guard cfg v (.emitFin seg)) :
    v.state.sending ∧ v.state.begun := by
  obtain ⟨hst | hst, -⟩ | ⟨hst, -⟩ := hg.2.2.2.2.2.2.2 <;> rw [hst] <;> exact ⟨rfl, rfl⟩

theorem Finishing.moved {v w : Conn} (h : Finishing v) (hst : w.state = v.state)
    (hf : w.finSent = v.finSent) (hc : w.closes = v.closes) (hi : w.closesInt = v.closesInt)
    (hfss : w.fss = v.fss) (hend : w.bufEnd = v.bufEnd)
    (hs : v.state.flows → w.sndbuf = none → w.sndNxt = w.sendBase) : Finishing w := by
  refine ⟨?_, ?_, ?_, ?_⟩
  · rw [hst, hf]
    exact h.sent
  · rw [Conn.Begun, hst, hf, hc]
    exact h.taken
  · rw [Conn.Begun, hst, hf, hi, hfss, hend]
    exact h.fixed
  · rw [hst]
    exact hs

theorem Finishing.emitted {v : Conn} {seg : Segment} (h : Finishing v) (hfin : seg.fin = false)
    (hs : v.state.flows → v.sndbuf = none → (v.emitted seg).sndNxt = v.sendBase) :
    Finishing (v.emitted seg) :=
  h.moved rfl (emitted_finSent v hfin) rfl rfl rfl rfl hs

theorem Finishing.leave {v : Conn} {st : TcpState} (h : Finishing v)
    (hst : st = .closed ∨ st = .closeWait ∧ v.state.flows) : Finishing { v with state := st } := by
  obtain rfl | ⟨rfl, hflow⟩ := hst
  · by_cases hv : v.Begun
    · exact h.go_on hv ⟨rfl, rfl⟩ rfl rfl rfl
    · exact .of_quiet (eq_false_of_ne_true fun hf => hv (.inr hf)) rfl (.inr rfl)
        fun hs => by cases hs
  · have hno := h.not_begun (.inr hflow)
    refine ⟨fun hf => absurd (.inr hf) hno, ?_, ?_, fun _ => h.start hflow⟩
    · rintro (hs | hf)
      · cases hs
      · exact absurd (.inr hf) hno
    · rintro (⟨hpos, _⟩ | hs | hf)
      · exact h.fixed (.inl ⟨hpos, hflow⟩)
      · cases hs
      · exact absurd (.inr hf) hno

theorem Finishing.apply {v : Conn} {m : Move} (hl : Live v) (ho : Opening v) (hb : Based cfg v)
    (h : Finishing v) (hg : m.guard cfg v) (hm : m.calm)
    (hnear : ∀ buf x fast, m = .ack buf x fast → ¬ Far buf x)
    (hjump : ∀ x, m = .jump x → v.sndbuf = none → x = v.iss + 1)
    (hput : ∀ buf bytes, m = .put buf bytes → v.closesInt = 0) : Finishing (m.apply v) := by
  have hopened : ∀ w, v.state.early → w.finSent = v.finSent →
      w.state.begun = false → w.closesInt = v.closesInt → w.sndbuf = v.sndbuf → w.iss = v.iss →
      w.sndNxt = v.iss + 1 → Finishing w := by
    intro w he h1 h2 h3 h4 h5 h6
    refine .of_quiet (h1.trans (h.finSent_eq (.inl he))) h2
      (.inl (h3.trans (hl.shape.closing he).2.1)) fun _ hnone => ?_
    rw [Conn.sendBase, hnone, h6]
    exact congrArg (· + 1) h5.symm
  cases m with
  | crash | assertFail | destroy => cases hm
  | shut r => exact (h.leave (.inl rfl)).moved rfl rfl rfl rfl rfl rfl fun hs => by cases hs
  | reset =>
    exact (h.leave (.inr ⟨rfl, flows_iff.mpr hg⟩)).moved rfl rfl rfl rfl rfl rfl
      fun _ => h.start (flows_iff.mpr hg)
  | listen | loneSyn =>
    exact .of_quiet (h.finSent_eq (.inl (state_of hg rfl))) rfl (.inr rfl) fun hs => by cases hs
  | refused =>
    obtain ⟨hs, a, ha⟩ := hg
    exact hopened _ (state_of hs rfl) rfl rfl rfl rfl rfl (ho.acceptable hs ha).2
  | synAck seq a =>
    obtain ⟨_, hs, ha⟩ := hg
    exact hopened _ (state_of hs rfl) rfl rfl rfl rfl rfl (ho.acceptable hs ha).1
  | ackOfSyn => exact hopened _ (state_of hg.2 rfl) rfl rfl rfl rfl rfl rfl
  | restart =>
    refine ⟨h.sent, h.taken, h.fixed, fun hs => ?_⟩
    change v.state.flows at hs
    rw [show v.state = .synRcvd from hg] at hs
    cases hs
  | jump x =>
    refine ⟨h.sent, h.taken, h.fixed, fun _ hnone => ?_⟩
    change v.sndbuf = none at hnone
    change x = v.sendBase
    rw [hjump x rfl hnone, Conn.sendBase, hnone]
  | ack buf x fast =>
    have hst : (v.acked buf x fast).state = v.state := Move.apply_state v (.ack buf x fast)
    have hend := @acked_bufEnd cfg v buf x fast hb hg.1 hg.2.1 (hnear buf x fast rfl)
    obtain ⟨_, hq⟩ := acked_frame v buf x fast
    obtain ⟨hfin, hfss⟩ := acked_close v buf x fast
    have hsome : (v.acked buf x fast).sndbuf ≠ none := by
      unfold Conn.acked
      split
      · simp [Conn.noted, hg.1]
      · simp
    exact h.moved hst hfin hq.closes hq.closesInt hfss hend fun _ hnone => absurd hnone hsome
  | peerFin seq dest =>
    obtain ⟨h', rfl⟩ | ⟨h', rfl⟩ | ⟨h', rfl⟩ | ⟨h', rfl⟩ := hg.2
    · have hflow : v.state.flows := flows_iff.mpr (.inl h')
      exact (h.leave (.inr ⟨rfl, hflow⟩)).moved rfl rfl rfl rfl rfl rfl fun _ => h.start hflow
    · exact h.go_on (.inl (state_of h' rfl)) ⟨rfl, rfl⟩ rfl rfl rfl
    · exact h.go_on (.inl (state_of h' rfl)) ⟨rfl, rfl⟩ rfl rfl rfl
    · exact (h.leave (.inl rfl)).moved rfl rfl rfl rfl rfl rfl fun hs => by cases hs
  | finAcked | closingAcked | lastAcked => exact h.go_on (.inr hg.2) ⟨rfl, rfl⟩ rfl rfl rfl
  | retransmit =>
    have hst : v.retransmitted.state = v.state := Move.apply_state v .retransmit
    obtain ⟨_, hbuf, hfin, hq⟩ := retransmitted_frame v
    obtain ⟨_, hi, _⟩ := retransmitted_una v
    have hfss := congrArg Conn.fss v.retransmitted_eq
    have hend : v.retransmitted.bufEnd = v.bufEnd := by
      rw [Conn.bufEnd, Conn.bufEnd, Conn.sendBase, Conn.sendBase, Conn.sendLen, Conn.sendLen,
        hbuf, hi]
    refine h.moved hst hfin hq.closes hq.closesInt hfss hend fun hflow hnone => ?_
    -- a stream with nothing to retransmit has no timer in these states
    rw [show (Move.apply v .retransmit).sndbuf = v.sndbuf from hbuf] at hnone
    obtain hs | hs | ⟨_, hsome⟩ | ⟨hs, _⟩ := hg.2.2
    · rw [hs] at hflow
      cases hflow
    · rw [hs] at hflow
      cases hflow
    · rw [hnone] at hsome
      cases hsome
    · obtain hs | hs | hs := hs <;> rw [hs] at hflow <;> cases hflow
  | takeClose =>
    have hno : ¬ v.Begun := fun hv => by
      have h0 := h.taken hv
      change 0 < v.closes at hg
      omega
    have hint : v.closesInt = 0 := by
      have honce := hl.shape.once
      change 0 < v.closes at hg
      split at honce <;> omega
    refine ⟨h.sent, fun hv => absurd hv hno, ?_, h.start⟩
    rintro (⟨hpos, _⟩ | hv)
    · change 0 < v.closesInt at hpos
      omega
    · exact absurd hv hno
  | postpone =>
    obtain ⟨_, _, h0, _, hfss⟩ := hg
    refine ⟨h.sent, h.taken, ?_, h.start⟩
    rintro (⟨_, hflow⟩ | hv)
    · exact hfss.trans (h.sendEnd_eq hflow)
    · exact h.fixed (.inr hv)
  | takeCloseInt =>
    refine ⟨h.sent, h.taken, ?_, h.start⟩
    rintro (⟨_, hflow⟩ | hv)
    · exact h.fixed (.inl ⟨hg, hflow⟩)
    · exact h.fixed (.inr hv)
  | beginClose =>
    have hflow : v.state.flows := flows_iff.mpr hg.1
    obtain ⟨_, h0, hfss⟩ := hg
    have hlate : (Move.apply v .beginClose).state.early = false ∧
        (Move.apply v .beginClose).state.flows = false := by
      change (if v.state = .established then TcpState.finWait1 else .lastAck).early = false ∧
        (if v.state = .established then TcpState.finWait1 else .lastAck).flows = false
      split <;> exact ⟨rfl, rfl⟩
    refine ⟨fun _ => hlate, fun _ => h0, fun _ => ?_, fun hs => ?_⟩
    · obtain hpos | hfss := hfss
      · exact h.fixed (.inl ⟨hpos, hflow⟩)
      · exact hfss.trans (h.sendEnd_eq hflow)
    · rw [hlate.2] at hs
      cases hs
  | emitSyn seg =>
    have he : v.state.early := by
      obtain ⟨hs, _⟩ | ⟨hs, _⟩ := hg.2.2.2.2.2.2 <;> rw [hs] <;> rfl
    have hq : v.state.flows = false ∧ v.state.begun = false := by
      cases hst : v.state <;> rw [hst] at he <;> first | exact ⟨rfl, rfl⟩ | cases he
    refine .of_quiet ?_ hq.2 (.inr hq.1) fun hs => ?_
    · exact (emitted_finSent v hg.2.2.1).trans (h.finSent_eq (.inl he))
    · rw [show (Move.apply v (.emitSyn seg)).state = v.state from rfl, hq.1] at hs
      cases hs
  | emitFin seg =>
    have hv := (emitFin_state hg).2
    exact h.go_on (.inl hv) (begun_late hv) rfl rfl rfl
  | emitAck seg =>
    refine h.emitted hg.1.2.1 fun hflow hnone => ?_
    rw [emitted_sndNxt_plain v hg.1 hg.2.1]
    exact h.start hflow hnone
  | emitData buf seg =>
    exact h.emitted hg.2.2.2.2.2.1.2.1 fun _ hnone => by cases hg.2.2.1.symm.trans hnone
  | emitRst seg =>
    refine h.emitted hg.2.1 fun hs => ?_
    rw [hg.2.2.2.2.2.2.2] at hs
    cases hs
  | put buf bytes =>
    have hflow : v.state.flows := flows_iff.mpr hg.1
    exact .of_quiet (h.finSent_eq (.inr hflow)) (flows_not_begun hflow) (.inl (hput buf bytes rfl))
      fun _ hnone => by cases hnone
  | closeCall =>
    have hno := h.not_begun (.inr (flows_iff.mpr hg.1))
    exact ⟨h.sent, fun hv => absurd hv hno, h.fixed, h.start⟩
  | _ => exact ⟨h.sent, h.taken, h.fixed, h.start⟩

theorem finishing_started {v : Conn} (h : Started v) : Finishing v := by
  cases h with
  | active | passive => exact .of_quiet rfl rfl (.inl rfl) fun hs => by cases hs

theorem synAtStart_move {s : TcpStream} {e : Env × Action} {v : Conn} {x : UInt32}
    (hc : onAccepted synAtStart cfg s e) (hcause : Cause cfg s e v (.jump x))
    (hnone : v.sndbuf = none) : x = v.iss + 1 := by
  obtain ⟨seg, he, hst, hsyn, hr, rfl, hv, hsame⟩ := hcause
  have h := onAccepted_rx hc he hr hv
  have hiss : v.iss = s.sndvar.iss := hsame.iss
  have hbuf : s.sndvar.sndbuf = none := hsame.sndbuf.symm.trans hnone
  rw [hiss]
  simpa [synAtStart, hst, hsyn, hbuf] using h

theorem noLateWrite_move {s : TcpStream} {e : Env × Action} {v : Conn} {buf : TcpSendBuffer}
    {bytes : List UInt8} (hc : noLateWrite s e.2) (hcause : Cause cfg s e v (.put buf bytes)) :
    v.closesInt = 0 := by
  obtain ⟨⟨bytes', he⟩, hcl⟩ := hcause
  rw [he] at hc
  rw [hcl]
  simpa [noLateWrite] using hc

end Mtcp
