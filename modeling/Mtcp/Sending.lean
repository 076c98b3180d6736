import Mtcp.Handshake

namespace Mtcp

open Serial SendBuffer RingBuffer Bytes Runs

variable {cfg : Config}

/-! The send buffer and `snd_una`. -/

/-- The states in which `snd_una` is the first byte of the send buffer. -/
def TcpState.sending : TcpState → Bool
  | .established | .closeWait | .finWait1 | .closing | .lastAck => true
  | _ => false

def onAccepted (p : TcpStream → Segment → Bool) (cfg : Config) (s : TcpStream)
    (e : Env × Action) : Bool :=
  match e.2 with
  | .rx seg => seg.rst || !validated cfg e.1 seg s || p s seg
  | _ => true

theorem onAccepted_rx {p : TcpStream → Segment → Bool} {s : TcpStream} {e : Env × Action}
    {seg : Segment} (h : onAccepted p cfg s e) (he : e.2 = .rx seg) (hr : seg.rst = false)
    (hv : validated cfg e.1 seg s) : p s seg := by
  unfold onAccepted at h
  rw [he] at h
  simpa only [hr, hv, Bool.not_true, Bool.false_or] using h

/-- Exactly half the sequence space ahead of an empty send buffer. -/
def Far (buf : TcpSendBuffer) (x : UInt32) : Prop :=
  fwd buf.headSeq x = 2147483648 ∧ buf.len = 0

def nearAck (s : TcpStream) (seg : Segment) : Bool :=
  match s.sndvar.sndbuf with
  | none => true
  | some buf => !(buf.len == 0 && fwd buf.headSeq (effectiveAck seg s) == 2147483648)

theorem nearAck_move {s : TcpStream} {e : Env × Action} {v : Conn} {buf : TcpSendBuffer}
    {x : UInt32} {fast : Bool} (hc : onAccepted nearAck cfg s e)
    (hbuf : v.sndbuf = some buf) (hcause : Cause cfg s e v (.ack buf x fast)) : ¬ Far buf x := by
  obtain ⟨seg, he, hr, rfl, hv, _, _, hsame, _⟩ := hcause
  have hs : s.sndvar.sndbuf = some buf := hsame.sndbuf.symm.trans hbuf
  have h := onAccepted_rx hc he hr hv
  unfold nearAck at h
  rw [hs] at h
  rintro ⟨h1, h2⟩
  simp [h1, h2] at h

/-- The send buffer is sound, and `snd_una` is its first byte. -/
structure Based (cfg : Config) (v : Conn) : Prop where
  sound : ∀ buf, v.sndbuf = some buf → Wf buf ∧ buf.size = cfg.sndbufSize
  una : v.state.sending = true → v.sndUna = v.sendBase

theorem Based.len_lt {v : Conn} (h : Based cfg v) : v.sendLen < 2147483648 := by
  unfold Conn.sendLen
  have hsize := cfg.sndbufSize_lt
  cases hb : v.sndbuf with
  | none => simp
  | some buf =>
    obtain ⟨hw, hs⟩ := h.sound buf hb
    have hl := hw.len_le
    dsimp only
    omega

theorem sendBase_some {v : Conn} {buf : TcpSendBuffer} (h : v.sndbuf = some buf) :
    v.sendBase = buf.headSeq := by
  rw [Conn.sendBase, h]

theorem sendLen_some {v : Conn} {buf : TcpSendBuffer} (h : v.sndbuf = some buf) :
    v.sendLen = buf.len := by
  rw [Conn.sendLen, h]

theorem acked_cases {v : Conn} {buf : TcpSendBuffer} {x : UInt32} (fast : Bool) (h : Based cfg v)
    (hbuf : v.sndbuf = some buf) (hgt : gt x (buf.headSeq + UInt32.ofNat buf.len) = false)
    (hnear : ¬ Far buf x) :
    (fwd x buf.headSeq + buf.len ≤ 2147483648 ∧ fwd x buf.headSeq < 2147483648 ∧
      geq buf.headSeq x ∧ v.acked buf x fast = v.noted buf x fast) ∨
    (0 < fwd buf.headSeq x ∧ fwd buf.headSeq x ≤ buf.len ∧ geq buf.headSeq x = false ∧
      ∃ rest, Wf rest ∧ rest.size = buf.size ∧ rest.headSeq = x ∧
        rest.len = buf.len - fwd buf.headSeq x ∧
        contents rest = (contents buf).drop (fwd buf.headSeq x) ∧
        v.acked buf x fast = { v.noted buf x fast with
          sndbuf := some rest
          sndUna := x
          rto := gt (v.ackedNxt x fast) x && !v.timewait
          log := .release (fwd buf.headSeq x) :: v.log }) := by
  have hlen := h.len_lt
  rw [sendLen_some hbuf] at hlen
  obtain ⟨hle, hlt⟩ | ⟨hpos, hle⟩ | hfar := not_gt_add_cases hlen hgt
  · have hgeq : geq buf.headSeq x := (geq_iff _ _).mpr hlt
    exact .inl ⟨hle, hlt, hgeq, if_pos hgeq⟩
  · have hgeq : geq buf.headSeq x = false := by
      rw [not_geq_iff]
      have htrans := fwd_trans x buf.headSeq x
      have h1 := fwd_lt x buf.headSeq
      rw [fwd_self] at htrans
      omega
    obtain ⟨hw, hc, hl, hs, hh⟩ := sbRemove_spec (h.sound buf hbuf).1 hle
    refine .inr ⟨hpos, hle, hgeq, _, hw, hs, ?_, hl, hc, ?_⟩
    · rw [hh, add_fwd]
    · have hn : buf.len - (sbRemove buf (fwd buf.headSeq x)).2.len = fwd buf.headSeq x := by omega
      rw [Conn.acked, hgeq, hn]
      rfl
  · exact absurd hfar hnear

theorem sending_late {st : TcpState} (h : st.sending) : st.early = false := by
  cases st <;> first | rfl | cases h

theorem based_opened {v w : Conn} (hl : Live v) (ho : Opening v) (hearly : v.state.early)
    (hbuf : w.sndbuf = v.sndbuf) (hiss : w.iss = v.iss) (huna : w.sndUna = v.sndUna + 1) :
    Based cfg w := by
  have hnone : w.sndbuf = none := hbuf.trans (hl.shape.sndbuf hearly)
  refine ⟨fun buf hb => ?_, fun _ => ?_⟩
  · rw [hnone] at hb
    cases hb
  · rw [Conn.sendBase, hnone, huna, ho.una hearly]
    exact congrArg (· + 1) hiss.symm

theorem put_spec {v : Conn} {buf : TcpSendBuffer} {bytes : List UInt8} (h : Based cfg v)
    (hg : Move.guard cfg v (.put buf bytes)) :
    Wf (sbPut buf bytes).2 ∧ (sbPut buf bytes).2.size = cfg.sndbufSize ∧
      (sbPut buf bytes).2.headSeq = v.sendBase ∧
      (sbPut buf bytes).2.len = v.sendLen + bytes.length := by
  obtain ⟨_, hnil, hbuf, hput⟩ := hg
  have hold : Wf buf ∧ buf.size = cfg.sndbufSize ∧ buf.headSeq = v.sendBase ∧
      buf.len = v.sendLen := by
    obtain hbuf | ⟨hbuf, junk, rfl⟩ := hbuf
    · obtain ⟨hw, hs⟩ := h.sound buf hbuf
      exact ⟨hw, hs, (sendBase_some hbuf).symm, (sendLen_some hbuf).symm⟩
    · refine ⟨wf_sbInit _ _ _, rfl, ?_, ?_⟩
      · rw [Conn.sendBase, hbuf]
        rfl
      · rw [Conn.sendLen, hbuf]
        rfl
  obtain ⟨hw, hs, hh, hlen⟩ := hold
  obtain ⟨h1, _, h2, h3, h4, _⟩ := sbPut_spec hw hnil hput
  exact ⟨h1, h3.trans hs, h4.trans hh, by rw [h2, hlen]⟩

theorem Based.apply {v : Conn} {m : Move} (hbare : m ≠ .bareAck)
    (hnear : ∀ buf x fast, m = .ack buf x fast → ¬ Far buf x) (hl : Live v)
    (ho : Opening v) (h : Based cfg v) (hg : m.guard cfg v) (hm : m.calm) :
    Based cfg (m.apply v) := by
  cases m with
  | crash | assertFail | destroy => cases hm
  | bareAck => exact absurd rfl hbare
  | refused => exact based_opened hl ho (state_of hg.1 rfl) rfl rfl rfl
  | synAck seq a => exact based_opened hl ho (state_of hg.2.1 rfl) rfl rfl rfl
  | ackOfSyn => exact based_opened hl ho (state_of hg.2 rfl) rfl rfl rfl
  | shut r | listen seq | loneSyn seq | finAcked | closingAcked | lastAcked =>
    exact ⟨h.sound, fun hs => (by cases hs)⟩
  | reset =>
    refine ⟨h.sound, fun _ => ?_⟩
    obtain hg | hg := hg
    · exact h.una (state_of hg rfl)
    · exact h.una (state_of hg rfl)
  | ack buf x fast =>
    obtain ⟨_, _, _, hw⟩ | ⟨_, _, _, rest, hwf, hs, hh, _, _, hw⟩ :=
      acked_cases fast h hg.1 hg.2.1 (hnear buf x fast rfl)
    · change Based cfg (v.acked buf x fast)
      rw [hw]
      exact ⟨h.sound, h.una⟩
    · change Based cfg (v.acked buf x fast)
      rw [hw]
      refine ⟨fun buf' hb => ?_, fun _ => ?_⟩
      · obtain rfl := Option.some.inj hb
        exact ⟨hwf, hs.trans (h.sound buf hg.1).2⟩
      · rw [sendBase_some rfl]
        exact hh.symm
  | peerFin seq dest =>
    refine ⟨h.sound, fun hs => ?_⟩
    obtain ⟨h', rfl⟩ | ⟨h', rfl⟩ | ⟨_, rfl⟩ | ⟨_, rfl⟩ := hg.2
    · exact h.una (state_of h' rfl)
    · exact h.una (state_of h' rfl)
    · cases hs
    · cases hs
  | retransmit =>
    have hst := Move.apply_state v .retransmit
    obtain ⟨_, hb, _⟩ := retransmitted_frame v
    obtain ⟨hu, hi, _⟩ := retransmitted_una v
    change v.retransmitted.state = v.state at hst
    change Based cfg v.retransmitted
    refine ⟨fun buf hbuf => h.sound buf (hb ▸ hbuf), fun hs => ?_⟩
    rw [Conn.sendBase, hb, hi, hu]
    exact h.una (hst ▸ hs)
  | beginClose =>
    refine ⟨h.sound, fun _ => ?_⟩
    obtain h' | h' := hg.1
    · exact h.una (state_of h' rfl)
    · exact h.una (state_of h' rfl)
  | put buf bytes =>
    obtain ⟨hwf, hs, hh, _⟩ := put_spec h hg
    refine ⟨fun buf' hb => ?_, fun hsend => ?_⟩
    · obtain rfl := Option.some.inj hb
      exact ⟨hwf, hs⟩
    · exact (h.una hsend).trans hh.symm
  | _ => exact ⟨h.sound, h.una⟩

theorem based_started {v : Conn} (h : Started v) : Based cfg v := by
  cases h with
  | active | passive => exact ⟨fun buf hb => (by cases hb), fun hs => by cases hs⟩

end Mtcp
