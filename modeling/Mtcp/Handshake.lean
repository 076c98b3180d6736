import Mtcp.Reachable

namespace Mtcp

open Serial Runs Move

variable {cfg : Config}

/-- No acknowledgement acceptable in SYN_SENT comes without a SYN or a RST. -/
def noBareAck (s : TcpStream) : Action → Bool
  | .rx seg => !(s.state == .synSent && seg.ack && !seg.syn && !seg.rst && !unacceptableAck seg s)
  | _ => true

/-- What a connection is like before its handshake is completed, as long as `snd_una` is
not moved by bare acknowledgements. -/
structure Opening (v : Conn) : Prop where
  una : v.state.early = true → v.sndUna = v.iss
  sent : v.state = .synSent →
    v.sndNxt = v.iss ∨ v.sndNxt = v.iss + 1 ∧ v.control = false ∧ v.connects = 0
  queued : v.state = .synSent → 0 < v.connects →
    v.control = false ∧ v.rto = false ∧ v.sndNxt = v.iss
  once : v.connects ≤ 1

variable {s : TcpStream} {e : Env × Action} {v : Conn} {m : Move}

theorem Opening.of_late (h : v.state.early = false) (honce : v.connects ≤ 1) : Opening v := by
  refine ⟨fun he => ?_, fun hs => ?_, fun hs => ?_, honce⟩
  · rw [h] at he
    cases he
  · rw [hs] at h
    cases h
  · rw [hs] at h
    cases h

theorem Opening.acceptable (h : Opening v) (hst : v.state = .synSent) {a : UInt32}
    (ha : Move.Acceptable v a) : a = v.iss + 1 ∧ v.sndNxt = v.iss + 1 := by
  obtain ⟨h1, h2⟩ := ha
  rw [not_leq_iff] at h1
  rw [not_gt_iff] at h2
  obtain hn | ⟨hn, _⟩ := h.sent hst
  · rw [hn] at h2
    omega
  · rw [hn] at h2
    have htrans := fwd_trans v.iss (v.iss + 1) a
    have hlt := fwd_lt (v.iss + 1) a
    rw [fwd_add_one, fwd_self] at htrans
    refine ⟨eq_of_fwd_eq_zero ?_, hn⟩
    omega

theorem noBareAck_move (hc : noBareAck s e.2) (hcause : Cause cfg s e v .bareAck) : False := by
  obtain ⟨seg, he, hst, h1, h2, h3, h4⟩ := hcause
  rw [he] at hc
  simp [noBareAck, hst, h1, h2, h3, h4] at hc

theorem late_apply (hearly : v.state.early = false) (hg : m.guard cfg v) (hm : m.calm) :
    (m.apply v).state.early = false := by
  rw [apply_state]
  cases m with
  | crash w => cases hm
  | listen seq => rw [show v.state = .listen from hg] at hearly; cases hearly
  | loneSyn seq => rw [show v.state = .synSent from hg] at hearly; cases hearly
  | peerFin seq dest => obtain ⟨_, rfl⟩ | ⟨_, rfl⟩ | ⟨_, rfl⟩ | ⟨_, rfl⟩ := hg.2 <;> rfl
  | beginClose =>
    change (if v.state = .established then TcpState.finWait1 else .lastAck).early = false
    split <;> rfl
  | shut r | reset | refused | synAck seq a | ackOfSyn | finAcked | closingAcked | lastAcked => rfl
  | _ => exact hearly

theorem early_cases (h : v.Shape) (hearly : v.state.early) (hg : m.guard cfg v)
    (hm : m.calm) : (m.dest v).early = false ∨
    m ∈ [.control, .uncontrol, .unwait, .expire, .bareAck, .restart, .retransmit, .connect,
      .unqueue, .closeMark] ∨ (∃ r, m = .blame r) ∨ (∃ seq, m = .listen seq) ∨
      (∃ seq, m = .loneSyn seq) ∨ (∃ seg, m = .emitSyn seg) ∨ ∃ buf n, m = .hand buf n := by
  have hno : ∀ st, v.state = st → st.early = false → False := by
    rintro st rfl h'
    rw [h'] at hearly
    cases hearly
  have hbuf : v.sndbuf.isSome → False := by
    intro hb
    rw [h.sndbuf hearly] at hb
    cases hb
  cases m with
  | crash | assertFail | destroy => cases hm
  | control | uncontrol | unwait | expire | bareAck | restart | retransmit | connect | unqueue |
      closeMark => simp
  | blame r => exact .inr (.inr (.inl ⟨r, rfl⟩))
  | listen seq => exact .inr (.inr (.inr (.inl ⟨seq, rfl⟩)))
  | loneSyn seq => exact .inr (.inr (.inr (.inr (.inl ⟨seq, rfl⟩))))
  | emitSyn seg => exact .inr (.inr (.inr (.inr (.inr (.inl ⟨seg, rfl⟩)))))
  | hand buf n => exact .inr (.inr (.inr (.inr (.inr (.inr ⟨buf, n, rfl⟩)))))
  | shut r | reset | refused | synAck seq a | ackOfSyn | finAcked | closingAcked | lastAcked =>
    exact .inl rfl
  | wait =>
    rw [show v.state.early = false from hg] at hearly
    cases hearly
  | postpone =>
    rw [show v.state.early = false from hg.1] at hearly
    cases hearly
  | timewait keep | jump x => exact (hno _ hg rfl).elim
  | receive frag buf seg => obtain h' | h' | h' := hg.1 <;> exact (hno _ h' rfl).elim
  | ack buf x fast => exact (hbuf (by rw [hg.1]; rfl)).elim
  | peerFin seq dest =>
    obtain ⟨h', _⟩ | ⟨h', _⟩ | ⟨h', _⟩ | ⟨h', _⟩ := hg.2 <;> exact (hno _ h' rfl).elim
  | takeSendq => exact (hbuf hg.2).elim
  | takeClose =>
    have h1 := (h.closing hearly).1
    change 0 < v.closes at hg
    omega
  | takeCloseInt =>
    have h1 := (h.closing hearly).2.1
    change 0 < v.closesInt at hg
    omega
  | beginClose | put | closeCall => obtain h' | h' := hg.1 <;> exact (hno _ h' rfl).elim
  | emitAck seg => exact (hno _ rfl (not_early_of_le hg.2.2.2.2)).elim
  | emitFin seg =>
    obtain ⟨h' | h', _⟩ | ⟨h', _⟩ := hg.2.2.2.2.2.2.2 <;> exact (hno _ h' rfl).elim
  | emitRst seg => exact (hno _ hg.2.2.2.2.2.2.2 rfl).elim
  | emitData buf seg => exact (hno _ rfl (not_early_of_flushes hg.1)).elim

theorem opening_apply (hc : noBareAck s e.2) (hl : Live v) (h : Opening v)
    (hg : m.guard cfg v) (hm : m.calm) (hcause : Cause cfg s e v m) : Opening (m.apply v) := by
  have honce : (m.apply v).connects ≤ 1 := (apply_connects hm).trans h.once
  cases hearly : v.state.early with
  | false => exact .of_late (late_apply hearly hg hm) honce
  | true =>
    have huna := h.una hearly
    obtain hlate | hm' | ⟨r, rfl⟩ | ⟨seq, rfl⟩ | ⟨seq, rfl⟩ | ⟨seg, rfl⟩ | ⟨buf, n, rfl⟩ :=
      early_cases hl.shape hearly hg hm
    · exact .of_late (apply_state v m ▸ hlate) honce
    · simp only [List.mem_cons, List.not_mem_nil, or_false] at hm'
      obtain rfl | rfl | rfl | rfl | rfl | rfl | rfl | rfl | rfl | rfl := hm'
      · exact ⟨fun _ => huna, fun hs => absurd hs hg, fun hs => absurd hs hg, honce⟩
      · refine ⟨fun _ => huna, fun hs => ?_, fun hs hpos => ?_, honce⟩
        · obtain hn | ⟨hn, _, hq⟩ := h.sent hs
          · exact .inl hn
          · exact .inr ⟨hn, rfl, hq⟩
        · exact ⟨rfl, (h.queued hs hpos).2⟩
      · exact ⟨h.una, h.sent, h.queued, honce⟩
      · exact ⟨h.una, h.sent, fun hs hpos =>
          ⟨(h.queued hs hpos).1, rfl, (h.queued hs hpos).2.2⟩, honce⟩
      · exact (noBareAck_move hc hcause).elim
      · have hsr : v.state ≠ .synSent := by
          rw [show v.state = .synRcvd from hg]
          decide
        exact ⟨fun _ => huna, fun hs => absurd hs hsr, fun hs => absurd hs hsr, honce⟩
      · change Opening v.retransmitted
        rw [retransmitted_early hearly]
        refine ⟨fun _ => huna, fun _ => .inl huna, fun hs hpos => ?_, h.once⟩
        exact absurd (hg.1.symm.trans (h.queued hs hpos).2.1) (by decide)
      · refine ⟨fun _ => huna, fun hs => .inl (h.queued hs hg).2.2, fun hs hpos => ?_, honce⟩
        have h1 := h.once
        change 0 < v.connects - 1 at hpos
        omega
      · exact ⟨h.una, h.sent, h.queued, honce⟩
      · exact ⟨h.una, h.sent, h.queued, honce⟩
    · exact ⟨h.una, h.sent, h.queued, honce⟩
    · exact ⟨fun _ => huna, fun hs => (by cases hs), fun hs => (by cases hs), honce⟩
    · exact ⟨fun _ => huna, fun hs => (by cases hs), fun hs => (by cases hs), honce⟩
    · obtain ⟨hctl, hsyn, _, _, hpay, _⟩ := hg
      have hidle : v.state = .synSent → v.connects = 0 := by
        intro hs
        by_contra hne
        have hq := (h.queued hs (Nat.pos_of_ne_zero hne)).1
        rw [hctl] at hq
        cases hq
      refine ⟨fun _ => huna, fun hs => .inr ⟨?_, rfl, hidle hs⟩, fun hs hpos => ?_, honce⟩
      · have hn : v.sndNxt = v.iss := by
          obtain hn | ⟨_, hno, _⟩ := h.sent hs
          · exact hn
          · rw [hctl] at hno
            cases hno
        change v.sndNxt + UInt32.ofNat seg.payload.length +
          (if seg.syn || seg.fin then 1 else 0) = _
        rw [hpay, hsyn, hn]
        exact congrArg (· + 1) (UInt32.add_zero v.iss)
      · have h0 := hidle hs
        change 0 < v.connects at hpos
        omega
    · exact ⟨h.una, h.sent, h.queued, honce⟩

theorem opening_started (h : Started v) : Opening v := by
  cases h with
  | active iss connects h =>
    exact ⟨fun _ => rfl, fun _ => .inl rfl, fun _ _ => ⟨rfl, rfl, rfl⟩, h⟩
  | passive iss seq =>
    exact ⟨fun _ => rfl, fun hs => (by cases hs), fun hs => (by cases hs), Nat.zero_le _⟩

/-! The sequence numbers at the moment of ESTABLISHED. -/

def lastPeerSyn : List Effect → Option UInt32
  | [] => none
  | .peerSyn seq :: _ => some seq
  | _ :: older => lastPeerSyn older

/-- What a handshake should leave behind. -/
def Snapshot.consistent (snap : Snapshot) (older : List Effect) : Bool :=
  snap.sndUna == snap.iss + 1 && snap.sndNxt == snap.iss + 1 &&
    lastPeerSyn older == some snap.irs && snap.rcvNxt == snap.irs + 1

def consistentHandshakes : List Effect → Bool
  | [] => true
  | .establish snap :: older => snap.consistent older && consistentHandshakes older
  | _ :: older => consistentHandshakes older

theorem lastPeerSyn_kept (log : List Effect) :
    lastPeerSyn (log.filter Effect.kept) = lastPeerSyn log := by
  induction log with
  | nil => rfl
  | cons x log ih => cases x <;> first | rfl | exact ih

theorem consistentHandshakes_kept (log : List Effect) :
    consistentHandshakes (log.filter Effect.kept) = consistentHandshakes log := by
  induction log with
  | nil => rfl
  | cons x log ih =>
    cases x with
    | establish snap =>
      change (snap.consistent (log.filter Effect.kept) && consistentHandshakes (log.filter _)) = _
      rw [ih, Snapshot.consistent, lastPeerSyn_kept]
      rfl
    | _ => exact ih

/-- A SYN without ACK that reaches SYN_SENT carries the `irs` such a stream has. -/
def loneSynKnown (s : TcpStream) : Action → Bool
  | .rx seg => !(s.state == .synSent && seg.syn && !seg.ack && !seg.rst) || seg.seq == 0
  | _ => true

def orderlyOpening (s : TcpStream) (a : Action) : Bool := noBareAck s a && loneSynKnown s a

/-- The invariant behind: `irs` is the sequence number of the peer's SYN. -/
structure Synchronised (v : Conn) : Prop where
  opening : Opening v
  begun : v.state ≠ .listen
  untouched : v.state = .synSent → v.irs = 0
  learnt : v.state = .synRcvd → lastPeerSyn v.log = some v.irs

theorem loneSyn_seq {seq : UInt32} (hc : loneSynKnown s e.2)
    (hcause : Cause cfg s e v (.loneSyn seq)) : seq = 0 := by
  obtain ⟨seg, he, hst, h1, h2, h3, rfl⟩ := hcause
  rw [he] at hc
  simpa [loneSynKnown, hst, h1, h2, h3] using hc

theorem Synchronised.apply (hc : orderlyOpening s e.2) (hl : Live v) (h : Synchronised v)
    (hg : m.guard cfg v) (hm : m.calm) (hcause : Cause cfg s e v m) : Synchronised (m.apply v) := by
  simp only [orderlyOpening, Bool.and_eq_true] at hc
  have hopen := opening_apply hc.1 hl h.opening hg hm hcause
  have hst := apply_state v m
  cases hearly : v.state.early with
  | false =>
    have hlate := late_apply hearly hg hm
    refine ⟨hopen, fun h' => ?_, fun h' => ?_, fun h' => ?_⟩ <;> rw [h'] at hlate <;> cases hlate
  | true =>
    obtain hlate | hm' | ⟨r, rfl⟩ | ⟨seq, rfl⟩ | ⟨seq, rfl⟩ | ⟨seg, rfl⟩ | ⟨buf, n, rfl⟩ :=
      early_cases hl.shape hearly hg hm
    · rw [← hst] at hlate
      refine ⟨hopen, fun h' => ?_, fun h' => ?_, fun h' => ?_⟩ <;> rw [h'] at hlate <;> cases hlate
    · -- these moves touch neither the state nor `irs` nor the log
      have hsame : (m.apply v).state = v.state ∧ (m.apply v).irs = v.irs ∧
          (m.apply v).log = v.log := by
        rw [hst, apply_log (.inl hm)]
        simp only [List.mem_cons, List.not_mem_nil, or_false] at hm'
        obtain rfl | rfl | rfl | rfl | rfl | rfl | rfl | rfl | rfl | rfl := hm' <;>
          exact ⟨rfl, apply_irs rfl (fun _ _ => by simp), rfl⟩
      obtain ⟨h1, h2, h3⟩ := hsame
      refine ⟨hopen, by rw [h1]; exact h.begun, ?_, ?_⟩
      · rw [h1, h2]
        exact h.untouched
      · rw [h1, h2, h3]
        exact h.learnt
    · exact ⟨hopen, h.begun, h.untouched, h.learnt⟩
    · exact absurd hg h.begun
    · refine ⟨hopen, fun h' => (by cases h'), fun h' => (by cases h'), fun _ => ?_⟩
      change some seq = some v.irs
      rw [loneSyn_seq hc.2 hcause, h.untouched hg]
    · exact ⟨hopen, h.begun, h.untouched, h.learnt⟩
    · exact ⟨hopen, h.begun, h.untouched, h.learnt⟩

/-- Only the two moves that complete a handshake have to be looked at in the log. -/
theorem consistent_apply (h : v.alive → Synchronised v)
    (hlog : consistentHandshakes v.log) (hg : m.guard cfg v)
    (hm : m.calm ∨ m = .destroy) : consistentHandshakes (m.apply v).log := by
  rw [apply_log hm]
  cases m with
  | synAck seq a =>
    obtain ⟨hal, hst, hacc⟩ := hg
    have hs := h hal
    have ha := (hs.opening.acceptable hst hacc).1
    have huna := hs.opening.una (by rw [hst]; rfl)
    change (Snapshot.consistent ⟨v.sndUna + 1, a, v.iss, seq, seq + 1⟩ (.peerSyn seq :: v.log) &&
      consistentHandshakes v.log)
    rw [hlog, huna, ha]
    simp [Snapshot.consistent, lastPeerSyn]
  | ackOfSyn =>
    obtain ⟨hal, hst⟩ := hg
    have hs := h hal
    have huna := hs.opening.una (by rw [hst]; rfl)
    change (Snapshot.consistent ⟨v.sndUna + 1, v.iss + 1, v.iss, v.irs, v.irs + 1⟩ v.log &&
      consistentHandshakes v.log)
    rw [hlog, huna]
    simp [Snapshot.consistent, hs.learnt hst]
  | ack buf x fast =>
    change consistentHandshakes ((if geq buf.headSeq x then [] else [_]) ++ v.log)
    split <;> exact hlog
  | _ => exact hlog

theorem synchronised_started (h : Started v) : Synchronised v := by
  have hopen := opening_started h
  cases h with
  | active iss connects h =>
    exact ⟨hopen, fun h' => (by cases h'), fun _ => rfl, fun h' => by cases h'⟩
  | passive iss seq =>
    exact ⟨hopen, fun h' => (by cases h'), fun h' => (by cases h'), fun _ => rfl⟩

/-- A handshake in which no bare ACK is accepted in SYN_SENT, and no SYN without ACK with a
sequence number of its own, leaves consistent sequence numbers behind. -/
theorem handshake_consistent (s : TcpStream) (es : List (Env × Action)) (hs : Opened cfg s)
    (ha : Along (step cfg) (fun s e => orderlyOpening s e.2 = true) s es)
    (hf : (run cfg s es).fault = none) :
    consistentHandshakes (run cfg s es).trace = true := by
  have hmove : ∀ (s : TcpStream) (e : Env × Action) (v : Conn) (m : Move),
      orderlyOpening s e.2 = true → Running v →
      (v.alive = true → Synchronised v) ∧ consistentHandshakes v.log = true → m.guard cfg v →
      m.calm = true ∨ m = .destroy → Cause cfg s e v m →
      ((Move.apply v m).alive = true → Synchronised (Move.apply v m)) ∧
        consistentHandshakes (Move.apply v m).log = true := by
    intro s e v m hc hr h hg hm hcause
    refine ⟨fun hal => ?_, consistent_apply h.1 h.2 hg hm⟩
    obtain hcalm | rfl := hm
    · have hal' : v.alive = true := (Move.apply_alive hcalm).symm.trans hal
      exact (h.1 hal').apply hc ⟨hr, hal'⟩ hg hcalm hcause
    · cases hal
  have hstart : ∀ v, Started v →
      (v.alive = true → Synchronised v) ∧ consistentHandshakes v.log = true := by
    intro v hv
    refine ⟨fun _ => synchronised_started hv, ?_⟩
    cases hv <;> rfl
  obtain ⟨_, _, hlog⟩ := run_running hmove hstart hs ha hf
  rw [← consistentHandshakes_kept]
  exact hlog

theorem handshake_consistent_client :
    consistentHandshakes (run .small client (atRest clientHandshake)).trace = true ∧
      (run .small client (atRest clientHandshake)).state = .established :=
  ⟨handshake_consistent _ _ client_opened (by decide) (by decide), by decide⟩

/-- After a bare ACK of its SYN, the SYN/ACK moves `snd_una` a second time. -/
theorem bare_ack_breaks_handshake :
    consistentHandshakes (run .small client (atRest [.dequeue .connectq, .controlPass 1,
      .rx { seq := 500, ackSeq := 101, window := 1000, ack := true },
      .rx { seq := 500, ackSeq := 101, window := 1000, syn := true, ack := true,
            opts := [2, 4, 5, 180] }])).trace = false := by
  decide

end Mtcp
