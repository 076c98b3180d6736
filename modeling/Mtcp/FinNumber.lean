import Mtcp.Closing

namespace Mtcp

open Serial SendBuffer Bytes Runs UInt32

variable {cfg : Config}

/-! The FIN and the sequence number it takes. -/

def Segment.endSeq (seg : Segment) : UInt32 :=
  seg.seq + seg.payloadlen + (if seg.fin then 1 else 0)

def hasFin : List Effect → Bool
  | [] => false
  | .emit seg :: older => seg.fin || hasFin older
  | _ :: older => hasFin older

/-- From its first FIN on, no segment of the log reaches beyond `bound`. -/
def endsBy (bound : UInt32) : List Effect → Bool
  | [] => true
  | .emit seg :: older =>
    (!(seg.fin || hasFin older) || leq seg.endSeq bound) && endsBy bound older
  | _ :: older => endsBy bound older

theorem hasFin_kept (log : List Effect) : hasFin (log.filter Effect.kept) = hasFin log := by
  induction log with
  | nil => rfl
  | cons e log ih =>
    cases e with
    | emit seg => exact congrArg (seg.fin || ·) ih
    | _ => exact ih

theorem endsBy_kept (bound : UInt32) (log : List Effect) :
    endsBy bound (log.filter Effect.kept) = endsBy bound log := by
  induction log with
  | nil => rfl
  | cons e log ih =>
    cases e with
    | emit seg =>
      change ((!(seg.fin || hasFin (log.filter Effect.kept)) || leq seg.endSeq bound) &&
        endsBy bound (log.filter Effect.kept)) = _
      rw [ih, hasFin_kept]
      rfl
    | _ => exact ih

theorem endsBy_of_not_hasFin (bound : UInt32) {log : List Effect} (h : hasFin log = false) :
    endsBy bound log := by
  induction log with
  | nil => rfl
  | cons e log ih =>
    cases e with
    | emit seg =>
      obtain ⟨h1, h2⟩ := Bool.or_eq_false_iff.mp h
      rw [endsBy, h1, h2, ih h2]
      rfl
    | _ => exact ih h

/-- Once the FIN is out, or with nothing buffered, an acknowledgement not beyond the send buffer is
less than half the sequence space behind its end. -/
def halfAck (s : TcpStream) (seg : Segment) : Bool :=
  match s.sndvar.sndbuf with
  | none => true
  | some buf =>
    !(buf.len == 0 || s.sndvar.isFinSent) ||
      gt (effectiveAck seg s) (buf.headSeq + UInt32.ofNat buf.len) ||
      decide (fwd (effectiveAck seg s) (buf.headSeq + UInt32.ofNat buf.len) < 2147483647)

def finDue (s : TcpStream) : Bool :=
  match s.state with
  | .finWait1 | .lastAck => !s.sndvar.onSendList && !s.sndvar.onAckList
  | .closing => !s.sndvar.isFinSent
  | _ => false

/-- A control pass that sends a FIN finds `snd_nxt` at or below it. -/
def finInPlace (s : TcpStream) : Action → Bool
  | .controlPass _ => !finDue s || geq s.sndvar.fss s.sndNxt
  | _ => true

def finKept (cfg : Config) (s : TcpStream) (e : Env × Action) : Bool :=
  noBareAck s e.2 && onAccepted halfAck cfg s e && onAccepted synAtStart cfg s e &&
    noLateWrite s e.2 && finInPlace s e.2

variable {s : TcpStream} {e : Env × Action} {v : Conn}

theorem finKept_iff : finKept cfg s e ↔ noBareAck s e.2 ∧ onAccepted halfAck cfg s e ∧
      onAccepted synAtStart cfg s e ∧ noLateWrite s e.2 ∧ finInPlace s e.2 := by
  simp only [finKept, Bool.and_eq_true, and_assoc]

theorem halfAck_move {buf : TcpSendBuffer} {x : UInt32} {fast : Bool}
    (hc : onAccepted halfAck cfg s e) (hg : Move.guard cfg v (.ack buf x fast))
    (hcause : Cause cfg s e v (.ack buf x fast)) (hv : buf.len = 0 ∨ v.finSent) :
    fwd x (buf.headSeq + ofNat buf.len) < 2147483647 := by
  obtain ⟨seg, he, hr, rfl, hval, _, _, hsame, _⟩ := hcause
  have hs : s.sndvar.sndbuf = some buf := hsame.sndbuf.symm.trans hg.1
  have hfin : v.finSent = s.sndvar.isFinSent := hsame.finSent
  have h := onAccepted_rx hc he hr hval
  have hor : (buf.len == 0 || s.sndvar.isFinSent) := by
    rw [← hfin]
    obtain hv | hv := hv <;> simp [hv]
  unfold halfAck at h
  rw [hs] at h
  dsimp only at h
  rw [hor, hg.2.1] at h
  simpa using h

theorem halfAck_not_far {buf : TcpSendBuffer} {x : UInt32} {fast : Bool}
    (hc : onAccepted halfAck cfg s e) (hg : Move.guard cfg v (.ack buf x fast))
    (hcause : Cause cfg s e v (.ack buf x fast)) : ¬ Far buf x := by
  rintro ⟨h1, h2⟩
  have h := halfAck_move hc hg hcause (.inl h2)
  have htrans := fwd_trans buf.headSeq x buf.headSeq
  have hlt := fwd_lt x buf.headSeq
  rw [fwd_add_ofNat, h2] at h
  rw [fwd_self] at htrans
  omega

structure Bounded (v : Conn) : Prop where
  fin : hasFin v.log = true → v.finSent = true
  next : v.finSent = true → fwd v.sndNxt (v.fss + 1) < 2147483648
  ends : v.finSent = true → endsBy (v.fss + 1) v.log = true

theorem Bounded.of_unsent (hf : v.finSent = false) (hlog : hasFin v.log = false) : Bounded v := by
  refine ⟨fun h => ?_, fun h => ?_, fun h => ?_⟩
  · rw [hlog] at h
    cases h
  · rw [hf] at h
    cases h
  · rw [hf] at h
    cases h

theorem Bounded.not_hasFin (h : Bounded v) (hf : v.finSent = false) : hasFin v.log = false := by
  cases hlog : hasFin v.log with
  | false => rfl
  | true => exact absurd (h.fin hlog) (by rw [hf]; decide)

theorem Bounded.moved {v w : Conn} (h : Bounded v) (hf : w.finSent = v.finSent)
    (hfss : w.fss = v.fss) (hlog : hasFin w.log = hasFin v.log)
    (hends : endsBy (v.fss + 1) w.log = endsBy (v.fss + 1) v.log)
    (hn : v.finSent → fwd w.sndNxt (v.fss + 1) < 2147483648) : Bounded w := by
  refine ⟨?_, ?_, ?_⟩
  · rw [hf, hlog]
    exact h.fin
  · rw [hf, hfss]
    exact hn
  · rw [hf, hfss, hends]
    exact h.ends

theorem Bounded.emitted {seg : Segment} (h : Bounded v) (hsyn : seg.syn = false)
    (hfin : seg.fin = false)
    (hn : v.finSent → fwd (v.sndNxt + ofNat seg.payload.length) (v.fss + 1) < 2147483648)
    (hend : v.finSent → leq seg.endSeq (v.fss + 1)) : Bounded (v.emitted seg) := by
  have hsent := emitted_finSent v hfin
  refine ⟨fun hlog => ?_, fun hf => ?_, fun hf => ?_⟩
  · rw [hsent]
    refine h.fin ?_
    change (seg.fin || hasFin v.log) at hlog
    simpa [hfin] using hlog
  · rw [hsent] at hf
    change fwd (v.sndNxt + ofNat seg.payload.length +
      (if seg.syn || seg.fin then 1 else 0)) (v.fss + 1) < _
    simpa [hsyn, hfin] using hn hf
  · rw [hsent] at hf
    change ((!(seg.fin || hasFin v.log) || leq seg.endSeq (v.fss + 1)) && endsBy (v.fss + 1) v.log)
    rw [hend hf, h.ends hf, Bool.or_true]
    rfl

structure FinKept (cfg : Config) (v : Conn) : Prop where
  opening : Opening v
  based : Based cfg v
  finishing : Finishing v
  bounded : Bounded v

theorem Based.bufEnd_fwd (h : Based cfg v) (hs : v.state.sending) :
    fwd v.sndUna v.bufEnd = v.sendLen := by
  have hlen := h.len_lt
  rw [h.una hs, Conn.bufEnd, fwd_add_ofNat, fwd_self]
  omega

theorem acked_sndNxt (v : Conn) (buf : TcpSendBuffer) (x : UInt32) (fast : Bool) :
    (v.acked buf x fast).sndNxt = v.sndNxt ∨ (v.acked buf x fast).sndNxt = x := by
  have hn : (v.acked buf x fast).sndNxt = v.ackedNxt x fast := by
    unfold Conn.acked
    split <;> rfl
  rw [hn, Conn.ackedNxt]
  split_ifs
  · exact .inr rfl
  · exact .inr rfl
  · exact .inl rfl

theorem acked_log (v : Conn) (buf : TcpSendBuffer) (x : UInt32) (fast : Bool) :
    (v.acked buf x fast).log = v.log ∨ ∃ n, (v.acked buf x fast).log = .release n :: v.log := by
  unfold Conn.acked
  split
  · exact .inl rfl
  · exact .inr ⟨_, rfl⟩

theorem finInPlace_move {seg : Segment} (hc : finInPlace s e.2)
    (hg : Move.guard cfg v (.emitFin seg)) (hcause : Cause cfg s e v (.emitFin seg)) :
    fwd v.sndNxt v.fss < 2147483648 := by
  obtain ⟨⟨room, he⟩, hst, hsame, hlist, -⟩ := hcause
  have hsent : v.finSent = s.sndvar.isFinSent := hsame.finSent
  have hlists : v.sendList = s.sndvar.onSendList := hsame.sendList
  have hfss : v.fss = s.sndvar.fss := hsame.fss
  have hnxt : v.sndNxt = s.sndNxt := hsame.sndNxt
  have hplace : finDue s → fwd v.sndNxt v.fss < 2147483648 := by
    intro hdue
    rw [he] at hc
    rw [hfss, hnxt, ← geq_iff]
    simpa [finInPlace, hdue] using hc
  obtain ⟨hs, hq⟩ | ⟨hs, hq⟩ := hg.2.2.2.2.2.2.2
  · refine hplace ?_
    rw [hst] at hs
    rw [hlists] at hq
    obtain hs | hs := hs
    · have hack : s.sndvar.onAckList = false := by simpa [hs] using hlist
      simp [finDue, hs, hq, hack]
    · have hack : s.sndvar.onAckList = false := by simpa [hs] using hlist
      simp [finDue, hs, hq, hack]
  · obtain hq | hq := hq
    · rw [hst] at hs
      rw [hsent] at hq
      refine hplace ?_
      simp [finDue, hs, hq]
    · rw [hq, fwd_self]
      decide

theorem Bounded.apply {m : Move} (hsize : cfg.sndbufSize < 2147483647) (hc : finKept cfg s e)
    (hb : Based cfg v) (hfi : Finishing v) (h : Bounded v) (hg : m.guard cfg v) (hm : m.calm)
    (hcause : Cause cfg s e v m) : Bounded (m.apply v) := by
  obtain ⟨_, hhalf, _, _, hplace⟩ := finKept_iff.mp hc
  have hlen : v.sendLen < 2147483647 := by
    unfold Conn.sendLen
    cases hbuf : v.sndbuf with
    | none => simp
    | some buf =>
      obtain ⟨hw, hs⟩ := hb.sound buf hbuf
      have hle := hw.len_le
      dsimp only
      omega
  have hno : ∀ st, v.state = st → st.early ∨ st.flows → v.finSent = false := by
    rintro st rfl hs
    exact hfi.finSent_eq hs
  have hunsent : ∀ w, v.finSent = false → w.finSent = v.finSent →
      hasFin w.log = hasFin v.log → Bounded w := by
    intro w h1 h2 h3
    exact .of_unsent (h2.trans h1) (h3.trans (h.not_hasFin h1))
  cases m with
  | crash | assertFail | destroy => cases hm
  | listen | loneSyn | restart => exact hunsent _ (hno _ hg (.inl rfl)) rfl rfl
  | synAck seq a => exact hunsent _ (hno _ hg.2.1 (.inl rfl)) rfl rfl
  | ackOfSyn => exact hunsent _ (hno _ hg.2 (.inl rfl)) rfl rfl
  | jump x => exact hunsent _ (hno _ hg (.inr rfl)) rfl rfl
  | ack buf x fast =>
    obtain ⟨hfin, hfss⟩ := acked_close v buf x fast
    have hlog := acked_log v buf x fast
    change Bounded (v.acked buf x fast)
    refine h.moved hfin hfss ?_ ?_ fun hf => ?_
    · obtain hlog | ⟨n, hlog⟩ := hlog
      · rw [hlog]
      · rw [hlog]
        rfl
    · obtain hlog | ⟨n, hlog⟩ := hlog
      · rw [hlog]
      · rw [hlog]
        rfl
    · obtain hn | hn := acked_sndNxt v buf x fast
      · rw [hn]
        exact h.next hf
      · have hx := halfAck_move hhalf hg hcause (.inr hf)
        have hend := hfi.fixed (.inr (.inr hf))
        rw [Conn.bufEnd, sendBase_some hg.1, sendLen_some hg.1] at hend
        rw [hn, fwd_add_one, hend]
        omega
  | finAcked =>
    refine h.moved rfl rfl rfl rfl fun hf => ?_
    change fwd (if gt (v.fss + 1) v.sndNxt then v.fss + 1 else v.sndNxt) (v.fss + 1) < _
    split
    · rw [fwd_self]
      decide
    · exact h.next hf
  | closingAcked =>
    refine h.moved rfl rfl rfl rfl fun hf => ?_
    change fwd (v.fss + 1) (v.fss + 1) < _
    rw [fwd_self]
    decide
  | retransmit =>
    obtain ⟨_, _, hfin, _⟩ := retransmitted_frame v
    obtain ⟨_, _, hn⟩ := retransmitted_una v
    have hlog : v.retransmitted.log = v.log := Move.apply_log (.inl hm)
    change Bounded v.retransmitted
    refine h.moved hfin (congrArg Conn.fss v.retransmitted_eq :) (by rw [hlog]) (by rw [hlog])
      fun hf => ?_
    have hsend : v.state.sending := by
      obtain hs | hs | ⟨hs, _⟩ | ⟨hs, _⟩ := hg.2.2
      · exact absurd (hno _ hs (.inl rfl)) (by rw [hf]; decide)
      · exact absurd (hno _ hs (.inl rfl)) (by rw [hf]; decide)
      · obtain hs | hs := hs <;> rw [hs] <;> rfl
      · obtain hs | hs | hs := hs <;> rw [hs] <;> rfl
    rw [hn, hfi.fixed (.inr (.inr hf)), fwd_add_one, hb.bufEnd_fwd hsend]
    omega
  | takeClose =>
    have hf : v.finSent = false := by
      cases hf : v.finSent with
      | false => rfl
      | true =>
        have h0 := hfi.taken (.inr hf)
        change 0 < v.closes at hg
        omega
    exact hunsent _ hf rfl rfl
  | put buf bytes =>
    have hf : v.finSent = false := hfi.finSent_eq (.inr (flows_iff.mpr hg.1))
    exact hunsent _ hf rfl rfl
  | emitSyn seg =>
    have hf : v.finSent = false := by
      obtain ⟨hs, _⟩ | ⟨hs, _⟩ := hg.2.2.2.2.2.2
      · exact hno _ hs (.inl rfl)
      · exact hno _ hs (.inl rfl)
    refine hunsent _ hf (emitted_finSent v hg.2.2.1) ?_
    change (seg.fin || hasFin v.log) = _
    rw [hg.2.2.1, Bool.false_or]
  | emitAck seg =>
    obtain ⟨hp, hpay, _, hseq, _⟩ := hg
    have hend : seg.endSeq = seg.seq := by
      simp [Segment.endSeq, Segment.payloadlen, hpay, hp.2.1]
    refine h.emitted hp.1 hp.2.1 (fun hf => ?_) fun hf => ?_
    · have hn := h.next hf
      simpa [hpay] using hn
    · have hn := h.next hf
      rw [hend]
      obtain hseq | hseq := hseq
      · rw [hseq]
        exact leq_of_fwd_lt hn
      · rw [hseq, leq_iff]
        have h1 := fwd_trans (v.fss + 1) v.sndNxt (v.fss + 1)
        have h2 := fwd_lt (v.fss + 1) v.sndNxt
        rw [fwd_self] at h1
        -- a window probe goes out one below `snd_nxt`
        have h3 : fwd (v.fss + 1) v.sndNxt = (fwd (v.fss + 1) (v.sndNxt - 1) + 1) % 4294967296 := by
          rw [← fwd_add_one, UInt32.sub_add_cancel]
        have h4 := fwd_lt (v.fss + 1) (v.sndNxt - 1)
        omega
  | emitRst seg =>
    obtain ⟨hsyn, hfin, _, _, hpay, _, hseq, _⟩ := hg
    refine h.emitted hsyn hfin (fun hf => ?_) fun hf => ?_
    · have hn := h.next hf
      simpa [hpay] using hn
    · have hn := h.next hf
      have hend : seg.endSeq = v.sndNxt := by
        simp [Segment.endSeq, Segment.payloadlen, hpay, hfin, hseq]
      rw [hend]
      exact leq_of_fwd_lt hn
  | emitData buf seg =>
    have halign := emitData_aligned hb hg
    obtain ⟨_, _, hbuf, _, _, hp, _, hseq, _⟩ := hg
    have hnxt : (v.emitted seg).sndNxt = v.sndNxt + ofNat seg.payload.length := by
      change v.sndNxt + ofNat seg.payload.length + (if seg.syn || seg.fin then 1 else 0) = _
      rw [hp.1, hp.2.1]
      simp
    rw [hnxt] at halign
    have hn : v.finSent → fwd (v.sndNxt + ofNat seg.payload.length) (v.fss + 1) < 2147483648 := by
      intro hf
      have hend := hfi.fixed (.inr (.inr hf))
      have h1 := fwd_trans v.sendBase (v.sndNxt + ofNat seg.payload.length) v.fss
      have h2 := fwd_lt (v.sndNxt + ofNat seg.payload.length) v.fss
      have h3 : fwd v.sendBase v.fss = v.sendLen := by
        rw [hend, Conn.bufEnd, fwd_add_ofNat, fwd_self]
        omega
      rw [fwd_add_one]
      omega
    refine h.emitted hp.1 hp.2.1 hn fun hf => ?_
    have hend : seg.endSeq = v.sndNxt + ofNat seg.payload.length := by
      simp [Segment.endSeq, Segment.payloadlen, hp.2.1, hseq]
    rw [hend]
    exact leq_of_fwd_lt (hn hf)
  | emitFin seg =>
    have hn := finInPlace_move hplace hg hcause
    obtain ⟨hsyn, hfin, _, _, hpay, _, hseq, _⟩ := hg
    have hend : seg.endSeq = v.fss + 1 := by
      simp [Segment.endSeq, Segment.payloadlen, hpay, hfin, hseq]
    refine ⟨fun _ => ?_, fun _ => ?_, fun _ => ?_⟩
    · change (v.finSent || seg.fin)
      rw [hfin, Bool.or_true]
    · change fwd (v.sndNxt + ofNat seg.payload.length +
        (if seg.syn || seg.fin then 1 else 0)) (v.fss + 1) < _
      rw [hpay, hfin, hsyn]
      simpa [fwd_succ_succ] using hn
    · change ((!(seg.fin || hasFin v.log) || leq seg.endSeq (v.fss + 1)) &&
        endsBy (v.fss + 1) v.log)
      have hle : leq (v.fss + 1) (v.fss + 1) := leq_of_fwd_lt (by simp)
      rw [hend, hle, Bool.or_true, Bool.true_and]
      cases hf : v.finSent with
      | true => exact h.ends hf
      | false => exact endsBy_of_not_hasFin _ (h.not_hasFin hf)
  | _ => exact h.moved rfl rfl rfl rfl h.next

theorem FinKept.apply {m : Move} (hsize : cfg.sndbufSize < 2147483647) (hc : finKept cfg s e)
    (hl : Live v) (h : FinKept cfg v) (hg : m.guard cfg v) (hm : m.calm)
    (hcause : Cause cfg s e v m) : FinKept cfg (m.apply v) := by
  obtain ⟨hbare, hhalf, hsyn, hwrite, _⟩ := finKept_iff.mp hc
  have hnear : ∀ buf x fast, m = .ack buf x fast → ¬ Far buf x := by
    rintro buf x fast rfl
    exact halfAck_not_far hhalf hg hcause
  refine ⟨opening_apply hbare hl h.opening hg hm hcause,
    h.based.apply (fun hb => noBareAck_move hbare (hb ▸ hcause)) hnear hl h.opening hg hm,
    h.finishing.apply hl h.opening h.based hg hm hnear ?_ ?_,
    h.bounded.apply hsize hc h.based h.finishing hg hm hcause⟩
  · rintro x rfl hnone
    exact synAtStart_move hsyn hcause hnone
  · rintro buf bytes rfl
    exact noLateWrite_move hwrite hcause

theorem finKept_started (h : Started v) : FinKept cfg v := by
  refine ⟨opening_started h, based_started h, finishing_started h, ?_⟩
  cases h with
  | active | passive => exact .of_unsent rfl rfl

structure FinLast (s : TcpStream) : Prop where
  next : s.sndvar.isFinSent = true → leq s.sndNxt (s.sndvar.fss + 1) = true
  ends : s.sndvar.isFinSent = true → endsBy (s.sndvar.fss + 1) s.trace = true

/-- In a run that sends no FIN with `snd_nxt` beyond `fss`, nothing is sent beyond the FIN. -/
theorem fin_is_last (s : TcpStream) (es : List (Env × Action)) (hs : Opened cfg s)
    (hsize : cfg.sndbufSize < 2147483647)
    (ha : Along (step cfg) (fun s e => finKept cfg s e = true) s es)
    (hf : (run cfg s es).fault = none) (hal : (run cfg s es).onHashTable = true) :
    FinLast (run cfg s es) := by
  obtain ⟨_, hinv⟩ := run_invariant (fun s e v m hc => FinKept.apply hsize hc)
    (fun v hv => finKept_started hv) hs ha hf hal
  refine ⟨fun hsent => leq_of_fwd_lt (hinv.bounded.next hsent), fun hsent => ?_⟩
  rw [← endsBy_kept]
  exact hinv.bounded.ends hsent

theorem fin_is_last_client :
    (run .small client (atRest (clientHandshake ++ [.write [1, 2, 3], .dequeue .sendq, .dataPass 1,
      .close, .dequeue .closeq, .controlPass 1]))).sndNxt = 105 ∧
      FinLast (run .small client (atRest (clientHandshake ++ [.write [1, 2, 3], .dequeue .sendq,
        .dataPass 1, .close, .dequeue .closeq, .controlPass 1]))) :=
  ⟨by decide, fin_is_last _ _ client_opened (by decide) (by decide) (by decide) (by decide)⟩

/-- A segment outside the window makes FIN_WAIT_1 send its FIN again, and the second FIN
moves `snd_nxt` two beyond `fss`. -/
theorem resent_fin_counts_twice :
    (run .small client (atRest (clientHandshake ++ [.close, .dequeue .closeq, .controlPass 1,
      .rx { seq := 400, ackSeq := 101, window := 100, ack := true },
      .controlPass 1]))).sndvar.isFinSent = true ∧
    (run .small client (atRest (clientHandshake ++ [.close, .dequeue .closeq, .controlPass 1,
      .rx { seq := 400, ackSeq := 101, window := 100, ack := true },
      .controlPass 1]))).sndvar.fss = 101 ∧
    (run .small client (atRest (clientHandshake ++ [.close, .dequeue .closeq, .controlPass 1,
      .rx { seq := 400, ackSeq := 101, window := 100, ack := true },
      .controlPass 1]))).sndNxt = 103 := by
  decide

end Mtcp
