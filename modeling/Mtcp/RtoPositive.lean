import Mtcp.Rtt
import Mtcp.PaceSteps
import Mtcp.Sending

namespace Mtcp

open Serial SendBuffer RingBuffer Options Runs

variable {cfg : Config} {env : Env} {seg : Segment} {s t : TcpStream}

/-! The retransmission timeout is never zero. -/

/-- With samples so small the deviation, four times as large, leaves room in 32 bits for the mean,
which is below 2^29. -/
def sampleMax : Nat := 939524095

structure Clocked (s : TcpStream) : Prop where
  rto : s.sndvar.rto ≠ 0
  spread : Spread sampleMax s.rcvvar
  rttvar : s.rcvvar.srtt ≠ 0 → s.rcvvar.rttvar ≠ 0
  fault : s.fault ≠ some .rtoZero

/-- In the handshake the timeout doubles with each of the first retries. -/
structure Paced (s : TcpStream) : Prop extends Clocked s where
  state : s.state ≠ .listen
  doubled : s.state.handshaking = true →
    s.sndvar.rto.toNat = 500 * 2 ^ min s.sndvar.nrtx.toNat 6

theorem Clocked.of_tuning (h : Clocked s) (htuning : tuning t = tuning s)
    (hfault : t.fault ≠ some .rtoZero) : Clocked t := by
  have hrto : t.sndvar.rto = s.sndvar.rto := congrArg Tuning.rto htuning
  have hsrtt : t.rcvvar.srtt = s.rcvvar.srtt := congrArg Tuning.srtt htuning
  have hmdev : t.rcvvar.mdev = s.rcvvar.mdev := congrArg Tuning.mdev htuning
  have hmax : t.rcvvar.mdevMax = s.rcvvar.mdevMax := congrArg Tuning.mdevMax htuning
  have hvar : t.rcvvar.rttvar = s.rcvvar.rttvar := congrArg Tuning.rttvar htuning
  refine ⟨hrto ▸ h.rto, ⟨?_, ?_, ?_⟩, ?_, hfault⟩
  · exact hmdev ▸ h.spread.mdev_le
  · exact hmax ▸ h.spread.mdevMax_le
  · exact hvar ▸ h.spread.rttvar_le
  · rw [hsrtt, hvar]
    exact h.rttvar

theorem Clocked.paced (h : Clocked s) (hst : .established ≤ s.state) : Paced s := by
  refine ⟨h, fun hl => ?_, fun hs => ?_⟩
  · rw [hl] at hst
    exact absurd hst (by decide)
  · rw [not_handshaking_of_le hst] at hs
    cases hs

theorem Clocked.fault_of_pace (h : Clocked s) (hp : SamePace s t) : t.fault ≠ some .rtoZero := by
  intro hf
  obtain hf | ⟨-, hzero⟩ := hp.fault _ hf
  · exact h.fault hf
  · exact h.rto (hzero rfl)

theorem Paced.of_pace (h : Paced s) (hp : SamePace s t) : Paced t := by
  have hc := h.toClocked.of_tuning hp.tuning (h.toClocked.fault_of_pace hp)
  obtain hst | hst | ⟨-, hst⟩ := hp.state
  · refine ⟨hc, hst ▸ h.state, fun hs => ?_⟩
    rw [hp.nrtx hs, show t.sndvar.rto = s.sndvar.rto from congrArg Tuning.rto hp.tuning]
    exact h.doubled (hst ▸ hs)
  · refine ⟨hc, fun hl => ?_, fun hs => ?_⟩
    · exact absurd (hst.symm.trans hl) (by decide)
    · rw [hst] at hs
      cases hs
  · exact hc.paced hst

theorem Paced.of_late (h : Paced s) (htuning : tuning t = tuning s) (hfault : t.fault = s.fault)
    (hst : .established ≤ t.state) : Paced t :=
  (h.toClocked.of_tuning htuning (hfault ▸ h.fault)).paced hst

/-! A sample. -/

theorem estimateRTT_clocked {mrtt : UInt32} (hspread : Spread sampleMax s.rcvvar)
    (hvar : s.rcvvar.srtt ≠ 0 → s.rcvvar.rttvar ≠ 0) (hm : mrtt.toNat ≤ sampleMax) :
    Spread sampleMax (estimateRTT s mrtt) ∧ (estimateRTT s mrtt).rttvar ≠ 0 := by
  by_cases h0 : s.rcvvar.srtt = 0
  · obtain ⟨k, hk1, -, hnew, -, hval⟩ := estimateRTT_fresh h0 hm (by decide) (by decide)
    exact ⟨hnew, ne_zero_of_toNat_pos (by omega)⟩
  · have hlt := s.rcvvar.srtt.toNat_lt
    have hold : s.rcvvar.srtt.toNat / 8 ≤ sampleMax := by
      unfold sampleMax
      omega
    obtain ⟨hnew, hkeep⟩ := estimateRTT_spread hspread h0 hm hold (by decide) (by decide)
    exact ⟨hnew, hkeep (hvar h0)⟩

/-- The mean is below 2^29, so the sum does not wrap. -/
theorem rto_ne_zero {r : TcpRecvVars} (hspread : Spread sampleMax r) (hvar : r.rttvar ≠ 0) :
    (r.srtt >>> 3) + r.rttvar ≠ 0 := by
  have hlt := r.srtt.toNat_lt
  have hle := hspread.rttvar_le
  have hpos : 0 < r.rttvar.toNat := Nat.pos_of_ne_zero fun h0 => hvar (UInt32.toNat_inj.mp h0)
  refine ne_zero_of_toNat_pos ?_
  unfold sampleMax at hle
  rw [UInt32.toNat_add, toNat_shiftRight_three, Nat.mod_eq_of_lt (by omega)]
  omega

theorem Clocked.sampled (h : Clocked s) (hecho : s.sawTimestamp →
      (env.curTs - s.rcvvar.tsLastackRcvd).toNat ≤ sampleMax) : Clocked (updateRTO env s) := by
  unfold updateRTO
  split
  · next hsaw =>
    obtain ⟨hnew, hvar⟩ := estimateRTT_clocked h.spread h.rttvar (hecho hsaw)
    have hrto := rto_ne_zero hnew hvar
    rw [if_neg hrto]
    exact ⟨hrto, hnew, fun _ => hvar, h.fault⟩
  · exact h

theorem abort_ne_rtoZero {f : Fault} (h : s.fault ≠ some .rtoZero) (hf : f ≠ .rtoZero) :
    (s.abort f).fault ≠ some .rtoZero := by
  change s.fault.or (some f) ≠ some .rtoZero
  cases hs : s.fault with
  | none => simpa using hf
  | some g => simpa [hs] using h

theorem Clocked.abort {f : Fault} (h : Clocked s) (hf : f ≠ .rtoZero) : Clocked (s.abort f) :=
  h.of_tuning rfl (abort_ne_rtoZero h.fault hf)

theorem Clocked.along {ks : List Change} (h : Clocked s) (hp : Path ks s t)
    (hks : ∀ k ∈ ks, k ∉ [Change.rtt, .backOff]) : Clocked t := by
  refine hp.keeps (fun hk hstep hc => ?_) h
  have hout := hks _ hk
  have hspread := hc.spread
  cases hstep with
  | fault f hd hz => exact hc.abort hz
  | divide => exact hc.abort (by decide)
  | rtoZero hzero => exact absurd hzero hc.rto
  | rtt | backOff => exact absurd (by decide) hout
  | _ =>
    exact ⟨hc.rto, ⟨hspread.mdev_le, hspread.mdevMax_le, hspread.rttvar_le⟩, hc.rttvar, hc.fault⟩

/-! The retransmission timeout itself. -/

theorem backoffRTO_ne_zero (h : Clocked s) (hlate : s.state.handshaking = false) :
    backoffRTO s ≠ 0 := by
  unfold backoffRTO
  split
  · dsimp only
    split
    · exact h.rto
    · next hne => exact hne
  · next hest =>
    have hlow : ¬ .synSent ≤ s.state := by
      intro hlow
      cases hs : s.state <;> rw [hs] at hlow hest hlate <;>
        first | exact absurd hlow (by decide) | exact hest (by decide) | cases hlate
    rw [if_neg hlow]
    exact h.rto

theorem backoffRTO_handshaking (h : s.state.handshaking) :
    backoffRTO s = if s.sndvar.nrtx < 7 then s.sndvar.rto <<< 1 else s.sndvar.rto := by
  unfold backoffRTO
  cases hs : s.state <;> rw [hs] at h <;> first | rfl | cases h

/-- Six doublings of half a second, and then no more. -/
theorem toNat_doubled {rto : UInt32} {n : UInt8} (hn : n.toNat < 16)
    (h : rto.toNat = 500 * 2 ^ min n.toNat 6) :
    (if n + 1 < 7 then rto <<< 1 else rto).toNat = 500 * 2 ^ min (n + 1).toNat 6 := by
  have hnext : (n + 1).toNat = n.toNat + 1 := by
    rw [UInt8.toNat_add]
    exact Nat.mod_eq_of_lt (by change n.toNat + 1 < 256; omega)
  have hseven : n + 1 < 7 ↔ n.toNat + 1 < 7 := by
    rw [UInt8.lt_iff_toNat_lt, hnext]
    rfl
  split
  · next hlt =>
    have hle : n.toNat + 1 ≤ 6 := Nat.le_of_lt_succ (hseven.mp hlt)
    have hmin : min n.toNat 6 = n.toNat := by omega
    have hmin' : min (n.toNat + 1) 6 = n.toNat + 1 := by omega
    have hpow : 2 ^ (n.toNat + 1) ≤ 2 ^ 6 := Nat.pow_le_pow_right (by decide) hle
    rw [hmin] at h
    rw [hnext, hmin', UInt32.toNat_shiftLeft, h, Nat.shiftLeft_eq]
    change 500 * 2 ^ n.toNat * 2 ^ 1 % 4294967296 = 500 * 2 ^ (n.toNat + 1)
    rw [Nat.pow_succ] at hpow ⊢
    rw [Nat.mod_eq_of_lt (by omega)]
    omega
  · next hge =>
    have hlow : ¬ n.toNat + 1 < 7 := fun h => hge (hseven.mpr h)
    have hmin : min (n.toNat + 1) 6 = min n.toNat 6 := by omega
    rw [hnext, hmin]
    exact h

theorem Paced.backedOff (h : Paced s) (hn : s.sndvar.nrtx < 16) : Paced (backOff s) := by
  have hcount : Clocked { s with sndvar.nrtx := s.sndvar.nrtx + 1 } :=
    ⟨h.rto, h.spread, h.rttvar, h.fault⟩
  have hback : s.state.handshaking → (backoffRTO
      { s with sndvar.nrtx := s.sndvar.nrtx + 1 }).toNat =
        500 * 2 ^ min (s.sndvar.nrtx + 1).toNat 6 := by
    intro hs
    rw [backoffRTO_handshaking (by exact hs)]
    exact toNat_doubled (UInt8.lt_iff_toNat_lt.mp hn) (h.doubled hs)
  refine ⟨⟨?_, h.spread, h.rttvar, h.fault⟩, h.state, hback⟩
  cases hs : s.state.handshaking with
  | false => exact backoffRTO_ne_zero hcount hs
  | true =>
    refine ne_zero_of_toNat_pos ?_
    change 0 < (backoffRTO _).toNat
    rw [hback hs]
    exact Nat.mul_pos (by decide) (Nat.two_pow_pos _)

theorem Paced.timedOut (h : Paced s) : Paced (handleRTO cfg s) := by
  unfold handleRTO
  rw [if_neg h.rto]
  split
  · exact h
  · split
    · exact h.of_pace ((exceedMaxRtx_path cfg s).pace (by decide))
    · next hn =>
      exact (h.backedOff (not_not.mp hn)).of_pace ((retryOrGiveUp_path cfg _).pace (by decide))

/-! Segments. -/

/-- The echo of an acceptable acknowledgement of new data is less than 2^30 - 2^27 ticks old. -/
def recentEcho (now : UInt32) (s : TcpStream) (seg : Segment) : Bool :=
  !acksNewData seg s ||
    match parseTCPTimestamp seg with
    | some (some (_, tsRef)) => decide ((now - tsRef).toNat ≤ sampleMax)
    | _ => true

def echoesRecent (cfg : Config) (s : TcpStream) (e : Env × Action) : Bool :=
  onAccepted (recentEcho e.1.curTs) cfg s e

theorem Paced.acked (h : Paced s) (hst : s.state.handshaking = false)
    (hecho : acksNewData seg s → s.sawTimestamp →
      (env.curTs - s.rcvvar.tsLastackRcvd).toNat ≤ sampleMax) : Paced (handleAck env seg s) := by
  have hkeep : ∀ u, u.state = s.state → Clocked u → Paced u := by
    intro u hu hc
    refine ⟨hc, fun hl => ?_, fun hs => ?_⟩
    · exact h.state (hu.symm.trans hl)
    · rw [hu, hst] at hs
      cases hs
  refine handleAck_rule Paced.of_pace hst (fun u dup x hu hp => ?_) (fun u hu _ hp => ?_)
    (fun u buf hu _ hnew _ hp => ?_) h
  · have hpath := respondDupAcks_path u dup x
    exact hkeep _ ((hpath.state (by decide)).trans hu) (hp.toClocked.along hpath (by decide))
  · exact hkeep _ hu.state (hp.toClocked.abort (by decide))
  · have hpath := growCwnd_path (updateRTO env u)
      (ackedPackets (effectiveAck seg s - buf.headSeq) u.sndvar.effMss.toUInt32)
    have hstate := (updateRTO_path env u).state (by decide)
    refine hkeep _ (((hpath.state (by decide)).trans hstate).trans hu.state) ?_
    refine Clocked.along (hp.toClocked.sampled fun hsaw => ?_) hpath (by decide)
    rw [hu.echo]
    exact hecho hnew (hu.saw ▸ hsaw)

theorem checkTimestamp_true (hok : (checkTimestamp env seg s).1) (hr : seg.rst = false) :
    conn (checkTimestamp env seg s).2 = conn s ∧
      (checkTimestamp env seg s).2.sawTimestamp = s.sawTimestamp ∧
      (s.sawTimestamp → ∃ tsVal tsRef, parseTCPTimestamp seg = some (some (tsVal, tsRef)) ∧
        (checkTimestamp env seg s).2.rcvvar.tsLastackRcvd = tsRef) := by
  revert hok
  unfold checkTimestamp
  cases hsaw : s.sawTimestamp with
  | false =>
    intro _
    simp only [Bool.and_false, Bool.false_eq_true, if_false]
    exact ⟨trivial, hsaw, nofun⟩
  | true =>
    simp only [hr, Bool.not_false, Bool.and_true, if_true]
    split
    · nofun
    · nofun
    · next tsVal tsRef hparse =>
      split
      · nofun
      · exact fun _ => ⟨rfl, rfl, fun _ => ⟨tsVal, tsRef, hparse, rfl⟩⟩

theorem acksNewData_congr {u : TcpStream} (hbuf : u.sndvar.sndbuf = s.sndvar.sndbuf)
    (hack : effectiveAck seg u = effectiveAck seg s) : acksNewData seg u = acksNewData seg s := by
  unfold acksNewData
  rw [hbuf, hack]

theorem effectiveAck_of_conn {u : TcpStream} (h : conn u = conn s) :
    effectiveAck seg u = effectiveAck seg s := by
  have hst := congrArg Conn.state h
  have hfin := congrArg Conn.finSent h
  have hfss := congrArg Conn.fss h
  dsimp only [conn] at hst hfin hfss
  unfold effectiveAck
  rw [hst, hfin, hfss]

theorem Paced.stamped (h : Paced s) : Paced (checkTimestamp env seg s).2 := by
  unfold checkTimestamp
  split
  · split
    · exact h.of_pace (.abort nofun nofun)
    · exact h
    · split
      · exact h.of_pace ((enqueueACK_path s .now).pace (by decide))
      · exact ⟨⟨h.rto, ⟨h.spread.mdev_le, h.spread.mdevMax_le, h.spread.rttvar_le⟩, h.rttvar,
          h.fault⟩, h.state, h.doubled⟩
  · exact h

theorem Paced.packet_late (h : Paced s) (hst : .established ≤ s.state)
    (hc : echoesRecent cfg s (env, .rx seg)) : Paced (processTCPPacket cfg env seg s) := by
  refine packet_rule Paced.of_pace Paced.of_late hst h.stamped fun u hok hval hr hread hu => ?_
  obtain ⟨hconn, hsaw, hstamp⟩ := checkTimestamp_true hok hr
  have harr := (arrived_conn env seg (checkTimestamp env seg s).2).trans hconn
  have hpace := hread.pace.after (pace_arrived seg _)
  have hlate : u.state.handshaking = false := by
    obtain hsame | ⟨-, hclosed⟩ := hread.state
    · rw [hsame, state_of_conn harr]
      exact not_handshaking_of_le hst
    · rw [hclosed]
      rfl
  refine hu.acked hlate fun hnew husaw => ?_
  have husaw' : u.sawTimestamp = s.sawTimestamp := (congrArg Tuning.saw hpace.tuning).trans hsaw
  obtain ⟨tsVal, tsRef, hparse, hecho⟩ := hstamp (husaw'.symm.trans husaw)
  have hecho' : u.rcvvar.tsLastackRcvd = tsRef := (congrArg Tuning.echo hpace.tuning).trans hecho
  have hnew' : acksNewData seg s := by
    rw [← hnew]
    refine (acksNewData_congr ?_ ?_).symm
    · exact hread.sndbuf.trans (congrArg Conn.sndbuf harr)
    · exact (hread.ack seg).trans (effectiveAck_of_conn harr)
  have hval' : validated cfg env seg s := by
    unfold validated
    rw [hval, Bool.or_true]
  have hrecent := onAccepted_rx hc rfl hr hval'
  rw [hecho']
  unfold recentEcho at hrecent
  simpa [hnew', hparse] using hrecent

theorem Clocked.opened (h : Clocked s) (ho : Opens s t) : Clocked t := by
  have hset : Clocked { s with
      sndvar.cwnd := openingCwnd s.sndvar
      sndvar.ssthresh := s.sndvar.mss.toUInt32 * 10 } :=
    ⟨h.rto, h.spread, h.rttvar, h.fault⟩
  refine hset.of_tuning ho.tuning fun hf => ?_
  obtain hf | ⟨-, hzero⟩ := ho.fault _ hf
  · exact h.fault hf
  · exact h.rto (hzero rfl)

theorem Paced.packet_early (h : Paced s) (hshape : (conn s).Shape)
    (hst : s.state.handshaking) : Paced (processTCPPacket cfg env seg s) := by
  have hlow : ¬ .synRcvd < s.state := by
    cases hs : s.state <;> rw [hs] at hst <;> first | decide | cases hst
  unfold processTCPPacket
  rw [if_neg hlow]
  refine processValidated_early Paced.of_pace (fun w hpace hsame hfault hbuf _ hw => ?_) h
  cases hs : s.state with
  | synSent =>
    unfold dispatch
    rw [hsame, hs]
    refine handleSynSent_rule Paced.of_pace (hsame.trans hs) (fun _ v ht hf hv => ?_)
      (fun _ v ht hn hf hv => ?_) (fun _ _ _ _ u v ht hf hopen hv => ?_) hw
    · exact hw.of_late ht hf (by rw [hv]; decide)
    · refine ⟨hw.toClocked.of_tuning ht (hf ▸ hw.fault), by rw [hv]; decide, fun _ => ?_⟩
      rw [hn, show v.sndvar.rto = w.sndvar.rto from congrArg Tuning.rto ht]
      exact hw.doubled (by rw [hsame]; exact hst)
    · have hparsed : Clocked (parseTCPOptions env seg u) :=
        (hw.toClocked.of_tuning ht (hf ▸ hw.fault)).along
          (parseTCPOptions_path env seg u) (by decide)
      exact (hparsed.opened hopen).paced (by rw [hv]; decide)
  | synRcvd =>
    refine dispatch_synRcvd_rule Paced.of_pace Paced.of_late (hsame.trans hs) ?_
      (fun v ht hf hv => ?_) hw
    · rw [hbuf]
      exact hshape.sndbuf (by change s.state.early; rw [hs]; rfl)
    · have hset : Clocked { w with sndvar.cwnd := openingCwnd w.sndvar } :=
        ⟨hw.rto, hw.spread, hw.rttvar, hw.fault⟩
      exact (hset.of_tuning ht (hf ▸ hw.fault)).paced (by rw [hv]; decide)
  | _ =>
    rw [hs] at hst
    cases hst

/-! Whole runs. -/

theorem Paced.packet_closed (h : Paced s) (hst : s.state = .closed) :
    Paced (processTCPPacket cfg env seg s) := by
  unfold processTCPPacket
  rw [if_neg (by rw [hst]; decide)]
  refine processValidated_early Paced.of_pace (fun w _ hsame _ _ _ hw => ?_) h
  rw [dispatch_of_closed env seg w (hsame.trans hst)]
  exact hw

theorem Paced.act (h : Paced s) (hshape : (conn s).Shape) (a : Action)
    (hc : echoesRecent cfg s (env, a)) : Paced (act cfg env s a) := by
  cases a with
  | rx seg =>
    unfold Mtcp.act
    dsimp only
    split
    · cases hs : s.state with
      | listen => exact absurd hs h.state
      | synSent | synRcvd => exact h.packet_early hshape (by rw [hs]; rfl)
      | closed => exact h.packet_closed hs
      | _ => exact h.packet_late (by rw [hs]; decide) hc
    · exact h
  | rtm =>
    unfold Mtcp.act checkRtmTimeout
    dsimp only
    split
    · have hoff : Paced ({ s with onRtoIdx := -1 }.unlink .rto) :=
        h.of_pace (.of_eq rfl rfl rfl rfl)
      exact hoff.timedOut
    · exact h
  | _ => exact h.of_pace (act_pace _ nofun nofun)

theorem clocked_fresh (hrto : s.sndvar.rto = 500) (hsrtt : s.rcvvar.srtt = 0)
    (hmdev : s.rcvvar.mdev = 0) (hmax : s.rcvvar.mdevMax = 0) (hvar : s.rcvvar.rttvar = 0)
    (hf : s.fault = none) : Clocked s := by
  refine ⟨by rw [hrto]; decide, ⟨?_, ?_, ?_⟩, fun h => absurd hsrtt h, by rw [hf]; decide⟩
  · rw [hmdev]
    exact Nat.zero_le _
  · rw [hmax]
    exact Nat.zero_le _
  · rw [hvar]
    exact Nat.zero_le _

theorem handlePassiveOpen_clocked (iss : UInt32) : Clocked (handlePassiveOpen cfg env iss seg) ∧
    (handlePassiveOpen cfg env iss seg).sndvar.rto = 500 ∧
    (handlePassiveOpen cfg env iss seg).sndvar.nrtx = 0 := by
  have hc : Clocked { createTCPStream cfg iss none with
      rcvvar.irs := seg.seq
      sndvar.peerWnd := seg.window.toUInt32, sndvar.cwnd := 1
      rcvNxt := seg.seq } := clocked_fresh rfl rfl rfl rfl rfl rfl
  have hpath := parseTCPOptions_path env seg { createTCPStream cfg iss none with
    rcvvar.irs := seg.seq
    sndvar.peerWnd := seg.window.toUInt32, sndvar.cwnd := 1
    rcvNxt := seg.seq }
  have hview := hpath.view (fun u => (u.sndvar.rto, u.sndvar.nrtx)) fun hk hstep => by
    cases hstep <;> first | rfl | exact absurd hk (by decide)
  exact ⟨hc.along hpath (by decide), congrArg Prod.fst hview, congrArg Prod.snd hview⟩

theorem Opened.paced (h : Opened cfg s) : Paced s := by
  cases h with
  | active iss sockid room =>
    have hp : Paced { createTCPStream cfg iss (some sockid) with
        sndvar.cwnd := 1
        sndvar.ssthresh := (createTCPStream cfg iss (some sockid)).sndvar.mss.toUInt32 * 10
        state := .synSent } :=
      ⟨clocked_fresh rfl rfl rfl rfl rfl rfl, nofun, fun _ => rfl⟩
    exact hp.of_pace (.ite (.of_eq rfl rfl rfl rfl) (.of_eq rfl rfl rfl rfl))
  | passive env iss seg hsyn hack =>
    have ha := @createNewFlow_accepts cfg env seg iss hsyn
    obtain ⟨hc, hrto, hnrtx⟩ := @handlePassiveOpen_clocked cfg env seg iss
    generalize createNewFlow cfg env iss seg = u at ha ⊢
    have hrto' : u.sndvar.rto = 500 := (congrArg Tuning.rto ha.tuning).trans hrto
    refine ⟨hc.of_tuning ha.tuning (ha.fault ▸ hc.fault), by rw [ha.state]; decide, fun _ => ?_⟩
    rw [ha.nrtx, hnrtx, hrto']
    rfl

/-- The timeout stays positive as long as no accepted acknowledgement of new data echoes a
timestamp 2^30 - 2^27 ticks old or older, so its checks do not fail. -/
theorem rto_positive (cfg : Config) (s : TcpStream) (hs : Opened cfg s)
    (es : List (Env × Action))
    (ha : Along (step cfg) (fun s e => echoesRecent cfg s e = true) s es) :
    (run cfg s es).sndvar.rto ≠ 0 ∧ (run cfg s es).fault ≠ some .rtoZero := by
  have hstep : ∀ t e, ((t.fault = none → (conn t).Shape) ∧ Paced t) →
      echoesRecent cfg t e = true →
      ((step cfg t e).fault = none → (conn (step cfg t e)).Shape) ∧ Paced (step cfg t e) := by
    rintro t e ⟨hshape, ht⟩ hc
    refine ⟨step_shape t e hshape, ?_⟩
    unfold step
    split
    · next hf => exact ht.act (hshape (Option.isNone_iff_eq_none.mp hf)) e.2 hc
    · exact ht
  have hend := (foldl_invariant hstep ⟨fun hf => (hs.started hf).shape, hs.paced⟩ ha).2
  exact ⟨hend.rto, hend.fault⟩

def echoed (echo : List UInt8) : List Action :=
  [.dequeue .connectq, .controlPass 1,
    .rx { seq := 500, ackSeq := 101, window := 1000, syn := true, ack := true,
          opts := [2, 4, 5, 180, 1, 1, 8, 10, 0, 0, 0, 1, 0, 0, 0, 0] },
    .controlPass 1, .write [7], .dequeue .sendq, .dataPass 1,
    .rx { seq := 501, ackSeq := 102, window := 1000, ack := true,
          opts := [1, 1, 8, 10, 0, 0, 0, 1] ++ echo }]

theorem rto_positive_echoed :
    (run .small client (atRest (echoed [0, 0, 0, 0]))).sndvar.rto ≠ 0 ∧
      (run .small client (atRest (echoed [0, 0, 0, 0]))).fault ≠ some .rtoZero :=
  rto_positive .small client client_opened _ (by decide +kernel)

/-- An echo 2^31 ticks old: eight times the sample and twice the sample are both zero. -/
theorem echo_zeroes_rto :
    (run .small client (atRest (echoed [128, 0, 0, 0]))).sndvar.rto = 0 ∧
      (run .small client (atRest (echoed [128, 0, 0, 0]))).fault = some .rtoZero := by
  decide +kernel

end Mtcp
