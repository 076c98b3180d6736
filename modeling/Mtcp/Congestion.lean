import Mathlib.Algebra.Order.Floor.Div
import Mtcp.PaceSteps
import Mtcp.Rtt

namespace Mtcp

open Serial SendBuffer Options

/-! The growth of the congestion window, against its rule over the integers. -/

/-- The window after `rmlen` new bytes: in slow start a segment more for each packet, begun ones
included, and otherwise one for a whole window. -/
def ruledCwnd (v : TcpSendVars) (rmlen : Nat) : Nat :=
  let packets := rmlen ⌈/⌉ v.effMss.toNat
  let mss := v.mss.toNat
  if v.cwnd < v.ssthresh then v.cwnd.toNat + mss * packets
  else v.cwnd.toNat + packets * mss * mss / v.cwnd.toNat

structure FollowsRule (v w : TcpSendVars) (rmlen : Nat) : Prop where
  ruled : ruledCwnd v rmlen < 4294967296 → w.cwnd.toNat = ruledCwnd v rmlen
  slowStart : v.cwnd < v.ssthresh → v.cwnd < w.cwnd
  mono : v.cwnd ≤ w.cwnd

/-- Where the code follows the rule. In slow start the acknowledged bytes are whole segments,
fewer than 2^16, or the rule itself no longer fits; otherwise the begun segment and the bits
lost in the product do not change the quotient. -/
def Exact (v : TcpSendVars) (rmlen : Nat) : Prop :=
  let packets := rmlen ⌈/⌉ v.effMss.toNat
  let whole := rmlen / v.effMss.toNat % 65536
  let mss := v.mss.toNat
  let cwnd := v.cwnd.toNat
  if v.cwnd < v.ssthresh then
    0 < mss * whole ∧ cwnd + mss * whole < 4294967296 ∧
      (cwnd + mss * packets < 4294967296 →
        v.effMss.toNat ∣ rmlen ∧ rmlen / v.effMss.toNat < 65536)
  else
    cwnd + packets * mss * mss / cwnd < 4294967296 →
      whole * mss * mss % 4294967296 / cwnd = packets * mss * mss / cwnd

theorem whole_le {r e : Nat} : r / e % 65536 ≤ r ⌈/⌉ e :=
  (Nat.mod_le _ _).trans (floorDiv_le_ceilDiv : r ⌊/⌋ e ≤ r ⌈/⌉ e)

theorem whole_eq_iff {r e : Nat} (he : 0 < e) :
    r / e % 65536 = r ⌈/⌉ e ↔ e ∣ r ∧ r / e < 65536 := by
  have hfloor : r / e ≤ r ⌈/⌉ e := (floorDiv_le_ceilDiv : r ⌊/⌋ e ≤ r ⌈/⌉ e)
  have hmod : r / e % 65536 ≤ r / e := Nat.mod_le _ _
  constructor
  · intro h
    have hdiv : r ⌈/⌉ e = r / e := by omega
    have hup : r ≤ e * (r ⌈/⌉ e) := le_smul_ceilDiv he
    have hdown : e * (r / e) ≤ r := Nat.mul_div_le r e
    rw [hdiv] at hup
    exact ⟨⟨r / e, by omega⟩, by omega⟩
  · rintro ⟨⟨k, rfl⟩, hlt⟩
    have hceil : e * k ⌈/⌉ e = k := smul_ceilDiv he k
    rw [Nat.mul_div_cancel_left k he] at hlt ⊢
    rw [hceil]
    exact Nat.mod_eq_of_lt hlt

/-- The test that should count a begun segment compares with the quotient rounded down. -/
theorem ackedPackets_toNat {rmlen effMss : UInt32} :
    (ackedPackets rmlen effMss).toNat = rmlen.toNat / effMss.toNat % 65536 := by
  have hle : (rmlen / effMss * effMss).toNat ≤ rmlen.toNat := by
    rw [UInt32.toNat_mul, UInt32.toNat_div]
    exact (Nat.mod_le _ _).trans (Nat.div_mul_le_self _ _)
  have hnot : ¬ rmlen < rmlen / effMss * effMss := by
    rw [UInt32.lt_iff_toNat_lt]
    omega
  unfold ackedPackets
  rw [if_neg hnot, UInt16.toNat_toUInt32, UInt32.toNat_toUInt16, UInt32.toNat_div]

def grownCwnd (v : TcpSendVars) (packets : UInt32) : UInt32 :=
  if v.cwnd < v.ssthresh then
    if v.cwnd < v.cwnd + v.mss.toUInt32 then v.cwnd + v.mss.toUInt32 * packets else v.cwnd
  else
    if v.cwnd < v.cwnd + packets * v.mss.toUInt32 * v.mss.toUInt32 / v.cwnd then
      v.cwnd + packets * v.mss.toUInt32 * v.mss.toUInt32 / v.cwnd
    else v.cwnd

section rule

variable {v w : TcpSendVars} {packets : UInt32} {rmlen : Nat}

theorem toNat_mss_lt (v : TcpSendVars) : v.mss.toUInt32.toNat = v.mss.toNat ∧ v.mss.toNat ≤ 65535 :=
  ⟨UInt16.toNat_toUInt32 _, Nat.le_of_lt_succ v.mss.toNat_lt⟩

theorem grownCwnd_slow (h : v.cwnd < v.ssthresh) : (grownCwnd v packets).toNat =
      if v.cwnd.toNat + v.mss.toNat < 4294967296 then
        (v.cwnd.toNat + v.mss.toNat * packets.toNat) % 4294967296 else v.cwnd.toNat := by
  obtain ⟨hmss, hle⟩ := toNat_mss_lt v
  have hc := v.cwnd.toNat_lt
  have hsum : (v.cwnd + v.mss.toUInt32 * packets).toNat =
      (v.cwnd.toNat + v.mss.toNat * packets.toNat) % 4294967296 := by
    rw [UInt32.toNat_add, UInt32.toNat_mul, hmss, Nat.add_mod_mod]
  have htest : v.cwnd < v.cwnd + v.mss.toUInt32 ↔
      v.cwnd.toNat < (v.cwnd.toNat + v.mss.toNat) % 4294967296 := by
    rw [UInt32.lt_iff_toNat_lt, UInt32.toNat_add, hmss]
  unfold grownCwnd
  rw [if_pos h]
  by_cases hwrap : v.cwnd.toNat + v.mss.toNat < 4294967296
  · rw [if_pos hwrap]
    split
    · exact hsum
    · next hno =>
      -- The test also fails for a segment size of zero, and nothing is added then.
      have hzero : v.mss.toNat = 0 := by
        rw [htest, Nat.mod_eq_of_lt hwrap] at hno
        omega
      rw [hzero, zero_mul, add_zero]
      exact (Nat.mod_eq_of_lt hc).symm
  · rw [if_neg hwrap, if_neg]
    rw [htest]
    omega

theorem grownCwnd_avoid (h : ¬ v.cwnd < v.ssthresh) : (grownCwnd v packets).toNat =
      if v.cwnd.toNat + packets.toNat * v.mss.toNat * v.mss.toNat % 4294967296 / v.cwnd.toNat <
        4294967296 then
        v.cwnd.toNat + packets.toNat * v.mss.toNat * v.mss.toNat % 4294967296 / v.cwnd.toNat
      else v.cwnd.toNat := by
  obtain ⟨hmss, -⟩ := toNat_mss_lt v
  have hc := v.cwnd.toNat_lt
  have hquot : (packets * v.mss.toUInt32 * v.mss.toUInt32 / v.cwnd).toNat =
      packets.toNat * v.mss.toNat * v.mss.toNat % 4294967296 / v.cwnd.toNat := by
    rw [UInt32.toNat_div, UInt32.toNat_mul, UInt32.toNat_mul, hmss, Nat.mod_mul_mod]
  have hlt := (packets * v.mss.toUInt32 * v.mss.toUInt32 / v.cwnd).toNat_lt
  unfold grownCwnd
  rw [if_neg h]
  rw [hquot] at hlt
  generalize packets * v.mss.toUInt32 * v.mss.toUInt32 / v.cwnd = q at hquot ⊢
  generalize packets.toNat * v.mss.toNat * v.mss.toNat % 4294967296 / v.cwnd.toNat = n
    at hquot hlt ⊢
  have hsum : (v.cwnd + q).toNat = (v.cwnd.toNat + n) % 4294967296 := by
    rw [UInt32.toNat_add, hquot]
  by_cases hwrap : v.cwnd.toNat + n < 4294967296
  · rw [if_pos hwrap]
    rw [Nat.mod_eq_of_lt hwrap] at hsum
    split
    · exact hsum
    · next hno =>
      rw [UInt32.lt_iff_toNat_lt] at hno
      omega
  · rw [if_neg hwrap, if_neg]
    rw [UInt32.lt_iff_toNat_lt]
    omega

theorem followsRule_iff_slow (h : v.cwnd < v.ssthresh) (he : 0 < v.effMss.toNat)
    (hp : packets.toNat = rmlen / v.effMss.toNat % 65536) (hw : w.cwnd = grownCwnd v packets) :
    FollowsRule v w rmlen ↔ Exact v rmlen := by
  have hlow : packets.toNat ≤ 65535 := by omega
  have hgrown := @grownCwnd_slow v packets h
  have hiff := @whole_eq_iff rmlen _ he
  have hc := v.cwnd.toNat_lt
  obtain ⟨-, hle⟩ := toNat_mss_lt v
  have hfits : v.mss.toNat * packets.toNat ≤ 65535 * 65535 := Nat.mul_le_mul hle hlow
  rw [← hw] at hgrown
  have hmul : 0 < v.mss.toNat * packets.toNat → v.mss.toNat ≤ v.mss.toNat * packets.toNat :=
    fun hpos => Nat.le_mul_of_pos_right _ (Nat.pos_of_mul_pos_left hpos)
  -- The window grows exactly if the product is positive and the sum does not wrap.
  have hgrows : v.cwnd < w.cwnd ↔ 0 < v.mss.toNat * packets.toNat ∧
      v.cwnd.toNat + v.mss.toNat * packets.toNat < 4294967296 := by
    rw [UInt32.lt_iff_toNat_lt, hgrown]
    split <;> omega
  have hsum : v.cwnd < w.cwnd → w.cwnd.toNat = v.cwnd.toNat + v.mss.toNat * packets.toNat := by
    intro hlt
    obtain ⟨hpos, hfit⟩ := hgrows.mp hlt
    have hstep := hmul hpos
    rw [hgrown, if_pos (by omega), Nat.mod_eq_of_lt hfit]
  have hrule : ruledCwnd v rmlen = v.cwnd.toNat + v.mss.toNat * (rmlen ⌈/⌉ v.effMss.toNat) :=
    if_pos h
  have hexact : Exact v rmlen ↔ 0 < v.mss.toNat * packets.toNat ∧
      v.cwnd.toNat + v.mss.toNat * packets.toNat < 4294967296 ∧
      (v.cwnd.toNat + v.mss.toNat * (rmlen ⌈/⌉ v.effMss.toNat) < 4294967296 →
        packets.toNat = rmlen ⌈/⌉ v.effMss.toNat) := by
    unfold Exact
    rw [if_pos h, hp, hiff]
  rw [hexact]
  constructor
  · intro hf
    have hlt := hf.slowStart h
    obtain ⟨hpos, hfit⟩ := hgrows.mp hlt
    refine ⟨hpos, hfit, fun hall => ?_⟩
    have hval := hf.ruled (by rw [hrule]; exact hall)
    rw [hrule, hsum hlt] at hval
    exact Nat.eq_of_mul_eq_mul_left (Nat.pos_of_mul_pos_right hpos) (Nat.add_left_cancel hval)
  · rintro ⟨hpos, hfit, hall⟩
    have hlt := hgrows.mpr ⟨hpos, hfit⟩
    refine ⟨fun hr => ?_, fun _ => hlt, UInt32.le_of_lt hlt⟩
    rw [hrule] at hr ⊢
    rw [hsum hlt, hall hr]

theorem followsRule_iff_avoid (h : ¬ v.cwnd < v.ssthresh)
    (hp : packets.toNat = rmlen / v.effMss.toNat % 65536) (hw : w.cwnd = grownCwnd v packets) :
    FollowsRule v w rmlen ↔ Exact v rmlen := by
  have hgrown := @grownCwnd_avoid v packets h
  rw [← hw] at hgrown
  -- Fewer packets and a cut product make the quotient smaller, so it fits where the rule does.
  have hquot : packets.toNat * v.mss.toNat * v.mss.toNat % 4294967296 / v.cwnd.toNat ≤
      rmlen ⌈/⌉ v.effMss.toNat * v.mss.toNat * v.mss.toNat / v.cwnd.toNat := by
    refine Nat.div_le_div_right ((Nat.mod_le _ _).trans ?_)
    refine Nat.mul_le_mul_right _ (Nat.mul_le_mul_right _ ?_)
    rw [hp]
    exact whole_le
  have hrule : ruledCwnd v rmlen = v.cwnd.toNat +
      rmlen ⌈/⌉ v.effMss.toNat * v.mss.toNat * v.mss.toNat / v.cwnd.toNat := if_neg h
  have hexact : Exact v rmlen ↔ (v.cwnd.toNat +
      rmlen ⌈/⌉ v.effMss.toNat * v.mss.toNat * v.mss.toNat / v.cwnd.toNat < 4294967296 →
      packets.toNat * v.mss.toNat * v.mss.toNat % 4294967296 / v.cwnd.toNat =
        rmlen ⌈/⌉ v.effMss.toNat * v.mss.toNat * v.mss.toNat / v.cwnd.toNat) := by
    unfold Exact
    rw [if_neg h, hp]
  rw [hexact]
  generalize packets.toNat * v.mss.toNat * v.mss.toNat % 4294967296 / v.cwnd.toNat = q
    at hgrown hquot ⊢
  generalize rmlen ⌈/⌉ v.effMss.toNat * v.mss.toNat * v.mss.toNat / v.cwnd.toNat = n
    at hquot hrule ⊢
  constructor
  · intro hf hfit
    have hval := hf.ruled (by rw [hrule]; exact hfit)
    rw [hrule, hgrown, if_pos (by omega)] at hval
    exact Nat.add_left_cancel hval
  · intro hall
    refine ⟨fun hr => ?_, fun hs => absurd hs h, ?_⟩
    · rw [hrule] at hr ⊢
      rw [hgrown, if_pos (by omega), hall hr]
    · rw [UInt32.le_iff_toNat_le, hgrown]
      split <;> omega

theorem followsRule_iff (he : 0 < v.effMss.toNat)
    (hp : packets.toNat = rmlen / v.effMss.toNat % 65536) (hw : w.cwnd = grownCwnd v packets) :
    FollowsRule v w rmlen ↔ Exact v rmlen := by
  by_cases h : v.cwnd < v.ssthresh
  · exact followsRule_iff_slow h he hp hw
  · exact followsRule_iff_avoid h hp hw

end rule

/-! The code. -/

variable {env : Env} {seg : Segment} {s : TcpStream}

theorem growCwnd_cwnd (packets : UInt32) (hst : .established ≤ s.state) (hc : s.sndvar.cwnd ≠ 0) :
    (growCwnd packets s).sndvar.cwnd = grownCwnd s.sndvar packets := by
  unfold growCwnd grownCwnd
  dsimp only
  rw [if_pos hst, if_neg hc]
  split
  · split <;> rfl
  · split <;> rfl

theorem takeAcked_tuning (buf : TcpSendBuffer) (x : UInt32) :
    tuning (takeAcked env buf x s) = tuning s := by
  refine (pace_restart _).tuning.trans ?_
  split <;> rfl

theorem updateRTO_sndvar : ∃ rto, (updateRTO env s).sndvar = { s.sndvar with rto := rto } := by
  unfold updateRTO
  dsimp only
  split
  · split <;> exact ⟨_, rfl⟩
  · exact ⟨s.sndvar.rto, rfl⟩

theorem removeAcked_cwnd (buf : TcpSendBuffer) (x : UInt32) (hst : .established ≤ s.state)
    (he : s.sndvar.effMss ≠ 0) (hc : s.sndvar.cwnd ≠ 0) : (removeAcked env buf x s).sndvar.cwnd =
      grownCwnd s.sndvar (ackedPackets (x - buf.headSeq) s.sndvar.effMss.toUInt32) := by
  obtain ⟨rto, hrto⟩ := @updateRTO_sndvar env s
  rw [removeAcked_eq, if_neg he]
  refine (congrArg Tuning.cwnd (takeAcked_tuning buf x)).trans ?_
  change (growCwnd _ _).sndvar.cwnd = _
  rw [growCwnd_cwnd, hrto]
  · rfl
  · rw [(updateRTO_path env s).state (by decide)]
    exact hst
  · rw [hrto]
    exact hc

theorem pace_noteAck (buf : TcpSendBuffer) {x : UInt32} (h : x ≠ s.rcvvar.lastAckSeq) :
    SamePace s (noteAck seg buf x s) := by
  have hwin := (updateWindow_path seg s x).pace (by decide)
  have hlast := (updateWindow_path seg s x).view (·.rcvvar.lastAckSeq) fun hk hstep => by
    cases hstep <;> first | rfl | exact absurd hk (by decide)
  unfold noteAck
  dsimp only
  have hdup : isDuplicate seg x (s.sndvar.peerWnd + s.rcvvar.sndWl2) (updateWindow seg x s) =
      false := by
    unfold isDuplicate
    rw [hlast, beq_false_of_ne h]
    simp
  rw [hdup]
  generalize updateWindow seg x s = u at hwin ⊢
  have hcount := ((countDupAcks_path u false x).pace (by decide)).after hwin
  exact ((recoverAfterLoss_path _ buf x).pace (by decide)).after hcount

theorem processACK_new {buf : TcpSendBuffer} (hbuf : s.sndvar.sndbuf = some buf)
    (hnew : acksNewData seg s) : processACK env seg s =
      removeAcked env buf (effectiveAck seg s) (noteAck seg buf (effectiveAck seg s) s) := by
  unfold acksNewData at hnew
  rw [hbuf] at hnew
  simp only [Bool.and_eq_true, Bool.not_eq_true'] at hnew
  unfold processACK
  rw [hbuf]
  dsimp only
  rw [if_neg (by simp [hnew.1]), if_neg (by simp [hnew.2])]

/-- An acknowledgement of new data makes the window grow by its rule exactly if the bytes are
whole segments, or the difference is lost in the division. -/
theorem cwnd_growth (env : Env) (seg : Segment) (s : TcpStream) (buf : TcpSendBuffer)
    (hbuf : s.sndvar.sndbuf = some buf) (hst : .established ≤ s.state)
    (he : 1 ≤ s.sndvar.effMss.toNat) (hc : 1 ≤ s.sndvar.cwnd.toNat)
    (hnew : acksNewData seg s = true) :
    let x := effectiveAck seg s
    let rmlen := (x - buf.headSeq).toNat
    (FollowsRule s.sndvar (removeAcked env buf x s).sndvar rmlen ↔ Exact s.sndvar rmlen) ∧
      (x ≠ s.rcvvar.lastAckSeq →
        (FollowsRule s.sndvar (processACK env seg s).sndvar rmlen ↔ Exact s.sndvar rmlen)) := by
  intro x rmlen
  have hpackets : (ackedPackets (x - buf.headSeq) s.sndvar.effMss.toUInt32).toNat =
      rmlen / s.sndvar.effMss.toNat % 65536 := by
    rw [ackedPackets_toNat, UInt16.toNat_toUInt32]
  have he' : s.sndvar.effMss ≠ 0 := by
    intro h0
    rw [h0] at he
    exact absurd he (by decide)
  have hc' : s.sndvar.cwnd ≠ 0 := ne_zero_of_toNat_pos hc
  refine ⟨followsRule_iff he hpackets (removeAcked_cwnd buf x hst he' hc'), fun hlast => ?_⟩
  refine followsRule_iff he hpackets ?_
  have hpace := @pace_noteAck seg s buf x hlast
  have hun := (@noteAck_rule seg s (fun _ => True) (fun _ _ => trivial) buf x
    (fun _ _ _ _ => trivial) trivial).2
  have hcwnd : (noteAck seg buf x s).sndvar.cwnd = s.sndvar.cwnd :=
    congrArg Tuning.cwnd hpace.tuning
  have hthresh : (noteAck seg buf x s).sndvar.ssthresh = s.sndvar.ssthresh :=
    congrArg Tuning.ssthresh hpace.tuning
  rw [processACK_new hbuf hnew, removeAcked_cwnd buf x (hun.state ▸ hst) (hun.effMss ▸ he')
    (hcwnd ▸ hc'), hun.effMss]
  unfold grownCwnd
  rw [hcwnd, hthresh, hun.mss]

def smallSegments : TcpStream :=
  run .small client (atRest [.dequeue .connectq, .controlPass 1,
    .rx { seq := 500, ackSeq := 101, window := 1000, syn := true, ack := true,
          opts := [2, 4, 0, 20] },
    .controlPass 1, .write [1, 2, 3, 4, 5, 6, 7, 8, 9], .dequeue .sendq, .dataPass 2])

theorem smallSegments_sndbuf : smallSegments.sndvar.sndbuf.isSome := by decide +kernel

def ackUpTo (x : UInt32) : Segment := { seq := 501, ackSeq := x, window := 1000, ack := true }

theorem cwnd_growth_whole :
    FollowsRule smallSegments.sndvar (processACK {} (ackUpTo 109) smallSegments).sndvar 8 := by
  have hrmlen : (effectiveAck (ackUpTo 109) smallSegments -
      (smallSegments.sndvar.sndbuf.get smallSegments_sndbuf).headSeq).toNat = 8 := by decide +kernel
  have h := (cwnd_growth {} (ackUpTo 109) smallSegments _
    (Option.some_get smallSegments_sndbuf).symm (by decide +kernel) (by decide +kernel)
    (by decide +kernel) (by decide +kernel)).2 (by decide +kernel)
  rw [hrmlen] at h
  refine h.mpr ?_
  unfold Exact
  decide +kernel

/-- A single byte is acknowledged in slow start, and the window stays. -/
theorem begun_segment_not_counted :
    TcpState.established ≤ smallSegments.state ∧ smallSegments.sndvar.effMss = 8 ∧
      smallSegments.sndvar.cwnd = 40 ∧ smallSegments.sndvar.ssthresh = 200 ∧
      acksNewData (ackUpTo 102) smallSegments = true ∧
      (processACK {} (ackUpTo 102) smallSegments).sndvar.cwnd = 40 ∧
      ¬ FollowsRule smallSegments.sndvar (processACK {} (ackUpTo 102) smallSegments).sndvar 1 := by
  have hslow : smallSegments.sndvar.cwnd < smallSegments.sndvar.ssthresh := by decide +kernel
  have hsame : ¬ smallSegments.sndvar.cwnd <
      (processACK {} (ackUpTo 102) smallSegments).sndvar.cwnd := by decide +kernel
  exact ⟨by decide +kernel, by decide +kernel, by decide +kernel, by decide +kernel,
    by decide +kernel, by decide +kernel, fun h => hsame (h.slowStart hslow)⟩

end Mtcp
