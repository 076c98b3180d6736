import Mtcp.Refine.Input

namespace Mtcp

open Serial SendBuffer Runs UInt32 Option

/-! Sequences of acknowledgements in ESTABLISHED. -/

/-- `snd_una` is the first byte of the buffer, and `snd_nxt` lies in it or right behind it. -/
structure InOrder (buf : TcpSendBuffer) (s : TcpStream) : Prop where
  held : s.sndvar.sndbuf = some buf
  una : s.sndvar.sndUna = buf.headSeq
  next : fwd s.sndvar.sndUna s.sndNxt ≤ buf.len

structure Acking (buf : TcpSendBuffer) (s : TcpStream) : Prop extends InOrder buf s where
  wf : Wf buf
  small : buf.len < 1073741824
  state : s.state = .established

def movesWindow (seg : Segment) (s : TcpStream) : Bool :=
  lt s.rcvvar.sndWl1 seg.seq ||
    (s.rcvvar.sndWl1 == seg.seq && lt s.rcvvar.sndWl2 seg.ackSeq) ||
    (s.rcvvar.sndWl2 == seg.ackSeq && decide (s.sndvar.peerWnd < segmentWindow seg s))

/-- The third duplicate in a row: below `snd_nxt`, the same number as before, no payload, and the
right edge of the send window stays where it is. -/
def isThird (seg : Segment) (s : TcpStream) : Bool :=
  s.rcvvar.dupAcks == 2 && (lt seg.ackSeq s.sndNxt &&
    (seg.ackSeq == s.rcvvar.lastAckSeq && seg.payload.length == 0) &&
    (!movesWindow seg s ||
      seg.ackSeq + segmentWindow seg s == s.sndvar.peerWnd + s.rcvvar.sndWl2))

/-- The segment acknowledges more than is buffered, or it is neither a third duplicate below
`snd_una` nor exactly half the sequence space ahead of an empty buffer. -/
def keepsOrder (s : TcpStream) (seg : Segment) : Bool :=
  match s.sndvar.sndbuf with
  | none => true
  | some buf =>
    gt seg.ackSeq (buf.headSeq + UInt32.ofNat buf.len) ||
      !(isThird seg s && lt seg.ackSeq s.sndvar.sndUna) &&
      !(buf.len == 0 && fwd buf.headSeq seg.ackSeq == 2147483648 && s.sndvar.effMss != 0)

def ackStep (s : TcpStream) (e : Env × Segment) : TcpStream :=
  if s.fault.isNone then processACK e.1 e.2 s else s

variable {buf : TcpSendBuffer} {s : TcpStream} {seg : Segment} {env : Env}

theorem retransmits_eq_isThird (seg : Segment) (s : TcpStream) :
    retransmits seg seg.ackSeq s = isThird seg s := by
  have hnxt : (updateWindow seg seg.ackSeq s).sndNxt = s.sndNxt :=
    congrArg Conn.sndNxt (conn_updateWindow seg seg.ackSeq s)
  have hlast := (updateWindow_dupAcks seg seg.ackSeq s).2
  rw [retransmits, isThird, isDuplicate, hnxt, hlast]
  congr 2
  unfold updateWindow
  dsimp only
  cases hmoves : movesWindow seg s with
  | true =>
    rw [movesWindow] at hmoves
    rw [hmoves, if_pos rfl, Bool.not_true, Bool.false_or]
    split_ifs
    · rfl
    · rfl
  | false =>
    rw [movesWindow] at hmoves
    rw [hmoves, if_neg Bool.false_ne_true, Bool.not_false, Bool.true_or, UInt32.add_comm]
    exact beq_self_eq_true _

theorem effectiveAck_established (h : s.state = .established) :
    effectiveAck seg s = seg.ackSeq := by
  rw [effectiveAck, h]
  exact if_neg fun hclosing => by simp at hclosing

theorem processACK_conn (h : Acking buf s)
    (hgt : gt seg.ackSeq (buf.headSeq + ofNat buf.len) = false) :
    (∃ fault, conn (processACK env seg s) =
      { (conn s).acked buf seg.ackSeq (isThird seg s) with fault := fault } ∧
      (geq buf.headSeq seg.ackSeq ∨ s.sndvar.effMss ≠ 0)) ∨
    geq buf.headSeq seg.ackSeq = false ∧ s.sndvar.effMss = 0 ∧ conn (processACK env seg s) =
      ((conn s).noted buf seg.ackSeq (isThird seg s)).crash .divideByZero := by
  obtain ⟨-, hnote⟩ := conn_noteAck_eq seg buf seg.ackSeq s h.held
  have hmss := noteAck_effMss seg buf seg.ackSeq s
  rw [retransmits_eq_isThird] at hnote
  unfold processACK
  rw [h.held]
  dsimp only
  rw [effectiveAck_established h.state, hgt, if_neg Bool.false_ne_true]
  generalize noteAck seg buf seg.ackSeq s = u at hnote hmss ⊢
  cases hgeq : geq buf.headSeq seg.ackSeq with
  | true =>
    refine .inl ⟨s.fault, ?_, .inl rfl⟩
    rw [if_pos rfl, hnote, Conn.acked, hgeq]
    rfl
  | false =>
    rw [if_neg Bool.false_ne_true]
    by_cases hzero : s.sndvar.effMss = 0
    · rw [removeAcked_of_no_mss env buf seg.ackSeq (hmss.trans hzero)]
      refine .inr ⟨rfl, hzero, ?_⟩
      rw [← hnote]
      rfl
    · obtain ⟨fault, -, hrem⟩ := conn_removeAcked_of_mss env buf seg.ackSeq u (hmss ▸ hzero)
      refine .inl ⟨fault, ?_, .inr hzero⟩
      have hnxt : u.sndNxt = (conn s).ackedNxt seg.ackSeq (isThird seg s) :=
        congrArg Conn.sndNxt hnote
      have htw : u.onTimewaitList = s.onTimewaitList := congrArg Conn.timewait hnote
      rw [hrem, hnote, hnxt, htw, Conn.acked, hgeq]
      rfl

theorem Acking.noted_old (h : Acking buf s) {x : UInt32} (third : Bool)
    (hle : fwd x buf.headSeq + buf.len ≤ 2147483648) :
    fwd buf.headSeq ((conn s).ackedNxt x third) ≤ buf.len ↔
      (third && lt x buf.headSeq) = false := by
  have hnext := h.next
  have hsmall := h.small
  rw [h.una] at hnext
  have hback := fwd_trans buf.headSeq x buf.headSeq
  have hto := fwd_trans s.sndNxt buf.headSeq x
  have hround := fwd_trans s.sndNxt buf.headSeq s.sndNxt
  have h1 := fwd_lt buf.headSeq x
  have h2 := fwd_lt s.sndNxt x
  have h3 := fwd_lt s.sndNxt buf.headSeq
  rw [fwd_self] at hback hround
  change fwd buf.headSeq (if third then x else if gt x s.sndNxt then x else s.sndNxt) ≤ _ ↔ _
  cases third with
  | true =>
    rw [if_pos rfl, Bool.true_and, not_lt_iff]
    omega
  | false =>
    have hgt : gt x s.sndNxt = false := by
      rw [not_gt_iff]
      omega
    rw [if_neg Bool.false_ne_true, hgt, if_neg Bool.false_ne_true, Bool.false_and]
    exact ⟨fun _ => rfl, fun _ => hnext⟩

theorem Acking.noted_inside (h : Acking buf s) {x : UInt32} (third : Bool)
    (hpos : 0 < fwd buf.headSeq x) (hle : fwd buf.headSeq x ≤ buf.len) :
    fwd x ((conn s).ackedNxt x third) + fwd buf.headSeq x ≤ buf.len := by
  have hnext := h.next
  have hsmall := h.small
  rw [h.una] at hnext
  have hto := fwd_trans buf.headSeq x s.sndNxt
  have h1 := fwd_lt x s.sndNxt
  have hback := fwd_trans s.sndNxt x s.sndNxt
  have h2 := fwd_lt s.sndNxt x
  rw [fwd_self] at hback
  change fwd x (if third then x else if gt x s.sndNxt then x else s.sndNxt) + _ ≤ _
  split_ifs with hfast hgt
  · rw [fwd_self]
    omega
  · rw [fwd_self]
    omega
  · rw [Bool.not_eq_true, not_gt_iff] at hgt
    omega

theorem inOrder_iff {v : Conn} (hv : conn s = v) :
    InOrder buf s ↔ v.sndbuf = some buf ∧ v.sndUna = buf.headSeq ∧
      fwd v.sndUna v.sndNxt ≤ buf.len := by
  subst hv
  exact ⟨fun h => ⟨h.held, h.una, h.next⟩, fun h => ⟨h.1, h.2.1, h.2.2⟩⟩

section

variable (h : Acking buf s)

include h

theorem Acking.noted_iff {t : TcpStream} {x : UInt32} {third : Bool} {fault : Option Fault}
    (ht : conn t = { (conn s).noted buf x third with fault := fault }) :
    (∃ b, InOrder b t) ↔ fwd buf.headSeq ((conn s).ackedNxt x third) ≤ buf.len := by
  refine ⟨fun ⟨b, hb⟩ => ?_, fun hle => ⟨buf, ?_⟩⟩
  · obtain ⟨hbuf, -, hnext⟩ := (inOrder_iff ht).mp hb
    change s.sndvar.sndbuf = some b at hbuf
    rw [h.held] at hbuf
    obtain rfl := some.inj hbuf
    rw [← h.una]
    exact hnext
  · refine (inOrder_iff ht).mpr ⟨h.held, h.una, ?_⟩
    change fwd s.sndvar.sndUna ((conn s).ackedNxt x third) ≤ buf.len
    rw [h.una]
    exact hle

theorem Acking.processACK_inside (env : Env)
    (hgt : gt seg.ackSeq (buf.headSeq + ofNat buf.len) = false)
    (hpos : 0 < fwd buf.headSeq seg.ackSeq) (hle : fwd buf.headSeq seg.ackSeq ≤ buf.len) :
    ∃ b, InOrder b (processACK env seg s) := by
  have hsmall := h.small
  have hnext := h.noted_inside (isThird seg s) hpos hle
  obtain ⟨fault, hconn, -⟩ | ⟨-, -, hconn⟩ := @processACK_conn buf s seg env h hgt
  · have hgeq : geq buf.headSeq seg.ackSeq = false := by
      have hback := fwd_trans buf.headSeq seg.ackSeq buf.headSeq
      have hlt := fwd_lt seg.ackSeq buf.headSeq
      rw [fwd_self] at hback
      rw [not_geq_iff]
      omega
    rw [Conn.acked, hgeq, if_neg Bool.false_ne_true] at hconn
    obtain ⟨-, -, hlen, -, hhead⟩ := sbRemove_spec h.wf hle
    rw [add_fwd] at hhead
    refine ⟨_, (inOrder_iff hconn).mpr ⟨rfl, hhead.symm, ?_⟩⟩
    change fwd seg.ackSeq ((conn s).ackedNxt seg.ackSeq (isThird seg s)) ≤ _
    rw [hlen]
    omega
  · refine (h.noted_iff hconn).mpr ?_
    have hto := fwd_trans buf.headSeq seg.ackSeq ((conn s).ackedNxt seg.ackSeq (isThird seg s))
    omega

theorem Acking.processACK_far (env : Env)
    (hgt : gt seg.ackSeq (buf.headSeq + ofNat buf.len) = false)
    (hfar : fwd buf.headSeq seg.ackSeq = 2147483648) (hempty : buf.len = 0) :
    (∃ b, InOrder b (processACK env seg s)) ↔ isThird seg s = false ∧ s.sndvar.effMss = 0 := by
  have hback := fwd_trans buf.headSeq seg.ackSeq buf.headSeq
  have hlt := fwd_lt seg.ackSeq buf.headSeq
  rw [fwd_self] at hback
  have hgeq : geq buf.headSeq seg.ackSeq = false := by
    rw [not_geq_iff]
    omega
  obtain ⟨fault, hconn, hmss⟩ | ⟨-, hmss, hconn⟩ := @processACK_conn buf s seg env h hgt
  · refine ⟨fun ⟨b, hb⟩ => ?_, fun hzero => ?_⟩
    · rw [Conn.acked, hgeq, if_neg Bool.false_ne_true] at hconn
      obtain ⟨hbuf, huna, -⟩ := (inOrder_iff hconn).mp hb
      change seg.ackSeq = b.headSeq at huna
      rw [sbRemove_of_empty _ hempty] at hbuf
      rw [huna, ← some.inj hbuf, fwd_self] at hfar
      omega
    · obtain hmss | hmss := hmss
      · rw [hgeq] at hmss
        cases hmss
      · exact absurd hzero.2 hmss
  · have hahead : lt seg.ackSeq buf.headSeq := by
      rw [lt_iff]
      omega
    rw [h.noted_iff hconn, h.noted_old _ (by omega), hahead, Bool.and_true]
    exact ⟨fun hthird => ⟨hthird, hmss⟩, fun hthird => hthird.1⟩

theorem Acking.processACK_iff (env : Env) (seg : Segment) :
    (∃ b, InOrder b (processACK env seg s)) ↔ keepsOrder s seg := by
  have hsmall := h.small
  rw [keepsOrder, h.held]
  dsimp only
  cases hgt : gt seg.ackSeq (buf.headSeq + ofNat buf.len) with
  | true =>
    have hsame : processACK env seg s = s := by
      unfold processACK
      rw [h.held]
      dsimp only
      rw [effectiveAck_established h.state, hgt, if_pos rfl]
    rw [hsame]
    exact ⟨fun _ => rfl, fun _ => ⟨buf, h.toInOrder⟩⟩
  | false =>
    rw [Bool.false_or, h.una]
    have hback := fwd_trans buf.headSeq seg.ackSeq buf.headSeq
    have h1 := fwd_lt buf.headSeq seg.ackSeq
    rw [fwd_self] at hback
    obtain ⟨hle, hlt⟩ | ⟨hpos, hle⟩ | ⟨hfar, hempty⟩ := not_gt_add_cases (by omega) hgt
    · have hgeq : geq buf.headSeq seg.ackSeq := (geq_iff _ _).mpr hlt
      have hnear : (fwd buf.headSeq seg.ackSeq == 2147483648) = false := by
        rw [beq_eq_false_iff_ne]
        omega
      obtain ⟨fault, hconn, -⟩ | ⟨hno, -, -⟩ := @processACK_conn buf s seg env h hgt
      · rw [Conn.acked, if_pos hgeq] at hconn
        rw [h.noted_iff hconn, h.noted_old _ hle, hnear, Bool.and_false, Bool.false_and,
          Bool.not_false, Bool.and_true, Bool.not_eq_true']
      · rw [hgeq] at hno
        cases hno
    · have hnotlt : lt seg.ackSeq buf.headSeq = false := by
        rw [not_lt_iff]
        omega
      have hnear : (fwd buf.headSeq seg.ackSeq == 2147483648) = false := by
        rw [beq_eq_false_iff_ne]
        omega
      rw [hnotlt, hnear, Bool.and_false, Bool.and_false, Bool.false_and]
      exact ⟨fun _ => rfl, fun _ => h.processACK_inside env hgt hpos hle⟩
    · have hahead : lt seg.ackSeq buf.headSeq := by
        rw [lt_iff]
        omega
      rw [h.processACK_far env hgt hfar hempty, hahead, hempty, hfar]
      simp

theorem Acking.processACK_buffer (env : Env) (seg : Segment) :
    (processACK env seg s).state = .established ∧
      ∃ n, (processACK env seg s).sndvar.sndbuf = some (sbRemove buf n).2 := by
  have hnone : ∀ {t : TcpStream} {x : UInt32} {third : Bool} {fault : Option Fault},
      conn t = { (conn s).noted buf x third with fault := fault } →
      t.state = .established ∧ ∃ n, t.sndvar.sndbuf = some (sbRemove buf n).2 := by
    intro t x third fault ht
    exact ⟨(congrArg Conn.state ht).trans h.state, 0, (congrArg Conn.sndbuf ht).trans h.held⟩
  cases hgt : gt seg.ackSeq (buf.headSeq + ofNat buf.len) with
  | true =>
    unfold processACK
    rw [h.held]
    dsimp only
    rw [effectiveAck_established h.state, hgt, if_pos rfl]
    exact ⟨h.state, 0, h.held⟩
  | false =>
    obtain ⟨fault, hconn, -⟩ | ⟨-, -, hconn⟩ := @processACK_conn buf s seg env h hgt
    · cases hgeq : geq buf.headSeq seg.ackSeq with
      | true =>
        rw [Conn.acked, if_pos hgeq] at hconn
        exact hnone hconn
      | false =>
        rw [Conn.acked, hgeq, if_neg Bool.false_ne_true] at hconn
        exact ⟨(congrArg Conn.state hconn).trans h.state, _, congrArg Conn.sndbuf hconn⟩
    · exact hnone hconn

theorem Acking.after (env : Env) (seg : Segment) {b : TcpSendBuffer}
    (hb : InOrder b (processACK env seg s)) : Acking b (processACK env seg s) := by
  obtain ⟨hstate, n, hbuf⟩ := h.processACK_buffer env seg
  obtain rfl := some.inj (hbuf.symm.trans hb.held)
  obtain ⟨hwf, -, hlen, -⟩ := sbRemove_spec h.wf (Nat.min_le_right n buf.len)
  rw [← sbRemove_min] at hwf hlen
  have hsmall := h.small
  exact ⟨hb, hwf, by omega, hstate⟩

/-- A sequence of acknowledgements keeps the order after each of them exactly if none is a third
duplicate below `snd_una`, or exactly half the sequence space ahead of an empty buffer. -/
theorem acknowledgements_keep_order_iff (acks : List (Env × Segment)) :
    Along ackStep (fun t e => ∃ b, InOrder b (ackStep t e)) s acks ↔
      Along ackStep (fun t e => t.fault = none → keepsOrder t e.2 = true) s acks := by
  induction acks generalizing s buf with
  | nil => exact Iff.rfl
  | cons e acks ih =>
    cases hf : s.fault with
    | some f =>
      have hstop : ackStep s e = s := by
        rw [ackStep, hf]
        rfl
      rw [Along, Along, hstop]
      refine and_congr ⟨fun _ hnone => ?_, fun _ => ⟨buf, h.toInOrder⟩⟩ (ih h)
      rw [hf] at hnone
      cases hnone
    | none =>
      have hgo : ackStep s e = processACK e.1 e.2 s := by
        rw [ackStep, hf]
        rfl
      rw [Along, Along, hgo]
      have hone : (∃ b, InOrder b (processACK e.1 e.2 s)) ↔
          (s.fault = none → keepsOrder s e.2 = true) := by
        rw [h.processACK_iff]
        exact ⟨fun hkeep _ => hkeep, fun hkeep => hkeep hf⟩
      rw [hone]
      refine and_congr_right fun hkeep => ?_
      obtain ⟨b, hb⟩ := hone.mpr hkeep
      exact ih (h.after e.1 e.2 hb)

end

def sentThree : TcpStream := run .small client (atRest (clientHandshake ++
  [.write [1, 2, 3], .dequeue .sendq, .dataPass 1]))

theorem sentThree_acking : Acking (sbPut (sbInit (fun _ => 0) 64 101) [1, 2, 3]).2 sentThree :=
  ⟨⟨by decide, by decide, by decide⟩, ⟨by decide, by decide, by decide, by decide⟩, by decide,
    by decide⟩

def bareAck (x : UInt32) : Env × Segment :=
  ({}, { seq := 501, ackSeq := x, window := 1000, ack := true })

theorem acknowledgements_keep_order_three :
    Along ackStep (fun t e => ∃ b, InOrder b (ackStep t e)) sentThree
      [bareAck 102, bareAck 103, bareAck 103, bareAck 103] :=
  (acknowledgements_keep_order_iff sentThree_acking _).mpr (by decide)

/-- One byte is acknowledged, then the number before it comes back four times: the third duplicate
pulls `snd_nxt` below `snd_una`. -/
theorem stale_duplicates_break_order :
    sentThree.sndvar.sndUna = 101 ∧ sentThree.sndNxt = 104 ∧
      sentThree.sndvar.sndbuf.map (fun buf => (buf.headSeq, buf.len)) = some (101, 3) ∧
      ∀ b, ¬ InOrder b ([bareAck 102, bareAck 101, bareAck 101, bareAck 101, bareAck 101].foldl
        ackStep sentThree) := by
  refine ⟨by decide, by decide, by decide, fun b hb => ?_⟩
  have hnext := hb.next
  have hlen : b.len = 2 := by
    have hheld := congrArg (Option.map TcpSendBuffer.len) hb.held
    exact Option.some.inj (hheld.symm.trans (by decide))
  rw [hlen] at hnext
  exact absurd hnext (by decide)

end Mtcp
