import Mtcp.FinNumber
import Mtcp.PendingFin
import Mtcp.SentFirst

namespace Mtcp

open Serial SendBuffer Bytes Runs List UInt32 Move

variable {cfg : Config} {s : TcpStream} {v : Conn} {m : Move}

/-! A close waits for the data. -/

/-- Every byte before an emitted FIN was emitted before it. -/
def FinAfterData (iss : UInt32) (log : List Effect) : Prop :=
  ∀ newer older seg, log = newer ++ .emit seg :: older → seg.fin = true →
    ∀ k, k < payloadStart iss older seg → Sent iss k older

def dupAtUna (s : TcpStream) (seg : Segment) : Bool :=
  !thirdDuplicate seg s || effectiveAck seg s == s.sndvar.sndUna

def holdsData (s : TcpStream) : Bool :=
  match s.sndvar.sndbuf with
  | none => false
  | some buf => buf.len != 0

/-- No buffered byte waits for its first transmission or for another one. -/
def allOut (s : TcpStream) : Bool :=
  match s.sndvar.sndbuf with
  | none => true
  | some buf => decide (buf.len ≤ fwd buf.headSeq s.sndNxt)

/-- The peer's FIN finds a stream in FIN_WAIT_1 with everything sent, and in CLOSING nothing is
left to be retransmitted. -/
def finFindsAllOut (s : TcpStream) (seg : Segment) : Bool :=
  !(s.state == .finWait1 && seg.fin && holdsData s) || allOut s && !thirdDuplicate seg s

def noDupInClosing (s : TcpStream) (seg : Segment) : Bool :=
  !(s.state == .closing && holdsData s && thirdDuplicate seg s)

def noTimeoutInClosing (s : TcpStream) (e : Env × Action) : Bool :=
  match e.2 with
  | .rtm => !(s.state == .closing && holdsData s && rtoExpired e.1 s)
  | _ => true

def cleanClose (cfg : Config) (s : TcpStream) (e : Env × Action) : Bool :=
  finKept cfg s e && noLateSyn s e.2 && onAccepted ackOfSent cfg s e &&
    onAccepted dupAtUna cfg s e && drainedClose s e.2 && onAccepted finFindsAllOut cfg s e &&
    onAccepted noDupInClosing cfg s e && noTimeoutInClosing s e

variable {iss : UInt32} {log : List Effect} {w : Conn} {e : Env × Action} {buf : TcpSendBuffer}
  {x : UInt32}

theorem cleanClose_iff : cleanClose cfg s e ↔
    finKept cfg s e ∧ noLateSyn s e.2 ∧ onAccepted ackOfSent cfg s e ∧
      onAccepted dupAtUna cfg s e ∧ drainedClose s e.2 ∧
      onAccepted finFindsAllOut cfg s e ∧ onAccepted noDupInClosing cfg s e ∧
      noTimeoutInClosing s e := by
  simp only [cleanClose, Bool.and_eq_true, and_assoc]

/-! Logs. -/

theorem SentFirst.released (h : SentFirst iss log) {k : Nat} (hk : k < Mtcp.released log) :
    Sent iss k log := by
  induction log with
  | nil => cases hk
  | cons e log ih =>
    have htail : SentFirst iss log := fun newer older n heq =>
      h (e :: newer) older n (congrArg (e :: ·) heq)
    cases e with
    | release n =>
      by_cases hold : k < Mtcp.released log
      · exact (ih htail hold).cons _
      · exact (h [] log n rfl k (Nat.not_lt.mp hold) hk).cons _
    | _ => exact (ih htail hk).cons _

theorem FinAfterData.cons (h : FinAfterData iss log) (e : Effect)
    (hfin : ∀ seg, e = .emit seg → seg.fin → ∀ k, k < payloadStart iss log seg → Sent iss k log)
    : FinAfterData iss (e :: log) := by
  intro newer older seg heq
  cases newer with
  | nil =>
    obtain ⟨rfl, rfl⟩ := cons.inj heq
    exact hfin seg rfl
  | cons e' newer =>
    obtain ⟨-, rfl⟩ := cons.inj heq
    exact h newer older seg rfl

theorem FinAfterData.of_kept (h : FinAfterData iss (log.filter Effect.kept)) :
    FinAfterData iss log := by
  rintro newer older seg rfl hfin k hk
  rw [← sent_kept]
  refine h (newer.filter Effect.kept) _ seg ?_ hfin k ?_
  · rw [filter_append, filter_cons_of_pos rfl]
  · rwa [payloadStart_kept]

/-! Connections. -/

/-- What is unsent is queued, what is sent is timed, and the FIN waits for both. -/
structure Conn.Draining (v : Conn) : Prop where
  order : v.state.sending = true → v.reach ≤ v.sendLen + if v.finSent then 1 else 0
  spent : v.state.sending = true → v.finSent = true → v.sent = v.sendLen
  timed : v.state.sending = true → v.reason = .notClosed → v.sndUna ≠ v.sndNxt → v.rto = true
  queued : v.state.sending = true → v.reach < v.sendLen → v.sendq = true ∨ v.sendList = true
  listed : v.state.begun = true → v.state.sending = true → v.sendq = false
  settled : v.state = .closing → v.sendLen ≤ v.reach
  fins : FinAfterData v.iss v.log

theorem Conn.Draining.of_idle (hst : w.state.sending = false) (hfins : FinAfterData w.iss w.log) :
    w.Draining := by
  have hno : ∀ {p : Prop}, w.state.sending → p := by
    intro p h
    rw [hst] at h
    cases h
  refine ⟨hno, hno, hno, hno, fun _ => hno, fun h => ?_, hfins⟩
  rw [h] at hst
  cases hst

theorem Conn.Draining.order_le (h : v.Draining) (hs : v.state.sending) :
    v.reach ≤ v.sendLen + 1 := by
  have horder := h.order hs
  split at horder <;> omega

structure SameDrain (v w : Conn) : Prop extends SameTally v w where
  sndNxt : w.sndNxt = v.sndNxt
  sndUna : w.sndUna = v.sndUna
  finSent : w.finSent = v.finSent
  sendq : w.sendq = v.sendq
  sendList : w.sendList = v.sendList
  timer : w.reason = .notClosed → v.reason = .notClosed ∧ w.rto = v.rto

theorem SameDrain.reach (h : SameDrain v w) : w.reach = v.reach := by
  rw [Conn.reach, h.toSameTally.sendBase, h.sndNxt, Conn.reach]

theorem SameDrain.draining (h : SameDrain v w) (hv : v.Draining)
    (hsend : w.state.sending → v.state.sending)
    (hbegun : w.state.begun → w.state.sending → v.sendq = false)
    (hclosing : w.state = .closing → v.sendLen ≤ v.reach) (hfins : FinAfterData w.iss w.log) :
    w.Draining := by
  have hsame := h.toSameTally
  refine ⟨fun hs => ?_, fun hs hf => ?_, fun hs hr hne => ?_, fun hs hlt => ?_, fun hb hs => ?_,
    fun hs => ?_, hfins⟩
  · rw [h.reach, hsame.sendLen, h.finSent]
    exact hv.order (hsend hs)
  · rw [hsame.sent, hsame.sendLen]
    exact hv.spent (hsend hs) (h.finSent ▸ hf)
  · obtain ⟨hr, hrto⟩ := h.timer hr
    rw [h.sndUna, h.sndNxt] at hne
    rw [hrto]
    exact hv.timed (hsend hs) hr hne
  · rw [h.reach, hsame.sendLen] at hlt
    rw [h.sendq, h.sendList]
    exact hv.queued (hsend hs) hlt
  · rw [h.sendq]
    exact hbegun hb hs
  · rw [h.reach, hsame.sendLen]
    exact hclosing hs

theorem Move.apply_iss (hm : m.calm) : (m.apply v).iss = v.iss := by
  cases m with
  | crash w => cases hm
  | ack buf x fast =>
    change (v.acked buf x fast).iss = _
    unfold Conn.acked
    split <;> rfl
  | retransmit => exact (retransmitted_una v).2.1
  | _ => rfl

theorem fins_apply (h : FinAfterData v.iss v.log) (hg : m.guard cfg v) (hm : m.calm)
    (hne : ∀ seg, m ≠ .emitFin seg) : FinAfterData (m.apply v).iss (m.apply v).log := by
  rw [apply_iss hm, apply_log (.inl hm)]
  have hplain : ∀ seg, seg.fin = false → FinAfterData v.iss (.emit seg :: v.log) := by
    intro seg hfin
    refine h.cons _ fun seg' heq hfin' => ?_
    rw [← Effect.emit.inj heq, hfin] at hfin'
    cases hfin'
  cases m with
  | crash w => cases hm
  | listen seq | loneSyn seq | ackOfSyn | peerFin seq dest | put buf bytes | hand buf n =>
    exact h.cons _ nofun
  | synAck seq a =>
    have hsyn : FinAfterData v.iss (.peerSyn seq :: v.log) := h.cons _ nofun
    exact hsyn.cons _ nofun
  | ack buf x fast =>
    dsimp only [effects]
    split
    · exact h
    · exact h.cons _ nofun
  | emitSyn seg => exact hplain seg hg.2.2.1
  | emitAck seg => exact hplain seg hg.1.2.1
  | emitFin seg => exact absurd rfl (hne seg)
  | emitRst seg => exact hplain seg hg.2.1
  | emitData buf seg => exact hplain seg hg.2.2.2.2.2.1.2.1
  | _ => exact h

theorem Based.len_lt_size (h : Based cfg v) (hsize : cfg.sndbufSize < 2147483647) :
    v.sendLen < 2147483647 := by
  unfold Conn.sendLen
  cases hbuf : v.sndbuf with
  | none => decide
  | some buf =>
    obtain ⟨hwf, hcap⟩ := h.sound buf hbuf
    have hle := hwf.len_le
    dsimp only
    omega

theorem sending_timewait (hl : Live v) (hs : v.state.sending) : v.timewait = false := by
  refine hl.shape.timewait_eq_false rfl ⟨?_, ?_⟩
  · rintro h
    rw [h] at hs
    cases hs
  · rintro h
    rw [h] at hs
    cases hs

theorem acked_out (hb : Based cfg v) (hsize : cfg.sndbufSize < 2147483647)
    {buf : TcpSendBuffer} {x : UInt32} {fast : Bool} (hbuf : v.sndbuf = some buf)
    (hgt : gt x (buf.headSeq + ofNat buf.len) = false) (hnear : ¬ Far buf x)
    (horder : v.reach ≤ v.sendLen + 1) (hout : v.sendLen ≤ v.reach) (hfast : fast → buf.len = 0) :
    (v.acked buf x fast).sendLen ≤ (v.acked buf x fast).reach := by
  have hlen := hb.len_lt_size hsize
  have hsplit := fwd_trans buf.headSeq x v.sndNxt
  have hround := fwd_trans x v.sndNxt x
  have h1 := fwd_lt x v.sndNxt
  have h2 := fwd_lt v.sndNxt x
  have hnxt := ackedNxt_cases v x fast
  rw [Conn.reach, sendBase_some hbuf] at horder hout
  rw [sendLen_some hbuf] at horder hout hlen
  rw [fwd_self] at hround
  obtain ⟨hle, -, -, hw⟩ | ⟨hpos, hle, -, rest, -, -, hhead, hrest, -, hw⟩ :=
    acked_cases fast hb hbuf hgt hnear
  · rw [hw]
    change v.sendLen ≤ fwd v.sendBase (v.ackedNxt x fast)
    rw [sendLen_some hbuf, sendBase_some hbuf]
    by_cases hempty : buf.len = 0
    · rw [hempty]
      exact Nat.zero_le _
    · have hslow : fast = false := eq_false_of_ne_true fun hf => hempty (hfast hf)
      subst hslow
      unfold Conn.ackedNxt
      rw [if_neg Bool.false_ne_true]
      by_cases hbeyond : gt x v.sndNxt
      · have hback := fwd_trans buf.headSeq x buf.headSeq
        have h3 := fwd_lt buf.headSeq x
        rw [if_pos hbeyond]
        rw [gt_iff] at hbeyond
        rw [fwd_self] at hback
        omega
      · rw [if_neg hbeyond]
        exact hout
  · have hslow : fast = false := by
      refine eq_false_of_ne_true fun hf => ?_
      have hempty := hfast hf
      omega
    subst hslow
    rw [hw]
    change rest.len ≤ fwd rest.headSeq (v.ackedNxt x false)
    rw [hhead, hrest]
    unfold Conn.ackedNxt
    rw [if_neg Bool.false_ne_true]
    by_cases hbeyond : gt x v.sndNxt
    · rw [gt_iff] at hbeyond
      omega
    · rw [if_neg hbeyond]
      rw [Bool.not_eq_true, not_gt_iff] at hbeyond
      omega

theorem Conn.Draining.noted (h : v.Draining) (hb : Based cfg v) {buf : TcpSendBuffer}
    (hbuf : v.sndbuf = some buf) {x : UInt32} {fast : Bool} (hs : v.state.sending)
    (hold : fwd x buf.headSeq + buf.len ≤ 2147483648) (hdup : fast → x = v.sndUna)
    (hhalf : v.finSent → fwd x (buf.headSeq + ofNat buf.len) < 2147483647)
    (hclosing : v.state = .closing → (v.noted buf x fast).sendLen ≤ (v.noted buf x fast).reach) :
    (v.noted buf x fast).Draining := by
  have hsame := noted_same v buf x fast
  have hlen := sendLen_some hbuf
  cases fast with
  | true =>
    have hreach : (v.noted buf x true).reach = 0 := by
      rw [Conn.reach, hsame.sendBase, ← hb.una hs]
      exact (congrArg (fwd v.sndUna) (hdup rfl)).trans (fwd_self _)
    refine ⟨fun _ => ?_, fun _ => h.spent hs, fun _ _ hne => absurd (hdup rfl).symm hne,
      fun _ _ => .inr rfl, h.listed, hclosing, h.fins⟩
    rw [hreach]
    exact Nat.zero_le _
  | false =>
    have hno : gt x v.sndNxt = false := by
      have horder := h.order hs
      have hsplit := fwd_trans x buf.headSeq v.sndNxt
      have hround := fwd_trans x v.sndNxt x
      have h1 := fwd_lt v.sndNxt x
      have h2 := fwd_lt x buf.headSeq
      rw [Conn.reach, sendBase_some hbuf, hlen] at horder
      rw [fwd_self] at hround
      rw [not_gt_iff]
      cases hf : v.finSent with
      | false =>
        rw [hf] at horder
        simp only [Bool.false_eq_true, if_false] at horder
        omega
      | true =>
        have hnear := hhalf hf
        have hbound := hb.len_lt
        rw [fwd_add_ofNat] at hnear
        rw [hlen] at hbound
        rw [hf] at horder
        simp only [if_true] at horder
        omega
    have hkeep : v.noted buf x false = v := by
      simp [Conn.noted, Conn.ackedNxt, hno]
    rw [hkeep]
    exact h

theorem Conn.Draining.removed (h : v.Draining) (hl : Live v) (ht : v.Tallied) (hb : Based cfg v)
    (hsize : cfg.sndbufSize < 2147483647) {buf : TcpSendBuffer} (hbuf : v.sndbuf = some buf)
    {x : UInt32} (hs : v.state.sending) (hpos : 0 < fwd buf.headSeq x)
    (hle : fwd buf.headSeq x ≤ v.sent) {w : Conn} (hst : w.state = v.state)
    (hfin : w.finSent = v.finSent) (hsent : w.sent = v.sent - fwd buf.headSeq x)
    (hlen : w.sendLen = v.sendLen - fwd buf.headSeq x) (hbase : w.sendBase = x)
    (huna : w.sndUna = x) (hnxt : w.sndNxt = v.ackedNxt x false)
    (hrto : w.rto = (gt (v.ackedNxt x false) x && !v.timewait)) (hq : w.sendq = v.sendq)
    (hlist : w.sendList = v.sendList) (hclosing : v.state = .closing → w.sendLen ≤ w.reach)
    (hfins : FinAfterData w.iss w.log) : w.Draining := by
  have horder := h.order hs
  have hspent := ht.sent_le
  have hbound := hb.len_lt_size hsize
  have hone := h.order_le hs
  have hreach : w.reach = 0 ∧ v.reach < fwd buf.headSeq x ∧ w.sndNxt = x ∨
      fwd buf.headSeq x ≤ v.reach ∧ w.reach = v.reach - fwd buf.headSeq x := by
    have hsplit := fwd_trans buf.headSeq x v.sndNxt
    have hback := fwd_trans v.sndNxt x v.sndNxt
    have h1 := fwd_lt x v.sndNxt
    have h2 := fwd_lt v.sndNxt x
    rw [fwd_self] at hback
    rw [Conn.reach, sendBase_some hbuf] at hone
    rw [Conn.reach, hbase, hnxt, Conn.reach, sendBase_some hbuf]
    unfold Conn.ackedNxt
    rw [if_neg Bool.false_ne_true]
    by_cases hgt : gt x v.sndNxt
    · rw [if_pos hgt, fwd_self]
      rw [gt_iff] at hgt
      exact .inl ⟨rfl, by omega, rfl⟩
    · rw [if_neg hgt]
      rw [Bool.not_eq_true, not_gt_iff] at hgt
      exact .inr (by omega)
  refine ⟨fun _ => ?_, fun _ hf => ?_, fun _ _ hne => ?_, fun _ hlt => ?_, fun hbg hsd => ?_,
    fun hcl => hclosing (hst.symm.trans hcl), hfins⟩
  · rw [hlen, hfin]
    omega
  · rw [hsent, hlen, h.spent hs (hfin ▸ hf)]
  · rw [hrto, sending_timewait hl hs, Bool.not_false, Bool.and_true, ← hnxt, gt_iff, ← hbase]
    change 0 < w.reach ∧ w.reach < 2147483648
    obtain ⟨-, -, hx⟩ | ⟨hge, heq⟩ := hreach
    · rw [huna] at hne
      exact absurd hx.symm hne
    · refine ⟨Nat.pos_of_ne_zero fun hz => hne ?_, by omega⟩
      rw [huna, ← hbase]
      exact (eq_of_fwd_eq_zero hz).symm
  · rw [hq, hlist]
    refine h.queued hs ?_
    rw [hlen] at hlt
    omega
  · rw [hq]
    rw [hst] at hbg hsd
    exact h.listed hbg hsd

theorem Conn.Draining.acked (h : v.Draining) (hl : Live v) (ht : v.Tallied) (hb : Based cfg v)
    (hsize : cfg.sndbufSize < 2147483647) {buf : TcpSendBuffer} {x : UInt32} {fast : Bool}
    (hg : guard cfg v (.ack buf x fast))
    (hx : geq (v.iss + 1 + ofNat (sentEnd v.iss v.log)) x) (hdup : fast → x = v.sndUna)
    (hhalf : v.finSent → fwd x (buf.headSeq + ofNat buf.len) < 2147483647)
    (hclosing : v.state = .closing → fast → buf.len = 0) : (v.acked buf x fast).Draining := by
  have hst : (v.acked buf x fast).state = v.state := apply_state v (.ack buf x fast)
  have hfins : FinAfterData (v.acked buf x fast).iss (v.acked buf x fast).log :=
    fins_apply h.fins hg rfl fun _ => nofun
  obtain ⟨hbuf, hgt, -⟩ := hg
  by_cases hs : v.state.sending
  · have hout : v.state = .closing → (v.acked buf x fast).sendLen ≤ (v.acked buf x fast).reach := by
      intro hcl
      refine acked_out hb hsize hbuf hgt (ht.not_far hb hbuf hx) (h.order_le hs) (h.settled hcl) ?_
      exact hclosing hcl
    obtain ⟨hle, -, -, hw⟩ | ⟨hpos, hle, -, rest, -, -, hhead, hrest, -, hw⟩ :=
      acked_cases fast hb hbuf hgt (ht.not_far hb hbuf hx)
    · rw [hw] at hout ⊢
      exact h.noted hb hbuf hs hle hdup hhalf hout
    · have hslow : fast = false := by
        cases fast with
        | false => rfl
        | true =>
          rw [hdup rfl, hb.una hs, sendBase_some hbuf, fwd_self] at hpos
          cases hpos
      subst hslow
      rw [hw] at hst hfins hout ⊢
      have hne : buf.len ≠ 0 := by omega
      refine h.removed hl ht hb hsize hbuf hs hpos (ht.le_sent hb hbuf hle hx) hst rfl ?_ ?_ hhead
        rfl rfl rfl
        rfl ?_ hout hfins
      · exact Nat.sub_add_eq _ _ _
      · rw [sendLen_some hbuf]
        exact hrest
      · simp [Conn.noted, hne]
  · exact .of_idle (hst ▸ eq_false_of_ne_true hs) hfins

theorem Conn.Draining.emitData (h : v.Draining) (hl : Live v) (ht : v.Tallied) (hb : Based cfg v)
    {buf : TcpSendBuffer} {seg : Segment} (hg : guard cfg v (.emitData buf seg)) :
    (Move.apply v (.emitData buf seg)).Draining := by
  have hfins := fins_apply h.fins hg rfl fun _ hput => by cases hput
  have hnew := ht.emitData hb hg
  have haligned := emitData_aligned hb hg
  obtain ⟨hflush, hlist, -, -, -, hplain, -⟩ := hg
  have hs : v.state.sending := by
    generalize v.state = st at hflush
    cases st <;> first | rfl | cases hflush
  have hnot : v.state ≠ .closing := by
    intro hst
    rw [hst] at hflush
    cases hflush
  have hfin := emitted_finSent v hplain.2.1
  refine ⟨fun _ => Nat.le_add_right_of_le haligned, fun _ hf => ?_, fun _ hr hne => ?_,
    fun _ _ => .inr hlist, h.listed, fun hst => absurd hst hnot, hfins⟩
  · have hle := hnew.sent_le
    have hold := h.spent hs (hfin ▸ hf)
    refine Nat.le_antisymm hle ?_
    change v.sendLen ≤ sentEnd v.iss (.emit seg :: v.log) - released v.log
    rw [← hold, Conn.sent]
    refine Nat.sub_le_sub_right ?_ _
    rw [sentEnd]
    split
    · exact Nat.le_refl _
    · exact le_max_left _ _
  · change v.sndUna ≠ v.sndNxt + ofNat seg.payload.length +
      (if seg.syn || seg.fin then 1 else 0) at hne
    change (if 0 < seg.payload.length || seg.syn || seg.fin then v.rto || !v.timewait else v.rto) =
      true
    rw [hplain.1, hplain.2.1] at hne ⊢
    by_cases hpay : 0 < seg.payload.length
    · simp [hpay, sending_timewait hl hs]
    · have h0 : seg.payload.length = 0 := by omega
      rw [h0] at hne ⊢
      refine h.timed hs hr ?_
      simpa using hne

theorem Conn.Draining.all_sent (h : v.Draining) (ht : v.Tallied) {seg : Segment}
    (hg : guard cfg v (.emitFin seg)) : v.sent = v.sendLen := by
  obtain ⟨hs, hbg⟩ := emitFin_state hg
  obtain ⟨-, -, -, -, -, -, -, hst⟩ := hg
  cases hf : v.finSent with
  | true => exact h.spent hs hf
  | false =>
    have horder := h.order hs
    rw [hf] at horder
    have hreach : v.sendLen ≤ v.reach := by
      obtain ⟨-, hlist⟩ | ⟨hst, -⟩ := hst
      · by_contra hlt
        obtain hq | hq := h.queued hs (Nat.not_le.mp hlt)
        · rw [h.listed hbg hs] at hq
          cases hq
        · rw [hlist] at hq
          cases hq
      · exact h.settled hst
    have hle := ht.sent_le
    simp only [Bool.false_eq_true, if_false, Nat.add_zero] at horder
    obtain hnext | hnext := ht.next hs
    · omega
    · omega

theorem Conn.Draining.emitFin (h : v.Draining) (hl : Live v) (ht : v.Tallied) (hb : Based cfg v)
    (hf : Finishing v) {seg : Segment} (hg : guard cfg v (.emitFin seg))
    (hplace : fwd v.sndNxt v.fss < 2147483648) : (Move.apply v (.emitFin seg)).Draining := by
  have hall := h.all_sent ht hg
  have hsame := sameTally_apply hg rfl (fun _ _ _ => nofun) (fun _ _ => nofun) fun _ _ => nofun
  obtain ⟨hs, hbg⟩ := emitFin_state hg
  obtain ⟨hsyn, hfin, -, -, hpay, -, hseq, hst⟩ := hg
  have hlen := hb.len_lt
  have hend := hf.fixed (.inr (.inl hbg))
  have hreach : v.reach ≤ v.sendLen := by
    have horder := h.order_le hs
    have hsplit := fwd_trans v.sndNxt v.sendBase v.fss
    have hround := fwd_trans v.sndNxt v.sendBase v.sndNxt
    have hlt := fwd_lt v.sndNxt v.sendBase
    rw [fwd_self] at hround
    rw [hend, Conn.bufEnd, fwd_add_ofNat v.sendBase, fwd_self] at hsplit
    rw [hend, Conn.bufEnd] at hplace
    rw [Conn.reach] at horder ⊢
    omega
  have hnxt : (Move.apply v (.emitFin seg)).reach = v.reach + 1 := by
    change fwd v.sendBase (v.sndNxt + ofNat seg.payload.length +
      (if seg.syn || seg.fin then 1 else 0)) = _
    rw [hpay, hsyn, hfin]
    change fwd v.sendBase (v.sndNxt + 0 + 1) = _
    rw [UInt32.add_zero, fwd_add_one]
    change (v.reach + 1) % 4294967296 = v.reach + 1
    omega
  have hsent : (v.emitted seg).finSent := by
    change (v.finSent || seg.fin)
    rw [hfin, Bool.or_true]
  refine ⟨fun _ => ?_, fun _ _ => ?_, fun _ _ _ => ?_, fun _ hlt => ?_, h.listed, fun hcl => ?_,
    h.fins.cons _ fun seg' heq _ k hk => ?_⟩
  · rw [hnxt, hsame.sendLen, show (Move.apply v (.emitFin seg)).finSent from hsent]
    exact Nat.add_le_add_right hreach 1
  · rw [hsame.sent, hsame.sendLen, hall]
  · change (if 0 < seg.payload.length || seg.syn || seg.fin then v.rto || !v.timewait else v.rto) =
      true
    rw [hfin, Bool.or_true, if_pos rfl, sending_timewait hl hs]
    exact Bool.or_true _
  · rw [hnxt, hsame.sendLen] at hlt
    exact h.queued hs (by omega)
  · have hset := h.settled hcl
    rw [hnxt, hsame.sendLen]
    omega
  · obtain rfl := Effect.emit.inj heq
    have hstart : payloadStart v.iss v.log seg = released v.log + v.sendLen := by
      rw [payloadStart, ← ht.base, hseq, hend, Conn.bufEnd, fwd_add_ofNat, fwd_self]
      omega
    by_cases hold : k < released v.log
    · exact ht.accounts.first.released hold
    · refine ht.accounts.dense k (Nat.not_lt.mp hold) ?_
      have hlow := ht.accounts.low
      rw [Conn.sent] at hall
      omega

theorem Conn.Draining.opened (hl : Live v) (ho : Opening v) (hearly : v.state.early)
    (hbuf : w.sndbuf = v.sndbuf) (hiss : w.iss = v.iss) (huna : w.sndUna = v.sndUna + 1)
    (hnxt : w.sndNxt = v.iss + 1) (hfin : w.finSent = v.finSent) (hbegun : w.state.begun = false)
    (hfins : FinAfterData w.iss w.log) : w.Draining := by
  have hnone : w.sndbuf = none := hbuf.trans (hl.shape.sndbuf hearly)
  have hlen : w.sendLen = 0 := by rw [Conn.sendLen, hnone]
  have hreach : w.reach = 0 := by
    rw [Conn.reach, Conn.sendBase, hnone, hnxt, hiss]
    exact fwd_self _
  refine ⟨fun _ => ?_, fun _ hf => ?_, fun _ _ hne => absurd ?_ hne, fun _ hlt => ?_,
    fun hb => ?_, fun hst => ?_, hfins⟩
  · rw [hreach]
    exact Nat.zero_le _
  · rw [hfin, (hl.shape.closing hearly).2.2] at hf
    cases hf
  · rw [huna, hnxt, ho.una hearly]
  · rw [hlen] at hlt
    cases hlt
  · rw [hbegun] at hb
    cases hb
  · rw [hst] at hbegun
    cases hbegun

theorem Conn.Draining.put (h : v.Draining) (hf : Finishing v) (hb : Based cfg v)
    {buf : TcpSendBuffer} {bytes : List UInt8} (hg : guard cfg v (.put buf bytes)) :
    (Move.apply v (.put buf bytes)).Draining := by
  have hfins := fins_apply h.fins hg rfl fun _ hput => by cases hput
  obtain ⟨-, -, hhead, hlen⟩ := put_spec hb hg
  have hflow : v.state.flows := flows_iff.mpr hg.1
  have hs := flows_sending hflow
  have hnofin : v.finSent = false := hf.finSent_eq (.inr hflow)
  have hnot : v.state.begun = false := flows_not_begun hflow
  refine ⟨fun _ => ?_, fun _ hfin => ?_, fun _ => h.timed hs, fun _ _ => ?_, fun hbg => ?_,
    fun hst => ?_, hfins⟩
  · have horder := h.order hs
    rw [hnofin] at horder
    change fwd (sbPut buf bytes).2.headSeq v.sndNxt ≤ (sbPut buf bytes).2.len + _
    rw [hhead, hlen]
    simp only [Bool.false_eq_true, if_false, Nat.add_zero, Conn.reach] at horder
    omega
  · exact absurd (hnofin.symm.trans hfin) Bool.false_ne_true
  · change (v.sendq || !v.sendList) ∨ v.sendList
    cases v.sendList with
    | true => exact .inr rfl
    | false => exact .inl (by simp)
  · exact absurd (hnot.symm.trans hbg) Bool.false_ne_true
  · rw [show v.state = .closing from hst] at hnot
    cases hnot

theorem retransmitted_listed (hb : Based cfg v) (hf : Finishing v) (hs : v.state.sending)
    (hpos : 0 < v.sendLen) : v.retransmitted.sendList := by
  have hbelow : v.state.begun → lt v.sndUna v.fss := by
    intro hbg
    have hlen := hb.len_lt
    have hround := fwd_trans v.sendBase v.bufEnd v.sendBase
    have hlt := fwd_lt v.bufEnd v.sendBase
    rw [fwd_self, Conn.bufEnd, fwd_add_ofNat, fwd_self] at hround
    rw [hb.una hs, hf.fixed (.inr (.inl hbg)), lt_iff, Conn.bufEnd]
    rw [Conn.bufEnd] at hlt
    omega
  unfold Conn.retransmitted
  cases hst : v.state <;> rw [hst] at hs hbelow <;> dsimp only <;> first
    | exact absurd hs (by decide)
    | rfl
    | rw [if_pos (hbelow rfl)]

theorem Conn.Draining.retransmitted (h : v.Draining) (hb : Based cfg v) (hf : Finishing v)
    (hg : guard cfg v .retransmit) (hclosing : v.state = .closing → v.sendLen = 0) :
    v.retransmitted.Draining := by
  have hst : v.retransmitted.state = v.state := apply_state v .retransmit
  have hsame : SameTally v v.retransmitted :=
    sameTally_apply hg rfl (fun _ _ _ => nofun) (fun _ _ => nofun) fun _ _ => nofun
  have hfins : FinAfterData v.retransmitted.iss v.retransmitted.log :=
    fins_apply h.fins hg rfl fun _ => nofun
  obtain ⟨-, -, hfin, hq⟩ := retransmitted_frame v
  obtain ⟨huna, -, hnxt⟩ := retransmitted_una v
  by_cases hs : v.state.sending
  · have hreach : v.retransmitted.reach = 0 := by
      rw [Conn.reach, hsame.sendBase, hnxt, hb.una hs, fwd_self]
    refine ⟨fun _ => ?_, fun _ hf' => ?_, fun _ _ hne => absurd (huna.trans hnxt.symm) hne,
      fun _ hlt => ?_, fun hbg hsd => ?_, fun hcl => ?_, hfins⟩
    · rw [hreach]
      exact Nat.zero_le _
    · rw [hsame.sent, hsame.sendLen]
      exact h.spent hs (hfin ▸ hf')
    · rw [hreach, hsame.sendLen] at hlt
      exact .inr (retransmitted_listed hb hf hs hlt)
    · rw [hq.sendq]
      rw [hst] at hbg hsd
      exact h.listed hbg hsd
    · rw [hst] at hcl
      rw [hsame.sendLen, hclosing hcl]
      exact Nat.zero_le _
  · exact .of_idle (hst ▸ eq_false_of_ne_true hs) hfins

/-! What the events have to do with it. -/

theorem dupAtUna_move {fast : Bool} (hc : onAccepted dupAtUna cfg s e)
    (hcause : Cause cfg s e v (.ack buf x fast)) (hfast : fast) : x = v.sndUna := by
  obtain ⟨seg, he, hr, rfl, hv, -, -, hsame, hdup, -⟩ := hcause
  have h := onAccepted_rx hc he hr hv
  have huna : v.sndUna = s.sndvar.sndUna := hsame.sndUna
  rw [huna]
  simpa [dupAtUna, hdup hfast] using h

theorem noLateSyn_move (hc : noLateSyn s e.2) : ¬ Cause cfg s e v (.jump x) := by
  rintro ⟨seg, he, hst, hsyn, -⟩
  rw [he, noLateSyn, hst, hsyn] at hc
  exact absurd hc (by decide)

theorem holdsData_of (hbuf : s.sndvar.sndbuf = some buf) (hne : buf.len ≠ 0) : holdsData s := by
  rw [holdsData, hbuf]
  exact bne_iff_ne.mpr hne

theorem noDupInClosing_move {fast : Bool} (hc : onAccepted noDupInClosing cfg s e)
    (hg : guard cfg v (.ack buf x fast)) (hcause : Cause cfg s e v (.ack buf x fast))
    (hst : v.state = .closing) (hfast : fast) : buf.len = 0 := by
  obtain ⟨seg, he, hr, rfl, hv, -, -, hsame, hdup, hstate, -⟩ := hcause
  have h := onAccepted_rx hc he hr hv
  by_contra hne
  have hdata := holdsData_of (hsame.sndbuf.symm.trans hg.1) hne
  simp [noDupInClosing, ← hstate, hst, hdata, hdup hfast] at h

theorem noTimeoutInClosing_move (hc : noTimeoutInClosing s e)
    (hcause : Cause cfg s e v .retransmit) (hst : v.state = .closing) : v.sendLen = 0 := by
  obtain ⟨he, hexp, hstate, hsame⟩ := hcause
  by_contra hne
  rw [Conn.sendLen, hsame.sndbuf] at hne
  have hdata : holdsData s := by
    cases hbuf : s.sndvar.sndbuf with
    | none =>
      rw [show (conn s).sndbuf = none from hbuf] at hne
      exact absurd rfl hne
    | some buf =>
      rw [show (conn s).sndbuf = some buf from hbuf] at hne
      exact holdsData_of hbuf hne
  rw [noTimeoutInClosing, he] at hc
  simp [← hstate, hst, hdata, hexp] at hc

theorem SameSend.sendLen (h : SameSend v w) : v.sendLen = w.sendLen := by
  rw [Conn.sendLen, h.sndbuf, Conn.sendLen]

theorem SameSend.reach (h : SameSend v w) : v.reach = w.reach := by
  rw [Conn.reach, Conn.sendBase, h.sndbuf, h.iss, h.sndNxt, Conn.reach, Conn.sendBase]

theorem finFindsAllOut_move {seq : UInt32} {dest : TcpState} (hsize : cfg.sndbufSize < 2147483647)
    (hack : onAccepted ackOfSent cfg s e) (hc : onAccepted finFindsAllOut cfg s e)
    (hb : Based cfg (conn s)) (ht : (conn s).Tallied) (h : (conn s).Draining) (hl : Live v)
    (hcause : Cause cfg s e v (.peerFin seq dest)) (hst : v.state = .finWait1) :
    v.sendLen ≤ v.reach := by
  obtain ⟨seg, he, hfin, hr, -, hdone⟩ := hcause
  obtain ⟨hfrom, -, hv, hdone⟩ := hdone hst
  have hdone := hdone hl.fault
  have hof := onAccepted_rx hack he hr hv
  have hout := onAccepted_rx hc he hr hv
  unfold AckDone at hdone
  unfold ackOfSent at hof
  cases hbuf : s.sndvar.sndbuf with
  | none =>
    rw [hbuf] at hdone
    rw [hdone.sendLen, Conn.sendLen, show (conn s).sndbuf = none from hbuf]
    exact Nat.zero_le _
  | some buf =>
    have hconn : (conn s).sndbuf = some buf := hbuf
    have hfacts : (conn s).sendLen ≤ (conn s).reach ∧ (thirdDuplicate seg s → buf.len = 0) := by
      rw [Conn.reach, sendBase_some hconn, sendLen_some hconn]
      by_cases hempty : buf.len = 0
      · exact ⟨hempty ▸ Nat.zero_le _, fun _ => hempty⟩
      · have hdata := holdsData_of hbuf hempty
        simp only [finFindsAllOut, hfrom, hfin, hdata, allOut, hbuf] at hout
        simp only [beq_self_eq_true, Bool.and_self, Bool.not_true, Bool.false_or, Bool.and_eq_true,
          decide_eq_true_eq, Bool.not_eq_true'] at hout
        exact ⟨hout.1, fun hthird => absurd (hout.2.symm.trans hthird) Bool.false_ne_true⟩
    rw [hbuf] at hdone hof
    dsimp only at hdone hof
    by_cases hgt : gt (effectiveAck seg s) (buf.headSeq + ofNat buf.len)
    · rw [if_pos hgt] at hdone
      rw [hdone.sendLen, hdone.reach]
      exact hfacts.1
    · rw [if_neg hgt] at hdone
      have hno := eq_false_of_ne_true hgt
      obtain ⟨fast, hsame, hfast⟩ := hdone
      rw [hno, Bool.false_or, highestSent_eq (SameSend.refl (conn s))] at hof
      rw [hsame.sendLen, hsame.reach]
      exact acked_out hb hsize hconn hno (ht.not_far hb hconn hof)
        (h.order_le (by rw [show (conn s).state = .finWait1 from hfrom]; rfl)) hfacts.1
        fun hf => hfacts.2 (hfast hf)

theorem Conn.Draining.unqueue (h : v.Draining) (hl : Live v) (hb : Based cfg v)
    (hg : guard cfg v .unqueue) : (Move.apply v .unqueue).Draining := by
  refine ⟨h.order, h.spent, h.timed, fun hs hlt => ?_, h.listed, h.settled, h.fins⟩
  change v.state.sending at hs
  change v.reach < v.sendLen at hlt
  by_cases hcl : v.state = .closing
  · exact absurd hlt (Nat.not_lt.mpr (h.settled hcl))
  · have hflush : v.state.flushes := by
      generalize v.state = st at hs hcl
      cases st <;> first | rfl | exact absurd rfl hcl | cases hs
    obtain ⟨buf, hbuf, hend⟩ := hg hl.fault hflush
    have hlen := hb.len_lt
    rw [Conn.reach, sendBase_some hbuf, sendLen_some hbuf] at hlt
    rw [sendLen_some hbuf] at hlen
    obtain hend | hend := hend
    · omega
    · rw [hend, fwd_add_ofNat, fwd_self] at hlt
      omega

theorem Conn.Draining.frame (hsyn : noLateSyn s e.2) (hdrain : drainedClose s e.2)
    (hl : Live v) (ho : Opening v) (h : v.Draining) (hg : m.guard cfg v) (hm : m.calm)
    (hcause : Cause cfg s e v m) (hsame : SameTally v (m.apply v))
    (hfins : FinAfterData (m.apply v).iss (m.apply v).log)
    (hclosing : ∀ seq dest, m = .peerFin seq dest → v.state = .finWait1 → v.sendLen ≤ v.reach)
    (hfin : ∀ seg, m ≠ .emitFin seg) (hack : ∀ buf x fast, m ≠ .ack buf x fast)
    (hdata : ∀ buf seg, m ≠ .emitData buf seg) (hput : ∀ buf bytes, m ≠ .put buf bytes)
    (hrtx : m ≠ .retransmit) (hun : m ≠ .unqueue) : (m.apply v).Draining := by
  have hst := apply_state v m
  have hidle : ∀ st, (m.apply v).state = st → st.sending = false → (m.apply v).Draining := by
    rintro st rfl hs
    exact .of_idle hs hfins
  have hopened : ∀ st, v.state = st → st.early →
      (m.apply v).sndbuf = v.sndbuf → (m.apply v).sndUna = v.sndUna + 1 →
      (m.apply v).sndNxt = v.iss + 1 → (m.apply v).finSent = v.finSent →
      (m.apply v).state.begun = false → (m.apply v).Draining := by
    rintro st rfl hearly hbuf huna hnxt hsent hbegun
    exact .opened hl ho hearly hbuf hsame.iss huna hnxt hsent hbegun hfins
  have hsends : ∀ st, v.state = st → st.sending → v.state.sending := by
    rintro st rfl hs
    exact hs
  cases m with
  | crash | assertFail | destroy => cases hm
  | ack buf x fast => exact absurd rfl (hack buf x fast)
  | emitFin seg => exact absurd rfl (hfin seg)
  | emitData buf seg => exact absurd rfl (hdata buf seg)
  | put buf bytes => exact absurd rfl (hput buf bytes)
  | retransmit => exact absurd rfl hrtx
  | unqueue => exact absurd rfl hun
  | jump x => exact absurd hcause (noLateSyn_move hsyn)
  | shut r | listen seq | loneSyn seq | finAcked | closingAcked | lastAcked =>
    exact hidle _ hst rfl
  | bareAck => exact hidle _ (hst.trans hg.1) rfl
  | restart | timewait keep => exact hidle _ (hst.trans hg) rfl
  | emitSyn seg =>
    obtain ⟨hfrom, -⟩ | ⟨hfrom, -⟩ := hg.2.2.2.2.2.2
    · exact hidle _ (hst.trans hfrom) rfl
    · exact hidle _ (hst.trans hfrom) rfl
  | emitRst seg => exact hidle _ (hst.trans hg.2.2.2.2.2.2.2) rfl
  | refused =>
    obtain ⟨hfrom, a, ha⟩ := hg
    exact hopened _ hfrom rfl rfl rfl (ho.acceptable hfrom ha).2 rfl rfl
  | synAck seq a => exact hopened _ hg.2.1 rfl rfl rfl (ho.acceptable hg.2.1 hg.2.2).1 rfl rfl
  | ackOfSyn => exact hopened _ hg.2 rfl rfl rfl rfl rfl rfl
  | blame | expire =>
    exact SameDrain.draining ⟨hsame, rfl, rfl, rfl, rfl, rfl, fun hr => absurd hr hg⟩ h id h.listed
      h.settled hfins
  | reset =>
    refine SameDrain.draining ⟨hsame, rfl, rfl, rfl, rfl, rfl, nofun⟩ h (fun _ => ?_) nofun nofun
      hfins
    obtain hfrom | hfrom := hg
    · exact hsends _ hfrom rfl
    · exact hsends _ hfrom rfl
  | peerFin seq dest =>
    have hcl := hclosing seq dest rfl
    have hlisted : v.state = .finWait1 → v.sendq = false := by
      intro hfrom
      exact h.listed (by rw [hfrom]; rfl) (by rw [hfrom]; rfl)
    have hkeep : SameDrain v (Move.apply v (.peerFin seq dest)) :=
      ⟨hsame, rfl, rfl, rfl, rfl, rfl, fun hr => ⟨hr, rfl⟩⟩
    obtain ⟨hfrom, rfl⟩ | ⟨hfrom, rfl⟩ | ⟨-, rfl⟩ | ⟨-, rfl⟩ := hg.2
    · exact hkeep.draining h (fun _ => hsends _ hfrom rfl) nofun nofun hfins
    · exact hkeep.draining h (fun _ => hsends _ hfrom rfl) (fun _ _ => hlisted hfrom)
        (fun _ => hcl hfrom) hfins
    · exact hidle _ hst rfl
    · exact hidle _ hst rfl
  | takeSendq =>
    exact ⟨h.order, h.spent, h.timed, fun _ _ => .inr rfl, fun _ _ => rfl, h.settled, h.fins⟩
  | beginClose =>
    have hnot : (Move.apply v .beginClose).state ≠ .closing := by
      rw [hst]
      change (if v.state = .established then TcpState.finWait1 else .lastAck) ≠ .closing
      split <;> nofun
    refine SameDrain.draining ⟨hsame, rfl, rfl, rfl, rfl, rfl, fun hr => ⟨hr, rfl⟩⟩ h
      (fun _ => flows_sending (flows_iff.mpr hg.1)) (fun _ _ => drainedClose_move hdrain hcause)
      (fun hcl => absurd hcl hnot) hfins
  | emitAck seg =>
    refine SameDrain.draining ⟨hsame, emitted_sndNxt_plain v hg.1 hg.2.1, rfl,
      emitted_finSent v hg.1.2.1, rfl, rfl, fun hr => ⟨hr, ?_⟩⟩ h id h.listed h.settled hfins
    change (if 0 < seg.payload.length || seg.syn || seg.fin then v.rto || !v.timewait
      else v.rto) = _
    rw [hg.2.1, hg.1.1, hg.1.2.1]
    rfl
  | _ =>
    exact SameDrain.draining ⟨hsame, rfl, rfl, rfl, rfl, rfl, fun hr => ⟨hr, rfl⟩⟩ h id h.listed
      h.settled hfins

structure Conn.Clean (cfg : Config) (v : Conn) : Prop where
  kept : FinKept cfg v
  tallied : v.Tallied
  draining : v.Draining

theorem Conn.Clean.tallied_apply (hc : cleanClose cfg s e) (hl : Live v) (h : v.Clean cfg)
    (hg : m.guard cfg v) (hm : m.calm) (hcause : Cause cfg s e v m) : (m.apply v).Tallied := by
  obtain ⟨-, hsyn, hack, -⟩ := cleanClose_iff.mp hc
  refine h.tallied.apply hl h.kept.opening h.kept.based hg hm ?_ ?_ ?_
  · rintro buf x fast rfl
    exact ackOfSent_move hack hg hcause
  · rintro x rfl
    exact absurd hcause (noLateSyn_move hsyn)
  · rintro seg rfl _
    exact h.draining.all_sent h.tallied hg

theorem Conn.Draining.apply (hsize : cfg.sndbufSize < 2147483647) (hc : cleanClose cfg s e)
    (hl : Live v) (hs : (conn s).Clean cfg) (h : v.Clean cfg) (hg : m.guard cfg v)
    (hm : m.calm) (hcause : Cause cfg s e v m) : (m.apply v).Draining := by
  obtain ⟨hkept, hsyn, hack, hdup, hdrain, hfin, hclosing, htimeout⟩ := cleanClose_iff.mp hc
  obtain ⟨-, hhalf, -, -, hplace⟩ := finKept_iff.mp hkept
  obtain ⟨⟨ho, hb, hf, -⟩, ht, hd⟩ := h
  have hst := apply_state v m
  cases m with
  | ack buf x fast =>
    refine hd.acked hl ht hb hsize hg (ackOfSent_move hack hg hcause) (dupAtUna_move hdup hcause)
      ?_ (noDupInClosing_move hclosing hg hcause)
    exact fun hsent => halfAck_move hhalf hg hcause (.inr hsent)
  | emitData buf seg => exact hd.emitData hl ht hb hg
  | emitFin seg => exact hd.emitFin hl ht hb hf hg (finInPlace_move hplace hg hcause)
  | put buf bytes => exact hd.put hf hb hg
  | retransmit =>
    exact hd.retransmitted hb hf hg (noTimeoutInClosing_move htimeout hcause)
  | unqueue => exact hd.unqueue hl hb hg
  | _ =>
    refine hd.frame hsyn hdrain hl ho hg hm hcause
      (sameTally_apply hg hm (fun _ _ _ => nofun) (fun _ _ => nofun) fun _ _ => nofun)
      (fins_apply hd.fins hg hm fun _ => nofun) ?_ (fun _ => nofun) (fun _ _ _ => nofun)
      (fun _ _ => nofun) (fun _ _ => nofun) nofun nofun
    rintro seq dest heq hfrom
    rw [heq] at hcause
    exact finFindsAllOut_move hsize hack hfin hs.kept.based hs.tallied hs.draining hl hcause hfrom

theorem Started.clean (h : Started v) : v.Clean cfg := by
  have hfins : FinAfterData v.iss v.log := by
    intro newer older seg heq
    cases h with
    | active iss connects _ => cases newer <;> cases heq
    | passive iss seq =>
      cases newer with
      | nil => cases heq
      | cons e newer => cases newer <;> cases heq
  refine ⟨finKept_started h, h.tallied, .of_idle ?_ hfins⟩
  cases h with
  | active | passive => rfl

theorem Conn.Clean.pending (h : v.Clean cfg) (hs : v.state.sending)
    (hbg : v.state.begun) (hbelow : lt v.sndUna v.fss) (hr : v.reason = .notClosed) :
    v.rto ∨ v.state ≠ .closing ∧ (v.sendq ∨ v.sendList) := by
  have hpos : 0 < v.sendLen := by
    rw [h.kept.based.una hs, h.kept.finishing.fixed (.inr (.inl hbg)), lt_iff] at hbelow
    refine Nat.pos_of_ne_zero fun hz => ?_
    rw [Conn.bufEnd, hz, show UInt32.ofNat 0 = 0 from rfl, UInt32.add_zero, fwd_self] at hbelow
    cases hbelow
  by_cases hlt : v.reach < v.sendLen
  · refine .inr ⟨fun hcl => ?_, h.draining.queued hs hlt⟩
    exact absurd hlt (Nat.not_lt.mpr (h.draining.settled hcl))
  · refine .inl (h.draining.timed hs hr fun heq => ?_)
    rw [Conn.reach, ← h.kept.based.una hs, heq, fwd_self] at hlt
    exact hlt hpos

/-- In a run in which the close, the peer's FIN and the timer come in turn, a FIN goes out only
after all bytes before it, and as long as one of them is unacknowledged, the stream is timed or is
going to be flushed. -/
theorem close_drains_data {es : List (Env × Action)} (hs : Opened cfg s)
    (hsize : cfg.sndbufSize < 2147483647)
    (ha : Along (step cfg) (fun s e => cleanClose cfg s e = true) s es)
    (hf : (run cfg s es).fault = none) (hl : (run cfg s es).onHashTable = true) :
    let t := run cfg s es
    FinAfterData t.sndvar.iss t.trace ∧
      (t.closeReason = .notClosed →
        t.state = .finWait1 ∨ t.state = .closing ∨ t.state = .lastAck →
        lt t.sndvar.sndUna t.sndvar.fss = true →
        0 ≤ t.onRtoIdx ∨ (t.state = .finWait1 ∨ t.state = .lastAck) ∧
          (t.sndvar.onSendq = true ∨ t.sndvar.onSendList = true)) := by
  have hmove : ∀ s e v m, cleanClose cfg s e = true → Live v →
      (conn s).Clean cfg ∧ v.Clean cfg → m.guard cfg v → m.calm = true → Cause cfg s e v m →
      (conn s).Clean cfg ∧ (Move.apply v m).Clean cfg := by
    rintro s e v m hc hlive ⟨hbefore, h⟩ hg hm hcause
    obtain ⟨hkept, -⟩ := cleanClose_iff.mp hc
    exact ⟨hbefore, h.kept.apply hsize hkept hlive hg hm hcause,
      h.tallied_apply hc hlive hg hm hcause,
      Conn.Draining.apply hsize hc hlive hbefore h hg hm hcause⟩
  obtain ⟨-, h⟩ := run_rule_live (fun _ _ _ h => ⟨h, h⟩) hmove
    (fun _ _ _ _ h => h.2) (fun _ h => h.clean) hs ha hf hl
  generalize run cfg s es = t at *
  have hfins := h.draining.fins
  rw [show (conn t).log = t.trace.filter Effect.kept from rfl] at hfins
  refine ⟨hfins.of_kept, fun hr hst hbelow => ?_⟩
  have hstate : (conn t).state.sending = true ∧ (conn t).state.begun = true := by
    change t.state.sending = true ∧ t.state.begun = true
    obtain hst | hst | hst := hst <;> rw [hst] <;> exact ⟨rfl, rfl⟩
  obtain hrto | ⟨hcl, hqueue⟩ := h.pending hstate.1 hstate.2 hbelow hr
  · exact .inl (of_decide_eq_true hrto)
  · refine .inr ⟨?_, hqueue⟩
    obtain hst | hst | hst := hst
    · exact .inl hst
    · exact absurd hst hcl
    · exact .inr hst

theorem close_drains_data_client :
    let t := run .small client (atRest closedWithData)
    t.state = .finWait1 ∧ lt t.sndvar.sndUna t.sndvar.fss = true ∧
      FinAfterData t.sndvar.iss t.trace ∧
      (t.closeReason = .notClosed →
        t.state = .finWait1 ∨ t.state = .closing ∨ t.state = .lastAck →
        lt t.sndvar.sndUna t.sndvar.fss = true →
        0 ≤ t.onRtoIdx ∨ (t.state = .finWait1 ∨ t.state = .lastAck) ∧
          (t.sndvar.onSendq = true ∨ t.sndvar.onSendList = true)) :=
  ⟨by decide, by decide, close_drains_data client_opened (by decide) (by decide) (by decide)
    (by decide)⟩

/-- The peer's FIN arrives after our close and before the first data pass. -/
def simultaneousClose : List Action :=
  closedWithData ++ [.rx { seq := 501, ackSeq := 101, window := 1000, ack := true, fin := true },
    .dataPass 5]

/-- In CLOSING the data pass drops the stream from the send list, nothing else will send its three
bytes, and the control pass sends the FIN behind them. -/
theorem simultaneous_close_strands_data :
    (let t := run .small client (atRest simultaneousClose)
     t.fault = none ∧ t.state = .closing ∧ t.closeReason = .notClosed ∧
       lt t.sndvar.sndUna t.sndvar.fss = true ∧ t.onRtoIdx < 0 ∧ t.sndvar.onSendq = false ∧
       t.sndvar.onSendList = false) ∧
    (let t := run .small client (atRest (simultaneousClose ++ [.controlPass 1]))
     t.fault = none ∧ hasFin t.trace = true ∧ t.sndvar.fss = t.sndvar.iss + 4 ∧
       sentEnd t.sndvar.iss t.trace = 0) := by
  decide

end Mtcp
