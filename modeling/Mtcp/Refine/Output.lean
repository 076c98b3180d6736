import Mtcp.Refine.Cause

namespace Mtcp

open Serial SendBuffer RingBuffer Bytes Runs UInt32

variable {cfg : Config} {s : TcpStream} {e : Env × Action}

theorem conn_markFin (seg : Segment) (t : TcpStream) :
    conn (markFin seg t) = { conn t with finSent := (conn t).finSent || seg.fin } := by
  unfold markFin
  split
  · next h => simp [conn, h]
  · next h => simp [conn, h]

theorem conn_noteAckSent (env : Env) (flags : Flags) (t : TcpStream) :
    conn (noteAckSent env flags t) = conn t := by
  unfold noteAckSent
  split
  · exact conn_updateTimeoutList _
  · rfl

theorem conn_noteZeroWindow (flags : Flags) (t : TcpStream) :
    conn (noteZeroWindow flags t) = conn t := by
  unfold noteZeroWindow
  split_ifs <;> rfl

theorem conn_advanceSndNxt (seg : Segment) (t : TcpStream) : conn (advanceSndNxt seg t) =
    { conn t with
      sndNxt := (conn t).sndNxt + ofNat seg.payload.length +
        (if seg.syn || seg.fin then 1 else 0) } := by
  unfold advanceSndNxt
  split <;> simp [conn, Segment.payloadlen]

theorem conn_armTimer (env : Env) (seg : Segment) (t : TcpStream) : conn (armTimer env seg t) =
    { conn t with
      rto := if 0 < seg.payload.length || seg.syn || seg.fin then
          (conn t).rto || !(conn t).timewait
        else (conn t).rto } := by
  unfold armTimer
  split
  · exact conn_addtoRTOList _ _
  · rfl

theorem conn_log_emit (seg : Segment) (t : TcpStream) :
    conn (t.log (.emit seg)) = { conn t with log := .emit seg :: (conn t).log } := rfl

theorem conn_sendSegment (env : Env) (t : TcpStream) (flags : Flags) (payload : List UInt8)
    (h : payload.length < 65536) : conn (sendSegment env t flags payload h) =
      (conn t).emitted (buildSegment env t flags payload h) := by
  unfold sendSegment
  rw [conn_armTimer, conn_advanceSndNxt, conn_log_emit, conn_noteZeroWindow, conn_noteAckSent,
    conn_markFin]
  rfl

theorem sendSegment_txRoom (env : Env) (t : TcpStream) (flags : Flags) (payload : List UInt8)
    (h : payload.length < 65536) : (sendSegment env t flags payload h).txRoom = t.txRoom - 1 := by
  obtain ⟨_, _, _, _, _, _, _, _, -, hshape⟩ := sendSegment_shape env t flags payload h
  rw [hshape]

theorem sendTCPPacket_cases (env : Env) (t : TcpStream) (flags : Flags) (payload : List UInt8) :
    ((sendTCPPacket env t flags payload).1 < 0 ∧ (sendTCPPacket env t flags payload).2 = t) ∨
    (0 ≤ (sendTCPPacket env t flags payload).1 ∧ 0 < t.txRoom ∧
      ∃ h, (sendTCPPacket env t flags payload).2 = sendSegment env t flags payload h) := by
  unfold sendTCPPacket
  split
  · exact .inl ⟨by simp, rfl⟩
  · split
    · exact .inl ⟨by simp, rfl⟩
    · next hroom =>
      refine .inr ⟨?_, by omega, ?_, rfl⟩
      · split <;> omega
      · have := t.sndvar.mss.toNat_lt
        omega

theorem toNat_min (a b : UInt32) : (min a b).toNat = min a.toNat b.toNat := by
  change (if a ≤ b then a else b).toNat = _
  split
  · next h => exact (min_eq_left (le_iff_toNat_le.mp h)).symm
  · next h =>
    refine (min_eq_right ?_).symm
    rw [le_iff_toNat_le] at h
    omega

theorem toNat_min_le (a b : UInt32) : (min a b).toNat ≤ a.toNat := by
  rw [toNat_min]
  exact min_le_left _ _

theorem nextPacket_eq (t : TcpStream) (buf : TcpSendBuffer)
    (h : fwd buf.headSeq t.sndNxt ≤ buf.len) : ∃ n, n ≤ buf.len - fwd buf.headSeq t.sndNxt ∧
      nextPacket t buf = slice buf.data (buf.head + fwd buf.headSeq t.sndNxt) n := by
  refine ⟨_, ?_, rfl⟩
  generalize ofNat (remainingWindow t).toNat = r
  generalize t.sndvar.mss.toUInt32 - 12 = m
  have h1 := toNat_min_le (min (ofNat buf.len - (t.sndNxt - buf.headSeq)) r) m
  have h2 := toNat_min_le (ofNat buf.len - (t.sndNxt - buf.headSeq)) r
  have h3 : (ofNat buf.len - (t.sndNxt - buf.headSeq)).toNat ≤
      buf.len - (t.sndNxt - buf.headSeq).toNat := by
    unfold fwd at h
    have := (t.sndNxt - buf.headSeq).toNat_lt
    rw [UInt32.toNat_sub, UInt32.toNat_ofNat']
    omega
  have h4 := Nat.mod_le (min (min (ofNat buf.len - (t.sndNxt - buf.headSeq)) r) m).toNat 65536
  unfold fwd
  omega

theorem eq_end_of_sub_eq_zero {a b : UInt32} {n : Nat} (h : ofNat n - (a - b) = 0) :
    a = b + ofNat n := by
  have hb : a = b + (a - b) := by rw [UInt32.add_comm, UInt32.sub_add_cancel]
  have hn : ofNat n = a - b := by
    rw [← UInt32.sub_add_cancel (UInt32.ofNat n) (a - b), h, UInt32.zero_add]
  rw [hn]
  exact hb

structure Flushed (t : TcpStream) (r : Int × TcpStream) : Prop where
  state : r.2.state = t.state
  sendList : r.2.sndvar.onSendList = t.sndvar.onSendList
  done : 0 ≤ r.1 → r.2.fault = none → ∃ buf, r.2.sndvar.sndbuf = some buf ∧
    (buf.len = 0 ∨ r.2.sndNxt = buf.headSeq + UInt32.ofNat buf.len)

theorem flushPacket_steps (env : Env) (t : TcpStream) (buf : TcpSendBuffer)
    (hst : t.state.flushes) (hsl : t.sndvar.onSendList)
    (hb : t.sndvar.sndbuf = some buf) (hlen : 0 < buf.len) (hord : (conn t).Ordered buf)
    (hlt : (nextPacket t buf).length < 65536) : Steps cfg s e (conn t)
      (conn (sendSegment env t { ack := true } (nextPacket t buf) hlt)) := by
  refine .single (.emitData buf _) ?_ trivial (conn_sendSegment env t _ _ hlt)
  exact ⟨hst, hsl, hb, hlen, hord, ⟨rfl, rfl, rfl, rfl⟩, rfl, rfl, nextPacket_eq t buf hord.2.2⟩

theorem flushLoop_steps (env : Env) (fuel : Nat) (t : TcpStream) (packets : Int)
    (hfuel : t.txRoom < fuel) (hst : t.state.flushes)
    (hsl : t.sndvar.onSendList) (hbuf : ∃ buf, t.sndvar.sndbuf = some buf ∧ 0 < buf.len) :
    Steps cfg s e (conn t) (conn (flushLoop env fuel t packets).2) ∧
      Flushed t (flushLoop env fuel t packets) := by
  induction fuel generalizing t packets with
  | zero => omega
  | succ fuel ih =>
    obtain ⟨buf, hb, hlen⟩ := hbuf
    have hfail : ∀ f, f.sendAssert → ¬ (conn t).Ordered buf →
        Steps cfg s e (conn t) (conn (t.abort f)) ∧ Flushed t (packets, t.abort f) := by
      intro f hf hord
      refine ⟨Reaches.single (.assertFail f) ⟨hf, hst, hsl, buf, hb, hlen, hord⟩ trivial rfl, ?_⟩
      refine ⟨rfl, rfl, ?_⟩
      intro _ hnone
      cases hfault : t.fault <;> simp [TcpStream.abort, hfault] at hnone
    unfold flushLoop
    rw [hb]
    dsimp only
    split_ifs with h1 h2 h3 h4 h5 h6
    · exact hfail _ rfl fun hord => Bool.false_ne_true (hord.1.symm.trans h1)
    · exact hfail _ rfl fun hord => Bool.false_ne_true (hord.2.1.symm.trans h2)
    · exact hfail _ rfl fun hord => absurd hord.2.2 (not_le.mpr h3)
    · exact ⟨Reaches.refl _, rfl, rfl, fun _ _ => ⟨buf, hb, .inr (eq_end_of_sub_eq_zero h4)⟩⟩
    · have hc : conn (probeWindow env t) = conn t := by
        unfold probeWindow
        split
        · exact conn_enqueueACK t .wack
        · rfl
      exact ⟨Reaches.of_eq hc, congrArg Conn.state hc, congrArg Conn.sendList hc, by simp⟩
    · rcases sendTCPPacket_cases env t { ack := true } (nextPacket t buf) with ⟨_, heq⟩ | ⟨hpos, _⟩
      · rw [heq]
        exact ⟨Reaches.refl _, rfl, rfl, by simp⟩
      · omega
    · rcases sendTCPPacket_cases env t { ack := true } (nextPacket t buf)
        with ⟨hneg, _⟩ | ⟨hpos, hroom, hlt, heq⟩
      · exact absurd hneg h6
      · have hord : (conn t).Ordered buf :=
          ⟨eq_false_of_ne_true h1, eq_false_of_ne_true h2, not_lt.mp h3⟩
        have hsend : Steps cfg s e _ _ := flushPacket_steps env t buf hst hsl hb hlen hord hlt
        have hroom' := sendSegment_txRoom env t { ack := true } _ hlt
        have hconn := conn_sendSegment env t { ack := true } _ hlt
        rw [heq]
        generalize sendSegment env t { ack := true } (nextPacket t buf) hlt = t' at *
        have hst' : t'.state = t.state := congrArg Conn.state hconn
        have hsl' : t'.sndvar.onSendList = t.sndvar.onSendList := congrArg Conn.sendList hconn
        have hb' : t'.sndvar.sndbuf = t.sndvar.sndbuf := congrArg Conn.sndbuf hconn
        obtain ⟨hsteps, hstate, hlist, hdone⟩ := ih t' (packets + 1) (by omega)
          (by rw [hst', hst]) (by rw [hsl', hsl]) ⟨buf, by rw [hb', hb], hlen⟩
        exact ⟨hsend.trans hsteps, hstate.trans hst', hlist.trans hsl', hdone⟩

theorem flushTCPSendingBuffer_steps (env : Env) (t : TcpStream) (hst : t.state.flushes)
    (hsl : t.sndvar.onSendList) : Steps cfg s e (conn t) (conn (flushTCPSendingBuffer env t).2) ∧
      Flushed t (flushTCPSendingBuffer env t) := by
  unfold flushTCPSendingBuffer
  split
  · refine ⟨crash_steps _ _ rfl, rfl, rfl, ?_⟩
    intro _ hnone
    exact absurd hnone (Conn.crash_fault (conn t) _)
  · next buf hb =>
    split
    · next hlen => exact ⟨Reaches.refl _, rfl, rfl, fun _ _ => ⟨buf, hb, .inl hlen⟩⟩
    · next hlen =>
      exact flushLoop_steps env _ t 0 (by omega) hst hsl ⟨buf, hb, Nat.pos_of_ne_zero hlen⟩

theorem flushes_of_canFlush {t : TcpStream} (h : canFlush t) : t.state.flushes := by
  simp only [canFlush, Bool.or_eq_true, decide_eq_true_eq] at h
  rcases h with (h | h) | h <;> rw [h] <;> rfl

section rules

variable {R : TcpStream → TcpStream → Prop} (env : Env) (hrefl : ∀ u, R u u)
  (htrans : ∀ {u v w}, R u v → R v w → R u w)
  (habort : ∀ u f, f.sendAssert = true ∨ f = .noSendBuffer → R u (u.abort f))
  (hprobe : ∀ u, R u (probeWindow env u))
  (hsend : ∀ u flags payload h, R u (sendSegment env u flags payload h))

include hrefl htrans habort hprobe hsend

/-- The rule for a flush: what a probe, an emitted segment and a failed assertion keep is kept
by all of it. -/
theorem flushLoop_rule (fuel : Nat) (t : TcpStream) (packets : Int) :
    R t (flushLoop env fuel t packets).2 := by
  induction fuel generalizing t packets with
  | zero => exact hrefl t
  | succ fuel ih =>
    unfold flushLoop
    split
    · exact hrefl t
    · next buf _ =>
      have hpacket : R t (sendTCPPacket env t { ack := true } (nextPacket t buf)).2 := by
        obtain ⟨_, heq⟩ | ⟨_, _, hlt, heq⟩ :=
          sendTCPPacket_cases env t { ack := true } (nextPacket t buf)
        · rw [heq]
          exact hrefl t
        · rw [heq]
          exact hsend t _ _ hlt
      split_ifs
      · exact habort t _ (.inl rfl)
      · exact habort t _ (.inl rfl)
      · exact habort t _ (.inl rfl)
      · exact hrefl t
      · exact hprobe t
      · generalize sendTCPPacket env t { ack := true } (nextPacket t buf) = r at hpacket ⊢
        obtain ⟨ret, w⟩ := r
        dsimp only at hpacket ⊢
        split
        · exact hpacket
        · exact htrans hpacket (ih w _)

theorem flushTCPSendingBuffer_rule (t : TcpStream) : R t (flushTCPSendingBuffer env t).2 := by
  unfold flushTCPSendingBuffer
  split
  · exact habort t _ (.inr rfl)
  · split
    · exact hrefl t
    · exact flushLoop_rule env hrefl htrans habort hprobe hsend _ t 0

theorem sendData_rule (t : TcpStream) : R t (sendData env t).2 := by
  have hflush := flushTCPSendingBuffer_rule env hrefl htrans habort hprobe hsend t
  unfold sendData
  split_ifs
  · exact hrefl t
  · exact hflush
  · exact hflush
  · exact hrefl t

end rules

theorem conn_probeWindow (env : Env) (t : TcpStream) : conn (probeWindow env t) = conn t := by
  unfold probeWindow
  split
  · exact conn_enqueueACK t .wack
  · rfl

theorem sendData_state (env : Env) (t : TcpStream) : (sendData env t).2.state = t.state := by
  apply @sendData_rule (fun u v => v.state = u.state)
  · exact fun u => rfl
  · exact fun h h' => h'.trans h
  · exact fun u f _ => rfl
  · exact fun u => congrArg Conn.state (conn_probeWindow env u)
  · exact fun u flags payload h => congrArg Conn.state (conn_sendSegment env u flags payload h)

theorem sendData_steps (env : Env) (t : TcpStream) (hsl : t.sndvar.onSendList) :
    Steps cfg s e (conn t) (conn (sendData env t).2) ∧ (sendData env t).2.sndvar.onSendList ∧
      (0 ≤ (sendData env t).1 → Move.guard cfg (conn (sendData env t).2) .unqueue) := by
  have hflush : t.state.flushes → Steps cfg s e (conn t) (conn (flushTCPSendingBuffer env t).2) ∧
      (flushTCPSendingBuffer env t).2.sndvar.onSendList ∧
      (0 ≤ (flushTCPSendingBuffer env t).1 →
        Move.guard cfg (conn (flushTCPSendingBuffer env t).2) .unqueue) := by
    intro hst
    have hsteps : Steps cfg s e _ _ ∧ _ := flushTCPSendingBuffer_steps env t hst hsl
    obtain ⟨hsteps, hflushed⟩ := hsteps
    exact ⟨hsteps, hflushed.sendList.trans hsl, fun hret hnone _ => hflushed.done hret hnone⟩
  unfold sendData
  split_ifs with hest hctl hcan
  · exact ⟨Reaches.refl _, hsl, by simp⟩
  · exact hflush (by rw [hest]; rfl)
  · exact hflush (flushes_of_canFlush hcan)
  · refine ⟨Reaches.refl _, hsl, fun _ _ hfl => ?_⟩
    exfalso
    change t.state.flushes at hfl
    simp only [canFlush, Bool.or_eq_true, decide_eq_true_eq, not_or] at hcan
    cases hstate : t.state <;> simp_all [TcpState.flushes]

theorem releaseControl_steps (blocked : Bool) (t : TcpStream)
    (ht : t.controlListWaiting → t.state ≠ .synSent) :
    Steps cfg s e (conn t) (conn (releaseControl blocked t)) := by
  unfold releaseControl
  split
  · next h =>
    simp only [Bool.and_eq_true] at h
    rw [conn_addtoControlList]
    have hun : Steps cfg s e (conn t) { conn t with waiting := false } :=
      Reaches.single .unwait trivial trivial rfl
    exact hun.trans (Reaches.single .control (ht h.1) trivial rfl)
  · exact .refl _

theorem not_synSent_of_waiting {t : TcpStream} (hshape : (conn t).Shape)
    (hwait : t.controlListWaiting) : t.state ≠ .synSent := by
  intro hstate
  have hearly : (conn t).state.early := congrArg TcpState.early hstate
  exact Bool.false_ne_true ((hshape.lists hearly).2.2.symm.trans hwait)

theorem sendData_of_synSent (env : Env) (t : TcpStream) (h : (sendData env t).2.state = .synSent) :
    (sendData env t).2 = t := by
  have hst := sendData_state env t
  unfold sendData at h hst ⊢
  split_ifs at h hst ⊢ with h1 h2 h3
  · rfl
  · rw [h] at hst
    rw [← hst] at h1
    cases h1
  · rw [h] at hst
    simp [canFlush, ← hst] at h3
  · rfl

theorem writeTCPData_steps (env : Env) (t : TcpStream) (hshape : (conn t).Shape) :
    Steps cfg s e (conn t) (conn (writeTCPData env t)) := by
  unfold writeTCPData
  have hun : conn (t.unlink .send) = conn t := conn_unlink t _ (by decide)
  dsimp only
  generalize t.unlink .send = u at hun ⊢
  rw [← hun] at hshape ⊢
  split
  · next hsl =>
    have hdata : Steps cfg s e (conn u) (conn (sendData env u).2) ∧ _ := sendData_steps env u hsl
    have hsyn : (sendData env u).2.controlListWaiting → (sendData env u).2.state ≠ .synSent := by
      intro hwait hstate
      have hsame := sendData_of_synSent env u hstate
      rw [hsame] at hwait hstate
      exact not_synSent_of_waiting hshape hwait hstate
    generalize sendData env u = r at hdata hsyn ⊢
    obtain ⟨ret, w⟩ := r
    obtain ⟨hsteps, hlist, hguard⟩ := hdata
    split
    · rw [conn_link _ _ (by decide)]
      exact hsteps
    · next hret =>
      refine hsteps.trans (Reaches.trans ?_ (releaseControl_steps _ _ hsyn))
      exact .single .unqueue (hguard (not_lt.mp hret)) trivial rfl
  · exact .refl _

/-- A control packet changes nothing and the stream goes back on the list, or moves the listed
connection. -/
def ControlSteps (cfg : Config) (s : TcpStream) (e : Env × Action) (v : Conn)
    (r : Int × TcpStream) : Prop :=
  (r.1 < 0 ∧ Steps cfg s e v { conn r.2 with control := true }) ∨
    (0 ≤ r.1 ∧ Steps cfg s e v (conn r.2))

theorem controlSteps_send (env : Env) (v : Conn) (u : TcpStream) (flags : Flags)
    (hfail : Steps cfg s e v { conn u with control := true })
    (hsend : ∀ seg, seg = buildSegment env u flags [] (by decide) →
      Steps cfg s e v ((conn u).emitted seg)) :
    ControlSteps cfg s e v (sendTCPPacket env u flags []) := by
  rcases sendTCPPacket_cases env u flags [] with ⟨hneg, heq⟩ | ⟨hpos, _, h, heq⟩
  · refine .inl ⟨hneg, ?_⟩
    rw [heq]
    exact hfail
  · refine .inr ⟨hpos, ?_⟩
    rw [heq, conn_sendSegment]
    exact hsend _ rfl

theorem sendControlPacket_steps (env : Env) (t u : TcpStream)
    (he : ∃ room, e.2 = .controlPass room) (hs : conn t = conn s)
    (hctl : t.sndvar.onControlList) (hu : conn u = { conn t with control := false })
    (hul : u.sndvar.onAckList = s.sndvar.onAckList) :
    ControlSteps cfg s e (conn t) (sendControlPacket cfg env u) := by
  have hback : { conn u with control := true } = conn t := by
    rw [hu]
    simp [conn, hctl]
  have hrefl : Steps cfg s e (conn t) { conn u with control := true } := Reaches.of_eq hback
  have hoff : Steps cfg s e (conn t) (conn u) := Reaches.single .uncontrol trivial trivial hu
  have hstate : u.state = t.state := congrArg Conn.state hu
  have hsend : SameSend (conn u) (conn s) := by
    rw [hu, hs]
    exact ⟨rfl, rfl, rfl, rfl, rfl, rfl, rfl, rfl, rfl⟩
  have hack : .established ≤ u.state → ControlSteps cfg s e (conn t) (sendAck env u) := by
    intro hle
    refine controlSteps_send env _ u _ hrefl fun seg hseg => ?_
    subst hseg
    exact hoff.trans (Reaches.single (.emitAck _)
      ⟨⟨rfl, rfl, rfl, rfl⟩, rfl, rfl, .inl rfl, hle⟩ trivial rfl)
  have hfin : ((u.state = .finWait1 ∨ u.state = .lastAck) ∧ u.sndvar.onSendList = false ∨
      u.state = .closing ∧ (u.sndvar.isFinSent = false ∨ u.sndNxt = u.sndvar.fss)) →
      (u.state = .closing ∨ u.sndvar.onAckList = false) →
      ControlSteps cfg s e (conn t) (sendFin env u) := by
    intro hcase hlist
    have hus : u.state = s.state := hstate.trans (congrArg Conn.state hs)
    rw [hus, hul] at hlist
    refine controlSteps_send env _ u _ hrefl fun seg hseg => ?_
    subst hseg
    exact hoff.trans (Reaches.single (.emitFin _) ⟨rfl, rfl, rfl, rfl, rfl, rfl, rfl, hcase⟩
      ⟨he, hus, hsend, hlist, (congrArg Conn.control hs).symm.trans hctl⟩ rfl)
  unfold sendControlPacket
  split
  · next hst =>
    refine controlSteps_send env _ u _ hrefl fun seg hseg => ?_
    refine .single (.emitSyn seg) ?_ trivial ?_
    · subst hseg
      refine ⟨hctl, rfl, rfl, rfl, rfl, ?_, .inl ⟨hstate.symm.trans hst, rfl, rfl⟩⟩
      exact congrArg Conn.sndNxt hu
    · rw [hu]
      rfl
  · next hst =>
    have hrestart : Steps cfg s e (conn t) { conn t with sndNxt := t.sndvar.iss } :=
      Reaches.single .restart (hstate.symm.trans hst) (.inr he) rfl
    have hiss : u.sndvar.iss = t.sndvar.iss := congrArg Conn.iss hu
    have hconn : conn { u with sndNxt := u.sndvar.iss } =
        { conn t with sndNxt := t.sndvar.iss, control := false } := by
      rw [hiss]
      change { conn u with sndNxt := t.sndvar.iss } = _
      rw [hu]
    have hrcv : u.rcvNxt = t.rcvNxt := congrArg Conn.rcvNxt hu
    refine controlSteps_send env _ _ _ ?_ fun seg hseg => ?_
    · rw [hconn]
      refine hrestart.trans (Reaches.of_eq ?_)
      simp [conn, hctl]
    · refine hrestart.trans (Reaches.single (.emitSyn seg) ?_ trivial ?_)
      · subst hseg
        exact ⟨hctl, rfl, rfl, rfl, rfl, hiss, .inr ⟨hstate.symm.trans hst, rfl, rfl, hrcv⟩⟩
      · rw [hconn]
        rfl
  · next hst => exact hack (by rw [hst]; decide)
  · next hst => exact hack (by rw [hst]; decide)
  · next hst => exact hack (by rw [hst]; decide)
  · next hst => exact hack (by rw [hst]; decide)
  · next hst =>
    split
    · exact .inl ⟨by simp, hrefl⟩
    · next hlists =>
      simp only [Bool.or_eq_true, not_or, Bool.not_eq_true] at hlists
      exact hfin (.inl ⟨.inr hst, hlists.1⟩) (.inr hlists.2)
  · next hst =>
    split
    · exact .inl ⟨by simp, hrefl⟩
    · next hlists =>
      simp only [Bool.or_eq_true, not_or, Bool.not_eq_true] at hlists
      exact hfin (.inl ⟨.inl hst, hlists.1⟩) (.inr hlists.2)
  · next hst =>
    split_ifs with hsent hnxt
    · exact hfin (.inr ⟨hst, .inr hnxt⟩) (.inl hst)
    · exact hack (by rw [hst]; decide)
    · exact hfin (.inr ⟨hst, .inl (eq_false_of_ne_true hsent)⟩) (.inl hst)
  · next hst =>
    split
    · exact .inl ⟨by simp, hrefl⟩
    · have hcases := sendTCPPacket_cases env u { rst := true } []
      generalize sendTCPPacket env u { rst := true } [] = r at hcases ⊢
      obtain ⟨ret, w⟩ := r
      rcases hcases with ⟨hneg, rfl⟩ | ⟨hpos, _, h, rfl⟩
      · exact .inl ⟨by simpa only [if_neg (not_le.mpr hneg)] using hneg,
          by simpa only [if_neg (not_le.mpr hneg)] using hrefl⟩
      · refine .inr ?_
        simp only [if_pos hpos]
        refine ⟨hpos, ?_⟩
        have hrst : Steps cfg s e (conn u) (conn (sendSegment env u { rst := true } [] h)) := by
          refine .single (.emitRst _) ?_ trivial (conn_sendSegment _ _ _ _ h)
          exact ⟨rfl, rfl, rfl, rfl, rfl, rfl, rfl, hst⟩
        exact hoff.trans (hrst.trans (destroyTCPStream_steps _))
  · exact .inr ⟨by simp, hoff⟩

theorem writeTCPControl_steps (env : Env) (t : TcpStream)
    (he : ∃ room, e.2 = .controlPass room) (hs : conn t = conn s)
    (hlist : t.sndvar.onAckList = s.sndvar.onAckList) :
    Steps cfg s e (conn t) (conn (writeTCPControl cfg env t)) := by
  unfold writeTCPControl
  have hun : conn (t.unlink .control) = conn t := conn_unlink t _ (by decide)
  have hul : (t.unlink .control).sndvar.onAckList = s.sndvar.onAckList := hlist
  dsimp only
  generalize t.unlink .control = u at hun hul ⊢
  rw [← hun]
  split
  · next hctl =>
    have hr : ControlSteps cfg s e (conn u) (sendControlPacket cfg env
        { u with sndvar.onControlList := false }) :=
      sendControlPacket_steps env u _ he (hun.trans hs) hctl rfl hul
    generalize sendControlPacket cfg env _ = r at hr ⊢
    obtain ⟨ret, w⟩ := r
    rcases hr with ⟨hneg, hsteps⟩ | ⟨hpos, hsteps⟩
    · rw [if_pos hneg, conn_link _ _ (by decide)]
      exact hsteps
    · rw [if_neg (not_lt.mpr hpos)]
      exact hsteps
  · exact .refl _

theorem established_le_of_toAck {t : TcpStream} (h : toAck t) : .established ≤ t.state := by
  simp only [toAck, Bool.and_eq_true, Bool.or_eq_true, decide_eq_true_eq] at h
  rcases h.1 with (((h | h) | h) | h) | h <;> rw [h] <;> decide

theorem sendAck_steps (env : Env) (t : TcpStream) (flags : Flags) (hle : .established ≤ t.state)
    (hflags : flags = { ack := true } ∨ flags = { ack := true, wack := true }) :
    Steps cfg s e (conn t) (conn (sendTCPPacket env t flags []).2) ∧
      (sendTCPPacket env t flags []).2.state = t.state := by
  rcases sendTCPPacket_cases env t flags [] with ⟨_, heq⟩ | ⟨_, _, h, heq⟩
  · rw [heq]
    exact ⟨Reaches.refl _, rfl⟩
  · rw [heq]
    have hconn := conn_sendSegment env t flags [] h
    refine ⟨Reaches.single (.emitAck _) ?_ trivial hconn, congrArg Conn.state hconn⟩
    rcases hflags with rfl | rfl
    · exact ⟨⟨rfl, rfl, rfl, rfl⟩, rfl, rfl, .inl rfl, hle⟩
    · exact ⟨⟨rfl, rfl, rfl, rfl⟩, rfl, rfl, .inr rfl, hle⟩

theorem ackLoop_steps (env : Env) (fuel : Nat) (t : TcpStream) (hle : .established ≤ t.state) :
    Steps cfg s e (conn t) (conn (ackLoop env fuel t)) ∧
      .established ≤ (ackLoop env fuel t).state := by
  induction fuel generalizing t with
  | zero => exact ⟨Reaches.refl _, hle⟩
  | succ fuel ih =>
    unfold ackLoop
    split
    · exact ⟨Reaches.refl _, hle⟩
    · have hsend : Steps cfg s e _ _ ∧ _ := sendAck_steps env t { ack := true } hle (.inl rfl)
      unfold sendAck
      generalize sendTCPPacket env t { ack := true } [] = r at hsend ⊢
      obtain ⟨ret, w⟩ := r
      obtain ⟨hsteps, hstate⟩ := hsend
      dsimp only at hsteps hstate ⊢
      rw [← hstate] at hle
      split
      · exact ⟨hsteps, hle⟩
      · obtain ⟨hrest, hle'⟩ := ih { w with sndvar.ackCnt := w.sndvar.ackCnt - 1 } hle
        exact ⟨hsteps.trans hrest, hle'⟩

theorem sendWack_steps (env : Env) (t : TcpStream) (hle : .established ≤ t.state) :
    Steps cfg s e (conn t) (conn (sendWack env t)) ∧ .established ≤ (sendWack env t).state := by
  unfold sendWack
  split
  · have hsend : Steps cfg s e (conn t) _ ∧ _ := sendAck_steps env
      { t with sndvar.isWack := false } _ hle (.inr rfl)
    generalize sendTCPPacket env _ _ _ = r at hsend ⊢
    obtain ⟨ret, w⟩ := r
    obtain ⟨hsteps, hstate⟩ := hsend
    dsimp only at hsteps hstate ⊢
    rw [← hstate] at hle
    split
    · exact ⟨hsteps, hle⟩
    · exact ⟨hsteps, hle⟩
  · exact ⟨Reaches.refl _, hle⟩

theorem writeTCPACK_steps (env : Env) (t : TcpStream) (hshape : (conn t).Shape) :
    Steps cfg s e (conn t) (conn (writeTCPACK env t)) := by
  unfold writeTCPACK
  split
  · split
    · next hto =>
      obtain ⟨hloop, hle⟩ : Steps cfg s e _ _ ∧ _ :=
        ackLoop_steps env t.sndvar.ackCnt.toNat t (established_le_of_toAck hto)
      obtain ⟨hwack, hle'⟩ : Steps cfg s e _ _ ∧ _ := sendWack_steps env _ hle
      have hboth := hloop.trans hwack
      generalize sendWack env _ = w at hboth hle' ⊢
      have hsyn : w.state ≠ .synSent := by
        intro h
        rw [h] at hle'
        exact absurd hle' (by decide)
      dsimp only
      split
      · refine Reaches.trans ?_ (releaseControl_steps _ _ fun _ => hsyn)
        rw [conn_unlink _ _ (by decide)]
        exact hboth
      · exact hboth.trans (releaseControl_steps _ _ fun _ => hsyn)
    · refine Reaches.trans ?_ (releaseControl_steps _ _ ?_)
      · rw [conn_unlink _ _ (by decide)]
        exact .refl _
      · exact not_synSent_of_waiting hshape
  · rw [conn_unlink _ _ (by decide)]
    exact .refl _

end Mtcp
