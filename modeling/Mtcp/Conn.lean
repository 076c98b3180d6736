import Mtcp.Machine

namespace Mtcp

open Serial
open Function (update_of_ne)

def Effect.kept : Effect → Bool
  | .standalone _ | .raise _ | .destroy => false
  | _ => true

/-- What the properties of a connection are about: a stream without its windows, clocks,
congestion state, acknowledgement list and socket. -/
@[ext]
structure Conn where
  state : TcpState
  reason : TcpCloseReason
  alive : Bool
  fault : Option Fault
  iss : UInt32
  irs : UInt32
  sndNxt : UInt32
  sndUna : UInt32
  fss : UInt32
  finSent : Bool
  sndbuf : Option TcpSendBuffer
  rcvNxt : UInt32
  rcvbuf : Option TcpRingBuffer
  control : Bool
  sendList : Bool
  sendq : Bool
  waiting : Bool
  closed : Bool
  rto : Bool
  timewait : Bool
  connects : Nat
  closes : Nat
  closesInt : Nat
  sends : Nat
  log : List Effect

def onWheel (idx : Int) : Bool := decide (0 ≤ idx)

def conn (s : TcpStream) : Conn where
  state := s.state
  reason := s.closeReason
  alive := s.onHashTable
  fault := s.fault
  iss := s.sndvar.iss
  irs := s.rcvvar.irs
  sndNxt := s.sndNxt
  sndUna := s.sndvar.sndUna
  fss := s.sndvar.fss
  finSent := s.sndvar.isFinSent
  sndbuf := s.sndvar.sndbuf
  rcvNxt := s.rcvNxt
  rcvbuf := s.rcvvar.rcvbuf
  control := s.sndvar.onControlList
  sendList := s.sndvar.onSendList
  sendq := s.sndvar.onSendq
  waiting := s.controlListWaiting
  closed := s.closed
  rto := onWheel s.onRtoIdx
  timewait := s.onTimewaitList
  connects := s.occ .connectq
  closes := s.occ .closeq
  closesInt := s.occ .closeqInt
  sends := s.occ .sendq
  log := s.trace.filter Effect.kept

namespace Conn

def crash (v : Conn) (f : Fault) : Conn := { v with fault := v.fault.or (some f) }

def destroyed (v : Conn) : Conn :=
  { v with
    control := false
    sendList := false
    rto := false
    timewait := false
    sndbuf := none
    rcvbuf := none
    alive := false }

end Conn

/-! The list operations, seen on the connection. -/

@[simp] theorem conn_abort (s : TcpStream) (f : Fault) : conn (s.abort f) = (conn s).crash f := rfl

@[simp] theorem conn_raiseEvent (ev : StreamEvent) (s : TcpStream) :
    conn (raiseEvent ev s) = conn s := rfl

variable (env : Env) (s : TcpStream)

theorem conn_link (l : StreamList) (h : l ≠ .connectq ∧ l ≠ .closeq ∧ l ≠ .closeqInt ∧ l ≠ .sendq) :
    conn (s.link l) = conn s := by
  obtain ⟨h1, h2, h3, h4⟩ := h
  simp [conn, TcpStream.link, update_of_ne h1.symm, update_of_ne h2.symm,
    update_of_ne h3.symm, update_of_ne h4.symm]

theorem conn_unlink (l : StreamList) (h : l ≠ .connectq ∧ l ≠ .closeq ∧ l ≠ .closeqInt ∧ l ≠ .sendq)
    : conn (s.unlink l) = conn s := by
  obtain ⟨h1, h2, h3, h4⟩ := h
  simp [conn, TcpStream.unlink, update_of_ne h1.symm, update_of_ne h2.symm,
    update_of_ne h3.symm, update_of_ne h4.symm]

theorem conn_addtoControlList : conn (addtoControlList s) = { conn s with control := true } := by
  unfold addtoControlList
  split
  · next h => simp [conn, h]
  · rw [conn_link _ _ (by decide)]
    rfl

theorem conn_removeFromControlList :
    conn (removeFromControlList s) = { conn s with control := false } := by
  unfold removeFromControlList
  split
  · rw [conn_unlink _ _ (by decide)]
    rfl
  · next h => simp [conn, h]

theorem conn_addtoSendList : conn (addtoSendList s) =
    if s.sndvar.sndbuf.isNone then (conn s).crash .noSendBuffer
    else { conn s with sendList := true } := by
  unfold addtoSendList
  split
  · rfl
  · split
    · next h => simp [conn, h]
    · rw [conn_link _ _ (by decide)]
      rfl

theorem conn_removeFromSendList :
    conn (removeFromSendList s) = { conn s with sendList := false } := by
  unfold removeFromSendList
  split
  · rw [conn_unlink _ _ (by decide)]
    rfl
  · next h => simp [conn, h]

@[simp] theorem conn_addtoACKList (s : TcpStream) : conn (addtoACKList s) = conn s := by
  unfold addtoACKList
  split
  · rfl
  · rw [conn_link _ _ (by decide)]
    rfl

@[simp] theorem conn_removeFromACKList (s : TcpStream) : conn (removeFromACKList s) = conn s := by
  unfold removeFromACKList
  split
  · rw [conn_unlink _ _ (by decide)]
    rfl
  · rfl

@[simp] theorem conn_enqueueACK (s : TcpStream) (opt : AckOpt) :
    conn (enqueueACK s opt) = conn s := by
  cases opt with
  | now | wack => exact conn_addtoACKList _
  | aggregate =>
    refine (conn_addtoACKList _).trans ?_
    split <;> rfl

theorem rtoSlot_nonneg (ts : UInt32) : 0 ≤ rtoSlot env ts := by
  unfold rtoSlot
  dsimp only
  generalize (if env.rtoOthers = 0 then ts else env.rtoNowTs) = nowTs
  split
  · exact Int.natCast_nonneg _
  · decide

@[simp] theorem onWheel_eq_true_iff (idx : Int) : onWheel idx ↔ 0 ≤ idx := decide_eq_true_iff

@[simp] theorem onWheel_eq_false_iff (idx : Int) : onWheel idx = false ↔ idx < 0 := by
  rw [← not_iff_not, Bool.not_eq_false, onWheel_eq_true_iff, not_lt]

theorem conn_addtoRTOList : conn (addtoRTOList env s) =
    { conn s with rto := (conn s).rto || !(conn s).timewait } := by
  have hslot := (onWheel_eq_true_iff _).mpr (rtoSlot_nonneg env s.sndvar.tsRto)
  unfold addtoRTOList
  split_ifs with hneg htw
  · simp [conn, htw]
  · rw [conn_link _ _ (by decide)]
    simp [conn, htw, hslot]
  · simp [conn, (onWheel_eq_true_iff _).mpr (not_lt.mp hneg)]

theorem conn_removeFromRTOList : conn (removeFromRTOList s) = { conn s with rto := false } := by
  unfold removeFromRTOList
  split
  · next hneg => simp [conn, hneg]
  · rw [conn_unlink _ _ (by decide)]
    rfl

theorem conn_addtoTimewaitList (cfg : Config) (env : Env) (s : TcpStream) :
    conn (addtoTimewaitList cfg env s) =
      { conn s with timewait := true, rto := (conn s).timewait && (conn s).rto } := by
  unfold addtoTimewaitList removeFromRTOList
  dsimp only
  split_ifs <;> simp_all [conn, TcpStream.link, TcpStream.unlink]

theorem conn_removeFromTimewaitList (h : s.onTimewaitList) :
    conn (removeFromTimewaitList s) = { conn s with timewait := false } := by
  rw [removeFromTimewaitList, if_pos h, conn_unlink _ _ (by decide)]
  rfl

theorem conn_addtoTimeoutList : conn (addtoTimeoutList s) =
    if s.onTimeoutList then (conn s).crash .onTimeoutList else conn s := by
  unfold addtoTimeoutList
  split
  · rfl
  · rw [conn_link _ _ (by decide)]
    rfl

@[simp] theorem conn_removeFromTimeoutList (s : TcpStream) :
    conn (removeFromTimeoutList s) = conn s := by
  unfold removeFromTimeoutList
  split
  · rw [conn_unlink _ _ (by decide)]
    rfl
  · rfl

@[simp] theorem conn_updateTimeoutList (s : TcpStream) : conn (updateTimeoutList s) = conn s := by
  unfold updateTimeoutList
  split
  · rw [conn_link _ _ (by decide), conn_unlink _ _ (by decide)]
  · rfl

theorem conn_updateRetransmissionTimer : conn (updateRetransmissionTimer env s) = { conn s with
        fault := if s.sndvar.rto = 0 then s.fault.or (some .rtoZero) else s.fault
        rto := gt s.sndNxt s.sndvar.sndUna && !s.onTimewaitList } := by
  have hslot := fun ts => (onWheel_eq_true_iff _).mpr (rtoSlot_nonneg env ts)
  unfold updateRetransmissionTimer removeFromRTOList addtoRTOList
  dsimp only
  split_ifs <;> simp_all [conn, TcpStream.link, TcpStream.unlink, TcpStream.abort]

theorem conn_stopTimer :
    conn (if s.onRtoIdx ≥ 0 then removeFromRTOList s else s) = { conn s with rto := false } := by
  split
  · exact conn_removeFromRTOList s
  · next h => simp [conn, not_le.mp h]

theorem conn_leaveTimewait : conn (if s.onTimewaitList then removeFromTimewaitList s else s) =
      { conn s with timewait := false } := by
  split
  · next h => exact conn_removeFromTimewaitList s h
  · next h => simp [conn, h]

theorem conn_leaveTimeout (c : Prop) [Decidable c] (s : TcpStream) :
    conn (if c then removeFromTimeoutList s else s) = conn s := by
  split
  · exact conn_removeFromTimeoutList s
  · rfl

theorem conn_destroyTCPStream (cfg : Config) (s : TcpStream) : conn (destroyTCPStream cfg s) =
      if s.onHashTable then (conn s).destroyed else (conn s).destroyed.crash .notOnHashTable := by
  unfold destroyTCPStream
  dsimp only
  have h1 := conn_removeFromControlList s
  generalize removeFromControlList s = s1 at h1 ⊢
  have h2 := conn_removeFromSendList s1
  generalize removeFromSendList s1 = s2 at h2 ⊢
  have h3 := conn_removeFromACKList s2
  generalize removeFromACKList s2 = s3 at h3 ⊢
  have h4 := conn_stopTimer s3
  generalize (if s3.onRtoIdx ≥ 0 then removeFromRTOList s3 else s3) = s4 at h4 ⊢
  have h5 := conn_leaveTimewait s4
  generalize (if s4.onTimewaitList then removeFromTimewaitList s4 else s4) = s5 at h5 ⊢
  have h6 := conn_leaveTimeout (cfg.tcpTimeout > 0) s5
  generalize (if cfg.tcpTimeout > 0 then removeFromTimeoutList s5 else s5) = s6 at h6 ⊢
  have h : conn s6 = { conn s with
      control := false, sendList := false, rto := false, timewait := false } := by
    rw [h6, h5, h4, h3, h2, h1]
  have halive : s6.onHashTable = s.onHashTable := congrArg Conn.alive h
  rw [halive]
  split
  · change { conn s6 with sndbuf := none, rcvbuf := none, alive := false } = _
    rw [h]
    rfl
  · change { conn (s6.abort .notOnHashTable) with
      sndbuf := none, rcvbuf := none, alive := false } = _
    rw [conn_abort, h]
    rfl

/-! Option parsing touches nothing a connection is made of. -/

open Options in
theorem conn_parseRound (curTs : UInt32) (seg : Segment) (i : Nat) (s : TcpStream) :
    conn (parseRound curTs seg i s).2 = conn s := by
  unfold parseRound
  dsimp only
  split_ifs <;> rfl

open Options in
theorem parseLoop_rule {I : TcpStream → Prop} {curTs : UInt32} {seg : Segment} {s t : TcpStream}
    (hround : ∀ i u, I u → I (parseRound curTs seg i u).2) (fuel i : Nat) (h : I s)
    (ht : parseLoop curTs seg fuel i s = some t) : I t := by
  induction fuel generalizing i s with
  | zero => cases ht
  | succ fuel ih =>
    have hnext := hround i s h
    rw [parseLoop] at ht
    generalize parseRound curTs seg i s = r at hnext ht
    obtain ⟨next, w⟩ := r
    split at ht
    · cases next with
      | none =>
        cases ht
        exact hnext
      | some i => exact ih i hnext ht
    · cases ht
      exact h

open Options in
theorem parseTCPOptions_rule {I : TcpStream → Prop} {env : Env} {seg : Segment} {s : TcpStream}
    (hround : ∀ i u, I u → I (parseRound env.curTs seg i u).2)
    (habort : I (s.abort .optionLoop)) (h : I s) : I (parseTCPOptions env seg s) := by
  unfold parseTCPOptions
  split
  · next t ht => exact parseLoop_rule hround _ _ h ht
  · exact habort

open Options in
theorem conn_parseTCPOptions (seg : Segment) (s : TcpStream) :
    conn (parseTCPOptions env seg s) = conn s ∨
      conn (parseTCPOptions env seg s) = (conn s).crash .optionLoop := by
  refine @parseTCPOptions_rule (fun u => conn u = conn s ∨ conn u = (conn s).crash .optionLoop)
    env seg s (fun i u hu => ?_) (.inr rfl) (.inl rfl)
  rw [conn_parseRound]
  exact hu

end Mtcp
