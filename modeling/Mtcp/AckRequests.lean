import Mtcp.Refine.Output

namespace Mtcp

open Serial List

/-! What becomes of the acknowledgements and window probes that were asked for. -/

variable {cfg : Config} {env : Env} {s t u : TcpStream}

def requested (s : TcpStream) (reqs : List AckOpt) : TcpStream := reqs.foldl enqueueACK s

def sendPass : Action → Bool
  | .controlPass _ | .dataPass _ | .ackPass _ => true
  | _ => false

def newEffects (s t : TcpStream) : List Effect := t.trace.take (t.trace.length - s.trace.length)

/-- A segment that acknowledges `rcv_nxt` went out. -/
def Acked (s t : TcpStream) : Prop :=
  ∃ seg, .emit seg ∈ newEffects s t ∧ seg.ack = true ∧ seg.ackSeq = s.rcvNxt

def Probed (s t : TcpStream) : Prop :=
  ∃ seg, .emit seg ∈ newEffects s t ∧ seg.ack = true ∧ seg.payload = [] ∧
    seg.seq = s.sndNxt - 1

def SomeStep (P : TcpStream → TcpStream → Prop) (cfg : Config) :
    TcpStream → List (Env × Action) → Prop
  | _, [] => False
  | s, e :: es => P s (step cfg s e) ∨ SomeStep P cfg (step cfg s e) es

/-- Whichever send passes follow the requests, the stream is not off the list of
acknowledgements before one of them has acknowledged `rcv_nxt` and, if a probe was requested,
one of them has sent a probe. -/
def NothingLost (cfg : Config) (s : TcpStream) (reqs : List AckOpt) : Prop :=
  ∀ es : List (Env × Action), (∀ e ∈ es, sendPass e.2 = true) →
    (run cfg (requested s reqs) es).sndvar.onAckList = false →
    SomeStep Acked cfg (requested s reqs) es ∧
      (.wack ∈ reqs → SomeStep Probed cfg (requested s reqs) es)

/-- The requests counted without a limit. An aggregated one counts where the six bits of
`ack_cnt` are all zero. -/
def countRequest (n : Nat) : AckOpt → Nat
  | .now => n + 1
  | .aggregate => if n % 64 = 0 then n + 1 else n
  | .wack => n

/-! What the passes leave alone. -/

structure Later (s t : TcpStream) : Prop where
  trace : s.trace <:+ t.trace
  state : t.state = s.state
  rcvNxt : t.rcvNxt = s.rcvNxt
  rcvbuf : t.rcvvar.rcvbuf = s.rcvvar.rcvbuf

namespace Later

theorem of_eq (htrace : t.trace = s.trace) (hstate : t.state = s.state)
    (hnxt : t.rcvNxt = s.rcvNxt) (hbuf : t.rcvvar.rcvbuf = s.rcvvar.rcvbuf) : Later s t :=
  ⟨htrace ▸ suffix_refl _, hstate, hnxt, hbuf⟩

theorem refl (s : TcpStream) : Later s s := of_eq rfl rfl rfl rfl

theorem trans (h : Later s t) (h' : Later t u) : Later s u :=
  ⟨h.trace.trans h'.trace, h'.state.trans h.state, h'.rcvNxt.trans h.rcvNxt,
    h'.rcvbuf.trans h.rcvbuf⟩

theorem toAck (h : Later s t) : toAck t = toAck s := by
  unfold Mtcp.toAck
  rw [h.state, h.rcvNxt, h.rcvbuf]

theorem newEffects_append (h : Later s t) : newEffects s t ++ s.trace = t.trace := by
  obtain ⟨new, hnew⟩ := h.trace
  unfold newEffects
  rw [← hnew]
  simp

theorem newEffects_trans (h : Later s t) (h' : Later t u) :
    newEffects s u = newEffects t u ++ newEffects s t := by
  refine (append_left_inj s.trace).mp ?_
  rw [(h.trans h').newEffects_append, append_assoc, h.newEffects_append, h'.newEffects_append]

end Later

theorem Acked.later (ha : Acked s t) (h : Later s t) (h' : Later t u) : Acked s u := by
  obtain ⟨seg, hmem, hseg⟩ := ha
  refine ⟨seg, ?_, hseg⟩
  rw [h.newEffects_trans h']
  exact mem_append_right _ hmem

theorem Acked.before (ha : Acked t u) (h : Later s t) (h' : Later t u) : Acked s u := by
  obtain ⟨seg, hmem, hack, hseq⟩ := ha
  refine ⟨seg, ?_, hack, hseq.trans h.rcvNxt⟩
  rw [h.newEffects_trans h']
  exact mem_append_left _ hmem

theorem Probed.later (hp : Probed s t) (h : Later s t) (h' : Later t u) : Probed s u := by
  obtain ⟨seg, hmem, hseg⟩ := hp
  refine ⟨seg, ?_, hseg⟩
  rw [h.newEffects_trans h']
  exact mem_append_right _ hmem

theorem Probed.before (hp : Probed t u) (h : Later s t) (h' : Later t u)
    (hnxt : t.sndNxt = s.sndNxt) : Probed s u := by
  obtain ⟨seg, hmem, hack, hempty, hseq⟩ := hp
  refine ⟨seg, ?_, hack, hempty, hnxt ▸ hseq⟩
  rw [h.newEffects_trans h']
  exact mem_append_left _ hmem

structure Awaits (s t : TcpStream) : Prop extends Later s t where
  ackCnt : t.sndvar.ackCnt = s.sndvar.ackCnt
  isWack : s.sndvar.isWack = true → t.sndvar.isWack = true
  listed : s.sndvar.onAckList = true → t.sndvar.onAckList = true

theorem Awaits.refl (s : TcpStream) : Awaits s s := ⟨.refl s, rfl, id, id⟩

theorem Awaits.trans (h : Awaits s t) (h' : Awaits t u) : Awaits s u :=
  ⟨h.toLater.trans h'.toLater, h'.ackCnt.trans h.ackCnt, h'.isWack ∘ h.isWack, h'.listed ∘ h.listed⟩

section segments

variable (flags : Flags) (payload : List UInt8) (hlt : payload.length < 65536)

theorem awaits_sendSegment : Awaits s (sendSegment env s flags payload hlt) := by
  obtain ⟨_, _, _, _, _, _, _, _, -, hshape⟩ := sendSegment_shape env s flags payload hlt
  rw [hshape]
  exact ⟨⟨suffix_cons _ _, rfl, rfl, rfl⟩, rfl, id, id⟩

theorem newEffects_sendSegment : newEffects s (sendSegment env s flags payload hlt) =
    [.emit (buildSegment env s flags payload hlt)] := by
  obtain ⟨_, _, _, _, _, _, _, _, -, hshape⟩ := sendSegment_shape env s flags payload hlt
  refine (append_left_inj s.trace).mp ?_
  rw [(awaits_sendSegment flags payload hlt).newEffects_append, hshape]
  rfl

theorem acked_sendSegment (hack : flags.ack) : Acked s (sendSegment env s flags payload hlt) := by
  refine ⟨buildSegment env s flags payload hlt, ?_, hack, ?_⟩
  · rw [newEffects_sendSegment]
    exact mem_singleton_self _
  · unfold buildSegment
    rw [hack]
    rfl

theorem sendSegment_listed :
    (sendSegment env s flags payload hlt).sndvar.onAckList = s.sndvar.onAckList := by
  obtain ⟨_, _, _, _, _, _, _, _, -, hshape⟩ := sendSegment_shape env s flags payload hlt
  rw [hshape]

theorem probed_sendSegment (h : ([] : List UInt8).length < 65536) :
    Probed s (sendSegment env s { ack := true, wack := true } [] h) := by
  refine ⟨buildSegment env s { ack := true, wack := true } [] h, ?_, rfl, rfl, rfl⟩
  rw [newEffects_sendSegment]
  exact mem_singleton_self _

end segments

theorem awaits_probeWindow : Awaits s (probeWindow env s) := by
  unfold probeWindow enqueueACK addtoACKList
  split
  · dsimp only
    split
    · exact ⟨.of_eq rfl rfl rfl rfl, rfl, fun _ => rfl, id⟩
    · exact ⟨.of_eq rfl rfl rfl rfl, rfl, fun _ => rfl, fun _ => rfl⟩
  · exact .refl s

theorem awaits_flushLoop (fuel : Nat) (packets : Int) :
    Awaits s (flushLoop env fuel s packets).2 := by
  apply @flushLoop_rule Awaits env
  · exact Awaits.refl
  · exact Awaits.trans
  · exact fun u f _ => ⟨.of_eq rfl rfl rfl rfl, rfl, id, id⟩
  · exact fun u => awaits_probeWindow
  · exact fun u flags payload h => awaits_sendSegment flags payload h

theorem awaits_flush : Awaits s (flushTCPSendingBuffer env s).2 := by
  unfold flushTCPSendingBuffer
  split
  · exact ⟨.of_eq rfl rfl rfl rfl, rfl, id, id⟩
  · split
    · exact .refl s
    · exact awaits_flushLoop _ 0

theorem acked_flushLoop (fuel : Nat) (packets : Int) (hnonneg : 0 ≤ packets)
    (hmore : packets < (flushLoop env fuel s packets).1) :
    Acked s (flushLoop env fuel s packets).2 := by
  cases fuel with
  | zero => exact absurd hmore (lt_irrefl _)
  | succ fuel =>
    revert hmore
    unfold flushLoop
    split
    · exact fun hmore => absurd hmore (lt_irrefl _)
    · next buf _ =>
      split_ifs
      all_goals try exact fun hmore => absurd hmore (lt_irrefl _)
      · exact fun hmore => absurd hmore (by simp; omega)
      · obtain ⟨hneg, heq⟩ | ⟨hpos, -, hlt, heq⟩ :=
          sendTCPPacket_cases env s { ack := true } (nextPacket s buf)
        · generalize sendTCPPacket env s { ack := true } (nextPacket s buf) = r at hneg ⊢
          obtain ⟨ret, w⟩ := r
          dsimp only at hneg ⊢
          rw [if_pos hneg]
          exact fun hmore => absurd hmore (by simp; omega)
        · have hack : Acked s (sendSegment env s { ack := true } (nextPacket s buf) hlt) :=
            acked_sendSegment _ _ hlt rfl
          have hlater := @awaits_sendSegment env s { ack := true } (nextPacket s buf) hlt
          rw [← heq] at hack hlater
          generalize sendTCPPacket env s { ack := true } (nextPacket s buf) = r
            at hpos hack hlater ⊢
          obtain ⟨ret, w⟩ := r
          dsimp only at hpos hack hlater ⊢
          rw [if_neg (not_lt.mpr hpos)]
          exact fun _ => hack.later hlater.toLater (awaits_flushLoop fuel _).toLater

/-! One pass. -/

/-- A pass either leaves a request where it is or does what it asks for, and only then may the
stream leave the list. -/
structure Serves (s t : TcpStream) : Prop extends Later s t where
  acks : s.sndvar.ackCnt ≠ 0 → t.sndvar.ackCnt ≠ 0 ∨ Acked s t
  probes : s.sndvar.isWack = true → t.sndvar.isWack = true ∨ Acked s t ∧ Probed s t
  listed : s.sndvar.onAckList = true →
    t.sndvar.onAckList = true ∨ t.sndvar.ackCnt = 0 ∧ t.sndvar.isWack = false

theorem Awaits.serves (h : Awaits s t) : Serves s t :=
  ⟨h.toLater, fun hc => .inl (h.ackCnt ▸ hc), fun hw => .inl (h.isWack hw),
    fun hl => .inl (h.listed hl)⟩

theorem awaits_sendTCPPacket (flags : Flags) (payload : List UInt8) :
    Awaits s (sendTCPPacket env s flags payload).2 := by
  obtain ⟨-, heq⟩ | ⟨-, -, hlt, heq⟩ := sendTCPPacket_cases env s flags payload
  · rw [heq]
    exact .refl s
  · rw [heq]
    exact awaits_sendSegment flags payload hlt

theorem Serves.next (h : Serves s t) (hlater : Later t u)
    (hcnt : u.sndvar.ackCnt = t.sndvar.ackCnt) (hwack : u.sndvar.isWack = t.sndvar.isWack)
    (hlist : u.sndvar.onAckList = t.sndvar.onAckList ∨
      t.sndvar.ackCnt = 0 ∧ t.sndvar.isWack = false) : Serves s u := by
  refine ⟨h.toLater.trans hlater, fun hc => ?_, fun hw => ?_, fun hl => ?_⟩
  · exact (h.acks hc).imp (fun hne => hcnt ▸ hne) fun ha => ha.later h.toLater hlater
  · exact (h.probes hw).imp (fun ht => hwack.trans ht)
      fun ⟨ha, hp⟩ => ⟨ha.later h.toLater hlater, hp.later h.toLater hlater⟩
  · rw [hcnt, hwack]
    obtain hsame | hdone := hlist
    · exact (h.listed hl).imp_left hsame.trans
    · exact .inr hdone

theorem Serves.released (h : Serves s t) (blocked : Bool) :
    Serves s (releaseControl blocked t) := by
  unfold releaseControl addtoControlList
  split
  · split <;> exact h.next (.of_eq rfl rfl rfl rfl) rfl rfl (.inl rfl)
  · exact h

theorem awaits_writeTCPControl (hst : s.state = .established) :
    Awaits s (writeTCPControl cfg env s) := by
  have hsend : ∀ w, w.state = .established → Awaits w (sendControlPacket cfg env w).2 := by
    intro w hw
    unfold sendControlPacket
    rw [hw]
    exact awaits_sendTCPPacket _ _
  have hoff : Awaits s (s.unlink .control) := ⟨.of_eq rfl rfl rfl rfl, rfl, id, id⟩
  unfold writeTCPControl
  dsimp only
  split
  · have htaken := hsend { s.unlink .control with
      sndvar.onControlList := false } hst
    generalize sendControlPacket cfg env { s.unlink .control with
      sndvar.onControlList := false } = r at htaken ⊢
    obtain ⟨ret, w⟩ := r
    have hw : Awaits s w := ⟨⟨htaken.trace, htaken.state, htaken.rcvNxt, htaken.rcvbuf⟩,
      htaken.ackCnt, htaken.isWack, htaken.listed⟩
    split
    · exact ⟨⟨hw.trace, hw.state, hw.rcvNxt, hw.rcvbuf⟩, hw.ackCnt, hw.isWack, hw.listed⟩
    · exact hw
  · exact hoff

theorem piggyback_zero {ackCnt : BitVec 6} (h : ackCnt ≠ 0) : piggyback ackCnt 0 = ackCnt := by
  have hpos : (0 : Int) < ackCnt.toNat := by
    have hne : ackCnt.toNat ≠ 0 := fun h0 => h (BitVec.eq_of_toNat_eq h0)
    omega
  unfold piggyback
  rw [if_pos hpos]
  exact BitVec.sub_zero ackCnt

theorem serves_writeTCPData (hst : s.state = .established) : Serves s (writeTCPData env s) := by
  have hdata : ∀ w, w.state = .established → Awaits w (sendData env w).2 ∧
      (0 < (sendData env w).1 → Acked w (sendData env w).2) := by
    intro w hw
    unfold sendData
    rw [if_pos hw]
    split
    · exact ⟨.refl w, fun h => absurd h (by simp)⟩
    · refine ⟨awaits_flush, ?_⟩
      unfold flushTCPSendingBuffer
      split
      · exact fun h => absurd h (lt_irrefl _)
      · split
        · exact fun h => absurd h (lt_irrefl _)
        · exact acked_flushLoop _ 0 (le_refl 0)
  unfold writeTCPData
  dsimp only
  split
  · obtain ⟨haw, hack⟩ := hdata (s.unlink .send) hst
    generalize sendData env (s.unlink .send) = r at haw hack ⊢
    obtain ⟨ret, w⟩ := r
    have hw : Awaits s w := ⟨⟨haw.trace, haw.state, haw.rcvNxt, haw.rcvbuf⟩,
      haw.ackCnt, haw.isWack, haw.listed⟩
    have hacked : 0 < ret → Acked s w := hack
    dsimp only
    split
    · have hlink : Awaits w (w.link .send) := ⟨.of_eq rfl rfl rfl rfl, rfl, id, id⟩
      exact (hw.trans hlink).serves
    · next hneg =>
      apply Serves.released
      have hsame : Later w { w with
          sndvar.onSendList := false
          sndvar.ackCnt := piggyback w.sndvar.ackCnt ret } := .of_eq rfl rfl rfl rfl
      refine ⟨hw.toLater.trans hsame, fun hc => ?_, fun h => .inl (hw.isWack h),
        fun h => .inl (hw.listed h)⟩
      obtain h0 | hpos := (not_lt.mp hneg).eq_or_lt
      · left
        have hcw : w.sndvar.ackCnt ≠ 0 := hw.ackCnt ▸ hc
        rw [← h0, piggyback_zero hcw]
        exact hcw
      · exact .inr ((hacked hpos).later hw.toLater hsame)
  · have hoff : Awaits s (s.unlink .send) := ⟨.of_eq rfl rfl rfl rfl, rfl, id, id⟩
    exact hoff.serves

theorem sndNxt_sendSegment_empty {flags : Flags} (hsyn : flags.syn = false)
    (hfin : flags.fin = false) (h : ([] : List UInt8).length < 65536) :
    (sendSegment env s flags [] h).sndNxt = s.sndNxt := by
  have hnxt := congrArg Conn.sndNxt (conn_sendSegment env s flags [] h)
  refine hnxt.trans ?_
  change s.sndNxt + 0 + (if flags.syn || flags.fin && !flags.wack then 1 else 0) = s.sndNxt
  rw [hsyn, hfin]
  simp

structure Empties (s t : TcpStream) : Prop extends Later s t where
  isWack : t.sndvar.isWack = s.sndvar.isWack
  listed : t.sndvar.onAckList = s.sndvar.onAckList
  sndNxt : t.sndNxt = s.sndNxt

theorem empties_sendSegment (h : ([] : List UInt8).length < 65536) :
    Empties s (sendSegment env s { ack := true } [] h) := by
  have hnxt := @sndNxt_sendSegment_empty env s { ack := true } rfl rfl h
  refine ⟨(awaits_sendSegment _ [] h).toLater, ?_, ?_, hnxt⟩
  all_goals
    obtain ⟨_, _, _, _, _, _, _, _, -, hshape⟩ := sendSegment_shape env s { ack := true } [] h
    rw [hshape]

/-- One round of the loop: the packet is refused and the loop ends, or it is sent and counted. -/
theorem ackLoop_succ (fuel : Nat) (h : s.sndvar.ackCnt ≠ 0) :
    ackLoop env (fuel + 1) s = s ∨ ∃ w, Empties s w ∧ Acked s w ∧ ackLoop env (fuel + 1) s =
      ackLoop env fuel { w with sndvar.ackCnt := w.sndvar.ackCnt - 1 } := by
  rw [ackLoop, if_neg h]
  unfold sendAck
  have hcases := sendTCPPacket_cases env s { ack := true } []
  generalize sendTCPPacket env s { ack := true } [] = r at hcases ⊢
  obtain ⟨ret, w⟩ := r
  obtain ⟨hneg, rfl⟩ | ⟨hpos, -, hlt, rfl⟩ := hcases
  · exact .inl (if_pos hneg)
  · exact .inr ⟨_, empties_sendSegment hlt, acked_sendSegment _ _ hlt rfl, if_neg (not_lt.mpr hpos)⟩

theorem empties_ackLoop (fuel : Nat) : Empties s (ackLoop env fuel s) := by
  induction fuel generalizing s with
  | zero => exact ⟨.refl s, rfl, rfl, rfl⟩
  | succ fuel ih =>
    by_cases h : s.sndvar.ackCnt = 0
    · rw [ackLoop, if_pos h]
      exact ⟨.refl s, rfl, rfl, rfl⟩
    · obtain heq | ⟨w, hsent, -, heq⟩ := @ackLoop_succ env s fuel h <;> rw [heq]
      · exact ⟨.refl s, rfl, rfl, rfl⟩
      · have hrest := @ih { w with sndvar.ackCnt := w.sndvar.ackCnt - 1 }
        have hlater : Later w _ := ⟨hrest.trace, hrest.state, hrest.rcvNxt, hrest.rcvbuf⟩
        exact ⟨hsent.toLater.trans hlater, hrest.isWack.trans hsent.isWack,
          hrest.listed.trans hsent.listed, hrest.sndNxt.trans hsent.sndNxt⟩

theorem acked_ackLoop (h : s.sndvar.ackCnt ≠ 0) :
    (ackLoop env s.sndvar.ackCnt.toNat s).sndvar.ackCnt ≠ 0 ∨
      Acked s (ackLoop env s.sndvar.ackCnt.toNat s) := by
  obtain ⟨fuel, hfuel⟩ : ∃ fuel, s.sndvar.ackCnt.toNat = fuel + 1 := by
    refine Nat.exists_eq_add_one.mpr (Nat.pos_of_ne_zero fun h0 => h (BitVec.eq_of_toNat_eq h0))
  rw [hfuel]
  obtain heq | ⟨w, hsent, hack, heq⟩ := @ackLoop_succ env s fuel h <;> rw [heq]
  · exact .inl h
  · have hrest := @empties_ackLoop env { w with sndvar.ackCnt := w.sndvar.ackCnt - 1 } fuel
    exact .inr (hack.later hsent.toLater ⟨hrest.trace, hrest.state, hrest.rcvNxt, hrest.rcvbuf⟩)

theorem sendWack_serves : Later s (sendWack env s) ∧
    (sendWack env s).sndvar.ackCnt = s.sndvar.ackCnt ∧
    (sendWack env s).sndvar.onAckList = s.sndvar.onAckList ∧
    (s.sndvar.isWack → (sendWack env s).sndvar.isWack ∨
      Acked s (sendWack env s) ∧ Probed s (sendWack env s)) := by
  unfold sendWack
  split
  · next hw =>
    obtain ⟨hneg, heq⟩ | ⟨hpos, -, hlt, heq⟩ :=
      sendTCPPacket_cases env { s with sndvar.isWack := false } { ack := true, wack := true } []
    · generalize sendTCPPacket env { s with sndvar.isWack := false }
        { ack := true, wack := true } [] = r at hneg heq ⊢
      obtain ⟨ret, w⟩ := r
      dsimp only at hneg heq ⊢
      rw [if_pos hneg, heq]
      exact ⟨.of_eq rfl rfl rfl rfl, rfl, rfl, fun _ => .inl rfl⟩
    · have haw := @awaits_sendSegment env { s with sndvar.isWack := false }
        { ack := true, wack := true } [] hlt
      have hack := @acked_sendSegment env { s with sndvar.isWack := false }
        { ack := true, wack := true } [] hlt rfl
      have hprobe := @probed_sendSegment env { s with sndvar.isWack := false } hlt
      have hlist := @sendSegment_listed env { s with sndvar.isWack := false }
        { ack := true, wack := true } [] hlt
      rw [← heq] at haw hack hprobe hlist
      generalize sendTCPPacket env { s with sndvar.isWack := false }
        { ack := true, wack := true } [] = r at hpos haw hack hprobe hlist ⊢
      obtain ⟨ret, w⟩ := r
      dsimp only at hpos haw hack hprobe hlist ⊢
      rw [if_neg (not_lt.mpr hpos)]
      exact ⟨⟨haw.trace, haw.state, haw.rcvNxt, haw.rcvbuf⟩, haw.ackCnt, hlist,
        fun _ => .inr ⟨hack, hprobe⟩⟩
  · next hw => exact ⟨.refl s, rfl, rfl, fun h => absurd h hw⟩

theorem serves_answers : Serves s (sendWack env (ackLoop env s.sndvar.ackCnt.toNat s)) := by
  have hloop := @empties_ackLoop env s s.sndvar.ackCnt.toNat
  have hacks := @acked_ackLoop env s
  generalize ackLoop env s.sndvar.ackCnt.toNat s = a at hloop hacks ⊢
  obtain ⟨hlater, hcnt, hlist, hprobe⟩ := @sendWack_serves env a
  generalize sendWack env a = b at hlater hcnt hlist hprobe ⊢
  refine ⟨hloop.toLater.trans hlater, fun h => ?_, fun h => ?_, fun h => ?_⟩
  · obtain hne | hack := hacks h
    · exact .inl (hcnt ▸ hne)
    · exact .inr (hack.later hloop.toLater hlater)
  · obtain hw | ⟨hack, hprb⟩ := hprobe (hloop.isWack.trans h)
    · exact .inl hw
    · exact .inr ⟨hack.before hloop.toLater hlater, hprb.before hloop.toLater hlater hloop.sndNxt⟩
  · exact .inl (hlist.trans (hloop.listed.trans h))

theorem serves_writeTCPACK (hto : toAck s) : Serves s (writeTCPACK env s) := by
  have hanswers := @serves_answers env s
  unfold writeTCPACK
  rw [if_pos hto]
  split
  · dsimp only
    generalize sendWack env (ackLoop env s.sndvar.ackCnt.toNat s) = b at hanswers ⊢
    split
    · next hdone =>
      simp only [Bool.and_eq_true, decide_eq_true_eq, Bool.not_eq_true'] at hdone
      have hoff : Serves s ({ b with sndvar.onAckList := false }.unlink .ack) :=
        hanswers.next (.of_eq rfl rfl rfl rfl) rfl rfl (.inr hdone)
      exact hoff.released _
    · exact hanswers.released _
  · have hoff : Awaits s (s.unlink .ack) := ⟨.of_eq rfl rfl rfl rfl, rfl, id, id⟩
    exact hoff.serves

theorem serves_step {e : Env × Action} (hpass : sendPass e.2)
    (hst : s.state = .established) (hto : toAck s) : Serves s (step cfg s e) := by
  have hroom : ∀ room v, Serves { s with txRoom := room } v → Serves s v := fun _ _ h =>
    ⟨⟨h.trace, h.state, h.rcvNxt, h.rcvbuf⟩, h.acks, h.probes, h.listed⟩
  obtain ⟨env, a⟩ := e
  unfold step act
  split
  · cases a with
    | controlPass room =>
      dsimp only
      split
      · have hst' : { s with txRoom := room }.state = .established := hst
        exact hroom room _ (awaits_writeTCPControl hst').serves
      · exact (Awaits.refl s).serves
    | dataPass room =>
      dsimp only
      split
      · have hst' : { s with txRoom := room }.state = .established := hst
        exact hroom room _ (serves_writeTCPData hst')
      · exact (Awaits.refl s).serves
    | ackPass room =>
      dsimp only
      split
      · have hto' : toAck { s with txRoom := room } := hto
        exact hroom room _ (serves_writeTCPACK hto')
      · exact (Awaits.refl s).serves
    | _ => cases hpass
  · exact (Awaits.refl s).serves

/-! Whole runs of passes. -/

theorem served_run (es : List (Env × Action)) (hpass : ∀ e ∈ es, sendPass e.2)
    (hst : s.state = .established) (hto : toAck s) (hlist : s.sndvar.onAckList)
    (hend : (run cfg s es).sndvar.onAckList = false) :
    (s.sndvar.ackCnt ≠ 0 ∨ s.sndvar.isWack → SomeStep Acked cfg s es) ∧
      (s.sndvar.isWack → SomeStep Probed cfg s es) := by
  induction es generalizing s with
  | nil => exact absurd (hlist.symm.trans hend) (by decide)
  | cons e es ih =>
    have hserves := @serves_step cfg s e (hpass e ((.head _))) hst hto
    have hrest := fun hl => @ih (step cfg s e) (fun e' he => hpass e' (mem_cons_of_mem e he))
      (hserves.state.trans hst) (hserves.toAck.trans hto) hl hend
    have hback : ∀ {P : Prop}, (step cfg s e).sndvar.ackCnt ≠ 0 ∨
        (step cfg s e).sndvar.isWack → ((step cfg s e).sndvar.onAckList → P) → P := by
      intro P howed hP
      obtain hl | ⟨h0, hw⟩ := hserves.listed hlist
      · exact hP hl
      · rw [h0, hw] at howed
        exact absurd howed (by decide)
    refine ⟨fun howed => ?_, fun hw => ?_⟩
    · have hnow : ((step cfg s e).sndvar.ackCnt ≠ 0 ∨ (step cfg s e).sndvar.isWack) ∨
          Acked s (step cfg s e) := by
        obtain hc | hw := howed
        · exact (hserves.acks hc).imp_left .inl
        · exact (hserves.probes hw).imp .inr And.left
      obtain hstill | hack := hnow
      · exact .inr (hback hstill fun hl => (hrest hl).1 hstill)
      · exact .inl hack
    · obtain hstill | ⟨-, hprobe⟩ := hserves.probes hw
      · exact .inr (hback (.inr hstill) fun hl => (hrest hl).2 hstill)
      · exact .inl hprobe

/-! The requests. -/

/-- What the requests have made of a stream with `n` acknowledgements pending. -/
structure Requests (n : Nat) (s : TcpStream) (reqs : List AckOpt) (t : TcpStream) : Prop
    extends Later s t where
  fault : t.fault = s.fault
  mss : t.sndvar.mss = s.sndvar.mss
  ackCnt : t.sndvar.ackCnt.toNat = reqs.foldl countRequest n % 64
  isWack : t.sndvar.isWack = true ↔ s.sndvar.isWack = true ∨ .wack ∈ reqs
  linked : t.sndvar.onAckList = true → 0 < t.occ .ack
  listed : s.sndvar.onAckList = true ∨ reqs ≠ [] → t.sndvar.onAckList = true

theorem addtoACKList_cases (w : TcpStream) (h : w.sndvar.onAckList → 0 < w.occ .ack) :
    ∃ occ, 0 < occ .ack ∧ addtoACKList w = { w with sndvar.onAckList := true, occ := occ } := by
  unfold addtoACKList
  split
  · next hl =>
    refine ⟨w.occ, h hl, ?_⟩
    rw [← hl]
  · refine ⟨_, ?_, rfl⟩
    simp

theorem toNat_countRequest {c : BitVec 6} {n : Nat} (h : c.toNat = n % 64) :
    (c + 1).toNat = (n + 1) % 64 ∧
      (if c = 0 then 1 else c : BitVec 6).toNat = (if n % 64 = 0 then n + 1 else n) % 64 := by
  have hzero : c = 0 ↔ n % 64 = 0 := by
    rw [← h, ← BitVec.toNat_inj]
    rfl
  constructor
  · rw [BitVec.toNat_add, h]
    exact Nat.mod_add_mod n 64 1
  · by_cases h0 : n % 64 = 0
    · rw [if_pos (hzero.mpr h0), if_pos h0]
      change 1 = _
      omega
    · rw [if_neg (fun hc => h0 (hzero.mp hc)), if_neg h0, h]

theorem requests_enqueueACK {n : Nat} (opt : AckOpt) (hn : s.sndvar.ackCnt.toNat = n % 64)
    (hlinked : s.sndvar.onAckList → 0 < s.occ .ack) : Requests n s [opt] (enqueueACK s opt) := by
  obtain ⟨hnow, hagg⟩ := toNat_countRequest hn
  cases opt with
  | now =>
    obtain ⟨occ, hocc, heq⟩ := addtoACKList_cases
      { s with sndvar.ackCnt := s.sndvar.ackCnt + 1 } hlinked
    unfold enqueueACK
    rw [heq]
    exact ⟨.of_eq rfl rfl rfl rfl, rfl, rfl, hnow, by simp, fun _ => hocc, fun _ => rfl⟩
  | aggregate =>
    obtain ⟨occ, hocc, heq⟩ := addtoACKList_cases
      { s with sndvar.ackCnt := if s.sndvar.ackCnt = 0 then 1 else s.sndvar.ackCnt } hlinked
    have hset : (if s.sndvar.ackCnt = 0 then { s with sndvar.ackCnt := 1 } else s) = { s with
        sndvar.ackCnt := if s.sndvar.ackCnt = 0 then 1 else s.sndvar.ackCnt } := by
      split <;> rfl
    unfold enqueueACK
    rw [hset, heq]
    exact ⟨.of_eq rfl rfl rfl rfl, rfl, rfl, hagg, by simp, fun _ => hocc, fun _ => rfl⟩
  | wack =>
    obtain ⟨occ, hocc, heq⟩ := addtoACKList_cases { s with sndvar.isWack := true } hlinked
    unfold enqueueACK
    rw [heq]
    exact ⟨.of_eq rfl rfl rfl rfl, rfl, rfl, hn, by simp, fun _ => hocc, fun _ => rfl⟩

theorem requests_requested (reqs : List AckOpt) (n : Nat) (hn : s.sndvar.ackCnt.toNat = n % 64)
    (hlinked : s.sndvar.onAckList → 0 < s.occ .ack) : Requests n s reqs (requested s reqs) := by
  induction reqs generalizing s n with
  | nil =>
    have hwack : s.sndvar.isWack ↔ s.sndvar.isWack ∨ .wack ∈ ([] : List AckOpt) := by
      simp
    exact ⟨.refl s, rfl, rfl, hn, hwack, hlinked, fun h => h.elim id (absurd rfl)⟩
  | cons opt reqs ih =>
    have hone := requests_enqueueACK opt hn hlinked
    have hrest := @ih (enqueueACK s opt) (countRequest n opt) hone.ackCnt hone.linked
    refine ⟨hone.toLater.trans hrest.toLater, hrest.fault.trans hone.fault,
      hrest.mss.trans hone.mss, hrest.ackCnt, ?_, hrest.linked, fun _ => ?_⟩
    · refine hrest.isWack.trans ?_
      rw [hone.isWack, mem_singleton, mem_cons, or_assoc]
    · exact hrest.listed (.inl (hone.listed (.inr (cons_ne_nil _ _))))

/-! The pass that serves or drops them. -/

theorem releaseControl_listed (b : Bool) :
    (releaseControl b s).sndvar.onAckList = s.sndvar.onAckList ∧
      (releaseControl b s).trace = s.trace := by
  unfold releaseControl addtoControlList
  split
  · split <;> exact ⟨rfl, rfl⟩
  · exact ⟨rfl, rfl⟩

/-- Without a receive buffer, or when the counter is back at zero, the stream leaves the list
and nothing goes out. -/
theorem writeTCPACK_drops (hlist : s.sndvar.onAckList)
    (h : toAck s = false ∨ s.sndvar.ackCnt = 0 ∧ s.sndvar.isWack = false) :
    (writeTCPACK env s).sndvar.onAckList = false ∧ (writeTCPACK env s).trace = s.trace := by
  unfold writeTCPACK
  rw [if_pos hlist]
  by_cases hto : toAck s
  · obtain hno | ⟨hcnt, hwack⟩ := h
    · exact absurd (hto.symm.trans hno) (by decide)
    · have hloop : ackLoop env s.sndvar.ackCnt.toNat s = s := by
        rw [hcnt]
        rfl
      have hprobe : sendWack env s = s := by
        unfold sendWack
        rw [if_neg (by simp [hwack])]
      rw [if_pos hto, hloop, hprobe]
      rw [if_pos (by simp [hcnt, hwack])]
      exact releaseControl_listed _
  · rw [if_neg hto]
    exact releaseControl_listed _

theorem ackLoop_drains (fuel : Nat) (hfuel : s.sndvar.ackCnt.toNat = fuel)
    (hroom : fuel ≤ s.txRoom) (hmss : 12 ≤ s.sndvar.mss.toNat) :
    (ackLoop env fuel s).sndvar.ackCnt = 0 ∧ (ackLoop env fuel s).txRoom = s.txRoom - fuel ∧
      (ackLoop env fuel s).sndvar.mss = s.sndvar.mss := by
  induction fuel generalizing s with
  | zero => exact ⟨BitVec.eq_of_toNat_eq hfuel, rfl, rfl⟩
  | succ fuel ih =>
    have hne : s.sndvar.ackCnt ≠ 0 := by
      intro h0
      rw [h0] at hfuel
      cases hfuel
    have hlt : ([] : List UInt8).length < 65536 := by decide
    have hsent : sendAck env s = (0, sendSegment env s { ack := true } [] hlt) := by
      unfold sendAck sendTCPPacket
      rw [dif_neg (by simp [Options.calculateOptionLength]; omega), if_neg (by omega)]
      rfl
    have hsame : (sendSegment env s { ack := true } [] hlt).sndvar.ackCnt = s.sndvar.ackCnt ∧
        (sendSegment env s { ack := true } [] hlt).txRoom = s.txRoom - 1 ∧
        (sendSegment env s { ack := true } [] hlt).sndvar.mss = s.sndvar.mss := by
      obtain ⟨_, _, _, _, _, _, _, _, -, hshape⟩ := sendSegment_shape env s { ack := true } [] hlt
      rw [hshape]
      exact ⟨rfl, rfl, rfl⟩
    unfold ackLoop
    rw [if_neg hne, hsent]
    dsimp only
    rw [if_neg (by decide)]
    generalize sendSegment env s { ack := true } [] hlt = w at hsame ⊢
    obtain ⟨hcnt, hroomw, hmssw⟩ := hsame
    have hless : (w.sndvar.ackCnt - 1).toNat = fuel := by
      rw [BitVec.toNat_sub, hcnt, hfuel]
      change (64 - 1 + (fuel + 1)) % 64 = fuel
      have hsix := s.sndvar.ackCnt.isLt
      omega
    obtain ⟨hzero, hleft, hmss'⟩ := @ih { w with sndvar.ackCnt := w.sndvar.ackCnt - 1 } hless
        (by dsimp only; omega) (by dsimp only; rw [hmssw]; exact hmss)
    refine ⟨hzero, hleft.trans ?_, hmss'.trans hmssw⟩
    dsimp only
    omega

theorem sendWack_drains (hroom : 0 < s.txRoom) (hmss : 12 ≤ s.sndvar.mss.toNat) :
    (sendWack env s).sndvar.isWack = false := by
  unfold sendWack
  split
  · have hlt : ([] : List UInt8).length < 65536 := by decide
    have hsent : sendTCPPacket env { s with sndvar.isWack := false }
        { ack := true, wack := true } [] =
        (0, sendSegment env { s with sndvar.isWack := false }
          { ack := true, wack := true } [] hlt) := by
      unfold sendTCPPacket
      rw [dif_neg (by simp [Options.calculateOptionLength]; omega), if_neg (by dsimp only; omega)]
      rfl
    rw [hsent]
    dsimp only
    rw [if_neg (by decide)]
    obtain ⟨_, _, _, _, _, _, _, _, -, hshape⟩ := sendSegment_shape env
      { s with sndvar.isWack := false } { ack := true, wack := true } [] hlt
    rw [hshape]
  · next hw => exact eq_false_of_ne_true hw

theorem writeTCPACK_leaves (hlist : s.sndvar.onAckList) (hroom : 64 ≤ s.txRoom)
    (hmss : 12 ≤ s.sndvar.mss.toNat) : (writeTCPACK env s).sndvar.onAckList = false := by
  by_cases hto : toAck s
  · have hsix := s.sndvar.ackCnt.isLt
    obtain ⟨hcnt, hleft, hsame⟩ := @ackLoop_drains env s _ rfl (by omega) hmss
    have hloop := (@empties_ackLoop env s s.sndvar.ackCnt.toNat).listed
    unfold writeTCPACK
    rw [if_pos hlist, if_pos hto]
    generalize ackLoop env s.sndvar.ackCnt.toNat s = a at hcnt hleft hsame hloop ⊢
    have hwack := @sendWack_drains env a (by omega) (by rw [hsame]; exact hmss)
    obtain ⟨-, hcnt', -⟩ := @sendWack_serves env a
    rw [if_pos (by simp [hwack, hcnt', hcnt])]
    exact (releaseControl_listed _).1
  · exact (writeTCPACK_drops hlist (.inl (eq_false_of_ne_true hto))).1

/-- Every request is served before the stream leaves the list exactly when it has a receive
buffer that reaches `rcv_nxt` and either a probe is pending or the number of acknowledgements is
not a multiple of 64. One pass with room for them is enough to leave it. -/
theorem requests_not_lost (cfg : Config) (s : TcpStream) (reqs : List AckOpt) (hne : reqs ≠ [])
    (hst : s.state = .established) (hfault : s.fault = none)
    (hlinked : s.sndvar.onAckList = true → 0 < s.occ .ack) :
    (NothingLost cfg s reqs ↔ toAck s = true ∧ (.wack ∈ reqs ∨ s.sndvar.isWack = true ∨
      reqs.foldl countRequest s.sndvar.ackCnt.toNat % 64 ≠ 0)) ∧
    (12 ≤ s.sndvar.mss.toNat → ∀ env room, 64 ≤ room →
      (step cfg (requested s reqs) (env, .ackPass room)).sndvar.onAckList = false) := by
  have hcnt : s.sndvar.ackCnt.toNat = s.sndvar.ackCnt.toNat % 64 :=
    (Nat.mod_eq_of_lt s.sndvar.ackCnt.isLt).symm
  have hreq := requests_requested reqs _ hcnt hlinked
  have hlist := hreq.listed (.inr hne)
  have hto := hreq.toAck
  have hpass : ∀ env room, step cfg (requested s reqs) (env, .ackPass room) =
      writeTCPACK env { requested s reqs with txRoom := room } := by
    intro env room
    unfold step act
    rw [if_pos (by rw [hreq.fault, hfault]; rfl)]
    dsimp only
    rw [if_pos (hreq.linked hlist)]
  refine ⟨⟨fun hlost => ?_, fun ⟨hack, hpending⟩ es hes hend => ?_⟩, fun hmss env room hroom => ?_⟩
  · by_contra hnot
    have hdropped : toAck { requested s reqs with txRoom := 1 } = false ∨
        (requested s reqs).sndvar.ackCnt = 0 ∧ (requested s reqs).sndvar.isWack = false := by
      by_cases hack : toAck s = true
      · right
        have hnone : ¬ (.wack ∈ reqs ∨ s.sndvar.isWack = true ∨
            reqs.foldl countRequest s.sndvar.ackCnt.toNat % 64 ≠ 0) := fun h => hnot ⟨hack, h⟩
        simp only [not_or, not_not] at hnone
        refine ⟨BitVec.eq_of_toNat_eq (hreq.ackCnt.trans hnone.2.2), ?_⟩
        apply Bool.eq_false_of_not_eq_true
        rw [hreq.isWack]
        exact fun h => h.elim hnone.2.1 hnone.1
      · exact .inl (hto.trans (Bool.eq_false_of_not_eq_true hack))
    obtain ⟨hoff, htrace⟩ := @writeTCPACK_drops {} { requested s reqs with txRoom := 1 } hlist
      hdropped
    rw [← hpass] at hoff htrace
    obtain ⟨hacked, -⟩ := hlost [({}, .ackPass 1)] (by simp [sendPass]) hoff
    obtain ⟨seg, hmem, -⟩ | hnever := hacked
    · unfold newEffects at hmem
      rw [htrace] at hmem
      simp at hmem
    · exact hnever
  · obtain ⟨hacked, hprobed⟩ := served_run es hes (hreq.state.trans hst) (hto.trans hack) hlist hend
    refine ⟨hacked ?_, fun hw => hprobed (hreq.isWack.mpr (.inr hw))⟩
    obtain hw | hw | hcount := hpending
    · exact .inr (hreq.isWack.mpr (.inr hw))
    · exact .inr (hreq.isWack.mpr (.inl hw))
    · refine .inl fun h0 => hcount ?_
      rw [← hreq.ackCnt, h0]
      rfl
  · rw [hpass]
    exact writeTCPACK_leaves hlist hroom (by rw [hreq.mss]; exact hmss)

theorem fed_payload_lt : [(7 : UInt8)].length < 65536 := by decide

def fed : TcpStream :=
  run .small connected (atRest [
    .rx { seq := 501, ackSeq := 101, window := 1000, ack := true, payload := [7],
          payload_lt := fed_payload_lt }, .ackPass 1])

theorem requests_not_lost_mixed : NothingLost .small fed [.now, .aggregate, .wack] :=
  (requests_not_lost .small fed _ (by decide) (by decide +kernel) (by decide +kernel)
    (by decide +kernel)).1.mpr (by decide +kernel)

theorem lost_of_silent {reqs : List AckOpt}
    (hoff : (step cfg (requested s reqs) ({}, .ackPass 64)).sndvar.onAckList = false)
    (hsilent : newEffects (requested s reqs) (step cfg (requested s reqs) ({}, .ackPass 64)) = []) :
    ¬ NothingLost cfg s reqs := by
  intro h
  obtain ⟨seg, hmem, -⟩ | hnever := (h [({}, .ackPass 64)] (by simp [sendPass]) hoff).1
  · rw [hsilent] at hmem
    cases hmem
  · exact hnever

/-- A client that has received no payload has no receive buffer, and its requests are dropped.
With a receive buffer, 64 requests cancel out. -/
theorem requests_lost :
    connected.state = .established ∧ ¬ NothingLost .small connected [.now] ∧
      ¬ NothingLost .small connected [.wack] ∧
      fed.state = .established ∧ ¬ NothingLost .small fed (List.replicate 64 .now) :=
  ⟨by decide +kernel, lost_of_silent (by decide +kernel) (by decide +kernel),
    lost_of_silent (by decide +kernel) (by decide +kernel), by decide +kernel,
    lost_of_silent (by decide +kernel) (by decide +kernel)⟩

end Mtcp
