import Mtcp.Immutable

namespace Mtcp

open Serial SendBuffer RingBuffer Bytes Runs Move

variable {cfg : Config} {s : TcpStream}

/-! The end of file that `mtcp_recv` reports. -/

/-- The FINs of the peer that were processed, newest first: their numbers, and the bytes in order
before. -/
def consumedFins (log : List Effect) : List (UInt32 × Nat) :=
  log.filterMap fun
    | .consumeFin seq received => some (seq, received)
    | _ => none

/-- A reset that `ProcessTCPPacket` acts on while the application can still read. -/
def resetAccepted (cfg : Config) (s : TcpStream) (e : Env × Action) : Bool :=
  match e.2 with
  | .rx seg => seg.rst &&
      match s.state with
      | .synSent => seg.ack && !unacceptableAck seg s
      | .established | .closeWait => validated cfg e.1 seg s
      | _ => false
  | _ => false

theorem consumedFins_append (new old : List Effect) :
    consumedFins (new ++ old) = consumedFins new ++ consumedFins old := List.filterMap_append

theorem consumedFins_kept (log : List Effect) :
    consumedFins (log.filter Effect.kept) = consumedFins log := by
  induction log with
  | nil => rfl
  | cons e log ih =>
    cases e with
    | consumeFin seq n => exact congrArg ((seq, n) :: ·) ih
    | _ => exact ih

theorem rbPut_cumLen {buf : TcpRingBuffer} {bytes : List UInt8} {seq : UInt32} (h : Sound buf)
    (hlen : bytes.length < 65536) (frag : Bool) :
    (rbPut frag buf bytes seq).2.cumLen + buf.mergedLen =
      buf.cumLen + (rbPut frag buf bytes seq).2.mergedLen := by
  have hmore := (@rbPut_putIn buf bytes seq h hlen frag).mergedLen_le h
  have hsmall := h.small
  obtain hsame | ⟨hpos, hfits⟩ := @rbPut_cases buf bytes seq (by omega) hlen frag
  · rw [hsame]
  · rw [rbPut_of_fits (by omega) hpos hfits] at hmore ⊢
    have hcopy : ∀ n, (copyIn buf bytes n).cumLen = buf.cumLen ∧
        (copyIn buf bytes n).mergedLen = buf.mergedLen := by
      intro n
      unfold copyIn
      dsimp only
      split <;> exact ⟨rfl, rfl⟩
    obtain ⟨hcum, hmerged⟩ := hcopy (fwd buf.headSeq seq)
    generalize copyIn buf bytes (fwd buf.headSeq seq) = c at hcum hmerged hmore ⊢
    rw [← hcum, ← hmerged] at *
    unfold noteFragment at hmore ⊢
    generalize putFragment c.fctx _ = r at hmore ⊢
    cases frag with
    | false => rfl
    | true =>
      cases r with
      | none => rfl
      | some fctx =>
        cases fctx with
        | nil => rfl
        | cons first rest =>
          by_cases hhead : c.headSeq = first.seq
          · simp only [Bool.not_true, Bool.false_eq_true, if_false, if_pos hhead] at hmore ⊢
            omega
          · simp only [Bool.not_true, Bool.false_eq_true, if_false, if_neg hhead]

theorem rbRemove_cumLen (buf : TcpRingBuffer) (n : Nat) :
    (rbRemove buf n).2.2.cumLen = buf.cumLen := by
  unfold rbRemove
  dsimp only
  split_ifs
  · rfl
  · split
    · rfl
    · split_ifs <;> rfl

/-! The bytes before a FIN. -/

def Conn.ready (v : Conn) : Nat :=
  match v.rcvbuf with
  | none => 0
  | some buf => buf.mergedLen

/-- Every byte received in order was handed over or waits, no FIN is processed before CLOSE_WAIT,
and CLOSE_WAIT means that one was, right behind these bytes. -/
structure Conn.Ending (v : Conn) : Prop where
  tally : v.state = .established ∨ v.state = .closeWait →
    v.received = (handed v.log).length + v.ready
  unfinished : v.state.past = false → consumedFins v.log = []
  finished : v.state = .closeWait →
    consumedFins v.log = [(v.irs + 1 + UInt32.ofNat v.received, v.received)]
  unreset : v.state.past = false ∨ v.state = .closeWait → v.reason ≠ .reset

variable {v : Conn} {m : Move}

theorem Conn.Ending.next (h : v.Ending) (hr : v.Receiving cfg) (hc : v.Counted)
    (hst : v.state = .established) : v.rcvNxt = v.irs + 1 + UInt32.ofNat v.received := by
  have htally := h.tally (.inl hst)
  have hnext := hr.next (by rw [hst]; rfl)
  rw [hnext, htally]
  unfold Conn.readyEnd Conn.ready
  cases hbuf : v.rcvbuf with
  | none =>
    rw [hc.fresh hbuf]
    exact (UInt32.add_zero _).symm
  | some buf =>
    dsimp only
    rw [hc.head hst buf hbuf, UInt32.ofNat_add, UInt32.add_assoc]

theorem Conn.Ending.hand (h : v.Ending) (hr : v.Receiving cfg) {buf : TcpRingBuffer} {n : Nat}
    (hbuf : v.rcvbuf = some buf) (hn : n ≤ buf.mergedLen) :
    (Move.apply v (.hand buf n)).Ending := by
  have hsound := (hr.sound buf hbuf).1
  have hrem := rbRemove_removed hsound hn
  have hcum := rbRemove_cumLen buf n
  have hreceived : (Move.apply v (.hand buf n)).received = v.received := by
    change (rbRemove buf n).2.2.cumLen = _
    rw [hcum, Conn.received, hbuf]
  refine ⟨fun hst => ?_, h.unfinished, fun hst => ?_, h.unreset⟩
  · have htally := h.tally hst
    have hlen := hsound.length_slice hn
    rw [hreceived]
    change v.received = (handed v.log ++ slice buf.data buf.head n).length +
      (rbRemove buf n).2.2.mergedLen
    rw [Conn.ready, hbuf] at htally
    rw [List.length_append, hlen, hrem.mergedLen, htally]
    dsimp only
    omega
  · rw [hreceived]
    exact h.finished hst

theorem Conn.Ending.receive (h : v.Ending) (hr : v.Receiving cfg) (hc : v.Counted)
    (hsize : cfg.rcvbufSize + 1 < 2147483648) (hst : v.state.receives)
    {buf : TcpRingBuffer} {seg : Segment} (hbuf : v.FilledBy cfg buf) (frag : Bool) :
    (Move.apply v (.receive frag buf seg)).Ending := by
  have hput := @rbPut_cumLen buf seg.payload seg.seq (hr.filled hsize hbuf).1 seg.payload_lt frag
  have hnot : v.state ≠ .closeWait := by
    intro h'
    rw [h'] at hst
    cases hst
  refine ⟨?_, h.unfinished, fun hcw => absurd hcw hnot, h.unreset⟩
  rintro (hest | hcw)
  · change v.state = .established at hest
    have hopen : ¬ (v.state = .finWait1 ∨ v.state = .finWait2) := by
      rw [hest]
      rintro (h | h) <;> cases h
    have htally := h.tally (.inl hest)
    have hold : buf.cumLen = (handed v.log).length + buf.mergedLen := by
      obtain hsome | ⟨hnone, junk, rfl⟩ := hbuf
      · rw [Conn.received, Conn.ready, hsome] at htally
        exact htally
      · rw [hc.fresh hnone]
        rfl
    have hrcv : (Move.apply v (.receive frag buf seg)).rcvbuf =
        some (rbPut frag buf seg.payload seg.seq).2 := by
      change (v.receivedPayload _).rcvbuf = _
      rw [Conn.receivedPayload, if_neg hopen]
    rw [Conn.received, Conn.ready, hrcv]
    change _ = (handed v.log).length + _
    dsimp only
    omega
  · exact absurd hcw hnot

theorem Conn.Ending.peerFin (h : v.Ending) (hr : v.Receiving cfg) (hc : v.Counted)
    (hst : v.state = .established) {seq : UInt32} (hseq : seq = v.rcvNxt) :
    (Move.apply v (.peerFin seq .closeWait)).Ending := by
  refine ⟨fun _ => h.tally (.inl hst), nofun, fun _ => ?_, fun _ => h.unreset (.inl ?_)⟩
  · have hnone := h.unfinished (by rw [hst]; rfl)
    change consumedFins ([.consumeFin seq v.received] ++ v.log) =
      [(v.irs + 1 + UInt32.ofNat v.received, v.received)]
    rw [consumedFins_append, hnone, hseq, h.next hr hc hst]
    rfl
  · rw [hst]
    rfl

theorem Move.consumedFins_effects (hne : ∀ seq dest, m ≠ .peerFin seq dest) :
    consumedFins (m.effects v) = [] := by
  cases m with
  | ack buf x fast =>
    rw [effects]
    split <;> rfl
  | peerFin seq dest => exact absurd rfl (hne seq dest)
  | _ => rfl

theorem Move.dest_closeWait (hg : m.guard cfg v) (hm : m.calm)
    (hfin : ∀ seq dest, m ≠ .peerFin seq dest) (hreset : m ≠ .reset) (hrefused : m ≠ .refused)
    (hst : m.dest v = .closeWait) : v.state = .closeWait := by
  cases m with
  | crash w => cases hm
  | reset => exact absurd rfl hreset
  | refused => exact absurd rfl hrefused
  | peerFin seq dest => exact absurd rfl (hfin seq dest)
  | beginClose =>
    rw [dest] at hst
    split at hst <;> cases hst
  | shut _ | listen _ | loneSyn _ | synAck _ _ | ackOfSyn | finAcked | closingAcked | lastAcked =>
    cases hst
  | _ => exact hst

theorem Move.apply_reason (hm : m.calm) (hreset : m ≠ .reset) (hrefused : m ≠ .refused)
    (hblame : ∀ r, m ≠ .blame r) (hst : m.dest v ≠ .closed) : (m.apply v).reason = v.reason := by
  cases m with
  | crash w => cases hm
  | reset => exact absurd rfl hreset
  | refused => exact absurd rfl hrefused
  | blame r => exact absurd rfl (hblame r)
  | shut r | lastAcked => exact absurd rfl hst
  | ack buf x fast => exact (congrArg Conn.reason (v.acked_eq buf x fast) :)
  | retransmit => exact (congrArg Conn.reason v.retransmitted_eq :)
  | _ => rfl

theorem Conn.Ending.frame (h : v.Ending) (hr : v.Receiving cfg) (hc : v.Counted)
    (hg : m.guard cfg v) (hm : m.calm) (hhand : ∀ buf n, m ≠ .hand buf n)
    (hrecv : ∀ frag buf seg, m ≠ .receive frag buf seg) (hfin : ∀ seq dest, m ≠ .peerFin seq dest)
    (hreset : m ≠ .reset) (hrefused : m ≠ .refused) (hblame : ∀ r, m = .blame r → r ≠ .reset) :
    (m.apply v).Ending := by
  have hbuf := apply_rcvbuf hm hhand hrecv (v := v)
  have hhanded := apply_handed hm hhand (v := v)
  have hreceived : (m.apply v).received = v.received := by
    rw [Conn.received, hbuf, Conn.received]
  have hready : (m.apply v).ready = v.ready := by
    rw [Conn.ready, hbuf, Conn.ready]
  have hfins : consumedFins (m.apply v).log = consumedFins v.log := by
    rw [apply_log (.inl hm), consumedFins_append, consumedFins_effects hfin, List.nil_append]
  have hwait := dest_closeWait hg hm hfin hreset hrefused
  have hbefore : (m.dest v).past = false → v.state.past = false := by
    intro hdest
    by_contra hpast
    rw [dest_past hg hm (Bool.eq_true_of_not_eq_false hpast)] at hdest
    cases hdest
  refine ⟨fun hst => ?_, fun hst => ?_, fun hst => ?_, fun hst => ?_⟩
  · rw [apply_state] at hst
    rw [hreceived, hhanded, hready]
    obtain hst | hst := hst
    · obtain hest | hearly := dest_established hg hm hst
      · exact h.tally (.inl hest)
      · have hnone := hr.early hearly
        rw [hc.fresh hnone, Conn.received, Conn.ready, hnone]
        rfl
    · exact h.tally (.inr (hwait hst))
  · rw [apply_state] at hst
    rw [hfins]
    exact h.unfinished (hbefore hst)
  · rw [apply_state] at hst
    have hirs : (m.apply v).irs = v.irs := by
      refine apply_irs hm ?_
      rintro seq a rfl
      cases hst
    rw [hfins, hreceived, hirs]
    exact h.finished (hwait hst)
  · rw [apply_state] at hst
    have hold : v.reason ≠ .reset := by
      obtain hst | hst := hst
      · exact h.unreset (.inl (hbefore hst))
      · exact h.unreset (.inr (hwait hst))
    have hopen : m.dest v ≠ .closed := by
      intro hclosed
      rw [hclosed] at hst
      obtain hst | hst := hst <;> cases hst
    by_cases hb : ∃ r, m = .blame r
    · obtain ⟨r, rfl⟩ := hb
      exact hblame r rfl
    · rw [apply_reason hm hreset hrefused (fun r hr => hb ⟨r, hr⟩) hopen]
      exact hold

theorem resetAccepted_reset {e : Env × Action} {v : Conn} (hc : resetAccepted cfg s e = false) :
    ¬ Cause cfg s e v .reset := by
  rintro ⟨seg, he, hrst, hval, hst⟩
  rw [resetAccepted, he] at hc
  obtain hst | hst := hst <;> simp [hrst, hst, hval] at hc

theorem resetAccepted_refused {e : Env × Action} {v : Conn} (hc : resetAccepted cfg s e = false) :
    ¬ Cause cfg s e v .refused := by
  rintro ⟨seg, he, hst, hack, hrst, hun⟩
  rw [resetAccepted, he] at hc
  simp [hrst, hst, hack, hun] at hc

theorem Conn.Ending.apply {e : Env × Action} (hsize : cfg.rcvbufSize + 1 < 2147483648)
    (hnone : resetAccepted cfg s e = false) (h : v.Ending) (hr : v.Receiving cfg) (hc : v.Counted)
    (hg : m.guard cfg v) (hm : m.calm) (hcause : Cause cfg s e v m) : (m.apply v).Ending := by
  cases m with
  | hand buf n => exact h.hand hr hg.1 hg.2.2.1
  | receive frag buf seg =>
    exact h.receive hr hc hsize (TcpState.receives_of hg.1) hg.2.1 frag
  | peerFin seq dest =>
    obtain ⟨hseq, ⟨hst, rfl⟩ | ⟨-, rfl⟩ | ⟨-, rfl⟩ | ⟨-, rfl⟩⟩ := hg
    · exact h.peerFin hr hc hst hseq
    all_goals exact ⟨nofun, nofun, nofun, nofun⟩
  | reset => exact absurd hcause (resetAccepted_reset hnone)
  | refused => exact absurd hcause (resetAccepted_refused hnone)
  | blame r =>
    exact h.frame hr hc hg hm (fun _ _ => nofun) (fun _ _ _ => nofun) (fun _ _ => nofun) nofun nofun
      fun r' hr' => blame.inj hr' ▸ hcause
  | _ =>
    exact h.frame hr hc hg hm (fun _ _ => nofun) (fun _ _ _ => nofun) (fun _ _ => nofun) nofun nofun
      fun _ => nofun

theorem Started.ending (h : Started v) : v.Ending := by
  cases h with
  | active | passive => exact ⟨nofun, fun _ => rfl, nofun, fun _ => nofun⟩

theorem mtcpRecv_eq_zero {nonblock peek : Bool} {len : Nat}
    (h : (mtcpRecv nonblock peek len s).1 = 0) : s.state = .closeWait ∧ nothingMerged s := by
  have hpeek : ∀ n, (peekForUser n s).1 ≠ 0 := by
    intro n
    unfold peekForUser
    split
    · nofun
    · dsimp only
      split
      · nofun
      · next hpos => exact fun hz => hpos (le_of_eq hz)
  have hcopy : ∀ n, (copyToUser n s).1 ≠ 0 := by
    intro n
    unfold copyToUser
    split
    · nofun
    · dsimp only
      split
      · nofun
      · next hpos => exact fun hz => hpos (le_of_eq hz)
  unfold mtcpRecv at h
  split_ifs at h with hopen hend
  · exact hend
  · cases h
  · exact absurd h (hpeek _)
  · exact absurd h (hcopy _)
  · cases h

/-- In a run in which no reset is accepted that leaves the stream readable, an end of file is
reported only when the peer's FIN was processed, once, where the bytes received in order end, and
all of them were handed over. -/
theorem end_of_file_truthful (hsize : cfg.rcvbufSize + 1 < 2147483648) {es : List (Env × Action)}
    (hs : Opened cfg s) (ha : Along (step cfg) (fun s e => resetAccepted cfg s e = false) s es)
    (hf : (run cfg s es).fault = none) (hl : (run cfg s es).onHashTable = true)
    {nonblock peek : Bool} {len : Nat}
    (hzero : (mtcpRecv nonblock peek len (run cfg s es)).1 = 0) :
    (∃ n, consumedFins (run cfg s es).trace =
        [((run cfg s es).rcvvar.irs + 1 + UInt32.ofNat n, n)] ∧
      (handed (run cfg s es).trace).length = n) ∧
    (run cfg s es).closeReason ≠ .reset := by
  obtain ⟨-, hrecv, hcounted, hending⟩ := @run_invariant cfg
    (fun v => v.Receiving cfg ∧ v.Counted ∧ v.Ending) (fun s e => resetAccepted cfg s e = false)
    (fun _ _ _ _ hc _ h hg hm hcause => ⟨receiving_apply hsize h.1 hg hm,
      h.2.1.apply h.1 hsize hg hm, h.2.2.apply hsize hc h.1 h.2.1 hg hm hcause⟩)
    (fun _ h => ⟨h.receiving, h.counted, h.ending⟩) s es hs ha hf hl
  generalize run cfg s es = t at *
  obtain ⟨hst, hmerged⟩ := mtcpRecv_eq_zero hzero
  have hready : (conn t).ready = 0 := by
    unfold nothingMerged at hmerged
    change (match t.rcvvar.rcvbuf with | none => 0 | some buf => buf.mergedLen) = 0
    cases hbuf : t.rcvvar.rcvbuf with
    | none => rfl
    | some buf =>
      rw [hbuf] at hmerged
      exact beq_iff_eq.mp hmerged
  have hfins := hending.finished hst
  have htally := hending.tally (.inr hst)
  have hlog : (conn t).log = t.trace.filter Effect.kept := rfl
  rw [hlog, consumedFins_kept] at hfins
  rw [hlog, handed_kept, hready] at htally
  exact ⟨⟨_, hfins, htally.symm⟩, hending.unreset (.inr hst)⟩

def readToTheEnd : List Action :=
  clientHandshake ++
    [.rx { seq := 501, ackSeq := 101, window := 1000, ack := true, fin := true,
           payload := [1, 2, 3] },
      .recv true false 10]

theorem end_of_file_truthful_client :
    (mtcpRecv true false 10 (run .small client (atRest readToTheEnd))).1 = 0 ∧
    (∃ n, consumedFins (run .small client (atRest readToTheEnd)).trace =
        [((run .small client (atRest readToTheEnd)).rcvvar.irs + 1 + UInt32.ofNat n, n)] ∧
      (handed (run .small client (atRest readToTheEnd)).trace).length = n) ∧
    (run .small client (atRest readToTheEnd)).closeReason ≠ .reset :=
  ⟨by decide, end_of_file_truthful (by decide) client_opened (by decide) (by decide) (by decide)
    (show (mtcpRecv true false 10 (run .small client (atRest readToTheEnd))).1 = 0 by decide)⟩

def resetWhenEstablished : List Action := clientHandshake ++ [.rx { seq := 501, rst := true }]

def connectionRefused : List Action :=
  [.dequeue .connectq, .controlPass 1, .rx { seq := 0, ackSeq := 101, ack := true, rst := true }]

/-- Both resets leave the stream in CLOSE_WAIT, and `mtcp_recv` reports an end of file. -/
theorem reset_reported_as_end_of_file :
    (let t := run .small client (atRest resetWhenEstablished)
     t.fault = none ∧ t.onHashTable = true ∧ t.attached = true ∧ t.closeReason = .reset ∧
       consumedFins t.trace = [] ∧ (mtcpRecv true false 10 t).1 = 0) ∧
    (let t := run .small client (atRest connectionRefused)
     t.fault = none ∧ t.onHashTable = true ∧ t.attached = true ∧ t.closeReason = .reset ∧
       consumedFins t.trace = [] ∧ (mtcpRecv true false 10 t).1 = 0) := by
  decide

end Mtcp
