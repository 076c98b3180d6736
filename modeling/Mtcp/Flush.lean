import Mtcp.Refine.Output

namespace Mtcp

open Serial SendBuffer Bytes UInt32

/-! What a flush of the send buffer puts on the wire. -/

variable {cfg : Config} {env : Env} {buf : TcpSendBuffer} {s : TcpStream}

/-- What a flush relies on: `snd_nxt` is inside the buffer, and the windows are less than half
of the sequence space. -/
structure Flushable (cfg : Config) (buf : TcpSendBuffer) (s : TcpStream) : Prop where
  sndbuf : s.sndvar.sndbuf = some buf
  wf : Wf buf
  size : buf.size = cfg.sndbufSize
  una : s.sndvar.sndUna = buf.headSeq
  nxt : fwd buf.headSeq s.sndNxt ≤ buf.len
  mss : 12 < s.sndvar.mss.toNat
  cwnd : s.sndvar.cwnd.toNat < 2147483648
  peerWnd : s.sndvar.peerWnd.toNat < 2147483648

def unsentBytes (buf : TcpSendBuffer) (s : TcpStream) : Nat := buf.len - fwd buf.headSeq s.sndNxt

def sendWindow (s : TcpStream) : Nat := min s.sndvar.cwnd.toNat s.sndvar.peerWnd.toNat

/-- The segment carries the bytes of the buffer that belong to its sequence numbers, and ends
inside the buffer and the window. -/
structure Carries (buf : TcpSendBuffer) (s : TcpStream) (seg : Segment) : Prop where
  pos : 1 ≤ seg.payload.length
  mss : seg.payload.length ≤ s.sndvar.mss.toNat - 12
  bytes : seg.payload = slice (contents buf) (fwd buf.headSeq seg.seq) seg.payload.length
  window : fwd s.sndvar.sndUna seg.seq + seg.payload.length ≤ sendWindow s
  buffered : fwd buf.headSeq seg.seq + seg.payload.length ≤ buf.len

/-- Each segment starts where the one before it ends, from `seq` to `last`. -/
def Consecutive : UInt32 → List Segment → UInt32 → Prop
  | seq, [], last => last = seq
  | seq, seg :: segs, last => seg.seq = seq ∧ Consecutive (seq + seg.payloadlen) segs last

/-! One packet. -/

theorem Flushable.len_lt (h : Flushable cfg buf s) : buf.len < 2147483648 := by
  have hle := h.wf.len_le
  have hlt := cfg.sndbufSize_lt
  rw [h.size] at hle
  omega

/-- The difference of the windows does not leave the range of an `int`. -/
theorem Flushable.remainingWindow_eq (h : Flushable cfg buf s) :
    remainingWindow s = (sendWindow s : Int) - fwd buf.headSeq s.sndNxt := by
  have hlen := h.len_lt
  have hnxt := h.nxt
  have hwnd : sendWindow s < 2147483648 := lt_of_le_of_lt (min_le_left _ _) h.cwnd
  have hdiff : (min s.sndvar.cwnd s.sndvar.peerWnd - (s.sndNxt - s.sndvar.sndUna)).toNat =
      (4294967296 - fwd buf.headSeq s.sndNxt + sendWindow s) % 4294967296 := by
    rw [UInt32.toNat_sub, toNat_min, h.una]
    rfl
  unfold remainingWindow
  rw [signed_eq, hdiff]
  split <;> omega

theorem Flushable.unsent_eq (h : Flushable cfg buf s) :
    (UInt32.ofNat buf.len - (s.sndNxt - buf.headSeq)).toNat = unsentBytes buf s := by
  have hlen := h.len_lt
  have hnxt := h.nxt
  unfold unsentBytes
  unfold fwd at hnxt ⊢
  rw [UInt32.toNat_sub_of_le, UInt32.toNat_ofNat']
  · omega
  · rw [le_iff_toNat_le, toNat_ofNat']
    omega

/-- The length of the next packet: the rest of the buffer, the rest of the window or a full
segment, whatever is least. -/
def packetLen (buf : TcpSendBuffer) (s : TcpStream) : Nat :=
  min (min (unsentBytes buf s) (sendWindow s - fwd buf.headSeq s.sndNxt)) (s.sndvar.mss.toNat - 12)

theorem Flushable.nextPacket_eq (h : Flushable cfg buf s) :
    nextPacket s buf = slice (contents buf) (fwd buf.headSeq s.sndNxt) (packetLen buf s) ∧
      (nextPacket s buf).length = packetLen buf s := by
  have hnxt := h.nxt
  have hwnd : sendWindow s < 2147483648 := lt_of_le_of_lt (min_le_left _ _) h.cwnd
  have hrest : (ofNat (remainingWindow s).toNat).toNat =
      sendWindow s - fwd buf.headSeq s.sndNxt := by
    rw [h.remainingWindow_eq, toNat_ofNat']
    omega
  have hmss : (s.sndvar.mss.toUInt32 - 12).toNat = s.sndvar.mss.toNat - 12 := by
    have hbound := h.mss
    rw [UInt32.toNat_sub_of_le]
    · rfl
    · rw [le_iff_toNat_le]
      exact le_of_lt hbound
  have hlen : packetLen buf s ≤ unsentBytes buf s := (min_le_left _ _).trans (min_le_left _ _)
  have hshort : packetLen buf s < 65536 := by
    have hlt := s.sndvar.mss.toNat_lt
    have hle : packetLen buf s ≤ s.sndvar.mss.toNat - 12 := min_le_right _ _
    omega
  have hslice : nextPacket s buf =
      slice buf.data (buf.head + fwd buf.headSeq s.sndNxt) (packetLen buf s) := by
    unfold nextPacket
    dsimp only
    rw [toNat_min, toNat_min, h.unsent_eq, hrest, hmss]
    change slice buf.data _ (packetLen buf s % 65536) = _
    rw [Nat.mod_eq_of_lt hshort]
    rfl
  unfold unsentBytes at hlen
  have hcontents : slice (contents buf) (fwd buf.headSeq s.sndNxt) (packetLen buf s) =
      nextPacket s buf := by
    rw [hslice]
    exact slice_slice _ _ _ _ _ (by omega)
  refine ⟨hcontents.symm, ?_⟩
  rw [← hcontents]
  apply length_slice
  rw [length_contents h.wf]
  omega

theorem Flushable.packetLen_pos (h : Flushable cfg buf s) (hleft : unsentBytes buf s ≠ 0)
    (hfull : windowFull s = false) : 1 ≤ packetLen buf s ∧
      fwd buf.headSeq s.sndNxt + packetLen buf s ≤ sendWindow s := by
  have hopen : 0 < remainingWindow s := by
    unfold windowFull at hfull
    simp only [Bool.or_eq_false_iff, decide_eq_false_iff_not] at hfull
    omega
  have hmss := h.mss
  rw [h.remainingWindow_eq] at hopen
  unfold packetLen
  omega

theorem Flushable.sendTCPPacket_eq (h : Flushable cfg buf s) :
    (s.txRoom = 0 → sendTCPPacket env s { ack := true } (nextPacket s buf) = (-2, s)) ∧
    (s.txRoom ≠ 0 → ∃ hlt, sendTCPPacket env s { ack := true } (nextPacket s buf) =
      (((nextPacket s buf).length : Int),
        sendSegment env s { ack := true } (nextPacket s buf) hlt)) := by
  have hfits : ¬ (nextPacket s buf).length + Options.calculateOptionLength false >
      s.sndvar.mss.toNat := by
    have hle : packetLen buf s ≤ s.sndvar.mss.toNat - 12 := min_le_right _ _
    have hmss := h.mss
    rw [h.nextPacket_eq.2]
    change ¬ packetLen buf s + 12 > _
    omega
  unfold sendTCPPacket
  rw [dif_neg hfits]
  refine ⟨fun hroom => if_pos hroom, fun hroom => ⟨?_, ?_⟩⟩
  · have hbound := s.sndvar.mss.toNat_lt
    omega
  · rw [if_neg hroom]
    simp

def sendNext (env : Env) (buf : TcpSendBuffer) (s : TcpStream) : TcpStream :=
  (sendTCPPacket env s { ack := true } (nextPacket s buf)).2

theorem Flushable.round (h : Flushable cfg buf s) (fuel : Nat) (packets : Int) :
    flushLoop env (fuel + 1) s packets = if unsentBytes buf s = 0 then (packets, s)
      else if windowFull s then (-3, probeWindow env s) else if s.txRoom = 0 then (-3, s)
      else flushLoop env fuel (sendNext env buf s) (packets + 1) := by
  have hlen := h.len_lt
  have hnxt := h.nxt
  have hnotlt : lt s.sndNxt buf.headSeq = false := (not_lt_iff _ _).mpr (by omega)
  have hzero : ofNat buf.len - (s.sndNxt - buf.headSeq) = 0 ↔ unsentBytes buf s = 0 := by
    rw [← h.unsent_eq]
    exact UInt32.toNat_inj.symm
  obtain ⟨hrefused, hsent⟩ := @Flushable.sendTCPPacket_eq cfg env buf s h
  rw [flushLoop, h.sndbuf]
  dsimp only
  rw [if_neg (by simp [hnotlt]), if_neg (by simp [h.una, hnotlt]),
    if_neg (not_lt.mpr (by exact hnxt)), if_congr hzero rfl rfl]
  by_cases hroom : s.txRoom = 0
  · rw [hrefused hroom, if_pos hroom]
    rfl
  · obtain ⟨hlt, heq⟩ := hsent hroom
    unfold sendNext
    have hlength : ¬ ((nextPacket s buf).length : Int) < 0 := by omega
    rw [heq, if_neg hroom]
    rw [if_neg hlength]

/-- The next packet keeps what the flush relies on, and is the next piece of the buffer. -/
structure SentNext (buf : TcpSendBuffer) (s : TcpStream) (seg : Segment) (t : TcpStream) :
    Prop where
  carries : Carries buf s seg
  seq : seg.seq = s.sndNxt
  nxt : t.sndNxt = s.sndNxt + seg.payloadlen
  trace : t.trace = .emit seg :: s.trace
  sndvar : t.sndvar.sndbuf = s.sndvar.sndbuf ∧ t.sndvar.sndUna = s.sndvar.sndUna ∧
    t.sndvar.mss = s.sndvar.mss ∧ t.sndvar.cwnd = s.sndvar.cwnd ∧
    t.sndvar.peerWnd = s.sndvar.peerWnd
  room : t.txRoom = s.txRoom - 1
  fault : t.fault = s.fault

theorem Flushable.sent (h : Flushable cfg buf s) (hleft : unsentBytes buf s ≠ 0)
    (hfull : windowFull s = false) (hroom : s.txRoom ≠ 0) :
    ∃ seg, SentNext buf s seg (sendNext env buf s) := by
  obtain ⟨hlt, heq⟩ := (@Flushable.sendTCPPacket_eq cfg env buf s h).2 hroom
  obtain ⟨hpos, hwnd⟩ := h.packetLen_pos hleft hfull
  obtain ⟨hbytes, hlen⟩ := h.nextPacket_eq
  have hrest : packetLen buf s ≤ unsentBytes buf s := (min_le_left _ _).trans (min_le_left _ _)
  have hnxt := h.nxt
  have hconn := conn_sendSegment env s { ack := true } (nextPacket s buf) hlt
  obtain ⟨_, _, _, _, _, _, _, _, -, hshape⟩ :=
    sendSegment_shape env s { ack := true } (nextPacket s buf) hlt
  refine ⟨buildSegment env s { ack := true } (nextPacket s buf) hlt, ?_⟩
  unfold sendNext
  rw [heq]
  refine ⟨⟨?_, ?_, ?_, ?_, ?_⟩, rfl, ?_, ?_, ?_, ?_, ?_⟩
  · exact hlen ▸ hpos
  · exact hlen ▸ min_le_right _ _
  · change nextPacket s buf = slice _ (fwd buf.headSeq s.sndNxt) (nextPacket s buf).length
    rw [hlen]
    exact hbytes
  · change fwd s.sndvar.sndUna s.sndNxt + (nextPacket s buf).length ≤ _
    rw [hlen, h.una]
    exact hwnd
  · change fwd buf.headSeq s.sndNxt + (nextPacket s buf).length ≤ _
    rw [hlen]
    unfold unsentBytes at hrest
    omega
  · have hn := congrArg Conn.sndNxt hconn
    exact hn.trans (UInt32.add_zero _)
  all_goals
    rw [hshape]
  exact ⟨rfl, rfl, rfl, rfl, rfl⟩

theorem Flushable.next {seg : Segment} {t : TcpStream} (h : Flushable cfg buf s)
    (hs : SentNext buf s seg t) : Flushable cfg buf t ∧
      unsentBytes buf t + seg.payload.length = unsentBytes buf s := by
  obtain ⟨hbuf, huna, hmss, hcwnd, hpeer⟩ := hs.sndvar
  have hlen := h.len_lt
  have hend := hs.carries.buffered
  have hfwd : fwd buf.headSeq t.sndNxt = fwd buf.headSeq s.sndNxt + seg.payload.length := by
    rw [hs.nxt, Segment.payloadlen, fwd_add_ofNat, ← hs.seq]
    omega
  rw [hs.seq] at hend
  refine ⟨⟨hbuf.trans h.sndbuf, h.wf, h.size, huna.trans h.una, by omega, hmss ▸ h.mss,
    hcwnd ▸ h.cwnd, hpeer ▸ h.peerWnd⟩, ?_⟩
  unfold unsentBytes
  omega

theorem SentNext.carries_iff {seg seg' : Segment} {t : TcpStream} (hs : SentNext buf s seg t)
    (h : Carries buf t seg') : Carries buf s seg' := by
  obtain ⟨-, huna, hmss, hcwnd, hpeer⟩ := hs.sndvar
  refine ⟨h.pos, hmss ▸ h.mss, h.bytes, ?_, h.buffered⟩
  have hwindow : sendWindow t = sendWindow s := by
    unfold sendWindow
    rw [hcwnd, hpeer]
  rw [← huna, ← hwindow]
  exact h.window

/-! The loop. -/

/-- Each round that goes on sends a byte and uses up a write buffer. -/
def Enough (buf : TcpSendBuffer) (s : TcpStream) (fuel : Nat) : Prop :=
  unsentBytes buf s < fuel ∨ s.txRoom < fuel

theorem Enough.next {seg : Segment} {t : TcpStream} {fuel : Nat} (he : Enough buf s (fuel + 1))
    (h : Flushable cfg buf s) (hroom : s.txRoom ≠ 0) (hs : SentNext buf s seg t) :
    Enough buf t fuel := by
  have hless := (h.next hs).2
  have hpos := hs.carries.pos
  have hr := hs.room
  obtain hu | hu := he
  · exact .inl (by omega)
  · exact .inr (by omega)

theorem Flushable.loop_ends (h : Flushable cfg buf s) (fuel fuel' : Nat) (packets : Int)
    (he : Enough buf s fuel) (he' : Enough buf s fuel') :
    flushLoop env fuel s packets = flushLoop env fuel' s packets := by
  induction fuel generalizing s fuel' packets with
  | zero => exact absurd he (by unfold Enough; omega)
  | succ fuel ih =>
    cases fuel' with
    | zero => exact absurd he' (by unfold Enough; omega)
    | succ fuel' =>
      rw [h.round, h.round]
      by_cases hleft : unsentBytes buf s = 0
      · rw [if_pos hleft, if_pos hleft]
      · by_cases hfull : windowFull s
        · rw [if_neg hleft, if_pos hfull, if_neg hleft, if_pos hfull]
        · by_cases hroom : s.txRoom = 0
          · rw [if_pos hroom, if_pos hroom]
          · obtain ⟨seg, hs⟩ := @Flushable.sent cfg env buf s h hleft
              (eq_false_of_ne_true hfull) hroom
            rw [ih (h.next hs).1 fuel' (packets + 1) (he.next h hroom hs) (he'.next h hroom hs)]

structure FlushesTo (buf : TcpSendBuffer) (s : TcpStream) (segs : List Segment)
    (r : Int × TcpStream) : Prop where
  trace : r.2.trace = (segs.map .emit).reverse ++ s.trace
  consecutive : Consecutive s.sndNxt segs r.2.sndNxt
  carries : ∀ seg ∈ segs, Carries buf s seg
  sndbuf : r.2.sndvar.sndbuf = some buf
  fault : r.2.fault = s.fault
  done : 0 ≤ r.1 → r.2.sndNxt = buf.headSeq + UInt32.ofNat buf.len

theorem Flushable.stops (h : Flushable cfg buf s) (ret : Int)
    (hdone : 0 ≤ ret → unsentBytes buf s = 0) : FlushesTo buf s [] (ret, s) := by
  refine ⟨rfl, rfl, nofun, h.sndbuf, rfl, fun hret => ?_⟩
  apply eq_end_of_sub_eq_zero
  apply UInt32.toNat_inj.mp
  rw [h.unsent_eq, hdone hret]
  rfl

theorem FlushesTo.probed {ret : Int} (h : FlushesTo buf s [] (ret, s)) (hret : ret < 0) :
    FlushesTo buf s [] (ret, probeWindow env s) := by
  have hc : conn (probeWindow env s) = conn s := by
    unfold probeWindow
    split
    · exact conn_enqueueACK s .wack
    · rfl
  have htrace : (probeWindow env s).trace = s.trace := by
    unfold probeWindow enqueueACK addtoACKList
    split_ifs <;> rfl
  have hnxt : (probeWindow env s).sndNxt = s.sndNxt := congrArg Conn.sndNxt hc
  have hbuf : (probeWindow env s).sndvar.sndbuf = s.sndvar.sndbuf := congrArg Conn.sndbuf hc
  have hfault : (probeWindow env s).fault = s.fault := congrArg Conn.fault hc
  exact ⟨htrace, hnxt, nofun, hbuf.trans h.sndbuf, hfault, fun h0 => absurd h0 (not_le.mpr hret)⟩

theorem FlushesTo.cons {seg : Segment} {segs : List Segment} {t : TcpStream}
    {r : Int × TcpStream} (hs : SentNext buf s seg t) (h : FlushesTo buf t segs r) :
    FlushesTo buf s (seg :: segs) r := by
  refine ⟨?_, ⟨hs.seq, hs.nxt ▸ h.consecutive⟩, ?_, h.sndbuf, h.fault.trans hs.fault, h.done⟩
  · rw [h.trace, hs.trace]
    simp
  · intro seg' hmem
    obtain rfl | hin := List.mem_cons.mp hmem
    · exact hs.carries
    · exact hs.carries_iff (h.carries seg' hin)

theorem Flushable.loop_flushes (h : Flushable cfg buf s) (fuel : Nat) (packets : Int)
    (he : Enough buf s fuel) : ∃ segs, FlushesTo buf s segs (flushLoop env fuel s packets) := by
  induction fuel generalizing s packets with
  | zero => exact absurd he (by unfold Enough; omega)
  | succ fuel ih =>
    rw [h.round]
    by_cases hleft : unsentBytes buf s = 0
    · rw [if_pos hleft]
      exact ⟨[], h.stops packets fun _ => hleft⟩
    · rw [if_neg hleft]
      have hstop := h.stops (-3) (fun h0 => absurd h0 (by decide))
      by_cases hfull : windowFull s
      · rw [if_pos hfull]
        exact ⟨[], hstop.probed (by decide)⟩
      · rw [if_neg hfull]
        by_cases hroom : s.txRoom = 0
        · rw [if_pos hroom]
          exact ⟨[], hstop⟩
        · rw [if_neg hroom]
          obtain ⟨seg, hs⟩ := @Flushable.sent cfg env buf s h hleft
            (eq_false_of_ne_true hfull) hroom
          obtain ⟨segs, hrest⟩ := ih (h.next hs).1 (packets + 1) (he.next h hroom hs)
          exact ⟨seg :: segs, .cons hs hrest⟩

theorem Flushable.flush_eq (h : Flushable cfg buf s) :
    flushTCPSendingBuffer env s = flushLoop env (s.txRoom + 1) s 0 := by
  unfold flushTCPSendingBuffer
  rw [h.sndbuf]
  dsimp only
  split
  · next hlen =>
    rw [h.round, if_pos]
    unfold unsentBytes
    omega
  · rfl

/-- A flush ends after at most one round more than there are unsent bytes, and what it has
emitted by then are consecutive pieces of the buffer from `snd_nxt` on, each inside the segment
size and the windows. It reports success only if everything is sent. -/
theorem flush_emits (cfg : Config) (env : Env) (buf : TcpSendBuffer) (s : TcpStream)
    (h : Flushable cfg buf s) :
    (∀ fuel, unsentBytes buf s < fuel → flushLoop env fuel s 0 = flushTCPSendingBuffer env s) ∧
      ∃ segs, FlushesTo buf s segs (flushTCPSendingBuffer env s) := by
  rw [h.flush_eq]
  have henough : Enough buf s (s.txRoom + 1) := .inr (Nat.lt_succ_self _)
  exact ⟨fun fuel hf => h.loop_ends fuel _ 0 (.inl hf) henough, h.loop_flushes _ 0 henough⟩

def queuedClient : TcpStream :=
  run .small client (atRest [.dequeue .connectq, .controlPass 1,
    .rx { seq := 500, ackSeq := 101, window := 1000, syn := true, ack := true,
          opts := [2, 4, 0, 18] },
    .controlPass 1, .write [1, 2, 3, 4, 5, 6, 7, 8, 9, 10]])

theorem queuedClient_sndbuf : queuedClient.sndvar.sndbuf.isSome := by decide +kernel

theorem flush_emits_all :
    (flushTCPSendingBuffer {} { queuedClient with txRoom := 3 }).1 = 2 ∧
      ∃ segs, FlushesTo (queuedClient.sndvar.sndbuf.get queuedClient_sndbuf)
        { queuedClient with txRoom := 3 } segs
        (flushTCPSendingBuffer {} { queuedClient with txRoom := 3 }) := by
  have hwf : Wf (queuedClient.sndvar.sndbuf.get queuedClient_sndbuf) :=
    ⟨by decide +kernel, by decide +kernel, by decide +kernel, by decide +kernel⟩
  refine ⟨by decide +kernel, (flush_emits .small {} _ _ ⟨?_, hwf, ?_, ?_, ?_, ?_, ?_, ?_⟩).2⟩
  · exact (Option.some_get queuedClient_sndbuf).symm
  all_goals decide +kernel

end Mtcp
