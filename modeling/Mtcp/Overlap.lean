import Mtcp.ReceiveWindow
import Mtcp.Sending

namespace Mtcp

open Serial SendBuffer RingBuffer Bytes Runs UInt32

variable {cfg : Config} {env : Env} {seg : Segment} {s : TcpStream}

/-! A segment that overlaps the bytes in order and brings new ones. -/

/-- The segment brings bytes behind `rcv_nxt`, none before it is missing, and it ends in the
buffer. -/
structure Overlaps (seg : Segment) (buf : TcpRingBuffer) (s : TcpStream) : Prop where
  pos : 0 < seg.payload.length
  start : leq seg.seq s.rcvNxt = true
  brings : lt s.rcvNxt (seg.seq + seg.payloadlen) = true
  room : leq (seg.seq + seg.payloadlen) (buf.headSeq + UInt32.ofNat buf.size) = true

/-- `rcv_nxt` is behind the segment, and its bytes wait for a reader. -/
def TakenIn (seg : Segment) (t : TcpStream) : Prop :=
  ∃ buf, t.rcvvar.rcvbuf = some buf ∧ geq t.rcvNxt (seg.seq + seg.payloadlen) = true ∧
    Stores buf seg.seq seg.payload ∧
    fwd buf.headSeq seg.seq + seg.payload.length ≤ buf.mergedLen

theorem Overlaps.fwd_lt_length {buf : TcpRingBuffer} (h : Overlaps seg buf s) :
    fwd seg.seq s.rcvNxt < seg.payload.length := by
  have hpos := h.pos
  have hlen := seg.payload_lt
  have hstart := fwd_le_of_leq h.start
  have hbrings := fwd_le_of_lt h.brings
  have htrans := fwd_trans seg.seq s.rcvNxt (seg.seq + seg.payloadlen)
  rw [Segment.payloadlen, fwd_add_ofNat, fwd_self, Nat.zero_add] at htrans
  rw [Segment.payloadlen] at hbrings
  omega

theorem processTCPPayload_put {buf : TcpRingBuffer} (hst : s.state = .established)
    (hbuf : s.rcvvar.rcvbuf = some buf) (hlt : lt (seg.seq + seg.payloadlen) s.rcvNxt = false)
    (hgt : gt (seg.seq + seg.payloadlen) (s.rcvNxt + s.rcvvar.rcvWnd) = false) :
    (processTCPPayload cfg env seg s).2.rcvvar.rcvbuf =
        some (rbPut env.fragAlloc buf seg.payload seg.seq).2 ∧
      (processTCPPayload cfg env seg s).2.rcvNxt =
        (rbPut env.fragAlloc buf seg.payload seg.seq).2.headSeq +
          ofNat (rbPut env.fragAlloc buf seg.payload seg.seq).2.mergedLen := by
  obtain ⟨fault, -, hconn, -⟩ := conn_receivePayload env seg buf s
  have hopen : ¬ ((conn s).state = .finWait1 ∨ (conn s).state = .finWait2) := by
    change ¬ (s.state = _ ∨ s.state = _)
    rw [hst]
    rintro (h | h) <;> cases h
  have hrcvbuf := congrArg Conn.rcvbuf hconn
  have hrcvNxt := congrArg Conn.rcvNxt hconn
  rw [Conn.receivedPayload, if_neg hopen] at hrcvbuf hrcvNxt
  have hensure : ensureRcvbuf cfg env s = some buf := by
    rw [ensureRcvbuf, hbuf]
  unfold processTCPPayload
  rw [hlt, hgt, hensure]
  dsimp only [Bool.false_eq_true, if_false]
  generalize advanceRcvNxt (discardMerged (putPayload env seg buf s)) = r at hrcvbuf hrcvNxt ⊢
  simp only [Bool.false_eq_true, if_false]
  split_ifs
  · exact ⟨hrcvbuf, hrcvNxt⟩
  · exact ⟨hrcvbuf, hrcvNxt⟩
  · exact ⟨hrcvbuf, hrcvNxt⟩

section Progress

variable {buf : TcpRingBuffer} (hs : (conn s).Receiving cfg) (hst : s.state = .established)
  (hbuf : s.rcvvar.rcvbuf = some buf) (hover : Overlaps seg buf s)

include hs hst hbuf

theorem Overlaps.sound : Sound buf ∧ fwd buf.headSeq s.rcvNxt = buf.mergedLen ∧
    s.rcvNxt = buf.headSeq + ofNat buf.mergedLen := by
  have hsound := (hs.sound buf hbuf).1
  have hnext := hs.next (by rw [show (conn s).state = .established from hst]; rfl)
  rw [Conn.readyEnd, show (conn s).rcvbuf = some buf from hbuf] at hnext
  change s.rcvNxt = buf.headSeq + ofNat buf.mergedLen at hnext
  have hmerged := hsound.mergedLen_le
  have hlast := hsound.lastLen_le
  have hsmall := hsound.small
  refine ⟨hsound, ?_, hnext⟩
  rw [hnext, fwd_add_ofNat, fwd_self]
  omega

theorem Overlaps.far_of_lt (hlt : lt seg.seq buf.headSeq) :
    buf.size < fwd buf.headSeq seg.seq + seg.payload.length := by
  obtain ⟨hsound, -, -⟩ := Overlaps.sound hs hst hbuf
  have hhalf := (lt_iff _ _).mp hlt
  have hsmall := hsound.small
  omega

include hover

theorem Overlaps.put (hwnd : s.rcvvar.rcvWnd = recvRoom s.rcvvar.rcvbuf) :
    (processTCPPayload cfg env seg s).2.rcvvar.rcvbuf =
        some (rbPut env.fragAlloc buf seg.payload seg.seq).2 ∧
      (processTCPPayload cfg env seg s).2.rcvNxt =
        (rbPut env.fragAlloc buf seg.payload seg.seq).2.headSeq +
          ofNat (rbPut env.fragAlloc buf seg.payload seg.seq).2.mergedLen := by
  obtain ⟨hsound, -, hnext⟩ := Overlaps.sound hs hst hbuf
  refine processTCPPayload_put hst hbuf ?_ ?_
  · have hnew := hover.fwd_lt_length
    have hlen := seg.payload_lt
    have htrans := fwd_trans seg.seq s.rcvNxt (seg.seq + seg.payloadlen)
    have hlt := fwd_lt s.rcvNxt (seg.seq + seg.payloadlen)
    rw [Segment.payloadlen, fwd_add_ofNat, fwd_self] at htrans
    rw [Segment.payloadlen] at hlt
    rw [not_lt_iff, Segment.payloadlen]
    omega
  · rw [hwnd, hbuf, hnext, Conn.room_eq hsound, not_gt_iff, ← leq_iff]
    exact hover.room

theorem Overlaps.fits_of_not_lt (hlt : lt seg.seq buf.headSeq = false) :
    fwd buf.headSeq seg.seq + fwd seg.seq s.rcvNxt = buf.mergedLen ∧
      fwd buf.headSeq seg.seq + seg.payload.length ≤ buf.size := by
  obtain ⟨hsound, hm, -⟩ := Overlaps.sound hs hst hbuf
  have hhead := (not_lt_iff _ _).mp hlt
  have hnew := hover.fwd_lt_length
  have hlen := seg.payload_lt
  have hmerged := hsound.mergedLen_le
  have hlast := hsound.lastLen_le
  have hroom := fwd_le_of_leq hover.room
  have htrans := fwd_trans buf.headSeq seg.seq s.rcvNxt
  have hend := fwd_trans buf.headSeq (seg.seq + seg.payloadlen) (buf.headSeq + ofNat buf.size)
  rw [Segment.payloadlen, fwd_add_ofNat, fwd_add_ofNat, fwd_self] at hend
  rw [Segment.payloadlen] at hroom
  omega

end Progress

/-- In ESTABLISHED an overlapping segment makes progress, unless it starts in front of the bytes
the application has read. -/
theorem overlapping_segment_progress_iff (hsize : cfg.rcvbufSize + 1 < 2147483648)
    {es : List (Env × Action)} {buf : TcpRingBuffer} (hs : Opened cfg s)
    (hf : (run cfg s es).fault = none) (hl : (run cfg s es).onHashTable = true)
    (hst : (run cfg s es).state = .established)
    (hbuf : (run cfg s es).rcvvar.rcvbuf = some buf) (hfrag : env.fragAlloc = true)
    (hover : Overlaps seg buf (run cfg s es)) :
    TakenIn seg (processTCPPayload cfg env seg (run cfg s es)).2 ↔
      lt seg.seq buf.headSeq = false := by
  obtain ⟨-, hrecv⟩ := run_receiving hsize hs hf hl
  have hwnd := (run_fitting es hs hl).recv
  generalize run cfg s es = t at *
  obtain ⟨hsound, hm, hnext⟩ := Overlaps.sound hrecv hst hbuf
  obtain ⟨hput, hnxt⟩ := @Overlaps.put cfg env seg t buf hrecv hst hbuf hover hwnd
  have hsmall := hsound.small
  cases hlt : lt seg.seq buf.headSeq with
  | true =>
    have hfar := Overlaps.far_of_lt hrecv hst hbuf hlt
    obtain hsame | ⟨-, hfits⟩ :=
      @rbPut_cases buf seg.payload seg.seq (by omega) seg.payload_lt env.fragAlloc
    · rw [hsame, ← hnext] at hnxt
      refine ⟨?_, fun h => Bool.noConfusion h⟩
      rintro ⟨-, -, hgeq, -⟩
      rw [hnxt, geq_iff] at hgeq
      have hbrings := (lt_iff _ _).mp hover.brings
      omega
    · omega
  | false =>
    obtain ⟨hold, hfits⟩ := Overlaps.fits_of_not_lt hrecv hst hbuf hover hlt
    have hnew := hover.fwd_lt_length
    obtain ⟨b, hb, hin, -, hstores⟩ := @rbPut_fits_sound buf _ seg.seq hsound (by omega) hfits
      env.fragAlloc
    obtain ⟨hstore, hcovers⟩ := hstores hfrag
    rw [hb] at hput hnxt
    dsimp only at hput hnxt
    -- the bytes before the segment were in order, the others it brings itself
    have hready : fwd buf.headSeq seg.seq + seg.payload.length ≤ b.mergedLen := by
      rw [hin.sound.merged]
      apply hin.sound.laid.le_readyLen
      intro x hx
      rw [hcovers]
      by_cases hold' : x < buf.mergedLen
      · rw [hsound.merged] at hold'
        exact .inl (Laid.covers_of_lt_readyLen hold')
      · exact .inr (by omega)
    refine ⟨fun _ => rfl, fun _ => ⟨b, hput, ?_, hstore, by rw [hin.headSeq]; exact hready⟩⟩
    have hmerged := hin.sound.mergedLen_le
    have hlast := hin.sound.lastLen_le
    have hsmall' := hin.sound.small
    have hfirst : fwd buf.headSeq (seg.seq + seg.payloadlen) =
        fwd buf.headSeq seg.seq + seg.payload.length := by
      rw [Segment.payloadlen, fwd_add_ofNat, Nat.mod_eq_of_lt (by omega)]
    have hlast' : fwd buf.headSeq (b.headSeq + UInt32.ofNat b.mergedLen) = b.mergedLen := by
      rw [hin.headSeq, fwd_add_ofNat, fwd_self, Nat.zero_add, Nat.mod_eq_of_lt (by omega)]
    have htrans := fwd_trans buf.headSeq (seg.seq + seg.payloadlen)
      (b.headSeq + UInt32.ofNat b.mergedLen)
    have hlt' := fwd_lt (seg.seq + seg.payloadlen) (b.headSeq + UInt32.ofNat b.mergedLen)
    rw [hnxt, geq_iff]
    omega

theorem overlapping_segment_taken :
    TakenIn { seq := 503, ack := true, payload := [3, 4, 5, 6] }
      (processTCPPayload .small {} { seq := 503, ack := true, payload := [3, 4, 5, 6] }
        (run .small client (atRest (clientHandshake ++
          [.rx { seq := 501, ackSeq := 101, window := 1000, ack := true, payload := [1, 2, 3, 4] },
            .recv true false 2])))).2 := by
  refine (@overlapping_segment_progress_iff .small {} _ client (by decide) _
    (rbRemove (rbPut true (rbInit (fun _ => 0) 64 501) [1, 2, 3, 4] 501).2 2).2.2 client_opened
    (by decide) (by decide) (by decide) (by decide) rfl
    ⟨by decide, by decide, by decide, by decide⟩).mpr ?_
  decide

/-- The application has read the bytes 501 and 502. The segment comes again with two more bytes:
`RBPut` sees that it starts in front of the buffer, and nothing of it is taken. -/
theorem retransmission_after_read_stalls :
    Overlaps { seq := 501, ack := true, payload := [1, 2, 3, 4, 5, 6] }
        (rbRemove (rbPut true (rbInit (fun _ => 0) 64 501) [1, 2, 3, 4] 501).2 2).2.2
        (run .small client (atRest (clientHandshake ++
          [.rx { seq := 501, ackSeq := 101, window := 1000, ack := true, payload := [1, 2, 3, 4] },
            .recv true false 2]))) ∧
      (run .small client (atRest (clientHandshake ++
          [.rx { seq := 501, ackSeq := 101, window := 1000, ack := true, payload := [1, 2, 3, 4] },
            .recv true false 2]))).rcvvar.rcvbuf =
        some (rbRemove (rbPut true (rbInit (fun _ => 0) 64 501) [1, 2, 3, 4] 501).2 2).2.2 ∧
      (processTCPPayload .small {} { seq := 501, ack := true, payload := [1, 2, 3, 4, 5, 6] }
        (run .small client (atRest (clientHandshake ++
          [.rx { seq := 501, ackSeq := 101, window := 1000, ack := true, payload := [1, 2, 3, 4] },
            .recv true false 2])))).2.rcvNxt = 505 := by
  refine ⟨⟨by decide, by decide, by decide, by decide⟩, by decide, by decide⟩

end Mtcp
