import Mtcp.ReceiveWindow
import Mtcp.Sending

namespace Mtcp

open Serial SendBuffer RingBuffer Bytes Runs List UInt32 Option Move

variable {cfg : Config} {s : TcpStream}

/-! The bytes of a stream in order: those the application has, then those that wait for it. -/

def handed : List Effect → List UInt8
  | [] => []
  | .hand bytes :: older => handed older ++ bytes
  | _ :: older => handed older

def unread : Option TcpRingBuffer → List UInt8
  | none => []
  | some buf => slice buf.data buf.head buf.mergedLen

def acknowledged (s : TcpStream) : List UInt8 := handed s.trace ++ unread s.rcvvar.rcvbuf

theorem handed_append (new old : List Effect) : handed (new ++ old) = handed old ++ handed new := by
  induction new with
  | nil => exact (append_nil _).symm
  | cons e new ih =>
    cases e with
    | hand bytes => rw [cons_append, handed, handed, ih, append_assoc]
    | _ => exact ih

theorem handed_kept (log : List Effect) : handed (log.filter Effect.kept) = handed log := by
  induction log with
  | nil => rfl
  | cons e log ih =>
    cases e with
    | hand bytes => exact congrArg (· ++ bytes) ih
    | _ => exact ih

theorem length_unread {buf : TcpRingBuffer} (h : Sound buf) :
    (unread (some buf)).length = buf.mergedLen := by
  have hmerged := h.mergedLen_le
  have hdata := h.data
  have hhead := h.head
  have htail := h.tail
  have hroom := h.room
  exact length_slice _ _ _ (by omega)

/-- The segment is put into the buffer over bytes in order that it does not repeat. -/
def rewrites (s : TcpStream) (seg : Segment) : Bool :=
  match s.rcvvar.rcvbuf with
  | none => false
  | some buf =>
    decide (s.state = .established) && !seg.syn && !lt (seg.seq + seg.payloadlen) s.rcvNxt &&
      decide (fwd buf.headSeq seg.seq + seg.payload.length ≤ buf.size) &&
      ((unread (some buf)).drop (fwd buf.headSeq seg.seq)).take seg.payload.length !=
        seg.payload.take (buf.mergedLen - fwd buf.headSeq seg.seq)

theorem unread_rbPut {buf : TcpRingBuffer} {seg : Segment} (h : Sound buf) (frag : Bool)
    (hagree : fwd buf.headSeq seg.seq + seg.payload.length ≤ buf.size →
      ((unread (some buf)).drop (fwd buf.headSeq seg.seq)).take seg.payload.length =
        seg.payload.take (buf.mergedLen - fwd buf.headSeq seg.seq)) :
    unread (some buf) <+: unread (some (rbPut frag buf seg.payload seg.seq).2) := by
  have hsmall := h.small
  obtain hsame | ⟨hpos, hfits⟩ := @rbPut_cases buf _ seg.seq (by omega) seg.payload_lt frag
  · rw [hsame]
  · obtain ⟨b, hput, hin, hblock, -⟩ := @rbPut_fits_sound buf _ seg.seq h hpos hfits frag
    have hmore := hin.mergedLen_le h
    have hlast := h.mergedLen_le
    have hold : slice b.data b.head buf.mergedLen = slice buf.data buf.head buf.mergedLen := by
      apply slice_congr
      intro x hx
      by_cases hnew : fwd buf.headSeq seg.seq ≤ x ∧ x < fwd buf.headSeq seg.seq + seg.payload.length
      · -- the segment has written this byte, with the value it had
        have hsame := congrArg (·[x - fwd buf.headSeq seg.seq]?) (hagree hfits)
        have hwritten := congrArg (·[x - fwd buf.headSeq seg.seq]?) hblock
        rw [getElem?_slice _ _ (by omega), hin.headSeq, Nat.add_assoc,
          Nat.add_sub_cancel' hnew.1] at hwritten
        rw [getElem?_take_of_lt (by omega), getElem?_drop, unread,
          getElem?_slice _ _ (by omega), getElem?_take_of_lt (by omega),
          Nat.add_sub_cancel' hnew.1] at hsame
        rw [hwritten, hsame]
      · exact hin.kept x (by omega) hnew
    rw [hput, unread, ← hold]
    exact slice_prefix b.data b.head hmore

/-! What the moves of a connection do to these bytes. -/

variable {v : Conn} {m : Move}

theorem Move.handed_effects (hne : ∀ buf n, m ≠ .hand buf n) : handed (m.effects v) = [] := by
  cases m with
  | ack buf x fast =>
    rw [effects]
    split <;> rfl
  | hand buf n => exact absurd rfl (hne buf n)
  | _ => rfl

theorem Move.apply_handed (hm : m.calm) (hne : ∀ buf n, m ≠ .hand buf n) :
    handed (m.apply v).log = handed v.log := by
  rw [apply_log (.inl hm), handed_append, handed_effects hne, append_nil]

theorem Move.apply_rcvbuf (hm : m.calm) (hne : ∀ buf n, m ≠ .hand buf n)
    (hne' : ∀ frag buf seg, m ≠ .receive frag buf seg) : (m.apply v).rcvbuf = v.rcvbuf := by
  by_cases hr : m.recvs = false
  · exact (apply_recv hm hr).1
  · cases m with
    | receive frag buf seg => exact absurd rfl (hne' frag buf seg)
    | hand buf n => exact absurd rfl (hne buf n)
    | listen _ | synAck _ _ | ackOfSyn | peerFin _ _ => rfl
    | _ => exact absurd rfl hr

def TcpState.past : TcpState → Bool
  | .listen | .synSent | .synRcvd | .established => false
  | _ => true

theorem Move.dest_past (hg : m.guard cfg v) (hm : m.calm) (h : v.state.past) : (m.dest v).past := by
  have hnot : ∀ {st : TcpState}, v.state = st → st.past = false → (m.dest v).past := by
    intro st hst hp
    rw [hst, hp] at h
    cases h
  cases m with
  | crash w => cases hm
  | shut | reset | refused | finAcked | closingAcked | lastAcked => rfl
  | listen | loneSyn => exact hnot hg rfl
  | synAck seq a => exact hnot hg.2.1 rfl
  | ackOfSyn => exact hnot hg.2 rfl
  | peerFin seq dest =>
    obtain ⟨-, ⟨-, rfl⟩ | ⟨-, rfl⟩ | ⟨-, rfl⟩ | ⟨-, rfl⟩⟩ := hg <;> rfl
  | beginClose =>
    rw [dest]
    split <;> rfl
  | _ => exact h

/-! Bytes that were acknowledged once. -/

def Matches (xs ys : List UInt8) : Prop :=
  ∀ (i : Nat) x y, xs[i]? = some x → ys[i]? = some y → y = x

theorem given_of_prefix {xs ys rest : List UInt8} (h : xs <+: ys ++ rest) : Matches xs ys := by
  intro i x y hx hy
  obtain ⟨hi, -⟩ := List.getElem?_eq_some_iff.mp hy
  obtain ⟨hi', -⟩ := List.getElem?_eq_some_iff.mp hx
  obtain ⟨more, hmore⟩ := h
  have hat : (xs ++ more)[i]? = (ys ++ rest)[i]? := by rw [hmore]
  rw [getElem?_append_left hi', getElem?_append_left hi, hx, hy] at hat
  exact (some.inj hat).symm

/-- The bytes of `acked` are what the application has and will get, or it gets no more. -/
def Conn.Keeps (acked : List UInt8) (v : Conn) : Prop :=
  acked <+: handed v.log ++ unread v.rcvbuf ∨
    v.state.past = true ∧ unread v.rcvbuf = [] ∧ Matches acked (handed v.log)

theorem Conn.Keeps.given {acked : List UInt8} (h : v.Keeps acked) :
    Matches acked (handed v.log) := by
  obtain h | ⟨-, -, h⟩ := h
  · exact given_of_prefix h
  · exact h

theorem Conn.Keeps.frame {acked : List UInt8} (h : v.Keeps acked) (hg : m.guard cfg v)
    (hm : m.calm) (hne : ∀ buf n, m ≠ .hand buf n)
    (hne' : ∀ frag buf seg, m ≠ .receive frag buf seg) : (m.apply v).Keeps acked := by
  rw [Conn.Keeps, apply_handed hm hne, apply_rcvbuf hm hne hne', apply_state]
  obtain h | ⟨hpast, hnone, hagree⟩ := h
  · exact .inl h
  · exact .inr ⟨dest_past hg hm hpast, hnone, hagree⟩

theorem Conn.Keeps.hand {acked : List UInt8} (h : v.Keeps acked) (hr : v.Receiving cfg)
    {buf : TcpRingBuffer} {n : Nat} (hbuf : v.rcvbuf = some buf) (hpos : 0 < n)
    (hn : n ≤ buf.mergedLen) : (Move.apply v (.hand buf n)).Keeps acked := by
  have hsound := (hr.sound buf hbuf).1
  have hrem := rbRemove_removed hsound hn
  obtain h | ⟨-, hnone, -⟩ := h
  · refine .inl ?_
    change acked <+: (handed v.log ++ slice buf.data buf.head n) ++
      slice (rbRemove buf n).2.2.data (rbRemove buf n).2.2.head (rbRemove buf n).2.2.mergedLen
    rw [hrem.data, hrem.head, hrem.mergedLen, append_assoc, slice_append _ _ hn]
    rw [hbuf] at h
    exact h
  · -- no byte is there to be read
    rw [hbuf] at hnone
    have hlen := length_unread hsound
    rw [hnone] at hlen
    change 0 = buf.mergedLen at hlen
    omega

theorem Conn.Keeps.receive {acked : List UInt8} (h : v.Keeps acked) (hr : v.Receiving cfg)
    (hst : v.state = .established) {buf : TcpRingBuffer} {seg : Segment}
    (hbuf : v.FilledBy cfg buf) (frag : Bool)
    (hagree : v.rcvbuf = some buf → fwd buf.headSeq seg.seq + seg.payload.length ≤ buf.size →
      ((unread (some buf)).drop (fwd buf.headSeq seg.seq)).take seg.payload.length =
        seg.payload.take (buf.mergedLen - fwd buf.headSeq seg.seq)) :
    (Move.apply v (.receive frag buf seg)).Keeps acked := by
  have hopen : ¬ (v.state = .finWait1 ∨ v.state = .finWait2) := by
    rw [hst]
    rintro (h | h) <;> cases h
  have hkeep : unread v.rcvbuf <+: unread (some (rbPut frag buf seg.payload seg.seq).2) := by
    obtain hsome | ⟨hnone, -⟩ := hbuf
    · rw [hsome]
      exact unread_rbPut (hr.sound buf hsome).1 frag (hagree hsome)
    · rw [hnone]
      exact nil_prefix
  obtain h | ⟨hpast, -, -⟩ := h
  · refine .inl ?_
    change acked <+: handed v.log ++ unread (v.receivedPayload _).rcvbuf
    rw [Conn.receivedPayload, if_neg hopen]
    exact h.trans ((prefix_append_right_inj _).mpr hkeep)
  · rw [hst] at hpast
    cases hpast

/-- Behind ESTABLISHED payload is thrown away, with what has not been read. -/
theorem Conn.Keeps.discard {acked : List UInt8} (h : v.Keeps acked) (hr : v.Receiving cfg)
    (hsize : cfg.rcvbufSize + 1 < 2147483648) (hst : v.state = .finWait1 ∨ v.state = .finWait2)
    {buf : TcpRingBuffer} {seg : Segment} (hbuf : v.FilledBy cfg buf) (frag : Bool) :
    (Move.apply v (.receive frag buf seg)).Keeps acked := by
  have hput := @rbPut_putIn buf seg.payload seg.seq (hr.filled hsize hbuf).1 seg.payload_lt frag
  have hrem := rbRemove_removed hput.sound (le_refl _)
  refine .inr ⟨?_, ?_, h.given⟩
  · change v.state.past
    obtain hst | hst := hst <;> rw [hst] <;> rfl
  · change unread (v.receivedPayload _).rcvbuf = []
    rw [Conn.receivedPayload, if_pos hst]
    apply length_eq_zero_iff.mp
    rw [length_unread hrem.sound, hrem.mergedLen, Nat.sub_self]

structure Keeping (cfg : Config) (acked : List UInt8) (s : TcpStream) (v : Conn) : Prop where
  entry : (conn s).Receiving cfg
  recv : v.Receiving cfg
  keeps : v.Keeps acked

def faithful (s : TcpStream) (seg : Segment) : Bool := !rewrites s seg

theorem faithful_agree {seg : Segment} {buf : TcpRingBuffer} (h : faithful s seg)
    (hst : s.state = .established) (hsyn : seg.syn = false)
    (hlt : lt (seg.seq + seg.payloadlen) s.rcvNxt = false) (hbuf : s.rcvvar.rcvbuf = some buf)
    (hfits : fwd buf.headSeq seg.seq + seg.payload.length ≤ buf.size) :
    ((unread (some buf)).drop (fwd buf.headSeq seg.seq)).take seg.payload.length =
      seg.payload.take (buf.mergedLen - fwd buf.headSeq seg.seq) := by
  rw [faithful, rewrites, hbuf] at h
  simpa [hst, hsyn, hlt, hfits] using h

theorem Keeping.apply {acked : List UInt8} {e : Env × Action}
    (hsize : cfg.rcvbufSize + 1 < 2147483648) (hc : onAccepted faithful cfg s e)
    (h : Keeping cfg acked s v) (hg : m.guard cfg v) (hm : m.calm)
    (hcause : Cause cfg s e v m) : Keeping cfg acked s (m.apply v) := by
  refine ⟨h.entry, receiving_apply hsize h.recv hg hm, ?_⟩
  cases m with
  | hand buf n =>
    obtain ⟨hbuf, hpos, hn, -⟩ := hg
    exact h.keeps.hand h.recv hbuf hpos hn
  | receive frag buf seg =>
    obtain ⟨hst, hbuf, -, -⟩ := hg
    obtain ⟨he, hrst, hlt, harr⟩ := hcause
    obtain hst | hst := hst
    · obtain ⟨hsame, hsyn | ⟨hest, hnxt, hval, hsyn⟩⟩ := harr hst
      · -- a stream that completes its handshake has no bytes yet
        have hnone : s.rcvvar.rcvbuf = none := h.entry.early (by
          rw [show (conn s).state = .synRcvd from hsyn]
          rfl)
        refine h.keeps.receive h.recv hst hbuf frag fun hsome => ?_
        rw [hsame, hnone] at hsome
        cases hsome
      · rw [hnxt] at hlt
        have hfaithful := onAccepted_rx hc he hrst hval
        exact h.keeps.receive h.recv hst hbuf frag fun hsome =>
          faithful_agree hfaithful hest hsyn hlt (hsame.symm.trans hsome)
    · exact h.keeps.discard h.recv hsize hst hbuf frag
  | _ => exact h.keeps.frame hg hm (fun _ _ => nofun) (fun _ _ _ => nofun)

/-! Where the bytes stand in the sequence space. -/

structure Conn.Counted (v : Conn) : Prop where
  fresh : v.rcvbuf = none → handed v.log = []
  head : v.state = .established → ∀ buf, v.rcvbuf = some buf →
    buf.headSeq = v.irs + 1 + UInt32.ofNat (handed v.log).length

theorem Conn.Counted.hand (h : v.Counted) (hr : v.Receiving cfg) {buf : TcpRingBuffer} {n : Nat}
    (hbuf : v.rcvbuf = some buf) (hn : n ≤ buf.mergedLen) :
    (Move.apply v (.hand buf n)).Counted := by
  have hsound := (hr.sound buf hbuf).1
  have hrem := rbRemove_removed hsound hn
  have hlen := hsound.length_slice hn
  refine ⟨nofun, fun hst b hb => ?_⟩
  obtain rfl := some.inj hb
  change (rbRemove buf n).2.2.headSeq =
    v.irs + 1 + ofNat (handed v.log ++ slice buf.data buf.head n).length
  rw [hrem.headSeq, h.head hst buf hbuf, length_append, hlen, ofNat_add, ← UInt32.add_assoc]

theorem Conn.Counted.receive (h : v.Counted) (hr : v.Receiving cfg)
    (hsize : cfg.rcvbufSize + 1 < 2147483648) {buf : TcpRingBuffer} {seg : Segment}
    (hbuf : v.FilledBy cfg buf) (frag : Bool) : (Move.apply v (.receive frag buf seg)).Counted := by
  have hput := @rbPut_putIn buf seg.payload seg.seq (hr.filled hsize hbuf).1 seg.payload_lt frag
  refine ⟨nofun, fun hst b hb => ?_⟩
  change v.state = .established at hst
  have hopen : ¬ (v.state = .finWait1 ∨ v.state = .finWait2) := by
    rw [hst]
    rintro (h | h) <;> cases h
  change (v.receivedPayload _).rcvbuf = some b at hb
  rw [Conn.receivedPayload, if_neg hopen] at hb
  obtain rfl := some.inj hb
  change _ = v.irs + 1 + ofNat (handed v.log).length
  rw [hput.headSeq]
  obtain hsome | ⟨hnone, junk, rfl⟩ := hbuf
  · exact h.head hst buf hsome
  · rw [h.fresh hnone]
    exact (UInt32.add_zero _).symm

theorem Move.dest_established (hg : m.guard cfg v) (hm : m.calm)
    (hst : m.dest v = .established) : v.state = .established ∨ v.state.early := by
  cases m with
  | crash w => cases hm
  | synAck seq a => exact .inr (by rw [show v.state = .synSent from hg.2.1]; rfl)
  | ackOfSyn => exact .inr (by rw [show v.state = .synRcvd from hg.2]; rfl)
  | peerFin seq dest =>
    obtain ⟨-, ⟨-, rfl⟩ | ⟨-, rfl⟩ | ⟨-, rfl⟩ | ⟨-, rfl⟩⟩ := hg <;> cases hst
  | beginClose =>
    rw [dest] at hst
    split at hst <;> cases hst
  | shut _ | reset | refused | listen _ | loneSyn _ | finAcked | closingAcked | lastAcked =>
    cases hst
  | _ => exact .inl hst

theorem Conn.Counted.frame (h : v.Counted) (hr : v.Receiving cfg) (hg : m.guard cfg v)
    (hm : m.calm) (hne : ∀ buf n, m ≠ .hand buf n)
    (hne' : ∀ frag buf seg, m ≠ .receive frag buf seg) : (m.apply v).Counted := by
  have hbuf := apply_rcvbuf hm hne hne' (v := v)
  have hhanded := apply_handed hm hne (v := v)
  refine ⟨fun hnone => ?_, fun hst b hb => ?_⟩
  · rw [hhanded]
    exact h.fresh (hbuf.symm.trans hnone)
  · rw [hbuf] at hb
    rw [apply_state] at hst
    obtain hest | hearly := dest_established hg hm hst
    · have hirs : (m.apply v).irs = v.irs := by
        refine apply_irs hm ?_
        rintro seq a rfl
        exact absurd (hest.symm.trans hg.2.1) nofun
      rw [hirs, hhanded]
      exact h.head hest b hb
    · rw [hr.early hearly] at hb
      cases hb

theorem Conn.Counted.apply (h : v.Counted) (hr : v.Receiving cfg)
    (hsize : cfg.rcvbufSize + 1 < 2147483648) (hg : m.guard cfg v) (hm : m.calm) :
    (m.apply v).Counted := by
  cases m with
  | hand buf n => exact h.hand hr hg.1 hg.2.2.1
  | receive frag buf seg => exact h.receive hr hsize hg.2.1 frag
  | _ => exact h.frame hr hg hm (fun _ _ => nofun) (fun _ _ _ => nofun)

theorem Started.counted (h : Started v) : v.Counted := by
  cases h with
  | active | passive => exact ⟨fun _ => rfl, fun _ => nofun⟩

theorem run_counted (hsize : cfg.rcvbufSize + 1 < 2147483648) {es : List (Env × Action)}
    (hs : Opened cfg s) (hf : (run cfg s es).fault = none) (hl : (run cfg s es).onHashTable) :
    Live (conn (run cfg s es)) ∧
      (conn (run cfg s es)).Receiving cfg ∧ (conn (run cfg s es)).Counted :=
  @run_invariant cfg (fun v => v.Receiving cfg ∧ v.Counted) (fun _ _ => True)
    (fun _ _ _ _ _ _ h hg hm _ => ⟨receiving_apply hsize h.1 hg hm, h.2.apply h.1 hsize hg hm⟩)
    (fun _ h => ⟨h.receiving, h.counted⟩) s es hs (along_of_forall (fun _ _ => trivial) s es) hf hl

/-- In ESTABLISHED the acknowledged bytes are those between the peer's SYN and `rcv_nxt`. -/
theorem rcvNxt_eq_acknowledged (hr : (conn s).Receiving cfg) (hc : (conn s).Counted)
    (hst : s.state = .established) :
    s.rcvNxt = s.rcvvar.irs + 1 + ofNat (acknowledged s).length := by
  have hnext := hr.next (by rw [show (conn s).state = .established from hst]; rfl)
  change s.rcvNxt = _ at hnext
  have hkept : handed (conn s).log = handed s.trace := handed_kept s.trace
  rw [Conn.readyEnd, show (conn s).rcvbuf = s.rcvvar.rcvbuf from rfl] at hnext
  rw [acknowledged, hnext, length_append]
  cases hbuf : s.rcvvar.rcvbuf with
  | none =>
    have hnone := hc.fresh hbuf
    rw [hkept] at hnone
    rw [hnone]
    exact (UInt32.add_zero _).symm
  | some buf =>
    have hhead := hc.head hst buf hbuf
    rw [hkept] at hhead
    rw [length_unread (hr.sound buf hbuf).1, UInt32.ofNat_add, ← UInt32.add_assoc]
    exact congrArg (· + _) hhead

/-! Runs. -/

theorem run_append (s : TcpStream) (es fs : List (Env × Action)) :
    run cfg s (es ++ fs) = run cfg (run cfg s es) fs := foldl_append

theorem run_of_fault {f : Fault} (es : List (Env × Action)) (h : s.fault = some f) :
    run cfg s es = s := by
  induction es with
  | nil => rfl
  | cons e es ih =>
    have hstep : step cfg s e = s := by
      rw [step, h]
      rfl
    change run cfg (step cfg s e) es = s
    rw [hstep, ih]

theorem onHashTable_of_run {es fs : List (Env × Action)} (hs : Opened cfg s)
    (hf : (run cfg s (es ++ fs)).fault = none) (hl : (run cfg s (es ++ fs)).onHashTable) :
    (run cfg s es).fault = none ∧ (run cfg s es).onHashTable := by
  rw [run_append] at hf hl
  have hf' : (run cfg s es).fault = none := by
    by_contra hne
    obtain ⟨f, hsome⟩ := ne_none_iff_exists'.mp hne
    rw [run_of_fault fs hsome] at hf
    exact hne hf
  refine ⟨hf', ?_⟩
  by_contra hdead
  have hrun := @run_running cfg (fun _ => True) (fun _ _ => True)
    (fun _ _ _ _ _ _ _ _ _ _ => trivial) (fun _ _ => trivial) s es hs
    (along_of_forall (fun _ _ => trivial) s es) hf'
  have hkeep := @run_rule_from cfg (fun v => v.alive = false) (fun _ _ v => v.alive = false)
    (fun _ _ => True) (fun _ _ _ h => h) ?_ (fun _ _ _ _ h => h) (run cfg s es) fs
    (fun _ => ⟨hrun.1, eq_false_of_ne_true hdead⟩)
    (along_of_forall (fun _ _ => trivial) _ fs) hf
  · exact absurd (hl.symm.trans hkeep.2) nofun
  · rintro t e v m - - h - (hm | rfl) -
    · exact (apply_alive hm).trans h
    · rfl

/-- In a run whose accepted segments repeat the bytes in order they overlap, a byte that was before
`rcv_nxt` once is returned with the value it had then. -/
theorem acknowledged_bytes_immutable (hsize : cfg.rcvbufSize + 1 < 2147483648)
    {es fs : List (Env × Action)} (hs : Opened cfg s)
    (ha : Along (step cfg) (fun t e => onAccepted faithful cfg t e = true) (run cfg s es) fs)
    (hf : (run cfg s (es ++ fs)).fault = none) (hl : (run cfg s (es ++ fs)).onHashTable = true) :
    ((run cfg s es).state = .established → (run cfg s es).rcvNxt =
      (run cfg s es).rcvvar.irs + 1 + UInt32.ofNat (acknowledged (run cfg s es)).length) ∧
    ∀ (i : Nat) x y, (acknowledged (run cfg s es))[i]? = some x →
      (handed (run cfg s (es ++ fs)).trace)[i]? = some y → y = x := by
  obtain ⟨hf', hl'⟩ := onHashTable_of_run hs hf hl
  obtain ⟨hlive, hrecv, hcounted⟩ := run_counted hsize hs hf' hl'
  refine ⟨rcvNxt_eq_acknowledged hrecv hcounted, ?_⟩
  rw [run_append] at hf hl ⊢
  generalize run cfg s es = t at *
  have hstart : (conn t).Keeps (acknowledged t) := by
    refine .inl ?_
    change _ <+: handed (t.trace.filter Effect.kept) ++ _
    rw [handed_kept]
    exact List.prefix_refl _
  have hrule := @run_rule_live_from cfg
    (fun v => v.Receiving cfg ∧ v.Keeps (acknowledged t))
    (fun u _ v => Keeping cfg (acknowledged t) u v) _
    (fun u _ _ h => ⟨h.1, h.1, h.2⟩) (fun u e v m hc _ h hg hm => h.apply hsize hc hg hm)
    (fun u e _ _ h => ⟨h.recv, h.keeps⟩) t fs
    (fun _ => ⟨hlive.toRunning, fun _ => ⟨hrecv, hstart⟩⟩) ha hf hl
  have hagree := hrule.2.2.given
  rw [show (conn (run cfg t fs)).log = (run cfg t fs).trace.filter Effect.kept from rfl,
    handed_kept] at hagree
  exact hagree

def firstBytes (payload : List UInt8) (h : payload.length < 65536) : Action :=
  .rx { seq := 501, ackSeq := 101, window := 1000, ack := true, payload := payload,
        payload_lt := h }

theorem acknowledged_bytes_repeated :
    acknowledged (run .small client
        (atRest (clientHandshake ++ [firstBytes [1, 2, 3] (by decide)]))) = [1, 2, 3] ∧
      ∀ (i : Nat) x y, (acknowledged (run .small client
          (atRest (clientHandshake ++ [firstBytes [1, 2, 3] (by decide)]))))[i]? = some x →
        (handed (run .small client
          (atRest (clientHandshake ++ [firstBytes [1, 2, 3] (by decide)]) ++
            atRest [firstBytes [1, 2, 3, 4] (by decide), .recv true false 10])).trace)[i]? =
          some y → y = x :=
  ⟨by decide, (acknowledged_bytes_immutable (by decide) client_opened (by decide) (by decide)
    (by decide)).2⟩

/-- Three bytes are acknowledged. Before they are read a segment with other contents comes for the
same sequence numbers, and the application gets those. -/
theorem later_segment_rewrites_acknowledged :
    acknowledged (run .small client
        (atRest (clientHandshake ++ [firstBytes [1, 2, 3] (by decide)]))) = [1, 2, 3] ∧
      (run .small client (atRest (clientHandshake ++ [firstBytes [1, 2, 3] (by decide)]))).rcvNxt =
        504 ∧
      handed (run .small client (atRest (clientHandshake ++ [firstBytes [1, 2, 3] (by decide),
        firstBytes [9, 9, 9] (by decide), .recv true false 10]))).trace = [9, 9, 9] := by
  decide

end Mtcp
