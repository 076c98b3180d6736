import Mtcp.Absorbing
import Mtcp.Reachable
import Mtcp.ReceiveBuffer
import Mtcp.Windows

namespace Mtcp

open Serial SendBuffer RingBuffer Bytes Runs UInt32 Option Move

variable {cfg : Config}

def rightEdge (s : TcpStream) : UInt32 := s.rcvNxt + s.rcvvar.rcvWnd

def TcpState.receives : TcpState → Bool
  | .established | .finWait1 | .finWait2 => true
  | _ => false

def InWindow (seg : Segment) (s : TcpStream) : Prop :=
  0 < seg.payload.length ∧ fwd s.rcvNxt seg.seq + seg.payload.length ≤ s.rcvvar.rcvWnd.toNat

/-- The call of `RBPut` that `ProcessTCPPayload` makes. -/
def putCall (cfg : Config) (env : Env) (seg : Segment) (s : TcpStream) :
    Option (PutResult × TcpRingBuffer) :=
  if lt (seg.seq + seg.payloadlen) s.rcvNxt then none
  else if gt (seg.seq + seg.payloadlen) (s.rcvNxt + s.rcvvar.rcvWnd) then none
  else (ensureRcvbuf cfg env s).map fun buf => rbPut env.fragAlloc buf seg.payload seg.seq

/-- The receive buffers that last: no smaller than the window a stream starts with, and small
enough for the order of the fragments. -/
def Config.roomy (cfg : Config) : Prop :=
  14600 ≤ cfg.rcvbufSize ∧ cfg.rcvbufSize + 1 < 2147483648

namespace Conn

def readyEnd (v : Conn) : UInt32 :=
  match v.rcvbuf with
  | none => v.irs + 1
  | some buf => buf.headSeq + UInt32.ofNat buf.mergedLen

def edge (v : Conn) : UInt32 := v.rcvNxt + recvRoom v.rcvbuf

structure Receiving (cfg : Config) (v : Conn) : Prop where
  early : v.state.early = true → v.rcvbuf = none
  sound : ∀ buf, v.rcvbuf = some buf → Sound buf ∧ buf.size = cfg.rcvbufSize
  next : v.state.receives = true → v.rcvNxt = v.readyEnd

def Widens (n : Nat) (v w : Conn) : Prop := ∃ d ≤ n, w.edge = v.edge + UInt32.ofNat d

variable {u v w : Conn} {m n : Nat}

theorem Widens.of_recv (hnxt : w.rcvNxt = v.rcvNxt) (hbuf : w.rcvbuf = v.rcvbuf) :
    Widens 0 v w := by
  refine ⟨0, le_refl 0, ?_⟩
  rw [edge, edge, hnxt, hbuf]
  exact (UInt32.add_zero _).symm

theorem Widens.mono (h : Widens m v w) (hmn : m ≤ n) : Widens n v w := by
  obtain ⟨d, hd, he⟩ := h
  exact ⟨d, hd.trans hmn, he⟩

theorem Widens.trans (h : Widens m u v) (h' : Widens n v w) : Widens (m + n) u w := by
  obtain ⟨d, hd, he⟩ := h
  obtain ⟨d', hd', he'⟩ := h'
  refine ⟨d + d', Nat.add_le_add hd hd', ?_⟩
  rw [he', he, UInt32.ofNat_add, UInt32.add_assoc]

theorem Widens.keep (h : Widens n u v) (h' : Widens 0 v w) : Widens n u w := h.trans h'

theorem Widens.leq (h : Widens n v w) (hn : n < 2147483648) : leq v.edge w.edge := by
  obtain ⟨d, hd, he⟩ := h
  apply leq_of_fwd_lt
  rw [he, fwd_add_ofNat, fwd_self, Nat.zero_add, Nat.mod_eq_of_lt (by omega)]
  omega

theorem room_eq {buf : TcpRingBuffer} (h : Sound buf) :
    buf.headSeq + ofNat buf.mergedLen + recvRoom (some buf) = buf.headSeq + ofNat buf.size := by
  have hle := h.mergedLen_le
  have hlast := h.lastLen_le
  rw [recvRoom, UInt32.add_assoc, ← UInt32.ofNat_add, Nat.add_sub_cancel' (by omega)]

/-! A payload. -/

def FilledBy (cfg : Config) (v : Conn) (buf : TcpRingBuffer) : Prop :=
  v.rcvbuf = some buf ∨ v.rcvbuf = none ∧ ∃ junk, buf = rbInit junk cfg.rcvbufSize (v.irs + 1)

theorem Receiving.filled (h : Receiving cfg v) (hsize : cfg.rcvbufSize + 1 < 2147483648)
    {buf : TcpRingBuffer} (hbuf : FilledBy cfg v buf) : Sound buf ∧ buf.size = cfg.rcvbufSize := by
  obtain hbuf | ⟨_, junk, rfl⟩ := hbuf
  · exact h.sound buf hbuf
  · exact ⟨rbInit_sound junk hsize _, rfl⟩

/-- What is left of a buffer after a payload went in and, if nobody reads any more, the bytes in
order went out. -/
theorem receivedPayload_buffer {b : TcpRingBuffer} (h : Sound b) :
    ∃ b' k, (v.receivedPayload b).rcvbuf = some b' ∧
      (v.receivedPayload b).rcvNxt = b'.headSeq + ofNat b'.mergedLen ∧ Sound b' ∧
      b'.size = b.size ∧ b'.headSeq = b.headSeq + ofNat k ∧ k ≤ b.mergedLen := by
  unfold receivedPayload
  split
  · have hr := rbRemove_removed h (le_refl b.mergedLen)
    exact ⟨_, b.mergedLen, rfl, rfl, hr.sound, hr.size, hr.headSeq, le_refl _⟩
  · exact ⟨b, 0, rfl, rfl, h, rfl, (UInt32.add_zero _).symm, Nat.zero_le _⟩

theorem Receiving.received (h : Receiving cfg v) (hsize : cfg.rcvbufSize + 1 < 2147483648)
    (hst : v.state.receives) {buf : TcpRingBuffer} (hbuf : FilledBy cfg v buf)
    (frag : Bool) (seg : Segment) :
    Receiving cfg (v.receivedPayload (rbPut frag buf seg.payload seg.seq).2) := by
  obtain ⟨hsound, hbsize⟩ := h.filled hsize hbuf
  have hput := @rbPut_putIn buf seg.payload seg.seq hsound seg.payload_lt frag
  obtain ⟨b', k, hrcv, hnxt, hb', hsize', -, -⟩ := @receivedPayload_buffer v _ hput.sound
  refine ⟨fun hearly => ?_, fun b hb => ?_, fun _ => ?_⟩
  · change v.state.early at hearly
    cases hv : v.state <;> rw [hv] at hst hearly <;> simp_all [TcpState.receives, TcpState.early]
  · obtain rfl := some.inj (hrcv.symm.trans hb)
    exact ⟨hb', by rw [hsize', hput.size, hbsize]⟩
  · rw [hnxt, readyEnd, hrcv]

theorem Receiving.received_widens (h : Receiving cfg v) (hsize : cfg.roomy)
    (hst : v.state.receives) {buf : TcpRingBuffer} (hbuf : FilledBy cfg v buf)
    (frag : Bool) (seg : Segment)
    (hwin : fwd v.rcvNxt (seg.seq + seg.payloadlen) ≤ (recvRoom v.rcvbuf).toNat) :
    Widens cfg.rcvbufSize v (v.receivedPayload (rbPut frag buf seg.payload seg.seq).2) := by
  obtain ⟨hsound, hbsize⟩ := h.filled hsize.2 hbuf
  have hput := @rbPut_putIn buf seg.payload seg.seq hsound seg.payload_lt frag
  generalize (rbPut frag buf seg.payload seg.seq).2 = b at hput ⊢
  obtain ⟨b', k, hrcv, hnxt, hb', hsize', hseq, hk⟩ := @receivedPayload_buffer v _ hput.sound
  have hnew : (v.receivedPayload b).edge = buf.headSeq + ofNat (k + cfg.rcvbufSize) := by
    rw [edge, hrcv, hnxt, room_eq hb', hseq, hsize', hput.size, hbsize, hput.headSeq,
      UInt32.ofNat_add, UInt32.add_assoc]
  have hmerged := hput.sound.mergedLen_le
  have hlast := hput.sound.lastLen_le
  rw [hput.size, hbsize] at hlast
  have hnext := h.next hst
  obtain hsome | ⟨hnone, junk, rfl⟩ := hbuf
  · have hold : v.edge = buf.headSeq + ofNat cfg.rcvbufSize := by
      rw [edge, hnext, readyEnd, hsome, room_eq hsound, hbsize]
    refine ⟨k, by omega, ?_⟩
    rw [hnew, hold, UInt32.add_assoc, ← UInt32.ofNat_add, Nat.add_comm k]
  · -- the first payload: its buffer takes over from the window the stream started with
    have hbase : v.rcvNxt = v.irs + 1 := by
      rw [hnext, readyEnd, hnone]
    have hold : v.edge = v.irs + 1 + ofNat 14600 := by
      rw [edge, hbase, hnone]
      rfl
    have hreach : b.lastLen ≤ 14600 := by
      obtain hlen | ⟨hfits, hlen⟩ := hput.lastLen
      · rw [hlen]
        exact Nat.zero_le _
      · rw [hbase, hnone, Segment.payloadlen, fwd_add_ofNat] at hwin
        change _ ≤ 14600 at hwin
        change b.lastLen = max 0 (fwd (v.irs + 1) seg.seq + _) at hlen
        have hroom := hsize.2
        omega
    have hroom := hsize.1
    refine ⟨k + cfg.rcvbufSize - 14600, by omega, ?_⟩
    have hsum : 14600 + (k + cfg.rcvbufSize - 14600) = k + cfg.rcvbufSize := by omega
    rw [hnew, hold, UInt32.add_assoc, ← UInt32.ofNat_add, hsum, rbInit]

end Conn

/-! The moves of a connection. -/

def Move.recvs : Move → Bool
  | .listen _ | .synAck _ _ | .ackOfSyn | .receive _ _ _ | .peerFin _ _ | .hand _ _ => true
  | _ => false

variable {v w : Conn} {m : Move}

theorem Move.apply_recv (hm : m.calm) (hr : m.recvs = false) :
    (m.apply v).rcvbuf = v.rcvbuf ∧ (m.apply v).rcvNxt = v.rcvNxt ∧ (m.apply v).irs = v.irs := by
  cases m with
  | ack buf x fast =>
    rw [show apply v (.ack buf x fast) = _ from v.acked_eq buf x fast]
    exact ⟨rfl, rfl, rfl⟩
  | retransmit =>
    rw [show apply v .retransmit = _ from v.retransmitted_eq]
    exact ⟨rfl, rfl, rfl⟩
  | listen _ | synAck _ _ | ackOfSyn | receive _ _ _ | peerFin _ _ | hand _ _ => cases hr
  | crash _ | destroy => cases hm
  | _ => exact ⟨rfl, rfl, rfl⟩

theorem Move.dest_recv (hg : m.guard cfg v) (hm : m.calm) (hr : m.recvs = false) :
    ((m.dest v).early → v.state.early) ∧ ((m.dest v).receives → v.state.receives) := by
  cases m with
  | loneSyn seq =>
    have hst : v.state = .synSent := hg
    rw [hst]
    exact ⟨fun _ => rfl, nofun⟩
  | finAcked =>
    rw [show v.state = .finWait1 from hg.1]
    exact ⟨nofun, fun _ => rfl⟩
  | beginClose =>
    obtain hst | hst := hg.1
    · rw [dest, hst, if_pos rfl]
      exact ⟨nofun, fun _ => rfl⟩
    · rw [dest, hst, if_neg nofun]
      exact ⟨nofun, nofun⟩
  | crash w => cases hm
  | shut | reset | refused | closingAcked | lastAcked => exact ⟨nofun, nofun⟩
  | listen _ | synAck _ _ | ackOfSyn | receive _ _ _ | peerFin _ _ | hand _ _ => cases hr
  | _ => exact ⟨id, id⟩

theorem TcpState.receives_cases {st : TcpState} (h : st.receives) :
    st = .established ∨ st = .finWait1 ∨ st = .finWait2 := by
  cases st <;> simp_all [TcpState.receives]

theorem TcpState.receives_of {st : TcpState}
    (h : st = .established ∨ st = .finWait1 ∨ st = .finWait2) : st.receives := by
  obtain rfl | rfl | rfl := h <;> rfl

theorem receiving_hand (h : v.Receiving cfg) {buf : TcpRingBuffer} {n : Nat}
    (hbuf : v.rcvbuf = some buf) (hn : n ≤ buf.mergedLen) :
    (Move.apply v (.hand buf n)).Receiving cfg := by
  obtain ⟨hsound, hsize⟩ := h.sound buf hbuf
  have hr := rbRemove_removed hsound hn
  refine ⟨fun hearly => ?_, fun b hb => ?_, fun hst => ?_⟩
  · rw [h.early hearly] at hbuf
    cases hbuf
  · obtain rfl := some.inj hb
    exact ⟨hr.sound, hr.size.trans hsize⟩
  · have hnext := h.next hst
    rw [Conn.readyEnd, hbuf] at hnext
    change v.rcvNxt = (rbRemove buf n).2.2.headSeq + ofNat (rbRemove buf n).2.2.mergedLen
    rw [hnext, hr.headSeq, hr.mergedLen, UInt32.add_assoc, ← UInt32.ofNat_add,
      Nat.add_sub_cancel' hn]

theorem receiving_apply (hsize : cfg.rcvbufSize + 1 < 2147483648) (h : v.Receiving cfg)
    (hg : m.guard cfg v) (hm : m.calm) : (m.apply v).Receiving cfg := by
  have hopen : ∀ {w : Conn}, v.state.early → w.rcvbuf = v.rcvbuf →
      (w.state.receives → w.rcvNxt = w.irs + 1) → w.Receiving cfg := by
    intro w hearly hbuf hnext
    have hnone := hbuf.trans (h.early hearly)
    refine ⟨fun _ => hnone, fun b hb => ?_, fun hst => ?_⟩
    · rw [hnone] at hb
      cases hb
    · rw [hnext hst, Conn.readyEnd, hnone]
  by_cases hr : m.recvs = false
  · obtain ⟨hbuf, hnxt, hirs⟩ := @Move.apply_recv v m hm hr
    obtain ⟨hearly, hrecv⟩ := dest_recv hg hm hr
    refine ⟨fun he => ?_, fun b hb => ?_, fun hst => ?_⟩
    · rw [apply_state] at he
      rw [hbuf]
      exact h.early (hearly he)
    · exact h.sound b (hbuf.symm.trans hb)
    · rw [apply_state] at hst
      rw [hnxt, Conn.readyEnd, hbuf, hirs]
      exact h.next (hrecv hst)
  · cases m with
    | listen seq => exact hopen (by rw [show v.state = .listen from hg]; rfl) rfl nofun
    | synAck seq a =>
      exact hopen (by rw [show v.state = .synSent from hg.2.1]; rfl) rfl fun _ => rfl
    | ackOfSyn => exact hopen (by rw [show v.state = .synRcvd from hg.2]; rfl) rfl fun _ => rfl
    | receive frag buf seg =>
      obtain ⟨hst, hbuf, -⟩ := hg
      exact h.received hsize (TcpState.receives_of hst) hbuf frag seg
    | peerFin seq dest =>
      have hdest : dest.early = false ∧ dest.receives = false := by
        obtain ⟨-, ⟨-, rfl⟩ | ⟨-, rfl⟩ | ⟨-, rfl⟩ | ⟨-, rfl⟩⟩ := hg <;> exact ⟨rfl, rfl⟩
      refine ⟨fun he => ?_, h.sound, fun hst => ?_⟩
      · exact absurd (hdest.1.symm.trans he) nofun
      · exact absurd (hdest.2.symm.trans hst) nofun
    | hand buf n =>
      obtain ⟨hbuf, -, hn, -⟩ := hg
      exact receiving_hand h hbuf hn
    | _ => exact absurd rfl hr

theorem Started.receiving (h : Started v) : v.Receiving cfg := by
  cases h with
  | active | passive => exact ⟨fun _ => rfl, nofun, nofun⟩

theorem run_receiving (hsize : cfg.rcvbufSize + 1 < 2147483648) {s : TcpStream}
    {es : List (Env × Action)} (hs : Opened cfg s) (hf : (run cfg s es).fault = none)
    (hl : (run cfg s es).onHashTable) :
    Live (conn (run cfg s es)) ∧ (conn (run cfg s es)).Receiving cfg :=
  run_invariant (fun _ _ _ _ _ _ h hg hm _ => receiving_apply hsize h hg hm)
    (fun _ h => h.receiving) hs (along_of_forall (fun _ _ => trivial) s es) hf hl

/-! Everything but a segment that is processed leaves `rcv_nxt` alone and can only make room. -/

def Drained : Option TcpRingBuffer → Option TcpRingBuffer → Prop
  | none, none => True
  | some b, some b' => b'.size = b.size ∧ b'.mergedLen ≤ b.mergedLen
  | _, _ => False

theorem Drained.refl (b : Option TcpRingBuffer) : Drained b b := by
  cases b with
  | none => trivial
  | some b => exact ⟨rfl, le_refl _⟩

theorem Drained.widens (h : v.Receiving cfg) (hnxt : w.rcvNxt = v.rcvNxt)
    (hd : Drained v.rcvbuf w.rcvbuf) : v.Widens cfg.rcvbufSize w := by
  cases hv : v.rcvbuf with
  | none =>
    cases hw : w.rcvbuf with
    | none => exact (Conn.Widens.of_recv hnxt (hw.trans hv.symm)).mono (Nat.zero_le _)
    | some b' =>
      rw [hv, hw] at hd
      exact hd.elim
  | some b =>
    cases hw : w.rcvbuf with
    | none =>
      rw [hv, hw] at hd
      exact hd.elim
    | some b' =>
      rw [hv, hw] at hd
      obtain ⟨hsize, hle⟩ := hd
      obtain ⟨hsound, hb⟩ := h.sound b hv
      have h1 := hsound.mergedLen_le
      have h2 := hsound.lastLen_le
      refine ⟨b.mergedLen - b'.mergedLen, by omega, ?_⟩
      have hsum : b'.size - b'.mergedLen = b.size - b.mergedLen + (b.mergedLen - b'.mergedLen) := by
        omega
      rw [Conn.edge, Conn.edge, hnxt, hv, hw, recvRoom, recvRoom, hsum, ofNat_add, UInt32.add_assoc]

def Unreceived (e : Env × Action) : Prop := ∀ seg, e.2 = .rx seg → seg.rst = true

theorem Steps.widens (hsize : cfg.rcvbufSize + 1 < 2147483648) {s : TcpStream} {e : Env × Action}
    (hquiet : Unreceived e) (h : Steps cfg s e v w) (hshape : v.Shape) (hv : v.Receiving cfg)
    (hlate : v.state.early = false) (hf : w.fault = none) (hal : w.alive) :
    v.Widens cfg.rcvbufSize w := by
  have hinv : ∀ u m, Running u →
      (u.alive → u.Receiving cfg ∧ u.state.early = false ∧ u.rcvNxt = v.rcvNxt ∧
        Drained v.rcvbuf u.rcvbuf) →
      m.guard cfg u → m.calm ∨ m = .destroy → Cause cfg s e u m →
      (m.apply u).alive → (m.apply u).Receiving cfg ∧ (m.apply u).state.early = false ∧
          (m.apply u).rcvNxt = v.rcvNxt ∧ Drained v.rcvbuf (m.apply u).rcvbuf := by
    intro u m _ hu hg hcalm hc halive
    obtain hcalm | rfl := hcalm
    · obtain ⟨hrecv, hearly, hnxt, hd⟩ := hu ((apply_alive hcalm).symm.trans halive)
      refine ⟨receiving_apply hsize hrecv hg hcalm, ?_⟩
      by_cases hr : m.recvs = false
      · obtain ⟨hbuf, hnxt', -⟩ := @Move.apply_recv u m hcalm hr
        rw [hbuf, hnxt', apply_state]
        refine ⟨?_, hnxt, hd⟩
        rw [← Bool.not_eq_true]
        intro he
        exact absurd ((dest_recv hg hcalm hr).1 he) (by rw [hearly]; exact nofun)
      · cases m with
        | listen seq => rw [show u.state = .listen from hg] at hearly; cases hearly
        | synAck seq a => rw [show u.state = .synSent from hg.2.1] at hearly; cases hearly
        | ackOfSyn => rw [show u.state = .synRcvd from hg.2] at hearly; cases hearly
        | receive frag buf seg =>
          obtain ⟨he, hrst, -⟩ := hc
          rw [hquiet seg he] at hrst
          cases hrst
        | peerFin seq dest =>
          obtain ⟨seg, he, -, hrst, -⟩ := hc
          rw [hquiet seg he] at hrst
          cases hrst
        | hand buf n =>
          obtain ⟨hbuf, -, hn, -⟩ := hg
          have hremoved := rbRemove_removed (hrecv.sound buf hbuf).1 hn
          refine ⟨hearly, hnxt, ?_⟩
          cases hvb : v.rcvbuf with
          | none =>
            rw [hvb, hbuf] at hd
            exact hd.elim
          | some b =>
            rw [hvb, hbuf] at hd
            refine ⟨hremoved.size.trans hd.1, ?_⟩
            rw [hremoved.mergedLen]
            exact (Nat.sub_le _ _).trans hd.2
        | _ => exact absurd rfl hr
    · cases halive
  obtain ⟨-, hw⟩ := h.running hinv hshape (fun _ => ⟨hv, hlate, rfl, .refl _⟩) hf
  obtain ⟨-, -, hnxt, hd⟩ := hw hal
  exact Drained.widens hv hnxt hd

/-! A segment that is processed. -/

theorem fwd_le_of_window {x y : UInt32} {n : Nat} (hn : n < 2147483648) (hlt : lt x y = false)
    (hgt : gt x (y + ofNat n) = false) : fwd y x ≤ n := by
  rw [not_lt_iff] at hlt
  rw [not_gt_iff] at hgt
  have htrans := fwd_trans y (y + ofNat n) x
  have hbound := fwd_lt (y + ofNat n) x
  rw [fwd_add_ofNat, fwd_self] at htrans
  omega

theorem recvRoom_lt (hsize : cfg.roomy) (h : v.Receiving cfg) :
    (recvRoom v.rcvbuf).toNat < 2147483648 := by
  cases hv : v.rcvbuf with
  | none => decide
  | some buf =>
    have hb := (h.sound buf hv).2
    have hroom := hsize.2
    rw [recvRoom, toNat_ofNat']
    omega

theorem ensureRcvbuf_filled {env : Env} {s : TcpStream} {buf : TcpRingBuffer}
    (h : ensureRcvbuf cfg env s = some buf) : (conn s).FilledBy cfg buf := by
  unfold ensureRcvbuf at h
  split at h
  · next heq =>
    obtain rfl := some.inj h
    exact .inl heq
  · next heq =>
    split at h
    · exact .inr ⟨heq, env.junk, (some.inj h).symm⟩
    · cases h

variable {env : Env} {seg : Segment} {s : TcpStream}

theorem processTCPPayload_widens (hsize : cfg.roomy) (hs : (conn s).Receiving cfg)
    (hst : s.state.receives) (hwnd : s.rcvvar.rcvWnd = recvRoom s.rcvvar.rcvbuf) :
    (conn s).Widens cfg.rcvbufSize (conn (processTCPPayload cfg env seg s).2) := by
  have hskip : (conn s).Widens cfg.rcvbufSize (conn s) :=
    (Conn.Widens.of_recv rfl rfl).mono (Nat.zero_le _)
  unfold processTCPPayload
  split
  · exact hskip
  · next hlt =>
    split
    · exact hskip
    · next hgt =>
      cases hbuf : ensureRcvbuf cfg env s with
      | none => exact hskip
      | some buf =>
        dsimp only
        rw [Bool.not_eq_true] at hlt hgt
        have hroom := recvRoom_lt hsize hs
        rw [hwnd, ← @UInt32.ofNat_toNat (recvRoom s.rcvvar.rcvbuf)] at hgt
        have hwin := fwd_le_of_window hroom hlt hgt
        obtain ⟨fault, -, hconn, -⟩ := conn_receivePayload env seg buf s
        have hput : (conn s).Widens cfg.rcvbufSize
            (conn (advanceRcvNxt (discardMerged (putPayload env seg buf s)))) := by
          rw [hconn]
          exact hs.received_widens hsize hst (ensureRcvbuf_filled hbuf) env.fragAlloc seg hwin
        generalize advanceRcvNxt (discardMerged (putPayload env seg buf s)) = r at hput ⊢
        split_ifs
        · exact hput
        · exact hput
        · exact hput

theorem handlePayload_widens (hsize : cfg.roomy) (hs : (conn s).Receiving cfg)
    (hst : s.state.receives) (hwnd : s.rcvvar.rcvWnd = recvRoom s.rcvvar.rcvbuf) :
    (conn s).Widens cfg.rcvbufSize (conn (handlePayload cfg env seg s)) := by
  unfold handlePayload
  split
  · have hput := @processTCPPayload_widens cfg env seg s hsize hs hst hwnd
    generalize processTCPPayload cfg env seg s = r at hput ⊢
    obtain ⟨ret, t⟩ := r
    dsimp only at hput ⊢
    split
    · rw [conn_enqueueACK]
      exact hput
    · rw [conn_enqueueACK]
      exact hput
  · exact (Conn.Widens.of_recv rfl rfl).mono (Nat.zero_le _)

theorem widens_one {v w : Conn} (hnxt : w.rcvNxt = v.rcvNxt + 1) (hbuf : w.rcvbuf = v.rcvbuf) :
    v.Widens 1 w := by
  refine ⟨1, le_refl 1, ?_⟩
  rw [Conn.edge, Conn.edge, hnxt, hbuf, UInt32.add_assoc, UInt32.add_assoc, UInt32.add_comm 1]
  rfl

theorem handleAck_widens (t : TcpStream) : (conn t).Widens 0 (conn (handleAck env seg t)) :=
  .of_recv (handleAck_rcvNxt env seg t) (handleAck_rcvbuf env seg t)

theorem addtoControlList_widens (t : TcpStream) :
    (conn t).Widens 0 (conn (addtoControlList t)) := by
  rw [conn_addtoControlList]
  exact .of_recv rfl rfl

theorem addtoTimewaitList_widens (t : TcpStream) :
    (conn t).Widens 0 (conn (addtoTimewaitList cfg env t)) := by
  rw [conn_addtoTimewaitList]
  exact .of_recv rfl rfl

theorem handleEstablished_widens (hsize : cfg.roomy) (hs : (conn s).Receiving cfg)
    (hst : s.state.receives) (hwnd : s.rcvvar.rcvWnd = recvRoom s.rcvvar.rcvbuf) :
    (conn s).Widens (cfg.rcvbufSize + 1) (conn (handleEstablished cfg env seg s)) := by
  unfold handleEstablished
  split
  · have hjump : (conn s).Widens 0 (conn { s with sndNxt := seg.ackSeq }) := .of_recv rfl rfl
    exact (hjump.trans (addtoControlList_widens _)).mono (by omega)
  · have hpay := @handlePayload_widens cfg env seg s hsize hs hst hwnd
    generalize handlePayload cfg env seg s = p at hpay ⊢
    have hack : (conn s).Widens cfg.rcvbufSize
        (conn (if seg.ack then handleAck env seg p else p)) := by
      split
      · exact hpay.keep (handleAck_widens p)
      · exact hpay
    dsimp only
    generalize (if seg.ack then handleAck env seg p else p) = a at hack ⊢
    split
    · split
      · have hfin : (conn a).Widens 1 (conn
            { a.log (.consumeFin (seg.seq + seg.payloadlen) a.received) with
              state := .closeWait, rcvNxt := a.rcvNxt + 1 }) := widens_one rfl rfl
        exact hack.trans (hfin.keep (addtoControlList_widens _))
      · rw [conn_enqueueACK]
        exact hack.mono (Nat.le_succ _)
    · exact hack.mono (Nat.le_succ _)

theorem finAfterClose_widens (t : TcpStream) :
    (conn t).Widens 1 (conn (finAfterClose cfg env seg t)) := by
  unfold finAfterClose
  split
  · refine Conn.Widens.keep ?_ (addtoControlList_widens _)
    split
    · exact widens_one rfl rfl
    · refine Conn.Widens.keep ?_ (addtoTimewaitList_widens _)
      exact widens_one rfl rfl
    · exact widens_one rfl rfl
  · exact (Conn.Widens.of_recv rfl rfl).mono (Nat.zero_le _)

theorem ackOfFin_recv (t : TcpStream) : (ackOfFin seg t).rcvNxt = t.rcvNxt ∧
    (ackOfFin seg t).rcvvar = t.rcvvar ∧ (ackOfFin seg t).onHashTable = t.onHashTable ∧
    (t.state = .finWait1 → (ackOfFin seg t).state.receives) := by
  unfold ackOfFin
  split
  · refine ⟨(removeFromRTOList_recv _).1, (removeFromRTOList_recv _).2.1, ?_, fun _ => rfl⟩
    exact congrArg Conn.alive (conn_removeFromRTOList _)
  · refine ⟨rfl, rfl, rfl, fun h => ?_⟩
    rw [h]
    rfl

theorem acked_widens {t : TcpStream} (hsize : cfg.roomy) (hs : (conn s).Receiving cfg)
    (hfit : Fitting cfg t) (hal : t.onHashTable) (hnxt : t.rcvNxt = s.rcvNxt)
    (hbuf : t.rcvvar.rcvbuf = s.rcvvar.rcvbuf) (hirs : t.rcvvar.irs = s.rcvvar.irs)
    (hst : s.state.receives) (ht : t.state.receives) :
    (conn s).Widens cfg.rcvbufSize (conn (handlePayload cfg env seg t)) := by
  have hrecv : (conn t).Receiving cfg := by
    refine ⟨fun he => ?_, fun b hb => hs.sound b (hbuf.symm.trans hb), fun _ => ?_⟩
    · obtain h | h | h := TcpState.receives_cases ht <;>
        exact absurd (he.symm.trans (congrArg TcpState.early h)) nofun
    · have hnext := hs.next hst
      change t.rcvNxt = (conn t).readyEnd
      rw [hnxt, Conn.readyEnd, show (conn t).rcvbuf = (conn s).rcvbuf from hbuf,
        show (conn t).irs = (conn s).irs from hirs]
      exact hnext
  have hsame : (conn s).Widens 0 (conn t) := .of_recv hnxt hbuf
  have hpay := @handlePayload_widens cfg env seg t hsize hrecv ht (hfit hal).recv
  exact (hsame.trans hpay).mono (by omega)

theorem handleFinWait1_widens (hsize : cfg.roomy) (hs : (conn s).Receiving cfg)
    (hst : s.state = .finWait1) (hfit : Fitting cfg s) (hal : s.onHashTable) :
    (conn s).Widens (cfg.rcvbufSize + 1) (conn (handleFinWait1 cfg env seg s)) := by
  unfold handleFinWait1
  split
  · exact (addtoControlList_widens s).mono (Nat.zero_le _)
  · split
    · have hsend := handleAck_sendOnly env seg s
      have hfit' : Fitting cfg (handleAck env seg s) := (handleAck_path env seg s).fitting hfit
      generalize handleAck env seg s = a at hsend hfit' ⊢
      obtain ⟨hnxt, hrcv, halive, hrecv⟩ := @ackOfFin_recv seg a
      have hpast : .established ≤ a.state := by
        rw [show a.state = s.state from congrArg Conn.state hsend, hst]
        decide
      have hkept : Fitting cfg (ackOfFin seg a) := (ackOfFin_path seg a hpast).fitting hfit'
      refine Conn.Widens.trans (@acked_widens cfg env seg s (ackOfFin seg a) hsize hs hkept
        ((halive.trans (congrArg Conn.alive hsend)).trans hal)
        (hnxt.trans (congrArg Conn.rcvNxt hsend)) ?_ ?_ (by rw [hst]; rfl)
        (hrecv ((congrArg Conn.state hsend).trans hst))) (finAfterClose_widens _)
      · rw [hrcv]
        exact congrArg Conn.rcvbuf hsend
      · rw [hrcv]
        exact congrArg Conn.irs hsend
    · exact (Conn.Widens.of_recv rfl rfl).mono (Nat.zero_le _)

theorem handleFinWait2_widens (hsize : cfg.roomy) (hs : (conn s).Receiving cfg)
    (hst : s.state = .finWait2) (hfit : Fitting cfg s) (hal : s.onHashTable) :
    (conn s).Widens (cfg.rcvbufSize + 1) (conn (handleFinWait2 cfg env seg s)) := by
  unfold handleFinWait2
  split
  · have hsend := handleAck_sendOnly env seg s
    have hfit' : Fitting cfg (handleAck env seg s) := (handleAck_path env seg s).fitting hfit
    generalize handleAck env seg s = a at hsend hfit' ⊢
    have hrecv : s.state.receives := by rw [hst]; rfl
    have hpay := @acked_widens cfg env seg s a hsize hs hfit'
      ((congrArg Conn.alive hsend).trans hal) (congrArg Conn.rcvNxt hsend)
      (congrArg Conn.rcvbuf hsend) (congrArg Conn.irs hsend) hrecv
      ((congrArg TcpState.receives (congrArg Conn.state hsend)).trans hrecv)
    dsimp only
    generalize handlePayload cfg env seg a = p at hpay ⊢
    split
    · refine Conn.Widens.keep ?_ (addtoControlList_widens _)
      refine Conn.Widens.keep ?_ (addtoTimewaitList_widens _)
      exact hpay.trans (widens_one rfl rfl)
    · exact hpay.mono (Nat.le_succ _)
  · exact (Conn.Widens.of_recv rfl rfl).mono (Nat.zero_le _)

def edgeKinds : List Change := [.rcvNxt, .opening, .opened, .store, .read]

theorem Path.recv {ks : List Change} {t : TcpStream} (h : Path ks s t)
    (hks : ∀ k ∈ ks, k ∉ edgeKinds) (hal : t.onHashTable) :
    s.onHashTable ∧ (conn s).Widens 0 (conn t) := by
  refine @Path.rule _ _ _ (fun u v => v.onHashTable → u.onHashTable ∧
    (conn u).Widens 0 (conn v)) h (fun _ h => ⟨h, .of_recv rfl rfl⟩) ?_ ?_ hal
  · intro u v w huv hvw hw
    obtain ⟨hv, hlast⟩ := hvw hw
    exact ⟨(huv hv).1, (huv hv).2.keep hlast⟩
  · intro k u v hk hstep hv
    have hout := hks k hk
    cases hstep <;> first
      | exact ⟨hv, .of_recv rfl rfl⟩
      | exact ⟨hv, .of_recv rfl (estimateRTT_buffer u _).2⟩
      | exact absurd (by decide) hout
      | cases hv

theorem dispatch_keeps (hlate : s.state.early = false) (hst : s.state.receives = false)
    (hal : (dispatch cfg env seg s).onHashTable) :
    (conn s).Widens 0 (conn (dispatch cfg env seg s)) := by
  have hpath : ∃ ks, Path ks s (dispatch cfg env seg s) ∧ ∀ k ∈ ks, k ∉ edgeKinds := by
    unfold dispatch
    cases hs : s.state with
    | listen | synSent | synRcvd =>
      rw [hs] at hlate
      cases hlate
    | established | finWait1 | finWait2 =>
      rw [hs] at hst
      cases hst
    | closeWait => exact ⟨_, handleCloseWait_path env seg s, by decide⟩
    | lastAck => exact ⟨_, handleLastAck_path cfg env seg s, by decide⟩
    | closing => exact ⟨_, handleClosing_path cfg env seg s hs, by decide⟩
    | timeWait => exact ⟨_, handleTimeWait_path cfg env s, by decide⟩
    | closed => exact ⟨[], .refl s, by decide⟩
  obtain ⟨ks, hpath, hks⟩ := hpath
  exact (hpath.recv hks hal).2

theorem dispatch_widens (hsize : cfg.roomy) (hs : (conn s).Receiving cfg)
    (hlate : s.state.early = false) (hfit : Fitting cfg s) (halive : s.onHashTable)
    (hal : (dispatch cfg env seg s).onHashTable) :
    (conn s).Widens (cfg.rcvbufSize + 1) (conn (dispatch cfg env seg s)) := by
  by_cases hst : s.state.receives
  · have hwnd := (hfit halive).recv
    unfold dispatch
    obtain h | h | h := TcpState.receives_cases hst <;> rw [h]
    · exact handleEstablished_widens hsize hs hst hwnd
    · exact handleFinWait1_widens hsize hs h hfit halive
    · exact handleFinWait2_widens hsize hs h hfit halive
  · exact (dispatch_keeps hlate (eq_false_of_ne_true hst) hal).mono (Nat.zero_le _)

theorem step_widens (hsize : cfg.roomy) {e : Env × Action} (hlive : Live (conn s))
    (hs : (conn s).Receiving cfg) (hlate : s.state.early = false) (hfit : Fitting cfg s)
    (hf : (step cfg s e).fault = none) (hal : (step cfg s e).onHashTable) :
    (conn s).Widens (cfg.rcvbufSize + 1) (conn (step cfg s e)) := by
  by_cases hquiet : Unreceived e
  · exact (Steps.widens hsize.2 hquiet (step_path s e fun _ => hlive.shape) hlive.shape hs hlate hf
      hal).mono (Nat.le_succ _)
  · obtain ⟨env, a⟩ := e
    unfold Unreceived at hquiet
    push Not at hquiet
    obtain ⟨seg, rfl : a = .rx seg, hrst⟩ := hquiet
    have hrst := eq_false_of_ne_true hrst
    have hstep : step cfg s (env, .rx seg) = processTCPPacket cfg env seg s := by
      unfold step act
      rw [show s.fault.isNone = true by rw [show s.fault = none from hlive.fault]; rfl]
      exact if_pos hlive.alive
    rw [hstep] at hf hal ⊢
    obtain ⟨hpast, -, heq⟩ | ⟨upd, recent, echo, -, heq⟩ := processTCPPacket_cases env seg s cfg
    · rw [heq] at hf hal ⊢
      have hquiet : Unreceived (env, .rtm) := fun _ h => Action.noConfusion h
      have hpath : Steps cfg s (env, .rtm) _ _ := validateSequence_steps env seg s hpast
      exact (Steps.widens hsize.2 hquiet hpath hlive.shape hs hlate hf hal).mono (Nat.le_succ _)
    · rw [heq, processValidated_eq env seg _ hrst] at hal ⊢
      have hc : conn (arrived env seg (restamped upd recent echo s)) = conn s :=
        arrived_conn env seg _
      have hstamp : Path [.stamps] s (restamped upd recent echo s) :=
        .of_step (.stamps upd recent echo) (List.mem_singleton_self _)
      have hkept : Fitting cfg (arrived env seg (restamped upd recent echo s)) :=
        (arrive_path env seg _).fitting (hstamp.fitting hfit)
      rw [← hc] at hs hlive ⊢
      exact dispatch_widens hsize hs ((congrArg (TcpState.early ∘ Conn.state) hc).trans hlate) hkept
        hlive.alive hal

/-- `ProcessTCPPayload` makes that call, and goes on with the buffer it leaves. -/
theorem processTCPPayload_putCall {res : PutResult} {b : TcpRingBuffer}
    (h : putCall cfg env seg s = some (res, b)) :
    ∃ buf, rbPut env.fragAlloc buf seg.payload seg.seq = (res, b) ∧
      (putPayload env seg buf s).rcvvar.rcvbuf = some b ∧ processTCPPayload cfg env seg s =
        let t := advanceRcvNxt (discardMerged (putPayload env seg buf s))
        if leq t.rcvNxt s.rcvNxt then (0, t)
        else (1, if t.state = .established then raiseEvent .read t else t) := by
  unfold putCall at h
  split_ifs at h with hlt hgt
  obtain ⟨buf, hbuf, hput⟩ := map_eq_some_iff.mp h
  refine ⟨buf, hput, ?_, ?_⟩
  · rw [putPayload, hput]
  · rw [processTCPPayload, if_neg hlt, if_neg hgt, hbuf]

/-- Where `putCall` has none, the receive buffer stays as it is. -/
theorem processTCPPayload_of_putCall_none (h : putCall cfg env seg s = none) :
    (processTCPPayload cfg env seg s).2.rcvvar.rcvbuf = s.rcvvar.rcvbuf := by
  unfold putCall at h
  unfold processTCPPayload
  split_ifs at h ⊢ with hlt hgt
  · rfl
  · rfl
  · rw [map_eq_none_iff.mp h]
    rfl

theorem putCall_stores (hsize : cfg.roomy) (hs : (conn s).Receiving cfg)
    (hst : s.state.receives) (hwnd : s.rcvvar.rcvWnd = recvRoom s.rcvvar.rcvbuf)
    (hmem : env.rbAlloc ∧ env.fragAlloc) (hin : InWindow seg s) :
    ∃ b, putCall cfg env seg s = some (.ret seg.payload.length, b) ∧
      Stores b seg.seq seg.payload := by
  obtain ⟨hpos, hin⟩ := hin
  rw [hwnd] at hin
  have hroom := recvRoom_lt hsize hs
  change (recvRoom s.rcvvar.rcvbuf).toNat < _ at hroom
  -- the tests of the window let the segment pass
  have hend : fwd s.rcvNxt (seg.seq + seg.payloadlen) =
      fwd s.rcvNxt seg.seq + seg.payload.length := by
    rw [Segment.payloadlen, fwd_add_ofNat, Nat.mod_eq_of_lt (by omega)]
  have hlt : lt (seg.seq + seg.payloadlen) s.rcvNxt = false := by
    rw [not_lt_iff]
    omega
  have hgt : gt (seg.seq + seg.payloadlen) (s.rcvNxt + s.rcvvar.rcvWnd) = false := by
    rw [hwnd, ← @UInt32.ofNat_toNat (recvRoom s.rcvvar.rcvbuf), not_gt_iff]
    have htrans := fwd_trans s.rcvNxt (s.rcvNxt + ofNat (recvRoom s.rcvvar.rcvbuf).toNat)
      (seg.seq + seg.payloadlen)
    have hbound := fwd_lt (s.rcvNxt + ofNat (recvRoom s.rcvvar.rcvbuf).toNat)
      (seg.seq + seg.payloadlen)
    rw [fwd_add_ofNat, fwd_self] at htrans
    omega
  obtain ⟨buf, hbuf⟩ : ∃ buf, ensureRcvbuf cfg env s = some buf := by
    unfold ensureRcvbuf
    cases s.rcvvar.rcvbuf with
    | none => exact ⟨_, if_pos hmem.1⟩
    | some buf => exact ⟨buf, rfl⟩
  have hfilled := ensureRcvbuf_filled hbuf
  obtain ⟨hsound, hbsize⟩ := hs.filled hsize.2 hfilled
  -- and it lies in the span of the buffer
  have hfits : fwd buf.headSeq seg.seq + seg.payload.length ≤ buf.size := by
    have hnext := hs.next hst
    rw [Conn.readyEnd] at hnext
    obtain hsome | ⟨hnone, junk, rfl⟩ := hfilled
    · rw [hsome] at hnext
      change s.rcvvar.rcvbuf = some buf at hsome
      change s.rcvNxt = buf.headSeq + ofNat buf.mergedLen at hnext
      have hmerged := hsound.mergedLen_le
      have hlast := hsound.lastLen_le
      have htrans := fwd_trans buf.headSeq s.rcvNxt seg.seq
      have hsmall := hsound.small
      rw [hsome, recvRoom, toNat_ofNat'] at hin
      rw [show fwd buf.headSeq s.rcvNxt = buf.mergedLen by
        rw [hnext, fwd_add_ofNat, fwd_self]; omega] at htrans
      omega
    · rw [hnone] at hnext
      change s.rcvvar.rcvbuf = none at hnone
      change s.rcvNxt = s.rcvvar.irs + 1 at hnext
      rw [hnone, hnext] at hin
      have hle := hsize.1
      change fwd (s.rcvvar.irs + 1) seg.seq + _ ≤ 14600 at hin
      change fwd (s.rcvvar.irs + 1) seg.seq + _ ≤ cfg.rcvbufSize
      omega
  obtain ⟨b, hput, -, -, hstores⟩ := @rbPut_fits_sound buf _ seg.seq hsound hpos hfits env.fragAlloc
  refine ⟨b, ?_, (hstores hmem.2).1⟩
  rw [putCall, hlt, hgt, hbuf, map_some, hput, hmem.2]
  rfl

/-- From the end of the handshake on, with a receive buffer no smaller than the window a stream
starts with: whatever happens next, the right edge of the window does not move to the left, and
a segment that lies in the window is stored in full. -/
theorem receive_window_honoured (hsize : cfg.roomy) {es : List (Env × Action)} (hs : Opened cfg s)
    (hf : (run cfg s es).fault = none) (hl : (run cfg s es).onHashTable = true)
    (hlate : (run cfg s es).state.early = false) :
    (∀ e, (step cfg (run cfg s es) e).fault = none →
      (step cfg (run cfg s es) e).onHashTable = true →
      leq (rightEdge (run cfg s es)) (rightEdge (step cfg (run cfg s es) e)) = true) ∧
    ∀ env seg, (run cfg s es).state.receives = true → env.rbAlloc = true ∧ env.fragAlloc = true →
      InWindow seg (run cfg s es) →
      ∃ b, putCall cfg env seg (run cfg s es) = some (.ret seg.payload.length, b) ∧
        Stores b seg.seq seg.payload := by
  obtain ⟨hlive, hrecv⟩ := run_receiving hsize.2 hs hf hl
  have hfit := run_fitting es hs
  generalize run cfg s es = t at *
  have hwnd := (hfit hl).recv
  refine ⟨fun e hf' hl' => ?_, fun env seg hst hmem hin => ?_⟩
  · have hedge := (step_widens hsize hlive hrecv hlate hfit hf' hl').leq hsize.2
    have hwnd' := (fitting_step e hfit hl').recv
    rw [rightEdge, rightEdge, show t.rcvvar.rcvWnd = _ from hwnd,
      show (step cfg t e).rcvvar.rcvWnd = _ from hwnd']
    exact hedge
  · exact putCall_stores hsize hrecv hst hwnd hmem hin

def Config.wide : Config := { Config.small with
  rcvbufSize := 16384
  rcvbufSize_ge := by decide
  rcvbufSize_lt := by decide }

theorem receive_window_honoured_wide :
    leq (rightEdge (run .wide (mtcpConnect .wide 100 1 true) (atRest clientHandshake)))
        (rightEdge (step .wide (run .wide (mtcpConnect .wide 100 1 true) (atRest clientHandshake))
          ({}, .controlPass 1))) = true ∧
      ∃ b, putCall .wide {} { seq := 15100, payload := [7], ack := true }
          (run .wide (mtcpConnect .wide 100 1 true) (atRest clientHandshake)) = some (.ret 1, b) ∧
        Stores b 15100 [7] := by
  have h := @receive_window_honoured .wide (mtcpConnect .wide 100 1 true) ⟨by decide, by decide⟩
    (atRest clientHandshake) (.active 100 1 true) (by decide) (by decide) (by decide)
  exact ⟨h.1 ({}, .controlPass 1) (by decide) (by decide),
    h.2 {} { seq := 15100, payload := [7], ack := true } (by decide) ⟨rfl, rfl⟩
      ⟨by decide, by decide⟩⟩

/-- With the smallest buffer the first payload pulls the right edge back, and `RBPut` refuses a
segment that lies in the window. -/
theorem small_buffer_shrinks_window :
    leq (rightEdge (run .small client (atRest clientHandshake)))
        (rightEdge (run .small client (atRest (clientHandshake ++
          [.rx { seq := 501, ackSeq := 101, window := 1000, ack := true, payload := [7] }])))) =
        false ∧
      InWindow { seq := 601, payload := [7], ack := true }
        (run .small client (atRest clientHandshake)) ∧
      (putCall .small {} { seq := 601, payload := [7], ack := true }
        (run .small client (atRest clientHandshake))).map Prod.fst = some (.ret (-2)) := by
  refine ⟨by decide, ⟨by decide, by decide⟩, by decide⟩

end Mtcp
