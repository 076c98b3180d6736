import Mathlib.Data.Nat.Bitwise
import Mtcp.Refine.Output

namespace Mtcp

open Serial SendBuffer RingBuffer Options

/-! What the functions of the stack are made of: a function is a path of elementary changes of some
kinds, and keeps what these kinds keep. -/

/-- The kinds of changes. A list with a flag is entered or left together with the flag, or a
stream moves to its tail; a queue is entered or left as such. -/
inductive Change where
  | on (l : StreamList) | off (l : StreamList) | again (l : StreamList)
  | put (q : StreamList) | take (q : StreamList) | unflag
  | slot | clock | deadline | acks | sent | sndNxt | sndUna | rcvNxt | emit | raise | note
  | waiting | marks | socket | reason | reset | shut | enter | revive | refuse | synRcvd
  | establish | arrive | opening | opened | finAcked | fault | rtoZero | divide | nrtx | backOff
  | congestion | fast | rtt | options | stamps | peerWnd | dupAcks | removed | written | store
  | read | advertise | fss | destroy

namespace Change

def list : Change → StreamList
  | .on l | .off l | .again l | .put l | .take l => l
  | _ => .control

def code (k : Change) : Nat := 16 * k.ctorIdx + k.list.ctorIdx

theorem code_injective : Function.Injective code := by
  intro k k' h
  have hlt : ∀ l : StreamList, l.ctorIdx < 16 := fun l => by cases l <;> decide
  have hidx : k.ctorIdx = k'.ctorIdx := by
    have := hlt k.list
    have := hlt k'.list
    unfold code at h
    omega
  have hlist : k.list = k'.list := by
    have hidx' : k.list.ctorIdx = k'.list.ctorIdx := by
      unfold code at h
      omega
    revert hidx'
    cases k.list <;> cases k'.list <;> first | exact fun _ => rfl | exact nofun
  -- The kinds of a list, by the place of their constructor.
  let kinds : StreamList → List Change := fun l => [.on l, .off l, .again l, .put l, .take l,
    .unflag, .slot, .clock, .deadline, .acks, .sent, .sndNxt, .sndUna, .rcvNxt, .emit, .raise,
    .note, .waiting, .marks, .socket, .reason, .reset, .shut, .enter, .revive, .refuse, .synRcvd,
    .establish, .arrive, .opening, .opened, .finAcked, .fault, .rtoZero, .divide, .nrtx, .backOff,
    .congestion, .fast, .rtt, .options, .stamps, .peerWnd, .dupAcks, .removed, .written, .store,
    .read, .advertise, .fss, .destroy]
  have hkinds : ∀ k : Change, (kinds k.list)[k.ctorIdx]? = some k := fun k => by cases k <;> rfl
  have hk := hkinds k
  rw [hidx, hlist, hkinds k'] at hk
  exact (Option.some.inj hk).symm

def mask (ks : List Change) : Nat := ks.foldr (fun k m => 1 <<< k.code ||| m) 0

theorem testBit_mask {ks : List Change} {n : Nat} : (mask ks).testBit n ↔ ∃ k ∈ ks, k.code = n := by
  induction ks with
  | nil => simp [mask]
  | cons k ks ih =>
    have hmask : mask (k :: ks) = 1 <<< k.code ||| mask ks := rfl
    rw [hmask, Nat.testBit_or, Bool.or_eq_true, ih, Nat.one_shiftLeft, Nat.testBit_two_pow]
    simp

theorem testBit_code {ks : List Change} {k : Change} : (mask ks).testBit k.code ↔ k ∈ ks := by
  rw [testBit_mask]
  constructor
  · rintro ⟨k', hk', heq⟩
    rwa [← code_injective heq]
  · exact fun hk => ⟨k, hk, rfl⟩

instance (k : Change) (ks : List Change) : Decidable (k ∈ ks) :=
  decidable_of_iff ((mask ks).testBit k.code = true) testBit_code

theorem mask_and {ks ls : List Change} : mask ks &&& mask ls = mask ks ↔ ks ⊆ ls := by
  constructor
  · intro h k hk
    have hbit := testBit_code.mpr hk
    rw [← h, Nat.testBit_and, Bool.and_eq_true] at hbit
    exact testBit_code.mp hbit.2
  · intro h
    apply Nat.eq_of_testBit_eq
    intro n
    rw [Nat.testBit_and]
    cases hks : (mask ks).testBit n with
    | false => rfl
    | true =>
      obtain ⟨k, hk, rfl⟩ := testBit_mask.mp hks
      exact testBit_code.mpr (h hk)

instance (ks ls : List Change) : Decidable (ks ⊆ ls) := decidable_of_iff _ mask_and

end Change

/-- The effects that are neither segments nor events, and end nothing. -/
def Effect.quiet : Effect → Bool
  | .standalone _ | .take _ | .hand _ | .release _ | .peerSyn _ | .consumeFin _ _ => true
  | _ => false

inductive Change.Step : Change → TcpStream → TcpStream → Prop where
  | onControl {s : TcpStream} (h : s.sndvar.onControlList = false) : Step (.on .control) s
      ({ s with sndvar.onControlList := true }.link .control)
  | offControl {s : TcpStream} : Step (.off .control) s
      ({ s with sndvar.onControlList := false }.unlink .control)
  | onSend {s : TcpStream} (h : s.sndvar.onSendList = false) : Step (.on .send) s
      ({ s with sndvar.onSendList := true }.link .send)
  | offSend {s : TcpStream} : Step (.off .send) s
      ({ s with sndvar.onSendList := false }.unlink .send)
  | onAck {s : TcpStream} (h : s.sndvar.onAckList = false) : Step (.on .ack) s
      ({ s with sndvar.onAckList := true }.link .ack)
  | offAck {s : TcpStream} : Step (.off .ack) s
      ({ s with sndvar.onAckList := false }.unlink .ack)
  | onRto {s : TcpStream} (k : Int) (h : s.onRtoIdx < 0) (hk : 0 ≤ k) :
      Step (.on .rto) s ({ s with onRtoIdx := k }.link .rto)
  | offRto {s : TcpStream} : Step (.off .rto) s ({ s with onRtoIdx := -1 }.unlink .rto)
  | onTimewait {s : TcpStream} (h : s.onTimewaitList = false) :
      Step (.on .timewait) s ({ s with onTimewaitList := true }.link .timewait)
  | offTimewait {s : TcpStream} :
      Step (.off .timewait) s ({ s with onTimewaitList := false }.unlink .timewait)
  | againTimewait {s : TcpStream} (h : s.onTimewaitList = true) :
      Step (.again .timewait) s ((s.unlink .timewait).link .timewait)
  | onTimeout {s : TcpStream} (h : s.onTimeoutList = false) :
      Step (.on .timeout) s ({ s with onTimeoutList := true }.link .timeout)
  | offTimeout {s : TcpStream} :
      Step (.off .timeout) s ({ s with onTimeoutList := false }.unlink .timeout)
  | againTimeout {s : TcpStream} (h : s.onTimeoutList = true) :
      Step (.again .timeout) s ((s.unlink .timeout).link .timeout)
  | put {s : TcpStream} (q : StreamList) : Step (.put q) s (s.link q)
  | take {s : TcpStream} (q : StreamList) : Step (.take q) s (s.unlink q)
  | unflag {s : TcpStream} :
      Step .unflag s { s with sndvar.onSendList := false }
  | slot {s : TcpStream} (k : Int) (h : 0 ≤ s.onRtoIdx) (hk : 0 ≤ k) :
      Step .slot s { s with onRtoIdx := k }
  | clock {s : TcpStream} (active expire lastack : UInt32) : Step .clock s { s with
      lastActiveTs := active
      rcvvar.tsTwExpire := expire
      sndvar.tsLastackSent := lastack }
  | deadline {s : TcpStream} (ts : UInt32) :
      Step .deadline s { s with sndvar.tsRto := ts }
  | acks {s : TcpStream} (cnt : BitVec 6) (wack : Bool) :
      Step .acks s { s with sndvar.ackCnt := cnt, sndvar.isWack := wack }
  | sent {s : TcpStream} (room : Nat) (adv fin : Bool) : Step .sent s { s with
      txRoom := room
      needWndAdv := adv
      sndvar.isFinSent := fin }
  | sndNxt {s : TcpStream} (nxt : UInt32) : Step .sndNxt s { s with sndNxt := nxt }
  | sndUna {s : TcpStream} (una : UInt32) :
      Step .sndUna s { s with sndvar.sndUna := una }
  | rcvNxt {s : TcpStream} (nxt : UInt32) : Step .rcvNxt s { s with rcvNxt := nxt }
  | emit {s : TcpStream} (seg : Segment) : Step .emit s (s.log (.emit seg))
  | raise {s : TcpStream} (ev : StreamEvent) : Step .raise s (s.log (.raise ev))
  | note {s : TcpStream} (e : Effect) (h : e.quiet = true) : Step .note s (s.log e)
  | waiting {s : TcpStream} (b : Bool) : Step .waiting s { s with controlListWaiting := b }
  | marks {s : TcpStream} (sendq ackq closeq resetq closeqInt resetqInt : Bool) :
      Step .marks s { s with sndvar := { s.sndvar with
        onSendq := sendq, onAckq := ackq, onCloseq := closeq, onResetq := resetq
        onCloseqInt := closeqInt, onResetqInt := resetqInt } }
  | socket {s : TcpStream} (socket : Option Nat) (freed closed : Bool) : Step .socket s
      { s with socket := socket, socketFreed := freed, closed := closed }
  | reason {s : TcpStream} (r : TcpCloseReason) : Step .reason s { s with closeReason := r }
  | reset {s : TcpStream} : Step .reset s { s with haveReset := true }
  | shut {s : TcpStream} (r : TcpCloseReason) :
      Step .shut s { s with state := .closed, closeReason := r }
  | enter {s : TcpStream} (st : TcpState) (hlow : .synSent < s.state) (h : .established ≤ st) :
      Step .enter s { s with state := st }
  | revive {s : TcpStream} (st : TcpState) (hlow : s.state = .closed) (h : .established ≤ st) :
      Step .revive s { s with state := st }
  | refuse {s : TcpStream} : Step .refuse s { s with state := .closeWait, closeReason := .reset }
  | synRcvd {s : TcpStream} : Step .synRcvd s { s with state := .synRcvd }
  | establish {s : TcpStream} : Step .establish s s.establish
  | arrive {s : TcpStream} (wnd ts : UInt32) : Step .arrive s
      { s with sndvar.peerWnd := wnd, lastActiveTs := ts }
  | opening {s : TcpStream} (irs wl1 ack nxt wnd rcv : UInt32) : Step .opening s { s with
      rcvvar.irs := irs
      rcvvar.sndWl1 := wl1
      rcvvar.lastAckSeq := ack
      sndNxt := nxt
      sndvar.peerWnd := wnd
      rcvNxt := rcv }
  | opened {s : TcpStream} (una cwnd nxt rcv : UInt32) : Step .opened s { s with
      sndvar.sndUna := una
      sndvar.cwnd := cwnd
      sndvar.nrtx := 0
      sndNxt := nxt
      rcvNxt := rcv }
  | finAcked {s : TcpStream} (una nxt : UInt32) (h : .established ≤ s.state) : Step .finAcked s
      { s with sndvar.sndUna := una, sndvar.nrtx := 0, sndNxt := nxt }
  | fault {s : TcpStream} (f : Fault) (hd : f ≠ .divideByZero) (hz : f ≠ .rtoZero) :
      Step .fault s (s.abort f)
  | rtoZero {s : TcpStream} (h : s.sndvar.rto = 0) : Step .rtoZero s (s.abort .rtoZero)
  | divide {s : TcpStream} : Step .divide s (s.abort .divideByZero)
  | nrtx {s : TcpStream} (n : UInt8) :
      Step .nrtx s { s with sndvar.nrtx := n }
  | backOff {s : TcpStream} : Step .backOff s (Mtcp.backOff s)
  | congestion {s : TcpStream} (cwnd ssthresh : UInt32) : Step .congestion s
      { s with sndvar.cwnd := cwnd, sndvar.ssthresh := ssthresh }
  | fast {s : TcpStream} (ssthresh cwnd : UInt32) (n : UInt8) : Step .fast s
      { s with sndvar.ssthresh := ssthresh, sndvar.cwnd := cwnd, sndvar.nrtx := n }
  | rtt {s : TcpStream} (mrtt rto : UInt32) : Step .rtt s
      { s with rcvvar := estimateRTT s mrtt, sndvar.rto := rto }
  | options {s : TcpStream} (mss effMss : UInt16) (scale : UInt8) (sack saw : Bool)
      (recent upd : UInt32) : Step .options s { s with
        sndvar.mss := mss
        sndvar.effMss := effMss
        sndvar.wscalePeer := scale
        sackPermit := sack
        sawTimestamp := saw
        rcvvar.tsRecent := recent
        rcvvar.tsLastTsUpd := upd }
  | stamps {s : TcpStream} (upd recent echo : UInt32) : Step .stamps s { s with
      rcvvar.tsLastTsUpd := upd
      rcvvar.tsRecent := recent
      rcvvar.tsLastackRcvd := echo }
  | peerWnd {s : TcpStream} (wnd wl1 wl2 : UInt32) : Step .peerWnd s { s with
      sndvar.peerWnd := wnd
      rcvvar.sndWl1 := wl1
      rcvvar.sndWl2 := wl2 }
  | dupAcks {s : TcpStream} (n : UInt8) (last : UInt32) : Step .dupAcks s
      { s with rcvvar.dupAcks := n, rcvvar.lastAckSeq := last }
  | removed {s : TcpStream} (buf : TcpSendBuffer) (una : UInt32) (n : Nat) : Step .removed s
      { s.log (.release n) with sndvar := { s.sndvar with
        sndbuf := some buf, sndUna := una, sndWnd := UInt32.ofNat (buf.size - buf.len) } }
  | written {s : TcpStream} (buf : TcpSendBuffer) : Step .written s { s with
      sndvar.sndbuf := some buf
      sndvar.sndWnd := UInt32.ofNat (buf.size - buf.len) }
  | store {s : TcpStream} (buf : TcpRingBuffer) : Step .store s { s with
      rcvNxt := buf.headSeq + UInt32.ofNat buf.mergedLen
      rcvvar.rcvbuf := some buf
      rcvvar.rcvWnd := UInt32.ofNat (buf.size - buf.mergedLen) }
  | read {s : TcpStream} (buf : TcpRingBuffer) : Step .read s { s with
      rcvvar.rcvbuf := some buf
      rcvvar.rcvWnd := UInt32.ofNat (buf.size - buf.mergedLen) }
  | advertise {s : TcpStream} : Step .advertise s
      ({ s with sndvar.onAckq := true, needWndAdv := false }.link .ackq)
  | fss {s : TcpStream} : Step .fss s (setFss s)
  | destroy {s : TcpStream} : Step .destroy s ({ s with
      sndvar.sndbuf := none
      rcvvar.rcvbuf := none
      onHashTable := false }.log .destroy)

def Path (ks : List Change) : TcpStream → TcpStream → Prop :=
  Relation.ReflTransGen fun s t => ∃ k ∈ ks, k.Step s t

namespace Path

variable {ks ks' ls : List Change} {s t u : TcpStream}

theorem refl (s : TcpStream) : Path ks s s := Relation.ReflTransGen.refl

theorem mono (h : Path ks s t) (hks : ks ⊆ ls) : Path ls s t :=
  Relation.ReflTransGen.mono (fun _ _ ⟨k, hk, hstep⟩ => ⟨k, hks hk, hstep⟩) _ _ h

theorem of_step {k : Change} (h : k.Step s t) (hk : k ∈ ls) : Path ls s t := .single ⟨k, hk, h⟩

theorem after (h' : Path ks t u) (h : Path ks s t) : Path ks s u := h.trans h'

theorem next (h' : Path ks t u) (h : Path ls s t) (hks : ks ⊆ ls) : Path ls s u :=
  (h'.mono hks).after h

theorem step {k : Change} (h' : k.Step t u) (h : Path ls s t) (hk : k ∈ ls) : Path ls s u :=
  .tail h ⟨k, hk, h'⟩

theorem ite {c : Prop} [Decidable c] (h : Path ls s t) (h' : Path ls s u) :
    Path ls s (if c then t else u) := by
  split
  · exact h
  · exact h'

theorem rule {R : TcpStream → TcpStream → Prop} (h : Path ks s t) (hrefl : ∀ s, R s s)
    (htrans : ∀ {s t u}, R s t → R t u → R s u)
    (hstep : ∀ {k s t}, k ∈ ks → k.Step s t → R s t) : R s t := by
  induction h with
  | refl => exact hrefl s
  | tail _ hlast ih =>
    obtain ⟨k, hk, hlast⟩ := hlast
    exact htrans ih (hstep hk hlast)

theorem keeps {I : TcpStream → Prop} (h : Path ks s t)
    (hstep : ∀ {k s t}, k ∈ ks → k.Step s t → I s → I t) (hs : I s) : I t :=
  @rule ks s t (fun s t => I s → I t) h (fun _ hs => hs) (fun h h' hs => h' (h hs)) hstep hs

theorem view {α : Type} (v : TcpStream → α) (h : Path ks s t)
    (hstep : ∀ {k s t}, k ∈ ks → k.Step s t → v t = v s) : v t = v s :=
  @rule ks s t (fun s t => v t = v s) h (fun _ => rfl) (fun h h' => h'.trans h) hstep

def stateKinds : List Change := [.shut, .enter, .revive, .refuse, .synRcvd, .establish]

theorem state (h : Path ks s t) (hks : ∀ k ∈ ks, k ∉ stateKinds) : t.state = s.state :=
  h.view (·.state) fun hk hstep => by
    have hout := hks _ hk
    cases hstep <;> first | rfl | exact absurd (by decide) hout

end Path

theorem synSent_lt_of_le {st : TcpState} (h : .established ≤ st) : .synSent < st := by
  cases st <;> first | decide | exact absurd h (by decide)

end Mtcp
