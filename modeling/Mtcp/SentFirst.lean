import Mtcp.Closing
import Mtcp.SendQueue

namespace Mtcp

open Serial SendBuffer Bytes Runs List UInt32 Move

variable {cfg : Config} {s : TcpStream} {v : Conn} {m : Move}

/-! Only what was sent is acknowledged. -/

/-- Where in the byte stream the payload of an emitted segment starts, counted from the bytes that
had been released by then. -/
def payloadStart (iss : UInt32) (older : List Effect) (seg : Segment) : Nat :=
  released older + fwd (iss + 1 + UInt32.ofNat (released older)) seg.seq

def Sent (iss : UInt32) (k : Nat) : List Effect → Prop
  | [] => False
  | .emit seg :: older =>
    payloadStart iss older seg ≤ k ∧ k < payloadStart iss older seg + seg.payload.length ∨
      Sent iss k older
  | _ :: older => Sent iss k older

def sentEnd (iss : UInt32) : List Effect → Nat
  | [] => 0
  | .emit seg :: older =>
    if seg.payload.isEmpty then sentEnd iss older
    else max (sentEnd iss older) (payloadStart iss older seg + seg.payload.length)
  | _ :: older => sentEnd iss older

def SentFirst (iss : UInt32) (log : List Effect) : Prop :=
  ∀ newer older n, log = newer ++ .release n :: older →
    ∀ k, released older ≤ k → k < released older + n → Sent iss k older

def highestSent (s : TcpStream) : UInt32 :=
  s.sndvar.iss + 1 + UInt32.ofNat (sentEnd s.sndvar.iss s.trace)

/-- An acknowledgement of what was sent, or one that `ProcessACK` turns away. -/
def ackOfSent (s : TcpStream) (seg : Segment) : Bool :=
  match s.sndvar.sndbuf with
  | none => true
  | some buf =>
    gt (effectiveAck seg s) (buf.headSeq + UInt32.ofNat buf.len) ||
      geq (highestSent s) (effectiveAck seg s)

/-- A SYN in ESTABLISHED does not take `snd_nxt` beyond what was sent. -/
def synOfSent (s : TcpStream) (seg : Segment) : Bool :=
  !(s.state == .established && seg.syn) ||
    decide (fwd s.sndvar.sndUna seg.ackSeq ≤ fwd s.sndvar.sndUna (highestSent s))

/-- A control pass sends a FIN, and does not only put it off. -/
def sendsFin (s : TcpStream) : Bool :=
  s.sndvar.onControlList && match s.state with
    | .finWait1 | .lastAck => !s.sndvar.onSendList && !s.sndvar.onAckList
    | .closing => !s.sndvar.isFinSent || s.sndNxt == s.sndvar.fss
    | _ => false

/-- No control pass sends a FIN when the next byte has never been sent. -/
def finOfSent (s : TcpStream) : Action → Bool
  | .controlPass _ =>
    match s.sndvar.sndbuf with
    | none => true
    | some buf => !(sendsFin s && s.sndNxt == highestSent s &&
        s.sndNxt != buf.headSeq + UInt32.ofNat buf.len)
  | _ => true

def sentOnly (cfg : Config) (s : TcpStream) (e : Env × Action) : Bool :=
  noBareAck s e.2 && onAccepted ackOfSent cfg s e && onAccepted synOfSent cfg s e &&
    finOfSent s e.2

theorem sentOnly_iff {e : Env × Action} : sentOnly cfg s e ↔ noBareAck s e.2 ∧
    onAccepted ackOfSent cfg s e ∧ onAccepted synOfSent cfg s e ∧ finOfSent s e.2 := by
  simp only [sentOnly, Bool.and_eq_true, and_assoc]

/-! Logs. -/

def Effect.silent : Effect → Bool
  | .release _ => false
  | .emit seg => seg.payload.isEmpty
  | _ => true

section Silent

variable {iss : UInt32} {e : Effect} {log : List Effect}

theorem released_silent (h : e.silent) : released (e :: log) = released log := by
  cases e with
  | release n => cases h
  | _ => rfl

theorem sentEnd_silent (h : e.silent) : sentEnd iss (e :: log) = sentEnd iss log := by
  cases e with
  | emit seg => exact if_pos h
  | _ => rfl

theorem Sent.cons {k : Nat} (h : Sent iss k log) (e : Effect) : Sent iss k (e :: log) := by
  cases e with
  | emit seg => exact .inr h
  | _ => exact h

theorem released_kept (log : List Effect) : released (log.filter Effect.kept) = released log := by
  induction log with
  | nil => rfl
  | cons e log ih =>
    cases e with
    | release n => exact congrArg (· + n) ih
    | _ => exact ih

theorem payloadStart_kept (iss : UInt32) (log : List Effect) (seg : Segment) :
    payloadStart iss (log.filter Effect.kept) seg = payloadStart iss log seg := by
  rw [payloadStart, payloadStart, released_kept]

theorem sentEnd_kept (iss : UInt32) (log : List Effect) :
    sentEnd iss (log.filter Effect.kept) = sentEnd iss log := by
  induction log with
  | nil => rfl
  | cons e log ih =>
    cases e with
    | emit seg => rw [filter_cons_of_pos rfl, sentEnd, sentEnd, ih, payloadStart_kept]
    | _ => exact ih

theorem sent_kept (iss : UInt32) (k : Nat) (log : List Effect) :
    Sent iss k (log.filter Effect.kept) ↔ Sent iss k log := by
  induction log with
  | nil => rfl
  | cons e log ih =>
    cases e with
    | emit seg => rw [filter_cons_of_pos rfl, Sent, Sent, ih, payloadStart_kept]
    | _ => exact ih

theorem SentFirst.of_kept (h : SentFirst iss (log.filter Effect.kept)) : SentFirst iss log := by
  rintro newer older n rfl k hlow hhigh
  rw [← sent_kept]
  refine h (newer.filter Effect.kept) _ n ?_ k ?_ ?_
  · rw [filter_append, filter_cons_of_pos rfl]
  · rwa [released_kept]
  · rwa [released_kept]

theorem SentFirst.cons (h : SentFirst iss log) (e : Effect)
    (hrel : ∀ n, e = .release n → ∀ k, released log ≤ k → k < released log + n →
      Sent iss k log) : SentFirst iss (e :: log) := by
  intro newer older n heq
  cases newer with
  | nil =>
    obtain ⟨rfl, rfl⟩ := cons.inj heq
    exact hrel n rfl
  | cons e' newer =>
    obtain ⟨-, rfl⟩ := cons.inj heq
    exact h newer older n rfl

end Silent

/-- What is buffered starts with the bytes that were emitted, and what is not buffered any more was
emitted too. -/
structure Accounts (iss : UInt32) (log : List Effect) (len : Nat) : Prop where
  low : released log ≤ sentEnd iss log
  high : sentEnd iss log ≤ released log + len
  dense : ∀ k, released log ≤ k → k < sentEnd iss log → Sent iss k log
  first : SentFirst iss log

namespace Accounts

variable {iss : UInt32} {log : List Effect} {len : Nat}

theorem nil (iss : UInt32) : Accounts iss [] 0 :=
  ⟨Nat.le_refl 0, Nat.le_refl 0, nofun, fun newer _ _ h => by cases newer <;> cases h⟩

theorem grow (h : Accounts iss log len) {len' : Nat} (hle : len ≤ len') : Accounts iss log len' :=
  ⟨h.low, by have := h.high; omega, h.dense, h.first⟩

theorem silent (h : Accounts iss log len) {e : Effect} (he : e.silent) :
    Accounts iss (e :: log) len := by
  refine ⟨?_, ?_, fun k hlow hhigh => ?_, h.first.cons e ?_⟩
  · rw [released_silent he, sentEnd_silent he]
    exact h.low
  · rw [released_silent he, sentEnd_silent he]
    exact h.high
  · rw [released_silent he] at hlow
    rw [sentEnd_silent he] at hhigh
    exact (h.dense k hlow hhigh).cons e
  · rintro n rfl
    cases he

theorem sentEnd_emit {seg : Segment} (hstart : payloadStart iss log seg ≤ sentEnd iss log) :
    sentEnd iss (.emit seg :: log) =
      max (sentEnd iss log) (payloadStart iss log seg + seg.payload.length) := by
  rw [sentEnd]
  split
  · next hnil =>
    rw [isEmpty_iff.mp hnil, length_nil, Nat.add_zero, max_eq_left hstart]
  · rfl

theorem emit (h : Accounts iss log len) {seg : Segment}
    (hstart : payloadStart iss log seg ≤ sentEnd iss log)
    (hend : payloadStart iss log seg + seg.payload.length ≤ released log + len) :
    Accounts iss (.emit seg :: log) len := by
  have hlow := h.low
  have hhigh := h.high
  refine ⟨?_, ?_, fun k hk hlt => ?_, h.first.cons _ nofun⟩
  · rw [sentEnd_emit hstart]
    exact hlow.trans (le_max_left _ _)
  · rw [sentEnd_emit hstart]
    exact max_le hhigh hend
  · rw [sentEnd_emit hstart] at hlt
    by_cases hold : k < sentEnd iss log
    · exact .inr (h.dense k hk hold)
    · exact .inl ⟨by omega, by omega⟩

theorem release (h : Accounts iss log len) {n : Nat} (hn : released log + n ≤ sentEnd iss log) :
    Accounts iss (.release n :: log) (len - n) := by
  have hhigh := h.high
  refine ⟨hn, ?_, fun k hk hlt => h.dense k (by rw [released] at hk; omega) hlt,
    h.first.cons _ fun n' heq k hk hlt => ?_⟩
  · change sentEnd iss log ≤ released log + n + (len - n)
    omega
  · obtain rfl := Effect.release.inj heq
    exact h.dense k hk (by omega)

end Accounts

/-! Connections. -/

def Conn.reach (v : Conn) : Nat := fwd v.sendBase v.sndNxt

def Conn.sent (v : Conn) : Nat := sentEnd v.iss v.log - released v.log

/-- `snd_nxt` never stands at a byte behind one that was not sent. An old acknowledgement may pull
it back below the buffer, by less than half the sequence space from the end of what was sent. -/
structure Conn.Tallied (v : Conn) : Prop where
  accounts : Accounts v.iss v.log v.sendLen
  base : v.sendBase = v.iss + 1 + UInt32.ofNat (released v.log)
  next : v.state.sending = true → v.reach ≤ v.sent ∨ v.sendLen < v.reach
  near : v.state.flows = true → v.reach ≤ v.sent ∨ 2147483648 + v.sent ≤ v.reach

theorem Conn.Tallied.sent_le (h : v.Tallied) : v.sent ≤ v.sendLen := by
  have hhigh := h.accounts.high
  rw [Conn.sent]
  omega

theorem Conn.Tallied.of_reach {w : Conn} (hacc : Accounts w.iss w.log w.sendLen)
    (hbase : w.sendBase = w.iss + 1 + ofNat (released w.log)) (hreach : w.reach ≤ w.sent) :
    w.Tallied := ⟨hacc, hbase, fun _ => .inl hreach, fun _ => .inl hreach⟩

theorem Conn.Tallied.of_silent {w : Conn} (hacc : Accounts w.iss w.log w.sendLen)
    (hbase : w.sendBase = w.iss + 1 + ofNat (released w.log))
    (hst : w.state.sending = false) : w.Tallied := by
  refine ⟨hacc, hbase, fun h => ?_, fun h => ?_⟩
  · rw [hst] at h
    cases h
  · rw [flows_sending h] at hst
    cases hst

structure SameTally (v w : Conn) : Prop where
  iss : w.iss = v.iss
  sndbuf : w.sndbuf = v.sndbuf
  log : ∃ new : List Effect, new.all Effect.silent = true ∧ w.log = new ++ v.log

namespace SameTally

variable {w : Conn}

section

variable (h : SameTally v w)
include h

theorem sendLen : w.sendLen = v.sendLen := by
  rw [Conn.sendLen, h.sndbuf, Conn.sendLen]

theorem sendBase : w.sendBase = v.sendBase := by
  rw [Conn.sendBase, h.sndbuf, h.iss, Conn.sendBase]

theorem released : Mtcp.released w.log = Mtcp.released v.log := by
  obtain ⟨new, hnew, hlog⟩ := h.log
  rw [hlog]
  clear hlog
  induction new with
  | nil => rfl
  | cons e new ih =>
    obtain ⟨he, hnew⟩ := Bool.and_eq_true_iff.mp hnew
    exact (released_silent he).trans (ih hnew)

theorem sentEnd : Mtcp.sentEnd w.iss w.log = Mtcp.sentEnd v.iss v.log := by
  obtain ⟨new, hnew, hlog⟩ := h.log
  rw [hlog, h.iss]
  clear hlog
  induction new with
  | nil => rfl
  | cons e new ih =>
    obtain ⟨he, hnew⟩ := Bool.and_eq_true_iff.mp hnew
    exact (sentEnd_silent he).trans (ih hnew)

theorem sent : w.sent = v.sent := by
  rw [Conn.sent, h.sentEnd, h.released, Conn.sent]

theorem accounts (hv : Accounts v.iss v.log v.sendLen) : Accounts w.iss w.log w.sendLen := by
  obtain ⟨new, hnew, hlog⟩ := h.log
  rw [h.sendLen, h.iss, hlog]
  clear hlog
  induction new with
  | nil => exact hv
  | cons e new ih =>
    obtain ⟨he, hnew⟩ := Bool.and_eq_true_iff.mp hnew
    exact (ih hnew).silent he

theorem base (hv : v.sendBase = v.iss + 1 + ofNat (Mtcp.released v.log)) :
    w.sendBase = w.iss + 1 + ofNat (Mtcp.released w.log) := by
  rw [h.sendBase, h.released, h.iss, hv]

theorem tallied (hv : v.Tallied) (hnxt : w.sndNxt = v.sndNxt)
    (hsend : w.state.sending → v.state.sending)
    (hflow : w.state.flows → v.state.flows) : w.Tallied := by
  have hreach : w.reach = v.reach := by rw [Conn.reach, h.sendBase, hnxt, Conn.reach]
  refine ⟨h.accounts hv.accounts, h.base hv.base, fun hs => ?_, fun hs => ?_⟩
  · rw [hreach, h.sent, h.sendLen]
    exact hv.next (hsend hs)
  · rw [hreach, h.sent]
    exact hv.near (hflow hs)

theorem rewound (hv : v.Tallied) (hnxt : w.sndNxt = v.sendBase) : w.Tallied := by
  refine .of_reach (h.accounts hv.accounts) (h.base hv.base) ?_
  rw [Conn.reach, h.sendBase, hnxt, fwd_self]
  exact Nat.zero_le _

theorem silenced (hv : v.Tallied) (hst : w.state.sending = false) :
    w.Tallied := .of_silent (h.accounts hv.accounts) (h.base hv.base) hst

end

end SameTally

theorem Conn.Tallied.highest (h : v.Tallied) :
    v.iss + 1 + UInt32.ofNat (sentEnd v.iss v.log) = v.sendBase + UInt32.ofNat v.sent := by
  have hlow := h.accounts.low
  rw [h.base, UInt32.add_assoc _ (UInt32.ofNat _), ← UInt32.ofNat_add, Conn.sent,
    Nat.add_sub_cancel' hlow]

theorem Conn.Tallied.fwd_highest (h : v.Tallied) (hlen : v.sendLen < 2147483648) :
    fwd v.sendBase (v.iss + 1 + ofNat (sentEnd v.iss v.log)) = v.sent := by
  have hle := h.sent_le
  rw [h.highest, fwd_add_ofNat, fwd_self]
  omega

theorem ackedNxt_cases (v : Conn) (x : UInt32) (fast : Bool) :
    v.ackedNxt x fast = x ∨ v.ackedNxt x fast = v.sndNxt ∧ gt x v.sndNxt = false := by
  cases fast with
  | true => exact .inl rfl
  | false =>
    by_cases hgt : gt x v.sndNxt
    · exact .inl (if_pos hgt)
    · exact .inr ⟨if_neg hgt, eq_false_of_ne_true hgt⟩

theorem noted_same (v : Conn) (buf : TcpSendBuffer) (x : UInt32) (fast : Bool) :
    SameTally v (v.noted buf x fast) := ⟨rfl, rfl, [], rfl, rfl⟩

/-- An old acknowledgement takes `snd_nxt` below the buffer at worst. -/
theorem Conn.Tallied.noted (h : v.Tallied) {buf : TcpSendBuffer} (hbuf : v.sndbuf = some buf)
    {x : UInt32} (hle : fwd x buf.headSeq + buf.len ≤ 2147483648)
    (hlt : fwd x buf.headSeq < 2147483648) (fast : Bool) : (v.noted buf x fast).Tallied := by
  have hsame := noted_same v buf x fast
  obtain hx | ⟨hx, -⟩ := ackedNxt_cases v x fast
  · have hsent := h.sent_le
    have htrans := fwd_trans v.sendBase x v.sendBase
    have hback := fwd_lt v.sendBase x
    rw [fwd_self, sendBase_some hbuf] at htrans
    rw [sendLen_some hbuf] at hsent
    rw [sendBase_some hbuf] at hback
    have hreach : (v.noted buf x fast).reach = fwd buf.headSeq x := by
      rw [Conn.reach, hsame.sendBase, sendBase_some hbuf]
      exact congrArg (fwd buf.headSeq) hx
    refine ⟨hsame.accounts h.accounts, hsame.base h.base, fun _ => ?_, fun _ => ?_⟩
    · rw [hreach, hsame.sent, hsame.sendLen, sendLen_some hbuf]
      omega
    · rw [hreach, hsame.sent]
      omega
  · exact hsame.tallied h hx id id

theorem Conn.Tallied.removed (h : v.Tallied) {w : Conn} {n : Nat} (hn : n ≤ v.sent)
    (hiss : w.iss = v.iss) (hlog : w.log = .release n :: v.log)
    (hbase : w.sendBase = v.sendBase + ofNat n) (hlen : w.sendLen = v.sendLen - n)
    (hst : w.state = v.state) (hreach : w.reach = 0 ∨ n ≤ v.reach ∧ w.reach = v.reach - n) :
    w.Tallied := by
  have hlow := h.accounts.low
  have hle := h.sent_le
  have hsent : w.sent = v.sent - n := by
    rw [Conn.sent, hiss, hlog]
    exact Nat.sub_add_eq _ _ _
  refine ⟨?_, ?_, fun hs => ?_, fun hs => ?_⟩
  · rw [hiss, hlog, hlen]
    refine h.accounts.release ?_
    rw [Conn.sent] at hn
    omega
  · rw [hiss, hlog, hbase, h.base, UInt32.add_assoc _ (UInt32.ofNat _), ← UInt32.ofNat_add]
    rfl
  · have hnext := h.next (hst ▸ hs)
    rw [hsent, hlen]
    omega
  · have hnear := h.near (hst ▸ hs)
    rw [hsent]
    omega

section

variable (h : v.Tallied) (hb : Based cfg v) {buf : TcpSendBuffer} (hbuf : v.sndbuf = some buf)
  {x : UInt32}
include h hb hbuf

theorem Conn.Tallied.not_far (hx : geq (v.iss + 1 + ofNat (sentEnd v.iss v.log)) x) :
    ¬ Far buf x := by
  rintro ⟨hfar, hempty⟩
  have hsent := h.sent_le
  have hhigh := h.fwd_highest hb.len_lt
  rw [geq_iff] at hx
  generalize v.iss + 1 + ofNat (sentEnd v.iss v.log) = top at hx hhigh
  rw [sendBase_some hbuf] at hhigh
  rw [sendLen_some hbuf] at hsent
  have htop := fwd_trans buf.headSeq x top
  omega

theorem Conn.Tallied.le_sent (hle : fwd buf.headSeq x ≤ buf.len)
    (hx : geq (v.iss + 1 + ofNat (sentEnd v.iss v.log)) x) : fwd buf.headSeq x ≤ v.sent := by
  have hlen := hb.len_lt
  have hsent := h.sent_le
  have hhigh := h.fwd_highest hlen
  rw [geq_iff] at hx
  generalize v.iss + 1 + ofNat (sentEnd v.iss v.log) = top at hx hhigh
  rw [sendBase_some hbuf] at hhigh
  rw [sendLen_some hbuf] at hlen hsent
  have htop := fwd_trans buf.headSeq x top
  omega

theorem Conn.Tallied.acked (hgt : gt x (buf.headSeq + ofNat buf.len) = false)
    (hx : geq (v.iss + 1 + ofNat (sentEnd v.iss v.log)) x) (fast : Bool) :
    (v.acked buf x fast).Tallied := by
  obtain ⟨hle, hlt, -, hw⟩ | ⟨hpos, hle, -, rest, -, -, hhead, hrest, -, hw⟩ :=
    acked_cases fast hb hbuf hgt (h.not_far hb hbuf hx)
  · rw [hw]
    exact h.noted hbuf hle hlt fast
  · have hlen := hb.len_lt
    rw [sendLen_some hbuf] at hlen
    have hn := h.le_sent hb hbuf hle hx
    have hst : (v.acked buf x fast).state = v.state := apply_state v (.ack buf x fast)
    rw [hw] at hst ⊢
    refine h.removed hn rfl rfl ?_ ?_ hst ?_
    · rw [sendBase_some hbuf, add_fwd]
      exact hhead
    · rw [sendLen_some hbuf]
      exact hrest
    · change fwd rest.headSeq (v.ackedNxt x fast) = 0 ∨ fwd buf.headSeq x ≤ v.reach ∧
        fwd rest.headSeq (v.ackedNxt x fast) = v.reach - fwd buf.headSeq x
      rw [hhead]
      obtain hnxt | ⟨hnxt, hbehind⟩ := ackedNxt_cases v x fast
      · rw [hnxt, fwd_self]
        exact .inl rfl
      -- `snd_nxt` stays where it is only if the acknowledgement is not beyond it.
      · have hsplit := fwd_trans buf.headSeq x v.sndNxt
        have hback := fwd_trans v.sndNxt x v.sndNxt
        have h1 := fwd_lt x v.sndNxt
        have h2 := fwd_lt v.sndNxt x
        rw [not_gt_iff] at hbehind
        rw [fwd_self] at hback
        rw [hnxt, Conn.reach, sendBase_some hbuf]
        omega

end

theorem Conn.Tallied.emitData (h : v.Tallied) (hb : Based cfg v) {buf : TcpSendBuffer}
    {seg : Segment} (hg : guard cfg v (.emitData buf seg)) :
    (Move.apply v (.emitData buf seg)).Tallied := by
  obtain ⟨hflush, -, hbuf, -, hord, hplain, -, hseq, n, hn, hpay⟩ := hg
  have hlen := hb.len_lt
  have hlow := h.accounts.low
  have hsize : seg.payload.length ≤ n := by
    rw [hpay, slice]
    exact length_take_le _ _
  have hin : v.reach ≤ v.sendLen := by
    rw [Conn.reach, sendBase_some hbuf, sendLen_some hbuf]
    exact hord.2.2
  have hroom : v.reach + seg.payload.length ≤ v.sendLen := by
    rw [Conn.reach, sendBase_some hbuf, sendLen_some hbuf] at hin ⊢
    omega
  have hreach : v.reach ≤ v.sent := by
    have hsending : v.state.sending := by
      generalize v.state = st at hflush
      cases st <;> first | rfl | cases hflush
    obtain hnext | hnext := h.next hsending
    · exact hnext
    · omega
  have hstart : payloadStart v.iss v.log seg = released v.log + v.reach := by
    rw [payloadStart, ← h.base, hseq, Conn.reach]
  have hgap : payloadStart v.iss v.log seg ≤ sentEnd v.iss v.log := by
    rw [hstart]
    rw [Conn.sent] at hreach
    omega
  refine .of_reach (h.accounts.emit hgap ?_) h.base ?_
  · rw [hstart]
    omega
  · have hnxt : (v.emitted seg).sndNxt = v.sndNxt + ofNat seg.payload.length := by
      change v.sndNxt + ofNat seg.payload.length + (if seg.syn || seg.fin then 1 else 0) = _
      rw [hplain.1, hplain.2.1]
      exact UInt32.add_zero _
    change fwd v.sendBase (v.emitted seg).sndNxt ≤
      sentEnd v.iss (.emit seg :: v.log) - released v.log
    rw [hnxt, fwd_add_ofNat, Accounts.sentEnd_emit hgap, hstart]
    change (v.reach + seg.payload.length) % 4294967296 ≤ _
    omega

theorem Conn.Tallied.emitFin (h : v.Tallied) {seg : Segment}
    (hg : guard cfg v (.emitFin seg)) (hall : v.reach = v.sent → v.sent = v.sendLen) :
    (Move.apply v (.emitFin seg)).Tallied := by
  obtain ⟨hsyn, hfin, -, -, hpay, -, -, hst⟩ := hg
  have hsame : SameTally v (Move.apply v (.emitFin seg)) := by
    refine ⟨rfl, rfl, [.emit seg], ?_, rfl⟩
    change (seg.payload.isEmpty && true)
    rw [hpay]
    rfl
  have hsend : v.state.sending ∧ v.state.flows = false := by
    obtain ⟨hst | hst, -⟩ | ⟨hst, -⟩ := hst <;> rw [hst] <;> exact ⟨rfl, rfl⟩
  have hnxt : (Move.apply v (.emitFin seg)).reach = (v.reach + 1) % 4294967296 := by
    change fwd v.sendBase (v.sndNxt + ofNat seg.payload.length +
      (if seg.syn || seg.fin then 1 else 0)) = _
    rw [hpay, hsyn, hfin, Conn.reach, ← fwd_add_one]
    exact congrArg (fwd v.sendBase) (congrArg (· + 1) (UInt32.add_zero _))
  refine ⟨hsame.accounts h.accounts, hsame.base h.base, fun _ => ?_, fun hflow => ?_⟩
  · have hnext := h.next hsend.1
    have hlt := fwd_lt v.sendBase v.sndNxt
    rw [hnxt, hsame.sent, hsame.sendLen]
    change v.reach < 4294967296 at hlt
    omega
  · rw [show (Move.apply v (.emitFin seg)).state = v.state from rfl, hsend.2] at hflow
    cases hflow

theorem Conn.Tallied.put (h : v.Tallied) (hb : Based cfg v) {buf : TcpSendBuffer}
    {bytes : List UInt8} (hg : guard cfg v (.put buf bytes)) :
    (Move.apply v (.put buf bytes)).Tallied := by
  obtain ⟨hwf, hsize, hhead, hlen⟩ := put_spec hb hg
  have hfits := hwf.len_le
  have hbound := cfg.sndbufSize_lt
  have hflow : v.state.flows := flows_iff.mpr hg.1
  refine ⟨?_, hhead.trans h.base, fun _ => ?_, fun _ => ?_⟩
  · refine (h.accounts.grow ?_).silent rfl
    exact (Nat.le_add_right _ _).trans (le_of_eq hlen.symm)
  · change fwd (sbPut buf bytes).2.headSeq v.sndNxt ≤ v.sent ∨
      (sbPut buf bytes).2.len < fwd (sbPut buf bytes).2.headSeq v.sndNxt
    rw [hhead]
    obtain hnear | hnear := h.near hflow
    · exact .inl hnear
    · rw [Conn.reach] at hnear
      exact .inr (by omega)
  · change fwd (sbPut buf bytes).2.headSeq v.sndNxt ≤ v.sent ∨
      2147483648 + v.sent ≤ fwd (sbPut buf bytes).2.headSeq v.sndNxt
    rw [hhead]
    exact h.near hflow

/-! What the events have to do with it. -/

theorem highestSent_eq (hsame : SameSend v (conn s)) :
    highestSent s = v.iss + 1 + ofNat (sentEnd v.iss v.log) := by
  rw [hsame.iss, hsame.log]
  change _ = s.sndvar.iss + 1 + ofNat (sentEnd s.sndvar.iss (s.trace.filter Effect.kept))
  rw [sentEnd_kept, highestSent]

theorem ackOfSent_move {e : Env × Action} {buf : TcpSendBuffer} {x : UInt32} {fast : Bool}
    (hc : onAccepted ackOfSent cfg s e) (hg : guard cfg v (.ack buf x fast))
    (hcause : Cause cfg s e v (.ack buf x fast)) :
    geq (v.iss + 1 + ofNat (sentEnd v.iss v.log)) x := by
  obtain ⟨seg, he, hr, rfl, hv, -, -, hsame, -⟩ := hcause
  have hs : s.sndvar.sndbuf = some buf := hsame.sndbuf.symm.trans hg.1
  have h := onAccepted_rx hc he hr hv
  rw [ackOfSent, hs] at h
  dsimp only at h
  rw [hg.2.1, Bool.false_or] at h
  rw [← highestSent_eq hsame]
  exact h

theorem synOfSent_move {e : Env × Action} {x : UInt32}
    (hc : onAccepted synOfSent cfg s e) (hg : guard cfg v (.jump x))
    (hcause : Cause cfg s e v (.jump x)) (hb : Based cfg v) (h : v.Tallied) :
    fwd v.sendBase x ≤ v.sent := by
  obtain ⟨seg, he, hst, hsyn, hr, rfl, hv, hsame⟩ := hcause
  have hin := onAccepted_rx hc he hr hv
  have huna : v.sndUna = s.sndvar.sndUna := hsame.sndUna
  have hbase := hb.una (by rw [show v.state = .established from hg]; rfl)
  rw [← h.fwd_highest hb.len_lt, ← highestSent_eq hsame, ← hbase, huna]
  simpa [synOfSent, hst, hsyn] using hin

theorem finOfSent_move {e : Env × Action} {seg : Segment} (hc : finOfSent s e.2)
    (hg : guard cfg v (.emitFin seg)) (hcause : Cause cfg s e v (.emitFin seg))
    (h : v.Tallied) (hlen : v.sendLen < 2147483648) (heq : v.reach = v.sent) :
    v.sent = v.sendLen := by
  obtain ⟨⟨room, he⟩, hst, hsame, hlist, hctl⟩ := hcause
  have hsends : sendsFin s := by
    have hguard := hg.2.2.2.2.2.2.2
    rw [hst, hsame.sendList, hsame.finSent, hsame.sndNxt, hsame.fss] at hguard
    rw [sendsFin, hctl, Bool.true_and]
    obtain ⟨hs | hs, hq⟩ | ⟨hs, hq⟩ := hguard
    iterate 2
      have hoff : s.sndvar.onSendList = false := hq
      rw [hs, hoff, hlist.resolve_left (by rw [hs]; decide)]
      rfl
    rw [hs]
    simpa [conn] using hq
  have hsent := h.sent_le
  cases hbuf : v.sndbuf with
  | none =>
    rw [Conn.sendLen, hbuf] at hsent ⊢
    exact Nat.le_zero.mp hsent
  | some buf =>
    have hhigh : s.sndNxt = highestSent s := by
      rw [highestSent_eq hsame, h.highest, ← heq, Conn.reach, add_fwd]
      exact hsame.sndNxt.symm
    have hs : s.sndvar.sndbuf = some buf := hsame.sndbuf.symm.trans hbuf
    rw [he, finOfSent, hs] at hc
    have hend : s.sndNxt = buf.headSeq + ofNat buf.len := by
      simpa [hsends, hhigh] using hc
    rw [← heq, Conn.reach, hsame.sndNxt, sendBase_some hbuf, sendLen_some hbuf]
    rw [sendLen_some hbuf] at hlen
    change fwd buf.headSeq s.sndNxt = buf.len
    rw [hend, fwd_add_ofNat, fwd_self]
    omega

theorem sameTally_apply (hg : m.guard cfg v) (hm : m.calm)
    (hack : ∀ buf x fast, m ≠ .ack buf x fast) (hput : ∀ buf bytes, m ≠ .put buf bytes)
    (hdata : ∀ buf seg, m ≠ .emitData buf seg) : SameTally v (m.apply v) := by
  have hlog := apply_log (v := v) (.inl hm)
  have hempty : ∀ seg, seg.payload = [] → [Effect.emit seg].all Effect.silent := by
    intro seg hpay
    simp [Effect.silent, hpay]
  cases m with
  | crash | assertFail | destroy => cases hm
  | ack buf x fast => exact absurd rfl (hack buf x fast)
  | put buf bytes => exact absurd rfl (hput buf bytes)
  | emitData buf seg => exact absurd rfl (hdata buf seg)
  | retransmit =>
    exact ⟨(retransmitted_una v).2.1, (retransmitted_frame v).2.1, _, rfl, hlog⟩
  | emitSyn seg => exact ⟨rfl, rfl, _, hempty seg hg.2.2.2.2.1, hlog⟩
  | emitAck seg => exact ⟨rfl, rfl, _, hempty seg hg.2.1, hlog⟩
  | emitFin seg | emitRst seg => exact ⟨rfl, rfl, _, hempty seg hg.2.2.2.2.1, hlog⟩
  | _ => exact ⟨rfl, rfl, _, rfl, hlog⟩

theorem Conn.Tallied.frame (hl : Live v) (ho : Opening v) (hb : Based cfg v) (h : v.Tallied)
    (hg : m.guard cfg v) (hm : m.calm) (hsame : SameTally v (m.apply v))
    (hjump : ∀ x, m = .jump x → fwd v.sendBase x ≤ v.sent)
    (hfin : ∀ seg, m ≠ .emitFin seg) (hack : ∀ buf x fast, m ≠ .ack buf x fast)
    (hdata : ∀ buf seg, m ≠ .emitData buf seg) : (m.apply v).Tallied := by
  have hst := apply_state v m
  have hsilent : ∀ st, (m.apply v).state = st → st.sending = false → (m.apply v).Tallied := by
    rintro st rfl
    exact hsame.silenced h
  -- Nothing is buffered in the handshake, so the bytes start behind our SYN.
  have hopened : ∀ st, v.state = st → st.early →
      (m.apply v).sndNxt = v.iss + 1 → (m.apply v).Tallied := by
    rintro st rfl hearly hnxt
    refine hsame.rewound h (hnxt.trans ?_)
    rw [Conn.sendBase, hl.shape.sndbuf hearly]
  have hkeep : ∀ st, v.state = st → st.sending ∧ st.flows →
      (m.apply v).sndNxt = v.sndNxt → (m.apply v).Tallied := by
    rintro st rfl ⟨hs, hf⟩ hnxt
    exact hsame.tallied h hnxt (fun _ => hs) fun _ => hf
  cases m with
  | crash w => cases hm
  | ack buf x fast => exact absurd rfl (hack buf x fast)
  | emitData buf seg => exact absurd rfl (hdata buf seg)
  | emitFin seg => exact absurd rfl (hfin seg)
  | shut r | listen seq | loneSyn seq | finAcked | closingAcked | lastAcked =>
    exact hsilent _ hst rfl
  | restart => exact hsilent _ (hst.trans hg) rfl
  | refused =>
    obtain ⟨hfrom, a, ha⟩ := hg
    exact hopened _ hfrom rfl (ho.acceptable hfrom ha).2
  | synAck seq a => exact hopened _ hg.2.1 rfl (ho.acceptable hg.2.1 hg.2.2).1
  | ackOfSyn => exact hopened _ hg.2 rfl rfl
  | reset =>
    obtain hfrom | hfrom := hg
    · exact hkeep _ hfrom ⟨rfl, rfl⟩ rfl
    · exact hkeep _ hfrom ⟨rfl, rfl⟩ rfl
  | jump x =>
    refine .of_reach (hsame.accounts h.accounts) (hsame.base h.base) ?_
    rw [Conn.reach, hsame.sendBase, hsame.sent]
    exact hjump x rfl
  | peerFin seq dest =>
    obtain ⟨hfrom, rfl⟩ | ⟨hfrom, rfl⟩ | ⟨hfrom, rfl⟩ | ⟨hfrom, rfl⟩ := hg.2
    · exact hkeep _ hfrom ⟨rfl, rfl⟩ rfl
    · exact hsame.tallied h rfl (fun _ => by rw [hfrom]; rfl) fun hf => by cases hf
    · exact hsilent _ hst rfl
    · exact hsilent _ hst rfl
  | retransmit =>
    by_cases hs : v.state.sending
    · exact hsame.rewound h ((retransmitted_una v).2.2.trans (hb.una hs))
    · exact hsilent _ hst (eq_false_of_ne_true hs)
  | beginClose =>
    obtain hfrom | hfrom := hg.1
    · exact hkeep _ hfrom ⟨rfl, rfl⟩ rfl
    · exact hkeep _ hfrom ⟨rfl, rfl⟩ rfl
  | emitSyn seg =>
    obtain ⟨hfrom, -⟩ | ⟨hfrom, -⟩ := hg.2.2.2.2.2.2
    · exact hsilent _ (hst.trans hfrom) rfl
    · exact hsilent _ (hst.trans hfrom) rfl
  | emitAck seg =>
    exact hsame.tallied h (emitted_sndNxt_plain v hg.1 hg.2.1) id id
  | emitRst seg => exact hsilent _ (hst.trans hg.2.2.2.2.2.2.2) rfl
  | _ => exact hsame.tallied h rfl id id

theorem Conn.Tallied.apply (hl : Live v) (ho : Opening v) (hb : Based cfg v) (h : v.Tallied)
    (hg : m.guard cfg v) (hm : m.calm) (hack : ∀ buf x fast, m = .ack buf x fast →
      geq (v.iss + 1 + ofNat (sentEnd v.iss v.log)) x)
    (hjump : ∀ x, m = .jump x → fwd v.sendBase x ≤ v.sent)
    (hfin : ∀ seg, m = .emitFin seg → v.reach = v.sent → v.sent = v.sendLen) :
    (m.apply v).Tallied := by
  cases m with
  | ack buf x fast => exact h.acked hb hg.1 hg.2.1 (hack buf x fast rfl) fast
  | emitFin seg => exact h.emitFin hg (hfin seg rfl)
  | emitData buf seg => exact h.emitData hb hg
  | put buf bytes => exact h.put hb hg
  | _ =>
    exact h.frame hl ho hb hg hm
      (sameTally_apply hg hm (fun _ _ _ => nofun) (fun _ _ => nofun) fun _ _ => nofun)
      hjump (fun _ => nofun) (fun _ _ _ => nofun) fun _ _ => nofun

theorem Started.tallied (h : Started v) : v.Tallied := by
  cases h with
  | active iss connects _ =>
    exact .of_silent (Accounts.nil iss) (UInt32.add_zero _).symm rfl
  | passive iss seq =>
    exact .of_silent ((Accounts.nil iss).silent rfl) (UInt32.add_zero _).symm rfl

/-- In a run in which no accepted acknowledgement lies between what was sent and the end of the
buffer, bytes leave the buffer and `snd_una` passes them only after they were sent, and
acknowledgements of what was never sent are ignored. -/
theorem acknowledged_only_if_sent {es : List (Env × Action)} (hs : Opened cfg s)
    (ha : Along (step cfg) (fun s e => sentOnly cfg s e = true) s es)
    (hf : (run cfg s es).fault = none) (hl : (run cfg s es).onHashTable = true) :
    let t := run cfg s es
    SentFirst t.sndvar.iss t.trace ∧
      (t.state.sending = true →
        t.sndvar.sndUna = t.sndvar.iss + 1 + UInt32.ofNat (released t.trace)) ∧
      ∀ env seg, ackOfSent t seg = true → gt (effectiveAck seg t) (highestSent t) = true →
        handleAck env seg t = t := by
  have hmove : ∀ s e v m, sentOnly cfg s e = true → Live v →
      Opening v ∧ Based cfg v ∧ v.Tallied → m.guard cfg v → m.calm = true → Cause cfg s e v m →
      Opening (Move.apply v m) ∧ Based cfg (Move.apply v m) ∧ (Move.apply v m).Tallied := by
    rintro s e v m hc hlive ⟨ho, hb, ht⟩ hg hm hcause
    obtain ⟨hbare, hack, hsyn, hfin⟩ := sentOnly_iff.mp hc
    refine ⟨opening_apply hbare hlive ho hg hm hcause, hb.apply ?_ ?_ hlive ho hg hm,
      ht.apply hlive ho hb hg hm ?_ ?_ ?_⟩
    · rintro rfl
      exact noBareAck_move hbare hcause
    · rintro buf x fast rfl
      exact ht.not_far hb hg.1 (ackOfSent_move hack hg hcause)
    · rintro buf x fast rfl
      exact ackOfSent_move hack hg hcause
    · rintro x rfl
      exact synOfSent_move hsyn hg hcause hb ht
    · rintro seg rfl
      exact finOfSent_move hfin hg hcause ht hb.len_lt
  obtain ⟨-, -, hb, ht⟩ := run_invariant hmove
    (fun v h => ⟨opening_started h, based_started h, h.tallied⟩) hs ha hf hl
  generalize run cfg s es = t at *
  have hlog : (conn t).log = t.trace.filter Effect.kept := rfl
  refine ⟨?_, fun hst => ?_, fun env seg hof hgt => ?_⟩
  · have hfirst := ht.accounts.first
    rw [hlog] at hfirst
    exact hfirst.of_kept
  · have hbase := ht.base
    rw [hlog, released_kept, ← hb.una hst] at hbase
    exact hbase
  · unfold handleAck ackOfSent at *
    cases hbuf : t.sndvar.sndbuf with
    | none => rfl
    | some buf =>
      rw [hbuf] at hof
      have hbeyond : gt (effectiveAck seg t) (buf.headSeq + UInt32.ofNat buf.len) = true := by
        have hback := fwd_trans (highestSent t) (effectiveAck seg t) (highestSent t)
        have hgeq : geq (highestSent t) (effectiveAck seg t) = false := by
          rw [gt_iff] at hgt
          rw [not_geq_iff]
          rw [fwd_self] at hback
          omega
        simpa [hgeq] using hof
      rw [processACK, hbuf]
      exact if_pos hbeyond

def sentThenAcknowledged : List Action :=
  clientHandshake ++ [.write [1, 2, 3], .dequeue .sendq, .dataPass 5,
    .rx { seq := 501, ackSeq := 104, window := 1000, ack := true }]

theorem acknowledged_only_if_sent_client :
    let t := run .small client (atRest sentThenAcknowledged)
    released t.trace = 3 ∧ SentFirst t.sndvar.iss t.trace ∧
      (t.state.sending = true →
        t.sndvar.sndUna = t.sndvar.iss + 1 + UInt32.ofNat (released t.trace)) ∧
      ∀ env seg, ackOfSent t seg = true → gt (effectiveAck seg t) (highestSent t) = true →
        handleAck env seg t = t :=
  ⟨by decide, acknowledged_only_if_sent client_opened (by decide) (by decide) (by decide)⟩

def acknowledgedUnsent : List Action :=
  clientHandshake ++ [.write [1, 2, 3],
    .rx { seq := 501, ackSeq := 103, window := 1000, ack := true }]

/-- `ProcessACK` compares with what is buffered, not with what was sent. -/
theorem unsent_bytes_released :
    let t := run .small client (atRest acknowledgedUnsent)
    t.fault = none ∧ sentEnd t.sndvar.iss t.trace = 0 ∧ released t.trace = 2 ∧
      t.sndvar.sndUna = 103 ∧ t.sndNxt = 103 := by
  decide

end Mtcp
