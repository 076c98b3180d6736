import Mtcp.Machine
import Mtcp.Runs

namespace Mtcp

open Serial SendBuffer Bytes Runs List UInt32

/-! The send buffer of a stream as a queue of bytes. -/

def taken : List Effect → List UInt8
  | [] => []
  | .take bytes :: older => taken older ++ bytes
  | _ :: older => taken older

def released : List Effect → Nat
  | [] => 0
  | .release n :: older => released older + n
  | _ :: older => released older

/-- The part of a stream that `CopyFromUser` and `ProcessACK` have to agree on, and whether the
check of `CopyFromUser` has failed. -/
structure Ledger where
  sndbuf : Option TcpSendBuffer
  sndWnd : UInt32
  effMss : UInt16
  short : Bool

def ledger (s : TcpStream) : Ledger where
  sndbuf := s.sndvar.sndbuf
  sndWnd := s.sndvar.sndWnd
  effMss := s.sndvar.effMss
  short := s.fault == some .sbPutShort

/-- Of the bytes `put` in, the buffer holds all but the first `removed`, in order, and `snd_wnd` is
its free space. -/
structure Queued (size initSeq : UInt32) (put : List UInt8) (removed : Nat) (l : Ledger)
    (buf : TcpSendBuffer) : Prop where
  held : l.sndbuf = some buf
  wf : Wf buf
  size : buf.size = size.toNat
  bytes : contents buf = put.drop removed
  bounded : removed ≤ put.length
  head : buf.headSeq = initSeq + UInt32.ofNat removed
  cum : buf.cumLen = UInt64.ofNat put.length
  window : l.sndWnd = UInt32.ofNat (buf.size - buf.len)
  whole : l.short = false

variable {cfg : Config} {env : Env} {s t : TcpStream} {size initSeq : UInt32} {buf : TcpSendBuffer}
  {put : List UInt8} {removed : Nat}

/-! What leaves the ledger alone. -/

theorem ledger_abort (s : TcpStream) {f : Fault} (hf : f ≠ .sbPutShort) :
    ledger (s.abort f) = ledger s := by
  have hshort : (s.fault.or (some f) == some .sbPutShort) = (s.fault == some .sbPutShort) := by
    cases s.fault with
    | none => simpa using hf
    | some g => rfl
  rw [ledger, ledger, TcpStream.abort, hshort]

theorem ledger_ite {c : Prop} [Decidable c] {l : Ledger} {u : TcpStream} (ht : ledger t = l)
    (hu : ledger u = l) : ledger (if c then t else u) = l := by
  by_cases hc : c
  · rw [if_pos hc, ht]
  · rw [if_neg hc, hu]

theorem ledger_updateWindow (seg : Segment) (x : UInt32) (s : TcpStream) :
    ledger (updateWindow seg x s) = ledger s :=
  ledger_ite (ledger_ite rfl rfl) rfl

theorem ledger_addtoSendList (s : TcpStream) : ledger (addtoSendList s) = ledger s :=
  ledger_ite (ledger_abort s nofun) (ledger_ite rfl rfl)

theorem ledger_respondDupAcks (dup : Bool) (x : UInt32) (s : TcpStream) :
    ledger (respondDupAcks dup x s) = ledger s := by
  have hfast : ledger (fastRetransmit x s) = ledger s := by
    unfold fastRetransmit
    rw [ledger_addtoSendList]
    split <;> rfl
  exact ledger_ite hfast (ledger_ite (ledger_ite rfl rfl) rfl)

theorem ledger_recoverAfterLoss (x : UInt32) (s : TcpStream) :
    ledger (recoverAfterLoss buf x s) = ledger s := by
  have hremove : ∀ u, ledger (removeFromSendList u) = ledger u := fun u => ledger_ite rfl rfl
  exact ledger_ite (ledger_ite (hremove _) rfl) rfl

theorem ledger_noteAck (seg : Segment) (x : UInt32) (s : TcpStream) :
    ledger (noteAck seg buf x s) = ledger s := by
  have hcount : ∀ dup u, ledger (countDupAcks dup x u) = ledger u := fun _ _ => ledger_ite rfl rfl
  unfold noteAck
  rw [ledger_recoverAfterLoss, ledger_respondDupAcks, hcount, ledger_updateWindow]

theorem ledger_updateRTO (s : TcpStream) : ledger (updateRTO env s) = ledger s :=
  ledger_ite (ledger_ite (ledger_abort _ nofun) rfl) rfl

theorem ledger_growCwnd (packets : UInt32) (s : TcpStream) :
    ledger (growCwnd packets s) = ledger s :=
  ledger_ite (ledger_ite (ledger_ite rfl rfl)
    (ledger_ite (ledger_abort s nofun) (ledger_ite rfl rfl))) rfl

theorem ledger_updateRetransmissionTimer (s : TcpStream) :
    ledger (updateRetransmissionTimer env s) = ledger s := by
  have hadd : ∀ u, ledger (addtoRTOList env { u with
      sndvar.tsRto := env.curTs + u.sndvar.rto }) = ledger u :=
    fun u => ledger_ite (ledger_ite rfl rfl) rfl
  have hoff : ∀ u, ledger (if u.onRtoIdx ≥ 0 then removeFromRTOList u else u) =
      ledger u := fun u => ledger_ite (ledger_ite rfl rfl) rfl
  unfold updateRetransmissionTimer
  have hrto : ledger (if s.sndvar.rto = 0 then s.abort .rtoZero else s) = ledger s :=
    ledger_ite (ledger_abort s nofun) rfl
  generalize (if s.sndvar.rto = 0 then s.abort .rtoZero else s) = r at hrto ⊢
  have hr := (hoff { r with sndvar.nrtx := 0 }).trans hrto
  exact ledger_ite ((hadd _).trans hr) hr

/-! The two operations. -/

/-- How many bytes an acknowledgement covers: none if it is beyond the buffer or not ahead of it.
With `eff_mss` 0 the process ends before `SBRemove`. -/
def acknowledgedLen (seg : Segment) (s : TcpStream) : Nat :=
  match s.sndvar.sndbuf with
  | none => 0
  | some buf =>
    let ackSeq := effectiveAck seg s
    if gt ackSeq (buf.headSeq + ofNat buf.len) ∨ geq buf.headSeq ackSeq ∨ s.sndvar.effMss = 0 then 0
    else min (ackSeq - buf.headSeq).toNat buf.len

theorem acknowledgedLen_le (seg : Segment) (hbuf : s.sndvar.sndbuf = some buf) :
    acknowledgedLen seg s ≤ buf.len := by
  rw [acknowledgedLen, hbuf]
  dsimp only
  split
  · exact Nat.zero_le _
  · exact Nat.min_le_right _ _

theorem ledger_processACK (seg : Segment) (hbuf : s.sndvar.sndbuf = some buf) :
    ledger (processACK env seg s) = ledger s ∧ acknowledgedLen seg s = 0 ∨
      ledger (processACK env seg s) = { ledger s with
        sndbuf := some (sbRemove buf (acknowledgedLen seg s)).2
        sndWnd := ofNat ((sbRemove buf (acknowledgedLen seg s)).2.size -
          (sbRemove buf (acknowledgedLen seg s)).2.len) } := by
  unfold processACK acknowledgedLen
  rw [hbuf]
  dsimp only
  generalize effectiveAck seg s = x
  by_cases hgt : gt x (buf.headSeq + ofNat buf.len)
  · rw [if_pos hgt, if_pos (.inl hgt)]
    exact .inl ⟨rfl, rfl⟩
  have hnote := @ledger_noteAck buf seg x s
  rw [if_neg hgt]
  generalize noteAck seg buf x s = u at hnote ⊢
  by_cases hgeq : geq buf.headSeq x
  · rw [if_pos hgeq, if_pos (.inr (.inl hgeq))]
    exact .inl ⟨hnote, rfl⟩
  have hmss : u.sndvar.effMss = s.sndvar.effMss := congrArg Ledger.effMss hnote
  rw [if_neg hgeq, removeAcked, hmss]
  by_cases hzero : s.sndvar.effMss = 0
  · rw [if_pos hzero, if_pos (.inr (.inr hzero))]
    exact .inl ⟨(@ledger_abort u .divideByZero nofun).trans hnote, rfl⟩
  rw [if_neg hzero, if_neg (by simp [hgt, hgeq, hzero]), ← sbRemove_min]
  refine .inr ?_
  dsimp only
  rw [ledger_updateRetransmissionTimer]
  generalize (if x - buf.headSeq < _ then _ else _ : UInt16).toUInt32 = packets
  have hgrow := (ledger_growCwnd packets (updateRTO env u)).trans
    ((@ledger_updateRTO env u).trans hnote)
  generalize growCwnd packets (updateRTO env u) = w at hgrow ⊢
  rw [← hgrow]
  exact ledger_ite rfl rfl

theorem Queued.remove (h : Queued size initSeq put removed (ledger s) buf) {n : Nat}
    (hn : n ≤ buf.len) : Queued size initSeq put (removed + n) { ledger s with
      sndbuf := some (sbRemove buf n).2
      sndWnd := ofNat ((sbRemove buf n).2.size - (sbRemove buf n).2.len) } (sbRemove buf n).2 := by
  have hlen := length_contents h.wf
  rw [h.bytes, length_drop] at hlen
  have hbounded := h.bounded
  obtain ⟨hwf, hbytes, -, hsize, hhead⟩ := sbRemove_spec h.wf hn
  refine ⟨rfl, hwf, hsize.trans h.size, ?_, by omega, ?_, (sbRemove_cumLen buf n).trans h.cum, rfl,
    h.whole⟩
  · rw [hbytes, h.bytes, drop_drop]
  · rw [hhead, h.head, UInt32.ofNat_add, UInt32.add_assoc]

theorem Queued.processACK (h : Queued size initSeq put removed (ledger s) buf) (seg : Segment) :
    ∃ b, Queued size initSeq put (removed + acknowledgedLen seg s)
      (ledger (processACK env seg s)) b := by
  obtain ⟨hsame, hnone⟩ | hremoved := @ledger_processACK env s buf seg h.held
  · rw [hsame, hnone]
    exact ⟨buf, h⟩
  · rw [hremoved]
    exact ⟨_, h.remove (acknowledgedLen_le seg h.held)⟩

def sndlen (s : TcpStream) (bytes : List UInt8) : Int :=
  min (signed s.sndvar.sndWnd) (signed (UInt32.ofNat bytes.length))

theorem signed_le_toNat (x : UInt32) : signed x ≤ x.toNat := by
  rw [signed_eq]
  split <;> omega

section

variable (h : Queued size initSeq put removed (ledger s) buf)

include h

theorem Queued.sndlen_le (bytes : List UInt8) :
    (sndlen s bytes).toNat ≤ bytes.length ∧ (sndlen s bytes).toNat ≤ buf.size - buf.len := by
  have hwnd := signed_le_toNat s.sndvar.sndWnd
  have hlen := signed_le_toNat (ofNat bytes.length)
  rw [show s.sndvar.sndWnd = _ from h.window, toNat_ofNat'] at hwnd
  rw [toNat_ofNat'] at hlen
  rw [sndlen, show s.sndvar.sndWnd = _ from h.window]
  omega

theorem Queued.takes_chunk {bytes : List UInt8} (hpos : 0 < sndlen s bytes) :
    bytes.take (sndlen s bytes).toNat ≠ [] ∧
      ((bytes.take (sndlen s bytes).toNat).length : Int) = sndlen s bytes ∧
      (sbPut buf (bytes.take (sndlen s bytes).toNat)).1 =
        (bytes.take (sndlen s bytes).toNat).length ∧
      (sbPut buf (bytes.take (sndlen s bytes).toNat)).2.cumLen =
        buf.cumLen + UInt64.ofNat (bytes.take (sndlen s bytes).toNat).length := by
  obtain ⟨hhave, hroom⟩ := h.sndlen_le bytes
  have hlen : (bytes.take (sndlen s bytes).toNat).length = (sndlen s bytes).toNat := by
    rw [length_take, min_eq_left hhave]
  have hne : bytes.take (sndlen s bytes).toNat ≠ [] := by
    intro hnil
    rw [hnil, length_nil] at hlen
    omega
  refine ⟨hne, ?_, sbPut_whole hne (by rw [hlen]; exact hroom)⟩
  rw [hlen, Int.toNat_of_nonneg (le_of_lt hpos)]

theorem copyFromUser_of_pos {bytes : List UInt8} (hpos : 0 < sndlen s bytes) :
    copyFromUser cfg env bytes s = (sndlen s bytes, { s with
        sndvar.sndbuf := some (sbPut buf (bytes.take (sndlen s bytes).toNat)).2
        sndvar.sndWnd := ofNat ((sbPut buf (bytes.take (sndlen s bytes).toNat)).2.size -
          (sbPut buf (bytes.take (sndlen s bytes).toNat)).2.len) }.log
        (.take (bytes.take (sndlen s bytes).toNat))) := by
  obtain ⟨-, hlen, hret, -⟩ := h.takes_chunk hpos
  rw [hlen] at hret
  have hput : sbPut buf (bytes.take (sndlen s bytes).toNat) =
      (sndlen s bytes, (sbPut buf (bytes.take (sndlen s bytes).toNat)).2) := Prod.ext hret rfl
  have hensure : ensureSndbuf cfg env s = some buf := by
    rw [ensureSndbuf, show s.sndvar.sndbuf = some buf from h.held]
  unfold copyFromUser
  rw [show min (signed s.sndvar.sndWnd) (signed (ofNat bytes.length)) = sndlen s bytes
    from rfl, if_neg (not_le.mpr hpos), hensure]
  dsimp only
  rw [hput]
  rw [if_neg (not_not.mpr rfl), if_neg (not_le.mpr hpos)]

theorem Queued.copyFromUser (bytes : List UInt8) : ∃ b, Queued size initSeq
      (put ++ bytes.take (copyFromUser cfg env bytes s).1.toNat) removed
      (ledger (copyFromUser cfg env bytes s).2) b := by
  by_cases hpos : 0 < sndlen s bytes
  · obtain ⟨hne, -, hret, hcum⟩ := h.takes_chunk hpos
    rw [copyFromUser_of_pos h hpos]
    dsimp only
    generalize bytes.take (sndlen s bytes).toNat = chunk at *
    obtain ⟨hwf, hbytes, -, hsize, hhead, -⟩ := sbPut_spec h.wf hne hret
    generalize (sbPut buf chunk).2 = b at *
    refine ⟨b, rfl, hwf, hsize.trans h.size, ?_, ?_, hhead.trans h.head, ?_, rfl, h.whole⟩
    · rw [hbytes, h.bytes, drop_append_of_le_length h.bounded]
    · rw [length_append]
      exact h.bounded.trans (Nat.le_add_right _ _)
    · rw [hcum, length_append, h.cum, UInt64.ofNat_add]
  · have hnone : Mtcp.copyFromUser cfg env bytes s = (-1, s) := if_pos (not_lt.mp hpos)
    rw [hnone]
    exact ⟨buf, (append_nil put).symm ▸ h⟩

end

inductive BufferCall where
  | write (env : Env) (bytes : List UInt8)
  | acknowledge (env : Env) (seg : Segment)

/-- A stream with the bytes its writes have returned for and the number its acknowledgements have
covered. -/
structure Account where
  stream : TcpStream
  put : List UInt8 := []
  removed : Nat := 0

def bufferCall (cfg : Config) (a : Account) (c : BufferCall) : Account :=
  if a.stream.fault.isNone then
    match c with
    | .write env bytes =>
      let r := copyFromUser cfg env bytes a.stream
      { a with stream := r.2, put := a.put ++ bytes.take r.1.toNat }
    | .acknowledge env seg =>
      { a with
        stream := processACK env seg a.stream
        removed := a.removed + acknowledgedLen seg a.stream }
  else a

def buffered (s : TcpStream) (junk : Nat → UInt8) (size initSeq : UInt32) : Account where
  stream := { s with
    fault := none
    sndvar.sndbuf := some (sbInit junk size.toNat initSeq)
    sndvar.sndWnd := size }

def Account.Holds (size initSeq : UInt32) (a : Account) : Prop :=
  ∃ buf, Queued size initSeq a.put a.removed (ledger a.stream) buf

theorem holds_buffered (s : TcpStream) (junk : Nat → UInt8) (size initSeq : UInt32) :
    (buffered s junk size initSeq).Holds size initSeq :=
  ⟨_, rfl, wf_sbInit _ _ _, rfl, rfl, Nat.le_refl 0, (UInt32.add_zero _).symm, rfl,
    UInt32.ofNat_toNat.symm, rfl⟩

theorem Account.Holds.call {a : Account} (h : a.Holds size initSeq) (c : BufferCall) :
    (bufferCall cfg a c).Holds size initSeq := by
  obtain ⟨buf, h⟩ := h
  unfold bufferCall
  by_cases hf : a.stream.fault.isNone
  · rw [if_pos hf]
    cases c with
    | write env bytes => exact h.copyFromUser bytes
    | acknowledge env seg => exact h.processACK seg
  · rw [if_neg hf]
    exact ⟨buf, h⟩

/-- However writes and acknowledgements alternate, the send buffer is a queue of bytes bounded by
its size, and `CopyFromUser` never asks `SBPut` for more than it takes. -/
theorem send_buffer_is_queue (s : TcpStream) (junk : Nat → UInt8) (size initSeq : UInt32)
    (calls : List BufferCall) :
    let a := calls.foldl (bufferCall cfg) (buffered s junk size initSeq)
    ∃ buf, Queued size initSeq a.put a.removed (ledger a.stream) buf ∧
      ∀ env bytes, 0 < sndlen a.stream bytes →
        (copyFromUser cfg env bytes a.stream).1 = sndlen a.stream bytes := by
  obtain ⟨buf, h⟩ := @foldl_invariant _ _ (bufferCall cfg) (Account.Holds size initSeq)
    (fun _ _ => True) (fun _ c h _ => h.call c) (buffered s junk size initSeq) calls
    (holds_buffered s junk size initSeq) (along_of_forall (fun _ _ => trivial) _ calls)
  refine ⟨buf, h, fun env bytes hpos => ?_⟩
  rw [copyFromUser_of_pos h hpos]

end Mtcp
