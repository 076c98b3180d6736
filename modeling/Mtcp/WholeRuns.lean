import Mtcp.CloseDrains
import Mtcp.Immutable

namespace Mtcp

open Serial SendBuffer Bytes Runs List UInt32 Move

variable {cfg : Config} {s : TcpStream} {v : Conn} {m : Move} {es fs : List (Env × Action)}
  {seg : Segment} {buf : TcpSendBuffer} {bytes : List UInt8}

/-! The states come in the order of their numbers, CLOSED last. -/

def TcpState.rank (st : TcpState) : Nat := if st = .closed then 11 else st.code

theorem rank_apply (hg : m.guard cfg v) (hm : m.calm ∨ m = .destroy) :
    v.state.rank ≤ (m.apply v).state.rank := by
  have hgo : ∀ {a}, v.state = a → Nat.ble a.rank (m.dest v).rank →
      v.state.rank ≤ (m.dest v).rank := fun ha h => ha ▸ Nat.le_of_ble_eq_true h
  rw [apply_state]
  cases m with
  | crash w => obtain h | h := hm <;> cases h
  | shut =>
    change v.state.rank ≤ 11
    cases v.state <;> decide
  | reset => obtain hst | hst := hg <;> exact hgo hst rfl
  | listen | loneSyn => exact hgo hg rfl
  | refused | finAcked | closingAcked | lastAcked => exact hgo hg.1 rfl
  | synAck => exact hgo hg.2.1 rfl
  | ackOfSyn => exact hgo hg.2 rfl
  | peerFin seq dest =>
    obtain ⟨-, ⟨hst, rfl⟩ | ⟨hst, rfl⟩ | ⟨hst, rfl⟩ | ⟨hst, rfl⟩⟩ := hg <;> exact hgo hst rfl
  | beginClose => obtain hst | hst := hg.1 <;> rw [dest, hst] <;> decide
  | _ => exact le_refl _

theorem state_only_moves_on (hs : Opened cfg s) (hf : (run cfg s (es ++ fs)).fault = none) :
    (run cfg s es).state.rank ≤ (run cfg s (es ++ fs)).state.rank := by
  let inv (v : Conn) : Prop := (run cfg s es).state.rank ≤ v.state.rank
  rw [run_append] at hf ⊢
  refine (@run_rule_from cfg inv (fun _ _ => inv) _ (fun _ _ _ h => h)
    (fun _ _ _ _ _ _ h hg hm _ => h.trans (rank_apply hg hm)) (fun _ _ _ _ h => h) _ fs
    (fun hf' => ⟨?_, le_refl _⟩) (along_of_forall (fun _ _ => trivial) _ fs) hf).2
  exact (@run_running cfg (fun _ => True) _ (fun _ _ _ _ _ _ _ _ _ _ => trivial)
    (fun _ _ => trivial) s es hs (along_of_forall (fun _ _ => trivial) s es) hf').1

theorem state_only_moves_on_client :
    client.state.rank ≤ (run .small client (atRest clientHandshake)).state.rank :=
  @state_only_moves_on .small client [] _ client_opened (by decide)

/-! What a stream sends is what was written. -/

/-- The payload is what stands in `bytes` at the place its sequence number names. -/
def Segment.PartOf (iss : UInt32) (bytes : List UInt8) (seg : Segment) : Prop :=
  ∃ p, seg.seq = iss + 1 + ofNat p ∧ seg.payload <+: bytes.drop p

namespace Conn

/-- The send buffer has the last of `bytes`, and its first sequence number counts the others. -/
def HoldsEnd (bytes : List UInt8) (v : Conn) : Prop :=
  ∃ gone, bytes = gone ++ v.sndbuf.elim [] contents ∧ v.sendBase = v.iss + 1 + ofNat gone.length

structure Written (v : Conn) : Prop where
  bytes : v.HoldsEnd (taken v.log)
  emits : ∀ seg, .emit seg ∈ v.log → seg.payload ≠ [] → seg.PartOf v.iss (taken v.log)

theorem taken_apply (hm : m.calm) : taken (m.apply v).log = taken v.log ++ match m with
    | .put _ bytes => bytes
    | _ => [] := by
  rw [apply_log (.inl hm)]
  cases m with
  | ack buf x fast =>
    dsimp only [effects]
    split <;> simp [taken]
  | _ => simp [effects, taken]

theorem emit_mem_apply (hg : m.guard cfg v) (hm : m.calm) (h : .emit seg ∈ (m.apply v).log)
    (hne : seg.payload ≠ []) : .emit seg ∈ v.log ∨ ∃ buf, m = .emitData buf seg := by
  rw [apply_log (.inl hm), mem_append] at h
  refine h.symm.imp_right fun h => ?_
  cases m with
  | emitData buf =>
    cases mem_singleton.mp h
    exact ⟨buf, rfl⟩
  | emitSyn | emitFin | emitRst =>
    cases mem_singleton.mp h
    exact absurd hg.2.2.2.2.1 hne
  | emitAck =>
    cases mem_singleton.mp h
    exact absurd hg.2.1 hne
  | ack buf x fast =>
    dsimp only [effects] at h
    split at h <;> simp at h
  | _ => simp [effects] at h

theorem HoldsEnd.acked (h : v.HoldsEnd bytes) (hst : v.Stored cfg) (hbuf : v.sndbuf = some buf)
    (x : UInt32) (fast : Bool) : (v.acked buf x fast).HoldsEnd bytes := by
  unfold Conn.acked
  split
  · exact h
  · rw [HoldsEnd, sendBase_some hbuf, hbuf] at h
    obtain ⟨gone, rfl, hbase⟩ := h
    have hle := Nat.min_le_right (fwd buf.headSeq x) buf.len
    have hwf := (hst buf hbuf).1
    obtain ⟨-, hrest, -, -, hhead⟩ := sbRemove_spec hwf hle
    rw [sbRemove_min]
    generalize min (fwd buf.headSeq x) buf.len = n at hle hrest hhead ⊢
    refine ⟨gone ++ (contents buf).take n, ?_, ?_⟩
    · change gone ++ contents buf = _ ++ contents (sbRemove buf n).2
      rw [hrest, append_assoc, take_append_drop]
    · change (sbRemove buf n).2.headSeq = v.iss + 1 + _
      rw [hhead, hbase, length_append, length_take, length_contents hwf, min_eq_left hle,
        ofNat_add, UInt32.add_assoc]

theorem HoldsEnd.put {old : List UInt8} (h : v.HoldsEnd old) (hst : v.Stored cfg)
    (hg : guard cfg v (.put buf bytes)) :
    (Move.apply v (.put buf bytes)).HoldsEnd (old ++ bytes) := by
  obtain ⟨-, hne, hsource, hput⟩ := hg
  obtain ⟨hwf, gone, rfl, hbase⟩ : Wf buf ∧ ∃ gone, old = gone ++ contents buf ∧
      buf.headSeq = v.iss + 1 + ofNat gone.length := by
    rw [HoldsEnd, sendBase] at h
    obtain hsome | ⟨hnone, junk, rfl⟩ := hsource
    · rw [hsome] at h
      exact ⟨(hst buf hsome).1, h⟩
    · rw [hnone] at h
      exact ⟨wf_sbInit junk cfg.sndbufSize _, h⟩
  obtain ⟨-, hnew, -, -, hhead, -⟩ := sbPut_spec hwf hne hput
  refine ⟨gone, ?_, hhead.trans hbase⟩
  rw [append_assoc, ← hnew]
  rfl

theorem HoldsEnd.emitData (h : v.HoldsEnd bytes) (hg : guard cfg v (.emitData buf seg)) :
    seg.PartOf v.iss bytes := by
  obtain ⟨-, -, hbuf, -, -, -, -, hseq, n, hn, hpay⟩ := hg
  rw [HoldsEnd, sendBase_some hbuf, hbuf] at h
  obtain ⟨gone, rfl, hbase⟩ := h
  refine ⟨gone.length + fwd buf.headSeq v.sndNxt, ?_, ?_⟩
  · rw [ofNat_add, ← UInt32.add_assoc, ← hbase, add_fwd]
    exact hseq
  · rw [← drop_drop, drop_left, hpay]
    change _ <+: (contents buf).drop _
    rw [contents, drop_slice]
    exact slice_prefix _ _ hn

theorem Written.apply (h : v.Written) (hst : v.Stored cfg) (hg : m.guard cfg v)
    (hm : m.calm) : (m.apply v).Written := by
  have htaken := taken_apply (v := v) hm
  have hiss := apply_iss (v := v) hm
  constructor
  · rw [htaken]
    have hkeep : (m.apply v).sndbuf = v.sndbuf → (m.apply v).HoldsEnd (taken v.log ++ []) := by
      intro hbuf
      rw [append_nil, HoldsEnd, sendBase, hbuf, hiss]
      exact h.bytes
    cases m with
    | crash | assertFail | destroy => cases hm
    | ack buf x fast => exact (append_nil _).symm ▸ h.bytes.acked hst hg.1 x fast
    | put buf bytes => exact h.bytes.put hst hg
    | retransmit => exact hkeep (retransmitted_frame v).2.1
    | _ => exact hkeep rfl
  · intro seg hseg hne
    obtain ⟨p, hseq, hpay⟩ : seg.PartOf v.iss (taken v.log) := by
      obtain hold | ⟨buf, rfl⟩ := emit_mem_apply hg hm hseg hne
      · exact h.emits seg hold hne
      · exact h.bytes.emitData hg
    rw [hiss, htaken]
    exact ⟨p, hseq, hpay.trans ((prefix_append _ _).drop p)⟩

end Conn

theorem taken_copyFromUser (env : Env) (bytes : List UInt8) (s : TcpStream) :
    taken (copyFromUser cfg env bytes s).2.trace =
      taken s.trace ++ bytes.take (copyFromUser cfg env bytes s).1.toNat := by
  have hnone : taken s.trace = taken s.trace ++ bytes.take 0 := (append_nil _).symm
  have habort : ∀ {c : Prop} [Decidable c],
      (if c then s.abort .sbPutShort else s).trace = s.trace := by
    intro c _
    split <;> rfl
  fun_cases copyFromUser cfg env bytes s with
  | case1 | case2 => exact hnone
  | case3 => exact (congrArg taken habort).trans hnone
  | case4 => exact congrArg (taken · ++ _) habort

/-- A write logs the bytes it returns for, the first ones of its argument. -/
theorem taken_mtcpWrite (env : Env) (bytes : List UInt8) (s : TcpStream) :
    taken (mtcpWrite cfg env bytes s).2.trace =
      taken s.trace ++ bytes.take (mtcpWrite cfg env bytes s).1.toNat := by
  have hnone : taken s.trace = taken s.trace ++ bytes.take 0 := (append_nil _).symm
  have hcopy := @taken_copyFromUser cfg env bytes s
  fun_cases mtcpWrite cfg env bytes s with
  | case1 | case2 => exact hnone
  | case3 _ _ ret t heq u =>
    rw [heq] at hcopy
    rw [← hcopy]
    dsimp only [u]
    split_ifs <;> rfl

/-- Every data segment has the bytes the application wrote for its sequence numbers, also
when it is sent again, and only the first ones have left the send buffer. -/
theorem payloads_are_written (hs : Opened cfg s) (hf : (run cfg s es).fault = none)
    (hl : (run cfg s es).onHashTable) : (conn (run cfg s es)).Written := by
  refine (@run_invariant cfg (fun v => v.Stored cfg ∧ v.Written) _
    (fun _ _ _ _ _ _ h hg hm _ => ⟨h.1.apply hg (.inl hm), h.2.apply h.1 hg hm⟩)
    (fun v hv => ⟨stored_started hv, ?_⟩) s es hs (along_of_forall (fun _ _ => trivial) s es) hf
    hl).2.2
  cases hv with
  | active | passive =>
    exact ⟨⟨[], rfl, (UInt32.add_zero _).symm⟩,
      fun _ h => by simp [Conn.created, Conn.accepted] at h⟩

theorem payloads_are_written_client : let t := run .small client (atRest sentThenAcknowledged)
    taken t.trace = [1, 2, 3] ∧ (conn t).Written :=
  ⟨by decide, payloads_are_written client_opened (by decide) (by decide)⟩

end Mtcp
