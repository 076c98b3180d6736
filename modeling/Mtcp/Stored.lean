import Mtcp.Sending

namespace Mtcp

open Serial SendBuffer Runs UInt32

variable {cfg : Config}

/-! The send buffer in every state of a run, whatever is acknowledged. -/

def Conn.Stored (cfg : Config) (v : Conn) : Prop :=
  ∀ buf, v.sndbuf = some buf → Wf buf ∧ buf.size = cfg.sndbufSize

theorem Conn.Stored.len_lt {v : Conn} (h : v.Stored cfg) {buf : TcpSendBuffer}
    (hbuf : v.sndbuf = some buf) : buf.len < 2147483648 := by
  obtain ⟨hw, hsize⟩ := h buf hbuf
  have hle := hw.len_le
  have hlt := cfg.sndbufSize_lt
  omega

theorem Conn.Stored.acked_cases {v : Conn} (h : v.Stored cfg) {buf : TcpSendBuffer} {x : UInt32}
    (fast : Bool) (hbuf : v.sndbuf = some buf) (hgt : gt x (buf.headSeq + ofNat buf.len) = false) :
    (geq buf.headSeq x ∧ v.acked buf x fast = v.noted buf x fast) ∨
    (v.acked buf x fast).sndUna = x ∧ ((∃ rest, (v.acked buf x fast).sndbuf = some rest ∧
        Wf rest ∧ rest.size = cfg.sndbufSize ∧ rest.headSeq = x ∧ fwd buf.headSeq x ≤ buf.len ∧
        rest.len = buf.len - fwd buf.headSeq x) ∨
      Far buf x ∧ (v.acked buf x fast).sndbuf = some buf) := by
  by_cases hgeq : geq buf.headSeq x
  · exact .inl ⟨hgeq, if_pos hgeq⟩
  · obtain ⟨hw, hsize⟩ := h buf hbuf
    have hacked : (v.acked buf x fast).sndbuf = some (sbRemove buf (fwd buf.headSeq x)).2 := by
      rw [Conn.acked, if_neg hgeq]
    have huna : (v.acked buf x fast).sndUna = x := by
      rw [Conn.acked, if_neg hgeq]
    refine .inr ⟨huna, ?_⟩
    rw [geq_iff] at hgeq
    obtain ⟨-, hlt⟩ | ⟨-, hle⟩ | hfar := not_gt_add_cases (h.len_lt hbuf) hgt
    · exact absurd hlt hgeq
    · obtain ⟨hwf, -, hl, hs, hh⟩ := sbRemove_spec hw hle
      exact .inl ⟨_, hacked, hwf, hs.trans hsize, by rw [hh, add_fwd], hle, hl⟩
    · rw [sbRemove_of_empty _ hfar.2] at hacked
      exact .inr ⟨hfar, hacked⟩

theorem Conn.Stored.acked {v : Conn} (h : v.Stored cfg) {buf : TcpSendBuffer} {x : UInt32}
    (fast : Bool) (hbuf : v.sndbuf = some buf) (hgt : gt x (buf.headSeq + ofNat buf.len) = false) :
    ∃ rest, (v.acked buf x fast).sndbuf = some rest ∧ Wf rest ∧ rest.size = cfg.sndbufSize ∧
      rest.len ≤ buf.len ∧ rest.headSeq + ofNat rest.len = buf.headSeq + ofNat buf.len := by
  obtain ⟨hw, hsize⟩ := h buf hbuf
  obtain ⟨-, hacked⟩ | ⟨-, ⟨rest, hrest, hw', hsize', hhead, hle, hlen⟩ | ⟨-, hrest⟩⟩ :=
    h.acked_cases fast hbuf hgt
  · refine ⟨buf, ?_, hw, hsize, Nat.le_refl _, rfl⟩
    rw [hacked]
    exact hbuf
  · refine ⟨rest, hrest, hw', hsize', by omega, ?_⟩
    rw [hhead, hlen]
    nth_rewrite 1 [← add_fwd buf.headSeq x]
    rw [UInt32.add_assoc, ← UInt32.ofNat_add, Nat.add_sub_cancel' hle]
  · exact ⟨buf, hrest, hw, hsize, Nat.le_refl _, rfl⟩

theorem Conn.Stored.apply {v : Conn} {m : Move} (h : v.Stored cfg) (hg : m.guard cfg v)
    (hm : m.calm ∨ m = .destroy) : (m.apply v).Stored cfg := by
  cases m with
  | crash w => obtain hm | hm := hm <;> cases hm
  | destroy =>
    intro buf hb
    cases hb
  | ack buf x fast =>
    obtain ⟨rest, hrest, hw, hsize, -⟩ := h.acked fast hg.1 hg.2.1
    intro b hb
    change (v.acked buf x fast).sndbuf = some b at hb
    rw [hrest, Option.some.injEq] at hb
    exact hb ▸ ⟨hw, hsize⟩
  | retransmit =>
    intro buf hb
    change v.retransmitted.sndbuf = some buf at hb
    rw [(retransmitted_frame v).2.1] at hb
    exact h buf hb
  | put buf bytes =>
    have hold : Wf buf ∧ buf.size = cfg.sndbufSize := by
      obtain hbuf | ⟨-, junk, rfl⟩ := hg.2.2.1
      · exact h buf hbuf
      · exact ⟨wf_sbInit _ _ _, rfl⟩
    obtain ⟨hw, -, -, hs, -, -⟩ := sbPut_spec hold.1 hg.2.1 hg.2.2.2
    intro b hb
    exact Option.some.inj hb ▸ ⟨hw, hs.trans hold.2⟩
  | _ => exact h

theorem stored_started {v : Conn} (h : Started v) : v.Stored cfg := by
  cases h with
  | active | passive =>
    intro buf hb
    cases hb

end Mtcp
