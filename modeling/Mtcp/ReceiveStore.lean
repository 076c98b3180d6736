import Mtcp.ReceiveBuffer
import Mtcp.Runs

namespace Mtcp.RingBuffer

open Bytes Serial Runs

variable {buff : TcpRingBuffer} {bytes : List UInt8} {seq : UInt32}

/-! The tests of `RBPut`, for every distance from the head. -/

/-- At half the circle the plain order of the two numbers decides. -/
theorem getMinSeq_eq_head_iff {head : UInt32} : getMinSeq head seq = head ↔
    fwd head seq < 2147483648 ∨ fwd head seq = 2147483648 ∧ seq < head := by
  by_cases heq : head = seq
  · subst heq
    simp [getMinSeq]
  · have htotal : (seq - head).toNat + (head - seq).toNat = 4294967296 := fwd_add_fwd heq
    have hne : seq ≠ head := fun h => heq h.symm
    rw [getMinSeq, if_neg heq]
    change _ ↔ (seq - head).toNat < _ ∨ (seq - head).toNat = _ ∧ _
    by_cases hlt : head < seq
    · have hnot : ¬ seq < head := fun h => absurd (UInt32.lt_trans hlt h) (UInt32.lt_irrefl _)
      rw [if_pos hlt]
      by_cases hd : (seq - head).toNat ≤ 2147483647
      · rw [if_pos hd]
        exact ⟨fun _ => .inl (by omega), fun _ => rfl⟩
      · rw [if_neg hd]
        refine ⟨fun h => absurd h hne, ?_⟩
        rintro (h | ⟨-, h⟩)
        · omega
        · exact absurd h hnot
    · have hgt : seq < head := UInt32.lt_of_le_of_ne (UInt32.not_lt.mp hlt) hne
      rw [if_neg hlt]
      by_cases hd : (head - seq).toNat ≤ 2147483647
      · rw [if_pos hd]
        refine ⟨fun h => absurd h hne, fun h => ?_⟩
        omega
      · rw [if_neg hd]
        refine ⟨fun _ => ?_, fun _ => rfl⟩
        by_cases hhalf : (seq - head).toNat < 2147483648
        · exact .inl hhalf
        · exact .inr ⟨by omega, hgt⟩

/-- A segment whose end offset leaves the range of `int`, or that lies half the sequence space
away with the smaller number: the test against the size compares with a negative offset. -/
def overshoots (head seq : UInt32) (len : Nat) : Bool :=
  decide (fwd head seq < 2147483648 ∧ 2147483648 ≤ fwd head seq + len) ||
    decide (fwd head seq = 2147483648 ∧ seq < head)

theorem toNat_endOff (head : UInt32) (len : Nat) :
    (seq - head + UInt32.ofNat len).toNat = (fwd head seq + len) % 4294967296 := by
  rw [UInt32.toNat_add, UInt32.toNat_ofNat', fwd]
  omega

theorem signed_putx (head : UInt32) : signed (seq - head) =
    if fwd head seq < 2147483648 then (fwd head seq : Int) else fwd head seq - 4294967296 :=
  signed_eq _

theorem signed_endOff (head : UInt32) (len : Nat) : signed (seq - head + UInt32.ofNat len) =
      if (fwd head seq + len) % 4294967296 < 2147483648
      then ((fwd head seq + len : Nat) : Int) % 4294967296
      else ((fwd head seq + len : Nat) : Int) % 4294967296 - 4294967296 := by
  rw [signed_eq, toNat_endOff]
  split <;> simp

theorem rbPut_of_not_fits (hs : buff.size < 2147483648) (hpos : 0 < bytes.length)
    (hlen : bytes.length < 2147483648) (hfits : buff.size < fwd buff.headSeq seq + bytes.length)
    (frag : Bool) : rbPut frag buff bytes seq =
      (if overshoots buff.headSeq seq bytes.length then .outOfBounds
        else if fwd buff.headSeq seq < 2147483648 then .ret (-2) else .ret 0, buff) := by
  have hd := fwd_lt buff.headSeq seq
  have hmin := @getMinSeq_eq_head_iff seq buff.headSeq
  unfold rbPut
  rw [if_neg (by omega), signed_putx, signed_endOff, overshoots]
  by_cases hhead : getMinSeq buff.headSeq seq = buff.headSeq
  · rw [if_neg (not_not.mpr hhead)]
    obtain hnear | ⟨hhalf, hbelow⟩ := hmin.mp hhead
    · by_cases hover : 2147483648 ≤ fwd buff.headSeq seq + bytes.length
      · have hmod : (fwd buff.headSeq seq + bytes.length) % 4294967296 =
            fwd buff.headSeq seq + bytes.length := Nat.mod_eq_of_lt (by omega)
        simp only [hmod, hnear, hover, if_true, if_neg (not_lt.mpr hover), and_self, decide_true,
          Bool.true_or]
        rw [if_neg (by omega), if_pos (by omega)]
      · have hmod : (fwd buff.headSeq seq + bytes.length) % 4294967296 =
            fwd buff.headSeq seq + bytes.length := Nat.mod_eq_of_lt (by omega)
        have hne : fwd buff.headSeq seq ≠ 2147483648 := by omega
        simp only [hmod, hnear, hover, hne, if_true, if_pos (not_le.mp hover), and_false, false_and,
          decide_false, Bool.or_self, Bool.false_eq_true, if_false]
        rw [if_pos (by omega)]
    · simp only [hhalf, hbelow, and_self, decide_true, Bool.or_true, if_true]
      rw [if_neg (by omega), if_pos (by omega)]
  · rw [if_pos hhead]
    rw [hmin, not_or] at hhead
    obtain ⟨hfar, hhalf⟩ := hhead
    simp [hfar, hhalf]

/-- A segment goes into the block if it fits, and otherwise nothing changes. -/
structure ExactPut (buff : TcpRingBuffer) (bytes : List UInt8) (seq : UInt32)
    (r : PutResult × TcpRingBuffer) : Prop where
  stored : fwd buff.headSeq seq + bytes.length ≤ buff.size →
    r.1 = .ret bytes.length ∧ Stores r.2 seq bytes
  refused : buff.size < fwd buff.headSeq seq + bytes.length →
    (r.1 = .ret 0 ∨ r.1 = .ret (-2)) ∧ r.2 = buff
  inside : r.1 ≠ .outOfBounds ∧ r.2.data.length = buff.size

/-- `RBPut` accepts what fits and nothing else, unless the segment overshoots. -/
theorem rbPut_exact_iff (h : Sound buff) (hsize : buff.size ≤ 16777216) (hpos : 1 ≤ bytes.length)
    (hlen : bytes.length ≤ 65535) : ExactPut buff bytes seq (rbPut true buff bytes seq) ↔
      overshoots buff.headSeq seq bytes.length = false := by
  by_cases hfits : fwd buff.headSeq seq + bytes.length ≤ buff.size
  · obtain ⟨b, hput, hb, -, hstores⟩ := @rbPut_fits_sound buff bytes seq h hpos hfits true
    rw [hput]
    refine ⟨fun _ => ?_, fun _ => ⟨fun _ => ⟨rfl, (hstores rfl).1⟩, fun hnot => ?_, nofun, ?_⟩⟩
    · have hne : fwd buff.headSeq seq ≠ 2147483648 := by omega
      have hlt : ¬ 2147483648 ≤ fwd buff.headSeq seq + bytes.length := by omega
      simp [overshoots, hne, hlt]
    · exact absurd hfits (not_le.mpr hnot)
    · exact hb.sound.data.trans hb.size
  · have hnot := not_le.mp hfits
    rw [rbPut_of_not_fits (by omega) hpos (by omega) hnot]
    cases hover : overshoots buff.headSeq seq bytes.length with
    | true =>
      refine ⟨fun hput => absurd rfl hput.inside.1, fun hf => Bool.noConfusion hf⟩
    | false =>
      refine ⟨fun _ => rfl, fun _ => ⟨fun hf => absurd hf hfits, fun _ => ⟨?_, rfl⟩, ?_, h.data⟩⟩
      · by_cases hnear : fwd buff.headSeq seq < 2147483648
        · exact .inr (by simp [hnear])
        · exact .inl (by simp [hnear])
      · by_cases hnear : fwd buff.headSeq seq < 2147483648
        · simp [hnear]
        · simp [hnear]

theorem rbPut_exact_at_head : overshoots 100 100 3 = false ∧
    ExactPut (rbInit (fun _ => 0) 64 100) [1, 2, 3] 100
      (rbPut true (rbInit (fun _ => 0) 64 100) [1, 2, 3] 100) :=
  ⟨by decide, (rbPut_exact_iff (rbInit_sound _ (by decide) 100) (by decide) (by decide)
    (by decide)).mpr (by decide)⟩

/-- One byte at the last offset below half the sequence space, and one byte half of it away:
both pass the test against the size and are copied outside the block. -/
theorem rbPut_outside_block :
    ¬ ExactPut (rbInit (fun _ => 0) 64 0) [7] 2147483647
        (rbPut true (rbInit (fun _ => 0) 64 0) [7] 2147483647) ∧
      ¬ ExactPut (rbInit (fun _ => 0) 64 2147483658) [7] 10
        (rbPut true (rbInit (fun _ => 0) 64 2147483658) [7] 10) :=
  ⟨fun h => h.inside.1 (by decide), fun h => h.inside.1 (by decide)⟩

/-! A buffer and its whole history. -/

/-- A receive buffer, the number of bytes removed from its front, the stretches of the byte stream
that `RBPut` accepted, and whether an `assert` failed or a write left the block. -/
structure History where
  buff : TcpRingBuffer
  removed : Nat := 0
  accepted : List (Nat × Nat) := []
  failed : Bool := false

inductive Call where
  | put (bytes : List UInt8) (seq : UInt32)
  | remove (n : Nat)

namespace History

def put (h : History) (bytes : List UInt8) (seq : UInt32) : History :=
  match rbPut true h.buff bytes seq with
  | (.ret code, buff) =>
    { h with
      buff := buff
      accepted := if 0 < code then (h.removed + fwd h.buff.headSeq seq, bytes.length) :: h.accepted
        else h.accepted }
  | (_, buff) => { h with buff := buff, failed := true }

def remove (h : History) (n : Nat) : History :=
  match rbRemove h.buff n with
  | (m, failed, buff) =>
    { h with buff := buff, removed := h.removed + m, failed := h.failed || failed }

def call (h : History) : Call → History
  | .put bytes seq => h.put bytes seq
  | .remove n => h.remove n

def rcvNxt (h : History) : UInt32 := h.buff.headSeq + UInt32.ofNat h.buff.mergedLen

def rcvWnd (h : History) : UInt32 := UInt32.ofNat (h.buff.size - h.buff.mergedLen)

/-- What the callers make sure of. The length they pass is a positive `int`. -/
def guarded (h : History) : Call → Bool
  | .put bytes seq => decide (1 ≤ bytes.length ∧ bytes.length < 2147483648) &&
      between (seq + UInt32.ofNat bytes.length) h.rcvNxt (h.rcvNxt + h.rcvWnd)
  | .remove n => decide (n ≤ h.buff.mergedLen)

def created (junk : Nat → UInt8) (size : Nat) (initSeq : UInt32) : History where
  buff := rbInit junk size initSeq

/-- The buffer is in order, its fragments are the accepted stretches without what was removed,
and nothing has gone wrong. -/
structure Represents (h : History) : Prop where
  sound : Sound h.buff
  covered : ∀ k, (∃ x, k = h.removed + x ∧ Covers h.buff.headSeq h.buff.fctx x) ↔
    (∃ a ∈ h.accepted, a.1 ≤ k ∧ k < a.1 + a.2) ∧ h.removed ≤ k
  passed : h.failed = false

variable {h : History}

theorem represents_created (junk : Nat → UInt8) {size : Nat} (hsize : size + 1 < 2147483648)
    (initSeq : UInt32) : Represents (created junk size initSeq) where
  sound := rbInit_sound junk hsize initSeq
  covered := by
    intro k
    constructor
    · rintro ⟨x, -, f, hf, -⟩
      exact absurd hf List.not_mem_nil
    · rintro ⟨⟨a, ha, -⟩, -⟩
      exact absurd ha List.not_mem_nil
  passed := rfl

theorem guarded_cases (hs : Sound h.buff) {bytes : List UInt8} {seq : UInt32}
    (hg : h.guarded (.put bytes seq)) : 0 < bytes.length ∧ bytes.length < 2147483648 ∧
      (fwd h.buff.headSeq seq + bytes.length ≤ h.buff.size ∨
        2147483648 < fwd h.buff.headSeq seq) := by
  obtain ⟨hlen, hwin⟩ := Bool.and_eq_true_iff.mp hg
  obtain ⟨hpos, hint⟩ := of_decide_eq_true hlen
  obtain ⟨hge, hle⟩ := Bool.and_eq_true_iff.mp hwin
  rw [geq_iff] at hge
  rw [leq_iff] at hle
  refine ⟨hpos, hint, ?_⟩
  have hsmall := hs.small
  have hmerged := hs.mergedLen_le
  have hlast := hs.lastLen_le
  generalize hx : seq + UInt32.ofNat bytes.length = x at hge hle
  have hend : fwd h.buff.headSeq x = (fwd h.buff.headSeq seq + bytes.length) % 4294967296 := by
    rw [← hx, fwd_add_ofNat]
  have h1 := fwd_trans h.buff.headSeq h.rcvNxt x
  have h2 := fwd_trans h.rcvNxt (h.rcvNxt + h.rcvWnd) x
  have h3 := fwd_lt (h.rcvNxt + h.rcvWnd) x
  have h4 := fwd_lt h.buff.headSeq seq
  rw [rcvNxt, fwd_add_ofNat, fwd_self] at h1
  rw [rcvWnd, fwd_add_ofNat, fwd_self] at h2
  rw [← rcvNxt] at h1
  rw [← rcvWnd] at h2
  omega

theorem Represents.put (hr : Represents h) {bytes : List UInt8} {seq : UInt32}
    (hg : h.guarded (.put bytes seq)) : Represents (h.put bytes seq) := by
  have hsmall := hr.sound.small
  obtain ⟨hpos, hint, hfits | hold⟩ := guarded_cases hr.sound hg
  · obtain ⟨b, hput, hb, -, hfrag⟩ := @rbPut_fits_sound h.buff bytes seq hr.sound hpos hfits true
    obtain ⟨-, hcov⟩ := hfrag rfl
    have hcode : (0 : Int) < if true = true then (bytes.length : Int) else 0 := by
      rw [if_pos rfl]
      omega
    rw [History.put, hput]
    dsimp only
    rw [if_pos hcode]
    refine ⟨hb.sound, fun k => ?_, hr.passed⟩
    have hold := hr.covered k
    simp only [List.mem_cons, exists_eq_or_imp, hcov]
    constructor
    · rintro ⟨x, rfl, hx | hx⟩
      · obtain ⟨ha, hle⟩ := hold.mp ⟨x, rfl, hx⟩
        exact ⟨.inr ha, hle⟩
      · exact ⟨.inl ⟨by omega, by omega⟩, by omega⟩
    · rintro ⟨⟨h1, h2⟩ | ha, hle⟩
      · exact ⟨k - h.removed, by omega, .inr ⟨by omega, by omega⟩⟩
      · obtain ⟨x, hk, hx⟩ := hold.mpr ⟨ha, hle⟩
        exact ⟨x, hk, .inl hx⟩
  · have hnear : ¬ fwd h.buff.headSeq seq < 2147483648 := by omega
    have hhalf : fwd h.buff.headSeq seq ≠ 2147483648 := by omega
    have hover : overshoots h.buff.headSeq seq bytes.length = false := by
      simp [overshoots, hnear, hhalf]
    have hput := @rbPut_of_not_fits h.buff bytes seq (by omega) hpos hint (by omega) true
    rw [hover, if_neg hnear] at hput
    rw [History.put, hput]
    exact hr

theorem Represents.remove (hr : Represents h) {n : Nat} (hn : n ≤ h.buff.mergedLen) :
    Represents (h.remove n) := by
  have hrem := rbRemove_removed hr.sound hn
  rw [History.remove]
  generalize rbRemove h.buff n = r at hrem
  obtain ⟨m, failed, b⟩ := r
  obtain ⟨rfl, rfl, hsound, -, -, -, -, -, hcov⟩ := hrem
  refine ⟨hsound, fun k => ?_, ?_⟩
  · have hold := hr.covered k
    simp only [hcov]
    constructor
    · rintro ⟨x, rfl, hx⟩
      obtain ⟨ha, -⟩ := hold.mp ⟨m + x, by omega, hx⟩
      exact ⟨ha, by omega⟩
    · rintro ⟨ha, hle⟩
      obtain ⟨x, hk, hx⟩ := hold.mpr ⟨ha, by omega⟩
      refine ⟨x - m, by omega, ?_⟩
      rw [Nat.add_sub_cancel' (by omega)]
      exact hx
  · exact (Bool.or_false _).trans hr.passed

theorem Represents.call (hr : Represents h) {c : Call} (hg : h.guarded c) :
    Represents (h.call c) := by
  cases c with
  | put bytes seq => exact hr.put hg
  | remove n => exact hr.remove (of_decide_eq_true hg)

end History

/-- However segments and reads follow each other, the buffer stays in order and no `assert`
fails. -/
theorem ring_stays_represented (junk : Nat → UInt8) {size : Nat} (hsize : size < 1073741824)
    (initSeq : UInt32) (calls : List Call)
    (ha : Along History.call (fun h c => h.guarded c = true) (.created junk size initSeq) calls) :
    (calls.foldl History.call (.created junk size initSeq)).Represents :=
  foldl_invariant (fun _ _ hr hg => hr.call hg)
    (History.represents_created junk (by omega) initSeq) ha

theorem ring_represented_overlap :
    (([.put [4, 5] 103, .put [1, 2, 3, 9] 100, .remove 2, .put [7, 7, 7, 7, 7] 101] :
      List Call).foldl History.call (.created (fun _ => 0) 64 100)).buff.fctx = [⟨102, 3⟩] ∧
    (([.put [4, 5] 103, .put [1, 2, 3, 9] 100, .remove 2, .put [7, 7, 7, 7, 7] 101] :
      List Call).foldl History.call (.created (fun _ => 0) 64 100)).Represents :=
  ⟨by decide, ring_stays_represented _ (by decide) 100 _ (by decide)⟩

end Mtcp.RingBuffer
