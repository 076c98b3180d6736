import Mtcp.Fragments

namespace Mtcp.RingBuffer

open Bytes Serial List

def readyLen (headSeq : UInt32) : List FragmentCtx → Nat
  | [] => 0
  | first :: _ => if headSeq = first.seq then first.len else 0

/-- A receive buffer in order: its bookkeeping agrees with its block, and the fragments lie
apart in what has been written after the head. Up to the size, offsets and the one byte more
that `CanMerge` looks at do not leave half the sequence space. -/
structure Sound (buff : TcpRingBuffer) : Prop where
  small : buff.size + 1 < 2147483648
  data : buff.data.length = buff.size
  head : buff.head = buff.headOffset
  tail : buff.tailOffset = buff.headOffset + buff.lastLen
  room : buff.tailOffset ≤ buff.size
  laid : Laid buff.headSeq buff.lastLen buff.fctx
  merged : buff.mergedLen = readyLen buff.headSeq buff.fctx

/-- Bytes are in the buffer: at their place in the block, and known to the fragment list. -/
structure Stores (buff : TcpRingBuffer) (seq : UInt32) (bytes : List UInt8) : Prop where
  block : slice buff.data (buff.head + fwd buff.headSeq seq) bytes.length = bytes
  known : ∀ i < bytes.length, Covers buff.headSeq buff.fctx (fwd buff.headSeq seq + i)

variable {buff : TcpRingBuffer} {bytes : List UInt8} {seq : UInt32}

theorem rbInit_sound (junk : Nat → UInt8) {size : Nat} (h : size + 1 < 2147483648)
    (initSeq : UInt32) : Sound (rbInit junk size initSeq) where
  small := h
  data := by rw [rbInit, length_map, length_range]
  head := rfl
  tail := rfl
  room := Nat.zero_le _
  laid := ⟨fun _ hf => absurd hf not_mem_nil, List.Pairwise.nil⟩
  merged := rfl

theorem Sound.lastLen_le (h : Sound buff) : buff.lastLen ≤ buff.size := by
  have htail := h.tail
  have hroom := h.room
  omega

theorem Sound.mergedLen_le (h : Sound buff) : buff.mergedLen ≤ buff.lastLen := by
  rw [h.merged]
  have hinside := h.laid.inside
  generalize buff.fctx = fs at hinside ⊢
  cases fs with
  | nil => exact Nat.zero_le _
  | cons first rest =>
    have hfits := (hinside first (.head _)).fits
    rw [readyLen]
    split <;> omega

theorem Sound.length_slice {n : Nat} (h : Sound buff) (hn : n ≤ buff.mergedLen) :
    (slice buff.data buff.head n).length = n := by
  have hmerged := h.mergedLen_le
  have hdata := h.data
  have hhead := h.head
  have htail := h.tail
  have hroom := h.room
  exact Bytes.length_slice _ _ _ (by omega)

/-- The block after `RBPut` copied bytes to an offset, moved to its front or not. -/
structure Copied (buff : TcpRingBuffer) (bytes : List UInt8) (putx : Nat)
    (b : TcpRingBuffer) : Prop where
  size : b.size = buff.size
  headSeq : b.headSeq = buff.headSeq
  fctx : b.fctx = buff.fctx
  mergedLen : b.mergedLen = buff.mergedLen
  data : b.data.length = b.size
  head : b.head = b.headOffset
  tail : b.tailOffset = b.headOffset + b.lastLen
  room : b.tailOffset ≤ b.size
  lastLen : b.lastLen = max buff.lastLen (putx + bytes.length)
  block : slice b.data (b.head + putx) bytes.length = bytes
  kept : ∀ x < buff.lastLen, ¬ (putx ≤ x ∧ x < putx + bytes.length) →
    b.data[b.head + x]? = buff.data[buff.head + x]?

theorem slice_memcpy_self {block src : List UInt8} {off : Nat}
    (h : off + src.length ≤ block.length) : slice (memcpy block off src) off src.length = src := by
  have happ := slice_memcpy_append block off 0 src (by omega)
  rw [Nat.add_zero, Nat.zero_add] at happ
  rw [happ]
  rfl

theorem copyIn_copied (h : Sound buff) {putx : Nat} (hfits : putx + bytes.length ≤ buff.size) :
    Copied buff bytes putx (copyIn buff bytes putx) := by
  have htail := h.tail
  have hroom := h.room
  have hdata := h.data
  have hhead := h.head
  unfold copyIn
  by_cases hc : buff.size ≤ buff.headOffset + (putx + bytes.length)
  · -- compaction: the written part comes to the front of the block
    simp only [if_pos hc]
    have hmove := length_memmove buff.data 0 buff.head buff.lastLen (by omega) (by omega)
    have hin : 0 + putx + bytes.length ≤ (memmove buff.data 0 buff.head buff.lastLen).length := by
      omega
    refine ⟨rfl, rfl, rfl, rfl, ?_, rfl, ?_, ?_, ?_, slice_memcpy_self hin, fun x hx hout => ?_⟩
    · exact ((length_memcpy _ _ _ hin).trans hmove).trans hdata
    case refine_5 =>
      dsimp only
      rw [getElem?_memcpy _ _ _ (by omega), if_neg (by omega), Nat.zero_add]
      exact getElem?_memmove _ _ _ hx (by omega)
    all_goals dsimp only
    all_goals split <;> omega
  · simp only [if_neg hc]
    have hin : buff.head + putx + bytes.length ≤ buff.data.length := by omega
    refine ⟨rfl, rfl, rfl, rfl, ?_, hhead, ?_, ?_, ?_, slice_memcpy_self hin, fun x hx hout => ?_⟩
    · exact (length_memcpy _ _ _ hin).trans hdata
    case refine_5 =>
      dsimp only
      rw [getElem?_memcpy _ _ _ (by omega), if_neg (by omega)]
    all_goals dsimp only
    all_goals split <;> omega

theorem signed_of_lt {a : UInt32} (h : a.toNat < 2147483648) : signed a = a.toNat := by
  rw [signed_eq, if_pos h]

/-- The end of `RBPut`: the copied bytes are noted in the fragment list. -/
def noteFragment (fragAlloc : Bool) (buff : TcpRingBuffer) (bytes : List UInt8) (seq : UInt32) :
    PutResult × TcpRingBuffer :=
  if !fragAlloc then (.ret 0, buff) else
  match putFragment buff.fctx ⟨seq, bytes.length % 2147483648⟩ with
  | none => (.assertFailed, buff)
  | some fctx =>
    let buff := { buff with fctx }
    match fctx with
    | first :: _ =>
      if buff.headSeq = first.seq then
        (.ret bytes.length, { buff with
          cumLen := buff.cumLen + first.len - buff.mergedLen
          mergedLen := first.len })
      else (.ret bytes.length, buff)
    | [] => (.ret bytes.length, buff)

theorem rbPut_of_fits (hs : buff.size < 2147483648) (hpos : 0 < bytes.length)
    (hfits : fwd buff.headSeq seq + bytes.length ≤ buff.size) (frag : Bool) :
    rbPut frag buff bytes seq =
      noteFragment frag (copyIn buff bytes (fwd buff.headSeq seq)) bytes seq := by
  have hputx : signed (seq - buff.headSeq) = fwd buff.headSeq seq :=
    signed_of_lt (show fwd buff.headSeq seq < _ by omega)
  have hsum : (seq - buff.headSeq + UInt32.ofNat bytes.length).toNat =
      fwd buff.headSeq seq + bytes.length := by
    rw [UInt32.toNat_add, UInt32.toNat_ofNat']
    change (fwd buff.headSeq seq + _) % _ = _
    omega
  have hendOff : signed (seq - buff.headSeq + UInt32.ofNat bytes.length) =
      (fwd buff.headSeq seq + bytes.length : Nat) := by
    rw [signed_of_lt (by omega), hsum]
  have hmin : getMinSeq buff.headSeq seq = buff.headSeq :=
    (@getMinSeq_eq_left_iff buff.headSeq buff.headSeq seq (by rw [fwd_self]; omega)
      (by omega)).mpr (by rw [fwd_self]; omega)
  unfold rbPut
  rw [if_neg (by omega), if_neg (not_not.mpr hmin)]
  simp only [hputx, hendOff, Int.toNat_natCast]
  rw [if_neg (by omega), if_neg (by omega)]
  rfl

theorem rbPut_cases (hs : buff.size < 2147483648) (hlen : bytes.length < 65536) (frag : Bool) :
    (rbPut frag buff bytes seq).2 = buff ∨
      0 < bytes.length ∧ fwd buff.headSeq seq + bytes.length ≤ buff.size := by
  unfold rbPut
  by_cases hpos : bytes.length = 0
  · rw [if_pos hpos]
    exact .inl rfl
  · rw [if_neg hpos]
    by_cases hmin : getMinSeq buff.headSeq seq ≠ buff.headSeq
    · rw [if_pos hmin]
      exact .inl rfl
    · rw [if_neg hmin]
      dsimp only
      split
      · exact .inl rfl
      · next hsize =>
        split
        · exact .inl rfl
        · next hneg =>
          refine .inr ⟨by omega, ?_⟩
          have hsum : (seq - buff.headSeq + UInt32.ofNat bytes.length).toNat =
              (fwd buff.headSeq seq + bytes.length) % 4294967296 := by
            rw [UInt32.toNat_add, UInt32.toNat_ofNat']
            change (fwd buff.headSeq seq + _) % _ = _
            omega
          rw [signed_eq, signed_eq, hsum] at hneg
          rw [signed_eq, hsum] at hsize
          change ¬ ((if fwd buff.headSeq seq < _ then (fwd buff.headSeq seq : Int)
            else fwd buff.headSeq seq - _) < 0 ∨ _) at hneg
          have hd := fwd_lt buff.headSeq seq
          split_ifs at hneg hsize with h1 h2 <;> omega

theorem Laid.readyLen_pos_iff {base : UInt32} {bound : Nat} {fs : List FragmentCtx}
    (h : Laid base bound fs) : 0 < readyLen base fs ↔ Covers base fs 0 := by
  cases fs with
  | nil => exact ⟨fun h0 => absurd h0 (lt_irrefl 0), fun ⟨_, hf, _⟩ => absurd hf not_mem_nil⟩
  | cons first rest =>
    have hpos := (h.inside first (.head _)).pos
    rw [readyLen]
    constructor
    · intro hlen
      split at hlen
      · next heq =>
        refine ⟨first, (.head _), ?_⟩
        rw [← heq, fwd_self]
        omega
      · exact absurd hlen (lt_irrefl 0)
    · rintro ⟨f, hf, hx, -⟩
      obtain rfl | hf := mem_cons.mp hf
      · rw [if_pos (eq_of_fwd_eq_zero (by omega)).symm]
        exact hpos
      · have hbefore := rel_of_pairwise_cons h.apart hf
        unfold Before at hbefore
        omega

theorem Laid.le_readyLen {base : UInt32} {bound n : Nat} {fs : List FragmentCtx}
    (h : Laid base bound fs) (hn : ∀ x < n, Covers base fs x) : n ≤ readyLen base fs := by
  cases fs with
  | nil =>
    by_contra hlt
    obtain ⟨f, hf, -⟩ := hn 0 (by omega)
    exact absurd hf not_mem_nil
  | cons first rest =>
    by_contra hlt
    have hready := h.readyLen_pos_iff.mpr (hn 0 (by omega))
    rw [readyLen] at hlt hready
    have hfirst : base = first.seq := by
      by_contra hne
      rw [if_neg hne] at hready
      omega
    rw [if_pos hfirst] at hlt
    obtain ⟨f, hf, hx, hx'⟩ := hn first.len (by omega)
    obtain rfl | hf := mem_cons.mp hf
    · rw [← hfirst, fwd_self] at hx'
      omega
    · have hbefore := rel_of_pairwise_cons h.apart hf
      unfold Before at hbefore
      omega

theorem Laid.covers_of_lt_readyLen {base : UInt32} {fs : List FragmentCtx} {x : Nat}
    (hx : x < readyLen base fs) : Covers base fs x := by
  cases fs with
  | nil => exact absurd hx (Nat.not_lt_zero x)
  | cons first rest =>
    rw [readyLen] at hx
    by_cases hfirst : base = first.seq
    · rw [if_pos hfirst] at hx
      refine ⟨first, (.head _), ?_⟩
      rw [← hfirst, fwd_self]
      omega
    · rw [if_neg hfirst] at hx
      exact absurd hx (Nat.not_lt_zero x)

/-- After `RBPut` what is written reaches as far as before, or to the end of the segment, and what
the segment does not touch stays. -/
structure PutIn (buff : TcpRingBuffer) (seq : UInt32) (bytes : List UInt8)
    (b : TcpRingBuffer) : Prop where
  sound : Sound b
  size : b.size = buff.size
  headSeq : b.headSeq = buff.headSeq
  lastLen : b.lastLen = buff.lastLen ∨ fwd buff.headSeq seq + bytes.length ≤ buff.size ∧
    b.lastLen = max buff.lastLen (fwd buff.headSeq seq + bytes.length)
  covers : ∀ x, Covers buff.headSeq buff.fctx x → Covers b.headSeq b.fctx x
  kept : ∀ x < buff.lastLen,
    ¬ (fwd buff.headSeq seq ≤ x ∧ x < fwd buff.headSeq seq + bytes.length) →
    b.data[b.head + x]? = buff.data[buff.head + x]?

theorem PutIn.mergedLen_le {b : TcpRingBuffer} (h : PutIn buff seq bytes b) (hs : Sound buff) :
    buff.mergedLen ≤ b.mergedLen := by
  rw [h.sound.merged]
  apply h.sound.laid.le_readyLen
  intro x hx
  rw [hs.merged] at hx
  exact h.covers x (Laid.covers_of_lt_readyLen hx)

/-- `RBPut` on a segment it does not turn away: its `assert` does not fail. -/
theorem rbPut_fits_sound (h : Sound buff) (hpos : 0 < bytes.length)
    (hfits : fwd buff.headSeq seq + bytes.length ≤ buff.size) (frag : Bool) :
    ∃ b, rbPut frag buff bytes seq = (.ret (if frag then bytes.length else 0), b) ∧
      PutIn buff seq bytes b ∧ slice b.data (b.head + fwd b.headSeq seq) bytes.length = bytes ∧
      (frag → Stores b seq bytes ∧
        ∀ x, Covers b.headSeq b.fctx x ↔ Covers buff.headSeq buff.fctx x ∨
          fwd buff.headSeq seq ≤ x ∧ x < fwd buff.headSeq seq + bytes.length) := by
  have hsmall := h.small
  rw [rbPut_of_fits (by omega) hpos hfits]
  have hc := copyIn_copied h hfits
  generalize copyIn buff bytes (fwd buff.headSeq seq) = c at hc ⊢
  have hlastLen := hc.lastLen
  have hlaid : Laid c.headSeq c.lastLen c.fctx := by
    rw [hc.headSeq, hc.fctx]
    exact h.laid.mono (by omega)
  have hready : c.mergedLen = readyLen c.headSeq c.fctx := by
    rw [hc.mergedLen, hc.headSeq, hc.fctx]
    exact h.merged
  have hbound : c.size + 1 < 2147483648 := by
    rw [hc.size]
    exact hsmall
  have hblock : slice c.data (c.head + fwd c.headSeq seq) bytes.length = bytes := by
    rw [hc.headSeq]
    exact hc.block
  unfold noteFragment
  cases frag with
  | false =>
    refine ⟨c, rfl, ⟨⟨hbound, hc.data, hc.head, hc.tail, hc.room, hlaid, hready⟩, hc.size,
      hc.headSeq, .inr ⟨hfits, hlastLen⟩, fun x hx => ?_, hc.kept⟩, hblock, nofun⟩
    rw [hc.headSeq, hc.fctx]
    exact hx
  | true =>
    have hlen : bytes.length % 2147483648 = bytes.length := Nat.mod_eq_of_lt (by omega)
    have hlast : c.lastLen + 1 < 2147483648 := by
      have htail := hc.tail
      have hroom := hc.room
      omega
    have hnew : Inside c.headSeq c.lastLen ⟨seq, bytes.length⟩ := by
      refine ⟨hpos, ?_⟩
      rw [hc.headSeq, hlastLen]
      exact le_max_right _ _
    obtain ⟨fs, hput, hfs, hcov⟩ := putFragment_laid hlast hlaid hnew
    have hknown : ∀ i < bytes.length, Covers c.headSeq fs (fwd c.headSeq seq + i) :=
      fun i hi => (hcov _).mpr (.inr ⟨Nat.le_add_right _ _, Nat.add_lt_add_left hi _⟩)
    have hcovers : ∀ x, Covers c.headSeq fs x ↔ Covers buff.headSeq buff.fctx x ∨
        fwd buff.headSeq seq ≤ x ∧ x < fwd buff.headSeq seq + bytes.length := by
      intro x
      rw [hcov, hc.headSeq, hc.fctx]
    have hmore : ∀ x, Covers buff.headSeq buff.fctx x → Covers c.headSeq fs x :=
      fun x hx => (hcovers x).mpr (.inl hx)
    rw [hlen, hput]
    cases fs with
    | nil =>
      obtain ⟨f, hf, _⟩ := hknown 0 hpos
      exact absurd hf not_mem_nil
    | cons first rest =>
      by_cases hfirst : c.headSeq = first.seq
      · simp only [Bool.not_true, Bool.false_eq_true, if_false, if_pos hfirst, if_true]
        exact ⟨_, rfl, ⟨⟨hbound, hc.data, hc.head, hc.tail, hc.room, hfs, (if_pos hfirst).symm⟩,
          hc.size, hc.headSeq, .inr ⟨hfits, hlastLen⟩, hmore, hc.kept⟩, hblock,
          fun _ => ⟨⟨hblock, hknown⟩, hcovers⟩⟩
      · simp only [Bool.not_true, Bool.false_eq_true, if_false, if_neg hfirst, if_true]
        refine ⟨_, rfl, ⟨⟨hbound, hc.data, hc.head, hc.tail, hc.room, hfs, ?_⟩,
          hc.size, hc.headSeq, .inr ⟨hfits, hlastLen⟩, hmore, hc.kept⟩, hblock,
          fun _ => ⟨⟨hblock, hknown⟩, hcovers⟩⟩
        -- the first byte is not there now, so it was not there before
        have hnone : readyLen c.headSeq (first :: rest) = 0 := if_neg hfirst
        rw [hready, hnone]
        by_contra hne
        have hcovers := (hcov 0).mpr (.inl (hlaid.readyLen_pos_iff.mp (Nat.pos_of_ne_zero hne)))
        have hposlen := hfs.readyLen_pos_iff.mpr hcovers
        omega

/-- `RBPut` leaves the buffer in order, whatever the segment. -/
theorem rbPut_putIn (h : Sound buff) (hlen : bytes.length < 65536) (frag : Bool) :
    PutIn buff seq bytes (rbPut frag buff bytes seq).2 := by
  have hsmall := h.small
  obtain hsame | ⟨hpos, hfits⟩ := @rbPut_cases buff bytes seq (by omega) hlen frag
  · rw [hsame]
    exact ⟨h, rfl, rfl, .inl rfl, fun _ hx => hx, fun _ _ _ => rfl⟩
  · obtain ⟨b, hput, hb, -⟩ := @rbPut_fits_sound buff bytes seq h hpos hfits frag
    rw [hput]
    exact hb

structure Removed (buff : TcpRingBuffer) (n : Nat) (r : Nat × Bool × TcpRingBuffer) : Prop where
  count : r.1 = n
  asserted : r.2.1 = false
  sound : Sound r.2.2
  size : r.2.2.size = buff.size
  headSeq : r.2.2.headSeq = buff.headSeq + UInt32.ofNat n
  mergedLen : r.2.2.mergedLen = buff.mergedLen - n
  data : r.2.2.data = buff.data
  head : r.2.2.head = buff.head + n
  covers : ∀ x, Covers r.2.2.headSeq r.2.2.fctx x ↔ Covers buff.headSeq buff.fctx (n + x)

theorem fwd_rebase {base x : UInt32} {n : Nat} (hn : n ≤ fwd base x) :
    fwd (base + UInt32.ofNat n) x = fwd base x - n := by
  have htrans := fwd_trans base (base + UInt32.ofNat n) x
  have hlt := fwd_lt (base + UInt32.ofNat n) x
  have hx := fwd_lt base x
  rw [fwd_add_ofNat, fwd_self] at htrans
  omega

theorem Laid.rebase {base : UInt32} {bound n : Nat} {fs : List FragmentCtx}
    (h : Laid base bound fs) (hn : ∀ f ∈ fs, n ≤ fwd base f.seq) :
    Laid (base + UInt32.ofNat n) (bound - n) fs := by
  refine ⟨fun f hf => ⟨(h.inside f hf).pos, ?_⟩, ?_⟩
  · have hfits := (h.inside f hf).fits
    have hle := hn f hf
    rw [fwd_rebase hle]
    omega
  · refine h.apart.imp_of_mem ?_
    intro f g hf hg hbefore
    have hle := hn f hf
    unfold Before at hbefore ⊢
    rw [fwd_rebase (hn f hf), fwd_rebase (hn g hg)]
    omega

section FirstFragment

variable {base : UInt32} {bound : Nat} {first : FragmentCtx} {rest : List FragmentCtx}

section

variable (h : Laid base bound (first :: rest)) (hfirst : base = first.seq)
include h hfirst

theorem Laid.behind_first : ∀ f ∈ rest, first.len < fwd base f.seq := by
  intro f hf
  have hbefore := rel_of_pairwise_cons h.apart hf
  unfold Before at hbefore
  rw [← hfirst, fwd_self] at hbefore
  omega

theorem Laid.rebase_rest {n : Nat} (hn : n ≤ first.len) :
    Laid (base + UInt32.ofNat n) (bound - n) rest := by
  have hrest : Laid base bound rest := ⟨fun f hf => h.inside f (.tail _ hf), h.apart.of_cons⟩
  apply hrest.rebase
  intro f hf
  have hlt := h.behind_first hfirst f hf
  omega

theorem Laid.readyLen_rest : readyLen (base + UInt32.ofNat first.len) rest = 0 := by
  by_contra hne
  have hrest := h.rebase_rest hfirst (le_refl _)
  obtain ⟨f, hf, hx, -⟩ := hrest.readyLen_pos_iff.mp (Nat.pos_of_ne_zero hne)
  have hlt := h.behind_first hfirst f hf
  rw [fwd_rebase (by omega)] at hx
  omega

theorem Laid.trim_first {n : Nat} (hn : n < first.len) : Laid (base + UInt32.ofNat n) (bound - n)
      (⟨first.seq + UInt32.ofNat n, first.len - n⟩ :: rest) := by
  have hstart : fwd (base + UInt32.ofNat n) (first.seq + UInt32.ofNat n) = 0 := by
    rw [← hfirst, fwd_self]
  have hrest := h.rebase_rest hfirst hn.le
  have hfits := (h.inside first (.head _)).fits
  rw [← hfirst, fwd_self] at hfits
  refine ⟨fun f hf => ?_, pairwise_cons.mpr ⟨fun f hf => ?_, hrest.apart⟩⟩
  · obtain rfl | hf := mem_cons.mp hf
    · refine ⟨Nat.sub_pos_of_lt hn, ?_⟩
      rw [hstart]
      dsimp only
      omega
    · exact hrest.inside f hf
  · have hlt := h.behind_first hfirst f hf
    unfold Before
    rw [hstart, fwd_rebase (by omega)]
    dsimp only
    omega

theorem Laid.covers_rest {n : Nat} (hn : n ≤ first.len) (x : Nat) :
    Covers (base + UInt32.ofNat n) rest x ↔
      ∃ f ∈ rest, fwd base f.seq ≤ n + x ∧ n + x < fwd base f.seq + f.len := by
  have hshift : ∀ f ∈ rest, fwd (base + UInt32.ofNat n) f.seq = fwd base f.seq - n ∧
      n ≤ fwd base f.seq := by
    intro f hf
    have hlt := h.behind_first hfirst f hf
    exact ⟨fwd_rebase (by omega), by omega⟩
  constructor
  · rintro ⟨f, hf, hx, hx'⟩
    obtain ⟨heq, hle⟩ := hshift f hf
    rw [heq] at hx hx'
    exact ⟨f, hf, by omega, by omega⟩
  · rintro ⟨f, hf, hx, hx'⟩
    obtain ⟨heq, hle⟩ := hshift f hf
    exact ⟨f, hf, by omega, by omega⟩

end

end FirstFragment

theorem covers_cons {base : UInt32} {first : FragmentCtx} {rest : List FragmentCtx} {x : Nat} :
    Covers base (first :: rest) x ↔ (fwd base first.seq ≤ x ∧ x < fwd base first.seq + first.len) ∨
      Covers base rest x := by
  unfold Covers
  simp only [mem_cons, exists_eq_or_imp]

/-- `RBRemove` of what waits for a reader: its `assert(0)` is not reached. -/
theorem rbRemove_removed (h : Sound buff) {n : Nat} (hn : n ≤ buff.mergedLen) :
    Removed buff n (rbRemove buff n) := by
  unfold rbRemove
  rw [min_eq_left hn]
  by_cases hzero : n = 0
  · rw [if_pos hzero, hzero]
    exact ⟨rfl, rfl, h, rfl, (UInt32.add_zero _).symm, rfl, rfl, rfl, fun x => by
      rw [Nat.zero_add]⟩
  · rw [if_neg hzero]
    have hmerged := h.merged
    have hlaid := h.laid
    have hlastLen := h.mergedLen_le
    have htail : buff.tailOffset = buff.headOffset + n + (buff.lastLen - n) := by
      have htail := h.tail
      omega
    cases hfs : buff.fctx with
    | nil =>
      rw [hfs, readyLen] at hmerged
      omega
    | cons first rest =>
      rw [hfs] at hmerged hlaid
      by_cases hfirst : buff.headSeq = first.seq
      · rw [readyLen, if_pos hfirst] at hmerged
        dsimp only
        by_cases hall : n = first.len
        · rw [if_pos hall]
          refine ⟨rfl, rfl, ⟨h.small, h.data, rfl, htail, h.room, ?_, ?_⟩, rfl, rfl, rfl, rfl,
            congrArg (· + n) h.head.symm, fun x => ?_⟩
          · exact hlaid.rebase_rest hfirst hall.le
          · dsimp only
            rw [hall, hlaid.readyLen_rest hfirst]
            omega
          · rw [hfs, covers_cons, ← hfirst, fwd_self, hlaid.covers_rest hfirst hall.le]
            constructor
            · exact .inr
            · rintro (⟨-, hx⟩ | hx)
              · omega
              · exact hx
        · have hlt : n < first.len := by omega
          rw [if_neg hall, if_pos hlt]
          refine ⟨rfl, rfl, ⟨h.small, h.data, rfl, htail, h.room, ?_, ?_⟩, rfl, rfl, rfl, rfl,
            congrArg (· + n) h.head.symm, fun x => ?_⟩
          · exact hlaid.trim_first hfirst hlt
          · rw [readyLen, if_pos (by rw [hfirst]), hmerged]
          · rw [hfs, covers_cons, covers_cons, ← hfirst, fwd_self, fwd_self,
              hlaid.covers_rest hfirst hlt.le]
            apply or_congr _ Iff.rfl
            dsimp only
            omega
      · rw [readyLen, if_neg hfirst] at hmerged
        omega

end Mtcp.RingBuffer
