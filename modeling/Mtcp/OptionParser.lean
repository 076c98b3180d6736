import Mtcp.Cursor
import Mtcp.Machine

namespace Mtcp.Options

open Cursor List Option

/-! Where the two parsers of the option area go, and what they look at. -/

/-- One round of a parser, as far as its cursor is concerned; `advance` says how far an option takes
it. -/
def cursorNext (advance : UInt8 → Nat → Option Nat) (seg : Segment) (i : Nat) : Option Nat :=
  if i < seg.opts.length then
    if byteAt seg i = optEnd then none
    else if byteAt seg i = optNop then some (i + 1)
    else if i + (byteAt seg (i + 1)).toNat > seg.opts.length then none
    else (advance (byteAt seg i) (byteAt seg (i + 1)).toNat).map (i + ·)
  else none

/-- The indices a round reads: the kind, the length of an option that has one, and the bytes of
its value, counted from the kind. -/
def cursorReads (value : UInt8 → List Nat) (seg : Segment) (i : Nat) : List Nat :=
  if i < seg.opts.length then
    if byteAt seg i = optEnd ∨ byteAt seg i = optNop then [i]
    else if i + (byteAt seg (i + 1)).toNat > seg.opts.length then [i, i + 1]
    else i :: (i + 1) :: (value (byteAt seg i)).map (i + ·)
  else []

/-- `ParseTCPOptions` goes over the options it knows by their size, not by their length. -/
def optionAdvance (opt : UInt8) (optlen : Nat) : Option Nat :=
  if opt = optMss then some 4
  else if opt = optWscale then some 3
  else if opt = optSackPermit then some 2
  else if opt = optTimestamp then some 10
  else some optlen

def optionValue (opt : UInt8) : List Nat :=
  if opt = optMss then [2, 3]
  else if opt = optWscale then [2]
  else if opt = optTimestamp then [2, 3, 4, 5]
  else []

def timestampAdvance (opt : UInt8) (optlen : Nat) : Option Nat :=
  if opt = optTimestamp then none else some optlen

def timestampValue (opt : UInt8) : List Nat :=
  if opt = optTimestamp then [2, 3, 4, 5, 6, 7, 8, 9] else []

def optionNext : Segment → Nat → Option Nat := cursorNext optionAdvance

def timestampNext : Segment → Nat → Option Nat := cursorNext timestampAdvance

def parseReads (curTs : UInt32) (seg : Segment) : Nat → Nat → TcpStream → List Nat
  | 0, _, _ => []
  | fuel + 1, i, s =>
    if i < seg.opts.length then cursorReads optionValue seg i ++
      match parseRound curTs seg i s with
      | (none, _) => []
      | (some i, s) => parseReads curTs seg fuel i s
    else []

def timestampReads (seg : Segment) : Nat → Nat → List Nat :=
  collect (timestampNext seg) (cursorReads timestampValue seg)

variable {curTs : UInt32} {seg seg' : Segment} {s : TcpStream}

/-! The model of the cursor is that of the parsers. -/

theorem parseRound_next {i : Nat} (h : i < seg.opts.length) :
    (parseRound curTs seg i s).1 = optionNext seg i := by
  rw [optionNext, cursorNext, if_pos h, parseRound]
  by_cases hend : byteAt seg i = optEnd
  · rw [if_pos hend, if_pos hend]
  · rw [if_neg hend, if_neg hend]
    by_cases hnop : byteAt seg i = optNop
    · rw [if_pos hnop, if_pos hnop]
    · rw [if_neg hnop, if_neg hnop]
      by_cases hlong : i + (byteAt seg (i + 1)).toNat > seg.opts.length
      · rw [if_pos hlong, if_pos hlong]
      · rw [if_neg hlong, if_neg hlong, optionAdvance]
        split_ifs <;> rfl

theorem parseLoop_cursor (fuel i : Nat) :
    (parseLoop curTs seg fuel i s).isSome = halts (optionNext seg) fuel i ∧
      parseReads curTs seg fuel i s =
        collect (optionNext seg) (cursorReads optionValue seg) fuel i := by
  induction fuel generalizing i s with
  | zero => exact ⟨rfl, rfl⟩
  | succ fuel ih =>
    rw [parseLoop, halts, parseReads, collect]
    by_cases hin : i < seg.opts.length
    · have hnext := @parseRound_next curTs seg s i hin
      rw [if_pos hin, if_pos hin, ← hnext]
      generalize parseRound curTs seg i s = r
      obtain ⟨j, t⟩ := r
      cases j with
      | none => exact ⟨rfl, rfl⟩
      | some j => exact ⟨(ih j).1, congrArg _ (ih j).2⟩
    · rw [if_neg hin, if_neg hin, optionNext, cursorNext, if_neg hin, cursorReads, if_neg hin]
      exact ⟨rfl, rfl⟩

theorem timestampLoop_isSome (fuel i : Nat) :
    (timestampLoop seg fuel i).isSome = halts (timestampNext seg) fuel i := by
  induction fuel generalizing i with
  | zero => rfl
  | succ fuel ih =>
    rw [timestampLoop, halts, timestampNext, cursorNext]
    by_cases hin : i < seg.opts.length
    · rw [if_pos hin, if_pos hin]
      by_cases hend : byteAt seg i = optEnd
      · rw [if_pos hend, if_pos hend]
        rfl
      · rw [if_neg hend, if_neg hend]
        by_cases hnop : byteAt seg i = optNop
        · rw [if_pos hnop, if_pos hnop]
          exact ih (i + 1)
        · rw [if_neg hnop, if_neg hnop]
          by_cases hlong : i + (byteAt seg (i + 1)).toNat > seg.opts.length
          · rw [if_pos hlong, if_pos hlong]
            rfl
          · rw [if_neg hlong, if_neg hlong, timestampAdvance]
            by_cases hts : byteAt seg i = optTimestamp
            · rw [if_pos hts, if_pos hts]
              rfl
            · rw [if_neg hts, if_neg hts]
              exact ih (i + (byteAt seg (i + 1)).toNat)
    · rw [if_neg hin, if_neg hin]
      rfl

variable {value : UInt8 → List Nat} {i : Nat}

/-! Termination. -/

variable {advance : UInt8 → Nat → Option Nat}

theorem cursorNext_mono (i j : Nat) (h : cursorNext advance seg i = some j) : i ≤ j := by
  rw [cursorNext] at h
  split_ifs at h
  · obtain rfl := some.inj h
    exact Nat.le_succ i
  · obtain ⟨k, -, rfl⟩ := map_eq_some_iff.mp h
    exact Nat.le_add_right i k

theorem cursorNext_end (i : Nat) (h : seg.opts.length ≤ i) : cursorNext advance seg i = none := by
  rw [cursorNext, if_neg (not_lt.mpr h)]

/-- An option of length zero whose kind is not one of those listed. -/
def ZeroLength (known : List UInt8) (seg : Segment) (i : Nat) : Prop :=
  i < seg.opts.length ∧ byteAt seg i ∉ known ∧ byteAt seg (i + 1) = 0

theorem cursorNext_fixed_iff {known : List UInt8} (hknown : optEnd ∈ known ∧ optNop ∈ known)
    (hadvance : ∀ opt optlen, opt ≠ optEnd → opt ≠ optNop →
      (advance opt optlen = some 0 ↔ opt ∉ known ∧ optlen = 0)) (i : Nat) :
    cursorNext advance seg i = some i ↔ ZeroLength known seg i := by
  rw [cursorNext, ZeroLength]
  by_cases hin : i < seg.opts.length
  · rw [if_pos hin]
    by_cases hend : byteAt seg i = optEnd
    · rw [if_pos hend, hend]
      exact ⟨nofun, fun h => absurd hknown.1 h.2.1⟩
    · rw [if_neg hend]
      by_cases hnop : byteAt seg i = optNop
      · rw [if_pos hnop, hnop]
        refine ⟨fun h => ?_, fun h => absurd hknown.2 h.2.1⟩
        have := some.inj h
        omega
      · rw [if_neg hnop]
        have hiff := hadvance (byteAt seg i) (byteAt seg (i + 1)).toNat hend hnop
        have hzero : (byteAt seg (i + 1)).toNat = 0 ↔ byteAt seg (i + 1) = 0 := by
          rw [← UInt8.toNat_inj]
          rfl
        rw [hzero] at hiff
        split_ifs with hlong
        · refine ⟨nofun, fun h => ?_⟩
          rw [h.2.2] at hlong
          exact absurd hin (not_lt.mpr (le_of_lt hlong))
        · have hmap : (advance (byteAt seg i) (byteAt seg (i + 1)).toNat).map (i + ·) = some i ↔
              advance (byteAt seg i) (byteAt seg (i + 1)).toNat = some 0 := by
            rw [map_eq_some_iff]
            refine ⟨fun ⟨k, hk, hsum⟩ => ?_, fun h => ⟨0, h, rfl⟩⟩
            rw [hk, Nat.add_eq_left.mp hsum]
          rw [hmap, hiff]
          exact ⟨fun h => ⟨hin, h⟩, fun h => h.2⟩
  · rw [if_neg hin]
    exact ⟨nofun, fun h => absurd h.1 hin⟩

def optionKinds : List UInt8 := [optEnd, optNop, optMss, optWscale, optSackPermit, optTimestamp]

def timestampKinds : List UInt8 := [optEnd, optNop, optTimestamp]

theorem optionNext_fixed_iff (i : Nat) :
    optionNext seg i = some i ↔ ZeroLength optionKinds seg i := by
  refine cursorNext_fixed_iff ⟨by decide, by decide⟩ (fun opt optlen hend hnop => ?_) i
  simp only [optionAdvance, optionKinds, mem_cons, not_mem_nil, or_false, hend, hnop, false_or]
  split_ifs <;> simp_all

theorem timestampNext_fixed_iff (i : Nat) :
    timestampNext seg i = some i ↔ ZeroLength timestampKinds seg i := by
  refine cursorNext_fixed_iff ⟨by decide, by decide⟩ (fun opt optlen hend hnop => ?_) i
  simp only [timestampAdvance, timestampKinds, mem_cons, not_mem_nil, or_false, hend,
    hnop, false_or]
  split_ifs <;> simp_all

theorem cursor_halts_iff {known : List UInt8}
    (hfixed : ∀ i, cursorNext advance seg i = some i ↔ ZeroLength known seg i) :
    (∃ fuel, halts (cursorNext advance seg) fuel 0) ↔
      ∀ i, Visits (cursorNext advance seg) 0 i → ¬ ZeroLength known seg i := by
  rw [halts_iff cursorNext_mono cursorNext_end]
  exact forall₂_congr fun i _ => not_congr (hfixed i)

/-- The parsers end exactly if they come by no unknown option of length zero. -/
theorem option_parsers_terminate_iff (curTs : UInt32) (seg : Segment) (s : TcpStream) :
    ((∃ fuel t, parseLoop curTs seg fuel 0 s = some t) ↔
      ∀ i, Visits (optionNext seg) 0 i → ¬ ZeroLength optionKinds seg i) ∧
    ((∃ fuel r, timestampLoop seg fuel 0 = some r) ↔
      ∀ i, Visits (timestampNext seg) 0 i → ¬ ZeroLength timestampKinds seg i) := by
  simp only [← Option.isSome_iff_exists, (parseLoop_cursor _ _).1, timestampLoop_isSome]
  exact ⟨cursor_halts_iff optionNext_fixed_iff, cursor_halts_iff timestampNext_fixed_iff⟩

def stuckOption : Segment := { seq := 0, opts := [254, 0, 1, 1] }

theorem zero_length_option_hangs :
    (∀ fuel, parseLoop 0 stuckOption fuel 0 client = none) ∧
      ∀ fuel, timestampLoop stuckOption fuel 0 = none := by
  constructor
  · intro fuel
    induction fuel with
    | zero => rfl
    | succ fuel ih => exact ih
  · intro fuel
    induction fuel with
    | zero => rfl
    | succ fuel ih => exact ih

/-! The parsers depend on no byte but those listed. -/

theorem read_congr (hin : i < seg.opts.length)
    (h : ∀ k ∈ cursorReads value seg i, byteAt seg k = byteAt seg' k) :
    byteAt seg i = byteAt seg' i ∧ (byteAt seg i ≠ optEnd → byteAt seg i ≠ optNop →
      byteAt seg (i + 1) = byteAt seg' (i + 1) ∧ (i + (byteAt seg (i + 1)).toNat ≤ seg.opts.length →
          ∀ k ∈ value (byteAt seg i), byteAt seg (i + k) = byteAt seg' (i + k))) := by
  rw [cursorReads, if_pos hin] at h
  grind

section

variable (hlen : seg.opts.length = seg'.opts.length)

include hlen

theorem parseRound_congr (hin : i < seg.opts.length)
    (h : ∀ k ∈ cursorReads optionValue seg i, byteAt seg k = byteAt seg' k) :
    parseRound curTs seg i s = parseRound curTs seg' i s := by
  obtain ⟨hkind, hrest⟩ := read_congr hin h
  unfold parseRound
  unfold optionValue at hrest
  grind [ntohl]

theorem parseLoop_congr (fuel : Nat)
    (h : ∀ k ∈ parseReads curTs seg fuel i s, byteAt seg k = byteAt seg' k) :
    parseLoop curTs seg fuel i s = parseLoop curTs seg' fuel i s := by
  induction fuel generalizing i s with
  | zero => rfl
  | succ fuel ih =>
    rw [parseReads] at h
    rw [parseLoop, parseLoop, ← hlen]
    by_cases hin : i < seg.opts.length
    · rw [if_pos hin] at h
      obtain ⟨hround, hrest⟩ := forall_mem_append.mp h
      rw [if_pos hin, if_pos hin, ← parseRound_congr hlen hin hround]
      generalize parseRound curTs seg i s = r at hrest ⊢
      obtain ⟨_ | j, t⟩ := r
      · rfl
      · exact ih hrest
    · rw [if_neg hin, if_neg hin]

theorem timestampLoop_congr (fuel : Nat)
    (h : ∀ k ∈ timestampReads seg fuel i, byteAt seg k = byteAt seg' k) :
    timestampLoop seg fuel i = timestampLoop seg' fuel i := by
  induction fuel generalizing i with
  | zero => rfl
  | succ fuel ih =>
    rw [timestampReads, collect] at h
    obtain ⟨hround, hrest⟩ := forall_mem_append.mp h
    have hnext : ∀ j, timestampNext seg i = some j →
        timestampLoop seg fuel j = timestampLoop seg' fuel j := fun j hj => by
      rw [hj] at hrest
      exact ih hrest
    rw [timestampLoop, timestampLoop, ← hlen]
    by_cases hin : i < seg.opts.length
    · obtain ⟨hkind, hmore⟩ := read_congr hin hround
      have hword : byteAt seg i = optTimestamp → i + (byteAt seg (i + 1)).toNat ≤ seg.opts.length →
          ntohl seg (i + 2) = ntohl seg' (i + 2) ∧ ntohl seg (i + 6) = ntohl seg' (i + 6) := by
        intro hts hfits
        rw [hts] at hmore
        have hvalue := (hmore (by decide) (by decide)).2 hfits
        simp only [timestampValue, ↓reduceIte, forall_mem_cons] at hvalue
        simp [ntohl, add_assoc, hvalue]
      simp only [timestampNext, cursorNext, timestampAdvance] at hnext
      grind
    · rw [if_neg hin, if_neg hin]

end

/-! The bytes that are read. -/

/-- The length of an option lies in the area and, if the option claims to end there, so do the
`field` bytes from its kind on. -/
def Contained (field : UInt8 → Nat) (seg : Segment) (i : Nat) : Prop :=
  i < seg.opts.length → byteAt seg i ∉ [optEnd, optNop] → i + 1 < seg.opts.length ∧
    (i + (byteAt seg (i + 1)).toNat ≤ seg.opts.length →
      i + field (byteAt seg i) ≤ seg.opts.length)

/-- Up to where `ParseTCPOptions` reads an option: of a timestamp it reads the value only. -/
def optionField (opt : UInt8) : Nat :=
  if opt = optMss then 4
  else if opt = optWscale then 3
  else if opt = optTimestamp then 6
  else 2

def timestampField (opt : UInt8) : Nat := if opt = optTimestamp then 10 else 2

theorem cursorReads_inside_iff {field : UInt8 → Nat}
    (hfield : ∀ opt n, i + 1 < n → ((∀ k ∈ value opt, i + k < n) ↔ i + field opt ≤ n)) :
    (∀ k ∈ cursorReads value seg i, k < seg.opts.length) ↔ Contained field seg i := by
  have hiff := hfield (byteAt seg i) seg.opts.length
  have hmem : byteAt seg i ∉ [optEnd, optNop] ↔
      ¬ (byteAt seg i = optEnd ∨ byteAt seg i = optNop) := by
    rw [mem_cons, mem_singleton]
  rw [cursorReads, Contained, hmem]
  by_cases hin : i < seg.opts.length
  · rw [if_pos hin]
    by_cases hkind : byteAt seg i = optEnd ∨ byteAt seg i = optNop
    · rw [if_pos hkind, forall_mem_singleton]
      exact ⟨fun _ _ h => absurd hkind h, fun _ => hin⟩
    · rw [if_neg hkind]
      by_cases hlong : i + (byteAt seg (i + 1)).toNat > seg.opts.length
      · rw [if_pos hlong, forall_mem_cons, forall_mem_singleton]
        exact ⟨fun h _ _ => ⟨h.2, fun hle => absurd hle (not_le.mpr hlong)⟩,
          fun h => ⟨hin, (h hin hkind).1⟩⟩
      · rw [if_neg hlong, List.forall_mem_cons, List.forall_mem_cons, List.forall_mem_map]
        refine ⟨fun h _ _ => ⟨h.2.1, fun _ => (hiff h.2.1).mp h.2.2⟩, fun h => ?_⟩
        obtain ⟨hlen, hend⟩ := h hin hkind
        exact ⟨hin, hlen, (hiff hlen).mpr (hend (not_lt.mp hlong))⟩
  · rw [if_neg hin]
    exact ⟨fun _ h => absurd h hin, fun _ k hk => absurd hk not_mem_nil⟩

theorem optionReads_inside_iff (i : Nat) :
    (∀ k ∈ cursorReads optionValue seg i, k < seg.opts.length) ↔ Contained optionField seg i := by
  apply cursorReads_inside_iff
  intro opt n hlen
  rw [optionValue, optionField]
  split_ifs <;> simp <;> omega

theorem timestampReads_inside_iff (i : Nat) :
    (∀ k ∈ cursorReads timestampValue seg i, k < seg.opts.length) ↔
      Contained timestampField seg i := by
  apply cursorReads_inside_iff
  intro opt n hlen
  rw [timestampValue, timestampField]
  split_ifs <;> simp <;> omega

/-- The parsers read inside the option area exactly if every option they come by lies in it as far
as they read it. -/
theorem option_parsers_read_inside_iff (curTs : UInt32) (seg : Segment) (s : TcpStream) :
    ((∀ fuel, ∀ k ∈ parseReads curTs seg fuel 0 s, k < seg.opts.length) ↔
      ∀ i, Visits (optionNext seg) 0 i → Contained optionField seg i) ∧
    ((∀ fuel, ∀ k ∈ timestampReads seg fuel 0, k < seg.opts.length) ↔
      ∀ i, Visits (timestampNext seg) 0 i → Contained timestampField seg i) := by
  simp only [(parseLoop_cursor _ _).2, timestampReads, forall_mem_collect]
  exact ⟨forall₂_congr fun i _ => optionReads_inside_iff i,
    forall₂_congr fun i _ => timestampReads_inside_iff i⟩

/-- An option area whose last byte is the kind of an option, in front of some payload. -/
def cutOption (opt : UInt8) (payload : List UInt8) (h : payload.length < 65536) : Segment :=
  { seq := 0, opts := [1, 1, 1, opt], payload := payload, payload_lt := h }

/-- The length and the value of the option are taken from the payload. -/
theorem cut_option_reads_payload :
    4 ∈ parseReads 0 (cutOption optMss [0, 5, 180] (by decide)) 4 0 client ∧
      ((parseLoop 0 (cutOption optMss [0, 5, 180] (by decide)) 5 0 client).map
        fun t => t.sndvar.mss) = some 1460 ∧
      ((parseLoop 0 (cutOption optMss [0, 2, 24] (by decide)) 5 0 client).map
        fun t => t.sndvar.mss) = some 536 ∧
      timestampLoop (cutOption optTimestamp [0, 0, 0, 0, 7, 0, 0, 0, 8] (by decide)) 5 0 =
        some (some (7, 8)) := by
  decide

end Mtcp.Options
