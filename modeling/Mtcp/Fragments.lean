import Mtcp.RingBuffer

namespace Mtcp.RingBuffer

open Bytes Serial List UInt32

/-! Within half the sequence space the fragment code compares offsets from a common base. -/

section Order

variable {base x y : UInt32}

theorem fwd_between (hx : fwd base x < 2147483648) (hy : fwd base y < 2147483648) :
    fwd base x ≤ fwd base y ∧ (y - x).toNat = fwd base y - fwd base x ∨
      fwd base y < fwd base x ∧ (x - y).toNat = fwd base x - fwd base y := by
  have hxy := fwd_trans base x y
  have hyx := fwd_trans base y x
  have h1 := fwd_lt x y
  have h2 := fwd_lt y x
  change _ ∧ fwd x y = _ ∨ _ ∧ fwd y x = _
  omega

theorem fwd_add_fwd (h : x ≠ y) : (y - x).toNat + (x - y).toNat = 4294967296 := by
  have hsum := fwd_trans x y x
  have h1 := fwd_lt x y
  have h2 := fwd_lt y x
  rw [fwd_self] at hsum
  have hne : fwd x y ≠ 0 := fun h0 => h (eq_of_fwd_eq_zero h0).symm
  change fwd x y + fwd y x = _
  omega

section

variable (hx : fwd base x < 2147483648) (hy : fwd base y < 2147483648)
include hx hy

theorem select_eq (hxy : x ≠ y) (a b : UInt32) :
    (if x < y then (if (y - x).toNat ≤ 2147483647 then a else b)
      else if (x - y).toNat ≤ 2147483647 then b else a) =
    if fwd base x ≤ fwd base y then a else b := by
  have htotal := fwd_add_fwd hxy
  obtain ⟨hle, hd⟩ | ⟨hlt, hd⟩ := fwd_between hx hy
  · rw [if_pos hle]
    by_cases hn : x < y
    · rw [if_pos hn, if_pos (by omega)]
    · rw [if_neg hn, if_neg (by omega)]
  · rw [if_neg (not_le.mpr hlt)]
    by_cases hn : x < y
    · rw [if_pos hn, if_neg (by omega)]
    · rw [if_neg hn, if_pos (by omega)]

theorem getMinSeq_eq : getMinSeq x y = if fwd base x ≤ fwd base y then x else y := by
  by_cases hxy : x = y
  · simp [getMinSeq, hxy]
  · exact (if_neg hxy).trans (select_eq hx hy hxy x y)

theorem getMaxSeq_eq : getMaxSeq x y = if fwd base x ≤ fwd base y then y else x := by
  by_cases hxy : x = y
  · simp [getMaxSeq, hxy]
  · exact (if_neg hxy).trans (select_eq hx hy hxy y x)

end

theorem eq_of_fwd_eq (h : fwd base x = fwd base y) : x = y := by
  rw [← add_fwd base x, ← add_fwd base y, h]

section

variable (hx : fwd base x < 2147483648) (hy : fwd base y < 2147483648)
include hx hy

theorem getMinSeq_eq_left_iff : getMinSeq x y = x ↔ fwd base x ≤ fwd base y := by
  rw [getMinSeq_eq hx hy]
  split
  · next h => exact ⟨fun _ => h, fun _ => rfl⟩
  · next h => exact ⟨fun heq => absurd (heq ▸ le_refl _) h, fun h' => absurd h' h⟩

theorem getMinSeq_eq_right_iff : getMinSeq x y = y ↔ fwd base y ≤ fwd base x := by
  rw [getMinSeq_eq hx hy]
  split
  · next h => exact ⟨fun heq => heq ▸ le_refl _, fun h' => eq_of_fwd_eq (le_antisymm h h')⟩
  · next h => exact ⟨fun _ => (not_le.mp h).le, fun _ => rfl⟩

theorem getMaxSeq_eq_right_iff : getMaxSeq x y = y ↔ fwd base x ≤ fwd base y := by
  rw [getMaxSeq_eq hx hy]
  split
  · next h => exact ⟨fun _ => h, fun _ => rfl⟩
  · next h => exact ⟨fun heq => absurd (heq ▸ le_refl _) h, fun h' => absurd h' h⟩

theorem fwd_getMinSeq : fwd base (getMinSeq x y) = min (fwd base x) (fwd base y) := by
  rw [getMinSeq_eq hx hy]
  split
  · next h => exact (min_eq_left h).symm
  · next h => exact (min_eq_right (not_le.mp h).le).symm

theorem fwd_getMaxSeq : fwd base (getMaxSeq x y) = max (fwd base x) (fwd base y) := by
  rw [getMaxSeq_eq hx hy]
  split
  · next h => exact (max_eq_right h).symm
  · next h => exact (max_eq_left (not_le.mp h).le).symm

end

end Order

/-! Fragments as stretches of offsets from the head of the buffer. -/

structure Inside (base : UInt32) (bound : Nat) (f : FragmentCtx) : Prop where
  pos : 0 < f.len
  fits : fwd base f.seq + f.len ≤ bound

def Before (base : UInt32) (f g : FragmentCtx) : Prop :=
  fwd base f.seq + f.len < fwd base g.seq

structure Laid (base : UInt32) (bound : Nat) (fs : List FragmentCtx) : Prop where
  inside : ∀ f ∈ fs, Inside base bound f
  apart : fs.Pairwise (Before base)

def Covers (base : UInt32) (fs : List FragmentCtx) (x : Nat) : Prop :=
  ∃ f ∈ fs, fwd base f.seq ≤ x ∧ x < fwd base f.seq + f.len

section Fragments

variable {base : UInt32} {bound : Nat} {f g new : FragmentCtx} {fs pre rest : List FragmentCtx}

theorem Inside.mono {bound' : Nat} (h : Inside base bound f) (hb : bound ≤ bound') :
    Inside base bound' f :=
  ⟨h.pos, h.fits.trans hb⟩

theorem Laid.mono {bound' : Nat} (h : Laid base bound fs) (hb : bound ≤ bound') :
    Laid base bound' fs :=
  ⟨fun f hf => (h.inside f hf).mono hb, h.apart⟩

theorem Inside.fwd_end (hb : bound + 1 < 2147483648) (h : Inside base bound f) (n : Nat)
    (hn : n ≤ 1) : fwd base (f.seq + ofNat (f.len + n)) = fwd base f.seq + f.len + n := by
  have hfits := h.fits
  rw [fwd_add_ofNat, Nat.mod_eq_of_lt (by omega)]
  omega

theorem ofNat_succ (n : Nat) : ofNat n + 1 = ofNat (n + 1) := (ofNat_add n 1).symm

section

variable (hb : bound + 1 < 2147483648) (hf : Inside base bound f) (hg : Inside base bound g)
include hb hf hg

theorem canMerge_iff : canMerge f g ↔ ¬ Before base f g ∧ ¬ Before base g f := by
  have hfe := hf.fwd_end hb 1 (le_refl 1)
  have hge := hg.fwd_end hb 1 (le_refl 1)
  have hff := hf.fits
  have hgf := hg.fits
  have h1 := @getMinSeq_eq_left_iff base (f.seq + ofNat (f.len + 1)) g.seq (by omega) (by omega)
  have h2 := @getMinSeq_eq_left_iff base (g.seq + ofNat (g.len + 1)) f.seq (by omega) (by omega)
  rw [hfe] at h1
  rw [hge] at h2
  unfold canMerge Before
  rw [UInt32.add_assoc, UInt32.add_assoc, ofNat_succ, ofNat_succ, Bool.not_eq_true',
    Bool.or_eq_false_iff, beq_eq_false_iff_ne, beq_eq_false_iff_ne, ne_eq, ne_eq, h1, h2]
  omega

theorem mergeFragments_start :
    fwd base (mergeFragments f g).seq = min (fwd base f.seq) (fwd base g.seq) := by
  have hff := hf.fits
  have hgf := hg.fits
  exact fwd_getMinSeq (by omega) (by omega)

theorem mergeFragments_stop : fwd base (mergeFragments f g).seq + (mergeFragments f g).len =
      max (fwd base f.seq + f.len) (fwd base g.seq + g.len) := by
  have hff := hf.fits
  have hgf := hg.fits
  have hfe := hf.fwd_end hb 0 (by omega)
  have hge := hg.fwd_end hb 0 (by omega)
  simp only [Nat.add_zero] at hfe hge
  have hmin := mergeFragments_start hb hf hg
  have hmax := @fwd_getMaxSeq base (f.seq + ofNat f.len) (g.seq + ofNat g.len) (by omega) (by omega)
  rw [hfe, hge] at hmax
  obtain ⟨hle, hd⟩ | ⟨hlt, _⟩ := @fwd_between base (mergeFragments f g).seq
    (getMaxSeq (f.seq + ofNat f.len) (g.seq + ofNat g.len)) (by omega) (by omega)
  · have hlen : (mergeFragments f g).len = (getMaxSeq (f.seq + ofNat f.len)
        (g.seq + ofNat g.len) - (mergeFragments f g).seq).toNat % 2147483648 := rfl
    rw [hlen, hd, Nat.mod_eq_of_lt (by omega)]
    omega
  · omega

theorem mergeFragments_inside : Inside base bound (mergeFragments f g) := by
  have hstart := mergeFragments_start hb hf hg
  have hstop := mergeFragments_stop hb hf hg
  have hff := hf.fits
  have hgf := hg.fits
  have hpos := hf.pos
  exact ⟨by omega, by omega⟩

end

/-- The list without what was merged, the fragment in hand, and everything in front ending before
it. -/
structure Merging (base : UInt32) (bound : Nat) (pre : List FragmentCtx) (new : FragmentCtx)
    (rest : List FragmentCtx) : Prop where
  laid : Laid base bound (pre ++ rest)
  inside : Inside base bound new
  front : ∀ f ∈ pre, Before base f new

theorem Merging.iter (h : Merging base bound pre new (g :: rest)) : Inside base bound g :=
  h.laid.inside g (mem_append_right _ (.head _))

theorem Merging.rest_after (h : Merging base bound pre new (g :: rest)) :
    ∀ f ∈ rest, Before base g f :=
  fun _ hf => rel_of_pairwise_cons (pairwise_append.mp h.laid.apart).2.1 hf

theorem Merging.merge (hb : bound + 1 < 2147483648) (h : Merging base bound pre new (g :: rest)) :
    Merging base bound pre (mergeFragments new g) rest := by
  have hstart := mergeFragments_start hb h.inside h.iter
  obtain ⟨hpre, hrest, hcross⟩ := pairwise_append.mp h.laid.apart
  refine ⟨⟨fun f hf => h.laid.inside f ?_, ?_⟩, mergeFragments_inside hb h.inside h.iter, ?_⟩
  · obtain hf | hf := mem_append.mp hf
    · exact mem_append_left _ hf
    · exact mem_append_right _ (.tail _ hf)
  · exact pairwise_append.mpr ⟨hpre, (pairwise_cons.mp hrest).2,
      fun a ha b hb' => hcross a ha b (.tail _ hb')⟩
  · intro f hf
    have h1 := h.front f hf
    have h2 := hcross f hf g (.head _)
    unfold Before at h1 h2 ⊢
    omega

theorem Merging.pass (h : Merging base bound pre new (g :: rest)) (hg : Before base g new) :
    Merging base bound (pre ++ [g]) new rest := by
  refine ⟨?_, h.inside, fun f hf => ?_⟩
  · rw [append_assoc]
    exact h.laid
  · obtain hf | hf := mem_append.mp hf
    · exact h.front f hf
    · rw [mem_singleton.mp hf]
      exact hg

theorem Merging.close (h : Merging base bound pre new rest)
    (hrest : ∀ f ∈ rest, Before base new f) : Laid base bound (pre ++ new :: rest) := by
  obtain ⟨hpre, hr, hcross⟩ := pairwise_append.mp h.laid.apart
  refine ⟨fun f hf => ?_, pairwise_append.mpr ⟨hpre, pairwise_cons.mpr ⟨hrest, hr⟩, ?_⟩⟩
  · obtain hf | hf := mem_append.mp hf
    · exact h.laid.inside f (mem_append_left _ hf)
    · obtain rfl | hf := mem_cons.mp hf
      · exact h.inside
      · exact h.laid.inside f (mem_append_right _ hf)
  · intro a ha b hb
    obtain rfl | hb := mem_cons.mp hb
    · exact h.front a ha
    · exact hcross a ha b hb

theorem Before.trans (hg : Inside base bound g) (h : Before base f g) {k : FragmentCtx}
    (h' : Before base g k) : Before base f k := by
  have hpos := hg.pos
  unfold Before at h h' ⊢
  omega

structure Merged (base : UInt32) (bound : Nat) (old : List FragmentCtx) (new : FragmentCtx)
    (r : List FragmentCtx × FragmentCtx × Bool × List FragmentCtx) : Prop where
  ends : Merging base bound r.1 r.2.1 r.2.2.2
  after : ∀ f ∈ r.2.2.2, Before base r.2.1 f
  covers : ∀ x, Covers base (r.1 ++ r.2.1 :: r.2.2.2) x ↔
    Covers base old x ∨ fwd base new.seq ≤ x ∧ x < fwd base new.seq + new.len
  unmerged : r.2.2.1 = false → r.2.1 = new ∧ r.1 ++ r.2.2.2 = old

theorem covers_insert (x : Nat) : Covers base (pre ++ new :: rest) x ↔
    Covers base (pre ++ rest) x ∨ fwd base new.seq ≤ x ∧ x < fwd base new.seq + new.len := by
  constructor
  · rintro ⟨f, hf, hx⟩
    rw [mem_append, mem_cons] at hf
    obtain hf | rfl | hf := hf
    · exact .inl ⟨f, mem_append_left _ hf, hx⟩
    · exact .inr hx
    · exact .inl ⟨f, mem_append_right _ hf, hx⟩
  · rintro (⟨f, hf, hx⟩ | hx)
    · refine ⟨f, ?_, hx⟩
      rw [mem_append, mem_cons]
      obtain hf | hf := mem_append.mp hf
      · exact .inl hf
      · exact .inr (.inr hf)
    · exact ⟨new, mem_append_right _ (.head _), hx⟩

section

variable (hb : bound + 1 < 2147483648)

include hb

theorem covers_merge (h : Merging base bound pre new (g :: rest))
    (hm : ¬ Before base new g ∧ ¬ Before base g new) (x : Nat) :
    Covers base (pre ++ rest) x ∨ fwd base (mergeFragments new g).seq ≤ x ∧
        x < fwd base (mergeFragments new g).seq + (mergeFragments new g).len ↔
      Covers base (pre ++ g :: rest) x ∨ fwd base new.seq ≤ x ∧ x < fwd base new.seq + new.len := by
  have hstart := mergeFragments_start hb h.inside h.iter
  have hstop := mergeFragments_stop hb h.inside h.iter
  obtain ⟨h1, h2⟩ := hm
  unfold Before at h1 h2
  rw [covers_insert, or_assoc]
  apply or_congr Iff.rfl
  omega

theorem mergeLoop_merged (endSeq : UInt32) (merged : Bool) (h : Merging base bound pre new rest)
    (hend : merged = false → fwd base endSeq = fwd base new.seq + new.len)
    (hseen : merged → ∀ f ∈ rest, ¬ Before base f new) :
    Merged base bound (pre ++ rest) new (mergeLoop endSeq pre new merged rest) ∧
      (merged → (mergeLoop endSeq pre new merged rest).2.2.1) := by
  induction rest generalizing pre new merged with
  | nil => exact ⟨⟨h, fun f hf => absurd hf not_mem_nil, fun x => covers_insert x,
      fun _ => ⟨rfl, rfl⟩⟩, fun hm => hm⟩
  | cons g rest ih =>
    rw [mergeLoop]
    have hcan := canMerge_iff hb h.inside h.iter
    by_cases hmerge : canMerge new g
    · -- the fragment in hand grows; what is left lies behind it
      rw [if_pos hmerge]
      rw [hcan] at hmerge
      have hbehind : ∀ f ∈ rest, ¬ Before base f (mergeFragments new g) := by
        intro f hf hbefore
        have hafter := h.rest_after f hf
        have hstart := mergeFragments_start hb h.inside h.iter
        unfold Before at hafter hbefore
        omega
      obtain ⟨hdone, hkept⟩ := ih true (h.merge hb) (fun hm => Bool.noConfusion hm)
        (fun _ => hbehind)
      refine ⟨⟨hdone.ends, hdone.after, fun x => ?_, fun hm => ?_⟩, fun _ => hkept rfl⟩
      · rw [hdone.covers, covers_merge hb h hmerge]
      · rw [hkept rfl] at hm
        exact absurd hm nofun
    · rw [if_neg hmerge]
      rw [hcan] at hmerge
      have hgfits := h.iter.fits
      have hnfits := h.inside.fits
      have hstop : Before base new g → ∀ f ∈ g :: rest, Before base new f := by
        intro hnew f hf
        obtain rfl | hf := mem_cons.mp hf
        · exact hnew
        · exact hnew.trans h.iter (h.rest_after f hf)
      by_cases hbreak : (merged || getMaxSeq endSeq g.seq == g.seq)
      · rw [if_pos hbreak]
        have hnew : Before base new g := by
          by_contra hnot
          have hgnew : Before base g new := not_not.mp fun hg => hmerge ⟨hnot, hg⟩
          cases merged with
          | true => exact hseen rfl g (.head _) hgnew
          | false =>
            have he := hend rfl
            rw [Bool.false_or, beq_iff_eq,
              @getMaxSeq_eq_right_iff base endSeq g.seq (by omega) (by omega), he] at hbreak
            have hpos := h.iter.pos
            unfold Before at hgnew
            omega
        exact ⟨⟨h, hstop hnew, fun x => covers_insert x, fun _ => ⟨rfl, rfl⟩⟩, fun hm => hm⟩
      · rw [if_neg hbreak]
        rw [Bool.or_eq_true, not_or, Bool.not_eq_true] at hbreak
        obtain ⟨hm, hmax⟩ := hbreak
        subst hm
        have he := hend rfl
        have hgnew : Before base g new := by
          rw [beq_iff_eq, @getMaxSeq_eq_right_iff base endSeq g.seq (by omega) (by omega), he]
            at hmax
          by_contra hnot
          apply hmerge
          refine ⟨fun hnew => ?_, hnot⟩
          unfold Before at hnew
          omega
        have hpass := ih false (h.pass hgnew) hend (fun hm => Bool.noConfusion hm)
        rw [append_assoc] at hpass
        exact hpass

/-- A fragment that nothing merged with is linked in at its place: the `assert` on its
predecessor holds. -/
theorem Merging.linkFragment_eq (h : Merging base bound pre new rest)
    (hafter : ∀ f ∈ rest, Before base new f) :
    linkFragment (pre ++ rest) pre new rest = some (pre ++ new :: rest) := by
  have hfits := h.inside.fits
  have hmin : ∀ f ∈ pre ++ rest,
      (getMinSeq new.seq f.seq = new.seq ↔ fwd base new.seq ≤ fwd base f.seq) := by
    intro f hf
    have hffits := (h.laid.inside f hf).fits
    exact getMinSeq_eq_left_iff (by omega) (by omega)
  unfold linkFragment
  cases hpre : pre with
  | nil =>
    cases hrest : rest with
    | nil => rfl
    | cons first tail =>
      -- nothing ends before the new fragment, so it goes to the front
      subst hrest
      have hfirst := hmin first (mem_append_right _ (.head _))
      have hbefore := hafter first (.head _)
      unfold Before at hbefore
      exact if_pos (hfirst.mpr (by omega))
  | cons first ps =>
    have hne : first :: ps ≠ [] := cons_ne_nil first ps
    have hlast := getLast?_eq_getLast_of_ne_nil hne
    have hmem := getLast_mem hne
    generalize (first :: ps).getLast hne = prev at hlast hmem
    rw [← hpre] at hmem
    have hfirst := hmin first (mem_append_left _ (hpre ▸ (.head _)))
    have hbefore := h.front first (hpre ▸ (.head _))
    have hprev := h.front prev hmem
    have hend := (h.laid.inside prev (mem_append_left _ hmem)).fwd_end hb 0 (by omega)
    simp only [Nat.add_zero] at hend
    unfold Before at hbefore hprev
    simp only [cons_append, hlast]
    rw [if_neg fun heq => absurd (hfirst.mp heq) (by omega), if_pos]
    apply (@getMinSeq_eq_right_iff base new.seq _ (by omega) (by omega)).mpr
    omega

/-- Putting a fragment into a list of fragments does not fail, and the new list has the old
bytes and the new ones. -/
theorem putFragment_laid (hfs : Laid base bound fs)
    (hnew : Inside base bound new) : ∃ fs', putFragment fs new = some fs' ∧ Laid base bound fs' ∧
      ∀ x, Covers base fs' x ↔
        Covers base fs x ∨ fwd base new.seq ≤ x ∧ x < fwd base new.seq + new.len := by
  have hend := hnew.fwd_end hb 0 (by omega)
  have hstart : Merging base bound [] new fs := ⟨hfs, hnew, fun f hf => absurd hf not_mem_nil⟩
  obtain ⟨hdone, -⟩ := mergeLoop_merged hb (new.seq + ofNat new.len) false hstart
    (fun _ => hend) (fun hm => Bool.noConfusion hm)
  unfold putFragment
  generalize mergeLoop (new.seq + ofNat new.len) [] new false fs = r at hdone
  obtain ⟨pre, frag, merged, iter⟩ := r
  refine ⟨pre ++ frag :: iter, ?_, hdone.ends.close hdone.after, hdone.covers⟩
  cases merged with
  | true => rfl
  | false =>
    obtain ⟨_, hold⟩ : frag = new ∧ pre ++ iter = fs := hdone.unmerged rfl
    rw [← hold]
    exact hdone.ends.linkFragment_eq hb hdone.after

end

end Fragments

end Mtcp.RingBuffer
