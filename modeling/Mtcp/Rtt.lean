import Mtcp.Average
import Mtcp.Machine

namespace Mtcp

open Serial Average UInt32

/-! `EstimateRTT` on samples that are not too large. -/

structure Spread (bound : Nat) (r : TcpRecvVars) : Prop where
  mdev_le : r.mdev.toNat ≤ 4 * bound
  mdevMax_le : r.mdevMax.toNat ≤ 4 * bound
  rttvar_le : r.rttvar.toNat ≤ 4 * bound

/-- What the estimator holds once it has had samples of at most `bound` ticks. -/
structure Estimated (bound : Nat) (r : TcpRecvVars) : Prop extends Spread bound r where
  le_srtt : 8 ≤ r.srtt.toNat
  srtt_le : r.srtt.toNat ≤ 8 * bound

theorem toNat_ofInt {i : Int} {n : Nat} (h : i = n) (hn : n < 4294967296) :
    (ofInt i).toNat = n := by
  have hmod : (i % 4294967296).toNat = n := by omega
  change (ofNat (i % 4294967296).toNat).toNat = n
  rw [hmod]
  exact toNat_ofNat_of_lt' hn

theorem toNat_shiftRight_three (x : UInt32) : (x >>> 3).toNat = x.toNat / 8 := by
  rw [UInt32.toNat_shiftRight, Nat.shiftRight_eq_div_pow]
  rfl

theorem toNat_shiftRight_two (x : UInt32) : (x >>> 2).toNat = x.toNat / 4 := by
  rw [UInt32.toNat_shiftRight, Nat.shiftRight_eq_div_pow]
  rfl

theorem toNat_max_le {x y : UInt32} {n : Nat} (hx : x.toNat ≤ n) (hy : y.toNat ≤ n) :
    (max x y).toNat ≤ n := by
  change (if x ≤ y then y else x).toNat ≤ n
  split
  · exact hy
  · exact hx

theorem ne_zero_of_toNat_pos {x : UInt32} (h : 0 < x.toNat) : x ≠ 0 := by
  intro h0
  rw [h0] at h
  exact absurd h (by decide)

theorem max_ne_zero {x y : UInt32} (h : x ≠ 0) : max x y ≠ 0 := by
  change (if x ≤ y then y else x) ≠ 0
  split
  · next hle =>
    have hx : x.toNat ≤ y.toNat := le_iff_toNat_le.mp hle
    have hpos : 0 < x.toNat := Nat.pos_of_ne_zero fun h0 => h (UInt32.toNat_inj.mp h0)
    exact ne_zero_of_toNat_pos (hpos.trans_le hx)
  · exact h

theorem toNat_sub_part {x y : UInt32} (h : y < x) :
    y.toNat < (x - ((x - y) >>> 2)).toNat ∧ (x - ((x - y) >>> 2)).toNat ≤ x.toNat := by
  have hlt : y.toNat < x.toNat := UInt32.lt_iff_toNat_lt.mp h
  have hsub : (x - y).toNat = x.toNat - y.toNat := UInt32.toNat_sub_of_le x y (UInt32.le_of_lt h)
  have hpart : ((x - y) >>> 2).toNat = (x.toNat - y.toNat) / 4 := by
    rw [toNat_shiftRight_two, hsub]
  have hle : ((x - y) >>> 2) ≤ x := UInt32.le_iff_toNat_le.mpr (by omega)
  rw [UInt32.toNat_sub_of_le _ _ hle]
  omega

/-- How `EstimateRTT` turns an error into a change of `mdev`. -/
def deviation (m dev : Int) : Int :=
  if m < 0 then (if 0 < -m - dev then (-m - dev) / 8 else -m - dev) else m - dev

theorem deviation_bounds {m dev : Int} {bound : Nat} (hlo : -bound ≤ m) (hhi : m ≤ bound)
    (hdev : 0 ≤ dev) : -dev ≤ deviation m dev ∧ deviation m dev ≤ bound - dev := by
  unfold deviation
  split_ifs <;> omega

section estimate

variable {s : TcpStream} {mrtt : UInt32} {bound : Nat}

theorem sample_le (hm : mrtt.toNat ≤ bound) (hpos : 1 ≤ bound) :
    ∃ k : Nat, (if mrtt = 0 then (1 : Int) else mrtt.toNat) = k ∧ 1 ≤ k ∧ k ≤ bound := by
  split
  · exact ⟨1, rfl, le_rfl, hpos⟩
  · next hne =>
    refine ⟨mrtt.toNat, rfl, ?_, hm⟩
    refine Nat.pos_of_ne_zero fun h => hne ?_
    exact UInt32.toNat_inj.mp h

theorem estimateRTT_fresh (h : s.rcvvar.srtt = 0) (hm : mrtt.toNat ≤ bound) (hpos : 1 ≤ bound)
    (hfit : bound < 2147483648) : ∃ k, 1 ≤ k ∧ k ≤ bound ∧ Spread bound (estimateRTT s mrtt) ∧
      (estimateRTT s mrtt).srtt = ofInt (k * 8) ∧ (estimateRTT s mrtt).rttvar.toNat = k * 2 := by
  obtain ⟨k, hk, hk1, hkb⟩ := sample_le hm hpos
  have hmdev : (ofInt ((k : Int) * 2)).toNat = k * 2 := toNat_ofInt (by push_cast; ring) (by omega)
  refine ⟨k, hk1, hkb, ?_⟩
  unfold estimateRTT
  rw [hk, if_neg (not_not.mpr h)]
  refine ⟨?_, rfl, hmdev⟩
  constructor <;> dsimp only <;> omega

theorem estimateRTT_srtt (h : s.rcvvar.srtt ≠ 0) (hm : mrtt.toNat ≤ bound) (hpos : 1 ≤ bound) :
    ∃ k : Nat, 1 ≤ k ∧ k ≤ bound ∧ (estimateRTT s mrtt).srtt =
      ofInt (s.rcvvar.srtt.toNat + (k - (s.rcvvar.srtt >>> 3).toNat)) := by
  obtain ⟨k, hk, hk1, hkb⟩ := sample_le hm hpos
  refine ⟨k, hk1, hkb, ?_⟩
  unfold estimateRTT
  rw [hk, if_pos h]
  split <;> rfl

theorem estimateRTT_spread (h : Spread bound s.rcvvar) (hne : s.rcvvar.srtt ≠ 0)
    (hm : mrtt.toNat ≤ bound) (hold : s.rcvvar.srtt.toNat / 8 ≤ bound) (hpos : 1 ≤ bound)
    (hfit : 4 * bound < 4294967296) : Spread bound (estimateRTT s mrtt) ∧
      (s.rcvvar.rttvar ≠ 0 → (estimateRTT s mrtt).rttvar ≠ 0) := by
  obtain ⟨k, hk, hk1, hkb⟩ := sample_le hm hpos
  have hm4 := h.mdev_le
  obtain ⟨hlo, hhi⟩ := @deviation_bounds (k - (s.rcvvar.srtt >>> 3).toNat)
    (s.rcvvar.mdev >>> 2).toNat bound (by rw [toNat_shiftRight_three]; omega)
    (by rw [toNat_shiftRight_three]; omega) (Int.natCast_nonneg _)
  have hmdev : (ofInt (s.rcvvar.mdev.toNat + deviation (k - (s.rcvvar.srtt >>> 3).toNat)
      (s.rcvvar.mdev >>> 2).toNat)).toNat ≤ 4 * bound := by
    have hblend : blend 4 s.rcvvar.mdev.toNat bound ≤ 4 * bound := blend_le (by decide) hm4 le_rfl
    rw [toNat_shiftRight_two] at hlo hhi ⊢
    generalize deviation _ _ = d at hlo hhi ⊢
    rw [@toNat_ofInt _ (s.rcvvar.mdev.toNat + d).toNat (by omega) (by omega)]
    omega
  unfold estimateRTT
  rw [hk, if_pos hne]
  change Spread bound (if _ then _ else _) ∧ (_ → (if _ then _ else _ : TcpRecvVars).rttvar ≠ 0)
  unfold deviation at hmdev
  generalize ofInt (s.rcvvar.mdev.toNat + _) = mdev at hmdev ⊢
  have hmax := toNat_max_le h.mdevMax_le hmdev
  have hvar : (if s.rcvvar.mdevMax < mdev then max s.rcvvar.rttvar (max s.rcvvar.mdevMax mdev)
      else s.rcvvar.rttvar).toNat ≤ 4 * bound := by
    split
    · exact toNat_max_le h.rttvar_le hmax
    · exact h.rttvar_le
  have hgrows : s.rcvvar.rttvar ≠ 0 → (if s.rcvvar.mdevMax < mdev then
      max s.rcvvar.rttvar (max s.rcvvar.mdevMax mdev) else s.rcvvar.rttvar) ≠ 0 := by
    intro h0
    split
    · exact max_ne_zero h0
    · exact h0
  generalize (if s.rcvvar.mdevMax < mdev then max s.rcvvar.rttvar (max s.rcvvar.mdevMax mdev)
      else s.rcvvar.rttvar) = rttvar at hvar hgrows ⊢
  split
  · refine ⟨⟨hmdev, Nat.zero_le _, ?_⟩, fun h0 => ?_⟩
    · split
      · next hlt => exact (toNat_sub_part hlt).2.trans hvar
      · exact hvar
    · split
      · next hlt =>
        refine ne_zero_of_toNat_pos ?_
        exact Nat.zero_lt_of_lt (toNat_sub_part hlt).1
      · exact hgrows h0
  · exact ⟨⟨hmdev, hmax, hvar⟩, hgrows⟩

theorem Estimated.fresh (h : s.rcvvar.srtt = 0) (hm : mrtt.toNat ≤ bound) (hpos : 1 ≤ bound)
    (hfit : bound < 536870912) : Estimated bound (estimateRTT s mrtt) := by
  obtain ⟨k, hk1, hkb, hspread, hsrtt, -⟩ := estimateRTT_fresh h hm hpos (by omega)
  have hval : (ofInt ((k : Int) * 8)).toNat = k * 8 := toNat_ofInt (by push_cast; ring) (by omega)
  rw [← hsrtt] at hval
  exact ⟨hspread, by omega, by omega⟩

theorem Estimated.next (h : Estimated bound s.rcvvar) (hm : mrtt.toNat ≤ bound)
    (hpos : 1 ≤ bound) (hfit : bound < 536870912) : Estimated bound (estimateRTT s mrtt) := by
  have h8 := h.le_srtt
  have h8b := h.srtt_le
  have hne : s.rcvvar.srtt ≠ 0 := ne_zero_of_toNat_pos (by omega)
  obtain ⟨k, hk1, hkb, hsrtt⟩ := estimateRTT_srtt hne hm hpos
  have hval : (estimateRTT s mrtt).srtt.toNat = blend 8 s.rcvvar.srtt.toNat k := by
    rw [hsrtt]
    unfold blend
    rw [toNat_shiftRight_three]
    exact toNat_ofInt (by omega) (by omega)
  have hlow : 8 * 1 ≤ blend 8 s.rcvvar.srtt.toNat k := le_blend (by decide) h8 hk1
  have hhigh : blend 8 s.rcvvar.srtt.toNat k ≤ 8 * bound := blend_le (by decide) h8b hkb
  rw [← hval] at hlow hhigh
  exact ⟨(estimateRTT_spread h.toSpread hne hm (by omega) hpos (by omega)).1, hlow, hhigh⟩

end estimate

/-! Whole sequences of samples. -/

structure Sample where
  mrtt : UInt32
  sndUna : UInt32
  sndNxt : UInt32

def TcpStream.sample (s : TcpStream) (x : Sample) : TcpStream :=
  let s := { s with sndNxt := x.sndNxt, sndvar.sndUna := x.sndUna }
  { s with rcvvar := estimateRTT s x.mrtt }

theorem Estimated.sample {s : TcpStream} {bound : Nat} (x : Sample)
    (h : s.rcvvar.srtt = 0 ∨ Estimated bound s.rcvvar) (hx : x.mrtt.toNat ≤ bound)
    (hpos : 1 ≤ bound) (hfit : bound < 536870912) : Estimated bound (s.sample x).rcvvar := by
  obtain h | h := h
  · exact Estimated.fresh h hx hpos hfit
  · exact Estimated.next h hx hpos hfit

theorem estimated_samples {s : TcpStream} {bound : Nat} {xs : List Sample}
    (hs : s.rcvvar.srtt = 0 ∧ xs ≠ [] ∨ Estimated bound s.rcvvar) (hpos : 1 ≤ bound)
    (hfit : bound < 536870912) (hxs : ∀ x ∈ xs, x.mrtt.toNat ≤ bound) :
    Estimated bound (xs.foldl TcpStream.sample s).rcvvar := by
  induction xs generalizing s with
  | nil => exact hs.elim (fun h => absurd rfl h.2) id
  | cons x xs ih =>
    have hx := Estimated.sample x (hs.imp_left And.left) (hxs x (.head _)) hpos hfit
    exact ih (.inr hx) fun y hy => hxs y (List.mem_cons_of_mem x hy)

theorem Estimated.rto {r : TcpRecvVars} {bound : Nat} (h : Estimated bound r)
    (hfit : bound < 536870912) :
    ((r.srtt >>> 3) + r.rttvar).toNat = r.srtt.toNat / 8 + r.rttvar.toNat := by
  have h1 := h.srtt_le
  have h2 := h.rttvar_le
  rw [UInt32.toNat_add, toNat_shiftRight_three]
  exact Nat.mod_eq_of_lt (by omega)

theorem Estimated.rto_pos {r : TcpRecvVars} {bound : Nat} (h : Estimated bound r)
    (hfit : bound < 536870912) : 1 ≤ ((r.srtt >>> 3) + r.rttvar).toNat := by
  have h1 := h.le_srtt
  rw [h.rto hfit]
  omega

theorem Estimated.rto_le {r : TcpRecvVars} {bound : Nat} (h : Estimated bound r)
    (hfit : bound < 536870912) : ((r.srtt >>> 3) + r.rttvar).toNat ≤ 5 * bound := by
  have h1 := h.srtt_le
  have h2 := h.rttvar_le
  rw [h.rto hfit]
  omega

theorem Estimated.backoffRTO {t : TcpStream} {bound : Nat} (h : Estimated bound t.rcvvar)
    (hfit : bound ≤ 4194304) (hst : .established ≤ t.state) : (backoffRTO t).toNat =
      ((t.rcvvar.srtt >>> 3) + t.rcvvar.rttvar).toNat * 2 ^ (min t.sndvar.nrtx 7).toNat := by
  have hpos := h.rto_pos (by omega)
  have hle := h.rto_le (by omega)
  have hback : (min t.sndvar.nrtx 7).toNat ≤ 7 := by
    change (if t.sndvar.nrtx ≤ 7 then t.sndvar.nrtx else 7).toNat ≤ 7
    split
    · next h7 => exact UInt8.le_iff_toNat_le.mp h7
    · exact le_rfl
  unfold Mtcp.backoffRTO
  rw [if_pos hst]
  dsimp only
  generalize min t.sndvar.nrtx 7 = b at hback ⊢
  generalize (t.rcvvar.srtt >>> 3) + t.rcvvar.rttvar = x at hpos hle ⊢
  have hpow : 2 ^ b.toNat ≤ 2 ^ 7 := Nat.pow_le_pow_right (by decide) hback
  have hlt : x.toNat * 2 ^ b.toNat < 4294967296 := by
    calc x.toNat * 2 ^ b.toNat ≤ (5 * 4194304) * 2 ^ 7 := Nat.mul_le_mul (by omega) hpow
      _ < 4294967296 := by decide
  have hshift : (x <<< b.toUInt32).toNat = x.toNat * 2 ^ b.toNat := by
    have hb : b.toNat % 32 = b.toNat := Nat.mod_eq_of_lt (by omega)
    rw [UInt32.toNat_shiftLeft, UInt8.toNat_toUInt32, hb, Nat.shiftLeft_eq]
    exact Nat.mod_eq_of_lt hlt
  split
  · next h0 =>
    rw [h0] at hshift
    have hpos' : 0 < x.toNat * 2 ^ b.toNat := Nat.mul_pos hpos (Nat.two_pow_pos _)
    exact absurd hshift (by rw [UInt32.toNat_zero]; omega)
  · exact hshift

/-- After every call the estimates are within fixed multiples of the largest sample, and the
timeout that `HandleRTO` computes from them does not wrap. -/
theorem estimates_bounded (cfg : Config) (iss : UInt32) (socket : Option Nat) (bound : Nat)
    (hpos : 1 ≤ bound) (hbound : bound ≤ 2 ^ 22) (xs : List Sample) (hne : xs ≠ [])
    (hxs : ∀ x ∈ xs, x.mrtt.toNat ≤ bound) :
    let r := (xs.foldl TcpStream.sample (createTCPStream cfg iss socket)).rcvvar
    (8 ≤ r.srtt.toNat ∧ r.srtt.toNat ≤ 8 * bound) ∧ r.mdev.toNat ≤ 4 * bound ∧
      r.mdevMax.toNat ≤ 4 * bound ∧ r.rttvar.toNat ≤ 4 * bound ∧
      (1 ≤ ((r.srtt >>> 3) + r.rttvar).toNat ∧ ((r.srtt >>> 3) + r.rttvar).toNat ≤ 5 * bound) ∧
      ∀ t : TcpStream, t.rcvvar = r → .established ≤ t.state →
        (backoffRTO t).toNat =
          ((r.srtt >>> 3) + r.rttvar).toNat * 2 ^ (min t.sndvar.nrtx 7).toNat := by
  intro r
  have hr : Estimated bound r := estimated_samples (.inl ⟨rfl, hne⟩) hpos (by omega) hxs
  refine ⟨⟨hr.le_srtt, hr.srtt_le⟩, hr.mdev_le, hr.mdevMax_le, hr.rttvar_le,
    ⟨hr.rto_pos (by omega), hr.rto_le (by omega)⟩, fun t ht hst => ?_⟩
  rw [← ht] at hr ⊢
  exact hr.backoffRTO (by omega) hst

theorem estimates_bounded_two :
    ((([⟨3, 0, 0⟩, ⟨0, 1, 1⟩] : List Sample).foldl TcpStream.sample
      (createTCPStream .small 100 none)).rcvvar.srtt.toNat = 22) ∧
      (([⟨3, 0, 0⟩, ⟨0, 1, 1⟩] : List Sample).foldl TcpStream.sample
        (createTCPStream .small 100 none)).rcvvar.srtt.toNat ≤ 8 * 3 :=
  ⟨by decide, (estimates_bounded .small 100 none 3 (by decide) (by decide)
    [⟨3, 0, 0⟩, ⟨0, 1, 1⟩] (by decide) (by decide)).1.2⟩

end Mtcp
