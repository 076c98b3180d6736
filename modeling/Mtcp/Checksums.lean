import Mtcp.OnesComplement
import Mtcp.Rss

namespace Mtcp.Checksums

open OnesComplement Flows

/-! The checksums of `tcp_util.c` and `icmp.c`, in the arithmetic of 32 bits. -/

/-- The loops: sixteen bits at a time, low byte first, and the mask `ntohs(0xFF00)` for the byte
of the segment in an odd last word. -/
def sumWords : List UInt8 → UInt32 → UInt32
  | a :: b :: bs, sum => sumWords bs (sum + (a.toUInt32 + (b.toUInt32 <<< 8)))
  | [a], sum => sum + a.toUInt32
  | [], sum => sum

def foldSum (sum : UInt32) : UInt16 :=
  let sum := (sum >>> 16) + (sum &&& 0xFFFF)
  let sum := sum + (sum >>> 16)
  (~~~sum).toUInt16

def halves (addr : UInt32) : UInt32 := (addr &&& (0xFFFF : UInt32)) + (addr >>> 16)

def tcpSum (seg : List UInt8) (saddr daddr : UInt32) : UInt32 :=
  let sum := sumWords seg 0
  let sum := sum + halves saddr
  let sum := sum + halves daddr
  let sum := sum + (htons (UInt16.ofNat seg.length)).toUInt32
  sum + (htons 6).toUInt32

def tcpCalcChecksum (seg : List UInt8) (saddr daddr : UInt32) : UInt16 :=
  foldSum (tcpSum seg saddr daddr)

def bytesOf (x : UInt32) : List UInt8 :=
  [x.toUInt8, (x >>> 8).toUInt8, (x >>> 16).toUInt8, (x >>> 24).toUInt8]

/-- The pseudo-header: the addresses, which are kept in network order, the protocol, the length. -/
def pseudoHeader (saddr daddr : UInt32) (len : Nat) : List UInt8 :=
  bytesOf saddr ++ bytesOf daddr ++ [0, 6, UInt8.ofNat (len / 256), UInt8.ofNat len]

/-- The check field of a TCP header, at offset 16. -/
def setCheck (c : UInt16) (seg : List UInt8) : List UInt8 :=
  (seg.set 16 c.toUInt8).set 17 (c >>> 8).toUInt8

theorem toNat_sumWords (bs : List UInt8) (sum : UInt32)
    (h : sum.toNat + (words bs).sum < 4294967296) :
    (sumWords bs sum).toNat = sum.toNat + (words bs).sum := by
  fun_induction sumWords bs sum with
  | case1 a b bs sum ih =>
    have ha := a.toNat_lt
    have hb := b.toNat_lt
    rw [words, List.sum_cons] at h ⊢
    have hadd : (sum + (a.toUInt32 + b.toUInt32 <<< 8)).toNat =
        sum.toNat + (a.toNat + 256 * b.toNat) := by
      simp [Nat.shiftLeft_eq]
      omega
    rw [ih (by omega), hadd, Nat.add_assoc]
  | case2 a sum =>
    have ha := a.toNat_lt
    rw [words, List.sum_singleton] at h ⊢
    simp
    omega
  | case3 sum => rfl

variable (c : UInt16) (seg : List UInt8) (saddr daddr : UInt32) (x : UInt32)

theorem toNat_low : (x &&& 0xFFFF).toNat = x.toNat % 65536 := by
  rw [UInt32.toNat_and]
  exact Nat.and_two_pow_sub_one_eq_mod x.toNat 16

theorem toNat_high : (x >>> 16).toNat = x.toNat / 65536 := by
  rw [UInt32.toNat_shiftRight]
  exact Nat.shiftRight_eq_div_pow x.toNat 16

theorem toNat_foldSum (sum : UInt32) : (foldSum sum).toNat = 65535 - residue sum.toNat := by
  have hlt := sum.toNat_lt
  have hfold : ((sum >>> 16) + (sum &&& 0xFFFF)).toNat = sum.toNat / 65536 + sum.toNat % 65536 := by
    rw [UInt32.toNat_add, toNat_high, toNat_low]
    omega
  have hnot : ∀ n, n < 131072 → (4294967296 - 1 - n % 2 ^ 32) % 2 ^ 16 = 65535 - n % 65536 := by
    intro n hn
    omega
  unfold foldSum
  rw [UInt32.toNat_toUInt16, UInt32.toNat_not, UInt32.toNat_add, toNat_high, hfold,
    ← fold_twice hlt]
  exact hnot _ (by omega)

theorem toNat_htons (x : UInt16) : (htons x).toNat = swap x.toNat := by
  have hlt := x.toNat_lt
  change (x.toBitVec.extractLsb' 0 8 ++ x.toBitVec.extractLsb' 8 8).toNat = _
  rw [BitVec.toNat_append, ← Nat.shiftLeft_add_eq_or_of_lt (BitVec.isLt _), swap]
  simp [Nat.shiftLeft_eq, Nat.shiftRight_eq_div_pow]
  omega

theorem toNat_halves : (halves x).toNat = x.toNat % 65536 + x.toNat / 65536 := by
  have hhigh : x.toNat / 65536 < 65536 := Nat.div_lt_of_lt_mul x.toNat_lt
  rw [halves, UInt32.toNat_add, toNat_low, toNat_high]
  omega

theorem sum_bytesOf : (words (bytesOf x)).sum = (halves x).toNat := by
  have hlow : x.toNat / 256 / 256 = x.toNat / 65536 := Nat.div_div_eq_div_mul _ _ _
  have hhigh : x.toNat / 65536 / 256 = x.toNat / 16777216 := Nat.div_div_eq_div_mul _ _ _
  have htop : x.toNat / 16777216 < 256 := Nat.div_lt_of_lt_mul x.toNat_lt
  rw [toNat_halves]
  simp [bytesOf, words, Nat.shiftRight_eq_div_pow]
  omega

theorem sum_pseudoHeader {len : Nat} (h : len < 65536) :
    (words (pseudoHeader saddr daddr len)).sum =
      (halves saddr).toNat + (halves daddr).toNat + (htons (UInt16.ofNat len)).toNat + 1536 := by
  rw [pseudoHeader, words_append (by simp [bytesOf]), words_append (by simp [bytesOf]),
    List.sum_append, List.sum_append,
    sum_bytesOf, sum_bytesOf, toNat_htons]
  simp [words, swap]
  omega

theorem toNat_halves_lt : (halves x).toNat < 131072 := by
  have hhigh : x.toNat / 65536 < 65536 := Nat.div_lt_of_lt_mul x.toNat_lt
  rw [toNat_halves]
  omega

/-- The sum does not overflow: it is that of the words of the pseudo-header and the segment. -/
theorem toNat_tcpSum (h : seg.length ≤ 65535) : (tcpSum seg saddr daddr).toNat =
      (words (pseudoHeader saddr daddr seg.length ++ seg)).sum := by
  have hwords := sum_words_le seg
  have hs := toNat_halves_lt saddr
  have hd := toNat_halves_lt daddr
  have hl := (htons (UInt16.ofNat seg.length)).toNat_lt
  have hzero := toNat_sumWords seg 0 (by simp; omega)
  rw [words_append (by simp [pseudoHeader, bytesOf]), List.sum_append,
    sum_pseudoHeader _ _ (by omega)]
  unfold tcpSum
  simp [hzero, show htons 6 = 1536 by decide]
  omega

theorem tcpSum_pos (h : seg.length ≤ 65535) : 0 < (tcpSum seg saddr daddr).toNat := by
  rw [toNat_tcpSum seg saddr daddr h, words_append (by simp [pseudoHeader, bytesOf]),
    List.sum_append, sum_pseudoHeader _ _ (by omega)]
  omega

theorem tcpCalcChecksum_eq_zero_iff {seg : List UInt8} {saddr daddr : UInt32}
    (h : seg.length ≤ 65535) :
    tcpCalcChecksum seg saddr daddr = 0 ↔ (tcpSum seg saddr daddr).toNat % 65535 = 0 := by
  have hle := residue_le (tcpSum seg saddr daddr).toNat
  rw [← residue_eq_max_iff (tcpSum_pos seg saddr daddr h), ← UInt16.toNat_inj, tcpCalcChecksum,
    toNat_foldSum]
  change 65535 - _ = 0 ↔ _
  omega

theorem length_setCheck : (setCheck c seg).length = seg.length := by
  rw [setCheck, List.length_set, List.length_set]

theorem words_store {msg : List UInt8} (i : Nat) (c : UInt16) (h : 2 * i + 1 < msg.length) :
    words ((msg.set (2 * i) c.toUInt8).set (2 * i + 1) (c >>> 8).toUInt8) =
      (words msg).set i c.toNat := by
  have hbytes : c.toUInt8.toNat + 256 * (c >>> 8).toUInt8.toNat = c.toNat := by
    have hlt := c.toNat_lt
    simp [Nat.shiftRight_eq_div_pow]
    omega
  rw [words_set msg i _ _ h, hbytes]

theorem words_setCheck {seg : List UInt8} (h : 20 ≤ seg.length) :
    words (setCheck c seg) = (words seg).set 8 c.toNat := words_store 8 c (by omega)

theorem tcpSum_change {seg seg' : List UInt8} (saddr daddr : UInt32) {i w : Nat}
    (hlen : seg.length ≤ 65535) (hlen' : seg'.length = seg.length) (hi : i < (words seg).length)
    (hwords : words seg' = (words seg).set i w) :
    (tcpSum seg' saddr daddr).toNat + (words seg)[i] = (tcpSum seg saddr daddr).toNat + w := by
  have heven : ∀ len, (pseudoHeader saddr daddr len).length % 2 = 0 := by
    intro len
    simp [pseudoHeader, bytesOf]
  have hset := sum_set hi w
  rw [toNat_tcpSum seg' saddr daddr (hlen' ▸ hlen), toNat_tcpSum seg saddr daddr hlen, hlen',
    words_append (heven _), words_append (heven _), List.sum_append, List.sum_append, hwords]
  omega

theorem tcpCalcChecksum_eq_checksum {seg : List UInt8} (saddr daddr : UInt32)
    (h : seg.length ≤ 65535) : tcpCalcChecksum seg saddr daddr =
      htons (UInt16.ofNat (checksum (pseudoHeader saddr daddr seg.length ++ seg))) := by
  have hle := residue_le (words (pseudoHeader saddr daddr seg.length ++ seg)).sum
  have hlt : checksum (pseudoHeader saddr daddr seg.length ++ seg) < 2 ^ 16 :=
    Nat.lt_succ_of_le (Nat.sub_le _ _)
  apply UInt16.toNat_inj.mp
  rw [tcpCalcChecksum, toNat_foldSum, toNat_tcpSum seg saddr daddr h, toNat_htons,
    UInt16.toNat_ofNat', Nat.mod_eq_of_lt hlt, checksum_eq, swap_complement hle]

theorem tcpCalcChecksum_setCheck {seg : List UInt8} (saddr daddr : UInt32)
    (hlow : 20 ≤ seg.length) (hhigh : seg.length ≤ 65535) :
    tcpCalcChecksum (setCheck (tcpCalcChecksum (setCheck 0 seg) saddr daddr) seg) saddr daddr =
      0 := by
  have hlen : ∀ c, (setCheck c seg).length ≤ 65535 :=
    fun c => (length_setCheck c seg).trans_le hhigh
  have hzero := words_setCheck 0 hlow
  have hi : 8 < (words (setCheck 0 seg)).length := by
    rw [length_words, length_setCheck]
    omega
  have hget : (words (setCheck 0 seg))[8] = 0 := by
    simp only [hzero, List.getElem_set_self]
    rfl
  generalize hc : tcpCalcChecksum (setCheck 0 seg) saddr daddr = c
  have hset : words (setCheck c seg) = (words (setCheck 0 seg)).set 8 c.toNat := by
    rw [hzero, List.set_set, words_setCheck c hlow]
  have hsum := tcpSum_change saddr daddr (hlen 0)
    ((length_setCheck c seg).trans (length_setCheck 0 seg).symm) hi hset
  have hval : c.toNat = 65535 - residue (tcpSum (setCheck 0 seg) saddr daddr).toNat := by
    rw [← hc, tcpCalcChecksum, toNat_foldSum]
  have hmod := residue_mod (tcpSum (setCheck 0 seg) saddr daddr).toNat
  have hle := residue_le (tcpSum (setCheck 0 seg) saddr daddr).toNat
  rw [tcpCalcChecksum_eq_zero_iff (hlen c)]
  omega

/-- `TCPCalcChecksum` gives the checksum of RFC 1071 as it stands in memory; with it in the check
field a segment checks out, and no longer with a word that differs modulo 65535. -/
theorem tcp_checksum_correct (hlen : 20 ≤ seg.length ∧ seg.length ≤ 65535) :
    (tcpSum seg saddr daddr).toNat = (words (pseudoHeader saddr daddr seg.length ++ seg)).sum ∧
      tcpCalcChecksum seg saddr daddr =
        htons (UInt16.ofNat (checksum (pseudoHeader saddr daddr seg.length ++ seg))) ∧
      tcpCalcChecksum (setCheck (tcpCalcChecksum (setCheck 0 seg) saddr daddr) seg) saddr daddr =
        0 ∧
      ∀ seg' i w, tcpCalcChecksum seg saddr daddr = 0 → seg'.length = seg.length →
        ∀ hi : i < (words seg).length, words seg' = (words seg).set i w →
        w % 65535 ≠ (words seg)[i] % 65535 → tcpCalcChecksum seg' saddr daddr ≠ 0 := by
  obtain ⟨hlow, hhigh⟩ := hlen
  refine ⟨toNat_tcpSum seg saddr daddr hhigh, tcpCalcChecksum_eq_checksum saddr daddr hhigh,
    tcpCalcChecksum_setCheck saddr daddr hlow hhigh, ?_⟩
  intro seg' i w hvalid hlen hi hwords hne hvalid'
  have hsum := tcpSum_change saddr daddr hhigh hlen hi hwords
  rw [tcpCalcChecksum_eq_zero_iff hhigh] at hvalid
  rw [tcpCalcChecksum_eq_zero_iff (hlen ▸ hhigh)] at hvalid'
  omega

/-- A bare acknowledgement, whose checksum is stored and then spoilt in the last word. -/
def bareAck : List UInt8 :=
  [4, 1, 0, 80, 0, 0, 0, 1, 0, 0, 0, 2, 80, 16, 255, 255, 0, 0, 0, 0]

theorem tcp_checksum_bareAck : 20 ≤ bareAck.length ∧ bareAck.length ≤ 65535 ∧
    tcpCalcChecksum (setCheck (tcpCalcChecksum (setCheck 0 bareAck) 16777226 33554442) bareAck)
      16777226 33554442 = 0 :=
  ⟨by decide, by decide, (tcp_checksum_correct bareAck 16777226 33554442 (by decide)).2.2.1⟩

end Mtcp.Checksums
