import Mtcp.Checksums
import Mtcp.Frames

namespace Mtcp.IcmpEcho

open OnesComplement Checksums List
open Frames (Memory Device Read InBounds inBounds_cons inBounds_nil ethLen ihlOf)
open Flows (ntohs htons)

/-! `icmp.c`: the answer to an echo request. Offsets count from the start of the frame. -/

def load (mem : Memory) (off n : Nat) : List UInt8 := (List.range n).map fun i => mem (off + i)

def load16 (mem : Memory) (i : Nat) : UInt16 := (mem i).toUInt16 + ((mem (i + 1)).toUInt16 <<< 8)

def store16 (x : UInt16) : List UInt8 := [x.toUInt8, (x >>> 8).toUInt8]

/-- `ICMPChecksum`. Of `odd_byte` only the low byte is written; `junk` is what the other one
happens to be. -/
def icmpChecksum (msg : List UInt8) (junk : UInt8) : UInt16 :=
  foldSum (sumWords (if msg.length % 2 = 1 then msg ++ [junk] else msg) 0)

def icmpMessage (type code : UInt8) (id seq : UInt16) (data : List UInt8) : List UInt8 :=
  type :: code :: 0 :: 0 :: (store16 (htons id) ++ store16 (htons seq) ++ data)

def icmpOutput (type code : UInt8) (id seq : UInt16) (data : List UInt8) (junk : UInt8) :
    List UInt8 :=
  let msg := icmpMessage type code id seq data
  let c := icmpChecksum msg junk
  (msg.set 2 c.toUInt8).set 3 (c >>> 8).toUInt8

def request (mem : Memory) (ipLen : Nat) : List UInt8 :=
  load mem (ethLen + 4 * ihlOf mem) (ipLen - 4 * ihlOf mem)

inductive Result where
  | assertFailed
  | error
  | replied (payloadlen : Nat) (msg : List UInt8)

structure Outcome where
  reads : List Read
  result : Result

/-- `ProcessICMPECHORequest`, with the bytes it loads from the packet. The length of the data is
cut to sixteen bits, and so is that of the message handed to `IPOutputStandalone`, which is taken
to find a buffer. -/
def processICMPECHORequest (mem : Memory) (ipLen : Nat) (junk junk' : UInt8) : Outcome :=
  let icmph := ethLen + 4 * ihlOf mem
  let seen : Read := ⟨ethLen, 1⟩
  if ipLen < 4 * ihlOf mem then ⟨[seen], .assertFailed⟩
  else
    let len := ipLen - 4 * ihlOf mem
    if icmpChecksum (request mem ipLen) junk ≠ 0 then ⟨[seen, ⟨icmph, len⟩], .error⟩
    else
      let n := (len + 65528) % 65536
      ⟨[seen, ⟨icmph, len⟩, ⟨ethLen + 12, 8⟩, ⟨icmph + 4, 4⟩, ⟨icmph + 8, n⟩],
        .replied ((8 + n) % 65536) (icmpOutput 0 0 (ntohs (load16 mem (icmph + 4)))
          (ntohs (load16 mem (icmph + 6))) (load mem (icmph + 8) n) junk')⟩

/-- `ProcessIPv4Packet` and `ProcessICMPPacket` hand the packet on as an echo request. -/
def passedOn (dev : Device) (mem : Memory) : Bool :=
  decide (20 ≤ Frames.ntohs mem (ethLen + 2)) &&
    (dev.rxIpCsum || Frames.ipFastCsum mem ethLen (ihlOf mem) == 0) &&
    (mem ethLen).toNat / 16 == 4 && mem (ethLen + 9) == 1 &&
    dev.addrs.contains (Frames.word32 mem (ethLen + 16)) && mem (ethLen + 4 * ihlOf mem) == 8

/-- Only the packet is read, and a reply goes out with the length of the request, its bytes from the
identifier on, and a checksum that verifies. -/
def Mirrors (req : List UInt8) (ipLen : Nat) (o : Outcome) : Prop :=
  InBounds o.reads (ethLen + ipLen) ∧ ∃ msg, o.result = .replied msg.length msg ∧
    msg.take 2 = [0, 0] ∧ msg.length = req.length ∧ msg.drop 4 = req.drop 4 ∧ checksum msg = 0

/-- The request has a header, and the byte after an odd one is zero. -/
def wellFormed (mem : Memory) (ipLen : Nat) (junk junk' : UInt8) : Bool :=
  decide (4 * ihlOf mem + 8 ≤ ipLen) && (ipLen % 2 == 0 || (junk == 0 && junk' == 0))

variable {mem : Memory} {ipLen : Nat} {junk junk' : UInt8}

theorem length_load (off n : Nat) : (load mem off n).length = n := by
  rw [load, length_map, length_range]

def padding (msg : List UInt8) (junk : UInt8) : Nat :=
  if msg.length % 2 = 1 then 256 * junk.toNat else 0

theorem toNat_icmpChecksum (msg : List UInt8) (junk : UInt8) (h : msg.length < 65536) :
    (icmpChecksum msg junk).toNat = 65535 - residue ((words msg).sum + padding msg junk) := by
  have hwords := sum_words_le msg
  have hjunk := junk.toNat_lt
  rw [icmpChecksum, toNat_foldSum, padding]
  split
  · next hodd =>
    have hconcat := sum_words_concat msg hodd junk
    rw [toNat_sumWords _ _ (by rw [hconcat]; simp; omega), hconcat]
    simp
  · rw [toNat_sumWords _ _ (by simp; omega)]
    simp

theorem padding_le (msg : List UInt8) (junk : UInt8) : padding msg junk ≤ 65280 := by
  have hjunk := junk.toNat_lt
  unfold padding
  split <;> omega

/-- The code takes a checksum that verifies for one exactly if the padding is zero. -/
theorem icmpChecksum_eq_zero_iff {msg : List UInt8} (h : msg.length < 65536)
    (hvalid : checksum msg = 0) : icmpChecksum msg junk = 0 ↔ padding msg junk = 0 := by
  have hpad := padding_le msg junk
  have hle := residue_le ((words msg).sum + padding msg junk)
  rw [checksum_eq_zero_iff] at hvalid
  have hpos : (words msg).sum ≠ 0 := by
    intro hzero
    rw [hzero] at hvalid
    cases hvalid
  rw [residue_eq_max_iff (Nat.pos_of_ne_zero hpos)] at hvalid
  have hmax := residue_eq_max_iff (show 0 < (words msg).sum + padding msg junk by omega)
  rw [← UInt16.toNat_inj, toNat_icmpChecksum msg junk h]
  change 65535 - _ = 0 ↔ _
  omega

theorem checksum_icmpOutput (type code : UInt8) (id seq : UInt16) (data : List UInt8)
    (h : data.length + 8 < 65536) : checksum (icmpOutput type code id seq data junk) = 0 ↔
      padding (icmpMessage type code id seq data) junk = 0 := by
  have hlen : (icmpMessage type code id seq data).length = data.length + 8 := by
    simp [icmpMessage, store16]
  have hget : (words (icmpMessage type code id seq data))[1]? = some 0 := rfl
  unfold icmpOutput
  dsimp only
  generalize icmpMessage type code id seq data = msg at hlen hget ⊢
  have hc := toNat_icmpChecksum msg junk (by omega)
  generalize icmpChecksum msg junk = c at hc ⊢
  have hi : 1 < (words msg).length := (List.getElem?_eq_some_iff.mp hget).1
  have hzero : (words msg)[1] = 0 := (List.getElem?_eq_some_iff.mp hget).2
  have hsum := sum_set hi c.toNat
  have hwords : words ((msg.set 2 c.toUInt8).set 3 (c >>> 8).toUInt8) =
      (words msg).set 1 c.toNat := words_store 1 c (by omega)
  have hpad := padding_le msg junk
  have hle := residue_le ((words msg).sum + padding msg junk)
  have hmod := residue_mod ((words msg).sum + padding msg junk)
  have hnone := residue_eq_zero_iff ((words msg).sum + padding msg junk)
  have hpos : 0 < (words msg).sum + c.toNat := by omega
  rw [checksum_eq_zero_iff, hwords]
  rw [hzero, Nat.add_zero] at hsum
  rw [hsum, residue_eq_max_iff hpos]
  omega

theorem store16_load16 (mem : Memory) (i : Nat) :
    store16 (htons (ntohs (load16 mem i))) = [mem i, mem (i + 1)] := by
  have hswap : htons (ntohs (load16 mem i)) = load16 mem i := Toeplitz.swap16_swap16 _
  have hlow : (load16 mem i).toUInt8 = mem i := by
    apply UInt8.toNat_inj.mp
    simp [load16, Nat.shiftLeft_eq]
  have hhigh : ((load16 mem i) >>> 8).toUInt8 = mem (i + 1) := by
    apply UInt8.toNat_inj.mp
    have h0 := (mem i).toNat_lt
    have h1 := (mem (i + 1)).toNat_lt
    simp [load16, Nat.shiftLeft_eq, Nat.shiftRight_eq_div_pow]
    omega
  rw [hswap, store16, hlow, hhigh]

theorem load_add (mem : Memory) (off m n : Nat) :
    load mem off (m + n) = load mem off m ++ load mem (off + m) n := by
  simp only [load, range_add, map_append, map_map, Function.comp_def, Nat.add_assoc]

theorem drop_icmpOutput (type code : UInt8) (off n : Nat) (junk : UInt8) :
    (icmpOutput type code (ntohs (load16 mem (off + 4))) (ntohs (load16 mem (off + 6)))
      (load mem (off + 8) n) junk).drop 4 = (load mem off (8 + n)).drop 4 := by
  have hload : load mem off (8 + n) = load mem off 4 ++ (load mem (off + 4) 4 ++
      load mem (off + 8) n) := by
    rw [load_add, show 8 = 4 + 4 from rfl, load_add, append_assoc]
  rw [hload, drop_left' (length_load off 4)]
  change store16 _ ++ store16 _ ++ _ = _
  rw [store16_load16, store16_load16]
  rfl

theorem length_icmpOutput (type code : UInt8) (id seq : UInt16) (data : List UInt8) (junk : UInt8) :
    (icmpOutput type code id seq data junk).length = 8 + data.length := by
  simp [icmpOutput, icmpMessage, store16]
  omega

theorem padding_eq_zero_iff {msg : List UInt8} (junk : UInt8) :
    padding msg junk = 0 ↔ msg.length % 2 = 0 ∨ junk = 0 := by
  have hjunk : junk = 0 ↔ junk.toNat = 0 := UInt8.toNat_inj.symm
  rw [hjunk, padding]
  split <;> omega

theorem wellFormed_iff : wellFormed mem ipLen junk junk' ↔
    4 * ihlOf mem + 8 ≤ ipLen ∧ (ipLen % 2 = 0 ∨ junk = 0 ∧ junk' = 0) := by
  simp [wellFormed]

theorem length_request : (request mem ipLen).length = ipLen - 4 * ihlOf mem := length_load _ _

theorem mirrors_replied_iff (h20 : 20 ≤ ipLen) (hlt : ipLen < 65536)
    (hhead : 4 * ihlOf mem + 8 ≤ ipLen) (hsum : icmpChecksum (request mem ipLen) junk = 0) :
    Mirrors (request mem ipLen) ipLen (processICMPECHORequest mem ipLen junk junk') ↔
      ipLen % 2 = 0 ∨ junk' = 0 := by
  have hlen := @length_request mem ipLen
  have hn : (ipLen - 4 * ihlOf mem + 65528) % 65536 = ipLen - 4 * ihlOf mem - 8 := by omega
  have hreq : request mem ipLen = load mem (ethLen + 4 * ihlOf mem)
      (8 + (ipLen - 4 * ihlOf mem - 8)) := by
    rw [request, Nat.add_sub_of_le (by omega)]
  unfold processICMPECHORequest
  dsimp only
  rw [if_neg (by omega), if_neg (not_not.mpr hsum), hn]
  generalize hm : icmpOutput 0 0 _ _ _ junk' = msg
  have hmlen : msg.length = 8 + (ipLen - 4 * ihlOf mem - 8) := by
    rw [← hm, length_icmpOutput, length_load]
  have hdrop : msg.drop 4 = (request mem ipLen).drop 4 := by
    rw [← hm, hreq]
    exact drop_icmpOutput 0 0 _ _ junk'
  have htake : msg.take 2 = [0, 0] := by
    rw [← hm]
    rfl
  have hcheck : checksum msg = 0 ↔ ipLen % 2 = 0 ∨ junk' = 0 := by
    rw [← hm, checksum_icmpOutput _ _ _ _ _ (by rw [length_load]; omega), padding_eq_zero_iff]
    simp only [icmpMessage, store16, length_cons, length_append, length_nil, length_load]
    apply or_congr_left
    omega
  have hreads : InBounds [⟨ethLen, 1⟩, ⟨ethLen + 4 * ihlOf mem, ipLen - 4 * ihlOf mem⟩,
      ⟨ethLen + 12, 8⟩, ⟨ethLen + 4 * ihlOf mem + 4, 4⟩,
      ⟨ethLen + 4 * ihlOf mem + 8, ipLen - 4 * ihlOf mem - 8⟩] (ethLen + ipLen) := by
    simp only [inBounds_cons]
    exact ⟨by omega, by omega, by omega, by omega, by omega, inBounds_nil _⟩
  rw [← hcheck]
  refine ⟨fun ⟨_, msg', hres, _, _, _, hgood⟩ => ?_, fun hgood =>
    ⟨hreads, msg, ?_, htake, by omega, hdrop, hgood⟩⟩
  · obtain ⟨-, rfl⟩ := Result.replied.inj hres
    exact hgood
  · rw [show (8 + (ipLen - 4 * ihlOf mem - 8)) % 65536 = msg.length by omega]

theorem mirrors_iff (h20 : 20 ≤ ipLen) (hlt : ipLen < 65536)
    (hvalid : 4 * ihlOf mem ≤ ipLen → checksum (request mem ipLen) = 0) :
    Mirrors (request mem ipLen) ipLen (processICMPECHORequest mem ipLen junk junk') ↔
      wellFormed mem ipLen junk junk' := by
  have hlen := @length_request mem ipLen
  rw [wellFormed_iff]
  by_cases hneg : ipLen < 4 * ihlOf mem
  · -- the length handed to `ICMPChecksum` is negative
    unfold processICMPECHORequest
    rw [if_pos hneg]
    exact ⟨fun ⟨_, msg, hres, _⟩ => (nomatch hres), fun h => absurd h.1 (by omega)⟩
  have hpad := @icmpChecksum_eq_zero_iff junk (request mem ipLen) (by omega)
    (hvalid (not_lt.mp hneg))
  rw [padding_eq_zero_iff, hlen] at hpad
  by_cases hsum : icmpChecksum (request mem ipLen) junk = 0
  · have hjunk := hpad.mp hsum
    by_cases hhead : 4 * ihlOf mem + 8 ≤ ipLen
    · rw [mirrors_replied_iff h20 hlt hhead hsum]
      have hparity : (ipLen - 4 * ihlOf mem) % 2 = ipLen % 2 := by omega
      rw [hparity] at hjunk
      tauto
    · -- the length of the data wraps around
      refine ⟨fun ⟨hreads, _⟩ => ?_, fun h => absurd h.1 hhead⟩
      unfold processICMPECHORequest at hreads
      rw [if_neg hneg, if_neg (not_not.mpr hsum)] at hreads
      simp only [inBounds_cons] at hreads
      omega
  · have herror : (processICMPECHORequest mem ipLen junk junk').result = .error := by
      unfold processICMPECHORequest
      rw [if_neg hneg, if_pos hsum]
    refine ⟨fun ⟨_, msg, hres, _⟩ => ?_, fun h => absurd (hpad.mpr ?_) hsum⟩
    · rw [herror] at hres
      cases hres
    · exact h.2.imp (fun h' => by omega) And.left

/-- An echo request is mirrored exactly if it is long enough to have a header, and either its
length is even or the uninitialised byte is zero both times. -/
theorem icmp_echo_mirrors_iff (dev : Device) (mem : Memory) (junk junk' : UInt8)
    (hpass : passedOn dev mem = true)
    (hvalid : 4 * ihlOf mem ≤ Frames.ntohs mem (ethLen + 2) →
      checksum (request mem (Frames.ntohs mem (ethLen + 2))) = 0) :
    Mirrors (request mem (Frames.ntohs mem (ethLen + 2))) (Frames.ntohs mem (ethLen + 2))
        (processICMPECHORequest mem (Frames.ntohs mem (ethLen + 2)) junk junk') ↔
      wellFormed mem (Frames.ntohs mem (ethLen + 2)) junk junk' = true := by
  have h20 : 20 ≤ Frames.ntohs mem (ethLen + 2) := by
    simp only [passedOn, Bool.and_eq_true, decide_eq_true_eq] at hpass
    exact hpass.1.1.1.1.1
  exact mirrors_iff h20 (Frames.ntohs_lt mem _) hvalid

def nic : Device := ⟨true, true, [16777226], by decide⟩

/-- A frame for it with an ICMP message behind an IP header of twenty bytes. -/
def echoFrame (msg : List UInt8) : Memory := fun i =>
  (List.replicate 14 0 ++ [69, 0, 0, UInt8.ofNat (20 + msg.length), 0, 0, 0, 0, 64, 1, 0, 0,
    10, 0, 0, 2, 10, 0, 0, 1] ++ msg).getD i 0

theorem icmp_echo_mirrors_two_bytes :
    Mirrors [8, 0, 228, 200, 18, 52, 0, 1, 1, 2] 30
      (processICMPECHORequest (echoFrame [8, 0, 228, 200, 18, 52, 0, 1, 1, 2]) 30 7 7) :=
  (icmp_echo_mirrors_iff nic (echoFrame [8, 0, 228, 200, 18, 52, 0, 1, 1, 2]) 7 7 (by decide)
    (fun _ => by decide)).mpr (by decide)

/-- A request of four bytes verifies, and the reply copies 65532 bytes from behind it. One of nine
bytes verifies, and is dropped for the byte that happens to follow its last one. -/
theorem icmp_echo_not_mirrored :
    passedOn nic (echoFrame [8, 0, 247, 255]) = true ∧
      checksum (request (echoFrame [8, 0, 247, 255]) 24) = 0 ∧
      ⟨42, 65532⟩ ∈ (processICMPECHORequest (echoFrame [8, 0, 247, 255]) 24 0 0).reads ∧
      passedOn nic (echoFrame [8, 0, 247, 255, 0, 0, 0, 0, 0]) = true ∧
      checksum (request (echoFrame [8, 0, 247, 255, 0, 0, 0, 0, 0]) 29) = 0 ∧
      icmpChecksum (request (echoFrame [8, 0, 247, 255, 0, 0, 0, 0, 0]) 29) 1 ≠ 0 := by
  decide

end Mtcp.IcmpEcho
