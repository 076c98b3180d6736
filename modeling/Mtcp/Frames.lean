import Mathlib.Algebra.GroupWithZero.Nat
import Mathlib.Data.List.Basic
import Mathlib.Order.MinMax
import Mathlib.Tactic.SplitIfs

namespace Mtcp.Frames

/-- The memory behind the pointer to a received frame. The frame is its beginning. -/
abbrev Memory := Nat → UInt8

structure Read where
  off : Nat
  size : Nat
  deriving DecidableEq

def InBounds (reads : List Read) (len : Nat) : Prop :=
  ∀ r ∈ reads, ∀ i < r.size, r.off + i < len

theorem inBounds_nil (len : Nat) : InBounds [] len := fun _ h => (nomatch h)

theorem inBounds_cons (r : Read) (rs : List Read) (len : Nat) :
    InBounds (r :: rs) len ↔ (r.size = 0 ∨ r.off + r.size ≤ len) ∧ InBounds rs len := by
  unfold InBounds
  rw [List.forall_mem_cons]
  refine and_congr_left fun _ => ⟨fun h => ?_, fun h i hi => ?_⟩
  · by_cases hsize : r.size = 0
    · exact .inl hsize
    · have hlast := h (r.size - 1) (by omega)
      exact .inr (by omega)
  · omega

theorem inBounds_append (rs ss : List Read) (len : Nat) :
    InBounds (rs ++ ss) len ↔ InBounds rs len ∧ InBounds ss len := List.forall_mem_append

/-! The fields of the headers and the sums over them. Loads are little-endian; `ntohs` swaps. -/

def word16 (mem : Memory) (i : Nat) : Nat := (mem i).toNat + 256 * (mem (i + 1)).toNat

def word32 (mem : Memory) (i : Nat) : Nat := word16 mem i + 65536 * word16 mem (i + 2)

def ntohs (mem : Memory) (i : Nat) : Nat := 256 * (mem i).toNat + (mem (i + 1)).toNat

def sumWords (mem : Memory) (i n : Nat) : Nat :=
  ((List.range n).map fun j => word16 mem (i + 2 * j)).sum

def complementSum (sum : Nat) : Nat :=
  let sum := sum / 65536 + sum % 65536
  65535 - (sum + sum / 65536) % 65536

/-- The assembler version of `ip_fast_csum`: end-around carries over the words, and only the
first word when there are no more than four. -/
def ipFastCsum (mem : Memory) (iph ihl : Nat) : Nat :=
  if ihl ≤ 4 then word32 mem iph % 65536
  else
    let r := (List.range (ihl - 1)).foldl (fun s j =>
      let v := s.1 + word32 mem (iph + 4 * (j + 1)) + s.2
      (v % 4294967296, v / 4294967296)) (word32 mem iph, 0)
    let sum := (r.1 + r.2) % 4294967296
    let t := sum / 65536 + sum % 65536
    65535 - (t % 65536 + t / 65536)

def ipFastCsumReads (iph ihl : Nat) : List Read := [⟨iph, if ihl ≤ 4 then 4 else 4 * ihl⟩]

def tcpCalcChecksum (mem : Memory) (buf len saddr daddr : Nat) : Nat :=
  complementSum (sumWords mem buf (len / 2) +
    (if len % 2 = 1 then (mem (buf + len - 1)).toNat else 0) +
    (saddr % 65536 + saddr / 65536) + (daddr % 65536 + daddr / 65536) +
    (256 * (len % 256) + len / 256) + 1536)

/-- Sixteen bits at a time; the padding of an odd length is loaded with its last byte. -/
def tcpCalcChecksumReads (buf len : Nat) : List Read := [⟨buf, len + len % 2⟩]

/-- The second byte of an odd last word is not initialised. -/
def icmpChecksum (mem : Memory) (icmph len : Nat) (junk : UInt8) : Nat :=
  complementSum (sumWords mem icmph (len / 2) +
    if len % 2 = 1 then (mem (icmph + len - 1)).toNat + 256 * junk.toNat else 0)

/-! The functions, with the loads they make. -/

/-- Which checksums the device takes over, and the addresses of the interfaces. -/
structure Device where
  rxIpCsum : Bool
  rxTcpCsum : Bool
  addrs : List Nat
  addrs_ne_nil : addrs ≠ []

/-- What the rest of the stack does with a frame: whether the sender of an ARP packet is
known, whether the handler of the stream copies the payload, whether there is a buffer for an
ICMP reply, and the byte on the stack. -/
structure Handling where
  known : Bool
  copies : Bool
  replies : Bool
  junk : UInt8

/-- The loads, and the length with which the TCP payload was used. -/
structure Access where
  reads : List Read
  payloadlen : Option Int := none

def ethLen : Nat := 14

/-- Offsets in `struct arphdr`: operation 6, sender address 8 and 14, target address 24. -/
def processARPPacket (dev : Device) (h : Handling) (mem : Memory) : Access :=
  let arph := ethLen
  let tip : Read := ⟨arph + 24, 4⟩
  if word32 mem (arph + 24) ∈ dev.addrs then
    let sender : List Read := if h.known then [⟨arph + 14, 4⟩] else [⟨arph + 14, 4⟩, ⟨arph + 8, 6⟩]
    match ntohs mem (arph + 6) with
    | 1 => { reads := [tip, ⟨arph + 6, 2⟩] ++ sender ++ [⟨arph + 8, 6⟩] }
    | 2 => { reads := [tip, ⟨arph + 6, 2⟩] ++ sender }
    | _ => { reads := [tip, ⟨arph + 6, 2⟩] }
  else { reads := [tip] }

def ihlOf (mem : Memory) : Nat := (mem ethLen).toNat % 16

/-- The data offset is read and used before it is compared with the length. -/
def processTCPPacket (dev : Device) (h : Handling) (mem : Memory) (ipLen : Nat) : Access :=
  let iph := ethLen
  let ihl := ihlOf mem
  let tcph := iph + 4 * ihl
  let doff := (mem (tcph + 12)).toNat / 16
  let payload := tcph + 4 * doff
  let payloadlen : Int := ipLen - (payload - iph : Nat)
  let fixed : List Read := [⟨iph, 1⟩, ⟨tcph + 12, 1⟩, ⟨tcph + 4, 4⟩, ⟨tcph + 8, 4⟩, ⟨tcph + 14, 2⟩]
  if ipLen < 4 * (ihl + doff) then { reads := fixed }
  else
    let len := ((4 * doff : Nat) + payloadlen).toNat % 65536
    let summed : List Read :=
      if dev.rxTcpCsum then [] else tcpCalcChecksumReads tcph len ++ [⟨iph + 12, 8⟩]
    if !dev.rxTcpCsum &&
        tcpCalcChecksum mem tcph len (word32 mem (iph + 12)) (word32 mem (iph + 16)) ≠ 0 then
      { reads := fixed ++ summed }
    else
      let ports : List Read := [⟨iph + 12, 8⟩, ⟨tcph, 4⟩, ⟨tcph + 13, 1⟩]
      if h.copies && decide (0 < payloadlen) then
        { reads := fixed ++ summed ++ ports ++ [⟨payload, payloadlen.toNat⟩]
          payloadlen := some payloadlen }
      else { reads := fixed ++ summed ++ ports }

/-- An echo reply copies what is left behind the header; the length is cut to sixteen bits.
`ICMPChecksum` asserts that its length is not negative. -/
def processICMPPacket (dev : Device) (h : Handling) (mem : Memory) (ipLen : Nat) : Access :=
  let iph := ethLen
  let ihl := ihlOf mem
  let icmph := iph + 4 * ihl
  if word32 mem (iph + 16) ∈ dev.addrs then
    let seen : List Read := [⟨iph + 16, 4⟩, ⟨icmph, 1⟩]
    if mem icmph = 8 ∧ 4 * ihl ≤ ipLen then
      let len := ipLen - 4 * ihl
      let summed : List Read := [⟨icmph, len⟩]
      if icmpChecksum mem icmph len h.junk ≠ 0 then { reads := seen ++ summed }
      else
        let echo : List Read := [⟨iph + 12, 8⟩, ⟨icmph + 4, 4⟩]
        let copied : List Read := if h.replies then [⟨icmph + 8, (len + 65528) % 65536⟩] else []
        { reads := seen ++ summed ++ echo ++ copied }
    else { reads := seen }
  else { reads := [⟨iph + 16, 4⟩] }

def Access.after (reads : List Read) (a : Access) : Access := { a with reads := reads ++ a.reads }

def processIPv4Packet (dev : Device) (h : Handling) (mem : Memory) : Access :=
  let iph := ethLen
  let ipLen := ntohs mem (iph + 2)
  let ihl := ihlOf mem
  if ipLen < 20 then { reads := [⟨iph + 2, 2⟩] }
  else
    let summed : List Read := if dev.rxIpCsum then [] else ⟨iph, 1⟩ :: ipFastCsumReads iph ihl
    if !dev.rxIpCsum && ipFastCsum mem iph ihl ≠ 0 then { reads := ⟨iph + 2, 2⟩ :: summed }
    else if (mem iph).toNat / 16 ≠ 4 then { reads := ⟨iph + 2, 2⟩ :: summed ++ [⟨iph, 1⟩] }
    else
      Access.after (⟨iph + 2, 2⟩ :: summed ++ [⟨iph, 1⟩, ⟨iph + 9, 1⟩]) <|
        match (mem (iph + 9)).toNat with
        | 6 => processTCPPacket dev h mem ipLen
        | 1 => processICMPPacket dev h mem ipLen
        | _ => { reads := [] }

def processPacket (dev : Device) (h : Handling) (mem : Memory) : Access :=
  Access.after [⟨12, 2⟩] <|
    match ntohs mem 12 with
    | 2048 => processIPv4Packet dev h mem
    | 2054 => processARPPacket dev h mem
    | _ => { reads := [] }

def Safe (a : Access) (len : Nat) : Prop :=
  InBounds a.reads len ∧ ∀ n, a.payloadlen = some n → 0 ≤ n

/-! How long a frame has to be for what its headers make the functions load. -/

/-- The header up to the window, the addresses, and what the total length announces: with the byte
that pads an odd checksum, or the payload if it is copied. -/
def tcpNeeds (dev : Device) (h : Handling) (mem : Memory) (ipLen : Nat) : Nat :=
  let tcph := ethLen + 4 * ihlOf mem
  let headers := 4 * (ihlOf mem + (mem (tcph + 12)).toNat / 16)
  max (tcph + 16) <|
    if ipLen < headers then 0
    else max 34 <|
      if !dev.rxTcpCsum then ethLen + ipLen + ipLen % 2
      else if h.copies && decide (headers < ipLen) then ethLen + ipLen
      else 0

/-- An echo request has to cover its total length. One that is shorter than an ICMP header
and has a matching checksum makes the reply copy almost 64 kB. -/
def icmpNeeds (dev : Device) (h : Handling) (mem : Memory) (ipLen : Nat) : Nat :=
  let icmph := ethLen + 4 * ihlOf mem
  max 34 <|
    if word32 mem (ethLen + 16) ∈ dev.addrs then
      max (icmph + 1) <|
        if mem icmph = 8 ∧ 4 * ihlOf mem ≤ ipLen then
          let len := ipLen - 4 * ihlOf mem
          max (ethLen + ipLen) <|
            if icmpChecksum mem icmph len h.junk ≠ 0 then 0
            else
              max (icmph + 8)
                (if h.replies && decide (len < 8) then ethLen + ipLen + 65536 else 0)
        else 0
    else 0

def ipNeeds (dev : Device) (h : Handling) (mem : Memory) : Nat :=
  let ipLen := ntohs mem (ethLen + 2)
  if ipLen < 20 then 18
  else
    max (if !dev.rxIpCsum && decide (4 < ihlOf mem) then ethLen + 4 * ihlOf mem else 18) <|
      if !dev.rxIpCsum && ipFastCsum mem ethLen (ihlOf mem) ≠ 0 then 0
      else if (mem ethLen).toNat / 16 ≠ 4 then 0
      else max 24 <|
        match (mem (ethLen + 9)).toNat with
        | 6 => tcpNeeds dev h mem ipLen
        | 1 => icmpNeeds dev h mem ipLen
        | _ => 0

def bytesNeeded (dev : Device) (h : Handling) (mem : Memory) : Nat :=
  match ntohs mem 12 with
  | 2048 => ipNeeds dev h mem
  | 2054 => 42
  | _ => 14

variable (dev : Device) (h : Handling) (mem : Memory) (len : Nat)

theorem ntohs_lt (i : Nat) : ntohs mem i < 65536 := by
  have h1 := (mem i).toNat_lt
  have h2 := (mem (i + 1)).toNat_lt
  unfold ntohs
  omega

theorem inBounds_arp : InBounds (processARPPacket dev h mem).reads len ↔ 42 ≤ len := by
  unfold processARPPacket ethLen
  dsimp only
  split
  · split
    · cases h.known <;> simp [inBounds_cons, inBounds_nil] <;> omega
    · cases h.known <;> simp [inBounds_cons, inBounds_nil] <;> omega
    · simp [inBounds_cons, inBounds_nil]
      omega
  · simp [inBounds_cons, inBounds_nil]

theorem checksum_length {ipLen ihl doff : Nat} (hlen : ipLen < 65536)
    (hlong : 4 * (ihl + doff) ≤ ipLen) :
    ((4 * doff : Nat) + ((ipLen : Int) - (ethLen + 4 * ihl + 4 * doff - ethLen : Nat))).toNat %
      65536 = ipLen - 4 * ihl := by
  omega

theorem payload_pos {ipLen ihl doff : Nat} :
    decide (0 < (ipLen : Int) - (ethLen + 4 * ihl + 4 * doff - ethLen : Nat)) =
      decide (4 * (ihl + doff) < ipLen) := by
  apply decide_eq_decide.mpr
  omega

theorem inBounds_tcp {ipLen : Nat} (hlen : ipLen < 65536) :
    InBounds (processTCPPacket dev h mem ipLen).reads len ↔ tcpNeeds dev h mem ipLen ≤ len := by
  unfold processTCPPacket tcpNeeds
  dsimp only
  generalize ihlOf mem = ihl
  generalize (mem (ethLen + 4 * ihl + 12)).toNat / 16 = doff
  by_cases hshort : ipLen < 4 * (ihl + doff)
  · rw [if_pos hshort, if_pos hshort]
    simp only [inBounds_cons, inBounds_nil, and_true, Nat.max_le, ethLen]
    omega
  · rw [if_neg hshort, if_neg hshort, checksum_length hlen (not_lt.mp hshort), payload_pos]
    generalize tcpCalcChecksum mem _ _ _ _ = sum
    unfold tcpCalcChecksumReads
    -- the payload is part of the checksum range if there is one
    cases dev.rxTcpCsum <;> by_cases hsum : sum = 0 <;> cases h.copies <;>
      by_cases hpay : 4 * (ihl + doff) < ipLen <;>
      simp only [hsum, hpay, Bool.not_false, Bool.not_true, Bool.true_and, Bool.false_and,
        ne_eq, not_true_eq_false, not_false_eq_true, decide_true, decide_false, if_true, if_false,
        Bool.false_eq_true] <;>
      simp only [inBounds_append, inBounds_cons, inBounds_nil, and_true, Nat.max_le, ethLen] <;>
      omega

theorem inBounds_icmp (ipLen : Nat) :
    InBounds (processICMPPacket dev h mem ipLen).reads len ↔ icmpNeeds dev h mem ipLen ≤ len := by
  unfold processICMPPacket icmpNeeds
  dsimp only
  generalize ihlOf mem = ihl
  by_cases hme : word32 mem (ethLen + 16) ∈ dev.addrs
  · rw [if_pos hme, if_pos hme]
    by_cases hecho : mem (ethLen + 4 * ihl) = 8 ∧ 4 * ihl ≤ ipLen
    · rw [if_pos hecho, if_pos hecho]
      generalize icmpChecksum mem _ _ _ = sum
      by_cases hsum : sum = 0 <;> cases h.replies <;>
        simp only [hsum, Bool.true_and, Bool.false_and, ne_eq, not_true_eq_false,
          not_false_eq_true, if_true, if_false, Bool.false_eq_true, decide_eq_true_eq] <;>
        simp only [inBounds_append, inBounds_cons, inBounds_nil, and_true, Nat.max_le, ethLen] <;>
        (try split) <;> omega
    · rw [if_neg hecho, if_neg hecho]
      simp only [inBounds_cons, inBounds_nil, and_true, Nat.max_le, ethLen]
      omega
  · rw [if_neg hme, if_neg hme]
    simp only [inBounds_cons, inBounds_nil, and_true, Nat.max_le, ethLen]
    omega

theorem inBounds_ipHeader (ihl : Nat) : InBounds (⟨ethLen + 2, 2⟩ ::
      (if dev.rxIpCsum then [] else ⟨ethLen, 1⟩ :: ipFastCsumReads ethLen ihl)) len ↔
    (if !dev.rxIpCsum && decide (4 < ihl) then ethLen + 4 * ihl else 18) ≤ len := by
  unfold ipFastCsumReads
  by_cases hihl : 4 < ihl
  · cases dev.rxIpCsum <;>
      simp only [hihl, not_le.mpr hihl, inBounds_cons, inBounds_nil, and_true, Bool.not_false,
        Bool.not_true, Bool.true_and, Bool.false_and, decide_true, if_true, if_false,
        Bool.false_eq_true, ethLen] <;>
      omega
  · cases dev.rxIpCsum <;>
      simp only [hihl, not_lt.mp hihl, inBounds_cons, inBounds_nil, and_true, Bool.not_false,
        Bool.not_true, Bool.true_and, Bool.false_and, decide_false, if_true, if_false,
        Bool.false_eq_true, ethLen] <;>
      omega

theorem le_ipHeader (ihl : Nat) :
    18 ≤ if !dev.rxIpCsum && decide (4 < ihl) then ethLen + 4 * ihl else 18 := by
  split
  · next hihl =>
    have hlt := of_decide_eq_true (Bool.and_eq_true_iff.mp hihl).2
    omega
  · exact le_rfl

theorem inBounds_protocol (proto : Nat) {ipLen : Nat} (hlen : ipLen < 65536) :
    InBounds (match proto with
      | 6 => processTCPPacket dev h mem ipLen
      | 1 => processICMPPacket dev h mem ipLen
      | _ => { reads := [] }).reads len ↔ (match proto with
      | 6 => tcpNeeds dev h mem ipLen
      | 1 => icmpNeeds dev h mem ipLen
      | _ => 0) ≤ len := by
  split
  · exact inBounds_tcp dev h mem len hlen
  · exact inBounds_icmp dev h mem len ipLen
  · exact ⟨fun _ => Nat.zero_le len, fun _ => inBounds_nil len⟩

theorem inBounds_ip :
    InBounds (processIPv4Packet dev h mem).reads len ↔ ipNeeds dev h mem ≤ len := by
  have hproto := inBounds_protocol dev h mem len (mem (ethLen + 9)).toNat
    (ntohs_lt mem (ethLen + 2))
  have hheader := inBounds_ipHeader dev len (ihlOf mem)
  have hge := le_ipHeader dev (ihlOf mem)
  unfold processIPv4Packet ipNeeds
  dsimp only
  generalize ntohs mem (ethLen + 2) = ipLen at hproto ⊢
  generalize (if !dev.rxIpCsum && decide (4 < ihlOf mem) then ethLen + 4 * ihlOf mem else 18) =
    needed at hheader hge ⊢
  by_cases hshort : ipLen < 20
  · rw [if_pos hshort, if_pos hshort]
    simp only [inBounds_cons, inBounds_nil, and_true, ethLen]
    omega
  rw [if_neg hshort, if_neg hshort]
  by_cases hsum : (!dev.rxIpCsum && decide (ipFastCsum mem ethLen (ihlOf mem) ≠ 0))
  · rw [if_pos hsum, if_pos hsum, Nat.max_zero]
    exact hheader
  rw [if_neg hsum, if_neg hsum]
  by_cases hver : (mem ethLen).toNat / 16 ≠ 4
  · rw [if_pos hver, if_pos hver, inBounds_append, hheader]
    simp only [inBounds_cons, inBounds_nil, and_true, ethLen]
    omega
  rw [if_neg hver, if_neg hver]
  unfold Access.after
  rw [inBounds_append, inBounds_append, hheader, hproto, Nat.max_le, Nat.max_le]
  simp only [inBounds_cons, inBounds_nil, and_true, ethLen]
  omega

theorem inBounds_packet :
    InBounds (processPacket dev h mem).reads len ↔ bytesNeeded dev h mem ≤ len := by
  have hip := inBounds_ip dev h mem len
  have harp := inBounds_arp dev h mem len
  have hge : 18 ≤ ipNeeds dev h mem := by
    unfold ipNeeds
    dsimp only
    split
    · exact le_rfl
    · exact le_max_of_le_left (le_ipHeader dev (ihlOf mem))
  unfold processPacket bytesNeeded Access.after
  rw [inBounds_append]
  simp only [inBounds_cons, inBounds_nil, and_true]
  split
  · rw [hip]
    omega
  · rw [harp]
    omega
  · simp only [inBounds_nil, and_true]
    omega

theorem payloadlen_nonneg {n : Int} (hn : (processPacket dev h mem).payloadlen = some n) :
    0 ≤ n := by
  have htcp : ∀ ipLen, (processTCPPacket dev h mem ipLen).payloadlen = some n → 0 ≤ n := by
    intro ipLen hp
    unfold processTCPPacket at hp
    dsimp only at hp
    split at hp
    · cases hp
    · split at hp
      · cases hp
      · split at hp
        · next hpos =>
          have hlt := of_decide_eq_true (Bool.and_eq_true_iff.mp hpos).2
          exact (Option.some.inj hp) ▸ hlt.le
        · cases hp
  have hicmp : ∀ ipLen, (processICMPPacket dev h mem ipLen).payloadlen = none := by
    intro ipLen
    unfold processICMPPacket
    dsimp only
    split_ifs <;> rfl
  have harp : (processARPPacket dev h mem).payloadlen = none := by
    unfold processARPPacket
    dsimp only
    split
    · split <;> rfl
    · rfl
  unfold processPacket processIPv4Packet Access.after at hn
  dsimp only at hn
  split at hn
  · split at hn
    · cases hn
    · split at hn
      · cases hn
      · split at hn
        · cases hn
        · dsimp only at hn
          split at hn
          · exact htcp _ hn
          · rw [hicmp] at hn
            cases hn
          · cases hn
  · rw [harp] at hn
    cases hn
  · cases hn

/-- A frame is only read inside its bounds just when it is as long as its own headers make
the stack believe. -/
theorem frame_reads_in_bounds_iff :
    Safe (processPacket dev h mem) len ↔ bytesNeeded dev h mem ≤ len :=
  ⟨fun hsafe => (inBounds_packet dev h mem len).mp hsafe.1, fun hlen =>
    ⟨(inBounds_packet dev h mem len).mpr hlen, fun _ hn => payloadlen_nonneg dev h mem hn⟩⟩

/-- A frame with a TCP header of five words and the given total length, zero elsewhere. -/
def tcpFrame (totLen check : UInt8) : Memory := fun i =>
  ([0, 0, 0, 0, 0, 0, 0, 0, 0, 0, 0, 0, 8, 0,
    69, 0, 0, totLen, 0, 0, 0, 0, 64, 6, 102, check, 10, 0, 0, 1, 10, 0, 0, 2,
    0, 0, 0, 0, 0, 0, 0, 0, 0, 0, 0, 0, 80]).getD i 0

def plainDevice : Device := ⟨false, false, [33554442], by decide⟩

/-- A total length of 64 bytes makes the checksum run over the end of a frame of 60 bytes, and
an odd total length makes it load a byte behind a frame that ends with the segment. -/
theorem frame_read_past_end :
    ¬ Safe (processPacket plainDevice ⟨true, false, false, 0⟩ (tcpFrame 64 182)) 60 ∧
    ¬ Safe (processPacket plainDevice ⟨true, false, false, 0⟩ (tcpFrame 61 185)) 75 := by
  have hlong : (⟨34, 44⟩ : Read) ∈
      (processPacket plainDevice ⟨true, false, false, 0⟩ (tcpFrame 64 182)).reads := by decide
  have hodd : (⟨34, 42⟩ : Read) ∈
      (processPacket plainDevice ⟨true, false, false, 0⟩ (tcpFrame 61 185)).reads := by decide
  exact ⟨fun hsafe => absurd (hsafe.1 _ hlong 26 (by decide)) (by decide),
    fun hsafe => absurd (hsafe.1 _ hodd 41 (by decide)) (by decide)⟩

end Mtcp.Frames
