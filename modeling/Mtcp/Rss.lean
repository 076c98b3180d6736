import Mtcp.Toeplitz

namespace Mtcp.Flows

open Toeplitz

/-! `rss.c`: which queue of the network card, and so which core, a connection is steered to. -/

/-- The machine is little-endian. -/
def ntohl (x : UInt32) : UInt32 := swap32 x

def htonl (x : UInt32) : UInt32 := swap32 x

def ntohs (x : UInt16) : UInt16 := swap16 x

def htons (x : UInt16) : UInt16 := swap16 x

@[simp]
theorem ntohl_htonl (x : UInt32) : ntohl (htonl x) = x := swap32_swap32 x

@[simp]
theorem ntohs_htons (x : UInt16) : ntohs (htons x) = x := swap16_swap16 x

def rssKey : List UInt8 := List.replicate 40 0x05

/-- The loop of `BuildKeyCache`: a window of 32 bits moves along the key. -/
def buildKeyCache (key : List UInt8) : Nat → UInt32 → Nat → List UInt32
  | 0, _, _ => []
  | cacheLen + 1, result, idx =>
    let shift := UInt32.ofNat (idx % 8)
    let bit : UInt32 := if ((key.getD (idx / 8) 0).toUInt32 <<< shift) &&& 0x80 ≠ 0
      then 1 else 0
    result :: buildKeyCache key cacheLen ((result <<< 1) ||| bit) (idx + 1)

/-- `key_cache`, filled on the first call of `GetRSSHash`. -/
def keyCache : List UInt32 :=
  let key := fun i => (rssKey.getD i 0).toUInt32
  buildKeyCache rssKey 96 (key 0 <<< 24 ||| key 1 <<< 16 ||| key 2 <<< 8 ||| key 3) 32

/-- `GetRSSHash`: one loop for each field. -/
def getRSSHash (sip dip : UInt32) (sp dp : UInt16) : UInt32 :=
  let res := absorb sip.toBitVec (keyCache.take 32) 0
  let res := absorb dip.toBitVec ((keyCache.drop 32).take 32) res
  let res := absorb sp.toBitVec ((keyCache.drop 64).take 16) res
  absorb dp.toBitVec ((keyCache.drop 80).take 16) res

/-- The redirection table of the card. -/
def redirect (hash : UInt32) (numQueues : Nat) (endianCheck : Bool) : Nat :=
  let masked := hash &&& 0x7f
  let masked := if endianCheck then masked + [3, 1, -1, -3].getD (masked &&& 3).toNat 0 else masked
  masked.toNat % numQueues

def getRSSCPUCore (sip dip : UInt32) (sp dp : UInt16) (numQueues : Nat) (endianCheck : Bool) :
    Nat :=
  redirect (getRSSHash sip dip sp dp) numQueues endianCheck

/-- Every byte of a field meets the same eight keys. -/
def byteKeys : List UInt32 := keyCache.take 8

theorem keys_ip : keyCache.take 32 = (byteKeys ++ byteKeys) ++ (byteKeys ++ byteKeys) ∧
    (keyCache.drop 32).take 32 = (byteKeys ++ byteKeys) ++ (byteKeys ++ byteKeys) := by
  decide +kernel

theorem keys_port : (keyCache.drop 64).take 16 = byteKeys ++ byteKeys ∧
    (keyCache.drop 80).take 16 = byteKeys ++ byteKeys := by
  decide +kernel

theorem length_byteKeys : byteKeys.length = 8 := by decide

def endHash (ip : UInt32) (port : UInt16) : UInt32 :=
  absorb ip.toBitVec ((byteKeys ++ byteKeys) ++ (byteKeys ++ byteKeys)) 0 ^^^
    absorb port.toBitVec (byteKeys ++ byteKeys) 0

theorem getRSSHash_eq_xor (sip dip : UInt32) (sp dp : UInt16) :
    getRSSHash sip dip sp dp = endHash sip sp ^^^ endHash dip dp := by
  unfold getRSSHash endHash
  rw [keys_ip.1, keys_ip.2, keys_port.1, keys_port.2, absorb_eq_xor dp.toBitVec,
    absorb_eq_xor sp.toBitVec, absorb_eq_xor dip.toBitVec]
  generalize absorb sip.toBitVec _ 0 = a
  generalize absorb dip.toBitVec _ 0 = b
  generalize absorb sp.toBitVec _ 0 = c
  rw [UInt32.xor_assoc a b c, UInt32.xor_comm b c, ← UInt32.xor_assoc a c b, UInt32.xor_assoc]

theorem getRSSHash_swap_ends (sip dip : UInt32) (sp dp : UInt16) :
    getRSSHash sip dip sp dp = getRSSHash dip sip dp sp := by
  rw [getRSSHash_eq_xor, getRSSHash_eq_xor, UInt32.xor_comm]

theorem endHash_ntoh (ip : UInt32) (port : UInt16) :
    endHash (ntohl ip) (ntohs port) = endHash ip port := by
  rw [endHash, ntohl, ntohs, absorb_swap32 ip length_byteKeys, absorb_swap16 port length_byteKeys,
    endHash]

theorem getRSSCPUCore_ntoh (sip dip : UInt32) (sp dp : UInt16) (numQueues : Nat)
    (endianCheck : Bool) :
    getRSSCPUCore (ntohl sip) (ntohl dip) (ntohs sp) (ntohs dp) numQueues endianCheck =
      getRSSCPUCore sip dip sp dp numQueues endianCheck := by
  rw [getRSSCPUCore, getRSSHash_eq_xor, endHash_ntoh, endHash_ntoh, ← getRSSHash_eq_xor,
    ← getRSSCPUCore]

theorem redirect_mask (h g : UInt32) (numQueues : Nat) (endianCheck : Bool) :
    redirect (h ^^^ g) numQueues endianCheck =
      redirect ((h &&& 0x7f) ^^^ g) numQueues endianCheck := by
  have hmask : (h ^^^ g) &&& 0x7f = ((h &&& 0x7f) ^^^ g) &&& 0x7f := by
    apply UInt32.toBitVec_inj.mp
    ext i hi
    simp
    grind
  unfold redirect
  rw [hmask]

/-- Both directions of a flow, and both byte orders of its fields, select the same core: the pools
ask with the ends the one way or the other in host order, `mtcp_connect` in network order. -/
theorem rss_core_symmetric (sip dip : UInt32) (sp dp : UInt16) (numQueues : Nat)
    (endianCheck : Bool) (hqueues : 1 ≤ numQueues) :
    getRSSCPUCore dip sip dp sp numQueues endianCheck =
        getRSSCPUCore sip dip sp dp numQueues endianCheck ∧
      getRSSCPUCore (ntohl sip) (ntohl dip) (ntohs sp) (ntohs dp) numQueues endianCheck =
        getRSSCPUCore sip dip sp dp numQueues endianCheck ∧
      getRSSCPUCore (ntohl dip) (ntohl sip) (ntohs dp) (ntohs sp) numQueues endianCheck =
        getRSSCPUCore sip dip sp dp numQueues endianCheck ∧
      getRSSCPUCore sip dip sp dp numQueues endianCheck < numQueues := by
  have hswap : getRSSCPUCore dip sip dp sp numQueues endianCheck =
      getRSSCPUCore sip dip sp dp numQueues endianCheck := by
    rw [getRSSCPUCore, getRSSHash_swap_ends, ← getRSSCPUCore]
  refine ⟨hswap, getRSSCPUCore_ntoh sip dip sp dp numQueues endianCheck, ?_, ?_⟩
  · exact (getRSSCPUCore_ntoh dip sip dp sp numQueues endianCheck).trans hswap
  · exact Nat.mod_lt _ hqueues

theorem rss_core_symmetric_four_queues :
    1 ≤ 4 ∧ getRSSCPUCore 0x0200000a 0x0100000a 0x5000 0x0104 4 true =
      getRSSCPUCore 0x0100000a 0x0200000a 0x0104 0x5000 4 true :=
  ⟨by decide, (rss_core_symmetric 0x0100000a 0x0200000a 0x0104 0x5000 4 true (by decide)).1⟩

end Mtcp.Flows
