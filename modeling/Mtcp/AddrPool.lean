import Mathlib.Data.List.Nodup
import Mtcp.Rss

namespace Mtcp.Flows

open List UInt32 Option

/-! `addr_pool.c`: the pools that sources of outgoing connections are taken from. -/

/-- The address and port of an end, as in `struct sockaddr_in`: in network byte order. -/
structure Addr where
  addr : UInt32
  port : UInt16
  deriving DecidableEq, Repr

/-- `struct addr_pool`. The mapper has a pointer for each entry of `pool`. -/
structure AddrPool where
  addrBase : UInt32
  numAddr : Int32
  pool : List Addr
  free : List Addr
  used : List Addr := []

/-- The pairs of the nested loops, in host byte order: `MIN_PORT` is 1025, `MAX_PORT` 65536. -/
def candidates (addrBase : UInt32) (numAddr : Int32) : List (UInt32 × UInt16) :=
  (List.range numAddr.toInt.toNat).flatMap fun i =>
    (List.range' 1025 64511).map fun j => (addrBase + UInt32.ofNat i, UInt16.ofNat j)

def entry (a : UInt32 × UInt16) : Addr := ⟨htonl a.1, htons a.2⟩

/-- `num_addr * (MAX_PORT - MIN_PORT)`. A negative number gets no memory, one beyond `int` has no
meaning. -/
def numEntry (numAddr : Int32) : Option Nat :=
  let n := numAddr.toInt * 64511
  if 0 ≤ n ∧ n < 2 ^ 31 then some n.toNat else none

def AddrPool.ofEntries (addrBase : UInt32) (numAddr : Int32) (pool : List Addr) : AddrPool where
  addrBase := addrBase
  numAddr := numAddr
  pool := pool
  free := pool

def createAddressPool (addrBase : UInt32) (numAddr : Int32) : Option AddrPool :=
  (numEntry numAddr).map fun _ =>
    .ofEntries (ntohl addrBase) numAddr ((candidates (ntohl addrBase) numAddr).map entry)

/-- The test of `CreateAddressPoolPerCore`: the replies of a destination to the source are
steered to the core. -/
def friendly (core numQueues : Nat) (endianCheck : Bool) (dest : Addr) (a : UInt32 × UInt16) :
    Bool :=
  getRSSCPUCore (ntohl dest.addr) a.1 (ntohs dest.port) a.2 numQueues endianCheck == core

/-- `CreateAddressPoolPerCore`: the sources that suit the core and one destination. -/
def createAddressPoolPerCore (core numQueues : Nat) (endianCheck : Bool) (saddrBase : UInt32)
    (numAddr : Int32) (dest : Addr) : Option AddrPool :=
  (numEntry numAddr).map fun n =>
    .ofEntries (ntohl saddrBase) numAddr
      ((((candidates (ntohl saddrBase) numAddr).filter
        (friendly core numQueues endianCheck dest)).take (n / numQueues)).map entry)

/-- What `FetchAddress` asks of a free entry; 0 stands for any address or port. -/
def eligible (core numQueues : Nat) (endianCheck : Bool) (dest saddr e : Addr) : Bool :=
  (saddr.addr == 0 || e.addr == saddr.addr) && (saddr.port == 0 || e.port == saddr.port) &&
    getRSSCPUCore (ntohl e.addr) (ntohl dest.addr) (ntohs e.port) (ntohs dest.port) numQueues
      endianCheck == core

def AddrPool.take (e : Addr) (ap : AddrPool) : AddrPool :=
  { ap with free := ap.free.erase e, used := ap.used ++ [e] }

def fetchAddress (core numQueues : Nat) (endianCheck : Bool) (dest saddr : Addr) (ap : AddrPool) :
    Option (Addr × AddrPool) :=
  (ap.free.find? (eligible core numQueues endianCheck dest saddr)).map fun e => (e, ap.take e)

/-- `FetchAddressPerCore`: the first free entry, whatever the destination. -/
def fetchAddressPerCore (ap : AddrPool) : Option (Addr × AddrPool) :=
  ap.free.head?.map fun e => (e, ap.take e)

/-- Whether the index into the mapper is in range, and the pointer there set. -/
def AddrPool.maps (ap : AddrPool) (e : Addr) : Bool :=
  let index := (ntohl e.addr - ap.addrBase).toInt32
  decide (0 ≤ index) && decide (index < ap.numAddr) && ap.pool.contains e

inductive Freed where
  | failed
  | done (ap : AddrPool)
  | corrupted

/-- `FreeAddress`. `TAILQ_REMOVE` takes an entry from whichever list it is on, but it is given
the head of the used list: of a free entry at the end of its list it makes a broken list. -/
def freeAddress (e : Addr) (ap : AddrPool) : Freed :=
  if !ap.maps e then .failed
  else if ap.used.contains e then
    .done { ap with used := ap.used.erase e, free := ap.free ++ [e] }
  else if ap.free.getLast? = some e then .corrupted
  else .done { ap with free := ap.free.erase e ++ [e] }

/-- The entries of a pool are its free ones and its used ones, each of them once. -/
structure AddrPool.Sound (ap : AddrPool) : Prop where
  perm : (ap.free ++ ap.used).Perm ap.pool
  nodup : ap.pool.Nodup

variable {ap ap' : AddrPool} {e x : Addr}

theorem AddrPool.Sound.mem_pool (h : ap.Sound) (hx : x ∈ ap.free) : x ∈ ap.pool :=
  h.perm.subset (mem_append_left _ hx)

theorem AddrPool.Sound.nodup_free (h : ap.Sound) : ap.free.Nodup :=
  (nodup_append.mp (h.perm.nodup_iff.mpr h.nodup)).1

theorem AddrPool.Sound.not_mem_used (h : ap.Sound) (hx : x ∈ ap.free) : x ∉ ap.used := fun hu =>
  (nodup_append.mp (h.perm.nodup_iff.mpr h.nodup)).2.2 x hx x hu rfl

theorem AddrPool.Sound.take (h : ap.Sound) (he : e ∈ ap.free) : (ap.take e).Sound := by
  refine ⟨?_, h.nodup⟩
  have hfree : (ap.free.erase e ++ (ap.used ++ [e])).Perm (e :: ap.free.erase e ++ ap.used) := by
    rw [← append_assoc]
    exact perm_append_singleton e _
  exact (hfree.trans ((perm_cons_erase he).symm.append_right _)).trans h.perm

theorem AddrPool.Sound.mem_take_free (h : ap.Sound) :
    x ∈ (ap.take e).free ↔ x ∈ ap.free ∧ x ≠ e := by
  rw [and_comm]
  exact h.nodup_free.mem_erase_iff

variable {addrBase : UInt32} {core numQueues : Nat} {endianCheck : Bool} {base : UInt32}
  {numAddr : Int32}

theorem fetchAddress_eq_some {dest saddr : Addr}
    (h : fetchAddress core numQueues endianCheck dest saddr ap = some (e, ap')) :
    e ∈ ap.free ∧ eligible core numQueues endianCheck dest saddr e ∧ ap' = ap.take e := by
  obtain ⟨x, hx, hpair⟩ := map_eq_some_iff.mp h
  obtain ⟨rfl, rfl⟩ := Prod.mk.injEq .. ▸ hpair
  exact ⟨mem_of_find?_eq_some hx, find?_some hx, rfl⟩

theorem fetchAddressPerCore_eq_some (h : fetchAddressPerCore ap = some (e, ap')) :
    e ∈ ap.free ∧ ap' = ap.take e := by
  obtain ⟨x, hx, hpair⟩ := map_eq_some_iff.mp h
  obtain ⟨rfl, rfl⟩ := Prod.mk.injEq .. ▸ hpair
  exact ⟨mem_of_head? hx, rfl⟩

/-- What `FreeAddress` does to a pool: at most the one entry is free that was not before. -/
theorem freeAddress_eq_done (h : freeAddress e ap = .done ap') :
    e ∈ ap.pool ∧ ap'.pool = ap.pool ∧ (∀ x ∈ ap'.free, x ∈ ap.free ∨ x = e) ∧
      (ap.Sound → ap'.Sound) := by
  unfold freeAddress at h
  by_cases hmaps : (!ap.maps e)
  · rw [if_pos hmaps] at h
    exact absurd h Freed.noConfusion
  rw [if_neg hmaps] at h
  have hmem : e ∈ ap.pool := by
    simp only [AddrPool.maps, Bool.not_eq_true, Bool.not_eq_false', Bool.and_eq_true,
      contains_eq_mem, decide_eq_true_eq] at hmaps
    exact hmaps.2
  by_cases hused : ap.used.contains e
  · rw [if_pos hused] at h
    injection h with h
    subst h
    have hin : e ∈ ap.used := by simpa using hused
    refine ⟨hmem, rfl, fun x hx => by simpa using hx, fun hs => ⟨?_, hs.nodup⟩⟩
    have hperm : (ap.free ++ [e] ++ ap.used.erase e).Perm (ap.free ++ ap.used) := by
      rw [append_assoc]
      exact (perm_cons_erase hin).symm.append_left _
    exact hperm.trans hs.perm
  rw [if_neg hused] at h
  by_cases hlast : ap.free.getLast? = some e
  · rw [if_pos hlast] at h
    exact absurd h Freed.noConfusion
  rw [if_neg hlast] at h
  injection h with h
  subst h
  refine ⟨hmem, rfl, fun x hx => ?_, fun hs => ⟨?_, hs.nodup⟩⟩
  · obtain hx | hx := mem_append.mp hx
    · exact .inl (mem_of_mem_erase hx)
    · exact .inr (mem_singleton.mp hx)
  · have hin : e ∈ ap.free := by
      obtain hf | hu := mem_append.mp (hs.perm.symm.subset hmem)
      · exact hf
      · exact absurd (by simpa using hu) hused
    have hperm : (ap.free.erase e ++ [e] ++ ap.used).Perm (ap.free ++ ap.used) :=
      ((perm_append_singleton e _).trans (perm_cons_erase hin).symm).append_right _
    exact hperm.trans hs.perm

theorem freeAddress_maps (h : freeAddress e ap = .done ap') : ap'.maps = ap.maps := by
  unfold freeAddress at h
  split_ifs at h
  · injection h with h
    subst h
    rfl
  · injection h with h
    subst h
    rfl

theorem entry_injective : Function.Injective entry := by
  intro a b h
  injection h with haddr hport
  have haddr' := congrArg ntohl haddr
  have hport' := congrArg ntohs hport
  rw [ntohl_htonl, ntohl_htonl] at haddr'
  rw [ntohs_htons, ntohs_htons] at hport'
  exact Prod.ext haddr' hport'

theorem ofEntries_sound {pool : List Addr} (h : pool.Nodup) :
    (AddrPool.ofEntries addrBase numAddr pool).Sound :=
  ⟨by rw [AddrPool.ofEntries, append_nil], h⟩

theorem candidate_ports_nodup (addr : UInt32) :
    ((range' 1025 64511).map fun j => (addr, UInt16.ofNat j)).Nodup := by
  apply List.Nodup.map_on _ nodup_range'
  intro i hi j hj h
  have hi' := mem_range'_1.mp hi
  have hj' := mem_range'_1.mp hj
  have hport := congrArg UInt16.toNat (Prod.ext_iff.mp h).2
  rw [UInt16.toNat_ofNat', UInt16.toNat_ofNat'] at hport
  omega

theorem candidates_nodup (addrBase : UInt32) (numAddr : Int32) :
    (candidates addrBase numAddr).Nodup := by
  refine List.nodup_flatMap.mpr ⟨fun i _ => candidate_ports_nodup _, ?_⟩
  apply List.Nodup.pairwise_of_forall_ne List.nodup_range
  intro i hi j hj hne x hxi hxj
  obtain ⟨p, -, rfl⟩ := mem_map.mp hxi
  obtain ⟨q, -, hq⟩ := mem_map.mp hxj
  have haddr := (Prod.ext_iff.mp hq).1
  have hoff := congrArg UInt32.toNat ((UInt32.add_right_inj _).mp haddr)
  have hlt := numAddr.toInt_lt
  have hi' := mem_range.mp hi
  have hj' := mem_range.mp hj
  rw [toNat_ofNat', toNat_ofNat'] at hoff
  omega

theorem createAddressPool_sound (h : createAddressPool addrBase numAddr = some ap) : ap.Sound := by
  obtain ⟨n, -, rfl⟩ := map_eq_some_iff.mp h
  exact ofEntries_sound ((candidates_nodup _ _).map entry_injective)

theorem createAddressPoolPerCore_sound {saddrBase : UInt32} {numAddr : Int32} {dest : Addr}
    (h : createAddressPoolPerCore core numQueues endianCheck saddrBase numAddr dest = some ap) :
    ap.Sound := by
  obtain ⟨n, -, rfl⟩ := map_eq_some_iff.mp h
  have hfilter := (candidates_nodup (ntohl saddrBase) numAddr).filter
    (friendly core numQueues endianCheck dest)
  exact ofEntries_sound ((hfilter.sublist (take_sublist _ _)).map entry_injective)

theorem mem_createAddressPoolPerCore {saddrBase : UInt32} {numAddr : Int32} {dest : Addr}
    (h : createAddressPoolPerCore core numQueues endianCheck saddrBase numAddr dest = some ap)
    (he : e ∈ ap.pool) :
    getRSSCPUCore (ntohl dest.addr) (ntohl e.addr) (ntohs dest.port) (ntohs e.port) numQueues
      endianCheck = core := by
  obtain ⟨n, -, rfl⟩ := map_eq_some_iff.mp h
  obtain ⟨a, ha, rfl⟩ := mem_map.mp he
  have hfriendly := (mem_filter.mp (mem_of_mem_take ha)).2
  rw [entry, ntohl_htonl, ntohs_htons]
  simpa [friendly] using hfriendly

theorem mem_createAddressPool_one (h : createAddressPool addrBase 1 = some ap) (he : e ∈ ap.pool) :
    e.addr = addrBase := by
  obtain ⟨n, -, rfl⟩ := map_eq_some_iff.mp h
  obtain ⟨a, ha, rfl⟩ := mem_map.mp he
  obtain ⟨i, hi, ha⟩ := mem_flatMap.mp ha
  obtain ⟨j, -, rfl⟩ := mem_map.mp ha
  have hzero : i = 0 := Nat.lt_one_iff.mp (mem_range.mp hi)
  subst hzero
  change htonl (ntohl addrBase + 0) = addrBase
  rw [UInt32.add_zero]
  exact Toeplitz.swap32_swap32 addrBase

/-! Every entry of a pool is found by the mapper. -/

theorem candidate_index {a : UInt32 × UInt16} (h : a ∈ candidates base numAddr) :
    0 ≤ (a.1 - base).toInt32 ∧ (a.1 - base).toInt32 < numAddr := by
  obtain ⟨n, hn, ha⟩ := mem_flatMap.mp h
  obtain ⟨j, -, rfl⟩ := mem_map.mp ha
  have hlt := mem_range.mp hn
  have hmax := numAddr.toInt_lt
  have hsub : base + ofNat n - base = ofNat n := by
    rw [UInt32.add_comm, UInt32.add_sub_cancel]
  have hint : (ofNat n).toInt32.toInt = n := Int32.toInt_ofNat_of_lt (by omega)
  simp only [hsub, Int32.le_iff_toInt_le, Int32.lt_iff_toInt_lt, hint]
  constructor
  · exact Int.natCast_nonneg n
  · omega

theorem ofEntries_maps {as : List (UInt32 × UInt16)} (has : ∀ a ∈ as, a ∈ candidates base numAddr) :
    ∀ e ∈ as.map entry, (AddrPool.ofEntries base numAddr (as.map entry)).maps e := by
  intro e he
  obtain ⟨a, ha, rfl⟩ := mem_map.mp he
  obtain ⟨hnonneg, hlt⟩ := candidate_index (has a ha)
  simp only [AddrPool.maps, AddrPool.ofEntries, entry, ntohl_htonl, Bool.and_eq_true,
    decide_eq_true_eq, contains_eq_mem]
  exact ⟨⟨hnonneg, hlt⟩, mem_map.mpr ⟨a, ha, rfl⟩⟩

theorem createAddressPool_maps (h : createAddressPool base numAddr = some ap) :
    ∀ e ∈ ap.pool, ap.maps e := by
  obtain ⟨n, -, rfl⟩ := map_eq_some_iff.mp h
  exact ofEntries_maps fun _ => id

theorem createAddressPoolPerCore_maps {dest : Addr}
    (h : createAddressPoolPerCore core numQueues endianCheck base numAddr dest = some ap) :
    ∀ e ∈ ap.pool, ap.maps e := by
  obtain ⟨n, -, rfl⟩ := map_eq_some_iff.mp h
  exact ofEntries_maps fun _ ha => (mem_filter.mp (mem_of_mem_take ha)).1

theorem freeAddress_of_used (h : ap.Sound) (hmaps : ∀ e ∈ ap.pool, ap.maps e)
    (he : e ∈ ap.used) : freeAddress e ap =
      .done { ap with used := ap.used.erase e, free := ap.free ++ [e] } := by
  have hpool : e ∈ ap.pool := h.perm.subset (mem_append_right _ he)
  unfold freeAddress
  rw [hmaps _ hpool, if_neg (by decide), if_pos (by simpa using he)]

end Mtcp.Flows
