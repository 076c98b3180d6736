import Mtcp.AddrPool
import Mtcp.Runs

namespace Mtcp.Flows

open Runs

/-! The pools with their counters, and what any sequence of calls leaves in them. -/

structure CountedPool where
  lists : AddrPool
  numEntry : Int
  numFree : Int
  numUsed : Int

/-- The counters as `CreateAddressPool` and `CreateAddressPoolPerCore` set them. -/
def CountedPool.create (ap : AddrPool) : CountedPool := ⟨ap, ap.pool.length, ap.pool.length, 0⟩

inductive Built : CountedPool → Prop where
  | shared {addrBase : UInt32} {numAddr : Int32} {ap : AddrPool}
      (h : createAddressPool addrBase numAddr = some ap) : Built (.create ap)
  | perCore {core numQueues : Nat} {endianCheck : Bool} {saddrBase : UInt32} {numAddr : Int32}
      {dest : Addr} {ap : AddrPool}
      (h : createAddressPoolPerCore core numQueues endianCheck saddrBase numAddr dest = some ap) :
      Built (.create ap)

def CountedPool.taken (p : CountedPool) (r : Addr × AddrPool) : Addr × CountedPool :=
  (r.1, { p with lists := r.2, numFree := p.numFree - 1, numUsed := p.numUsed + 1 })

def CountedPool.fetch (core numQueues : Nat) (endianCheck : Bool) (dest saddr : Addr)
    (p : CountedPool) : Option (Addr × CountedPool) :=
  (fetchAddress core numQueues endianCheck dest saddr p.lists).map p.taken

/-- `FetchAddressPerCore` is given the source that is asked for, and does not look at it. -/
def CountedPool.fetchPerCore (_saddr : Addr) (p : CountedPool) : Option (Addr × CountedPool) :=
  (fetchAddressPerCore p.lists).map p.taken

inductive Released where
  | failed
  | done (p : CountedPool)
  | corrupted

def CountedPool.released (p : CountedPool) : Freed → Released
  | .failed => .failed
  | .done ap => .done { p with lists := ap, numFree := p.numFree + 1, numUsed := p.numUsed - 1 }
  | .corrupted => .corrupted

/-- `FreeAddress` with a mapper, as every pool has one. -/
def CountedPool.freeMapped (e : Addr) (p : CountedPool) : Released :=
  p.released (freeAddress e p.lists)

/-- `FreeAddress` without a mapper: the used list is searched. -/
def CountedPool.freeScanned (e : Addr) (p : CountedPool) : Released :=
  p.released <|
    if p.lists.used.contains e then
      .done { p.lists with used := p.lists.used.erase e, free := p.lists.free ++ [e] }
    else .failed

/-- The source that is asked for; 0 stands for any address or port. -/
def meets (saddr e : Addr) : Bool :=
  (saddr.addr == 0 || e.addr == saddr.addr) && (saddr.port == 0 || e.port == saddr.port)

def suitsCore (core numQueues : Nat) (endianCheck : Bool) (dest e : Addr) : Bool :=
  getRSSCPUCore (ntohl e.addr) (ntohl dest.addr) (ntohs e.port) (ntohs dest.port) numQueues
    endianCheck == core

inductive PoolCall where
  | fetch (core numQueues : Nat) (endianCheck : Bool) (dest saddr : Addr)
  | fetchPerCore (saddr : Addr)
  | free (e : Addr)

structure PoolRun where
  pool : CountedPool
  outstanding : List Addr := []

/-- A release that breaks the lists ends the use of a pool, and is left out of a run. -/
def PoolRun.step (s : PoolRun) : PoolCall → PoolRun
  | .fetch core numQueues endianCheck dest saddr =>
    match s.pool.fetch core numQueues endianCheck dest saddr with
    | some (e, p) => ⟨p, s.outstanding ++ [e]⟩
    | none => s
  | .fetchPerCore saddr =>
    match s.pool.fetchPerCore saddr with
    | some (e, p) => ⟨p, s.outstanding ++ [e]⟩
    | none => s
  | .free e =>
    match s.pool.freeMapped e with
    | .done p => ⟨p, s.outstanding.erase e⟩
    | _ => s

def PoolRun.onlyFetched (s : PoolRun) : PoolCall → Prop
  | .free e => e ∈ s.outstanding
  | _ => True

def PoolRun.run (s : PoolRun) (cs : List PoolCall) : PoolRun := cs.foldl step s

/-- Every entry is on one of the lists, once, and the counters tell how many are on each. -/
structure CountedPool.Partitioned (p : CountedPool) : Prop where
  disjoint : p.lists.free.Disjoint p.lists.used
  once : ∀ e ∈ p.lists.pool, (p.lists.free ++ p.lists.used).count e = 1
  entries : ∀ e, e ∈ p.lists.pool ↔ e ∈ p.lists.free ∨ e ∈ p.lists.used
  numFree : p.numFree = p.lists.free.length
  numUsed : p.numUsed = p.lists.used.length
  numEntry : p.numFree + p.numUsed = p.numEntry

/-! Whatever is freed, the lists are those of a pool, and the mapper knows all entries. -/

structure AddrPool.Intact (ap : AddrPool) : Prop where
  sound : ap.Sound
  maps : ∀ e ∈ ap.pool, ap.maps e = true

variable {p p₀ : CountedPool} {ap ap' : AddrPool} {e : Addr} {s : PoolRun}

namespace AddrPool.Intact

theorem take (h : ap.Intact) (he : e ∈ ap.free) : (ap.take e).Intact := ⟨h.sound.take he, h.maps⟩

theorem freed (h : ap.Intact) (hr : freeAddress e ap = .done ap') : ap'.Intact := by
  obtain ⟨-, hpool, -, hsound⟩ := freeAddress_eq_done hr
  refine ⟨hsound h.sound, fun x hx => ?_⟩
  rw [freeAddress_maps hr]
  exact h.maps x (hpool ▸ hx)

end AddrPool.Intact

theorem Built.intact (h : Built p) : p.lists.Intact := by
  cases h with
  | shared h => exact ⟨createAddressPool_sound h, createAddressPool_maps h⟩
  | perCore h => exact ⟨createAddressPoolPerCore_sound h, createAddressPoolPerCore_maps h⟩

theorem Built.all_free (h : Built p) : p = .create p.lists ∧ p.lists.free = p.lists.pool ∧
    p.lists.used = [] := by
  cases h with
  | shared h | perCore h =>
    obtain ⟨n, -, rfl⟩ := Option.map_eq_some_iff.mp h
    exact ⟨rfl, rfl, rfl⟩

theorem PoolRun.step_cases (s : PoolRun) (c : PoolCall) : s.step c = s ∨ (∃ e ∈ s.pool.lists.free,
      s.step c = ⟨(s.pool.taken (e, s.pool.lists.take e)).2, s.outstanding ++ [e]⟩) ∨
    ∃ e p, c = .free e ∧ s.pool.freeMapped e = .done p ∧ s.step c = ⟨p, s.outstanding.erase e⟩ := by
  cases c with
  | fetch core numQueues endianCheck dest saddr =>
    cases hr : fetchAddress core numQueues endianCheck dest saddr s.pool.lists with
    | none => exact .inl (by simp only [PoolRun.step, CountedPool.fetch, hr, Option.map_none])
    | some r =>
      obtain ⟨e, ap⟩ := r
      obtain ⟨hmem, -, rfl⟩ := fetchAddress_eq_some hr
      refine .inr (.inl ⟨e, hmem, ?_⟩)
      simp only [PoolRun.step, CountedPool.fetch, hr, Option.map_some, CountedPool.taken]
  | fetchPerCore saddr =>
    cases hr : fetchAddressPerCore s.pool.lists with
    | none =>
      exact .inl (by simp only [PoolRun.step, CountedPool.fetchPerCore, hr, Option.map_none])
    | some r =>
      obtain ⟨e, ap⟩ := r
      obtain ⟨hmem, rfl⟩ := fetchAddressPerCore_eq_some hr
      refine .inr (.inl ⟨e, hmem, ?_⟩)
      simp only [PoolRun.step, CountedPool.fetchPerCore, hr, Option.map_some, CountedPool.taken]
  | free e =>
    cases hr : s.pool.freeMapped e with
    | failed | corrupted => exact .inl (by simp only [PoolRun.step, hr])
    | done p => exact .inr (.inr ⟨e, p, rfl, hr, by simp only [PoolRun.step, hr]⟩)

theorem freeMapped_eq_done {q : CountedPool} (h : p.freeMapped e = .done q) :
    ∃ ap, freeAddress e p.lists = .done ap ∧
      q = { p with lists := ap, numFree := p.numFree + 1, numUsed := p.numUsed - 1 } := by
  unfold CountedPool.freeMapped at h
  cases hr : freeAddress e p.lists with
  | failed | corrupted => simp [hr, CountedPool.released] at h
  | done ap =>
    rw [hr] at h
    injection h with h
    exact ⟨ap, rfl, h.symm⟩

theorem PoolRun.intact_step (h : s.pool.lists.Intact) (c : PoolCall) :
    (s.step c).pool.lists.Intact := by
  obtain hc | ⟨e, he, hc⟩ | ⟨e, p, -, hr, hc⟩ := s.step_cases c
  · rwa [hc]
  · rw [hc]
    exact h.take he
  · obtain ⟨ap, hap, rfl⟩ := freeMapped_eq_done hr
    rw [hc]
    exact h.freed hap

theorem PoolRun.intact_run (h : s.pool.lists.Intact) (cs : List PoolCall) :
    (s.run cs).pool.lists.Intact := by
  induction cs generalizing s with
  | nil => exact h
  | cons c cs ih => exact ih (intact_step h c)

/-! When only fetched addresses are freed, those outstanding are the used ones. -/

structure PoolRun.Counted (s : PoolRun) : Prop where
  intact : s.pool.lists.Intact
  outstanding : s.outstanding = s.pool.lists.used
  numFree : s.pool.numFree = s.pool.lists.free.length
  numUsed : s.pool.numUsed = s.pool.lists.used.length
  numEntry : s.pool.numEntry = s.pool.lists.pool.length

namespace PoolRun.Counted

theorem start (h : Built p) : Counted ⟨p, []⟩ := by
  obtain ⟨hp, hfree, hused⟩ := h.all_free
  have hlen : p.numFree = p.lists.pool.length := congrArg CountedPool.numFree hp
  refine ⟨h.intact, hused.symm, ?_, ?_, congrArg CountedPool.numEntry hp⟩
  · exact hlen.trans (congrArg (fun l => (List.length l : Int)) hfree.symm)
  · exact (congrArg CountedPool.numUsed hp).trans (by simp [hused, CountedPool.create])

theorem taken (h : Counted s) (he : e ∈ s.pool.lists.free) :
    Counted ⟨(s.pool.taken (e, s.pool.lists.take e)).2, s.outstanding ++ [e]⟩ := by
  have hpos := List.length_pos_of_mem he
  refine ⟨h.intact.take he, congrArg (· ++ [e]) h.outstanding, ?_, ?_, h.numEntry⟩
  · change s.pool.numFree - 1 = ((s.pool.lists.free.erase e).length : Int)
    rw [h.numFree, List.length_erase_of_mem he]
    omega
  · change s.pool.numUsed + 1 = ((s.pool.lists.used ++ [e]).length : Int)
    rw [h.numUsed, List.length_append, List.length_singleton]
    omega

theorem freed (h : Counted s) (he : e ∈ s.outstanding) (hr : s.pool.freeMapped e = .done p) :
    Counted ⟨p, s.outstanding.erase e⟩ := by
  rw [h.outstanding] at he ⊢
  obtain ⟨ap, hap, rfl⟩ := freeMapped_eq_done hr
  have hpos := List.length_pos_of_mem he
  have hused := freeAddress_of_used h.intact.sound h.intact.maps he
  rw [hap] at hused
  injection hused with hused
  subst hused
  refine ⟨h.intact.freed hap, rfl, ?_, ?_, h.numEntry⟩
  · change s.pool.numFree + 1 = ((s.pool.lists.free ++ [e]).length : Int)
    rw [h.numFree, List.length_append, List.length_singleton]
    omega
  · change s.pool.numUsed - 1 = ((s.pool.lists.used.erase e).length : Int)
    rw [h.numUsed, List.length_erase_of_mem he]
    omega

theorem step (h : Counted s) (c : PoolCall) (hc : s.onlyFetched c) : Counted (s.step c) := by
  obtain hs | ⟨e, he, hs⟩ | ⟨e, p, rfl, hr, hs⟩ := s.step_cases c
  · rwa [hs]
  · rw [hs]
    exact h.taken he
  · rw [hs]
    exact h.freed hc hr

theorem run (h : Built p) {cs : List PoolCall}
    (hcs : Along PoolRun.step PoolRun.onlyFetched ⟨p, []⟩ cs) : Counted (PoolRun.run ⟨p, []⟩ cs) :=
  foldl_invariant (fun _ c hs hc => hs.step c hc) (start h) hcs

theorem partitioned (h : Counted s) : s.pool.Partitioned := by
  have hnodup := h.intact.sound.perm.nodup_iff.mpr h.intact.sound.nodup
  have hperm := h.intact.sound.perm
  refine ⟨(List.nodup_append'.mp hnodup).2.2, fun e he => ?_, fun e => ?_, h.numFree, h.numUsed, ?_⟩
  · exact List.count_eq_one_of_mem hnodup (hperm.symm.subset he)
  · rw [← hperm.mem_iff, List.mem_append]
  · have hlen := hperm.length_eq
    rw [List.length_append] at hlen
    rw [h.numFree, h.numUsed, h.numEntry]
    omega

theorem nodup_outstanding (h : Counted s) : s.outstanding.Nodup := by
  rw [h.outstanding]
  exact (List.nodup_append.mp (h.intact.sound.perm.nodup_iff.mpr h.intact.sound.nodup)).2.1

end PoolRun.Counted

theorem fetch_eq_some {core numQueues : Nat} {endianCheck : Bool} {dest saddr : Addr}
    {r : Addr × CountedPool} (h : p.fetch core numQueues endianCheck dest saddr = some r) :
    r.1 ∈ p.lists.free ∧ meets saddr r.1 ∧ suitsCore core numQueues endianCheck dest r.1 := by
  obtain ⟨⟨e, ap⟩, hr, rfl⟩ := Option.map_eq_some_iff.mp h
  obtain ⟨hmem, helig, -⟩ := fetchAddress_eq_some hr
  exact ⟨hmem, Bool.and_eq_true_iff.mp helig⟩

theorem fetch_eq_none {core numQueues : Nat} {endianCheck : Bool} {dest saddr : Addr}
    (h : p.fetch core numQueues endianCheck dest saddr = none) (he : e ∈ p.lists.free) :
    ¬(meets saddr e ∧ suitsCore core numQueues endianCheck dest e) := by
  have hfind := Option.map_eq_none_iff.mp (Option.map_eq_none_iff.mp h)
  intro hmeets
  exact List.find?_eq_none.mp hfind e he (Bool.and_eq_true_iff.mpr hmeets)

theorem fetchPerCore_meets_iff {saddr : Addr} :
    (∀ r, p.fetchPerCore saddr = some r → meets saddr r.1) ↔
      ∀ e, p.lists.free.head? = some e → meets saddr e := by
  constructor
  · intro h e he
    exact h (p.taken (e, p.lists.take e))
      (by simp only [CountedPool.fetchPerCore, fetchAddressPerCore, he, Option.map_some])
  · intro h r hr
    obtain ⟨q, hq, rfl⟩ := Option.map_eq_some_iff.mp hr
    obtain ⟨e, he, rfl⟩ := Option.map_eq_some_iff.mp hq
    exact h e he

/-- The calls partition a pool; only what `FetchAddressPerCore` gives need not be the source
that was asked for. -/
theorem pool_partition_iff (hp : Built p) {cs : List PoolCall}
    (hcs : Along PoolRun.step PoolRun.onlyFetched ⟨p, []⟩ cs) :
    let s := PoolRun.run ⟨p, []⟩ cs
    s.pool.Partitioned ∧ s.outstanding = s.pool.lists.used ∧ s.outstanding.Nodup ∧
    (∀ core numQueues endianCheck dest saddr,
      (∀ r, s.pool.fetch core numQueues endianCheck dest saddr = some r →
        r.1 ∈ s.pool.lists.free ∧ meets saddr r.1 ∧
          suitsCore core numQueues endianCheck dest r.1) ∧
      (s.pool.fetch core numQueues endianCheck dest saddr = none →
        ∀ e ∈ s.pool.lists.free,
          ¬(meets saddr e ∧ suitsCore core numQueues endianCheck dest e))) ∧
    ∀ saddr, (∀ r, s.pool.fetchPerCore saddr = some r → meets saddr r.1) ↔
      ∀ e, s.pool.lists.free.head? = some e → meets saddr e := by
  have h := PoolRun.Counted.run hp hcs
  exact ⟨h.partitioned, h.outstanding, h.nodup_outstanding,
    fun _ _ _ _ _ => ⟨fun _ => fetch_eq_some, fun hr _ => fetch_eq_none hr⟩,
    fun _ => fetchPerCore_meets_iff⟩

def oneCorePool : CountedPool :=
  .create (.ofEntries (ntohl 0x0100000a) 1
    ((((candidates (ntohl 0x0100000a) 1).filter
      (friendly 0 1 false ⟨0x0200000a, 0x5000⟩)).take 64511).map entry))

theorem oneCorePool_built : Built oneCorePool :=
  @Built.perCore 0 1 false 0x0100000a 1 ⟨0x0200000a, 0x5000⟩ _ rfl

theorem oneCorePool_head : oneCorePool.lists.free.head? = some ⟨0x0100000a, 0x0104⟩ := rfl

theorem pool_partition_fetch_and_free :
    (PoolRun.run ⟨oneCorePool, []⟩
      [.fetchPerCore ⟨0, 0⟩, .free ⟨0x0100000a, 0x0104⟩]).pool.Partitioned := by
  have hcs : Along PoolRun.step PoolRun.onlyFetched ⟨oneCorePool, []⟩
      [.fetchPerCore ⟨0, 0⟩, .free ⟨0x0100000a, 0x0104⟩] :=
    ⟨trivial, List.mem_singleton.mpr rfl, trivial⟩
  exact (pool_partition_iff oneCorePool_built hcs).1

/-- 10.0.0.9 is asked for, and 10.0.0.1 is got. -/
theorem pool_other_source : Built oneCorePool ∧
    ∃ r, oneCorePool.fetchPerCore ⟨0x0900000a, 0⟩ = some r ∧
      r.1 = ⟨0x0100000a, 0x0104⟩ ∧ ¬meets ⟨0x0900000a, 0⟩ r.1 :=
  ⟨oneCorePool_built, oneCorePool.taken (_, oneCorePool.lists.take ⟨0x0100000a, 0x0104⟩), rfl, rfl,
    by decide⟩

/-! The two ways to release. -/

theorem freeMapped_of_used (h : p.lists.Intact) (he : e ∈ p.lists.used) :
    p.freeMapped e = p.released
      (.done { p.lists with used := p.lists.used.erase e, free := p.lists.free ++ [e] }) :=
  congrArg p.released (freeAddress_of_used h.sound h.maps he)

theorem freeMapped_of_not_mem (he : e ∉ p.lists.pool) : p.freeMapped e = .failed := by
  have hmaps : p.lists.maps e = false := by simp [AddrPool.maps, he]
  simp [CountedPool.freeMapped, freeAddress, hmaps, CountedPool.released]

theorem freeMapped_of_free (h : p.lists.Intact) (he : e ∈ p.lists.free) :
    p.freeMapped e ≠ .failed := by
  have hmaps := h.maps e (h.sound.mem_pool he)
  have hused : p.lists.used.contains e = false := by simpa using h.sound.not_mem_used he
  unfold CountedPool.freeMapped freeAddress
  rw [hmaps, hused]
  by_cases hlast : p.lists.free.getLast? = some e
  · simp [hlast, CountedPool.released]
  · simp [hlast, CountedPool.released]

theorem freeScanned_of_used (he : e ∈ p.lists.used) : p.freeScanned e = p.released
      (.done { p.lists with used := p.lists.used.erase e, free := p.lists.free ++ [e] }) := by
  rw [CountedPool.freeScanned, if_pos (by simpa using he)]

theorem freeScanned_of_not_used (he : e ∉ p.lists.used) : p.freeScanned e = .failed := by
  rw [CountedPool.freeScanned, if_neg (by simpa using he)]
  rfl

/-- The mapper and the scan agree on the addresses that are not free, and on those alone. -/
theorem mapped_release_agrees_iff (hp : Built p₀) (cs : List PoolCall) (e : Addr) :
    let p := (PoolRun.run ⟨p₀, []⟩ cs).pool
    (p.freeMapped e = p.freeScanned e ↔ e ∉ p.lists.free) ∧
    (e ∈ p.lists.used → p.freeMapped e = .done ⟨{ p.lists with
      used := p.lists.used.erase e, free := p.lists.free ++ [e] },
      p.numEntry, p.numFree + 1, p.numUsed - 1⟩) ∧
    (e ∉ p.lists.pool → p.freeMapped e = .failed) ∧
    (e ∉ p.lists.used → p.freeScanned e = .failed) := by
  intro p
  have h : p.lists.Intact := PoolRun.intact_run hp.intact cs
  refine ⟨⟨fun hagree hfree => ?_, fun hfree => ?_⟩, freeMapped_of_used h, freeMapped_of_not_mem,
    freeScanned_of_not_used⟩
  · rw [freeScanned_of_not_used (h.sound.not_mem_used hfree)] at hagree
    exact freeMapped_of_free h hfree hagree
  · by_cases hused : e ∈ p.lists.used
    · rw [freeMapped_of_used h hused, freeScanned_of_used hused]
    · have hpool : e ∉ p.lists.pool := fun hmem => by
        obtain hf | hu := List.mem_append.mp (h.sound.perm.symm.subset hmem)
        · exact hfree hf
        · exact hused hu
      rw [freeMapped_of_not_mem hpool, freeScanned_of_not_used hused]

theorem mapped_release_of_fetched :
    let p := (PoolRun.run ⟨oneCorePool, []⟩ [.fetchPerCore ⟨0, 0⟩]).pool
    ∃ q, p.freeMapped ⟨0x0100000a, 0x0104⟩ = .done q :=
  ⟨_, (mapped_release_agrees_iff oneCorePool_built [.fetchPerCore ⟨0, 0⟩] ⟨0x0100000a, 0x0104⟩).2.1
    (by decide +kernel)⟩

/-- An address that nobody has fetched. -/
theorem mapped_release_of_free : Built oneCorePool ∧
    oneCorePool.freeScanned ⟨0x0100000a, 0x0104⟩ = .failed ∧
    oneCorePool.freeMapped ⟨0x0100000a, 0x0104⟩ ≠ .failed :=
  ⟨oneCorePool_built, freeScanned_of_not_used (List.not_mem_nil),
    freeMapped_of_free oneCorePool_built.intact (List.mem_of_head? oneCorePool_head)⟩

end Mtcp.Flows
