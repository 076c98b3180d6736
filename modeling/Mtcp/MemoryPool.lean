import Mtcp.Runs
import Mathlib.Tactic

namespace Mtcp.MemoryPool

open Runs List
open Function (update update_of_ne update_self)

/-- `struct tag_mem_chunk`, at the start of a run of free chunks. Pointers into the pool are
offsets from `mp_startptr`. -/
structure MemChunk where
  freeChunks : Int
  next : Option Int

structure MemPool where
  freeptr : Option Int
  freeChunks : Int
  totalChunks : Int
  chunkSize : Int
  mem : Int → MemChunk

def sizeT (z : Int) : Nat := (z % 18446744073709551616).toNat

def toInt (n : Nat) : Int := (Int32.ofNat n).toInt

def chunksOf (chunkSize : Int32) (totalSize : UInt64) : Nat :=
  sizeT (totalSize.toNat + (chunkSize.toInt - 1)) / sizeT chunkSize.toInt

/-- `MPCreate`. The comparison with `sizeof(mem_chunk)` is one of unsigned numbers; `memory` is
the most that `posix_memalign` can give. -/
def mpCreate (memory : Nat) (mem : Int → MemChunk) (chunkSize : Int32) (totalSize : UInt64) :
    Option MemPool :=
  let n := toInt (chunksOf chunkSize totalSize)
  if sizeT chunkSize.toInt < 16 then none
  else if chunkSize.toInt.tmod 4 ≠ 0 then none
  else if memory < sizeT (chunkSize.toInt * n) then none
  else some
    { freeptr := some 0
      freeChunks := n
      totalChunks := n
      chunkSize := chunkSize.toInt
      mem := Function.update mem 0 ⟨n, none⟩ }

/-- `MPAllocateChunk`; `none` is a failed assertion or the use of a null pointer. -/
def mpAllocateChunk (mp : MemPool) : Option (Option Int × MemPool) :=
  if mp.freeChunks = 0 then some (none, mp)
  else
    match mp.freeptr with
    | none => none
    | some p =>
      if (mp.mem p).freeChunks ≤ 0 then none
      else
        let c : MemChunk := ⟨(mp.mem p).freeChunks - 1, (mp.mem p).next⟩
        let mem := Function.update mp.mem p c
        if c.freeChunks ≠ 0 then
          some (some p, { mp with
            freeptr := some (p + mp.chunkSize)
            freeChunks := mp.freeChunks - 1
            mem := Function.update mem (p + mp.chunkSize) c })
        else
          some (some p, { mp with
            freeptr := c.next
            freeChunks := mp.freeChunks - 1
            mem := mem })

def mpFreeChunk (p : Int) (mp : MemPool) : Option MemPool :=
  if p.tmod mp.chunkSize ≠ 0 then none
  else some { mp with
    freeptr := some p
    freeChunks := mp.freeChunks + 1
    mem := Function.update mp.mem p ⟨1, mp.freeptr⟩ }

structure InUse where
  pool : MemPool
  outstanding : List Int := []
  crashed : Bool := false

/-- What is done with a pool. The users write into their chunks, over what the pool has left
there. -/
inductive Call where
  | allocate
  | free (p : Int)
  | write (p : Int) (c : MemChunk)

def InUse.step (s : InUse) : Call → InUse
  | .allocate =>
    match mpAllocateChunk s.pool with
    | none => { s with crashed := true }
    | some (none, mp) => { s with pool := mp }
    | some (some p, mp) => { s with pool := mp, outstanding := p :: s.outstanding }
  | .free p =>
    match mpFreeChunk p s.pool with
    | none => { s with crashed := true }
    | some mp => { s with pool := mp, outstanding := s.outstanding.erase p }
  | .write p c => { s with pool.mem := Function.update s.pool.mem p c }

/-- Only what is outstanding is freed or written to. -/
def owned (s : InUse) : Call → Prop
  | .allocate => True
  | .free p => p ∈ s.outstanding
  | .write p _ => p ∈ s.outstanding

instance (s : InUse) : ∀ c, Decidable (owned s c)
  | .allocate => isTrue trivial
  | .free p => inferInstanceAs (Decidable (p ∈ s.outstanding))
  | .write p _ => inferInstanceAs (Decidable (p ∈ s.outstanding))

/-- The lengths of the runs on the free list, as the memory of the pool has them. -/
inductive FreeList (mem : Int → MemChunk) : Option Int → List Int → Prop
  | nil : FreeList mem none []
  | cons {p : Int} {ns : List Int} (h : FreeList mem (mem p).next ns) :
    FreeList mem (some p) ((mem p).freeChunks :: ns)

/-- The free list has these runs: the number of the first chunk, and how many follow. -/
def Linked (mem : Int → MemChunk) (size : Int) : Option Int → List (Nat × Nat) → Prop
  | p, [] => p = none
  | p, (k, l) :: rs => p = some (k * size) ∧ (mem (k * size)).freeChunks = l ∧
    Linked mem size (mem (k * size)).next rs

def cells (rs : List (Nat × Nat)) : List Nat := rs.flatMap fun r => List.range' r.1 r.2

structure Divided (size : Int) (n : Nat) (s : InUse) (rs : List (Nat × Nat)) (out : List Nat) :
    Prop where
  alive : s.crashed = false
  chunkSize : s.pool.chunkSize = size
  total : s.pool.totalChunks = n
  linked : Linked s.pool.mem size s.pool.freeptr rs
  free : s.pool.freeChunks = (cells rs).length
  perm : (cells rs ++ out).Perm (List.range n)
  outstanding : s.outstanding = out.map fun k : Nat => (k : Int) * size
  nonempty : n ≠ 0 → 0 < size ∧ ∀ r ∈ rs, 0 < r.2

variable {mem : Int → MemChunk} {size : Int} {n : Nat} {s : InUse} {rs : List (Nat × Nat)}
  {out : List Nat} {p : Option Int}

theorem cells_cons (r : Nat × Nat) (rs : List (Nat × Nat)) :
    cells (r :: rs) = range' r.1 r.2 ++ cells rs := flatMap_cons ..

theorem mem_cells {r : Nat × Nat} (h : r ∈ rs) (hpos : 0 < r.2) : r.1 ∈ cells rs :=
  mem_flatMap.mpr ⟨r, h, mem_range'_1.mpr ⟨le_refl _, by omega⟩⟩

theorem Linked.update (h : Linked mem size p rs) (hsize : 0 < size) {j : Nat} (c : MemChunk)
    (hj : ∀ r ∈ rs, r.1 ≠ j) : Linked (update mem (j * size) c) size p rs := by
  induction rs generalizing p with
  | nil => exact h
  | cons r rs ih =>
    obtain ⟨hp, hlen, hrest⟩ := h
    have hne : (r.1 * size : Int) ≠ j * size := by
      intro heq
      have hk := mul_right_cancel₀ hsize.ne' heq
      exact hj r ((.head _) ..) (by exact_mod_cast hk)
    refine ⟨hp, ?_, ?_⟩
    · rw [update_of_ne hne]
      exact hlen
    · rw [update_of_ne hne]
      exact ih hrest fun r hr => hj r (.tail _ hr)

theorem Linked.freeList (h : Linked mem size p rs) :
    ∃ ns, FreeList mem p ns ∧ ns.sum = (cells rs).length := by
  induction rs generalizing p with
  | nil =>
    obtain rfl : p = none := h
    exact ⟨[], .nil, rfl⟩
  | cons r rs ih =>
    obtain ⟨rfl, hlen, hrest⟩ := h
    obtain ⟨ns, hns, hsum⟩ := ih hrest
    refine ⟨_, .cons hns, ?_⟩
    rw [sum_cons, hlen, hsum, cells_cons, length_append, length_range', Nat.cast_add]

namespace Divided

section

variable (h : Divided size n s rs out)

include h

theorem nodup : (cells rs ++ out).Nodup := h.perm.nodup_iff.mpr nodup_range

theorem length_eq : (cells rs).length + out.length = n := by
  simpa using h.perm.length_eq

theorem size_pos {k : Nat} (hk : k ∈ out) : 0 < size :=
  (h.nonempty (by rintro rfl; have hlen := h.length_eq; have := length_pos_of_mem hk; omega)).1

theorem start_ne {k : Nat} (hk : k ∈ out) : ∀ r ∈ rs, r.1 ≠ k := by
  rintro r hr rfl
  have hn : n ≠ 0 := by
    rintro rfl
    have hlen := h.length_eq
    have := length_pos_of_mem hk
    omega
  exact (nodup_append.mp h.nodup).2.2 _ (mem_cells hr ((h.nonempty hn).2 r hr)) _ hk rfl

/-- The first chunk of the first run is handed out, if there is one. -/
theorem allocate : (∃ rs' out', Divided size n (s.step .allocate) rs' out') ∧
      ((∃ mp, mpAllocateChunk s.pool = some (none, mp)) ↔ out.length = n) := by
  have hlen := h.length_eq
  have hfree := h.free
  by_cases hnone : s.pool.freeChunks = 0
  · have hcall : mpAllocateChunk s.pool = some (none, s.pool) := if_pos hnone
    refine ⟨⟨rs, out, ?_⟩, fun _ => by omega, fun _ => ⟨_, hcall⟩⟩
    simpa only [InUse.step, hcall] using h
  · have hn : n ≠ 0 := by omega
    obtain ⟨hsize, hpos⟩ := h.nonempty hn
    have hlinked := h.linked
    have hnodup := h.nodup
    have hperm := h.perm
    cases rs with
    | nil => exact absurd hfree hnone
    | cons r rs =>
      obtain ⟨k, l⟩ := r
      obtain ⟨hptr, hcount, hrest⟩ := hlinked
      obtain ⟨m, rfl⟩ : ∃ m, l = m + 1 := ⟨l - 1, by have := hpos _ ((.head _) ..); omega⟩
      have hsplit : cells ((k, m + 1) :: rs) = k :: cells ((k + 1, m) :: rs) := by
        rw [cells_cons, cells_cons]
        rfl
      rw [hsplit] at hnodup hperm hfree
      have hmove : (cells ((k + 1, m) :: rs) ++ k :: out).Perm (range n) := perm_middle.trans hperm
      have hfirst : ∀ r ∈ rs, r.1 ≠ k := by
        rintro r hr rfl
        have hin := mem_cells hr (hpos r (.tail _ hr))
        rw [cells_cons] at hnodup
        exact (nodup_cons.mp hnodup).1 (mem_append_left _ (mem_append_right _ hin))
      have hkept := hrest.update hsize ⟨m, (s.pool.mem (k * size)).next⟩ hfirst
      have hleft : (s.pool.mem (k * size)).freeChunks - 1 = m := by
        rw [hcount]
        omega
      have hcall : ∃ mp, mpAllocateChunk s.pool = some (some (k * size), mp) ∧
          ∃ rs', Divided size n ⟨mp, (k * size) :: s.outstanding, false⟩ rs' (k :: out) := by
        unfold mpAllocateChunk
        rw [if_neg hnone, hptr]
        dsimp only
        rw [if_neg (by omega), hleft, h.chunkSize]
        by_cases hm : m = 0
        · subst hm
          rw [if_neg (by simp)]
          refine ⟨_, rfl, rs, rfl, rfl, h.total, hkept, ?_, ?_, ?_, fun _ => ⟨hsize, ?_⟩⟩
          · rw [hfree]
            simp [cells_cons]
          · simpa [cells_cons] using hmove
          · rw [h.outstanding]
            rfl
          · exact fun r hr => hpos r (.tail _ hr)
        · rw [if_pos (by exact_mod_cast hm)]
          have hnext : (k * size + size : Int) = ((k + 1 : Nat) : Int) * size := by
            push_cast
            ring
          have hsecond : ∀ r ∈ rs, r.1 ≠ k + 1 := by
            rintro r hr heq
            have hin := mem_cells hr (hpos r (.tail _ hr))
            rw [cells_cons, cons_append, nodup_cons, append_assoc, nodup_append] at hnodup
            refine hnodup.2.2.2 (k + 1) (mem_range'_1.mpr ⟨le_refl _, ?_⟩) r.1
              (mem_append_left _ hin) heq.symm
            omega
          rw [hnext]
          refine ⟨_, rfl, (k + 1, m) :: rs, rfl, rfl, h.total, ⟨rfl, ?_, ?_⟩, ?_, hmove, ?_,
            fun _ => ⟨hsize, ?_⟩⟩
          · simp only [update_self]
          · simp only [update_self]
            exact hkept.update hsize _ hsecond
          · rw [hfree, length_cons]
            push_cast
            omega
          · rw [h.outstanding]
            rfl
          · intro r hr
            obtain rfl | hr := mem_cons.mp hr
            · exact Nat.pos_of_ne_zero hm
            · exact hpos r (.tail _ hr)
      obtain ⟨mp, heq, rs', hrs⟩ := hcall
      refine ⟨⟨rs', k :: out, ?_⟩, ?_, fun hfull => ?_⟩
      · simpa only [InUse.step, heq, h.alive] using hrs
      · rintro ⟨mp', heq'⟩
        rw [heq] at heq'
        cases heq'
      · rw [hsplit, length_cons] at hlen
        omega

theorem free_chunk {k : Nat} (hk : k ∈ out) :
    ∃ rs' out', Divided size n (s.step (.free (k * size))) rs' out' := by
  have hsize := h.size_pos hk
  have hcall : mpFreeChunk (k * size) s.pool = some { s.pool with
      freeptr := some (k * size)
      freeChunks := s.pool.freeChunks + 1
      mem := update s.pool.mem (k * size) ⟨1, s.pool.freeptr⟩ } :=
    if_neg (by rw [h.chunkSize, Int.mul_tmod_left]; exact not_not.mpr rfl)
  have hsplit : cells ((k, 1) :: rs) = k :: cells rs := cells_cons _ _
  have hinj : Function.Injective fun j : Nat => (j : Int) * size := fun i j hij => by
    exact_mod_cast mul_right_cancel₀ hsize.ne' hij
  refine ⟨(k, 1) :: rs, out.erase k, ?_⟩
  simp only [InUse.step, hcall]
  refine ⟨h.alive, h.chunkSize, h.total, ⟨rfl, ?_, ?_⟩, ?_, ?_, ?_, fun hn => ⟨hsize, ?_⟩⟩
  · simp only [update_self]
    rfl
  · simp only [update_self]
    exact h.linked.update hsize _ (h.start_ne hk)
  · rw [h.free, hsplit, length_cons]
    rfl
  · rw [hsplit]
    exact perm_middle.symm.trans ((List.Perm.append_left _ (perm_cons_erase hk).symm).trans h.perm)
  · rw [h.outstanding, map_erase hinj]
  · intro r hr
    obtain rfl | hr := mem_cons.mp hr
    · exact Nat.one_pos
    · exact (h.nonempty hn).2 r hr

theorem step (c : Call) (hc : owned s c) : ∃ rs' out', Divided size n (s.step c) rs' out' := by
  cases c with
  | allocate => exact h.allocate.1
  | free p =>
    have hin : p ∈ s.outstanding := hc
    obtain ⟨k, hk, rfl⟩ := mem_map.mp (h.outstanding ▸ hin)
    exact h.free_chunk hk
  | write p c =>
    have hin : p ∈ s.outstanding := hc
    obtain ⟨k, hk, rfl⟩ := mem_map.mp (h.outstanding ▸ hin)
    exact ⟨rs, out, h.alive, h.chunkSize, h.total,
      h.linked.update (h.size_pos hk) c (h.start_ne hk), h.free, h.perm, h.outstanding, h.nonempty⟩

end

end Divided

/-- A pool of negative chunk size passes the tests, but gets no memory unless it has no chunks. -/
theorem divided_create {memory : Nat} {chunkSize : Int32} {totalSize : UInt64} {mp : MemPool}
    (hmemory : memory < 9223372036854775808) (hn : chunksOf chunkSize totalSize < 2147483648)
    (hmake : mpCreate memory mem chunkSize totalSize = some mp) :
    Divided chunkSize.toInt (chunksOf chunkSize totalSize) ⟨mp, [], false⟩
      [(0, chunksOf chunkSize totalSize)] [] := by
  unfold mpCreate at hmake
  generalize chunksOf chunkSize totalSize = n at hn hmake ⊢
  have hint : toInt n = n := Int32.toInt_ofNat_of_lt hn
  rw [hint] at hmake
  dsimp only at hmake
  split_ifs at hmake with hsmall hfour hroom
  cases hmake
  have hcells : cells [(0, n)] = range n := by
    rw [cells_cons, range_eq_range']
    exact append_nil _
  refine ⟨rfl, rfl, rfl, ⟨?_, ?_, ?_⟩, ?_, ?_, rfl, fun hpos => ⟨?_, ?_⟩⟩
  · rw [Nat.cast_zero, Int.zero_mul]
  · simp
  · simp [Linked]
  · rw [hcells, length_range]
  · rw [hcells, append_nil]
  · by_contra hneg
    have hlow := chunkSize.le_toInt
    have hzero : chunkSize.toInt ≠ 0 := by
      intro h0
      rw [h0] at hsmall
      exact hsmall (by decide)
    have hbelow : chunkSize.toInt * n < 0 :=
      mul_neg_of_neg_of_pos (by omega) (by exact_mod_cast Nat.pos_of_ne_zero hpos)
    have hbound : -4611686018427387904 ≤ chunkSize.toInt * n := by
      have h1 : (n : Int) < 2147483648 := by exact_mod_cast hn
      nlinarith
    apply hroom
    rw [sizeT]
    omega
  · intro r hr
    obtain rfl := mem_singleton.mp hr
    exact Nat.pos_of_ne_zero hpos

theorem divided_run (h : Divided size n s rs out) (cs : List Call)
    (hcs : Along InUse.step owned s cs) : ∃ rs' out', Divided size n (cs.foldl InUse.step s) rs'
      out' :=
  @foldl_invariant _ _ InUse.step (fun s => ∃ rs out, Divided size n s rs out) owned
    (fun _ c ⟨_, _, h⟩ hc => h.step c hc) _ cs ⟨rs, out, h⟩ hcs

/-- Whatever is allocated, freed and written: the outstanding chunks are different chunks of the
pool, an allocation fails only when all are outstanding, and the counter is the number of the
others and the sum of the runs on the free list. -/
theorem pool_hands_out_chunks {memory : Nat} {chunkSize : Int32} {totalSize : UInt64}
    {mp : MemPool} (hmemory : memory < 9223372036854775808)
    (hn : chunksOf chunkSize totalSize < 2147483648)
    (hmake : mpCreate memory mem chunkSize totalSize = some mp) (cs : List Call)
    (hcs : Along InUse.step owned ⟨mp, [], false⟩ cs) :
    let s := cs.foldl InUse.step ⟨mp, [], false⟩
    s.crashed = false ∧
      s.outstanding.Pairwise (fun p q => p + chunkSize.toInt ≤ q ∨ q + chunkSize.toInt ≤ p) ∧
      (∀ p ∈ s.outstanding, chunkSize.toInt ∣ p ∧ 0 ≤ p ∧
        p + chunkSize.toInt ≤ chunkSize.toInt * mp.totalChunks) ∧
      (∃ r, mpAllocateChunk s.pool = some r ∧
        (r.1 = none ↔ s.outstanding.length = mp.totalChunks)) ∧
      s.pool.freeChunks = mp.totalChunks - s.outstanding.length ∧
      ∃ ns, FreeList s.pool.mem s.pool.freeptr ns ∧ ns.sum = s.pool.freeChunks := by
  have hstart := divided_create hmemory hn hmake
  have htotal := hstart.total
  obtain ⟨rs, out, h⟩ := divided_run hstart cs hcs
  intro s
  change Divided _ _ s rs out at h
  generalize chunksOf chunkSize totalSize = n at h htotal
  have hlen := h.length_eq
  have hfree := h.free
  have hout : s.outstanding.length = out.length := by rw [h.outstanding, List.length_map]
  have hin : ∀ k ∈ out, k < n := fun k hk =>
    List.mem_range.mp (h.perm.subset (List.mem_append_right _ hk))
  rw [htotal, hout]
  refine ⟨h.alive, ?_, fun p hp => ?_, ?_, by omega, ?_⟩
  · rw [h.outstanding, List.pairwise_map]
    refine List.Pairwise.imp_of_mem ?_ (List.nodup_append.mp h.nodup).2.1
    intro i j hi _ hij
    have hsize := h.size_pos hi
    obtain hlt | hlt := Nat.lt_or_gt_of_ne hij
    · left
      have h1 : (i : Int) + 1 ≤ j := by exact_mod_cast hlt
      nlinarith
    · right
      have h1 : (j : Int) + 1 ≤ i := by exact_mod_cast hlt
      nlinarith
  · obtain ⟨k, hk, rfl⟩ := List.mem_map.mp (h.outstanding ▸ hp)
    have hsize := h.size_pos hk
    have h1 : (k : Int) + 1 ≤ n := by exact_mod_cast hin k hk
    refine ⟨Dvd.intro_left _ rfl, by positivity, ?_⟩
    nlinarith
  · obtain ⟨⟨rs', out', hnext⟩, hiff⟩ := h.allocate
    cases hcall : mpAllocateChunk s.pool with
    | none =>
      have halive := hnext.alive
      simp only [InUse.step, hcall] at halive
      cases halive
    | some r =>
      obtain ⟨p, mp'⟩ := r
      refine ⟨_, rfl, ?_⟩
      rw [hcall] at hiff
      have hp : p = none ↔ ∃ m, some (p, mp') = some (none, m) := by
        constructor
        · rintro rfl
          exact ⟨mp', rfl⟩
        · rintro ⟨_, heq⟩
          cases heq
          rfl
      exact hp.trans (hiff.trans (by omega))
  · obtain ⟨ns, hns, hsum⟩ := h.linked.freeList
    exact ⟨ns, hns, hsum.trans hfree.symm⟩

theorem pool_hands_out_chunks_three :
    ∃ mp, mpCreate 4096 (fun _ => ⟨0, none⟩) 16 40 = some mp ∧
      let s :=
        [Call.allocate, .allocate, .allocate, .write 16 ⟨9, some 5⟩, .free 16].foldl InUse.step
        ⟨mp, [], false⟩
      s.outstanding = [32, 0] ∧ s.pool.freeChunks = mp.totalChunks - s.outstanding.length := by
  refine ⟨_, rfl, by decide, ?_⟩
  exact (@pool_hands_out_chunks (fun _ => ⟨0, none⟩) 4096 16 40 _ (by decide) (by decide) rfl _
    (by decide)).2.2.2.2.1

end Mtcp.MemoryPool
