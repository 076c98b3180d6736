import Mtcp.FlowTable

namespace Mtcp.Flows

open Listeners (SockAddrIn)
open Function (update_apply update_of_ne)
open Runs

/-! The sources that are taken from the pools, and who has them. -/

def drawn (cfg : NetConfig) (k i : Nat) (addr : Option SockAddrIn) (s : System) :
    Option (PoolId × Addr) :=
  match connectable i addr (s.cores k) with
  | .error _ => none
  | .ok dest =>
    match source cfg k ((s.cores k).socket i) dest s with
    | .taken p src _ => some (p, src)
    | _ => none

def System.home (cfg : NetConfig) (k : Nat) (src : Addr) (s : System) : Option PoolId :=
  if (s.cores k).ap.isSome then some (.own k)
  else (getOutputInterface cfg src.addr).map fun nif => .eth (cfg.nifToEidx nif)

structure Lease where
  core : Nat
  id : Nat
  pool : PoolId
  src : Addr
  deriving DecidableEq

/-- The leases are not in the source. A stream has one from the connect that makes it until it is
destroyed; a connect that makes no stream leaves none. -/
structure Books where
  sys : System
  leases : List Lease := []

def Books.leasesAfter (cfg : NetConfig) (b : Books) (e : Nat × Action) : List Lease :=
  match e.2 with
  | .connect i addr mem _ =>
    match drawn cfg e.1 i addr b.sys with
    | some (p, src) =>
      if mem then ⟨e.1, (b.sys.cores e.1).gId, p, src⟩ :: b.leases else b.leases
    | none => b.leases
  | .destroy id => b.leases.filter fun l => !(l.core == e.1 && l.id == id)
  | _ => b.leases

def Books.step (cfg : NetConfig) (b : Books) (e : Nat × Action) : Books :=
  if b.sys.fault.isSome || (b.sys.cores e.1).api.fault.isSome then b
  else ⟨Flows.step cfg b.sys e, b.leasesAfter cfg e⟩

def books (cfg : NetConfig) (es : List (Nat × Action)) : Books :=
  es.foldl (Books.step cfg) { sys := createSystem cfg }

/-- In every pool the used entries are those that live streams have from it, one stream each. -/
structure Conserved (b : Books) : Prop where
  sound : ∀ p ap, b.sys.pool p = some ap → ap.Sound
  owned : ∀ p ap, b.sys.pool p = some ap → ∀ x,
    x ∈ ap.used ↔ ∃ l ∈ b.leases, l.pool = p ∧ l.src = x
  single : ∀ l ∈ b.leases, ∀ l' ∈ b.leases, l.pool = l'.pool → l.src = l'.src → l = l'
  there : ∀ l ∈ b.leases, (b.sys.pool l.pool).isSome = true
  live : ∀ l ∈ b.leases, ∃ f, (b.sys.cores l.core).streams l.id = some f ∧ f.isBoundAddr = true ∧
    f.tuple.src = l.src
  intact : b.sys.fault ≠ some .brokenList

def Returned (p : PoolId) (x : Addr) (s s' : System) : Prop :=
  (∃ ap, s.pool p = some ap ∧ x ∈ ap.used ∧
    s'.pool p = some { ap with used := ap.used.erase x, free := ap.free ++ [x] }) ∧
  ∀ q, q ≠ p → s'.pool q = s.pool q

/-- The calls that lose no source. A connect that takes one gets the memory for its stream, and
the source would go back to the pool it is from. A core does not change its pool while streams
have sources. -/
def returnable (cfg : NetConfig) (s : System) (e : Nat × Action) : Bool :=
  match e.2 with
  | .connect i addr mem _ =>
    match drawn cfg e.1 i addr s with
    | some (p, src) => mem && s.home cfg e.1 src == some p
    | none => true
  | .initRss .. => (s.cores e.1).flows.all fun f => !f.isBoundAddr
  | _ => true

variable {cfg : NetConfig} {s s' : System} {k i id : Nat} {f : Flow} {p q : PoolId}
  {x : Addr} {ap ap' : AddrPool} {l l' : Lease} {ls ls' : List Lease} {b : Books}

/-! One pool. -/

structure Accounts (ls : List Lease) (p : PoolId) (ap : AddrPool) : Prop where
  sound : ap.Sound
  maps : ∀ e ∈ ap.pool, ap.maps e = true
  owned : ∀ x, x ∈ ap.used ↔ ∃ l ∈ ls, l.pool = p ∧ l.src = x

theorem Accounts.fresh (hsound : ap.Sound) (hmaps : ∀ e ∈ ap.pool, ap.maps e)
    (hused : ap.used = []) (hno : ∀ l ∈ ls, l.pool ≠ p) : Accounts ls p ap := by
  refine ⟨hsound, hmaps, fun x => ?_⟩
  rw [hused]
  constructor
  · intro hx
    exact absurd hx List.not_mem_nil
  · rintro ⟨l, hl, hp, -⟩
    exact absurd hp (hno l hl)

theorem Accounts.congr (h : Accounts ls p ap) (hls : ∀ l, l.pool = p → (l ∈ ls' ↔ l ∈ ls)) :
    Accounts ls' p ap := by
  refine ⟨h.sound, h.maps, fun x => (h.owned x).trans ?_⟩
  constructor
  · rintro ⟨l, hl, hp, hx⟩
    exact ⟨l, (hls l hp).mpr hl, hp, hx⟩
  · rintro ⟨l, hl, hp, hx⟩
    exact ⟨l, (hls l hp).mp hl, hp, hx⟩

theorem Accounts.take (h : Accounts ls p ap) (hx : x ∈ ap.free) (hp : l.pool = p)
    (hsrc : l.src = x) : Accounts (l :: ls) p (ap.take x) := by
  refine ⟨h.sound.take hx, h.maps, fun y => ?_⟩
  have hused : y ∈ (ap.take x).used ↔ y ∈ ap.used ∨ y = x := by simp [AddrPool.take]
  rw [hused, h.owned y]
  constructor
  · rintro (⟨l', hl', hp', hy⟩ | rfl)
    · exact ⟨l', .tail _ hl', hp', hy⟩
    · exact ⟨l, (.head _), hp, hsrc⟩
  · rintro ⟨l', hl', hp', hy⟩
    obtain rfl | hl' := List.mem_cons.mp hl'
    · exact .inr (hy.symm.trans hsrc)
    · exact .inl ⟨l', hl', hp', hy⟩

theorem Accounts.free (h : Accounts ls p ap) (hl : l ∈ ls) (hp : l.pool = p)
    (hls : ∀ l', l' ∈ ls' ↔ l' ∈ ls ∧ l' ≠ l)
    (hsingle : ∀ l' ∈ ls, l'.pool = p → l'.src = l.src → l' = l) : l.src ∈ ap.used ∧
    freeAddress l.src ap =
      .done { ap with used := ap.used.erase l.src, free := ap.free ++ [l.src] } ∧
    Accounts ls' p { ap with used := ap.used.erase l.src, free := ap.free ++ [l.src] } := by
  have hused : l.src ∈ ap.used := (h.owned _).mpr ⟨l, hl, hp, rfl⟩
  have hfree := freeAddress_of_used h.sound h.maps hused
  have hnodup : ap.used.Nodup :=
    (List.nodup_append.mp (h.sound.perm.nodup_iff.mpr h.sound.nodup)).2.1
  obtain ⟨-, -, -, hsound⟩ := freeAddress_eq_done hfree
  refine ⟨hused, hfree, hsound h.sound, h.maps, fun x => ?_⟩
  rw [hnodup.mem_erase_iff, h.owned x]
  constructor
  · rintro ⟨hne, l', hl', hp', rfl⟩
    refine ⟨l', (hls l').mpr ⟨hl', ?_⟩, hp', rfl⟩
    rintro rfl
    exact hne rfl
  · rintro ⟨l', hl', hp', rfl⟩
    obtain ⟨hl', hne⟩ := (hls l').mp hl'
    exact ⟨fun hsrc => hne (hsingle l' hl' hp' hsrc), l', hl', hp', rfl⟩

/-! The invariant of a run. -/

structure Balanced (cfg : NetConfig) (b : Books) : Prop where
  accounts : ∀ p ap, b.sys.pool p = some ap → Accounts b.leases p ap
  there : ∀ l ∈ b.leases, (b.sys.pool l.pool).isSome = true
  single : ∀ l ∈ b.leases, ∀ l' ∈ b.leases, l.pool = l'.pool → l.src = l'.src → l = l'
  live : ∀ l ∈ b.leases, ∃ f, (b.sys.cores l.core).streams l.id = some f ∧ f.isBoundAddr = true ∧
    f.tuple.src = l.src
  recorded : ∀ k id f, (b.sys.cores k).streams id = some f → f.isBoundAddr = true →
    ∃ l ∈ b.leases, l.core = k ∧ l.id = id
  home : ∀ l ∈ b.leases, b.sys.home cfg l.core l.src = some l.pool
  fresh : ∀ k id f, (b.sys.cores k).streams id = some f → id < (b.sys.cores k).gId
  intact : b.sys.fault ≠ some .brokenList

theorem Balanced.conserved (h : Balanced cfg b) : Conserved b :=
  ⟨fun p ap hp => (h.accounts p ap hp).sound, fun p ap hp => (h.accounts p ap hp).owned, h.single,
    h.there, h.live, h.intact⟩

theorem home_congr (hap : (s'.cores k).ap.isSome = (s.cores k).ap.isSome) (src : Addr) :
    s'.home cfg k src = s.home cfg k src := by
  rw [System.home, System.home, hap]

theorem home_of_pool (h : ∀ p, s'.pool p = s.pool p) (k : Nat) (src : Addr) :
    s'.home cfg k src = s.home cfg k src :=
  home_congr (congrArg Option.isSome (h (.own k))) src

/-- A stream has one lease at most: the core and the source say which pool it is from. -/
theorem Balanced.eq_of_stream (h : Balanced cfg b) (hl : l ∈ b.leases) (hl' : l' ∈ b.leases)
    (hcore : l.core = l'.core) (hid : l.id = l'.id) : l = l' := by
  obtain ⟨f, hf, -, hsrc⟩ := h.live l hl
  obtain ⟨f', hf', -, hsrc'⟩ := h.live l' hl'
  rw [hcore, hid, hf'] at hf
  obtain rfl := Option.some.inj hf
  have hsame : l.src = l'.src := hsrc.symm.trans hsrc'
  have hhome := h.home l hl
  rw [hcore, hsame, h.home l' hl'] at hhome
  exact h.single l hl l' hl' (Option.some.inj hhome).symm hsame

theorem Balanced.congr (h : Balanced cfg ⟨s, ls⟩) (hpool : ∀ p, s'.pool p = s.pool p)
    (hkept : ∀ l ∈ ls, ∀ f, (s.cores l.core).streams l.id = some f → f.isBoundAddr →
      ∃ f', (s'.cores l.core).streams l.id = some f' ∧ f'.isBoundAddr ∧ f'.tuple = f.tuple)
    (hnew : ∀ k id f', (s'.cores k).streams id = some f' → f'.isBoundAddr →
      ∃ f, (s.cores k).streams id = some f ∧ f.isBoundAddr)
    (hfresh : ∀ k id f, (s'.cores k).streams id = some f → id < (s'.cores k).gId)
    (hintact : s'.fault ≠ some .brokenList) : Balanced cfg ⟨s', ls⟩ := by
  refine ⟨fun p ap hp => h.accounts p ap (hpool p ▸ hp), fun l hl => ?_, h.single, fun l hl => ?_,
    fun k id f' hf' hb' => ?_, fun l hl => ?_, hfresh, hintact⟩
  · rw [hpool]
    exact h.there l hl
  · obtain ⟨f, hf, hb, hsrc⟩ := h.live l hl
    obtain ⟨f', hf', hb', ht⟩ := hkept l hl f hf hb
    exact ⟨f', hf', hb', by rw [ht, hsrc]⟩
  · obtain ⟨f, hf, hb⟩ := hnew k id f' hf' hb'
    exact h.recorded k id f hf hb
  · exact (home_of_pool hpool _ _).trans (h.home l hl)

theorem abort_intact (h : s.fault ≠ some .brokenList) :
    (s.abort .noRoute).fault ≠ some .brokenList := by
  unfold System.abort
  cases hf : s.fault with
  | none => simp
  | some g =>
    rw [hf] at h
    exact h

theorem Balanced.abort (h : Balanced cfg ⟨s, ls⟩) : Balanced cfg ⟨s.abort .noRoute, ls⟩ :=
  h.congr (abort_pool s _) (fun _ _ f hf hb => ⟨f, hf, hb, rfl⟩) (fun _ _ f hf hb => ⟨f, hf, hb⟩)
    h.fresh (abort_intact h.intact)

theorem Balanced.onCore (h : Balanced cfg ⟨s, ls⟩) (k : Nat) (g : Core → Core)
    (hap : (g (s.cores k)).ap = (s.cores k).ap)
    (hkept : ∀ l ∈ ls, l.core = k → ∀ f, (s.cores k).streams l.id = some f → f.isBoundAddr →
      ∃ f', (g (s.cores k)).streams l.id = some f' ∧ f'.isBoundAddr ∧ f'.tuple = f.tuple)
    (hnew : ∀ id f', (g (s.cores k)).streams id = some f' → f'.isBoundAddr →
      ∃ f, (s.cores k).streams id = some f ∧ f.isBoundAddr)
    (hfresh : ∀ id f, (g (s.cores k)).streams id = some f → id < (g (s.cores k)).gId) :
    Balanced cfg ⟨s.onCore k g, ls⟩ := by
  refine h.congr (onCore_pool hap) (fun l hl f hf hb => ?_) (fun j id f' hf' hb' => ?_)
    (fun j id f hf => ?_) h.intact
  · rw [onCore_cores]
    by_cases hk : l.core = k
    · rw [if_pos hk]
      exact hkept l hl hk f (hk ▸ hf) hb
    · rw [if_neg hk]
      exact ⟨f, hf, hb, rfl⟩
  · rw [onCore_cores] at hf'
    by_cases hj : j = k
    · rw [if_pos hj] at hf'
      exact hj ▸ hnew id f' hf' hb'
    · rw [if_neg hj] at hf'
      exact ⟨f', hf', hb'⟩
  · rw [onCore_cores] at hf ⊢
    by_cases hj : j = k
    · rw [if_pos hj] at hf ⊢
      exact hfresh id f hf
    · rw [if_neg hj] at hf ⊢
      exact h.fresh j id f hf

theorem Balanced.onCore_api (h : Balanced cfg ⟨s, ls⟩) (k : Nat) (g : Core → Core)
    (hstreams : (g (s.cores k)).streams = (s.cores k).streams)
    (hgId : (g (s.cores k)).gId = (s.cores k).gId) (hap : (g (s.cores k)).ap = (s.cores k).ap) :
    Balanced cfg ⟨s.onCore k g, ls⟩ := by
  refine h.onCore k g hap (fun l _ _ f hf hb => ⟨f, hstreams ▸ hf, hb, rfl⟩)
    (fun id f hf hb => ⟨f, hstreams ▸ hf, hb⟩) fun id f hf => ?_
  rw [hgId]
  rw [hstreams] at hf
  exact h.fresh k id f hf

theorem createTCPStream_streams (f : Flow) (sock : Option Nat) (c : Core) (id : Nat) :
    (createTCPStream f sock c).streams id = if id = c.gId then some f else c.streams id := by
  simp only [createTCPStream, update_apply]

theorem createTCPStream_fresh {c : Core} (h : ∀ id f, c.streams id = some f → id < c.gId)
    (f : Flow) (sock : Option Nat) : ∀ id f', (createTCPStream f sock c).streams id = some f' →
      id < (createTCPStream f sock c).gId := by
  intro id f' hf'
  rw [createTCPStream_streams] at hf'
  by_cases hid : id = c.gId
  · rw [hid]
    exact Nat.lt_succ_self _
  · rw [if_neg hid] at hf'
    exact Nat.lt_succ_of_lt (h id f' hf')

theorem Balanced.addStream (h : Balanced cfg ⟨s, ls⟩) (k : Nat) (hb : f.isBoundAddr = false)
    (sock : Option Nat) : Balanced cfg ⟨s.addStream cfg k f sock, ls⟩ := by
  have hadd : Balanced cfg ⟨s.onCore k (createTCPStream f sock), ls⟩ := by
    refine h.onCore k _ rfl (fun l _ _ g hg hgb => ⟨g, ?_, hgb, rfl⟩) (fun id g hg hgb => ?_)
      (createTCPStream_fresh (h.fresh k) f sock)
    · rw [createTCPStream_streams, if_neg (Nat.ne_of_lt (h.fresh k l.id g hg))]
      exact hg
    · rw [createTCPStream_streams] at hg
      by_cases hid : id = (s.cores k).gId
      · rw [if_pos hid, Option.some.injEq] at hg
        rw [← hg, hb] at hgb
        exact absurd hgb Bool.noConfusion
      · rw [if_neg hid] at hg
        exact ⟨g, hg, hgb⟩
  unfold System.addStream
  split
  · exact hadd.abort
  · exact hadd

theorem setPool_gId (s : System) (p : PoolId) (o : Option AddrPool) (j : Nat) :
    ((s.setPool p o).cores j).gId = (s.cores j).gId := by
  cases p with
  | own n =>
    by_cases hj : j = n
    · simp [System.setPool, onCore_cores, hj]
    · simp [System.setPool, onCore_cores, hj]
  | eth n => rfl

theorem setPool_fault (s : System) (p : PoolId) (o : Option AddrPool) :
    (s.setPool p o).fault = s.fault := by
  cases p <;> rfl

theorem taken_gId (s : System) (k i : Nat) (p : PoolId) (x : Addr) (ap : AddrPool) (j : Nat) :
    ((s.taken k i p x ap).cores j).gId = (s.cores j).gId := by
  rw [System.taken, onCore_cores, ← setPool_gId s p (some (ap.take x)) j]
  by_cases hj : j = k
  · rw [if_pos hj, hj]
    rfl
  · rw [if_neg hj]

theorem taken_home (hap : s.pool p = some ap) (k i j : Nat) (x src : Addr) :
    (s.taken k i p x ap).home cfg j src = s.home cfg j src := by
  apply home_congr
  change ((s.taken k i p x ap).pool (.own j)).isSome = (s.pool (.own j)).isSome
  rw [taken_pool]
  by_cases hj : PoolId.own j = p
  · rw [if_pos hj, hj, hap]
    rfl
  · rw [if_neg hj]

theorem Balanced.lease (h : Balanced cfg ⟨s, ls⟩) (i : Nat) (hap : s.pool p = some ap)
    (hmem : x ∈ ap.free) (hhome : s.home cfg k x = some p) (hb : f.isBoundAddr)
    (hsrc : f.tuple.src = x) (sock : Option Nat) :
    Balanced cfg ⟨(s.taken k i p x ap).addStream cfg k f sock,
      ⟨k, (s.cores k).gId, p, x⟩ :: ls⟩ := by
  have hunused : ∀ l ∈ ls, l.pool = p → l.src ≠ x := fun l hl hp hx =>
    (h.accounts p ap hap).sound.not_mem_used hmem
      (((h.accounts p ap hap).owned x).mpr ⟨l, hl, hp, hx⟩)
  have hpool : ∀ q, ((s.taken k i p x ap).onCore k (createTCPStream f sock)).pool q =
      if q = p then some (ap.take x) else s.pool q := fun q =>
    (onCore_pool rfl q).trans (taken_pool s k i p q x ap)
  have hstreams : ∀ j id, (((s.taken k i p x ap).onCore k (createTCPStream f sock)).cores
      j).streams id =
      if j = k ∧ id = (s.cores k).gId then some f else (s.cores j).streams id := by
    intro j id
    rw [onCore_cores]
    by_cases hj : j = k
    · rw [if_pos hj, createTCPStream_streams, taken_gId, taken_streams, hj]
      simp only [true_and]
    · rw [if_neg hj, taken_streams, if_neg fun hjk => hj hjk.1]
  have hold : ∀ j id g, (s.cores j).streams id = some g → ¬ (j = k ∧ id = (s.cores k).gId) := by
    rintro j id g hg ⟨rfl, rfl⟩
    exact Nat.lt_irrefl _ (h.fresh _ _ g hg)
  have hadd : Balanced cfg ⟨(s.taken k i p x ap).onCore k (createTCPStream f sock),
      ⟨k, (s.cores k).gId, p, x⟩ :: ls⟩ := by
    refine ⟨fun q ap' hq => ?_, fun l hl => ?_, fun l hl l' hl' hp hx => ?_, fun l hl => ?_,
      fun j id g hg hgb => ?_, fun l hl => ?_, fun j id g hg => ?_, ?_⟩
    · rw [hpool] at hq
      by_cases hqp : q = p
      · rw [if_pos hqp, Option.some.injEq] at hq
        rw [← hq, hqp]
        exact (h.accounts p ap hap).take hmem rfl rfl
      · rw [if_neg hqp] at hq
        refine (h.accounts q ap' hq).congr fun l hl => ?_
        rw [List.mem_cons]
        refine ⟨fun hor => hor.resolve_left fun heq => hqp ?_, .inr⟩
        rw [← hl, heq]
    · rw [hpool]
      by_cases hlp : l.pool = p
      · rw [if_pos hlp]
        rfl
      · rw [if_neg hlp]
        obtain rfl | hl := List.mem_cons.mp hl
        · exact absurd rfl hlp
        · exact h.there l hl
    · obtain rfl | hl := List.mem_cons.mp hl
      · obtain rfl | hl' := List.mem_cons.mp hl'
        · rfl
        · exact absurd hx.symm (hunused l' hl' hp.symm)
      · obtain rfl | hl' := List.mem_cons.mp hl'
        · exact absurd hx (hunused l hl hp)
        · exact h.single l hl l' hl' hp hx
    · rw [hstreams]
      obtain rfl | hl := List.mem_cons.mp hl
      · exact ⟨f, if_pos ⟨rfl, rfl⟩, hb, hsrc⟩
      · obtain ⟨g, hg, hgb, hgsrc⟩ := h.live l hl
        exact ⟨g, by rw [if_neg (hold _ _ g hg)]; exact hg, hgb, hgsrc⟩
    · rw [hstreams] at hg
      by_cases hnew : j = k ∧ id = (s.cores k).gId
      · exact ⟨_, (.head _), hnew.1.symm, hnew.2.symm⟩
      · rw [if_neg hnew] at hg
        obtain ⟨l, hl, hlid⟩ := h.recorded j id g hg hgb
        exact ⟨l, .tail _ hl, hlid⟩
    · have hsame : ∀ j src, ((s.taken k i p x ap).onCore k (createTCPStream f sock)).home cfg j
          src = s.home cfg j src := fun j src =>
        (home_of_pool (onCore_pool rfl) j src).trans (taken_home hap k i j x src)
      obtain rfl | hl := List.mem_cons.mp hl
      · exact (hsame _ _).trans hhome
      · exact (hsame _ _).trans (h.home l hl)
    · have hfresh : ∀ id g, ((s.taken k i p x ap).cores k).streams id = some g →
          id < ((s.taken k i p x ap).cores k).gId := by
        intro id g hg
        rw [taken_gId]
        rw [taken_streams] at hg
        exact h.fresh k id g hg
      rw [onCore_cores] at hg ⊢
      by_cases hj : j = k
      · rw [if_pos hj] at hg ⊢
        exact createTCPStream_fresh hfresh f sock id g hg
      · rw [if_neg hj] at hg ⊢
        rw [taken_gId]
        rw [taken_streams] at hg
        exact h.fresh j id g hg
    · intro hbroken
      exact h.intact ((setPool_fault s p (some (ap.take x))).symm.trans hbroken)
  unfold System.addStream
  split
  · exact hadd.abort
  · exact hadd

/-! What the steps do. -/

theorem releaseSource_eq (h : s.home cfg k x = some p) :
    releaseSource cfg k x s = s.freeTo p x := by
  unfold System.home at h
  unfold releaseSource
  by_cases hown : (s.cores k).ap.isSome
  · rw [if_pos hown, Option.some.injEq] at h
    rw [if_pos hown, h]
  · rw [if_neg hown] at h
    rw [if_neg hown]
    obtain ⟨nif, hnif, rfl⟩ := Option.map_eq_some_iff.mp h
    rw [hnif]

theorem removeStream_streams (s : System) (k id j n : Nat) (f : Flow) :
    ((s.onCore k (removeStream id f)).cores j).streams n =
      if j = k ∧ n = id then none else (s.cores j).streams n := by
  rw [onCore_cores]
  by_cases hj : j = k
  · rw [if_pos hj, hj]
    simp only [removeStream, update_apply, true_and]
  · rw [if_neg hj, if_neg fun hjk => hj hjk.1]

theorem destroyTCPStream_eq (h : Balanced cfg ⟨s, ls⟩) (hl : l ∈ ls)
    (hls : ∀ l', l' ∈ ls' ↔ l' ∈ ls ∧ l' ≠ l) :
    ∃ f ap, (s.cores l.core).streams l.id = some f ∧ s.pool l.pool = some ap ∧ l.src ∈ ap.used ∧
      Accounts ls' l.pool { ap with used := ap.used.erase l.src, free := ap.free ++ [l.src] } ∧
      destroyTCPStream cfg l.core l.id s = (s.onCore l.core (removeStream l.id f)).setPool l.pool
        (some { ap with used := ap.used.erase l.src, free := ap.free ++ [l.src] }) := by
  obtain ⟨f, hf, hb, hsrc⟩ := h.live l hl
  obtain ⟨ap, hap⟩ := Option.isSome_iff_exists.mp (h.there l hl)
  obtain ⟨hused, hfree, hacc⟩ := (h.accounts _ ap hap).free hl rfl hls
    fun l' hl' hp hx => h.single l' hl' l hl hp hx
  refine ⟨f, ap, hf, hap, hused, hacc, ?_⟩
  have hpool : ∀ q, (s.onCore l.core (removeStream l.id f)).pool q = s.pool q := onCore_pool rfl
  have hhome : (s.onCore l.core (removeStream l.id f)).home cfg l.core l.src = some l.pool :=
    (home_of_pool hpool _ _).trans (h.home l hl)
  dsimp only at hf hap
  unfold destroyTCPStream
  simp only [hf, hb, if_true, hsrc, releaseSource_eq hhome, System.freeTo, hpool, hap, hfree]

theorem balanced_remove (h : Balanced cfg ⟨s, ls⟩) (hl : l ∈ ls)
    (hls : ∀ l', l' ∈ ls' ↔ l' ∈ ls ∧ l' ≠ l) :
    Balanced cfg ⟨destroyTCPStream cfg l.core l.id s, ls'⟩ := by
  obtain ⟨f, ap, hf, hap, -, hacc, heq⟩ := destroyTCPStream_eq h hl hls
  rw [heq]
  set ap' : AddrPool := { ap with used := ap.used.erase l.src, free := ap.free ++ [l.src] }
  set s₁ := s.onCore l.core (removeStream l.id f) with hs₁
  have hpool : ∀ q, (s₁.setPool l.pool (some ap')).pool q =
      if q = l.pool then some ap' else s.pool q := fun q => by
    rw [setPool_pool, onCore_pool rfl]
  have hstreams : ∀ j n, ((s₁.setPool l.pool (some ap')).cores j).streams n =
      if j = l.core ∧ n = l.id then none else (s.cores j).streams n := fun j n => by
    rw [setPool_streams, removeStream_streams]
  have hgId : ∀ j, ((s₁.setPool l.pool (some ap')).cores j).gId = (s.cores j).gId := by
    intro j
    rw [setPool_gId, hs₁, onCore_cores]
    by_cases hj : j = l.core
    · rw [if_pos hj, hj]
      rfl
    · rw [if_neg hj]
  have hhome : ∀ j src, (s₁.setPool l.pool (some ap')).home cfg j src = s.home cfg j src := by
    intro j src
    apply home_congr
    change ((s₁.setPool l.pool (some ap')).pool (.own j)).isSome = (s.pool (.own j)).isSome
    rw [hpool]
    by_cases hj : PoolId.own j = l.pool
    · rw [if_pos hj, hj, hap]
      rfl
    · rw [if_neg hj]
  refine ⟨fun q ap₁ hq => ?_, fun l' hl' => ?_, fun l₁ hl₁ l₂ hl₂ => ?_, fun l' hl' => ?_,
    fun j n g hg hgb => ?_, fun l' hl' => ?_, fun j n g hg => ?_, ?_⟩
  · rw [hpool] at hq
    by_cases hqp : q = l.pool
    · rw [if_pos hqp, Option.some.injEq] at hq
      rw [← hq, hqp]
      exact hacc
    · rw [if_neg hqp] at hq
      refine (h.accounts q ap₁ hq).congr fun l' hp => ?_
      rw [hls]
      refine ⟨And.left, fun hl' => ⟨hl', ?_⟩⟩
      rintro rfl
      exact hqp hp.symm
  · rw [hpool]
    by_cases hlp : l'.pool = l.pool
    · rw [if_pos hlp]
      rfl
    · rw [if_neg hlp]
      exact h.there l' ((hls l').mp hl').1
  · exact h.single l₁ ((hls l₁).mp hl₁).1 l₂ ((hls l₂).mp hl₂).1
  · obtain ⟨hmem, hne⟩ := (hls l').mp hl'
    rw [hstreams, if_neg fun heq => hne (h.eq_of_stream hmem hl heq.1 heq.2)]
    exact h.live l' hmem
  · rw [hstreams] at hg
    by_cases hgone : j = l.core ∧ n = l.id
    · rw [if_pos hgone] at hg
      exact absurd hg nofun
    · rw [if_neg hgone] at hg
      obtain ⟨l', hl', hcore, hid⟩ := h.recorded j n g hg hgb
      refine ⟨l', (hls l').mpr ⟨hl', ?_⟩, hcore, hid⟩
      rintro rfl
      exact hgone ⟨hcore.symm, hid.symm⟩
  · exact (hhome _ _).trans (h.home l' ((hls l').mp hl').1)
  · rw [hstreams] at hg
    rw [hgId]
    by_cases hgone : j = l.core ∧ n = l.id
    · rw [if_pos hgone] at hg
      exact absurd hg nofun
    · rw [if_neg hgone] at hg
      exact h.fresh j n g hg
  · intro hbroken
    exact h.intact ((setPool_fault s₁ l.pool (some ap')).symm.trans hbroken)

section

variable (h : Balanced cfg ⟨s, ls⟩)
include h

theorem balanced_destroy_unbound (hno : ∀ l ∈ ls, ¬ (l.core = k ∧ l.id = id)) :
    Balanced cfg ⟨destroyTCPStream cfg k id s, ls⟩ := by
  unfold destroyTCPStream
  cases hf : (s.cores k).streams id with
  | none => exact h
  | some f =>
    have hb : f.isBoundAddr ≠ true := fun hb => by
      obtain ⟨l, hl, hlid⟩ := h.recorded k id f hf hb
      exact hno l hl hlid
    dsimp only
    rw [if_neg hb]
    refine h.onCore k _ rfl (fun l hl hcore g hg hgb => ⟨g, ?_, hgb, rfl⟩) (fun n g hg hgb => ?_)
      fun n g hg => ?_
    · have hne : l.id ≠ id := fun hid => hno l hl ⟨hcore, hid⟩
      simpa only [removeStream, update_of_ne hne] using hg
    · by_cases hn : n = id
      · simp [removeStream, hn] at hg
      · simp only [removeStream, update_of_ne hn] at hg
        exact ⟨g, hg, hgb⟩
    · by_cases hn : n = id
      · simp [removeStream, hn] at hg
      · simp only [removeStream, update_of_ne hn] at hg
        exact h.fresh k n g hg

theorem mem_leases_destroy (hl : l ∈ ls) (l' : Lease) :
    l' ∈ ls.filter (fun l' => !(l'.core == l.core && l'.id == l.id)) ↔ l' ∈ ls ∧ l' ≠ l := by
  rw [List.mem_filter]
  refine and_congr_right fun hl' => ?_
  simp only [Bool.not_eq_true', Bool.and_eq_false_iff, beq_eq_false_iff_ne, ne_eq]
  constructor
  · rintro hne rfl
    exact hne.elim (fun hcore => hcore rfl) fun hid => hid rfl
  · intro hne
    by_cases hcore : l'.core = l.core
    · exact .inr fun hid => hne (h.eq_of_stream hl' hl hcore hid)
    · exact .inl hcore

theorem balanced_destroy (k id : Nat) : Balanced cfg ⟨destroyTCPStream cfg k id s,
      ls.filter fun l => !(l.core == k && l.id == id)⟩ := by
  by_cases hlease : ∃ l ∈ ls, l.core = k ∧ l.id = id
  · obtain ⟨l, hl, rfl, rfl⟩ := hlease
    exact balanced_remove h hl (mem_leases_destroy h hl)
  · have hno : ∀ l ∈ ls, ¬ (l.core = k ∧ l.id = id) := fun l hl hlid => hlease ⟨l, hl, hlid⟩
    have hall : ls.filter (fun l => !(l.core == k && l.id == id)) = ls := by
      apply List.filter_eq_self.mpr
      intro l hl
      have hne := not_and_or.mp (hno l hl)
      simpa using hne
    rw [hall]
    exact balanced_destroy_unbound h hno

theorem Balanced.replacePool (hno : ∀ l ∈ ls, l.core ≠ k) {g : Core → Core}
    (hstreams : (g (s.cores k)).streams = (s.cores k).streams)
    (hgId : (g (s.cores k)).gId = (s.cores k).gId) (hap : ∀ ap, (g (s.cores k)).ap = some ap →
      ap.Sound ∧ (∀ e ∈ ap.pool, ap.maps e) ∧ ap.used = []) : Balanced cfg ⟨s.onCore k g, ls⟩ := by
  -- Only a stream of the core can have a source from its pool.
  have hown : ∀ l ∈ ls, l.pool ≠ .own k := by
    intro l hl hp
    have hhome := h.home l hl
    rw [hp, System.home] at hhome
    by_cases hsome : ((⟨s, ls⟩ : Books).sys.cores l.core).ap.isSome
    · rw [if_pos hsome, Option.some.injEq, PoolId.own.injEq] at hhome
      exact hno l hl hhome
    · rw [if_neg hsome] at hhome
      obtain ⟨nif, -, heq⟩ := Option.map_eq_some_iff.mp hhome
      exact absurd heq nofun
  have hcore : ∀ j, j ≠ k → (s.onCore k g).cores j = s.cores j := fun j hj => by
    rw [onCore_cores, if_neg hj]
  have hpool : ∀ q, q ≠ .own k → (s.onCore k g).pool q = s.pool q := by
    intro q hq
    cases q with
    | own j => exact congrArg Core.ap (hcore j fun hj => hq (hj ▸ rfl))
    | eth n => rfl
  have hsame : ∀ j, ((s.onCore k g).cores j).streams = (s.cores j).streams ∧
      ((s.onCore k g).cores j).gId = (s.cores j).gId := by
    intro j
    by_cases hj : j = k
    · rw [onCore_cores, if_pos hj, hj]
      exact ⟨hstreams, hgId⟩
    · rw [hcore j hj]
      exact ⟨rfl, rfl⟩
  refine ⟨fun q ap hq => ?_, fun l hl => ?_, h.single, fun l hl => ?_, fun j id f hf hb => ?_,
    fun l hl => ?_, fun j id f hf => ?_, h.intact⟩
  · by_cases hqk : q = .own k
    · rw [hqk] at hq
      change ((s.onCore k g).cores k).ap = some ap at hq
      rw [onCore_cores, if_pos rfl] at hq
      obtain ⟨hsound, hmaps, hused⟩ := hap ap hq
      exact .fresh hsound hmaps hused (hqk ▸ hown)
    · rw [hpool q hqk] at hq
      exact h.accounts q ap hq
  · rw [hpool _ (hown l hl)]
    exact h.there l hl
  · rw [(hsame _).1]
    exact h.live l hl
  · rw [(hsame j).1] at hf
    exact h.recorded j id f hf hb
  · exact (home_congr (by rw [hcore _ (hno l hl)]) _).trans (h.home l hl)
  · rw [(hsame j).1] at hf
    rw [(hsame j).2]
    exact h.fresh j id f hf

theorem balanced_initRss (saddrBase : UInt32) (numAddr : Int32) (daddr dport : UInt32) (mem : Bool)
    (hno : ∀ l ∈ ls, l.core ≠ k) :
    Balanced cfg ⟨mtcpInitRss cfg k saddrBase numAddr daddr dport mem s, ls⟩ := by
  have hreset : Balanced cfg ⟨s.onCore k fun c => { c with ap := none }, ls⟩ :=
    h.replacePool hno rfl rfl fun _ hap => absurd hap nofun
  have hinstall : ∀ base dest, Balanced cfg ⟨installPool cfg k base numAddr dest mem
      (s.onCore k fun c => { c with ap := none }), ls⟩ := by
    intro base dest
    obtain heq | ⟨ap, hap, heq⟩ := installPool_cases cfg k base numAddr dest mem
      (s.onCore k fun c => { c with ap := none })
    · rw [heq]
      exact hreset
    · rw [heq]
      refine hreset.replacePool hno rfl rfl fun ap' hap' => ?_
      obtain rfl := Option.some.inj hap'
      refine ⟨createAddressPoolPerCore_sound hap, createAddressPoolPerCore_maps hap, ?_⟩
      obtain ⟨n, -, rfl⟩ := Option.map_eq_some_iff.mp hap
      rfl
  unfold mtcpInitRss
  by_cases hbase : saddrBase = 0
  · simp only [if_pos hbase]
    cases getOutputInterface cfg daddr with
    | none => exact hreset.abort
    | some nif => exact hinstall _ _
  · simp only [if_neg hbase]
    exact hinstall _ _

theorem balanced_packet (k : Nat) (t : Tuple) (syn ack mem : Bool) :
    Balanced cfg ⟨processTCPPacket cfg k t syn ack mem s, ls⟩ := by
  unfold processTCPPacket
  cases streamHTSearch t (s.cores k) with
  | some _ => exact h
  | none =>
    dsimp only
    split
    · have hapi : ∀ api, Balanced cfg ⟨s.onCore k fun c => { c with api := api }, ls⟩ :=
        fun api => h.onCore_api k _ rfl rfl rfl
      split
      · exact (hapi _).addStream k rfl none
      · exact hapi _
    · exact h

theorem balanced_advance (k id : Nat) (st : TcpState) :
    Balanced cfg ⟨s.onCore k (advance id st), ls⟩ := by
  cases hf : (s.cores k).streams id with
  | none =>
    have heq : advance id st (s.cores k) = s.cores k := by rw [advance, hf]
    exact h.onCore_api k _ (by rw [heq]) (by rw [heq]) (by rw [heq])
  | some f =>
    have hstreams : ∀ n, (advance id st (s.cores k)).streams n =
        if n = id then some { f with state := st } else (s.cores k).streams n := by
      intro n
      rw [advance, hf]
      simp only [update_apply]
    have hgId : (advance id st (s.cores k)).gId = (s.cores k).gId := by rw [advance, hf]
    refine h.onCore k _ (by rw [advance, hf]) (fun l _ _ g hg hgb => ?_) (fun n g hg hgb => ?_)
      fun n g hg => ?_
    · rw [hstreams]
      by_cases hn : l.id = id
      · rw [hn, hf] at hg
        obtain rfl := Option.some.inj hg
        exact ⟨_, if_pos hn, hgb, rfl⟩
      · exact ⟨g, by rw [if_neg hn]; exact hg, hgb, rfl⟩
    · rw [hstreams] at hg
      by_cases hn : n = id
      · rw [if_pos hn, Option.some.injEq] at hg
        rw [← hg] at hgb
        exact ⟨f, hn ▸ hf, hgb⟩
      · rw [if_neg hn] at hg
        exact ⟨g, hg, hgb⟩
    · rw [hstreams] at hg
      rw [hgId]
      by_cases hn : n = id
      · exact h.fresh k n f (hn ▸ hf)
      · rw [if_neg hn] at hg
        exact h.fresh k n g hg

end

theorem mtcpConnect_of_drawn_none {addr : Option SockAddrIn} (h : drawn cfg k i addr s = none)
    (mem queued : Bool) : (mtcpConnect cfg k i addr mem queued s).2 = s ∨
    (mtcpConnect cfg k i addr mem queued s).2 = s.abort .noRoute ∨
    ∃ src dest, (mtcpConnect cfg k i addr mem queued s).2 =
      s.addStream cfg k (opened src dest false) (some i) := by
  unfold drawn at h
  unfold mtcpConnect
  cases hdest : connectable i addr (s.cores k) with
  | error e => exact .inl rfl
  | ok dest =>
    rw [hdest] at h
    dsimp only at h ⊢
    cases hsrc : source cfg k ((s.cores k).socket i) dest s with
    | refused e => exact .inl rfl
    | noRoute => exact .inr (.inl rfl)
    | given src =>
      cases mem with
      | false => exact .inl rfl
      | true => exact .inr (.inr ⟨src, dest, rfl⟩)
    | taken p src ap =>
      rw [hsrc] at h
      exact absurd h nofun

theorem mtcpConnect_of_drawn {addr : Option SockAddrIn} (h : drawn cfg k i addr s = some (p, x))
    (queued : Bool) : ∃ dest ap, s.pool p = some ap ∧ x ∈ ap.free ∧
      (mtcpConnect cfg k i addr true queued s).2 =
        (s.taken k i p x ap).addStream cfg k (opened x dest true) (some i) := by
  unfold drawn at h
  unfold mtcpConnect
  cases hdest : connectable i addr (s.cores k) with
  | error e =>
    rw [hdest] at h
    exact absurd h nofun
  | ok dest =>
    rw [hdest] at h
    dsimp only at h ⊢
    unfold source at h ⊢
    by_cases hb : bothBound ((s.cores k).socket i)
    · rw [if_pos hb] at h
      by_cases hcore : getRSSCPUCore ((s.cores k).socket i).saddr dest.addr
          ((s.cores k).socket i).sport dest.port cfg.numQueues cfg.endianCheck ≠ k
      · rw [if_pos hcore] at h
        exact absurd h nofun
      · rw [if_neg hcore] at h
        exact absurd h nofun
    · rw [if_neg hb] at h ⊢
      obtain hsrc | hsrc | ⟨id, src, ap, hsrc, -, hap, hmem, -⟩ :=
        fetchSource_cases cfg k ((s.cores k).socket i) dest s
      · rw [hsrc] at h
        exact absurd h nofun
      · rw [hsrc] at h
        exact absurd h nofun
      · rw [hsrc] at h ⊢
        obtain ⟨rfl, rfl⟩ := h
        exact ⟨dest, ap, hap, hmem, rfl⟩

theorem balanced_step (b : Books) (e : Nat × Action) (h : Balanced cfg b)
    (hret : returnable cfg b.sys e) : Balanced cfg (b.step cfg e) := by
  obtain ⟨s, ls⟩ := b
  obtain ⟨k, a⟩ := e
  unfold Books.step
  by_cases hfault : (s.fault.isSome || (s.cores k).api.fault.isSome)
  · rw [if_pos hfault]
    exact h
  rw [if_neg hfault]
  unfold step
  rw [if_neg hfault]
  cases a with
  | api a => exact h.onCore_api k _ rfl rfl rfl
  | initRss saddrBase numAddr daddr dport mem =>
    refine balanced_initRss h _ _ _ _ _ fun l hl hk => ?_
    obtain ⟨f, hf, hb, -⟩ := h.live l hl
    subst hk
    have hmem : f ∈ (s.cores l.core).flows :=
      List.mem_filterMap.mpr ⟨l.id, List.mem_range.mpr (h.fresh _ _ f hf), hf⟩
    have hunbound := List.all_eq_true.mp hret f hmem
    rw [hb] at hunbound
    exact absurd hunbound Bool.noConfusion
  | connect i addr mem queued =>
    cases hdrawn : drawn cfg k i addr s with
    | none =>
      have hls : (⟨s, ls⟩ : Books).leasesAfter cfg (k, .connect i addr mem queued) = ls := by
        simp only [Books.leasesAfter, hdrawn]
      rw [hls]
      dsimp only
      obtain heq | heq | ⟨src, dest, heq⟩ := mtcpConnect_of_drawn_none hdrawn mem queued
      · rw [heq]
        exact h
      · rw [heq]
        exact h.abort
      · rw [heq]
        exact h.addStream k rfl _
    | some r =>
      obtain ⟨p, x⟩ := r
      simp only [returnable, hdrawn, Bool.and_eq_true, beq_iff_eq] at hret
      obtain ⟨rfl, hhome⟩ := hret
      obtain ⟨dest, ap, hap, hmem, heq⟩ := mtcpConnect_of_drawn hdrawn queued
      simp only [Books.leasesAfter, hdrawn, if_true, heq]
      exact h.lease i hap hmem hhome rfl rfl _
  | packet t syn ack mem => exact balanced_packet h k t syn ack mem
  | advance id st => exact balanced_advance h k id st
  | destroy id => exact balanced_destroy h k id

theorem balanced_createSystem (cfg : NetConfig) : Balanced cfg { sys := createSystem cfg } := by
  refine ⟨fun p ap hap => ?_, nofun, nofun, nofun, fun k id f hf => absurd hf nofun, nofun,
    fun k id f hf => absurd hf nofun, nofun⟩
  cases p with
  | own k => exact absurd hap nofun
  | eth i =>
    obtain ⟨ip, -, hip⟩ := Option.bind_eq_some_iff.mp hap
    refine .fresh (createAddressPool_sound hip) (createAddressPool_maps hip) ?_ nofun
    obtain ⟨n, -, rfl⟩ := Option.map_eq_some_iff.mp hip
    rfl

theorem books_sys (cfg : NetConfig) (b : Books) (es : List (Nat × Action)) :
    (es.foldl (Books.step cfg) b).sys = run cfg b.sys es := by
  induction es generalizing b with
  | nil => rfl
  | cons e es ih =>
    have hstep : (b.step cfg e).sys = step cfg b.sys e := by
      unfold Books.step
      by_cases hfault : (b.sys.fault.isSome || (b.sys.cores e.1).api.fault.isSome)
      · rw [if_pos hfault, step, if_pos hfault]
      · rw [if_neg hfault]
    rw [List.foldl_cons, ih, hstep]
    rfl

/-- In every state of a run in which no call loses a source, the used entries of a pool are the
sources that live streams have from it, and when such a stream is destroyed its source goes back
to that pool and to no other. -/
theorem sources_conserved (cfg : NetConfig) (es : List (Nat × Action))
    (hret : Along (Books.step cfg) (fun b e => returnable cfg b.sys e = true)
      { sys := createSystem cfg } es) :
    (books cfg es).sys = run cfg (createSystem cfg) es ∧ Conserved (books cfg es) ∧
    ∀ l ∈ (books cfg es).leases, (books cfg es).sys.fault = none →
      ((books cfg es).sys.cores l.core).api.fault = none →
      Returned l.pool l.src (books cfg es).sys
        (step cfg (books cfg es).sys (l.core, .destroy l.id)) := by
  have hrun : Balanced cfg (books cfg es) :=
    foldl_invariant balanced_step (balanced_createSystem cfg) hret
  refine ⟨books_sys cfg _ es, hrun.conserved, fun l hl hfault hapi => ?_⟩
  generalize books cfg es = b at hrun hl hfault hapi
  obtain ⟨f, ap, -, hap, hused, -, heq⟩ := destroyTCPStream_eq hrun hl (mem_leases_destroy hrun hl)
  have hstep : step cfg b.sys (l.core, .destroy l.id) = destroyTCPStream cfg l.core l.id b.sys := by
    unfold step
    rw [hfault, hapi]
    rfl
  rw [hstep, heq]
  refine ⟨⟨ap, hap, hused, ?_⟩, fun q hq => ?_⟩
  · rw [setPool_pool, if_pos rfl]
  · rw [setPool_pool, if_neg hq, onCore_pool rfl]

def oneConnect : List (Nat × Action) :=
  [(0, .api (.socket true true)),
    (0, .connect 0 (some ⟨true, true, 0x0200000a, 0x5000⟩) true true)]

def oneLease : Lease := ⟨0, 0, .eth 0, ⟨0x0100000a, 0x0104⟩⟩

theorem one_connect_returned :
    oneLease ∈ (books oneCore oneConnect).leases ∧ Conserved (books oneCore oneConnect) ∧
    Returned oneLease.pool oneLease.src (books oneCore oneConnect).sys
      (step oneCore (books oneCore oneConnect).sys (oneLease.core, .destroy oneLease.id)) := by
  have hret : Along (Books.step oneCore) (fun b e => returnable oneCore b.sys e = true)
      { sys := createSystem oneCore } oneConnect := by decide +kernel
  have hlease : oneLease ∈ (books oneCore oneConnect).leases := by decide +kernel
  have hfault : (books oneCore oneConnect).sys.fault = none := by decide +kernel
  have hapi : ((books oneCore oneConnect).sys.cores oneLease.core).api.fault = none := by
    decide +kernel
  obtain ⟨-, hconserved, hreturned⟩ := sources_conserved oneCore oneConnect hret
  exact ⟨hlease, hconserved, hreturned oneLease hlease hfault hapi⟩

def strays (k : Nat) (p : PoolId) (s : System) : List Addr :=
  match s.pool p with
  | none => []
  | some ap => ap.used.filter fun x => (s.cores k).flows.all fun f => f.tuple.src != x

/-- Two interfaces, 10.0.0.1 and 10.0.0.2, on one network, and a route to 10.1.0.0 by the second. -/
def twoInterfaces : NetConfig :=
  { oneCore with
    eths := [0x0100000a, 0x0200000a]
    rtable := [⟨0x00ffffff, 0x0000000a, 24, 0⟩, ⟨0x00ffffff, 0x0000000a, 24, 1⟩,
      ⟨0x0000ffff, 0x0000010a, 16, 1⟩] }

/-- There is no memory for the stream. Or the core gets a pool of its own before the stream is
destroyed. Or the way to the source itself is by another interface. The source stays in the used
list of the pool. -/
theorem source_stays_used :
    strays 0 (.eth 0) (run oneCore (createSystem oneCore)
      [(0, .api (.socket true true)),
        (0, .connect 0 (some ⟨true, true, 0x0200000a, 0x5000⟩) false true)]) =
      [⟨0x0100000a, 0x0104⟩] ∧
    strays 0 (.eth 0) (run oneCore (createSystem oneCore)
      [(0, .api (.socket true true)),
        (0, .connect 0 (some ⟨true, true, 0x0200000a, 0x5000⟩) true true),
        (0, .initRss 0x0900000a 1 0x0200000a 0x5000 true), (0, .destroy 0)]) =
      [⟨0x0100000a, 0x0104⟩] ∧
    strays 0 (.eth 1) (run twoInterfaces (createSystem twoInterfaces)
      [(0, .api (.socket true true)),
        (0, .connect 0 (some ⟨true, true, 0x0500010a, 0x5000⟩) true true), (0, .destroy 0)]) =
      [⟨0x0200000a, 0x0104⟩] := by
  decide +kernel

end Mtcp.Flows
