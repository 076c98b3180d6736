import Mtcp.Flows
import Mtcp.Runs

namespace Mtcp.Flows

open Listeners (SockAddrIn)
open Chains Runs List Option
open Function (update_apply update_self update_of_ne)

def Core.Live (c : Core) (id : Nat) : Prop := ∃ f, c.streams id = some f

/-- The flow table of a core holds its live streams, one for a tuple, and a search finds just these.
-/
structure OnePerTuple (c : Core) : Prop where
  live : ∀ b, ∀ id ∈ c.flowTable b, c.Live id
  nodup : ∀ b, (c.flowTable b).Nodup
  single : ∀ b b' id id', id ∈ c.flowTable b → id' ∈ c.flowTable b' → c.tupleOf id = c.tupleOf id' →
    b = b' ∧ id = id'
  found : ∀ id f, c.streams id = some f → streamHTSearch f.tuple c = some id
  missing : ∀ t, (∀ id f, c.streams id = some f → f.tuple ≠ t) → streamHTSearch t c = none

def Core.flows (c : Core) : List Flow := (List.range c.gId).filterMap c.streams

/-- The calls that keep the table in order. A source that is given explicitly is not yet used
towards the destination. No stream towards the destination, other than those that hold their
source from a pool, has a source that the pool could give out. And a core does not change its
pool while streams hold sources. -/
def unclaimed (cfg : NetConfig) (s : System) (e : Nat × Action) : Bool :=
  let c := s.cores e.1
  match e.2 with
  | .connect i addr _ _ =>
    match connectable i addr c with
    | .error _ => true
    | .ok dest =>
      let sock := c.socket i
      if bothBound sock then
        getRSSCPUCore sock.saddr dest.addr sock.sport dest.port cfg.numQueues cfg.endianCheck
            != e.1 ||
          (streamHTSearch ⟨⟨sock.saddr, sock.sport⟩, dest⟩ c).isNone
      else
        match s.poolFor cfg e.1 dest with
        | none => true
        | some id =>
          match s.pool id with
          | none => true
          | some ap => c.flows.all fun f => f.isBoundAddr || f.tuple.dst != dest ||
              !takes cfg e.1 sock dest id f.tuple.src || !ap.free.contains f.tuple.src
  | .initRss .. => c.flows.all fun f => !f.isBoundAddr
  | _ => true

variable {cfg : NetConfig} {s s' : System} {c c' : Core} {k id : Nat} {f : Flow} {p : PoolId}
  {x : Addr} {ap ap' : AddrPool}

/-! The table of one core. -/

structure Table (c : Core) : Prop where
  holds : Holds c.tupleOf hashFlow c.flowTable c.Live
  unique : Unique c.tupleOf c.Live
  fresh : ∀ id f, c.streams id = some f → id < c.gId

theorem tupleOf_of_stream (h : c.streams id = some f) : c.tupleOf id = f.tuple := by
  rw [Core.tupleOf, h]

theorem Table.onePerTuple (h : Table c) : OnePerTuple c := by
  refine ⟨h.holds.live, h.holds.nodup, fun b b' id id' hid hid' ht => ?_, fun id f hf => ?_,
    fun t ht => ?_⟩
  · have heq := h.unique id id' (h.holds.live b id hid) (h.holds.live b' id' hid') ht
    subst heq
    exact ⟨(h.holds.bin b id hid).trans (h.holds.bin b' id hid').symm, rfl⟩
  · exact (h.holds.search_eq_some_iff h.unique).mpr ⟨⟨f, hf⟩, tupleOf_of_stream hf⟩
  · apply h.holds.search_eq_none_iff.mpr
    rintro id ⟨f, hf⟩
    rw [tupleOf_of_stream hf]
    exact ht id f hf

theorem Table.mem_flows (h : Table c) (hf : c.streams id = some f) : f ∈ c.flows :=
  mem_filterMap.mpr ⟨id, mem_range.mpr (h.fresh id f hf), hf⟩

theorem Table.congr (h : Table c) (hlive : ∀ id, c'.Live id ↔ c.Live id)
    (htuple : c'.tupleOf = c.tupleOf) (htable : c'.flowTable = c.flowTable)
    (hgId : c'.gId = c.gId) : Table c' := by
  refine ⟨?_, ?_, fun id f hf => ?_⟩
  · rw [htuple, htable]
    exact h.holds.congr hlive fun _ _ => rfl
  · rw [htuple]
    exact h.unique.congr (fun id => (hlive id).mp) fun _ _ => rfl
  · obtain ⟨g, hg⟩ := (hlive id).mp ⟨f, hf⟩
    exact hgId ▸ h.fresh id g hg

theorem Table.of_streams (h : Table c) (hstreams : c'.streams = c.streams)
    (htable : c'.flowTable = c.flowTable) (hgId : c'.gId = c.gId) : Table c' := by
  refine h.congr (fun id => ?_) ?_ htable hgId
  · rw [Core.Live, hstreams, Core.Live]
  · funext id
    rw [Core.tupleOf, hstreams, Core.tupleOf]

theorem Table.advance (h : Table c) (id : Nat) (st : TcpState) : Table (advance id st c) := by
  unfold Flows.advance
  cases hf : c.streams id with
  | none => exact h
  | some f =>
    refine h.congr (fun id' => ?_) ?_ rfl rfl
    · by_cases hid : id' = id
      · subst hid
        simp [Core.Live, hf]
      · simp [Core.Live, hid]
    · funext id'
      by_cases hid : id' = id
      · subst hid
        simp [Core.tupleOf, hf]
      · simp [Core.tupleOf, hid]

theorem Table.removeStream (h : Table c) (hf : c.streams id = some f) :
    Table (removeStream id f c) := by
  have hlive : ∀ id', (Flows.removeStream id f c).Live id' ↔ c.Live id' ∧ id' ≠ id := by
    intro id'
    by_cases hid : id' = id
    · simp [Core.Live, Flows.removeStream, hid]
    · simp [Core.Live, Flows.removeStream, hid]
  have htuple : ∀ id', c.Live id' ∧ id' ≠ id →
      (Flows.removeStream id f c).tupleOf id' = c.tupleOf id' := by
    rintro id' ⟨-, hid⟩
    simp [Core.tupleOf, Flows.removeStream, hid]
  refine ⟨?_, ?_, fun id' g hg => ?_⟩
  · have hrem := h.holds.remove (a := id)
    rw [tupleOf_of_stream hf] at hrem
    exact hrem.congr hlive fun id' hid => by rw [htuple id' hid]
  · intro a b ha hb hab
    have ha' := (hlive a).mp ha
    have hb' := (hlive b).mp hb
    rw [htuple a ha', htuple b hb'] at hab
    exact h.unique a b ha'.1 hb'.1 hab
  · obtain ⟨⟨g', hg'⟩, -⟩ := (hlive id').mp ⟨g, hg⟩
    exact h.fresh id' g' hg'

theorem Table.createTCPStream (h : Table c) (hf : ∀ id g, c.streams id = some g → g.tuple ≠ f.tuple)
    (sock : Option Nat) : Table (createTCPStream f sock c) := by
  have hgId : ¬ c.Live c.gId := fun ⟨g, hg⟩ => Nat.lt_irrefl _ (h.fresh _ g hg)
  have hne : ∀ id, c.Live id → id ≠ c.gId := fun id hid heq => hgId (heq ▸ hid)
  have hlive : ∀ id, (Flows.createTCPStream f sock c).Live id ↔ c.Live id ∨ id = c.gId := by
    intro id
    by_cases hid : id = c.gId
    · simp [Core.Live, Flows.createTCPStream, hid]
    · simp [Core.Live, Flows.createTCPStream, hid]
  have hold : ∀ id, c.Live id → (Flows.createTCPStream f sock c).tupleOf id = c.tupleOf id := by
    intro id hid
    simp [Core.tupleOf, Flows.createTCPStream, hne id hid]
  have hnew : (Flows.createTCPStream f sock c).tupleOf c.gId = f.tuple := by
    simp [Core.tupleOf, Flows.createTCPStream]
  have hother : ∀ id, c.Live id → (Flows.createTCPStream f sock c).tupleOf id ≠ f.tuple := by
    intro id hid
    obtain ⟨g, hg⟩ := hid
    rw [hold id ⟨g, hg⟩, tupleOf_of_stream hg]
    exact hf id g hg
  refine ⟨?_, ?_, fun id g hg => ?_⟩
  · have hkeys : Holds (Flows.createTCPStream f sock c).tupleOf hashFlow c.flowTable c.Live :=
      h.holds.congr (fun _ => Iff.rfl) fun id hid => by rw [hold id hid]
    have hins := hkeys.insert hgId
    rw [hnew] at hins
    exact hins.congr hlive fun _ _ => rfl
  · intro a b ha hb hab
    obtain ha' | rfl := (hlive a).mp ha
    · obtain hb' | rfl := (hlive b).mp hb
      · rw [hold a ha', hold b hb'] at hab
        exact h.unique a b ha' hb' hab
      · exact absurd (hab.trans hnew) (hother a ha')
    · obtain hb' | rfl := (hlive b).mp hb
      · exact absurd (hab.symm.trans hnew) (hother b hb')
      · rfl
  · obtain ⟨g', hg'⟩ | rfl := (hlive id).mp ⟨g, hg⟩
    · exact Nat.lt_succ_of_lt (h.fresh id g' hg')
    · exact Nat.lt_succ_self _

/-! The sources that streams hold from the pools. -/

def Leases (cfg : NetConfig) (s : System) (k id : Nat) (p : PoolId) (x : Addr) : Prop :=
  ∃ f, (s.cores k).streams id = some f ∧ f.isBoundAddr = true ∧
    s.poolFor cfg k f.tuple.dst = some p ∧ f.tuple.src = x

structure Leased (cfg : NetConfig) (s : System) : Prop where
  sound : ∀ p ap, s.pool p = some ap → ap.Sound
  disjoint : ∀ i j ap ap', s.ap i = some ap → s.ap j = some ap' → ∀ e ∈ ap.pool, e ∈ ap'.pool →
    i = j
  held : ∀ k id f, (s.cores k).streams id = some f → f.isBoundAddr = true →
    ∃ p ap, s.poolFor cfg k f.tuple.dst = some p ∧ s.pool p = some ap ∧ f.tuple.src ∈ ap.pool ∧
      f.tuple.src ∉ ap.free
  apart : ∀ k k' id id' p x, Leases cfg s k id p x → Leases cfg s k' id' p x → k = k' ∧ id = id'

theorem Leased.not_free (h : Leased cfg s) (hl : Leases cfg s k id p x) (hap : s.pool p = some ap) :
    x ∈ ap.pool ∧ x ∉ ap.free := by
  obtain ⟨f, hf, hb, hp, rfl⟩ := hl
  obtain ⟨p', ap', hp', hap', hmem, hfree⟩ := h.held k id f hf hb
  rw [hp] at hp'
  obtain rfl := some.inj hp'
  rw [hap] at hap'
  obtain rfl := some.inj hap'
  exact ⟨hmem, hfree⟩

theorem poolFor_congr (hap : (s'.cores k).ap.isSome = (s.cores k).ap.isSome) (dest : Addr) :
    s'.poolFor cfg k dest = s.poolFor cfg k dest := by
  rw [System.poolFor, System.poolFor, hap]

theorem poolFor_eq_some {dest : Addr} (h : s.poolFor cfg k dest = some p) :
    p = .own k ∨ ∃ i, p = .eth i := by
  unfold System.poolFor at h
  by_cases hap : (s.cores k).ap.isSome
  · rw [if_pos hap] at h
    exact .inl (some.inj h).symm
  · rw [if_neg hap] at h
    obtain ⟨i, -, rfl⟩ := map_eq_some_iff.mp h
    exact .inr ⟨i, rfl⟩

theorem Leased.mono (h : Leased cfg s)
    (hflows : ∀ k id f', (s'.cores k).streams id = some f' → f'.isBoundAddr →
      ∃ f, (s.cores k).streams id = some f ∧ f.isBoundAddr ∧ f.tuple = f'.tuple)
    (hown : ∀ k, (s'.cores k).ap = (s.cores k).ap) (hap : s'.ap = s.ap) : Leased cfg s' := by
  have hpool : ∀ p, s'.pool p = s.pool p := by
    intro p
    cases p with
    | own k => exact hown k
    | eth i => exact congrFun hap i
  have hfor : ∀ k dest, s'.poolFor cfg k dest = s.poolFor cfg k dest := fun k dest =>
    poolFor_congr (by rw [hown]) dest
  have hleases : ∀ k id p x, Leases cfg s' k id p x → Leases cfg s k id p x := by
    rintro k id p x ⟨f', hf', hb', hp, rfl⟩
    obtain ⟨f, hf, hb, ht⟩ := hflows k id f' hf' hb'
    exact ⟨f, hf, hb, by rw [ht, ← hfor]; exact hp, by rw [ht]⟩
  refine ⟨fun p ap hp => h.sound p ap (hpool p ▸ hp), ?_, fun k id f' hf' hb' => ?_,
    fun k k' id id' p x hl hl' =>
      h.apart k k' id id' p x (hleases _ _ _ _ hl) (hleases _ _ _ _ hl')⟩
  · rw [hap]
    exact h.disjoint
  · obtain ⟨f, hf, hb, ht⟩ := hflows k id f' hf' hb'
    obtain ⟨p, ap, hp, hpap, hmem⟩ := h.held k id f hf hb
    rw [ht] at hp hmem
    exact ⟨p, ap, (hfor k _).trans hp, (hpool p).trans hpap, hmem⟩

theorem onCore_pool {g : Core → Core} (hap : (g (s.cores k)).ap = (s.cores k).ap) (p : PoolId) :
    (s.onCore k g).pool p = s.pool p := by
  cases p with
  | own j =>
    by_cases hj : j = k
    · simp [System.pool, onCore_cores, hj, hap]
    · simp [System.pool, onCore_cores, hj]
  | eth i => rfl

theorem setPool_pool (s : System) (p q : PoolId) (o : Option AddrPool) :
    (s.setPool p o).pool q = if q = p then o else s.pool q := by
  cases p with
  | own k =>
    cases q with
    | own j =>
      by_cases hj : j = k
      · simp [System.pool, System.setPool, onCore_cores, hj]
      · simp [System.pool, System.setPool, onCore_cores, hj]
    | eth j => rfl
  | eth i =>
    cases q with
    | own j => rfl
    | eth j => simp [System.pool, System.setPool, update_apply]

theorem setPool_streams (s : System) (p : PoolId) (o : Option AddrPool) (k : Nat) :
    ((s.setPool p o).cores k).streams = (s.cores k).streams := by
  cases p with
  | own j =>
    by_cases hk : k = j
    · simp [System.setPool, onCore_cores, hk]
    · simp [System.setPool, onCore_cores, hk]
  | eth i => rfl

theorem setPool_poolFor (hap : s.pool p = some ap) (k : Nat) (dest : Addr) :
    (s.setPool p (some ap')).poolFor cfg k dest = s.poolFor cfg k dest := by
  apply poolFor_congr
  change ((s.setPool p (some ap')).pool (.own k)).isSome = (s.pool (.own k)).isSome
  rw [setPool_pool]
  by_cases hk : PoolId.own k = p
  · rw [if_pos hk, hk, hap]
    rfl
  · rw [if_neg hk]

theorem leases_setPool {q : PoolId} (hap : s.pool p = some ap)
    (h : Leases cfg (s.setPool p (some ap')) k id q x) : Leases cfg s k id q x := by
  obtain ⟨f, hf, hb, hq, rfl⟩ := h
  rw [setPool_streams] at hf
  rw [setPool_poolFor hap] at hq
  exact ⟨f, hf, hb, hq, rfl⟩

theorem Leased.setPool (h : Leased cfg s) (hap : s.pool p = some ap) (hsound : ap'.Sound)
    (hpool : ap'.pool = ap.pool) (hfree : ∀ k id x, Leases cfg s k id p x → x ∉ ap'.free) :
    Leased cfg (s.setPool p (some ap')) := by
  have hentries : ∀ q ap₁, (s.setPool p (some ap')).pool q = some ap₁ →
      ∃ ap₀, s.pool q = some ap₀ ∧ ap₁.pool = ap₀.pool := by
    intro q ap₁ hq
    rw [setPool_pool] at hq
    by_cases hqp : q = p
    · rw [if_pos hqp] at hq
      obtain rfl := some.inj hq
      exact ⟨ap, hqp ▸ hap, hpool⟩
    · rw [if_neg hqp] at hq
      exact ⟨ap₁, hq, rfl⟩
  refine ⟨fun q ap₁ hq => ?_, fun i j ap₁ ap₂ hi hj e he he' => ?_, fun k id f hf hb => ?_,
    fun k k' id id' q x hl hl' =>
      h.apart k k' id id' q x (leases_setPool hap hl) (leases_setPool hap hl')⟩
  · rw [setPool_pool] at hq
    by_cases hqp : q = p
    · rw [if_pos hqp] at hq
      exact some.inj hq ▸ hsound
    · rw [if_neg hqp] at hq
      exact h.sound q ap₁ hq
  · obtain ⟨ap₃, hi', heq⟩ := hentries (.eth i) ap₁ hi
    obtain ⟨ap₄, hj', heq'⟩ := hentries (.eth j) ap₂ hj
    exact h.disjoint i j ap₃ ap₄ hi' hj' e (heq ▸ he) (heq' ▸ he')
  · rw [setPool_streams] at hf
    obtain ⟨q, ap₁, hq, hqap, hmem, hnot⟩ := h.held k id f hf hb
    by_cases hqp : q = p
    · subst hqp
      rw [hap] at hqap
      obtain rfl := some.inj hqap
      refine ⟨q, ap', (setPool_poolFor hap k _).trans hq, ?_, hpool ▸ hmem,
        hfree k id _ ⟨f, hf, hb, hq, rfl⟩⟩
      rw [setPool_pool, if_pos rfl]
    · refine ⟨q, ap₁, (setPool_poolFor hap k _).trans hq, ?_, hmem, hnot⟩
      rw [setPool_pool, if_neg hqp]
      exact hqap

theorem Leased.replacePool (h : Leased cfg s)
    (hnone : ∀ id f, (s.cores k).streams id = some f → f.isBoundAddr = false)
    {g : Core → Core} (hstreams : (g (s.cores k)).streams = (s.cores k).streams)
    (hsound : ∀ ap, (g (s.cores k)).ap = some ap → ap.Sound) : Leased cfg (s.onCore k g) := by
  have hcore : ∀ j, j ≠ k → (s.onCore k g).cores j = s.cores j := fun j hj => by
    rw [onCore_cores, if_neg hj]
  have hself : (s.onCore k g).cores k = g (s.cores k) := by rw [onCore_cores, if_pos rfl]
  -- A stream that holds a source is on another core.
  have hother : ∀ j id f, ((s.onCore k g).cores j).streams id = some f → f.isBoundAddr → j ≠ k := by
    rintro j id f hf hb rfl
    rw [hself, hstreams] at hf
    exact absurd (hb.symm.trans (hnone id f hf)) Bool.noConfusion
  have hfor : ∀ j dest, j ≠ k → (s.onCore k g).poolFor cfg j dest = s.poolFor cfg j dest :=
    fun j dest hj => poolFor_congr (by rw [hcore j hj]) dest
  have hleases : ∀ j id q x, Leases cfg (s.onCore k g) j id q x → Leases cfg s j id q x := by
    rintro j id q x ⟨f, hf, hb, hq, rfl⟩
    have hj := hother j id f hf hb
    rw [hcore j hj] at hf
    rw [hfor j _ hj] at hq
    exact ⟨f, hf, hb, hq, rfl⟩
  refine ⟨fun q ap hq => ?_, h.disjoint, fun j id f hf hb => ?_, fun j j' id id' q x hl hl' =>
      h.apart j j' id id' q x (hleases _ _ _ _ hl) (hleases _ _ _ _ hl')⟩
  · cases q with
    | own j =>
      change ((s.onCore k g).cores j).ap = some ap at hq
      by_cases hj : j = k
      · rw [hj, hself] at hq
        exact hsound ap hq
      · rw [hcore j hj] at hq
        exact h.sound (.own j) ap hq
    | eth i => exact h.sound (.eth i) ap hq
  · have hj := hother j id f hf hb
    rw [hcore j hj] at hf
    obtain ⟨q, ap, hq, hqap, hmem⟩ := h.held j id f hf hb
    refine ⟨q, ap, (hfor j _ hj).trans hq, ?_, hmem⟩
    obtain rfl | ⟨i, rfl⟩ := poolFor_eq_some hq
    · exact (congrArg Core.ap (hcore j hj)).trans hqap
    · exact hqap

theorem Leased.create (h : Leased cfg s) (sock : Option Nat)
    (hf : f.isBoundAddr → ∃ p ap, s.poolFor cfg k f.tuple.dst = some p ∧
      s.pool p = some ap ∧ f.tuple.src ∈ ap.pool ∧ f.tuple.src ∉ ap.free ∧
      ∀ k' id', ¬ Leases cfg s k' id' p f.tuple.src) :
    Leased cfg (s.onCore k (createTCPStream f sock)) := by
  have hpool : ∀ p, (s.onCore k (createTCPStream f sock)).pool p = s.pool p := onCore_pool rfl
  have hfor : ∀ j dest, (s.onCore k (createTCPStream f sock)).poolFor cfg j dest =
      s.poolFor cfg j dest := fun j dest => poolFor_congr (congrArg _ (hpool (.own j))) dest
  have hstreams : ∀ j id g, ((s.onCore k (createTCPStream f sock)).cores j).streams id = some g →
      (s.cores j).streams id = some g ∨ j = k ∧ id = (s.cores k).gId ∧ g = f := by
    intro j id g hg
    rw [onCore_cores] at hg
    by_cases hj : j = k
    · subst hj
      rw [if_pos rfl] at hg
      by_cases hid : id = (s.cores j).gId
      · simp only [Flows.createTCPStream, hid, update_self] at hg
        exact .inr ⟨rfl, hid, (some.inj hg).symm⟩
      · simp only [Flows.createTCPStream, update_of_ne hid] at hg
        exact .inl hg
    · rw [if_neg hj] at hg
      exact .inl hg
  have hleases : ∀ j id p x, Leases cfg (s.onCore k (createTCPStream f sock)) j id p x →
      Leases cfg s j id p x ∨ j = k ∧ id = (s.cores k).gId ∧ f.isBoundAddr ∧
        s.poolFor cfg k f.tuple.dst = some p ∧ f.tuple.src = x := by
    rintro j id p x ⟨g, hg, hb, hp, rfl⟩
    rw [hfor] at hp
    obtain hg | ⟨rfl, rfl, rfl⟩ := hstreams j id g hg
    · exact .inl ⟨g, hg, hb, hp, rfl⟩
    · exact .inr ⟨rfl, rfl, hb, hp, rfl⟩
  -- What the new stream holds nobody else does.
  have hnew : ∀ j id p, f.isBoundAddr → s.poolFor cfg k f.tuple.dst = some p →
      ¬ Leases cfg s j id p f.tuple.src := by
    intro j id p hb hp
    obtain ⟨q, -, hq, -, -, -, hno⟩ := hf hb
    rw [hp] at hq
    obtain rfl := some.inj hq
    exact hno j id
  refine ⟨fun p ap hp => h.sound p ap (hpool p ▸ hp), h.disjoint, fun j id g hg hb => ?_,
    fun j j' id id' p x hl hl' => ?_⟩
  · obtain hg | ⟨rfl, rfl, rfl⟩ := hstreams j id g hg
    · obtain ⟨p, ap, hp, hap, hmem⟩ := h.held j id g hg hb
      exact ⟨p, ap, (hfor j _).trans hp, (hpool p).trans hap, hmem⟩
    · obtain ⟨p, ap, hp, hap, hmem, hfree, -⟩ := hf hb
      exact ⟨p, ap, (hfor j _).trans hp, (hpool p).trans hap, hmem, hfree⟩
  · obtain hold | ⟨rfl, rfl, hb, hp, rfl⟩ := hleases j id p x hl
    · obtain hold' | ⟨rfl, rfl, hb, hp, rfl⟩ := hleases j' id' p x hl'
      · exact h.apart j j' id id' p x hold hold'
      · exact absurd hold (hnew j id p hb hp)
    · obtain hold' | ⟨rfl, rfl, -, -, -⟩ := hleases j' id' p _ hl'
      · exact absurd hold' (hnew j' id' p hb hp)
      · exact ⟨rfl, rfl⟩

theorem Leased.freeTo (h : Leased cfg s)
    (hno : ∀ ap, s.pool p = some ap → x ∈ ap.pool → ∀ k id, ¬ Leases cfg s k id p x) :
    Leased cfg (s.freeTo p x) := by
  unfold System.freeTo
  cases hap : s.pool p with
  | none => exact h
  | some ap =>
    dsimp only
    cases hfree : freeAddress x ap with
    | failed => exact h
    | corrupted => exact h.mono (fun _ _ f hf hb => ⟨f, hf, hb, rfl⟩) (fun _ => rfl) rfl
    | done ap' =>
      obtain ⟨hmem, hpool, hsub, hsound⟩ := freeAddress_eq_done hfree
      refine h.setPool hap (hsound (h.sound p ap hap)) hpool fun k id y hl hy => ?_
      obtain hy | rfl := hsub y hy
      · exact (h.not_free hl hap).2 hy
      · exact hno ap hap hmem k id hl

structure Tidy (cfg : NetConfig) (s : System) : Prop where
  tables : ∀ k, Table (s.cores k)
  leased : Leased cfg s

theorem Tidy.abort (h : Tidy cfg s) (g : Fault) : Tidy cfg (s.abort g) :=
  ⟨h.tables, h.leased.mono (fun _ _ f hf hb => ⟨f, hf, hb, rfl⟩) (fun _ => rfl) rfl⟩

theorem tables_onCore (h : ∀ k, Table (s.cores k)) (k : Nat) (g : Core → Core)
    (hg : Table (g (s.cores k))) (j : Nat) : Table ((s.onCore k g).cores j) := by
  rw [onCore_cores]
  by_cases hj : j = k
  · rw [if_pos hj]
    exact hg
  · rw [if_neg hj]
    exact h j

theorem Tidy.onCore (h : Tidy cfg s) (k : Nat) (g : Core → Core) (hg : Table (g (s.cores k)))
    (hflows : ∀ id f', (g (s.cores k)).streams id = some f' → f'.isBoundAddr →
      ∃ f, (s.cores k).streams id = some f ∧ f.isBoundAddr ∧ f.tuple = f'.tuple)
    (hap : (g (s.cores k)).ap = (s.cores k).ap) : Tidy cfg (s.onCore k g) := by
  refine ⟨tables_onCore h.tables k g hg,
    h.leased.mono (fun j id f' hf' hb' => ?_) (fun j => ?_) rfl⟩
  · rw [onCore_cores] at hf'
    by_cases hj : j = k
    · subst hj
      rw [if_pos rfl] at hf'
      exact hflows id f' hf' hb'
    · rw [if_neg hj] at hf'
      exact ⟨f', hf', hb', rfl⟩
  · rw [onCore_cores]
    by_cases hj : j = k
    · rw [if_pos hj, hj]
      exact hap
    · rw [if_neg hj]

theorem tables_setPool (h : ∀ k, Table (s.cores k)) (p : PoolId) (o : Option AddrPool) (j : Nat) :
    Table ((s.setPool p o).cores j) := by
  cases p with
  | own k =>
    exact tables_onCore h k (fun c => { c with ap := o }) ((h k).of_streams rfl rfl rfl) j
  | eth i => exact h j

theorem Tidy.freeTo (h : Tidy cfg s)
    (hno : ∀ ap, s.pool p = some ap → x ∈ ap.pool → ∀ k id, ¬ Leases cfg s k id p x) :
    Tidy cfg (s.freeTo p x) := by
  refine ⟨fun j => ?_, h.leased.freeTo hno⟩
  unfold System.freeTo
  cases s.pool p with
  | none => exact h.tables j
  | some ap =>
    dsimp only
    cases freeAddress x ap with
    | failed | corrupted => exact h.tables j
    | done ap' => exact tables_setPool h.tables p _ j

theorem Tidy.onCore_api (h : Tidy cfg s) (k : Nat) (g : Core → Core)
    (hstreams : (g (s.cores k)).streams = (s.cores k).streams)
    (htable : (g (s.cores k)).flowTable = (s.cores k).flowTable)
    (hgId : (g (s.cores k)).gId = (s.cores k).gId) (hap : (g (s.cores k)).ap = (s.cores k).ap) :
    Tidy cfg (s.onCore k g) :=
  h.onCore k g ((h.tables k).of_streams hstreams htable hgId)
    (fun _ f hf hb => ⟨f, hstreams ▸ hf, hb, rfl⟩) hap

theorem tidy_advance (h : Tidy cfg s) (k id : Nat) (st : TcpState) :
    Tidy cfg (s.onCore k (advance id st)) := by
  refine h.onCore k _ ((h.tables k).advance id st) (fun id' f' hf' hb' => ?_) ?_
  · unfold advance at hf'
    cases hf : (s.cores k).streams id with
    | none =>
      rw [hf] at hf'
      exact ⟨f', hf', hb', rfl⟩
    | some f =>
      rw [hf] at hf'
      by_cases hid : id' = id
      · subst hid
        simp only [update_self, some.injEq] at hf'
        subst hf'
        exact ⟨f, hf, hb', rfl⟩
      · simp only [update_of_ne hid] at hf'
        exact ⟨f', hf', hb', rfl⟩
  · unfold advance
    cases (s.cores k).streams id <;> rfl

theorem Tidy.addStream (h : Tidy cfg s) (sock : Option Nat)
    (hnew : ∀ id g, (s.cores k).streams id = some g → g.tuple ≠ f.tuple)
    (hf : f.isBoundAddr → ∃ p ap, s.poolFor cfg k f.tuple.dst = some p ∧
      s.pool p = some ap ∧ f.tuple.src ∈ ap.pool ∧ f.tuple.src ∉ ap.free ∧
      ∀ k' id', ¬ Leases cfg s k' id' p f.tuple.src) : Tidy cfg (s.addStream cfg k f sock) := by
  have hadd : Tidy cfg (s.onCore k (createTCPStream f sock)) :=
    ⟨tables_onCore h.tables k _ ((h.tables k).createTCPStream hnew sock), h.leased.create sock hf⟩
  unfold System.addStream
  split
  · exact hadd.abort _
  · exact hadd

theorem not_leases_of_removed (h : Tidy cfg s) (hf : (s.cores k).streams id = some f)
    (hb : f.isBoundAddr) (hp : p = .own k ∧ (s.cores k).ap.isSome ∨
      (∃ e, p = .eth e) ∧ (s.cores k).ap.isSome = false)
    (hap : s.pool p = some ap) (hmem : f.tuple.src ∈ ap.pool) {j id' : Nat}
    (hl : Leases cfg s j id' p f.tuple.src) : j = k ∧ id' = id := by
  obtain ⟨q, ap', hq, hap', hmem', -⟩ := h.leased.held k id f hf hb
  have hpq : q = p := by
    unfold System.poolFor at hq
    obtain ⟨rfl, hown⟩ | ⟨⟨e, rfl⟩, hown⟩ := hp
    · rw [hown] at hq
      exact (some.inj hq).symm
    · rw [hown] at hq
      obtain ⟨n, -, rfl⟩ := map_eq_some_iff.mp hq
      rw [h.leased.disjoint n e ap' ap hap' hap _ hmem' hmem]
  subst hpq
  exact h.leased.apart j k id' id q _ hl ⟨f, hf, hb, hq, rfl⟩

theorem tidy_remove (h : Tidy cfg s) (hf : (s.cores k).streams id = some f) :
    Tidy cfg (s.onCore k (removeStream id f)) := by
  refine h.onCore k _ ((h.tables k).removeStream hf) (fun id' f' hf' hb' => ?_) rfl
  by_cases hid : id' = id
  · simp [removeStream, hid] at hf'
  · simp only [removeStream, update_of_ne hid] at hf'
    exact ⟨f', hf', hb', rfl⟩

theorem leases_remove {j id' : Nat} (h : Leases cfg (s.onCore k (removeStream id f)) j id' p x) :
    Leases cfg s j id' p x ∧ ¬ (j = k ∧ id' = id) := by
  obtain ⟨g, hg, hb, hp, rfl⟩ := h
  have hfor : s.poolFor cfg j g.tuple.dst = some p := by
    rw [← hp]
    exact (poolFor_congr (congrArg _ (onCore_pool rfl (.own j))) _).symm
  rw [onCore_cores] at hg
  by_cases hj : j = k
  · subst hj
    rw [if_pos rfl] at hg
    by_cases hid : id' = id
    · simp [removeStream, hid] at hg
    · simp only [removeStream, update_of_ne hid] at hg
      exact ⟨⟨g, hg, hb, hfor, rfl⟩, fun ⟨_, hid'⟩ => hid hid'⟩
  · rw [if_neg hj] at hg
    exact ⟨⟨g, hg, hb, hfor, rfl⟩, fun ⟨hj', _⟩ => hj hj'⟩

theorem tidy_destroy (h : Tidy cfg s) (k id : Nat) : Tidy cfg (destroyTCPStream cfg k id s) := by
  unfold destroyTCPStream
  cases hf : (s.cores k).streams id with
  | none => exact h
  | some f =>
    have hremoved := tidy_remove h hf
    dsimp only
    by_cases hb : f.isBoundAddr
    · have hown : ((s.onCore k (removeStream id f)).cores k).ap = (s.cores k).ap :=
        onCore_pool rfl (.own k)
      have hfree : ∀ p, (p = .own k ∧ (s.cores k).ap.isSome ∨
          (∃ e, p = .eth e) ∧ (s.cores k).ap.isSome = false) →
          Tidy cfg ((s.onCore k (removeStream id f)).freeTo p f.tuple.src) := by
        intro p hp
        refine hremoved.freeTo fun ap hap hmem j id' hl => ?_
        rw [onCore_pool rfl] at hap
        obtain ⟨hl, hne⟩ := leases_remove hl
        exact hne (not_leases_of_removed h hf hb hp hap hmem hl)
      rw [if_pos hb, releaseSource, hown]
      by_cases hsome : (s.cores k).ap.isSome
      · rw [if_pos hsome]
        exact hfree _ (.inl ⟨rfl, hsome⟩)
      · rw [if_neg hsome]
        cases getOutputInterface cfg f.tuple.src.addr with
        | none => exact hremoved.abort _
        | some nif => exact hfree _ (.inr ⟨⟨_, rfl⟩, Bool.eq_false_iff.mpr hsome⟩)
    · rw [if_neg hb]
      exact hremoved

theorem tidy_packet (h : Tidy cfg s) (k : Nat) (t : Tuple) (syn ack mem : Bool) :
    Tidy cfg (processTCPPacket cfg k t syn ack mem s) := by
  unfold processTCPPacket
  cases hsearch : streamHTSearch t (s.cores k) with
  | some _ => exact h
  | none =>
    have hnew : ∀ id g, (s.cores k).streams id = some g → g.tuple ≠ t := by
      intro id g hg
      rw [← tupleOf_of_stream hg]
      exact (h.tables k).holds.search_eq_none_iff.mp hsearch id ⟨g, hg⟩
    dsimp only
    split
    · have hapi : ∀ api, Tidy cfg (s.onCore k fun c => { c with api := api }) := fun api =>
        h.onCore_api k _ rfl rfl rfl rfl
      split
      · refine (hapi _).addStream none (fun id g hg => ?_) fun hb => absurd hb Bool.noConfusion
        rw [onCore_cores, if_pos rfl] at hg
        exact hnew id g hg
      · exact hapi _
    · exact h

theorem tidy_initRss (h : Tidy cfg s) (saddrBase : UInt32) (numAddr : Int32)
    (daddr dport : UInt32) (mem : Bool)
    (hnone : ∀ id f, (s.cores k).streams id = some f → f.isBoundAddr = false) :
    Tidy cfg (mtcpInitRss cfg k saddrBase numAddr daddr dport mem s) := by
  have hreset : Tidy cfg (s.onCore k fun c => { c with ap := none }) :=
    ⟨tables_onCore h.tables k _ ((h.tables k).of_streams rfl rfl rfl),
      h.leased.replacePool hnone rfl fun _ hap => absurd hap nofun⟩
  have hnone' : ∀ id f, ((s.onCore k fun c => { c with ap := none }).cores k).streams id = some f →
      f.isBoundAddr = false := by
    intro id f hf
    rw [onCore_cores, if_pos rfl] at hf
    exact hnone id f hf
  have hinstall : ∀ base dest, Tidy cfg (installPool cfg k base numAddr dest mem
      (s.onCore k fun c => { c with ap := none })) := by
    intro base dest
    obtain heq | ⟨ap, hap, heq⟩ := installPool_cases cfg k base numAddr dest mem
      (s.onCore k fun c => { c with ap := none })
    · rw [heq]
      exact hreset
    · rw [heq]
      refine ⟨tables_onCore hreset.tables k _ ((hreset.tables k).of_streams rfl rfl rfl),
        hreset.leased.replacePool hnone' rfl fun ap' hap' => ?_⟩
      exact some.inj hap' ▸ createAddressPoolPerCore_sound hap
  unfold mtcpInitRss
  by_cases hbase : saddrBase = 0
  · simp only [if_pos hbase]
    cases getOutputInterface cfg daddr with
    | none => exact hreset.abort _
    | some nif => exact hinstall _ _
  · simp only [if_neg hbase]
    exact hinstall _ _

theorem tidy_taken (h : Tidy cfg s) (i : Nat) (hap : s.pool p = some ap) (hmem : x ∈ ap.free) :
    Tidy cfg (s.taken k i p x ap) := by
  have hset : Tidy cfg (s.setPool p (some (ap.take x))) := by
    refine ⟨tables_setPool h.tables p _, h.leased.setPool hap
      ((h.leased.sound p ap hap).take hmem) rfl fun j id y hl hy => ?_⟩
    exact (h.leased.not_free hl hap).2 (((h.leased.sound p ap hap).mem_take_free).mp hy).1
  exact hset.onCore_api k _ rfl rfl rfl rfl

theorem taken_streams (s : System) (k i : Nat) (p : PoolId) (x : Addr) (ap : AddrPool) (j : Nat) :
    ((s.taken k i p x ap).cores j).streams = (s.cores j).streams := by
  rw [System.taken, onCore_cores, ← setPool_streams s p (some (ap.take x)) j]
  by_cases hj : j = k
  · rw [if_pos hj, hj]
    rfl
  · rw [if_neg hj]

theorem taken_pool (s : System) (k i : Nat) (p q : PoolId) (x : Addr) (ap : AddrPool) :
    (s.taken k i p x ap).pool q = if q = p then some (ap.take x) else s.pool q :=
  (onCore_pool rfl q).trans (setPool_pool s p q _)

theorem taken_poolFor (hap : s.pool p = some ap) (k i j : Nat) (x dest : Addr) :
    (s.taken k i p x ap).poolFor cfg j dest = s.poolFor cfg j dest :=
  (poolFor_congr (congrArg _ (onCore_pool rfl (.own j))) dest).trans (setPool_poolFor hap j dest)

theorem tidy_connect (h : Tidy cfg s) (i : Nat) (addr : Option SockAddrIn) (mem queued : Bool)
    (hun : unclaimed cfg s (k, .connect i addr mem queued)) :
    Tidy cfg (mtcpConnect cfg k i addr mem queued s).2 := by
  obtain (heq | heq) | ⟨dest, hdest, hb, hcore, heq⟩ |
      ⟨dest, p, src, ap, hdest, hb, hp, hap, hmem, htakes, heq⟩ :=
    mtcpConnect_cases cfg k i addr mem queued s
  · rw [heq]
    exact h
  · rw [heq]
    exact h.abort _
  · rw [heq]
    refine h.addStream _ (fun id g hg ht => ?_) fun hb' => absurd hb' Bool.noConfusion
    have hsearch : streamHTSearch g.tuple (s.cores k) = none := by
      simpa [unclaimed, hdest, hb, hcore, ht, opened] using hun
    exact (h.tables k).holds.search_eq_none_iff.mp hsearch id ⟨g, hg⟩ (tupleOf_of_stream hg)
  · have htaken : Tidy cfg (s.taken k i p src ap) := tidy_taken h i hap hmem
    have hno : ∀ j id, ¬ Leases cfg s j id p src := fun j id hl =>
      (h.leased.not_free hl hap).2 hmem
    -- No stream to the destination has the source: one that holds it from a pool cannot, since
    -- the source was free, and about the others nothing but the assumption is known.
    have hnew : ∀ id g, (s.cores k).streams id = some g → g.tuple ≠ ⟨src, dest⟩ := by
      intro id g hg ht
      have hall : (s.cores k).flows.all (fun f => f.isBoundAddr || f.tuple.dst != dest ||
          !takes cfg k ((s.cores k).socket i) dest p f.tuple.src ||
          !ap.free.contains f.tuple.src) := by
        simpa only [unclaimed, hdest, hb, hp, hap, Bool.false_eq_true, if_false] using hun
      have hg' := all_eq_true.mp hall g ((h.tables k).mem_flows hg)
      rw [ht] at hg'
      cases hgb : g.isBoundAddr with
      | true => exact hno k id ⟨g, hg, hgb, by rw [ht]; exact hp, by rw [ht]⟩
      | false => simp [hgb, htakes, hmem] at hg'
    obtain heq | heq := heq
    · rw [heq]
      exact htaken
    · rw [heq]
      have hsound := h.leased.sound p ap hap
      refine htaken.addStream _ (fun id g hg => ?_) fun _ => ⟨p, ap.take src, ?_, ?_,
        hsound.mem_pool hmem, fun hfree => (hsound.mem_take_free.mp hfree).2 rfl, ?_⟩
      · rw [taken_streams] at hg
        exact hnew id g hg
      · rw [taken_poolFor hap]
        exact hp
      · rw [taken_pool, if_pos rfl]
      · rintro j id ⟨g, hg, hgb, hgp, hsrc⟩
        rw [taken_streams] at hg
        rw [taken_poolFor hap] at hgp
        exact hno j id ⟨g, hg, hgb, hgp, hsrc⟩

theorem tidy_step (e : Nat × Action) (h : Tidy cfg s) (hun : unclaimed cfg s e) :
    Tidy cfg (step cfg s e) := by
  obtain ⟨k, a⟩ := e
  unfold step
  split
  · exact h
  cases a with
  | api a => exact h.onCore_api k _ rfl rfl rfl rfl
  | initRss saddrBase numAddr daddr dport mem =>
    refine tidy_initRss h _ _ _ _ _ fun id f hf => ?_
    simpa using all_eq_true.mp hun f ((h.tables k).mem_flows hf)
  | connect i addr mem queued => exact tidy_connect h i addr mem queued hun
  | packet t syn ack mem => exact tidy_packet h k t syn ack mem
  | advance id st => exact tidy_advance h k id st
  | destroy id => exact tidy_destroy h k id

theorem tidy_createSystem (heths : cfg.eths.Nodup) : Tidy cfg (createSystem cfg) := by
  refine ⟨fun k => ⟨?_, ?_, fun id f hf => absurd hf nofun⟩, fun p ap hap => ?_, ?_,
    fun k id f hf => absurd hf nofun, ?_⟩
  · exact (Holds.empty _ _).congr (fun id => ⟨fun ⟨f, hf⟩ => absurd hf nofun, False.elim⟩)
      fun _ _ => rfl
  · rintro a b ⟨f, hf⟩
    exact absurd hf nofun
  · cases p with
    | own k => exact absurd hap nofun
    | eth i =>
      obtain ⟨ip, -, hip⟩ := bind_eq_some_iff.mp hap
      exact createAddressPool_sound hip
  · intro i j ap ap' hi hj e he he'
    obtain ⟨ip, hip, hpool⟩ := bind_eq_some_iff.mp hi
    obtain ⟨ip', hip', hpool'⟩ := bind_eq_some_iff.mp hj
    have haddr := mem_createAddressPool_one hpool he
    have haddr' := mem_createAddressPool_one hpool' he'
    have heq : cfg.eths[i]? = cfg.eths[j]? := by rw [hip, hip', ← haddr, ← haddr']
    obtain ⟨hlt, -⟩ := List.getElem?_eq_some_iff.mp hip
    exact (getElem?_inj hlt heths).mp heq
  · rintro k k' id id' p x ⟨f, hf, -⟩
    exact absurd hf nofun

/-- In every state of a run in which no source is claimed twice, the flow table of each core
holds its live streams, one for a tuple, and the search finds them. -/
theorem one_stream_per_tuple (cfg : NetConfig) (heths : cfg.eths.Nodup)
    (es : List (Nat × Action))
    (hun : Along (step cfg) (fun s e => unclaimed cfg s e = true) (createSystem cfg) es) (k : Nat) :
    OnePerTuple ((run cfg (createSystem cfg) es).cores k) := by
  have hrun : Tidy cfg (run cfg (createSystem cfg) es) :=
    foldl_invariant (fun s e => tidy_step e) (tidy_createSystem heths) hun
  exact (hrun.tables k).onePerTuple

/-- One core with one interface, 10.0.0.1, and a route to everything. -/
def oneCore : NetConfig where
  maxConcurrency := 4
  numCpus := 1
  numQueues := 1
  endianCheck := false
  eths := [0x0100000a]
  rtable := [⟨0, 0, 1, 0⟩]
  gateway := none
  nifToEidx := fun nif => nif

def twoSources : List (Nat × Action) :=
  [(0, .api (.socket true true)), (0, .api (.socket true true)),
    (0, .api (.bind 0 (some ⟨true, true, 0x0100000a, 0x3000⟩))),
    (0, .connect 0 (some ⟨true, true, 0x0300000a, 0x5000⟩) true true),
    (0, .connect 1 (some ⟨true, true, 0x0200000a, 0x5000⟩) true true)]

theorem two_sources_one_stream_each : OnePerTuple ((run oneCore (createSystem oneCore)
    twoSources).cores 0) := by
  refine one_stream_per_tuple oneCore (by decide) twoSources ?_ 0
  decide +kernel

/-- Both are bound to the same source: the table gets two streams for one tuple, and the second
one is never found. -/
theorem same_source_two_streams :
    let c := (run oneCore (createSystem oneCore)
      [(0, .api (.socket true true)), (0, .api (.socket true true)),
        (0, .api (.bind 0 (some ⟨true, true, 0x0100000a, 0x3930⟩))),
        (0, .api (.bind 1 (some ⟨true, true, 0x0100000a, 0x3930⟩))),
        (0, .connect 0 (some ⟨true, true, 0x0200000a, 0x5000⟩) true true),
        (0, .connect 1 (some ⟨true, true, 0x0200000a, 0x5000⟩) true true)]).cores 0
    let t : Tuple := ⟨⟨0x0100000a, 0x3930⟩, ⟨0x0200000a, 0x5000⟩⟩
    c.flowTable (hashFlow t) = [0, 1] ∧ (c.streams 0).map Flow.tuple = some t ∧
      (c.streams 1).map Flow.tuple = some t ∧ streamHTSearch t c = some 0 := by
  decide +kernel

end Mtcp.Flows
