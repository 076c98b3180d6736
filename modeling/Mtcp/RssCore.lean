import Mtcp.Flows
import Mtcp.Runs

namespace Mtcp.Flows

open Listeners (SockAddrIn)
open Function (update update_self update_of_ne)
open Runs

def replyCore (numQueues : Nat) (endianCheck : Bool) (src dst : Addr) : Nat :=
  getRSSCPUCore (ntohl src.addr) (ntohl dst.addr) (ntohs src.port) (ntohs dst.port) numQueues
    endianCheck

def Addr.hash (a : Addr) : UInt32 := endHash a.addr a.port

/-- Every source that suits one destination with `num_cpus` queues suits another with
`num_queues`. Sources differ to the card only by seven bits of a hash. -/
def suitsToo (cfg : NetConfig) (k : Nat) (made dest : Addr) : Bool :=
  (List.range 128).all fun x =>
    redirect (UInt32.ofNat x ^^^ made.hash) cfg.numCpus cfg.endianCheck != k ||
      redirect (UInt32.ofNat x ^^^ dest.hash) cfg.numQueues cfg.endianCheck == k

/-- A connection that gets its source from the pool of its core goes to a destination that the
pool suits. -/
def pooledWell (cfg : NetConfig) (s : System) (e : Nat × Action) : Bool :=
  match e.2 with
  | .connect i addr _ _ =>
    match connectable i addr (s.cores e.1) with
    | .error _ => true
    | .ok dest => bothBound ((s.cores e.1).socket i) || (s.cores e.1).ap.isNone ||
        suitsToo cfg e.1 (s.cores e.1).rssDest dest
  | _ => true

variable {cfg : NetConfig} {s : System} {c c' : Core} {j k i : Nat} {src dest made : Addr}

theorem replyCore_eq_redirect (numQueues : Nat) (endianCheck : Bool) (src dst : Addr) :
    replyCore numQueues endianCheck src dst =
      redirect ((src.hash &&& 0x7f) ^^^ dst.hash) numQueues endianCheck := by
  rw [replyCore, getRSSCPUCore_ntoh, getRSSCPUCore, getRSSHash_eq_xor, redirect_mask]
  rfl

theorem suitsToo_replyCore (h : suitsToo cfg k made dest)
    (hmade : replyCore cfg.numCpus cfg.endianCheck src made = k) :
    replyCore cfg.numQueues cfg.endianCheck src dest = k := by
  rw [replyCore_eq_redirect] at hmade ⊢
  have hlt : (src.hash &&& 0x7f).toNat < 128 := by
    rw [UInt32.toNat_and]
    exact lt_of_le_of_lt Nat.and_le_right (by decide)
  have hx := List.all_eq_true.mp h _ (List.mem_range.mpr hlt)
  rw [UInt32.ofNat_toNat, hmade] at hx
  simpa using hx

/-- The pool of a core suits the destination it was made for, and the connections of the core
are steered to it. -/
structure Steers (cfg : NetConfig) (k : Nat) (c : Core) : Prop where
  sound : ∀ ap, c.ap = some ap → ap.Sound
  suits : ∀ ap, c.ap = some ap → ∀ e ∈ ap.pool,
    replyCore cfg.numCpus cfg.endianCheck e c.rssDest = k
  flows : ∀ id f, c.streams id = some f → f.byConnect = true →
    replyCore cfg.numQueues cfg.endianCheck f.tuple.src f.tuple.dst = k

theorem Steers.congr (h : Steers cfg k c) (hap : c'.ap = c.ap) (hdest : c'.rssDest = c.rssDest)
    (hstreams : c'.streams = c.streams) : Steers cfg k c' := by
  refine ⟨fun ap hc => h.sound ap (hap ▸ hc), fun ap hc e he => ?_, fun id f hf => ?_⟩
  · rw [hdest]
    exact h.suits ap (hap ▸ hc) e he
  · exact h.flows id f (hstreams ▸ hf)

theorem Steers.setPool {ap ap' : AddrPool} (h : Steers cfg k c) (hap : c.ap = some ap)
    (hsound : ap'.Sound) (hpool : ap'.pool = ap.pool) : Steers cfg k { c with ap := some ap' } := by
  refine ⟨fun _ hc => ?_, fun _ hc e he => ?_, h.flows⟩
  · injection hc with hc
    exact hc ▸ hsound
  · injection hc with hc
    subst hc
    exact h.suits ap hap e (hpool ▸ he)

theorem Steers.createTCPStream (h : Steers cfg k c) {f : Flow}
    (hf : f.byConnect → replyCore cfg.numQueues cfg.endianCheck f.tuple.src f.tuple.dst = k)
    (sock : Option Nat) : Steers cfg k (createTCPStream f sock c) := by
  refine ⟨h.sound, h.suits, fun id g hg => ?_⟩
  change update c.streams c.gId (some f) id = some g at hg
  by_cases hid : id = c.gId
  · subst hid
    rw [update_self] at hg
    injection hg with hg
    exact hg ▸ hf
  · rw [update_of_ne hid] at hg
    exact h.flows id g hg

theorem Steers.removeStream (h : Steers cfg k c) (id : Nat) (f : Flow) :
    Steers cfg k (removeStream id f c) := by
  refine ⟨h.sound, h.suits, fun id' g hg => ?_⟩
  change update c.streams id none id' = some g at hg
  by_cases hid : id' = id
  · rw [hid, update_self] at hg
    exact absurd hg nofun
  · rw [update_of_ne hid] at hg
    exact h.flows id' g hg

theorem Steers.advance (h : Steers cfg k c) (id : Nat) (st : TcpState) :
    Steers cfg k (advance id st c) := by
  unfold Flows.advance
  cases hf : c.streams id with
  | none => exact h
  | some f =>
    refine ⟨h.sound, h.suits, fun id' g hg => ?_⟩
    change update c.streams id (some { f with state := st }) id' = some g at hg
    by_cases hid : id' = id
    · rw [hid, update_self] at hg
      injection hg with hg
      subst hg
      exact h.flows id f hf
    · rw [update_of_ne hid] at hg
      exact h.flows id' g hg

def Steering (cfg : NetConfig) (s : System) : Prop := ∀ k, Steers cfg k (s.cores k)

theorem Steering.onCore (h : Steering cfg s) (k : Nat) (f : Core → Core)
    (hf : Steers cfg k (f (s.cores k))) : Steering cfg (s.onCore k f) := by
  intro j
  rw [onCore_cores]
  by_cases hj : j = k
  · rw [if_pos hj, hj]
    exact hf
  · rw [if_neg hj]
    exact h j

theorem Steering.addStream (h : Steering cfg s) {f : Flow}
    (hf : f.byConnect → replyCore cfg.numQueues cfg.endianCheck f.tuple.src f.tuple.dst = k)
    (sock : Option Nat) : Steering cfg (s.addStream cfg k f sock) := by
  have hadd : Steering cfg (s.onCore k (createTCPStream f sock)) :=
    h.onCore k _ ((h k).createTCPStream hf sock)
  unfold System.addStream
  split
  · exact hadd
  · exact hadd

theorem Steering.setPool {id : PoolId} {ap ap' : AddrPool} (h : Steering cfg s)
    (hap : s.pool id = some ap) (hsound : ap.Sound → ap'.Sound) (hpool : ap'.pool = ap.pool) :
    Steering cfg (s.setPool id (some ap')) := by
  cases id with
  | own k =>
    exact h.onCore k (fun c => { c with ap := some ap' })
      ((h k).setPool hap (hsound ((h k).sound ap hap)) hpool)
  | eth i => exact h

theorem Steering.freeTo (h : Steering cfg s) (id : PoolId) (src : Addr) :
    Steering cfg (s.freeTo id src) := by
  unfold System.freeTo
  cases hap : s.pool id with
  | none => exact h
  | some ap =>
    dsimp only
    cases hfree : freeAddress src ap with
    | failed | corrupted => exact h
    | done ap' =>
      obtain ⟨-, hpool, -, hsound⟩ := freeAddress_eq_done hfree
      exact h.setPool hap hsound hpool

theorem steering_destroy (h : Steering cfg s) (id : Nat) :
    Steering cfg (destroyTCPStream cfg k id s) := by
  unfold destroyTCPStream
  cases hf : (s.cores k).streams id with
  | none => exact h
  | some f =>
    have hremoved : Steering cfg (s.onCore k (removeStream id f)) :=
      h.onCore k _ ((h k).removeStream id f)
    dsimp only
    cases f.isBoundAddr with
    | false => exact hremoved
    | true =>
      rw [if_pos rfl, releaseSource]
      split
      · exact hremoved.freeTo _ _
      · cases getOutputInterface cfg f.tuple.src.addr with
        | none => exact hremoved
        | some nif => exact hremoved.freeTo _ _

theorem steering_packet (h : Steering cfg s) (t : Tuple) (syn ack mem : Bool) :
    Steering cfg (processTCPPacket cfg k t syn ack mem s) := by
  unfold processTCPPacket
  cases streamHTSearch t (s.cores k) with
  | some _ => exact h
  | none =>
    dsimp only
    split
    · have hapi : ∀ api, Steering cfg (s.onCore k fun c => { c with api := api }) := fun api =>
        h.onCore k _ ((h k).congr rfl rfl rfl)
      split
      · exact (hapi _).addStream (fun hby => absurd hby Bool.noConfusion) none
      · exact hapi _
    · exact h

theorem steering_installPool (h : Steering cfg s) (saddrBase : UInt32) (numAddr : Int32)
    (dest : Addr) (mem : Bool) : Steering cfg (installPool cfg k saddrBase numAddr dest mem s) := by
  obtain heq | ⟨ap, hap, heq⟩ := installPool_cases cfg k saddrBase numAddr dest mem s
  · rw [heq]
    exact h
  · rw [heq]
    apply h.onCore
    refine ⟨fun _ hc => ?_, fun _ hc e he => ?_, (h k).flows⟩
    · injection hc with hc
      exact hc ▸ createAddressPoolPerCore_sound hap
    · injection hc with hc
      subst hc
      -- The pool was filtered with the ends the other way round.
      rw [replyCore, getRSSCPUCore, getRSSHash_swap_ends, ← getRSSCPUCore]
      exact mem_createAddressPoolPerCore hap he

theorem steering_initRss (h : Steering cfg s) (saddrBase : UInt32) (numAddr : Int32)
    (daddr dport : UInt32) (mem : Bool) :
    Steering cfg (mtcpInitRss cfg k saddrBase numAddr daddr dport mem s) := by
  have hnone : Steering cfg (s.onCore k fun c => { c with ap := none }) :=
    h.onCore k _ ⟨fun _ hc => absurd hc nofun, fun _ hc => absurd hc nofun, (h k).flows⟩
  unfold mtcpInitRss
  by_cases hbase : saddrBase = 0
  · simp only [if_pos hbase]
    cases getOutputInterface cfg daddr with
    | none => exact hnone
    | some nif => exact steering_installPool hnone _ _ _ _
  · simp only [if_neg hbase]
    exact steering_installPool hnone _ _ _ _

theorem replyCore_of_taken {addr : Option SockAddrIn} {mem queued : Bool} {id : PoolId}
    {ap : AddrPool} (h : Steering cfg s) (hwell : pooledWell cfg s (k, .connect i addr mem queued))
    (hdest : connectable i addr (s.cores k) = .ok dest)
    (hb : bothBound ((s.cores k).socket i) = false) (hid : s.poolFor cfg k dest = some id)
    (hap : s.pool id = some ap) (hmem : src ∈ ap.free)
    (htakes : takes cfg k ((s.cores k).socket i) dest id src) :
    replyCore cfg.numQueues cfg.endianCheck src dest = k := by
  unfold System.poolFor at hid
  cases hown : (s.cores k).ap with
  | none =>
    rw [hown] at hid
    obtain ⟨nif, -, rfl⟩ := Option.map_eq_some_iff.mp hid
    simp only [takes, eligible, Bool.and_eq_true, beq_iff_eq] at htakes
    exact htakes.2
  | some ap' =>
    rw [hown] at hid
    obtain rfl : PoolId.own k = id := Option.some.inj hid
    have hsuits : suitsToo cfg k (s.cores k).rssDest dest := by
      simpa [pooledWell, hdest, hb, hown] using hwell
    exact suitsToo_replyCore hsuits ((h k).suits ap hap src (((h k).sound ap hap).mem_pool hmem))

theorem steering_connect (h : Steering cfg s) (addr : Option SockAddrIn) (mem queued : Bool)
    (hwell : pooledWell cfg s (k, .connect i addr mem queued)) :
    Steering cfg (mtcpConnect cfg k i addr mem queued s).2 := by
  obtain (heq | heq) | ⟨dest, -, -, hcore, heq⟩ |
      ⟨dest, id, src, ap, hdest, hb, hid, hap, hmem, htakes, heq⟩ :=
    mtcpConnect_cases cfg k i addr mem queued s
  · rw [heq]
    exact h
  · rw [heq]
    exact h
  · rw [heq]
    refine h.addStream (fun _ => ?_) _
    rw [replyCore, getRSSCPUCore_ntoh]
    exact hcore
  · have hsteered := replyCore_of_taken h hwell hdest hb hid hap hmem htakes
    have htaken : Steering cfg (s.taken k i id src ap) := by
      have hset : Steering cfg (s.setPool id (some (ap.take src))) :=
        h.setPool hap (fun hs => hs.take hmem) rfl
      exact hset.onCore k _ ((hset k).congr rfl rfl rfl)
    obtain heq | heq := heq
    · rw [heq]
      exact htaken
    · rw [heq]
      refine htaken.addStream (fun _ => ?_) _
      simpa only [opened] using hsteered

theorem steering_step (e : Nat × Action) (h : Steering cfg s) (hwell : pooledWell cfg s e) :
    Steering cfg (step cfg s e) := by
  obtain ⟨k, a⟩ := e
  unfold step
  split
  · exact h
  cases a with
  | api a => exact h.onCore k _ ((h k).congr rfl rfl rfl)
  | initRss saddrBase numAddr daddr dport mem => exact steering_initRss h _ _ _ _ _
  | connect i addr mem queued => exact steering_connect h addr mem queued hwell
  | packet t syn ack mem => exact steering_packet h t syn ack mem
  | advance id st => exact h.onCore k _ ((h k).advance id st)
  | destroy id => exact steering_destroy h id

theorem steering_createSystem (cfg : NetConfig) : Steering cfg (createSystem cfg) := fun _ =>
  ⟨fun _ hc => absurd hc nofun, fun _ hc => absurd hc nofun, fun _ _ hf => absurd hf nofun⟩

/-- Every connection that an application opens is steered to the core it was opened on, in every
state of a run in which the pool of a core is used only for destinations that it suits. -/
theorem connections_stay_on_core (cfg : NetConfig) (es : List (Nat × Action))
    (hwell : Along (step cfg) (fun s e => pooledWell cfg s e = true) (createSystem cfg) es)
    (k id : Nat) (f : Flow) (hf : ((run cfg (createSystem cfg) es).cores k).streams id = some f)
    (hby : f.byConnect = true) :
    getRSSCPUCore (ntohl f.tuple.src.addr) (ntohl f.tuple.dst.addr) (ntohs f.tuple.src.port)
      (ntohs f.tuple.dst.port) cfg.numQueues cfg.endianCheck = k := by
  have hrun : Steering cfg (run cfg (createSystem cfg) es) :=
    foldl_invariant (fun s e => steering_step e) (steering_createSystem cfg) hwell
  exact (hrun k).flows id f hf hby

def twoCores : NetConfig where
  maxConcurrency := 4
  numCpus := 2
  numQueues := 2
  endianCheck := false
  eths := [0x0100000a]
  rtable := [⟨0, 0, 1, 0⟩]
  gateway := none
  nifToEidx := fun nif => nif

theorem pooled_connection_stays_on_core :
    ∃ f, ((run twoCores (createSystem twoCores)
        [(0, .initRss 0 1 0x0200000a 0x5000 true), (0, .api (.socket true true)),
          (0, .connect 0 (some ⟨true, true, 0x0200000a, 0x5000⟩) true true)]).cores 0).streams 0 =
        some f ∧ f.byConnect = true ∧
      getRSSCPUCore (ntohl f.tuple.src.addr) (ntohl f.tuple.dst.addr) (ntohs f.tuple.src.port)
        (ntohs f.tuple.dst.port) twoCores.numQueues twoCores.endianCheck = 0 := by
  refine ⟨opened ⟨0x0100000a, 0x0204⟩ ⟨0x0200000a, 0x5000⟩ true, ?_, rfl, ?_⟩
  · decide +kernel
  · refine connections_stay_on_core twoCores
      [(0, .initRss 0 1 0x0200000a 0x5000 true), (0, .api (.socket true true)),
        (0, .connect 0 (some ⟨true, true, 0x0200000a, 0x5000⟩) true true)] ?_ 0 0 _ ?_ rfl
    · decide +kernel
    · decide +kernel

/-- The pool of core 0 is made for one destination, and used for another one whose replies from
the same source go to core 1. -/
theorem pooled_connection_leaves_core :
    ∃ f, ((run twoCores (createSystem twoCores)
        [(0, .initRss 0 1 0x0200000a 0x5000 true), (0, .api (.socket true true)),
          (0, .connect 0 (some ⟨true, true, 0x0400000a, 0x5000⟩) true true)]).cores 0).streams 0 =
        some f ∧ f.byConnect = true ∧
      getRSSCPUCore (ntohl f.tuple.src.addr) (ntohl f.tuple.dst.addr) (ntohs f.tuple.src.port)
        (ntohs f.tuple.dst.port) twoCores.numQueues twoCores.endianCheck = 1 := by
  refine ⟨opened ⟨0x0100000a, 0x0204⟩ ⟨0x0400000a, 0x5000⟩ true, ?_, rfl, ?_⟩
  · decide +kernel
  · decide +kernel

end Mtcp.Flows
