import Mtcp.EpollQueues

namespace Mtcp

open Flags List EventPoll
open Function (update update_eq_self update_self update_idem update_of_ne)

/-! Waiting on some of the sockets. -/

def qdValid (query : Nat) (qds : List Int) : Bool := qds.any (· == (query : Int))

namespace EventPoll

def queueFetchOne (qds : List Int) (t : EventQueueType) (p : EventPoll) : EventPoll :=
  let e := (p.queue t).front
  { p.fetchOne t with
    log := p.log ++ [.fetched t e (p.socket e.sockid) (!qdValid e.sockid qds && p.validity e)] }

def queueFetchRounds (qds : List Int) (t : EventQueueType) (maxevents : Nat) :
    Nat → List EpollEvent → EventPoll → List EpollEvent × EventPoll
  | 0, out, p => (out, p)
  | fuel + 1, out, p =>
    if out.length < maxevents then
      queueFetchRounds qds t maxevents fuel
        (if qdValid (p.queue t).front.sockid qds then out else p.handOut t out)
        (p.queueFetchOne qds t)
    else (out, p)

def queueFetch (qds : List Int) (t : EventQueueType) (maxevents : Nat)
    (r : List EpollEvent × EventPoll) : List EpollEvent × EventPoll :=
  r.2.queueFetchRounds qds t maxevents (r.2.queue t).numEvents r.1

end EventPoll

def mtcpEpollQueueWait (qds : List Int) (maxevents : Nat) (p : EventPoll) :
    List EpollEvent × EventPoll :=
  EventPoll.queueFetch qds .usrShadow maxevents (EventPoll.queueFetch qds .usr maxevents ([], p))

/-! What a phase does to the events of a queue: those that stay, those handed out, and the
slots. -/

abbrev Fetched := List EpollEventInt × List EpollEvent × SocketMap

def validIn (m : SocketMap) (e : EpollEventInt) : Bool := EventPoll.validity e ⟨m, fun _ =>
  createEventQueue 0, []⟩

def skips (qds : List Int) (e : EpollEventInt) : Bool := !qdValid e.sockid qds

def clearEvent (e : EpollEventInt) (m : SocketMap) : SocketMap :=
  m.modify e.sockid fun s => { s with events := s.events &&& ~~~e.ev.events }

def cleared (xs : List EpollEventInt) (m : SocketMap) : SocketMap :=
  xs.foldl (fun m e => clearEvent e m) m

/-- No event is valid when its turn comes. -/
def noneValid : List EpollEventInt → SocketMap → Bool
  | [], _ => true
  | e :: xs, m => !validIn m e && noneValid xs (clearEvent e m)

variable (qds : List Int) (test : EpollEventInt → Bool) (maxevents : Nat)

/-- Every event is taken out, and handed out if it is valid and passes the test. -/
def scan : List EpollEventInt → List EpollEvent → SocketMap → Fetched
  | [], out, m => ([], out, m)
  | e :: xs, out, m =>
    if out.length < maxevents then
      scan xs (if test e && validIn m e then out ++ [e.ev] else out) (clearEvent e m)
    else (e :: xs, out, m)

def select : List EpollEventInt → List EpollEvent → SocketMap → Fetched
  | [], out, m => ([], out, m)
  | e :: xs, out, m =>
    if out.length < maxevents then
      if qdValid e.sockid qds then
        select xs (if validIn m e then out ++ [e.ev] else out) (clearEvent e m)
      else (e :: (select xs out m).1, (select xs out m).2)
    else (e :: xs, out, m)

def phases (round : List EpollEventInt → List EpollEvent → SocketMap → Fetched) (p : EventPoll) :
    List EpollEvent × SocketMap × (EventQueueType → List EpollEventInt) :=
  let a := round (p.queue .usr).contents [] p.sockets
  let b := round (p.queue .usrShadow).contents a.2.1 a.2.2
  (b.2.1, b.2.2, fun
    | .usr => a.1
    | .usrShadow => b.1
    | .mtcp => (p.queue .mtcp).contents)

def outcome (r : List EpollEvent × EventPoll) :
    List EpollEvent × SocketMap × (EventQueueType → List EpollEventInt) :=
  (r.1, r.2.sockets, fun t => (r.2.queue t).contents)

variable {qds test maxevents}

theorem scan_affixes (xs : List EpollEventInt) (out : List EpollEvent) (m : SocketMap) :
    (scan test maxevents xs out m).1 <:+ xs ∧ out <+: (scan test maxevents xs out m).2.1 := by
  induction xs generalizing out m with
  | nil => exact ⟨suffix_refl _, prefix_refl _⟩
  | cons e xs ih =>
    unfold scan
    split
    · obtain ⟨hrest, hout⟩ := ih (if test e && validIn m e then out ++ [e.ev] else out)
        (clearEvent e m)
      refine ⟨hrest.trans (suffix_cons e xs), List.IsPrefix.trans ?_ hout⟩
      split
      · exact prefix_append _ _
      · exact prefix_refl _
    · exact ⟨suffix_refl _, prefix_refl _⟩

theorem countP_select (xs : List EpollEventInt) (out : List EpollEvent) (m : SocketMap) :
    (select qds maxevents xs out m).1.countP (skips qds) = xs.countP (skips qds) := by
  induction xs generalizing out m with
  | nil => rfl
  | cons e xs ih =>
    unfold select
    split
    · split
      · next hq => rw [ih, countP_cons_of_neg (by simp [skips, hq])]
      · rw [countP_cons, countP_cons, ih]
    · rfl

/-- If the events that should stay are those that stay, all are waited for. -/
theorem scan_eq_select (hmax : 0 < maxevents) {xs : List EpollEventInt} {out : List EpollEvent}
    {m m' : SocketMap} (h : (scan (skips qds) maxevents xs [] m).1 =
      (select qds maxevents xs out m').1) : ∀ e ∈ xs, qdValid e.sockid qds := by
  induction xs generalizing out m m' with
  | nil => exact nofun
  | cons e xs ih =>
    rw [scan, length_nil, if_pos hmax] at h
    by_cases hq : qdValid e.sockid qds
    · rw [skips, hq, Bool.not_true, Bool.false_and, if_neg Bool.false_ne_true, select] at h
      by_cases hlen : out.length < maxevents
      · rw [if_pos hlen, if_pos hq] at h
        exact forall_mem_cons.mpr ⟨hq, ih h⟩
      · rw [if_neg hlen] at h
        have hle := (@scan_affixes (skips qds) maxevents xs [] (clearEvent e m)).1.length_le
        rw [h] at hle
        exact absurd hle (Nat.not_succ_le_self _)
    · have hstay := congrArg (countP (skips qds)) h
      rw [countP_select, countP_cons_of_pos (by simpa [skips] using hq)] at hstay
      have hrest := (@scan_affixes (skips qds) maxevents xs
        (if skips qds e && validIn m e then [] ++ [e.ev] else []) (clearEvent e m)).1
      have hle := @List.Sublist.countP_le _ (skips qds) _ _ hrest.sublist
      rw [hstay] at hle
      exact absurd hle (Nat.not_succ_le_self _)

theorem select_of_forall {xs : List EpollEventInt} (h : ∀ e ∈ xs, qdValid e.sockid qds)
    (out : List EpollEvent) (m : SocketMap) :
    select qds maxevents xs out m = scan (fun _ => true) maxevents xs out m := by
  induction xs generalizing out m with
  | nil => rfl
  | cons e xs ih =>
    obtain ⟨he, hxs⟩ := forall_mem_cons.mp h
    unfold select scan
    rw [if_pos he, ih hxs, Bool.true_and]

theorem scan_of_none (hmax : 0 < maxevents) {xs : List EpollEventInt} {m : SocketMap}
    (h : (∀ e ∈ xs, test e = false) ∨ noneValid xs m) :
    scan test maxevents xs [] m = ([], [], cleared xs m) := by
  induction xs generalizing m with
  | nil => rfl
  | cons e xs ih =>
    rw [forall_mem_cons, noneValid, Bool.and_eq_true, Bool.not_eq_true'] at h
    have hout : (test e && validIn m e) = false := by
      rw [Bool.and_eq_false_iff]
      exact h.imp And.left And.left
    rw [scan, length_nil, if_pos hmax, hout, if_neg Bool.false_ne_true]
    exact ih (h.imp And.right And.right)

theorem noneValid_of_scan (hmax : 0 < maxevents) {xs : List EpollEventInt} {m : SocketMap}
    (h : (scan (fun _ => true) maxevents xs [] m).2.1 = []) : noneValid xs m := by
  induction xs generalizing m with
  | nil => rfl
  | cons e xs ih =>
    rw [scan, length_nil, if_pos hmax, Bool.true_and] at h
    by_cases hv : validIn m e
    · have hle := (@scan_affixes (fun _ => true) maxevents xs ([] ++ [e.ev]) (clearEvent e m)).2
      rw [if_pos hv] at h
      rw [h] at hle
      cases prefix_nil.mp hle
    · rw [if_neg hv] at h
      rw [noneValid, ih h, Bool.eq_false_of_not_eq_true hv]
      rfl

theorem noneValid_append (xs ys : List EpollEventInt) (m : SocketMap) :
    noneValid (xs ++ ys) m = (noneValid xs m && noneValid ys (cleared xs m)) := by
  induction xs generalizing m with
  | nil => rfl
  | cons e xs ih =>
    rw [cons_append, noneValid, noneValid, ih, Bool.and_assoc]
    rfl

/-! The loops of the source. -/

variable {p : EventPoll} {xs : EventQueueType → List EpollEventInt}

theorem queueFetchRounds_eq (t : EventQueueType) (out : List EpollEvent)
    (h : ∀ t, (p.queue t).Holds (xs t)) :
    ∃ q, p.queueFetchRounds qds t maxevents (xs t).length out =
        ((scan (skips qds) maxevents (xs t) out p.sockets).2.1, q) ∧
      q.sockets = (scan (skips qds) maxevents (xs t) out p.sockets).2.2 ∧
      ∀ t', (q.queue t').Holds (update xs t
        (scan (skips qds) maxevents (xs t) out p.sockets).1 t') := by
  induction hx : xs t generalizing p xs out with
  | nil =>
    refine ⟨p, rfl, rfl, fun t' => ?_⟩
    rw [scan, ← hx, update_eq_self]
    exact h t'
  | cons e ys ih =>
    have hqueue := hx ▸ h t
    have hfront : (p.queue t).front = e := hqueue.front
    rw [length_cons, queueFetchRounds, scan]
    split
    · have hnext : ∀ t', ((p.queueFetchOne qds t).queue t').Holds (update xs t ys t') := by
        intro t'
        by_cases ht : t' = t
        · subst ht
          simpa [queueFetchOne, fetchOne] using hqueue.drop
        · simpa [queueFetchOne, fetchOne, ht] using h t'
      have hout : (if qdValid (p.queue t).front.sockid qds then out else p.handOut t out) =
          if skips qds e && validIn p.sockets e then out ++ [e.ev] else out := by
        rw [handOut, hfront, skips]
        cases qdValid e.sockid qds <;> rfl
      have hsock : (p.queueFetchOne qds t).sockets = clearEvent e p.sockets := by
        simp only [queueFetchOne, fetchOne, hfront]
        rfl
      have hrec := @ih _ _ (if qdValid (p.queue t).front.sockid qds then out else
        p.handOut t out) hnext (update_self _ _ _)
      rw [update_idem, hsock, hout] at hrec
      rw [hout]
      exact hrec
    · refine ⟨p, rfl, rfl, fun t' => ?_⟩
      rw [← hx, update_eq_self]
      exact h t'

theorem outcome_queueWait (h : ∀ t, (p.queue t).Holds (xs t)) :
    outcome (mtcpEpollQueueWait qds maxevents p) = phases (scan (skips qds) maxevents) p := by
  obtain ⟨q, hq, hsock, hholds⟩ := @queueFetchRounds_eq qds maxevents p xs .usr [] h
  obtain ⟨r, hr, hsock', hholds'⟩ := @queueFetchRounds_eq qds maxevents q _ .usrShadow
    (scan (skips qds) maxevents (xs .usr) [] p.sockets).2.1 hholds
  have hxs : update xs .usr (scan (skips qds) maxevents (xs .usr) []
    p.sockets).1 .usrShadow = xs .usrShadow := update_of_ne (by decide) _ _
  rw [hsock, hxs] at hr hsock' hholds'
  have hfirst : (p.queue .usr).numEvents = (xs .usr).length := (h .usr).ring.count_eq
  have hsecond : (q.queue .usrShadow).numEvents = (xs .usrShadow).length := by
    rw [← hxs]
    exact (hholds .usrShadow).ring.count_eq
  unfold mtcpEpollQueueWait queueFetch
  rw [hfirst, hq, hsecond, hr]
  simp only [outcome, phases, (h _).contents, hsock']
  refine Prod.ext rfl (Prod.ext rfl (funext fun t => (hholds' t).contents.trans ?_))
  cases t <;> simp

/-- `mtcp_epoll_wait` is the same loop without a selection. -/
theorem mtcpEpollWait_eq : mtcpEpollWait maxevents p = mtcpEpollQueueWait [] maxevents p := by
  have hrounds : ∀ (t : EventQueueType) (n : Nat) (out : List EpollEvent) (p : EventPoll),
      p.fetchRounds t maxevents n out = p.queueFetchRounds [] t maxevents n out := by
    intro t n
    induction n with
    | zero => exact fun _ _ => rfl
    | succ n ih =>
      intro out p
      rw [fetchRounds, queueFetchRounds, ih]
      rfl
  unfold mtcpEpollWait mtcpEpollQueueWait fetch queueFetch
  simp only [hrounds]

def EventPoll.pending (p : EventPoll) : List EpollEventInt :=
  (p.queue .usr).contents ++ (p.queue .usrShadow).contents

/-- Every pending event belongs to a socket that is waited for. -/
def Covers (qds : List Int) (p : EventPoll) : Prop :=
  ∀ e ∈ p.pending, qdValid e.sockid qds = true

/-- The wait on some sockets returns their events and leaves the others only if there is nothing
to return and nothing to leave. -/
theorem queue_wait_selects_iff (hmax : 0 < maxevents) (h : ∀ t, (p.queue t).Holds (xs t)) :
    (outcome (mtcpEpollQueueWait qds maxevents p) = phases (select qds maxevents) p ∧
      (Covers qds p →
        outcome (mtcpEpollQueueWait qds maxevents p) = outcome (mtcpEpollWait maxevents p))) ↔
      Covers qds p ∧ noneValid p.pending p.sockets := by
  have hwait : outcome (mtcpEpollWait maxevents p) = phases (scan (fun _ => true) maxevents) p := by
    rw [mtcpEpollWait_eq, outcome_queueWait h]
    rfl
  have hskip : ∀ {xs : List EpollEventInt}, (∀ e ∈ xs, qdValid e.sockid qds) →
      ∀ e ∈ xs, skips qds e = false := fun hxs e he => congrArg (!·) (hxs e he)
  rw [hwait, outcome_queueWait h, pending, noneValid_append, Bool.and_eq_true]
  constructor
  · rintro ⟨heq, -⟩
    have hstay := congrArg (fun r => r.2.2) heq
    have husr := scan_eq_select hmax (congrFun hstay .usr)
    have hfirst := @scan_of_none (skips qds) maxevents hmax _ p.sockets (.inl (hskip husr))
    have hlater := congrFun hstay .usrShadow
    simp only [phases, hfirst] at hlater
    have hshadow := scan_eq_select hmax hlater
    -- what the selecting loop hands out is what the wait without a selection does
    have hout := congrArg Prod.fst heq
    simp only [phases, hfirst, scan_of_none hmax (.inl (hskip hshadow)), select_of_forall husr,
      select_of_forall hshadow] at hout
    have hle := (@scan_affixes (fun _ => true) maxevents (p.queue .usrShadow).contents
      (scan (fun _ => true) maxevents (p.queue .usr).contents [] p.sockets).2.1
      (scan (fun _ => true) maxevents (p.queue .usr).contents [] p.sockets).2.2).2
    rw [← hout] at hle
    have hvalid := noneValid_of_scan hmax (prefix_nil.mp hle)
    rw [scan_of_none hmax (.inr hvalid)] at hout
    exact ⟨forall_mem_append.mpr ⟨husr, hshadow⟩, hvalid, noneValid_of_scan hmax hout.symm⟩
  · rintro ⟨hc, hvalid, hvalid'⟩
    obtain ⟨husr, hshadow⟩ := forall_mem_append.mp hc
    have hsame : phases (scan (skips qds) maxevents) p =
        phases (scan (fun _ => true) maxevents) p := by
      simp only [phases, scan_of_none hmax (.inr hvalid), scan_of_none hmax (.inr hvalid')]
    refine ⟨hsame.trans ?_, fun _ => hsame⟩
    simp only [phases, select_of_forall husr, select_of_forall hshadow]

def pendingOne : EventPoll := epollRun (mtcpEpollCreate 2 (createSockets 3))
  [.allocate .listener, .ctl .add 0 ⟨EPOLLIN, 7⟩ .nothing, .add .usrShadow 0 EPOLLIN]

/-- The event is still in the queue when its socket is gone. -/
theorem queue_wait_selects_iff_freed : let p := epollStep pendingOne (.free 0)
    p.pending = [⟨⟨EPOLLIN, 7⟩, 0, 1⟩] ∧
      outcome (mtcpEpollQueueWait [0] 4 p) = phases (select [0] 4) p := by
  have hholds : ∀ t, ((epollStep pendingOne (.free 0)).queue t).Holds
      (if t = .usrShadow then [⟨⟨EPOLLIN, 7⟩, 0, 1⟩] else []) := by
    intro t
    cases t with
    | usrShadow => exact (EventQueue.Holds.created 2 (by decide)).put _ (by decide)
    | usr | mtcp => exact .created 2 (by decide)
  refine ⟨rfl, ((@queue_wait_selects_iff [0] 4 _ _ (by decide) hholds).mpr ⟨?_, rfl⟩).1⟩
  intro e he
  rw [mem_singleton.mp he]
  rfl

/-- The socket is waited for and its event is valid. It is lost; the event of a socket that is
not waited for is returned. -/
theorem queue_wait_inverts_selection :
    (mtcpEpollQueueWait [0] 4 pendingOne).1 = [] ∧
      ((mtcpEpollQueueWait [0] 4 pendingOne).2.queue .usrShadow).contents = [] ∧
      (phases (select [0] 4) pendingOne).1 = [⟨EPOLLIN, 7⟩] ∧
      (mtcpEpollQueueWait [1] 4 pendingOne).1 = [⟨EPOLLIN, 7⟩] := by
  decide +kernel

end Mtcp
