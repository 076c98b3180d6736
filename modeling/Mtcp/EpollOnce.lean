import Mtcp.EpollQueues

namespace Mtcp

open Flags Runs List EventPoll
open Function (update update_self)

variable {p : EventPoll} {xs : EventQueueType → List EpollEventInt} {t : EventQueueType}
  {e : EpollEventInt} {ys : List EpollEventInt} {i : Nat} {b : UInt32}

theorem occurrences_append (xs ys : List EpollEventInt) :
    occurrences i b (xs ++ ys) = occurrences i b xs + occurrences i b ys :=
  countP_append

theorem occurrences_cons (e : EpollEventInt) (ys : List EpollEventInt) :
    occurrences i b (e :: ys) = occurrences i b ys + if e.matches i b then 1 else 0 := by
  simp only [occurrences, countP_cons, decide_eq_true_eq]

theorem tally_push (e : EpollEventInt) : tally i b (update xs t (xs t ++ [e])) =
      tally i b xs + if e.matches i b then 1 else 0 := by
  have hone : occurrences i b [e] = if e.matches i b then 1 else 0 := by
    rw [occurrences_cons]
    exact Nat.zero_add _
  cases t with
  | usr | usrShadow | mtcp => simp [tally, occurrences_append, hone]; omega

theorem tally_pop (h : xs t = e :: ys) :
    tally i b xs = tally i b (update xs t ys) + if e.matches i b then 1 else 0 := by
  cases t with
  | usr | usrShadow | mtcp => simp [tally, h, occurrences_cons]; omega

theorem tally_pos (h : e ∈ xs t) (hm : e.matches i b) : 0 < tally i b xs := by
  have hocc : 0 < occurrences i b (xs t) := by
    apply countP_pos_iff.mpr
    exact ⟨e, h, by simpa using hm⟩
  cases t with
  | usr | usrShadow | mtcp => simp only [tally]; omega

theorem mem_push {t' : EventQueueType} {f : EpollEventInt}
    (h : f ∈ update xs t (xs t ++ [e]) t') : f ∈ xs t' ∨ f = e := by
  by_cases ht : t' = t
  · subst ht
    simpa using h
  · exact .inl (by simpa [ht] using h)

theorem mem_pop {t' : EventQueueType} {f : EpollEventInt} (he : xs t = e :: ys)
    (h : f ∈ update xs t ys t') : f ∈ xs t' := by
  by_cases ht : t' = t
  · subst ht
    rw [update_self] at h
    rw [he]
    exact mem_cons_of_mem e h
  · simpa [ht] using h

/-- One entry for each pending bit, and no entry for a slot that is not in use. -/
structure Delivers (p : EventPoll) (xs : EventQueueType → List EpollEventInt) : Prop where
  single : ∀ t, ∀ e ∈ xs t, Single e.ev.events
  used : ∀ t, ∀ e ∈ xs t, (p.socket e.sockid).socktype ≠ .unused
  pending : ∀ i b, Single b → tally i b xs = if Meets (p.socket i).events b then 1 else 0
  judged : ∀ t e slot r, .fetched t e slot r ∈ p.log → (r = true ↔ Meets slot.epoll e.ev.events)

namespace Delivers

section

variable (h : Delivers p xs)

include h

theorem register (hused : (p.socket i).socktype ≠ .unused) (hb : Single b)
    (hnot : ¬Meets (p.socket i).events b) :
    Delivers (p.register t i b) (update xs t (xs t ++ [p.entry i b])) where
  single := by
    intro t' f hf
    obtain hold | rfl := mem_push hf
    · exact h.single t' f hold
    · exact hb
  used := by
    intro t' f hf
    have hkeep : ∀ j, ((p.register t i b).socket j).socktype = (p.socket j).socktype := by
      intro j
      by_cases hj : j = i
      · subst hj
        simp [register, socket]
      · simp [EventPoll.register, EventPoll.socket, modify_smap_ne, hj]
    rw [hkeep]
    obtain hold | rfl := mem_push hf
    · exact h.used t' f hold
    · exact hused
  pending := by
    intro j c hc
    rw [tally_push, h.pending j c hc]
    by_cases hj : j = i
    · subst hj
      have hevents : ((p.register t j b).socket j).events = (p.socket j).events ||| b := by
        simp [register, socket]
      rw [hevents]
      by_cases hcb : c = b
      · subst hcb
        have hor := (hc.meets_or hc (p.socket j).events).mpr (.inr rfl)
        rw [if_neg hnot, if_pos hor, if_pos ⟨rfl, rfl⟩]
      · have hor := hc.meets_or hb (p.socket j).events
        have hother : ¬(p.entry j b).matches j c := fun hm => hcb hm.2.symm
        simp [hor, hcb, hother]
    · have hevents : ((p.register t i b).socket j).events = (p.socket j).events := by
        simp [EventPoll.register, EventPoll.socket, modify_smap_ne, hj]
      have hother : ¬(p.entry i b).matches j c := fun hm => hj hm.1.symm
      rw [hevents, if_neg hother, Nat.add_zero]
  judged := by
    intro t' f slot r hmem
    apply h.judged t' f slot r
    simpa [EventPoll.register] using hmem

theorem moveOne (he : xs .mtcp = e :: ys) :
    Delivers p.moveOne (update (update xs .usr (xs .usr ++ [e])) .mtcp ys) := by
  have hpush : update xs .usr (xs .usr ++ [e]) .mtcp = e :: ys := by simpa using he
  have hmem : ∀ t f, f ∈ update (update xs .usr (xs .usr ++ [e])) .mtcp ys t → ∃ t', f ∈ xs t' := by
    intro t f hf
    obtain hold | rfl := mem_push (mem_pop hpush hf)
    · exact ⟨t, hold⟩
    · exact ⟨.mtcp, he ▸ (.head _)⟩
  constructor
  · intro t f hf
    obtain ⟨t', hold⟩ := hmem t f hf
    exact h.single t' f hold
  · intro t f hf
    obtain ⟨t', hold⟩ := hmem t f hf
    exact h.used t' f hold
  · intro i c hc
    have hcount := @tally_pop _ _ _ _ i c hpush
    rw [tally_push, h.pending i c hc] at hcount
    exact (Nat.add_right_cancel hcount).symm
  · intro t' f slot r hf
    apply h.judged t' f slot r
    simpa [EventPoll.moveOne] using hf

/-- The two other tests of `mtcp_epoll_wait` always pass here. -/
theorem validity_iff (he : e ∈ xs t) :
    p.validity e ↔ Meets (p.socket e.sockid).epoll e.ev.events := by
  have hsingle := h.single t e he
  have hmeets : Meets (p.socket e.sockid).events e.ev.events := by
    by_contra hnot
    have hzero := h.pending e.sockid e.ev.events hsingle
    rw [if_neg hnot] at hzero
    have hpos : 0 < tally e.sockid e.ev.events xs := tally_pos he ⟨rfl, rfl⟩
    omega
  simp [validity, h.used t e he, hmeets]

theorem fetchOne (hfront : (p.queue t).front = e) (he : xs t = e :: ys) :
    Delivers (p.fetchOne t) (update xs t ys) := by
  have hmem : e ∈ xs t := he ▸ (.head _)
  have hsingle := h.single t e hmem
  constructor
  · intro t' f hf
    exact h.single t' f (mem_pop he hf)
  · intro t' f hf
    have hkeep : ((p.fetchOne t).socket f.sockid).socktype = (p.socket f.sockid).socktype := by
      by_cases hj : f.sockid = e.sockid
      · simp [EventPoll.fetchOne, EventPoll.socket, hfront, hj]
      · simp [EventPoll.fetchOne, EventPoll.socket, hfront, modify_smap_ne, hj]
    rw [hkeep]
    exact h.used t' f (mem_pop he hf)
  · intro j c hc
    have hcount := @tally_pop _ _ _ _ j c he
    rw [h.pending j c hc] at hcount
    by_cases hj : j = e.sockid
    · subst hj
      have hevents : ((p.fetchOne t).socket e.sockid).events =
          (p.socket e.sockid).events &&& ~~~e.ev.events := by
        simp [EventPoll.fetchOne, EventPoll.socket, hfront]
      have hclear := hc.meets_clear hsingle (p.socket e.sockid).events
      rw [hevents]
      by_cases hcb : c = e.ev.events
      · subst hcb
        rw [if_pos (show e.matches e.sockid e.ev.events from ⟨rfl, rfl⟩)] at hcount
        rw [if_neg (fun hm => (hclear.mp hm).2 rfl)]
        split_ifs at hcount
        omega
      · rw [if_neg (fun hm : e.matches e.sockid c => hcb hm.2.symm)] at hcount
        simp only [hclear, ne_eq, hcb, not_false_eq_true, and_true]
        exact hcount.symm
    · have hevents : ((p.fetchOne t).socket j).events = (p.socket j).events := by
        simp [EventPoll.fetchOne, EventPoll.socket, hfront, modify_smap_ne, hj]
      rw [hevents]
      rw [if_neg (fun hm : e.matches j c => hj hm.1.symm)] at hcount
      exact hcount.symm
  · intro t' f slot r hf
    simp only [EventPoll.fetchOne, hfront, List.mem_append, List.mem_singleton] at hf
    obtain hold | hnew := hf
    · exact h.judged t' f slot r hold
    · cases hnew
      exact h.validity_iff hmem

theorem sockets (m : SocketMap) (hevents : ∀ i, (m.smap i).events = (p.socket i).events)
    (hused : ∀ i, (p.socket i).events ≠ 0 → (p.socket i).socktype ≠ .unused →
      (m.smap i).socktype ≠ .unused) : Delivers { p with sockets := m } xs where
  single := h.single
  used := by
    intro t e he
    apply hused e.sockid _ (h.used t e he)
    intro hzero
    have hcount := h.pending e.sockid e.ev.events (h.single t e he)
    have hpos : 0 < tally e.sockid e.ev.events xs := tally_pos he ⟨rfl, rfl⟩
    rw [hzero, if_neg (not_meets_zero _)] at hcount
    omega
  pending := by
    intro i b hb
    rw [h.pending i b hb]
    change _ = if Meets (m.smap i).events b then 1 else 0
    rw [hevents i]
  judged := h.judged

theorem interest (i : Nat) (f : Socket → Socket)
    (hevents : ∀ s, (f s).events = s.events) (htype : ∀ s, (f s).socktype = s.socktype) :
    Delivers { p with sockets := p.sockets.modify i f } xs := by
  apply h.sockets
  · intro j
    by_cases hj : j = i
    · subst hj
      simp [hevents, socket]
    · simp [modify_smap_ne, hj, socket]
  · intro j _ hused
    by_cases hj : j = i
    · subst hj
      simpa [htype, socket] using hused
    · simpa [modify_smap_ne, hj, socket] using hused

end

end Delivers

theorem single_epollin : Single EPOLLIN := ⟨0, by decide, by decide⟩

theorem single_epollout : Single EPOLLOUT := ⟨2, by decide, by decide⟩

theorem holds_rule : EpollRule (fun _ _ => True) fun _ _ => True where
  register := fun _ _ _ _ _ => trivial
  moveOne := fun _ _ _ => trivial
  fetchOne := fun _ _ _ _ => trivial
  setInterest := fun _ _ _ => trivial
  dropInterest := fun _ _ => trivial
  pending := fun _ _ => trivial
  events := fun _ => trivial

theorem delivers_rule : EpollRule Delivers fun s b => s.socktype ≠ .unused ∧ Single b where
  register := fun _ _ h ha hnot => h.register ha.1 ha.2 hnot
  moveOne := fun _ h he => h.moveOne he
  fetchOne := fun t hholds h he => h.fetchOne (he ▸ hholds.queue t).front he
  setInterest := fun i _ h => h.interest i _ (fun _ => rfl) (fun _ => rfl)
  dropInterest := fun i h => h.interest i _ (fun _ => rfl) (fun _ => rfl)
  pending := by
    intro p i ev event hused hevent
    constructor
    · simpa [setInterest, socket] using hused
    · obtain rfl | rfl := hevent
      · exact single_epollin
      · exact single_epollout
  events := fun h => h

/-- What a fetch loop hands out is what the log says it did, and it stops only when it has
handed out enough or has emptied its queue. -/
theorem fetchRounds_result (hholds : p.Holds xs) (maxevents fuel : Nat) (out : List EpollEvent)
    (hfuel : fuel = (p.queue t).numEvents) :
    ∃ new, (p.fetchRounds t maxevents fuel out).2.log = p.log ++ new ∧
      (p.fetchRounds t maxevents fuel out).1 = out ++ new.filterMap EpollEffect.result ∧
      (maxevents ≤ (p.fetchRounds t maxevents fuel out).1.length ∨
        ((p.fetchRounds t maxevents fuel out).2.queue t).numEvents = 0) ∧
      ∀ t', t' ≠ t → (p.fetchRounds t maxevents fuel out).2.queue t' = p.queue t' := by
  induction fuel generalizing p xs out with
  | zero => exact ⟨[], by simp [fetchRounds], by simp [fetchRounds],
      .inr hfuel.symm, fun _ _ => rfl⟩
  | succ fuel ih =>
    rw [fetchRounds]
    by_cases hgo : out.length < maxevents
    · rw [if_pos hgo]
      obtain ⟨e, ys, he⟩ := (hholds.queue t).exists_front (by omega)
      have hfront : (p.queue t).front = e := (he ▸ hholds.queue t).front
      have hlen : fuel = ((p.fetchOne t).queue t).numEvents := by
        simp only [fetchOne, EventQueue.drop, update_self]
        omega
      obtain ⟨new, hlog, hout, hstop, hother⟩ := ih (hholds.fetchOne he) (p.handOut t out) hlen
      refine ⟨.fetched t e (p.socket e.sockid) (p.validity e) :: new, ?_, ?_, hstop, ?_⟩
      · rw [hlog]
        simp [fetchOne, hfront]
      · rw [hout, handOut, hfront]
        cases hv : p.validity e with
        | true => simp [EpollEffect.result]
        | false => simp [EpollEffect.result, filterMap_cons]
      · intro t' ht
        rw [hother t' ht]
        simp [fetchOne, ht]
    · rw [if_neg hgo]
      exact ⟨[], by simp, by simp, .inl (Nat.le_of_not_lt hgo), fun _ _ => rfl⟩

theorem fetch_result {r : List EpollEvent × EventPoll} (hholds : r.2.Holds xs)
    (t : EventQueueType) (maxevents : Nat) : ∃ new, (fetch t maxevents r).2.log = r.2.log ++ new ∧
      (fetch t maxevents r).1 = r.1 ++ new.filterMap EpollEffect.result ∧
      (maxevents ≤ (fetch t maxevents r).1.length ∨
        ((fetch t maxevents r).2.queue t).numEvents = 0) ∧
      ∀ t', t' ≠ t → (fetch t maxevents r).2.queue t' = r.2.queue t' :=
  fetchRounds_result hholds maxevents _ r.1 rfl

theorem mtcpEpollWait_result (hholds : p.Holds xs) (maxevents : Nat) :
    ∃ new, (mtcpEpollWait maxevents p).2.log = p.log ++ new ∧
      (mtcpEpollWait maxevents p).1 = new.filterMap EpollEffect.result ∧
      (maxevents ≤ (mtcpEpollWait maxevents p).1.length ∨
        ((mtcpEpollWait maxevents p).2.queue .usr).numEvents = 0 ∧
          ((mtcpEpollWait maxevents p).2.queue .usrShadow).numEvents = 0) := by
  have hkeep : (fetch .usr maxevents ([], p)).2.Keeps fun _ _ => True :=
    holds_rule.fetchRounds .usr maxevents _ [] ⟨xs, hholds, trivial⟩ (Nat.le_refl _)
  obtain ⟨xs', hholds', -⟩ := hkeep
  obtain ⟨new, hlog, hout, hstop, -⟩ := @fetch_result xs ([], p) hholds .usr maxevents
  obtain ⟨new', hlog', hout', hstop', hother⟩ := fetch_result hholds' .usrShadow maxevents
  refine ⟨new ++ new', ?_, ?_, ?_⟩
  · rw [mtcpEpollWait, hlog', hlog, append_assoc]
  · rw [mtcpEpollWait, hout', hout, nil_append, filterMap_append]
  · obtain hfull | hempty := hstop'
    · exact .inl hfull
    · obtain hfirst | hfirst := hstop
      · left
        rw [mtcpEpollWait, hout', length_append]
        exact Nat.le_add_right_of_le hfirst
      · right
        rw [mtcpEpollWait, hother .usr nofun]
        exact ⟨hfirst, hempty⟩

theorem flushRounds_stop (fuel : Nat) (h : (p.queue .mtcp).numEvents ≤ fuel) :
    ((p.flushRounds fuel).queue .mtcp).numEvents = 0 ∨
      ((p.flushRounds fuel).queue .usr).size ≤ ((p.flushRounds fuel).queue .usr).numEvents := by
  induction fuel generalizing p with
  | zero => exact .inl (Nat.le_zero.mp h)
  | succ fuel ih =>
    rw [flushRounds]
    by_cases hgo : 0 < (p.queue .mtcp).numEvents ∧ (p.queue .usr).numEvents < (p.queue .usr).size
    · rw [if_pos hgo]
      apply ih
      simp only [moveOne, EventQueue.drop, update_self]
      omega
    · rw [if_neg hgo]
      omega

/-- Events are raised one bit at a time and for slots in use, and no slot is freed. -/
def EpollAction.unfreed (p : EventPoll) : EpollAction → Prop
  | .add _ i event => (p.socket i).socktype ≠ .unused ∧ Single event
  | .wait maxevents => 1 ≤ maxevents
  | .free _ => False
  | _ => True

theorem allocate_delivers (t : SockType) (h : p.Keeps Delivers) :
    (epollStep p (.allocate t)).Keeps Delivers := by
  obtain ⟨xs, hholds, h⟩ := h
  obtain hsame | ⟨i, free, halloc, hevents, -⟩ := allocateSocket_cases t p.sockets
  · simp only [epollStep, hsame]
    exact ⟨xs, hholds, h⟩
  · simp only [epollStep, halloc]
    refine ⟨xs, hholds.sockets _, h.sockets _ ?_ ?_⟩
    · intro j
      by_cases hj : j = i
      · subst hj
        simp [Socket.fresh, socket, hevents]
      · simp [modify_smap_ne, hj, socket]
    · intro j hne hused
      by_cases hj : j = i
      · subst hj
        exact absurd hevents hne
      · simpa [modify_smap_ne, hj, socket] using hused

theorem epollStep_delivers (a : EpollAction) (h : p.Keeps Delivers) (ha : a.unfreed p) :
    (epollStep p a).Keeps Delivers := by
  cases a with
  | add t i event => exact delivers_rule.add t h ha
  | flush => exact delivers_rule.flushRounds _ h
  | ctl op i ev b => exact delivers_rule.ctl op ev b h
  | wait maxevents => exact delivers_rule.wait maxevents h
  | allocate t => exact allocate_delivers t h
  | free i => exact ha.elim

theorem created_delivers (size : Nat) (hsize : 1 ≤ size) (m : SocketMap)
    (hm : ∀ i, (m.smap i).events = 0) : (mtcpEpollCreate size m).Keeps Delivers := by
  have hnone : Delivers (mtcpEpollCreate size m) fun _ => [] := by
    constructor
    · intro t e he
      exact absurd he not_mem_nil
    · intro t e he
      exact absurd he not_mem_nil
    · intro i b _
      change 0 = if Meets (m.smap i).events b then 1 else 0
      rw [hm i, if_neg (not_meets_zero b)]
    · intro t e slot r he
      exact absurd he not_mem_nil
  exact ⟨_, EventPoll.Holds.created size hsize m, hnone⟩

def EventPoll.queued (i : Nat) (b : UInt32) (p : EventPoll) : Nat :=
  tally i b fun t => (p.queue t).contents

/-- The three queues hand over every event they accept once and in order, and what is handed
out is what the socket is interested in. -/
theorem epoll_delivers_once_in_order (size : Nat) (hsize : 1 ≤ size) (m : SocketMap)
    (hm : ∀ i, (m.smap i).events = 0) (es : List EpollAction)
    (hes : Along epollStep (fun p a => a.unfreed p) (mtcpEpollCreate size m) es) :
    let p := epollRun (mtcpEpollCreate size m) es
    (∀ i b, Single b → p.queued i b = if Meets (p.socket i).events b then 1 else 0) ∧
    (∀ t, (p.queue t).stop = ((p.queue t).start + (p.queue t).numEvents) % (p.queue t).size ∧
      (p.queue t).numEvents ≤ (p.queue t).size) ∧
    (∀ t, p.log.filterMap (EpollEffect.arrival t) =
      p.log.filterMap (EpollEffect.departure t) ++ (p.queue t).contents) ∧
    (∀ t e slot r, .fetched t e slot r ∈ p.log → (r = true ↔ Meets slot.epoll e.ev.events)) ∧
    (∀ maxevents, ∃ new, (mtcpEpollWait maxevents p).2.log = p.log ++ new ∧
      (mtcpEpollWait maxevents p).1 = new.filterMap EpollEffect.result ∧
      (maxevents ≤ (mtcpEpollWait maxevents p).1.length ∨
        ((mtcpEpollWait maxevents p).2.queue .usr).numEvents = 0 ∧
          ((mtcpEpollWait maxevents p).2.queue .usrShadow).numEvents = 0)) ∧
    (((flushEpollEvents p).queue .mtcp).numEvents = 0 ∨
      ((flushEpollEvents p).queue .usr).size ≤ ((flushEpollEvents p).queue .usr).numEvents) := by
  intro p
  obtain ⟨xs, hholds, h⟩ : p.Keeps Delivers :=
    foldl_invariant (fun _ a hp ha => epollStep_delivers a hp ha)
      (created_delivers size hsize m hm) hes
  have hcontents : (fun t => (p.queue t).contents) = xs := by
    funext t
    exact (hholds.queue t).contents
  refine ⟨?_, ?_, ?_, h.judged, fun n => mtcpEpollWait_result hholds n,
    flushRounds_stop _ (Nat.le_refl _)⟩
  · intro i b hb
    rw [EventPoll.queued, hcontents]
    exact h.pending i b hb
  · intro t
    exact ⟨(hholds.queue t).stop_eq, (hholds.queue t).numEvents_le⟩
  · intro t
    rw [(hholds.queue t).contents]
    exact hholds.order t

def oneEvent : List EpollAction :=
  [.allocate .listener, .ctl .add 0 ⟨EPOLLIN, 7⟩ .nothing, .add .mtcp 0 EPOLLIN, .flush, .wait 4]

theorem epoll_delivers_once_in_order_oneEvent :
    (epollRun (mtcpEpollCreate 2 (createSockets 3)) oneEvent).queued 0 EPOLLIN = 0 ∧
    (epollRun (mtcpEpollCreate 2 (createSockets 3)) oneEvent).log.filterMap EpollEffect.result =
      [⟨EPOLLIN, 7⟩] := by
  refine ⟨?_, by decide +kernel⟩
  have hcount := (epoll_delivers_once_in_order 2 (by decide) (createSockets 3) (fun _ => rfl)
    oneEvent ⟨trivial, trivial, ⟨by decide, single_epollin⟩, trivial, Nat.le_add_left 1 3,
      trivial⟩).1 0 EPOLLIN single_epollin
  rw [hcount]
  decide +kernel

end Mtcp
