import Mtcp.Epoll

namespace Mtcp

open Flags Runs List Option EventPoll
open Function (update)

/-- A queue whose fields describe a ring with the events `xs` in it. -/
structure EventQueue.Holds (q : EventQueue) (xs : List EpollEventInt) : Prop where
  size_eq : q.size = q.events.length
  ring : CountedRing.Holds q.events q.start q.numEvents xs
  stop_eq : q.stop = CountedRing.pos q.size q.start q.numEvents

namespace EventQueue.Holds

variable {q : EventQueue} {e : EpollEventInt} {xs : List EpollEventInt}

theorem contents (h : q.Holds xs) : q.contents = xs := by
  apply ext_getElem?
  intro i
  rw [EventQueue.contents, getElem?_map, h.ring.count_eq, h.size_eq]
  by_cases hi : i < xs.length
  · have hcell := h.ring.cell i hi
    rw [getElem?_range hi, map_some, getD_eq_getElem?_getD, hcell,
      getElem?_eq_getElem hi, getD_some]
  · rw [getElem?_eq_none (by simpa using hi), getElem?_eq_none (by omega)]
    exact map_none _

theorem created (size : Nat) (h : 1 ≤ size) : (createEventQueue size).Holds [] where
  size_eq := (length_replicate ..).symm
  ring := CountedRing.holds_empty (by simpa [createEventQueue] using Nat.pos_of_ne_zero (by omega))
  stop_eq := (Nat.zero_mod _).symm

theorem put (h : q.Holds xs) (e : EpollEventInt) (hroom : q.numEvents < q.size) :
    (q.put e).Holds (xs ++ [e]) where
  size_eq := by
    simpa [EventQueue.put] using h.size_eq
  ring := by
    have hring := h.ring.push e (h.size_eq ▸ hroom)
    rw [← h.size_eq, ← h.stop_eq] at hring
    exact hring
  stop_eq := by
    have hstart : q.start < q.size := h.size_eq ▸ h.ring.start_lt
    change CountedRing.next q.size q.stop = CountedRing.pos q.size q.start (q.numEvents + 1)
    rw [h.stop_eq, CountedRing.next_pos hstart hroom]

theorem front (h : q.Holds (e :: xs)) : q.front = e := by
  rw [EventQueue.front, getD_eq_getElem?_getD, h.ring.front, getD_some]

theorem drop (h : q.Holds (e :: xs)) : q.drop.Holds xs where
  size_eq := h.size_eq
  ring := by
    have hring := h.ring.pop
    rwa [← h.size_eq] at hring
  stop_eq := by
    have hstart : q.start < q.size := h.size_eq ▸ h.ring.start_lt
    have hle : q.numEvents ≤ q.size := h.size_eq ▸ h.ring.count_le
    have hpos : 0 < q.numEvents := h.ring.count_eq ▸ Nat.succ_pos _
    change q.stop = CountedRing.pos q.size (CountedRing.next q.size q.start) (q.numEvents - 1)
    rw [h.stop_eq, CountedRing.pos_next hstart (by omega), Nat.sub_add_cancel hpos]

theorem exists_front (h : q.Holds xs) (hpos : 0 < q.numEvents) : ∃ e ys, xs = e :: ys := by
  rw [h.ring.count_eq] at hpos
  exact exists_cons_of_length_pos hpos

theorem numEvents_le (h : q.Holds xs) : q.numEvents ≤ q.size := h.size_eq ▸ h.ring.count_le

end EventQueue.Holds

def EpollEventInt.matches (i : Nat) (b : UInt32) (e : EpollEventInt) : Prop :=
  e.sockid = i ∧ e.ev.events = b

instance (i : Nat) (b : UInt32) (e : EpollEventInt) : Decidable (e.matches i b) :=
  inferInstanceAs (Decidable (e.sockid = i ∧ e.ev.events = b))

def occurrences (i : Nat) (b : UInt32) (xs : List EpollEventInt) : Nat :=
  xs.countP fun e => e.matches i b

def tally (i : Nat) (b : UInt32) (xs : EventQueueType → List EpollEventInt) : Nat :=
  occurrences i b (xs .usr) + occurrences i b (xs .usrShadow) + occurrences i b (xs .mtcp)

def EpollEffect.arrival (t : EventQueueType) : EpollEffect → Option EpollEventInt
  | .accepted t' e => if t' = t then some e else none
  | .moved e => if t = .usr then some e else none
  | .fetched _ _ _ _ => none

def EpollEffect.departure (t : EventQueueType) : EpollEffect → Option EpollEventInt
  | .accepted _ _ => none
  | .moved e => if t = .mtcp then some e else none
  | .fetched t' e _ _ => if t' = t then some e else none

def EpollEffect.result : EpollEffect → Option EpollEvent
  | .fetched _ e _ true => some e.ev
  | _ => none

/-- The queues hold `xs`, and the log accounts for them. -/
structure EventPoll.Holds (p : EventPoll) (xs : EventQueueType → List EpollEventInt) : Prop where
  queue : ∀ t, (p.queue t).Holds (xs t)
  order : ∀ t, p.log.filterMap (EpollEffect.arrival t) =
    p.log.filterMap (EpollEffect.departure t) ++ xs t

namespace EventPoll.Holds

variable {p : EventPoll} {xs : EventQueueType → List EpollEventInt} {t : EventQueueType}
  {e : EpollEventInt} {ys : List EpollEventInt}

theorem created (size : Nat) (h : 1 ≤ size) (m : SocketMap) :
    (mtcpEpollCreate size m).Holds fun _ => [] where
  queue := fun _ => EventQueue.Holds.created size h
  order := fun _ => rfl

theorem sockets (h : p.Holds xs) (m : SocketMap) : { p with sockets := m }.Holds xs :=
  ⟨h.queue, h.order⟩

theorem register (h : p.Holds xs) {i : Nat} {event : UInt32}
    (hroom : (p.queue t).numEvents < (p.queue t).size) :
    (p.register t i event).Holds (update xs t (xs t ++ [p.entry i event])) where
  queue := by
    intro t'
    by_cases ht : t' = t
    · subst ht
      simpa [register] using (h.queue t').put (p.entry i event) hroom
    · simpa [EventPoll.register, ht] using h.queue t'
  order := by
    intro t'
    have horder := h.order t'
    by_cases ht : t' = t
    · subst ht
      simp [register, EpollEffect.arrival, EpollEffect.departure, horder]
    · simp [EventPoll.register, EpollEffect.arrival, EpollEffect.departure, horder, ht, Ne.symm ht]

theorem moveOne (h : p.Holds xs) (he : xs .mtcp = e :: ys)
    (hroom : (p.queue .usr).numEvents < (p.queue .usr).size) :
    p.moveOne.Holds (update (update xs .usr (xs .usr ++ [e])) .mtcp ys) := by
  have hmtcp := he ▸ h.queue .mtcp
  have hfront : (p.queue .mtcp).front = e := hmtcp.front
  constructor
  · intro t
    cases t with
    | usr => simpa [EventPoll.moveOne, hfront] using (h.queue .usr).put e hroom
    | usrShadow => simpa [EventPoll.moveOne] using h.queue .usrShadow
    | mtcp => simpa [EventPoll.moveOne] using hmtcp.drop
  · intro t
    have horder := h.order t
    cases t with
    | usr =>
      simp [EventPoll.moveOne, EpollEffect.arrival, EpollEffect.departure, horder, hfront]
    | usrShadow =>
      simp [EventPoll.moveOne, EpollEffect.arrival, EpollEffect.departure, horder]
    | mtcp =>
      simp [EventPoll.moveOne, EpollEffect.arrival, EpollEffect.departure, horder, hfront, he]

theorem fetchOne (h : p.Holds xs) (he : xs t = e :: ys) :
    (p.fetchOne t).Holds (update xs t ys) := by
  have hqueue := he ▸ h.queue t
  have hfront : (p.queue t).front = e := hqueue.front
  constructor
  · intro t'
    by_cases ht : t' = t
    · subst ht
      simpa [fetchOne] using hqueue.drop
    · simpa [EventPoll.fetchOne, ht] using h.queue t'
  · intro t'
    have horder := h.order t'
    by_cases ht : t' = t
    · subst ht
      simp [fetchOne, EpollEffect.arrival, EpollEffect.departure, horder, hfront, he]
    · simp [EventPoll.fetchOne, EpollEffect.arrival, EpollEffect.departure, horder, ht, Ne.symm ht]

end EventPoll.Holds

/-- What has to be checked of an invariant `inv`, when events are only raised where `allowed`
accepts. -/
structure EpollRule (inv : EventPoll → (EventQueueType → List EpollEventInt) → Prop)
    (allowed : Socket → UInt32 → Prop) : Prop where
  register : ∀ {p xs} {i : Nat} {event : UInt32} (t), p.Holds xs → inv p xs →
    allowed (p.socket i) event → ¬Meets (p.socket i).events event →
    inv (p.register t i event) (Function.update xs t (xs t ++ [p.entry i event]))
  moveOne : ∀ {p xs e ys}, p.Holds xs → inv p xs → xs .mtcp = e :: ys →
    inv p.moveOne (Function.update (Function.update xs .usr (xs .usr ++ [e])) .mtcp ys)
  fetchOne : ∀ {p xs e ys} (t), p.Holds xs → inv p xs → xs t = e :: ys →
    inv (p.fetchOne t) (Function.update xs t ys)
  setInterest : ∀ {p xs} (i ev), inv p xs → inv (p.setInterest i ev) xs
  dropInterest : ∀ {p xs} (i), inv p xs → inv (p.dropInterest i) xs
  pending : ∀ {p : EventPoll} {i : Nat} {ev : EpollEvent} {event : UInt32},
    (p.socket i).socktype ≠ .unused → event = EPOLLIN ∨ event = EPOLLOUT →
    allowed ((p.setInterest i ev).socket i) event
  events : ∀ {s : Socket} {b x : UInt32}, allowed s b → allowed { s with events := x } b

def EventPoll.Keeps (inv : EventPoll → (EventQueueType → List EpollEventInt) → Prop)
    (p : EventPoll) : Prop :=
  ∃ xs, p.Holds xs ∧ inv p xs

namespace EpollRule

variable {inv : EventPoll → (EventQueueType → List EpollEventInt) → Prop}
  {allowed : Socket → UInt32 → Prop} {p : EventPoll} {i : Nat} {event : UInt32}

section

variable (rule : EpollRule inv allowed)

include rule

theorem add (t : EventQueueType) (h : p.Keeps inv)
    (ha : allowed (p.socket i) event) : (addEpollEvent t i event p).2.Keeps inv := by
  unfold addEpollEvent
  split_ifs with hzero hmeets hfull
  · exact h
  · exact h
  · exact h
  · obtain ⟨xs, hholds, hinv⟩ := h
    exact ⟨_, hholds.register (Nat.lt_of_not_le hfull), rule.register t hholds hinv ha hmeets⟩

theorem allowed_add {t : EventQueueType} {b : UInt32}
    (ha : allowed (p.socket i) b) : allowed ((addEpollEvent t i event p).2.socket i) b := by
  unfold addEpollEvent
  split_ifs
  · exact ha
  · exact ha
  · exact ha
  · simpa [EventPoll.register, EventPoll.socket] using rule.events ha

theorem flushRounds (fuel : Nat) (h : p.Keeps inv) : (p.flushRounds fuel).Keeps inv := by
  induction fuel generalizing p with
  | zero => exact h
  | succ fuel ih =>
    rw [flushRounds]
    by_cases hgo : 0 < (p.queue .mtcp).numEvents ∧ (p.queue .usr).numEvents < (p.queue .usr).size
    · rw [if_pos hgo]
      obtain ⟨xs, hholds, hinv⟩ := h
      obtain ⟨e, ys, he⟩ := (hholds.queue .mtcp).exists_front hgo.1
      exact ih ⟨_, hholds.moveOne he hgo.2, rule.moveOne hholds hinv he⟩
    · rw [if_neg hgo]
      exact h

theorem fetchRounds (t : EventQueueType) (maxevents fuel : Nat)
    (out : List EpollEvent) (h : p.Keeps inv) (hfuel : fuel ≤ (p.queue t).numEvents) :
    (p.fetchRounds t maxevents fuel out).2.Keeps inv := by
  induction fuel generalizing p out with
  | zero => exact h
  | succ fuel ih =>
    rw [fetchRounds]
    by_cases hgo : out.length < maxevents
    · rw [if_pos hgo]
      obtain ⟨xs, hholds, hinv⟩ := h
      obtain ⟨e, ys, he⟩ := (hholds.queue t).exists_front (by omega)
      have hlen : ((p.fetchOne t).queue t).numEvents = (p.queue t).numEvents - 1 := by
        simp [EventPoll.fetchOne, EventQueue.drop]
      exact ih _ ⟨_, hholds.fetchOne he, rule.fetchOne t hholds hinv he⟩ (by omega)
    · rw [if_neg hgo]
      exact h

theorem wait (maxevents : Nat) (h : p.Keeps inv) : (mtcpEpollWait maxevents p).2.Keeps inv := by
  apply rule.fetchRounds
  · exact rule.fetchRounds .usr maxevents _ [] h (Nat.le_refl _)
  · exact Nat.le_refl _

theorem raiseIf (test : Socket → Bool) (h : p.Keeps inv)
    (ha : allowed (p.socket i) event) : (p.raiseIf test i event).Keeps inv := by
  unfold EventPoll.raiseIf
  by_cases ht : test (p.socket i)
  · rw [if_pos ht]
    exact rule.add .usrShadow h ha
  · rw [if_neg ht]
    exact h

theorem allowed_raiseIf (test : Socket → Bool) {b : UInt32}
    (ha : allowed (p.socket i) b) : allowed ((p.raiseIf test i event).socket i) b := by
  unfold EventPoll.raiseIf
  by_cases ht : test (p.socket i)
  · rw [if_pos ht]
    exact rule.allowed_add ha
  · rw [if_neg ht]
    exact ha

theorem raisePendingEvents (b : Behind) (h : p.Keeps inv)
    (ha : (p.socket i).socktype ≠ .unused → ∀ event, event = EPOLLIN ∨ event = EPOLLOUT →
      allowed (p.socket i) event) : (raisePendingEvents b i p).Keeps inv := by
  -- both functions raise the two events one after the other
  have htwo : ∀ c d, (p.socket i).socktype ≠ .unused →
      ((p.raiseIf c i EPOLLIN).raiseIf d i EPOLLOUT).Keeps inv := by
    intro c d hused
    apply rule.raiseIf d (rule.raiseIf c h (ha hused _ (.inl rfl)))
    exact rule.allowed_raiseIf c (ha hused _ (.inr rfl))
  unfold Mtcp.raisePendingEvents
  split
  · rename_i s hsock
    unfold raisePendingStreamEvents
    by_cases hs : s.state < .established
    · rw [if_pos hs]
      exact h
    · rw [if_neg hs]
      exact htwo _ _ (by rw [hsock]; decide)
  · rename_i pp hsock
    unfold raisePendingPipeEvents
    by_cases hs : pp.state = .closed
    · rw [if_pos hs]
      exact h
    · rw [if_neg hs]
      exact htwo _ _ (by rw [hsock]; decide)
  · exact h

theorem setInterest_pending (ev : EpollEvent) (b : Behind)
    (h : p.Keeps inv) : (Mtcp.raisePendingEvents b i (p.setInterest i ev)).Keeps inv := by
  obtain ⟨xs, hholds, hinv⟩ := h
  apply rule.raisePendingEvents b ⟨xs, hholds.sockets _, rule.setInterest i ev hinv⟩
  intro hused event hevent
  apply rule.pending _ hevent
  simpa [setInterest, socket] using hused

theorem ctl (op : EpollOp) (ev : EpollEvent) (b : Behind)
    (h : p.Keeps inv) : (mtcpEpollCtl op i ev b p).2.Keeps inv := by
  cases op with
  | add | mod =>
    simp only [mtcpEpollCtl]
    split_ifs
    · exact h
    · exact rule.setInterest_pending ev b h
  | del =>
    simp only [mtcpEpollCtl]
    split_ifs
    · exact h
    · obtain ⟨xs, hholds, hinv⟩ := h
      exact ⟨xs, hholds.sockets _, rule.dropInterest i hinv⟩

end

end EpollRule

end Mtcp
