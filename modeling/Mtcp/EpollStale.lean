import Mtcp.EpollQueues

namespace Mtcp

open Flags Runs List EventPoll
open Function (update update_self update_of_ne)

variable {p : EventPoll} {xs : EventQueueType → List EpollEventInt} {t : EventQueueType}
  {e : EpollEventInt} {ys : List EpollEventInt} {i : Nat} {b : UInt32}

/-- The event was raised for the present user of the slot, with data this user registered. -/
def EpollEventInt.Current (e : EpollEventInt) (s : Socket) : Prop :=
  e.born = s.allocs ∧ e.ev.data ∈ s.registered

/-- Every queued event of a slot in use belongs to its present user. -/
structure Timely (p : EventPoll) (xs : EventQueueType → List EpollEventInt) : Prop where
  current : ∀ t, ∀ e ∈ xs t, (p.socket e.sockid).socktype ≠ .unused →
    e.Current (p.socket e.sockid)
  registered : ∀ i, (p.socket i).registered ≠ [] → (p.socket i).epData ∈ (p.socket i).registered
  returned : ∀ t e slot, .fetched t e slot true ∈ p.log → e.Current slot

/-- The fields that tell who uses a slot and what is registered for it. -/
def Socket.owner (s : Socket) : SockType × Nat × UInt64 × List UInt64 :=
  (s.socktype, s.allocs, s.epData, s.registered)

namespace Timely

/-- Steps that leave the users of the slots alone only have to account for the entries and
for what they hand out. -/
theorem of_owner {q : EventPoll} {zs : EventQueueType → List EpollEventInt} (h : Timely p xs)
    (howner : ∀ i, (q.socket i).owner = (p.socket i).owner)
    (hmem : ∀ t, ∀ e ∈ zs t, (p.socket e.sockid).socktype ≠ .unused → e.Current (p.socket e.sockid))
    (hreturned : ∀ t e slot, .fetched t e slot true ∈ q.log → e.Current slot) : Timely q zs := by
  have hfields : ∀ i, (q.socket i).socktype = (p.socket i).socktype ∧
      (q.socket i).allocs = (p.socket i).allocs ∧ (q.socket i).epData = (p.socket i).epData ∧
      (q.socket i).registered = (p.socket i).registered := by
    intro i
    simpa [Socket.owner] using howner i
  constructor
  · intro t e he hused
    obtain ⟨htype, hallocs, -, hreg⟩ := hfields e.sockid
    obtain ⟨hborn, hdata⟩ := hmem t e he (htype ▸ hused)
    exact ⟨hborn.trans hallocs.symm, hreg ▸ hdata⟩
  · intro i hne
    obtain ⟨-, -, hdata, hreg⟩ := hfields i
    rw [hdata, hreg]
    exact h.registered i (hreg ▸ hne)
  · exact hreturned

section

variable (h : Timely p xs)

include h

theorem register (hreg : (p.socket i).socktype ≠ .unused → (p.socket i).registered ≠ []) :
    Timely (p.register t i b) (update xs t (xs t ++ [p.entry i b])) := by
  apply h.of_owner
  · intro j
    by_cases hj : j = i
    · subst hj
      simp [register, socket, Socket.owner]
    · simp [EventPoll.register, EventPoll.socket, modify_smap_ne, hj]
  · intro t' f hf hused
    by_cases ht : t' = t
    · subst ht
      rw [update_self, mem_append, mem_singleton] at hf
      obtain hold | rfl := hf
      · exact h.current t' f hold hused
      · exact ⟨rfl, h.registered i (hreg hused)⟩
    · rw [update_of_ne ht] at hf
      exact h.current t' f hf hused
  · intro t' f slot hf
    apply h.returned t' f slot
    simpa [EventPoll.register] using hf

theorem moveOne (he : xs .mtcp = e :: ys) :
    Timely p.moveOne (update (update xs .usr (xs .usr ++ [e])) .mtcp ys) := by
  have hfirst : e ∈ xs .mtcp := he ▸ (.head _)
  apply h.of_owner
  · exact fun _ => rfl
  · intro t' f hf hused
    cases t' with
    | usr =>
      obtain hold | rfl : f ∈ xs .usr ∨ f = e := by simpa using hf
      · exact h.current .usr f hold hused
      · exact h.current .mtcp f hfirst hused
    | usrShadow => exact h.current .usrShadow f (by simpa using hf) hused
    | mtcp =>
      have hold : f ∈ ys := by simpa using hf
      exact h.current .mtcp f (he ▸ mem_cons_of_mem e hold) hused
  · intro t' f slot hf
    apply h.returned t' f slot
    simpa [EventPoll.moveOne] using hf

theorem fetchOne (hfront : (p.queue t).front = e) (he : xs t = e :: ys) :
    Timely (p.fetchOne t) (Function.update xs t ys) := by
  apply h.of_owner
  · intro j
    by_cases hj : j = e.sockid
    · subst hj
      simp [EventPoll.fetchOne, EventPoll.socket, hfront, Socket.owner]
    · simp [EventPoll.fetchOne, EventPoll.socket, hfront, modify_smap_ne, hj]
  · intro t' f hf hused
    by_cases ht : t' = t
    · subst ht
      rw [Function.update_self] at hf
      exact h.current t' f (he ▸ List.mem_cons_of_mem e hf) hused
    · rw [Function.update_of_ne ht] at hf
      exact h.current t' f hf hused
  · intro t' f slot hf
    simp only [EventPoll.fetchOne, hfront, List.mem_append, List.mem_singleton] at hf
    obtain hold | hnew := hf
    · exact h.returned t' f slot hold
    · -- the test of the fetch loop looked at the slot's type
      injection hnew with ht' hf' hslot hvalid
      subst ht' hf' hslot
      have hused : (p.socket f.sockid).socktype ≠ .unused := by
        have hvalid' := hvalid.symm
        simp only [EventPoll.validity, Bool.and_eq_true, decide_eq_true_eq] at hvalid'
        exact hvalid'.1.1
      exact h.current t' f (he ▸ (.head _)) hused

theorem setInterest (i : Nat) (ev : EpollEvent) : Timely (p.setInterest i ev) xs := by
  have hself : (p.setInterest i ev).socket i = { p.socket i with
      epData := ev.data
      epoll := ev.events ||| (EPOLLERR ||| EPOLLHUP)
      registered := ev.data :: (p.socket i).registered } := by
    simp [EventPoll.setInterest, EventPoll.socket]
  have hother : ∀ j, j ≠ i → (p.setInterest i ev).socket j = p.socket j := by
    intro j hj
    simp [EventPoll.setInterest, EventPoll.socket, modify_smap_ne, hj]
  constructor
  · intro t e he hused
    by_cases hj : e.sockid = i
    · rw [hj, hself] at hused
      rw [hj, hself]
      obtain ⟨hborn, hdata⟩ := h.current t e he (by rw [hj]; exact hused)
      rw [hj] at hborn hdata
      exact ⟨hborn, .tail _ hdata⟩
    · rw [hother _ hj] at hused ⊢
      exact h.current t e he hused
  · intro j hne
    by_cases hj : j = i
    · rw [hj, hself]
      exact (.head _)
    · rw [hother j hj] at hne ⊢
      exact h.registered j hne
  · exact h.returned

theorem dropInterest (i : Nat) : Timely (p.dropInterest i) xs := by
  apply h.of_owner
  · intro j
    by_cases hj : j = i
    · subst hj
      simp [EventPoll.dropInterest, EventPoll.socket, Socket.owner]
    · simp [EventPoll.dropInterest, EventPoll.socket, modify_smap_ne, hj]
  · exact h.current
  · exact h.returned

theorem free (i : Nat) : Timely { p with sockets := freeSocket i p.sockets } xs := by
  unfold freeSocket
  by_cases hunused : (p.sockets.smap i).socktype = .unused
  · rw [if_pos hunused]
    exact h
  · rw [if_neg hunused]
    constructor
    · intro t e he hused
      by_cases hj : e.sockid = i
      · simp [socket, hj, Socket.unuse] at hused
      · simp only [socket, modify_smap_ne _ _ hj] at hused ⊢
        exact h.current t e he hused
    · intro j hne
      by_cases hj : j = i
      · subst hj
        simp only [socket, modify_smap_self, Socket.unuse] at hne ⊢
        exact h.registered j hne
      · simp only [socket, modify_smap_ne _ _ hj] at hne ⊢
        exact h.registered j hne
    · exact h.returned

theorem allocate {i : Nat} {free : List Nat} (t : SockType)
    (hnone : ∀ t, ∀ e ∈ xs t, e.sockid ≠ i) : Timely { p with sockets :=
      { p.sockets.modify i (Socket.fresh t) with freeSmap := free } } xs where
  current := by
    intro t' e he hused
    simp only [socket, modify_smap_ne _ _ (hnone t' e he)] at hused ⊢
    exact h.current t' e he hused
  registered := by
    intro j hne
    by_cases hj : j = i
    · subst hj
      simp [socket, Socket.fresh] at hne
    · simp only [socket, modify_smap_ne _ _ hj] at hne ⊢
      exact h.registered j hne
  returned := h.returned

end

end Timely

theorem timely_rule :
    EpollRule Timely fun s _ => s.socktype ≠ .unused → s.registered ≠ [] where
  register := fun _ _ h ha _ => h.register ha
  moveOne := fun _ h he => h.moveOne he
  fetchOne := fun t hholds h he => h.fetchOne (he ▸ hholds.queue t).front he
  setInterest := fun i ev h => h.setInterest i ev
  dropInterest := fun i h => h.dropInterest i
  pending := by
    intro p i ev event _ _ _
    simp [setInterest, socket]
  events := fun h => h

/-- The slot `AllocateSocket` takes is the first free one without pending events. -/
theorem nextSlot_eq_find {smap : Nat → Socket} {fuel i : Nat} {free rest : List Nat}
    (h : nextSlot smap fuel free = (.free i, rest)) :
    free.find? (fun j => (smap j).events = 0) = some i := by
  induction fuel generalizing free with
  | zero =>
    cases free with
    | nil | cons => exact absurd h nofun
  | succ fuel ih =>
    cases free with
    | nil => exact absurd h nofun
    | cons j free =>
      rw [nextSlot] at h
      by_cases hj : (smap j).events = 0
      · rw [if_neg (not_not.mpr hj)] at h
        injection h with hslot
        injection hslot with hi
        rw [find?_cons_of_pos (by simpa using hj), hi]
      · rw [if_pos hj] at h
        have hfind := ih h
        rw [find?_append] at hfind
        rw [find?_cons_of_neg (by simpa using hj)]
        simpa [find?_cons_of_neg, hj] using hfind

def EventPoll.backlog (p : EventPoll) : List EpollEventInt :=
  (p.queue .usr).contents ++ (p.queue .usrShadow).contents ++ (p.queue .mtcp).contents

/-- A slot is not taken while events of its last user are queued, and events are raised only
for sockets their user has registered. -/
def EpollAction.clean (p : EventPoll) : EpollAction → Prop
  | .allocate _ => ∀ e ∈ p.backlog,
      p.sockets.freeSmap.find? (fun j => (p.socket j).events = 0) ≠ some e.sockid
  | .add _ i _ => (p.socket i).socktype ≠ .unused → (p.socket i).registered ≠ []
  | _ => True

instance decidableClean : (a : EpollAction) → Decidable (a.clean p)
  | .allocate _ => inferInstanceAs (Decidable (∀ e ∈ p.backlog,
      p.sockets.freeSmap.find? (fun j => (p.socket j).events = 0) ≠ some e.sockid))
  | .add _ i _ => inferInstanceAs
      (Decidable ((p.socket i).socktype ≠ .unused → (p.socket i).registered ≠ []))
  | .flush | .ctl .. | .wait _ | .free _ => isTrue trivial

theorem mem_backlog (he : e ∈ (p.queue t).contents) : e ∈ p.backlog := by
  cases t with
  | usr | usrShadow | mtcp => simp [backlog, he]

theorem epollStep_timely (a : EpollAction) (h : p.Keeps Timely) (ha : a.clean p) :
    (epollStep p a).Keeps Timely := by
  cases a with
  | add t i event => exact timely_rule.add t h ha
  | flush => exact timely_rule.flushRounds _ h
  | ctl op i ev b => exact timely_rule.ctl op ev b h
  | wait maxevents => exact timely_rule.wait maxevents h
  | allocate t =>
    obtain ⟨xs, hholds, h⟩ := h
    simp only [epollStep, allocateSocket]
    cases hslot : p.sockets.nextSlot with
    | mk slot free =>
      cases slot with
      | free i =>
        refine ⟨xs, hholds.sockets _, h.allocate t ?_⟩
        intro t' e he hi
        rw [← (hholds.queue t').contents] at he
        apply ha e (mem_backlog he)
        rw [hi]
        exact nextSlot_eq_find hslot
      | full | spins => exact ⟨xs, hholds, h⟩
  | free i =>
    obtain ⟨xs, hholds, h⟩ := h
    exact ⟨xs, hholds.sockets _, h.free i⟩

/-- Every event handed out was raised for the present user of its slot and carries data that
user registered. -/
theorem epoll_events_current (size : Nat) (hsize : 1 ≤ size) (maxConcurrency : Nat)
    (es : List EpollAction)
    (hes : Along epollStep (fun p a => a.clean p)
      (mtcpEpollCreate size (createSockets maxConcurrency)) es) :
    ∀ t e slot, .fetched t e slot true ∈
      (epollRun (mtcpEpollCreate size (createSockets maxConcurrency)) es).log →
      e.born = slot.allocs ∧ e.ev.data ∈ slot.registered := by
  have hstart : (mtcpEpollCreate size (createSockets maxConcurrency)).Keeps Timely := by
    refine ⟨_, EventPoll.Holds.created size hsize _, ?_, ?_, ?_⟩
    · intro t e he
      exact absurd he List.not_mem_nil
    · intro i hne
      exact absurd rfl hne
    · intro t e slot he
      exact absurd he List.not_mem_nil
  obtain ⟨xs, -, h⟩ : (epollRun (mtcpEpollCreate size (createSockets maxConcurrency)) es).Keeps
      Timely := foldl_invariant (fun _ a hp ha => epollStep_timely a hp ha) hstart hes
  exact h.returned

def drainedReuse : List EpollAction :=
  [.allocate .listener, .ctl .add 0 ⟨EPOLLIN, 7⟩ .nothing, .add .mtcp 0 EPOLLIN, .flush, .wait 4,
    .free 0, .allocate .listener, .ctl .add 0 ⟨EPOLLIN, 8⟩ .nothing, .add .mtcp 0 EPOLLIN, .flush,
    .wait 4]

def undrainedReuse : List EpollAction :=
  [.allocate .listener, .ctl .add 0 ⟨EPOLLIN, 7⟩ .nothing, .add .mtcp 0 EPOLLIN, .flush,
    .free 0, .allocate .listener, .ctl .add 0 ⟨EPOLLIN, 8⟩ .nothing, .add .mtcp 0 EPOLLIN, .flush,
    .wait 1]

theorem epoll_events_current_drained :
    ∃ e slot, .fetched .usr e slot true ∈
      (epollRun (mtcpEpollCreate 2 (createSockets 1)) drainedReuse).log ∧
      e.born = 2 ∧ slot.allocs = 2 ∧ e.ev.data ∈ slot.registered := by
  have hmem : .fetched .usr ⟨⟨EPOLLIN, 8⟩, 0, 2⟩
      { socktype := .listener, epoll := EPOLLIN ||| (EPOLLERR ||| EPOLLHUP), events := EPOLLIN,
        epData := 8, allocs := 2, registered := [8] } true ∈
      (epollRun (mtcpEpollCreate 2 (createSockets 1)) drainedReuse).log := by decide
  have hclean : Along epollStep (fun p a => a.clean p) (mtcpEpollCreate 2 (createSockets 1))
      drainedReuse := by decide
  exact ⟨_, _, hmem, rfl, rfl,
    (epoll_events_current 2 (by decide) 1 drainedReuse hclean _ _ _ hmem).2⟩

theorem closed_slot_leaves_event_to_next_user :
    ∃ slot : Socket, .fetched .usr ⟨⟨EPOLLIN, 7⟩, 0, 1⟩ slot true ∈
      (epollRun (mtcpEpollCreate 2 (createSockets 1)) undrainedReuse).log ∧
      slot.allocs = 2 ∧ slot.registered = [8] :=
  ⟨{ socktype := .listener, epoll := EPOLLIN ||| (EPOLLERR ||| EPOLLHUP), events := EPOLLIN,
     epData := 8, allocs := 2, registered := [8] }, by decide, rfl, rfl⟩

end Mtcp
