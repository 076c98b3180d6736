import Mathlib.Logic.Function.Basic
import Mtcp.Ring
import Mtcp.Runs

namespace Mtcp

open Runs List Option
open Function (update update_self update_of_ne)

variable {α : Type}

/-! `tcp_stream_queue.c`: the queues between the application and the stack thread. -/

/-- A null pointer is `none`. -/
structure StreamQueue (α : Type) where
  capacity : Nat
  head : Nat := 0
  tail : Nat := 0
  q : List (Option α)

def createStreamQueue (α : Type) (capacity : Nat) : StreamQueue α where
  capacity := capacity
  q := List.replicate (capacity + 1) none

def nextIndex (sq : StreamQueue α) (i : Nat) : Nat := Ring.next sq.capacity i

def streamEnqueue (sq : StreamQueue α) (stream : α) : Int × StreamQueue α :=
  let h := sq.head
  let t := sq.tail
  let nt := nextIndex sq t
  if nt ≠ h then (0, { sq with q := sq.q.set t (some stream), tail := nt }) else (-1, sq)

/-- The pointer that is returned, `some none` where `assert(stream)` fails. -/
def streamDequeue (sq : StreamQueue α) : Option (Option α) × StreamQueue α :=
  let h := sq.head
  let t := sq.tail
  if h ≠ t then (some (sq.q.getD h none), { sq with head := nextIndex sq h }) else (none, sq)

/-! Both calls as two atomic steps. -/

/-- `StreamEnqueue` up to the barrier, with the tail it is going to store. -/
def enqueueFill (sq : StreamQueue α) (stream : α) : Option Nat × StreamQueue α :=
  let nt := nextIndex sq sq.tail
  if nt ≠ sq.head then (some nt, { sq with q := sq.q.set sq.tail (some stream) }) else (none, sq)

/-- `StreamDequeue` up to the barrier: the entry, and the head it is going to store. -/
def dequeueRead (sq : StreamQueue α) : Option (Option α × Nat) :=
  if sq.head ≠ sq.tail then some (sq.q.getD sq.head none, nextIndex sq sq.head) else none

theorem streamEnqueue_eq (sq : StreamQueue α) (stream : α) : streamEnqueue sq stream =
    match enqueueFill sq stream with
    | (some nt, sq) => (0, { sq with tail := nt })
    | (none, sq) => (-1, sq) := by
  unfold streamEnqueue enqueueFill
  dsimp only
  split_ifs <;> rfl

theorem streamDequeue_eq (sq : StreamQueue α) : streamDequeue sq = match dequeueRead sq with
    | some (stream, nh) => (some stream, { sq with head := nh })
    | none => (none, sq) := by
  unfold streamDequeue dequeueRead
  dsimp only
  split_ifs <;> rfl

/-! One producer and two consumers. -/

/-- `RunMainLoop` and `mtcp_writev` both run `HandleApplicationCalls`. -/
inductive Consumer where
  | stack
  | app
  deriving DecidableEq, Repr

def Consumer.other : Consumer → Consumer
  | .stack => .app
  | .app => .stack

/-- A queue with the threads that are in the middle of a call, and what the calls that are
over have put in and taken out. -/
structure SharedQueue (α : Type) where
  sq : StreamQueue α
  filling : Option (α × Nat) := none
  reading : Consumer → Option (Option α × Nat) := fun _ => none
  enqueued : List α := []
  returned : List (Consumer × Option α) := []

def createSharedQueue (α : Type) (capacity : Nat) : SharedQueue α where
  sq := createStreamQueue α capacity

inductive QueueStep (α : Type) where
  | fill (stream : α)
  | publish
  | read (c : Consumer)
  | store (c : Consumer)

namespace SharedQueue

variable (s : SharedQueue α)

def fill (stream : α) : SharedQueue α :=
  match enqueueFill s.sq stream with
  | (some nt, sq) => { s with sq := sq, filling := some (stream, nt) }
  | (none, _) => s

def publish (stream : α) (nt : Nat) : SharedQueue α :=
  { s with
    sq.tail := nt
    filling := none
    enqueued := s.enqueued ++ [stream] }

def read (c : Consumer) : SharedQueue α :=
  { s with reading := Function.update s.reading c (dequeueRead s.sq) }

def store (c : Consumer) (stream : Option α) (nh : Nat) : SharedQueue α :=
  { s with
    sq.head := nh
    reading := Function.update s.reading c none
    returned := s.returned ++ [(c, stream)] }

end SharedQueue

/-- A thread ends one call before it begins the next. -/
def queueStep (s : SharedQueue α) : QueueStep α → SharedQueue α
  | .fill stream => if s.filling.isSome then s else s.fill stream
  | .publish =>
    match s.filling with
    | some (stream, nt) => s.publish stream nt
    | none => s
  | .read c => if (s.reading c).isSome then s else s.read c
  | .store c =>
    match s.reading c with
    | some (stream, nh) => s.store c stream nh
    | none => s

def remaining (sq : StreamQueue α) : List (Option α) :=
  Ring.between sq.q sq.capacity sq.head sq.tail

/-- The returned streams and then the remaining ones are the enqueued ones, in their order. -/
def ConsumedOnce (s : SharedQueue α) : Prop :=
  s.returned.map Prod.snd ++ remaining s.sq = s.enqueued.map some

instance [DecidableEq α] (s : SharedQueue α) : Decidable (ConsumedOnce s) :=
  inferInstanceAs (Decidable (_ = _))

/-- A consumer finds the queue empty, or the other one is between two calls. -/
def alone (s : SharedQueue α) : QueueStep α → Bool
  | .read c => s.sq.head == s.sq.tail || (s.reading c.other).isNone
  | _ => true

/-- The queue `xs`, and what the threads in the middle of a call know of it. -/
structure Consistent (s : SharedQueue α) (xs : List (Option α)) : Prop where
  holds : Ring.Holds s.sq.q s.sq.capacity s.sq.head s.sq.tail xs
  log : s.returned.map Prod.snd ++ xs = s.enqueued.map some
  filled : ∀ x nt, s.filling = some (x, nt) → s.sq.q[s.sq.tail]? = some (some x) ∧
    nt = nextIndex s.sq s.sq.tail ∧ xs.length < s.sq.capacity
  front : ∀ c x nh, s.reading c = some (x, nh) → xs.head? = some x ∧ nh = nextIndex s.sq s.sq.head
  single : ∀ c, (s.reading c).isSome → s.reading c.other = none

section

variable {s : SharedQueue α} {xs : List (Option α)} (h : Consistent s xs)
include h

theorem Consistent.consumedOnce : ConsumedOnce s := by
  unfold ConsumedOnce remaining
  rw [h.holds.between_eq]
  exact h.log

theorem dequeueRead_spec :
    dequeueRead s.sq = xs.head?.map fun x => (x, nextIndex s.sq s.sq.head) := by
  unfold dequeueRead
  cases xs with
  | nil => simp [h.holds.empty_iff]
  | cons x xs =>
    have hne : s.sq.head ≠ s.sq.tail := by simp [h.holds.empty_iff]
    rw [if_pos hne, getD_eq_getElem?_getD, h.holds.front]
    rfl

theorem consistent_fill (stream : α) : Consistent (s.fill stream) xs := by
  unfold SharedQueue.fill enqueueFill
  by_cases hroom : nextIndex s.sq s.sq.tail ≠ s.sq.head
  · rw [if_pos hroom]
    refine ⟨h.holds.fill _, h.log, ?_, h.front, h.single⟩
    intro x nt heq
    obtain ⟨rfl, rfl⟩ := Prod.mk.inj (some.inj heq)
    exact ⟨getElem?_set_self h.holds.tail_lt, rfl, h.holds.next_tail_ne_iff.mp hroom⟩
  · rw [if_neg hroom]
    exact h

theorem consistent_publish {x : α} {nt : Nat} (hf : s.filling = some (x, nt)) :
    Consistent (s.publish x nt) (xs ++ [some x]) := by
  obtain ⟨hcell, rfl, hroom⟩ := h.filled x nt hf
  refine ⟨h.holds.push hcell hroom, ?_, ?_, ?_, h.single⟩
  · change s.returned.map Prod.snd ++ (xs ++ [some x]) = (s.enqueued ++ [x]).map some
    rw [← append_assoc, h.log, map_append]
    rfl
  · intro y nt heq
    cases heq
  · intro c y nh hr
    obtain ⟨hhead, hnh⟩ := h.front c y nh hr
    exact ⟨by rw [head?_append, hhead]; rfl, hnh⟩

theorem front_read (c c' : Consumer) (x : Option α) (nh : Nat)
    (hr : (s.read c).reading c' = some (x, nh)) :
    xs.head? = some x ∧ nh = nextIndex s.sq s.sq.head := by
  by_cases hcc : c' = c
  · rw [hcc] at hr
    change update s.reading c (dequeueRead s.sq) c = _ at hr
    rw [update_self, dequeueRead_spec h, map_eq_some_iff] at hr
    obtain ⟨y, hy, heq⟩ := hr
    cases heq
    exact ⟨hy, rfl⟩
  · change update s.reading c (dequeueRead s.sq) c' = _ at hr
    rw [update_of_ne hcc] at hr
    exact h.front c' x nh hr

end

theorem Consumer.other_other (c : Consumer) : c.other.other = c := by
  cases c <;> rfl

theorem Consumer.other_ne (c : Consumer) : c.other ≠ c := by
  cases c <;> decide

theorem Consumer.eq_or_eq_other (c d : Consumer) : d = c ∨ d = c.other := by
  cases c <;> cases d <;> decide

theorem consistent_read {s : SharedQueue α} {xs : List (Option α)} (h : Consistent s xs)
    (c : Consumer) (hc : alone s (.read c)) : Consistent (s.read c) xs := by
  refine ⟨h.holds, h.log, h.filled, front_read h c, ?_⟩
  have hone : dequeueRead s.sq = none ∨ s.reading c.other = none := by
    obtain hempty | hidle := Bool.or_eq_true_iff.mp hc
    · exact .inl (if_neg (not_not.mpr (beq_iff_eq.mp hempty)))
    · exact .inr (isNone_iff_eq_none.mp hidle)
  intro d hd
  change (update s.reading c (dequeueRead s.sq) d).isSome at hd
  change update s.reading c (dequeueRead s.sq) d.other = none
  obtain rfl | rfl := c.eq_or_eq_other d
  · rw [update_self] at hd
    rw [update_of_ne d.other_ne]
    obtain hread | hidle := hone
    · rw [hread] at hd
      cases hd
    · exact hidle
  · rw [update_of_ne c.other_ne] at hd
    rw [c.other_other, update_self]
    obtain hread | hidle := hone
    · exact hread
    · rw [hidle] at hd
      cases hd

theorem consistent_store {s : SharedQueue α} {xs : List (Option α)} (h : Consistent s xs)
    {c : Consumer} {x : Option α} {nh : Nat} (hr : s.reading c = some (x, nh)) :
    Consistent (s.store c x nh) xs.tail := by
  obtain ⟨hhead, rfl⟩ := h.front c x nh hr
  obtain ⟨ys, rfl⟩ := head?_eq_some_iff.mp hhead
  have hidle : ∀ d, update s.reading c none d = none := by
    intro d
    obtain rfl | rfl := c.eq_or_eq_other d
    · rw [update_self]
    · rw [update_of_ne c.other_ne]
      exact h.single c (by rw [hr]; rfl)
  refine ⟨h.holds.pop, ?_, ?_, ?_, ?_⟩
  · change (s.returned ++ [(c, x)]).map Prod.snd ++ ys = s.enqueued.map some
    rw [map_append, append_assoc]
    exact h.log
  · intro y nt hf
    obtain ⟨hcell, hnt, hroom⟩ := h.filled y nt hf
    exact ⟨hcell, hnt, Nat.lt_of_succ_lt hroom⟩
  · intro d y nh hd
    cases (hidle d).symm.trans hd
  · intro d _
    exact hidle d.other

theorem consistent_step {s : SharedQueue α} (e : QueueStep α) (h : ∃ xs, Consistent s xs)
    (hc : alone s e) : ∃ xs, Consistent (queueStep s e) xs := by
  obtain ⟨xs, h⟩ := h
  cases e with
  | fill stream =>
    dsimp only [queueStep]
    split
    · exact ⟨xs, h⟩
    · exact ⟨xs, consistent_fill h stream⟩
  | publish =>
    dsimp only [queueStep]
    split
    · next stream nt hf => exact ⟨_, consistent_publish h hf⟩
    · exact ⟨xs, h⟩
  | read c =>
    dsimp only [queueStep]
    split
    · exact ⟨xs, h⟩
    · exact ⟨xs, consistent_read h c hc⟩
  | store c =>
    dsimp only [queueStep]
    split
    · next stream nh hr => exact ⟨_, consistent_store h hr⟩
    · exact ⟨xs, h⟩

theorem consistent_create (capacity : Nat) :
    Consistent (createSharedQueue α capacity) [] where
  holds := Ring.holds_empty length_replicate
  log := rfl
  filled := fun _ _ h => nomatch h
  front := fun _ _ _ h => nomatch h
  single := fun _ _ => rfl

/-- While `c` is in the middle of a call the other one begins, and both go on to the end. -/
def overlap (α : Type) (c : Consumer) : List (QueueStep α) :=
  [.read c.other, .store c, .store c.other]

/-- The second of two overlapping calls returns the entry of the first once more. -/
theorem overlap_returns_twice {s : SharedQueue α} {xs : List (Option α)} (h : Consistent s xs)
    {c : Consumer} (hr : (s.reading c).isSome) :
    ¬ ConsumedOnce ((overlap α c).foldl queueStep s) := by
  obtain ⟨⟨x, nh⟩, hx⟩ := isSome_iff_exists.mp hr
  obtain ⟨hhead, rfl⟩ := h.front c x nh hx
  obtain ⟨ys, rfl⟩ := head?_eq_some_iff.mp hhead
  have hread : dequeueRead s.sq = some (x, nextIndex s.sq s.sq.head) := dequeueRead_spec h
  have h1 : queueStep s (.read c.other) = s.read c.other := by
    simp [queueStep, h.single c hr]
  have h2 : queueStep (s.read c.other) (.store c) =
      (s.read c.other).store c x (nextIndex s.sq s.sq.head) := by
    simp [queueStep, SharedQueue.read, update_of_ne c.other_ne.symm, hx]
  have h3 : queueStep ((s.read c.other).store c x (nextIndex s.sq s.sq.head)) (.store c.other) =
      ((s.read c.other).store c x (nextIndex s.sq s.sq.head)).store c.other x
        (nextIndex s.sq s.sq.head) := by
    simp [queueStep, SharedQueue.read, SharedQueue.store, update_of_ne c.other_ne, hread]
  have hend : (overlap α c).foldl queueStep s =
      ((s.read c.other).store c x (nextIndex s.sq s.sq.head)).store c.other x
        (nextIndex s.sq s.sq.head) := by
    simp only [overlap, foldl_cons, foldl_nil, h1, h2, h3]
  rw [hend]
  intro honce
  have hlog := congrArg length h.log
  have hlog' := congrArg length honce
  have hrem : remaining (((s.read c.other).store c x (nextIndex s.sq s.sq.head)).store c.other x
      (nextIndex s.sq s.sq.head)).sq = ys := h.holds.pop.between_eq
  rw [hrem] at hlog'
  simp only [SharedQueue.store, SharedQueue.read, length_append, length_map,
    length_cons, length_nil] at hlog hlog'
  omega

/-- As long as no consumer begins a call on a queue that is not empty while the other one is
in the middle of its own, each entry is returned once and in order. Where one does, the entry
is returned twice as soon as both calls are over. -/
theorem entries_consumed_once (capacity : Nat) (es : List (QueueStep α))
    (ha : Along queueStep (fun s e => alone s e = true) (createSharedQueue α capacity) es) :
    ConsumedOnce (es.foldl queueStep (createSharedQueue α capacity)) ∧
      ∀ c, ((es.foldl queueStep (createSharedQueue α capacity)).reading c).isSome →
        ¬ ConsumedOnce ((es ++ overlap α c).foldl queueStep (createSharedQueue α capacity)) := by
  have hstep : ∀ (s : SharedQueue α) e, (∃ xs, Consistent s xs) → alone s e = true →
      ∃ xs, Consistent (queueStep s e) xs := fun s e h hc => consistent_step e h hc
  obtain ⟨xs, h⟩ := foldl_invariant hstep ⟨_, consistent_create capacity⟩ ha
  refine ⟨h.consumedOnce, fun c hr => ?_⟩
  rw [List.foldl_append]
  exact overlap_returns_twice h hr

theorem entries_consumed_once_in_turn :
    (([.fill 1, .publish, .fill 2, .read .stack, .publish, .store .stack, .read .app, .fill 3,
        .store .app, .publish] : List (QueueStep Nat)).foldl queueStep
        (createSharedQueue Nat 2)).returned = [(.stack, some 1), (.app, some 2)] ∧
      ConsumedOnce (([.fill 1, .publish, .fill 2, .read .stack, .publish, .store .stack,
        .read .app, .fill 3, .store .app, .publish] : List (QueueStep Nat)).foldl queueStep
        (createSharedQueue Nat 2)) :=
  ⟨by decide, (entries_consumed_once 2 _ (by decide)).1⟩

/-- `mtcp_writev` reads the head slot before `RunMainLoop` has stored the advanced head. -/
theorem writev_consumes_twice :
    ¬ ConsumedOnce (([.fill 1, .publish, .read .stack, .read .app, .store .stack, .store .app] :
        List (QueueStep Nat)).foldl queueStep (createSharedQueue Nat 2)) ∧
      (([.fill 1, .publish, .read .stack, .read .app, .store .stack, .store .app] :
        List (QueueStep Nat)).foldl queueStep (createSharedQueue Nat 2)).returned =
        [(.stack, some 1), (.app, some 1)] := by
  decide

end Mtcp
