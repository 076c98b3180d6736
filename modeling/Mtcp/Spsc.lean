import Mtcp.StreamQueue

namespace Mtcp.Spsc

open Runs List

variable {α : Type}

/-! `StreamEnqueue` in one thread and `StreamDequeue` in another, one read or write at a time. -/

/-- How far `StreamEnqueue` has got, with the values of its variables. -/
inductive Producer (α : Type) where
  | idle
  | readHead (stream : α) (h : Nat)
  | readTail (stream : α) (h t : Nat)
  | wroteSlot (stream : α) (nt : Nat)

inductive Consumer (α : Type) where
  | idle
  | readHead (h : Nat)
  | readTail (h t : Nat)
  | readSlot (stream : Option α) (h : Nat)

/-- The queue, the two threads, what their calls have put in and taken out, and for each call that
found the queue full or empty whether it was so at some instant of the call. -/
structure State (α : Type) where
  sq : StreamQueue α
  producer : Producer α := .idle
  consumer : Consumer α := .idle
  wasFull : Bool := false
  wasEmpty : Bool := false
  enqueued : List α := []
  dequeued : List (Option α) := []
  fulls : List Bool := []
  empties : List Bool := []

def create (α : Type) (capacity : Nat) : State α where
  sq := createStreamQueue α capacity

inductive Step (α : Type) where
  | enqueue (stream : α)
  | produce
  | dequeue
  | consume

/-- The next access of the producer to the queue, or the return of a call that found it full. -/
def produce (s : State α) : State α :=
  match s.producer with
  | .idle => s
  | .readHead stream h => { s with producer := .readTail stream h s.sq.tail }
  | .readTail stream h t =>
    if nextIndex s.sq t ≠ h then
      { s with
        sq.q := s.sq.q.set t (some stream)
        producer := .wroteSlot stream (nextIndex s.sq t) }
    else { s with producer := .idle, fulls := s.fulls ++ [s.wasFull] }
  | .wroteSlot stream nt =>
    { s with
      sq.tail := nt
      producer := .idle
      enqueued := s.enqueued ++ [stream] }

def consume (s : State α) : State α :=
  match s.consumer with
  | .idle => s
  | .readHead h => { s with consumer := .readTail h s.sq.tail }
  | .readTail h t =>
    if h ≠ t then { s with consumer := .readSlot (s.sq.q.getD h none) h }
    else { s with consumer := .idle, empties := s.empties ++ [s.wasEmpty] }
  | .readSlot stream h =>
    { s with
      sq.head := nextIndex s.sq h
      consumer := .idle
      dequeued := s.dequeued ++ [stream] }

/-- A thread begins a call when the last one is over. -/
def act (s : State α) : Step α → State α
  | .enqueue stream =>
    match s.producer with
    | .idle => { s with producer := .readHead stream s.sq.head, wasFull := false }
    | _ => s
  | .produce => produce s
  | .dequeue =>
    match s.consumer with
    | .idle => { s with consumer := .readHead s.sq.head, wasEmpty := false }
    | _ => s
  | .consume => consume s

def observe (s : State α) : State α :=
  { s with
    wasFull := s.wasFull || (remaining s.sq).length == s.sq.capacity
    wasEmpty := s.wasEmpty || (remaining s.sq).isEmpty }

def step (s : State α) (a : Step α) : State α := observe (act s a)

/-- The stream of the call that is under way. -/
def Producer.stream? : Producer α → Option α
  | .idle => none
  | .readHead stream _ | .readTail stream _ _ | .wroteSlot stream _ => some stream

/-- A call that ends is on `enqueued` with its stream or in `fulls`, and no other step adds to
them. -/
theorem step_enqueues (s : State α) (a : Step α) :
    (step s a).enqueued = s.enqueued ∧ (step s a).fulls = s.fulls ∧
        (∀ stream, s.producer.stream? = some stream → (step s a).producer.stream? = some stream) ∨
      ∃ stream, s.producer.stream? = some stream ∧ (step s a).producer = .idle ∧
        ((step s a).enqueued = s.enqueued ++ [stream] ∧ (step s a).fulls = s.fulls ∨
          (step s a).enqueued = s.enqueued ∧ (step s a).fulls = s.fulls ++ [s.wasFull]) := by
  obtain ⟨sq, producer, consumer, wasFull, wasEmpty, enqueued, dequeued, fulls, empties⟩ := s
  cases a with
  | enqueue stream =>
    cases producer with
    | idle => exact .inl ⟨rfl, rfl, nofun⟩
    | readHead | readTail | wroteSlot => exact .inl ⟨rfl, rfl, fun _ h => h⟩
  | produce =>
    cases producer with
    | idle => exact .inl ⟨rfl, rfl, nofun⟩
    | readHead => exact .inl ⟨rfl, rfl, fun _ h => h⟩
    | readTail stream =>
      unfold step act produce
      dsimp only
      split_ifs
      · exact .inl ⟨rfl, rfl, fun _ h => h⟩
      · exact .inr ⟨stream, rfl, rfl, .inr ⟨rfl, rfl⟩⟩
    | wroteSlot stream => exact .inr ⟨stream, rfl, rfl, .inl ⟨rfl, rfl⟩⟩
  | dequeue => cases consumer <;> exact .inl ⟨rfl, rfl, fun _ h => h⟩
  | consume =>
    left
    cases consumer with
    | readTail =>
      unfold step act consume
      dsimp only
      split_ifs <;> exact ⟨rfl, rfl, fun _ h => h⟩
    | idle | readHead | readSlot => exact ⟨rfl, rfl, fun _ h => h⟩

/-! What the threads know of the queue `xs` of entries. -/

/-- The tail is the producer's own, and entries only go while it is busy. If the head it has read
leaves no room, `full` has been seen. -/
def Producing (full : Prop) (sq : StreamQueue α) (xs : List (Option α)) : Producer α → Prop
  | .idle => True
  | .readHead _ h => (nextIndex sq sq.tail ≠ h → xs.length < sq.capacity) ∧
      (nextIndex sq sq.tail = h → full)
  | .readTail _ h t => t = sq.tail ∧ (nextIndex sq sq.tail ≠ h → xs.length < sq.capacity) ∧
      (nextIndex sq sq.tail = h → full)
  | .wroteSlot stream nt => nt = nextIndex sq sq.tail ∧ sq.q[sq.tail]? = some (some stream) ∧
      xs.length < sq.capacity

/-- The head is the consumer's own, and entries only come while it is busy. If the tail it has read
is the head, `empty` has been seen. -/
def Consuming (empty : Prop) (sq : StreamQueue α) (xs : List (Option α)) : Consumer α → Prop
  | .idle => True
  | .readHead h => h = sq.head
  | .readTail h t => h = sq.head ∧ (h ≠ t → xs ≠ []) ∧ (h = t → empty)
  | .readSlot stream h => h = sq.head ∧ xs.head? = some stream

variable {full full' empty empty' : Prop} {sq : StreamQueue α} {xs ys : List (Option α)}
  {p : Producer α} {c : Consumer α} {s : State α}

theorem Producing.mono (h : Producing full sq xs p) (hlen : ys.length ≤ xs.length)
    (hfull : full → full') : Producing full' sq ys p := by
  cases p with
  | idle => trivial
  | readHead stream head =>
    exact ⟨fun hne => Nat.lt_of_le_of_lt hlen (h.1 hne), fun heq => hfull (h.2 heq)⟩
  | readTail stream head tail =>
    exact ⟨h.1, fun hne => Nat.lt_of_le_of_lt hlen (h.2.1 hne), fun heq => hfull (h.2.2 heq)⟩
  | wroteSlot stream nt => exact ⟨h.1, h.2.1, Nat.lt_of_le_of_lt hlen h.2.2⟩

theorem Consuming.mono (h : Consuming empty sq xs c) (hempty : empty → empty') :
    Consuming empty' sq xs c := by
  cases c with
  | idle => trivial
  | readHead | readSlot => exact h
  | readTail head tail => exact ⟨h.1, h.2.1, fun heq => hempty (h.2.2 heq)⟩

theorem Consuming.push (h : Consuming empty sq xs c) (x : Option α) (nt : Nat) :
    Consuming empty { sq with tail := nt } (xs ++ [x]) c := by
  cases c with
  | idle => trivial
  | readHead head => exact h
  | readTail head tail =>
    exact ⟨h.1, fun _ => append_ne_nil_of_right_ne_nil xs (cons_ne_nil x []), h.2.2⟩
  | readSlot stream head =>
    refine ⟨h.1, ?_⟩
    rw [head?_append, h.2]
    rfl

/-- The queue `xs` of entries, what the threads know of it, and what the calls have reported. -/
structure Consistent (full empty : Prop) (s : State α) (xs : List (Option α)) : Prop where
  holds : Ring.Holds s.sq.q s.sq.capacity s.sq.head s.sq.tail xs
  log : s.dequeued ++ xs = s.enqueued.map some
  producing : Producing full s.sq xs s.producer
  consuming : Consuming empty s.sq xs s.consumer
  fulls : ∀ b ∈ s.fulls, b = true
  empties : ∀ b ∈ s.empties, b = true

def Noted (s : State α) (xs : List (Option α)) : Prop :=
  Consistent (s.wasFull = true) (s.wasEmpty = true) s xs

def Seen (s : State α) (xs : List (Option α)) : Prop :=
  Consistent (s.wasFull = true ∨ xs.length = s.sq.capacity) (s.wasEmpty = true ∨ xs = []) s xs

theorem Noted.seen (h : Noted s xs) : Seen s xs :=
  ⟨h.holds, h.log, h.producing.mono (le_refl _) .inl, h.consuming.mono .inl, h.fulls, h.empties⟩

theorem Seen.observe (h : Seen s xs) : Noted (observe s) xs := by
  have hxs : remaining s.sq = xs := h.holds.between_eq
  refine ⟨h.holds, h.log, h.producing.mono (le_refl _) fun hfull => ?_,
    h.consuming.mono fun hempty => ?_, h.fulls, h.empties⟩
  · change (s.wasFull || (remaining s.sq).length == s.sq.capacity)
    rw [hxs, Bool.or_eq_true, beq_iff_eq]
    exact hfull
  · change (s.wasEmpty || (remaining s.sq).isEmpty)
    rw [hxs, Bool.or_eq_true, List.isEmpty_iff]
    exact hempty

/-! The accesses of the two threads. -/

theorem seen_enqueue (h : Noted s xs) (stream : α) : Seen (act s (.enqueue stream)) xs := by
  unfold act
  cases hp : s.producer with
  | idle =>
    refine ⟨h.holds, h.log, ⟨h.holds.next_tail_ne_iff.mp, fun heq => .inr ?_⟩,
      h.consuming.mono .inl, h.fulls, h.empties⟩
    have hnot := mt h.holds.next_tail_ne_iff.mpr (not_not.mpr heq)
    exact Nat.le_antisymm h.holds.length_le (not_lt.mp hnot)
  | readHead _ _ | readTail _ _ _ | wroteSlot _ _ => exact h.seen

theorem seen_produce (h : Noted s xs) : ∃ ys, Seen (produce s) ys := by
  have hprod := h.producing
  unfold produce
  cases hp : s.producer with
  | idle => exact ⟨xs, h.seen⟩
  | readHead stream head =>
    rw [hp] at hprod
    exact ⟨xs, h.holds, h.log, ⟨rfl, hprod.1, fun heq => .inl (hprod.2 heq)⟩,
      h.consuming.mono .inl, h.fulls, h.empties⟩
  | readTail stream head tail =>
    rw [hp] at hprod
    obtain ⟨rfl, hroom, hfull⟩ := hprod
    by_cases hne : nextIndex s.sq s.sq.tail ≠ head
    · dsimp only
      rw [if_pos hne]
      exact ⟨xs, h.holds.fill _, h.log,
        ⟨rfl, getElem?_set_self h.holds.tail_lt, hroom hne⟩, h.consuming.mono .inl, h.fulls,
        h.empties⟩
    · dsimp only
      rw [if_neg hne]
      refine ⟨xs, h.holds, h.log, trivial, h.consuming.mono .inl, fun b hb => ?_, h.empties⟩
      obtain hb | hb := mem_append.mp hb
      · exact h.fulls b hb
      · rw [mem_singleton.mp hb]
        exact hfull (not_not.mp hne)
  | wroteSlot stream nt =>
    rw [hp] at hprod
    obtain ⟨rfl, hslot, hroom⟩ := hprod
    refine ⟨xs ++ [some stream], h.holds.push hslot hroom, ?_, trivial,
      (h.consuming.push _ _).mono .inl, h.fulls, h.empties⟩
    rw [← append_assoc, h.log, map_append]
    rfl

theorem seen_dequeue (h : Noted s xs) : Seen (act s .dequeue) xs := by
  unfold act
  cases hc : s.consumer with
  | idle =>
    exact ⟨h.holds, h.log, h.producing.mono (le_refl _) .inl, rfl, h.fulls, h.empties⟩
  | readHead _ | readTail _ _ | readSlot _ _ => exact h.seen

theorem seen_consume (h : Noted s xs) : ∃ ys, Seen (consume s) ys := by
  have hcons := h.consuming
  unfold consume
  cases hc : s.consumer with
  | idle => exact ⟨xs, h.seen⟩
  | readHead head =>
    rw [hc] at hcons
    obtain rfl : head = s.sq.head := hcons
    exact ⟨xs, h.holds, h.log, h.producing.mono (le_refl _) .inl,
      ⟨rfl, fun hne => mt h.holds.empty_iff.mpr hne, fun heq => .inr (h.holds.empty_iff.mp heq)⟩,
      h.fulls, h.empties⟩
  | readTail head tail =>
    rw [hc] at hcons
    obtain ⟨rfl, hentries, hempty⟩ := hcons
    by_cases hne : s.sq.head ≠ tail
    · obtain ⟨x, rest, rfl⟩ := exists_cons_of_ne_nil (hentries hne)
      dsimp only
      rw [if_pos hne, getD_eq_getElem?_getD, h.holds.front]
      exact ⟨x :: rest, h.holds, h.log, h.producing.mono (le_refl _) .inl, ⟨rfl, rfl⟩, h.fulls,
        h.empties⟩
    · dsimp only
      rw [if_neg hne]
      refine ⟨xs, h.holds, h.log, h.producing.mono (le_refl _) .inl, trivial, h.fulls,
        fun b hb => ?_⟩
      obtain hb | hb := mem_append.mp hb
      · exact h.empties b hb
      · rw [mem_singleton.mp hb]
        exact hempty (not_not.mp hne)
  | readSlot stream head =>
    rw [hc] at hcons
    obtain ⟨rfl, hfront⟩ := hcons
    obtain ⟨rest, rfl⟩ := head?_eq_some_iff.mp hfront
    refine ⟨rest, h.holds.pop, ?_, (h.producing.mono (Nat.le_succ _) .inl : Producing _ s.sq _ _),
      trivial, h.fulls, h.empties⟩
    rw [append_assoc]
    exact h.log

theorem noted_step (h : ∃ xs, Noted s xs) (a : Step α) : ∃ xs, Noted (step s a) xs := by
  obtain ⟨xs, h⟩ := h
  cases a with
  | enqueue stream => exact ⟨xs, (seen_enqueue h stream).observe⟩
  | produce =>
    obtain ⟨ys, hseen⟩ := seen_produce h
    exact ⟨ys, hseen.observe⟩
  | dequeue => exact ⟨xs, (seen_dequeue h).observe⟩
  | consume =>
    obtain ⟨ys, hseen⟩ := seen_consume h
    exact ⟨ys, hseen.observe⟩

theorem noted_create (capacity : Nat) : Noted (create α capacity) [] :=
  ⟨Ring.holds_empty length_replicate, rfl, trivial, trivial, nofun, nofun⟩

/-- In whatever order the accesses of a producer and a consumer come, the streams taken out and
those still in the queue are the ones put in, in order; and a call finds the queue full or empty
only if it was so while the call was under way. -/
theorem stream_queue_is_fifo (capacity : Nat) (steps : List (Step α)) :
    (steps.foldl step (create α capacity)).dequeued ++
        remaining (steps.foldl step (create α capacity)).sq =
        (steps.foldl step (create α capacity)).enqueued.map some ∧
      (∀ b ∈ (steps.foldl step (create α capacity)).fulls, b = true) ∧
      ∀ b ∈ (steps.foldl step (create α capacity)).empties, b = true := by
  obtain ⟨xs, h⟩ := @foldl_invariant _ _ step (fun s => ∃ xs, Noted s xs) (fun _ _ => True)
    (fun _ a h _ => noted_step h a) (create α capacity) steps ⟨[], noted_create capacity⟩
    (along_of_forall (fun _ _ => trivial) _ steps)
  refine ⟨?_, h.fulls, h.empties⟩
  rw [show remaining _ = xs from h.holds.between_eq]
  exact h.log

end Mtcp.Spsc
