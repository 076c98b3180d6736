import Mathlib.Logic.Function.Basic

namespace Mtcp

inductive SockType where
  | unused | stream | proxy | listener | epoll | pipe
  deriving DecidableEq, Repr

/-- The union of `struct socket_map`: the number of a stream or a pipe, the address of a
listener. -/
inductive SockPtr where
  | null
  | stream (id : Nat)
  | listener (addr : Nat)
  | pipe (id : Nat)
  | other
  deriving DecidableEq, Repr

/-- `struct socket_map`. The last two fields are not in the source: how often the slot was
handed out, and the data its present user registered with it. -/
structure Socket where
  socktype : SockType := .unused
  nonblock : Bool := false
  addrBind : Bool := false
  saddr : UInt32 := 0
  sport : UInt16 := 0
  ptr : SockPtr := .null
  epoll : UInt32 := 0
  events : UInt32 := 0
  epData : UInt64 := 0
  allocs : Nat := 0
  registered : List UInt64 := []
  deriving DecidableEq, Repr

structure SocketMap where
  smap : Nat → Socket
  freeSmap : List Nat

def createSockets (maxConcurrency : Nat) : SocketMap where
  smap := fun _ => {}
  freeSmap := List.range maxConcurrency

def SocketMap.modify (i : Nat) (f : Socket → Socket) (m : SocketMap) : SocketMap :=
  { m with smap := Function.update m.smap i (f (m.smap i)) }

/-- What the loop of `AllocateSocket` ends with; it does not end when every free slot still
has events. -/
inductive Slot where
  | free (i : Nat)
  | full
  | spins
  deriving DecidableEq, Repr

def nextSlot (smap : Nat → Socket) : Nat → List Nat → Slot × List Nat
  | _, [] => (.full, [])
  | 0, free => (.spins, free)
  | fuel + 1, i :: free =>
    if (smap i).events ≠ 0 then nextSlot smap fuel (free ++ [i]) else (.free i, free)

/-- After as many rounds as there are free slots the loop has seen each of them. -/
def SocketMap.nextSlot (m : SocketMap) : Slot × List Nat :=
  Mtcp.nextSlot m.smap m.freeSmap.length m.freeSmap

/-- The port and address of an earlier bind are cleared with the options. -/
def Socket.fresh (t : SockType) (s : Socket) : Socket where
  socktype := t
  allocs := s.allocs + 1

def allocateSocket (t : SockType) (m : SocketMap) : Option Nat × SocketMap :=
  match m.nextSlot with
  | (.free i, free) => (some i, { m.modify i (Socket.fresh t) with freeSmap := free })
  | (.full, _) => (none, m)
  | (.spins, _) => (none, m)

def Socket.unuse (s : Socket) : Socket :=
  { s with socktype := .unused, epoll := 0, events := 0, ptr := .null }

def freeSocket (i : Nat) (m : SocketMap) : SocketMap :=
  if (m.smap i).socktype = .unused then m
  else { m.modify i Socket.unuse with freeSmap := m.freeSmap ++ [i] }

theorem modify_smap (m : SocketMap) (i j : Nat) (f : Socket → Socket) :
    (m.modify i f).smap j = if j = i then f (m.smap i) else m.smap j := by
  simp only [SocketMap.modify, Function.update_apply]

@[simp]
theorem modify_smap_self (m : SocketMap) (i : Nat) (f : Socket → Socket) :
    (m.modify i f).smap i = f (m.smap i) := by
  rw [modify_smap, if_pos rfl]

theorem modify_smap_ne (m : SocketMap) {i j : Nat} (f : Socket → Socket) (h : j ≠ i) :
    (m.modify i f).smap j = m.smap j := by
  rw [modify_smap, if_neg h]

/-- A slot is handed out from the free list, without events, and the others keep their order
up to a rotation. -/
theorem nextSlot_free {smap : Nat → Socket} {fuel i : Nat} {free rest : List Nat}
    (h : nextSlot smap fuel free = (.free i, rest)) :
    (smap i).events = 0 ∧ free.Perm (i :: rest) := by
  induction fuel generalizing free with
  | zero =>
    cases free with
    | nil | cons => exact absurd h nofun
  | succ fuel ih =>
    cases free with
    | nil => exact absurd h nofun
    | cons j free =>
      rw [nextSlot] at h
      by_cases hj : (smap j).events ≠ 0
      · rw [if_pos hj] at h
        obtain ⟨hevents, hperm⟩ := ih h
        exact ⟨hevents, (List.perm_append_singleton j free).symm.trans hperm⟩
      · rw [if_neg hj] at h
        injection h with hslot hrest
        injection hslot with hi
        subst hi hrest
        exact ⟨not_not.mp hj, List.Perm.refl _⟩

theorem allocateSocket_cases (t : SockType) (m : SocketMap) : allocateSocket t m = (none, m) ∨
    ∃ i free, allocateSocket t m = (some i, { m.modify i (Socket.fresh t) with freeSmap := free }) ∧
      (m.smap i).events = 0 ∧ m.freeSmap.Perm (i :: free) := by
  unfold allocateSocket
  cases hslot : m.nextSlot with
  | mk slot free =>
    cases slot with
    | free i =>
      obtain ⟨hevents, hperm⟩ := nextSlot_free hslot
      exact .inr ⟨i, free, rfl, hevents, hperm⟩
    | full | spins => exact .inl rfl

end Mtcp
