import Mtcp.Chains
import Mtcp.Listeners
import Mtcp.Runs

namespace Mtcp.Listeners

open Chains Runs List Option Bool
open Function (update_apply update update_self)

variable {c : Core} {i a : Nat}

/-- A listener that is allocated, for a socket that is open, listens and refers to it. -/
def Core.Open (c : Core) (a : Nat) : Prop :=
  ∃ l, c.heap a = some l ∧ (c.socket l.sockid).socktype = .listener ∧
    (c.socket l.sockid).ptr = .listener a

/-- The table mirrors the open listening sockets: its entries are open listeners, one for a
port, and the search for a port finds the listener open for it or, if there is none, nothing. -/
structure Mirrors (c : Core) : Prop where
  entries : ∀ b, ∀ a ∈ c.listeners b, c.Open a
  nodup : ∀ b, (c.listeners b).Nodup
  onePerPort : ∀ b a b' a', a ∈ c.listeners b → a' ∈ c.listeners b' → c.portOf a = c.portOf a' →
    b = b' ∧ a = a'
  found : ∀ port a, listenerHTSearch c port = .listener a ↔ c.Open a ∧ c.portOf a = port
  free : ∀ port, listenerHTSearch c port = .null ↔ ∀ a, c.Open a → c.portOf a ≠ port

def Core.listening (c : Core) (i : Nat) : Bool :=
  decide (i < c.maxConcurrency) && decide ((c.socket i).socktype = .listener) &&
    match (c.socket i).ptr with
    | .listener _ => true
    | _ => false

/-- The calls that leave the table in order: no listening socket is closed, and an address bound
to one that already listens keeps it where it is in the table. -/
def harmless (c : Core) : Action → Bool
  | .close i => !c.listening i
  | .bind i addr =>
    match bindable i addr c with
    | .error _ => true
    | .ok sa => !c.listening i || decide (sa.port = (c.socket i).sport) ||
        decide (hashListener sa.port = hashListener (c.socket i).sport) &&
          decide (listenerHTSearch c sa.port = .null)
  | _ => true

structure Sound (c : Core) : Prop where
  fault : c.fault = none
  table : Holds c.portOf hashListener c.listeners c.Open
  unique : Unique c.portOf c.Open
  heap : ∀ a l, c.heap a = some l → c.Open a
  ptr : ∀ i, (c.socket i).ptr = .null ∨ ∃ a backlog, (c.socket i).ptr = .listener a ∧
    c.heap a = some ⟨i, backlog⟩
  unused : ∀ i ∈ c.sockets.freeSmap, (c.socket i).socktype = .unused
  nodup : c.sockets.freeSmap.Nodup

theorem portOf_of_heap {l : TcpListener} (h : c.heap a = some l) :
    c.portOf a = (c.socket l.sockid).sport := by
  rw [Core.portOf, h]

theorem Sound.of_ptr (h : Sound c) (hptr : (c.socket i).ptr = .listener a) :
    (∃ backlog, c.heap a = some ⟨i, backlog⟩) ∧ c.Open a ∧
      (c.socket i).socktype = .listener ∧ c.portOf a = (c.socket i).sport := by
  obtain hnull | ⟨a', backlog, hptr', hheap⟩ := h.ptr i
  · rw [hnull] at hptr
    cases hptr
  · rw [hptr'] at hptr
    injection hptr with hptr
    subst hptr
    have hopen := h.heap a' _ hheap
    obtain ⟨l, hl, htype, -⟩ := hopen
    rw [hheap] at hl
    obtain rfl := some.inj hl
    exact ⟨⟨backlog, hheap⟩, h.heap a' _ hheap, htype, portOf_of_heap hheap⟩

theorem searchBin_eq {xs : List Nat} (port : UInt16) (h : ∀ a ∈ xs, c.Open a) :
    searchBin c port xs = match xs.find? fun a => c.portOf a = port with
      | none => .null
      | some a => .listener a := by
  induction xs with
  | nil => rfl
  | cons a xs ih =>
    obtain ⟨l, hl, -⟩ := h a (.head _)
    rw [searchBin, hl, if_neg (by simp), find?_cons]
    by_cases hp : c.portOf a = port
    · simp [hp]
    · simp only [hp, if_false, decide_false]
      exact ih fun x hx => h x (.tail _ hx)

theorem searchBin_mem {port : UInt16} {xs : List Nat} (h : searchBin c port xs = .listener a) :
    a ∈ xs := by
  induction xs with
  | nil => cases h
  | cons x xs ih =>
    rw [searchBin] at h
    split at h
    · cases h
    · split at h
      · injection h with h
        exact h ▸ (.head _)
      · exact .tail _ (ih h)

theorem Sound.search_eq (h : Sound c) (port : UInt16) :
    listenerHTSearch c port = match search c.portOf hashListener port c.listeners with
      | none => .null
      | some a => .listener a :=
  searchBin_eq port (h.table.live _)

theorem Sound.search_null_iff (h : Sound c) (port : UInt16) :
    listenerHTSearch c port = .null ↔ ∀ a, c.Open a → c.portOf a ≠ port := by
  rw [h.search_eq, ← h.table.search_eq_none_iff]
  cases search c.portOf hashListener port c.listeners with
  | none | some => simp

theorem Sound.search_listener_iff (h : Sound c) (port : UInt16) :
    listenerHTSearch c port = .listener a ↔ c.Open a ∧ c.portOf a = port := by
  rw [h.search_eq, ← h.table.search_eq_some_iff h.unique]
  cases search c.portOf hashListener port c.listeners with
  | none | some => simp

theorem Sound.search_ne_dangling (h : Sound c) (port : UInt16) :
    listenerHTSearch c port ≠ .dangling := by
  rw [h.search_eq]
  cases search c.portOf hashListener port c.listeners with
  | none | some => simp

theorem Sound.mirrors (h : Sound c) : Mirrors c where
  entries := h.table.live
  nodup := h.table.nodup
  onePerPort b a b' a' ha ha' hport := by
    have heq := h.unique a a' (h.table.live b a ha) (h.table.live b' a' ha') hport
    refine ⟨?_, heq⟩
    rw [h.table.bin b a ha, h.table.bin b' a' ha', hport]
  found := fun port _ => h.search_listener_iff port
  free := h.search_null_iff

theorem createCore_sound (n : Nat) (eths : List UInt32) : Sound (createCore n eths) where
  fault := rfl
  table := (Holds.empty (createCore n eths).portOf _).congr
    (fun _ => ⟨fun ⟨_, h, _⟩ => absurd h nofun, False.elim⟩)
    fun _ h => h.elim
  unique := fun _ _ ⟨_, h, _⟩ => absurd h nofun
  heap := nofun
  ptr := fun _ => .inl rfl
  unused := fun _ _ => rfl
  nodup := nodup_range

section

variable (h : Sound c)
include h

theorem Sound.touch {f : Socket → Socket} {free : List Nat}
    (hptr : (f (c.socket i)).ptr = (c.socket i).ptr) (hkeep : ∀ a, (c.socket i).ptr = .listener a →
      (f (c.socket i)).socktype = .listener ∧ (f (c.socket i)).sport = (c.socket i).sport)
    (hfree : ∀ j ∈ free,
      j = i ∧ (f (c.socket i)).socktype = .unused ∨ j ≠ i ∧ j ∈ c.sockets.freeSmap)
    (hnodup : free.Nodup) :
    Sound { c with sockets := { c.sockets.modify i f with freeSmap := free } } := by
  have hsocket : ∀ j, (Core.socket { c with
      sockets := { c.sockets.modify i f with freeSmap := free } } j) =
      if j = i then f (c.socket i) else c.socket j := fun j => modify_smap c.sockets i j f
  generalize hc : ({ c with sockets := { c.sockets.modify i f with freeSmap := free } } : Core) = c'
    at hsocket ⊢
  have hheap : c'.heap = c.heap := by rw [← hc]
  have hptrs : ∀ j, (c'.socket j).ptr = (c.socket j).ptr := by
    intro j
    rw [hsocket]
    split
    · next hj => rw [hj, hptr]
    · rfl
  have hlistens : ∀ j a, (c.socket j).ptr = .listener a →
      (c'.socket j).socktype = .listener ∧ (c'.socket j).sport = (c.socket j).sport := by
    intro j a hj
    rw [hsocket]
    split
    · next hji =>
      subst hji
      exact hkeep a hj
    · exact ⟨(h.of_ptr hj).2.2.1, rfl⟩
  have hopen : ∀ x, c'.Open x ↔ c.Open x := by
    intro x
    constructor
    · rintro ⟨l, hl, -, -⟩
      exact h.heap x l (hheap ▸ hl)
    · rintro ⟨l, hl, -, hp⟩
      exact ⟨l, hheap ▸ hl, (hlistens _ x hp).1, (hptrs _).trans hp⟩
  have hport : ∀ x, c.Open x → c'.portOf x = c.portOf x := by
    rintro x ⟨l, hl, -, hp⟩
    rw [portOf_of_heap hl, portOf_of_heap (hheap ▸ hl), (hlistens _ x hp).2]
  refine ⟨?_, ?_, h.unique.congr (fun x => (hopen x).mp) hport, ?_, ?_, ?_, ?_⟩
  · rw [← hc]
    exact h.fault
  · rw [show c'.listeners = c.listeners by rw [← hc]]
    exact h.table.congr hopen fun x hx => congrArg hashListener (hport x hx)
  · intro x l hl
    rw [hopen]
    exact h.heap x l (hheap ▸ hl)
  · intro j
    rw [hptrs, hheap]
    exact h.ptr j
  · intro j hj
    rw [← hc] at hj
    rw [hsocket]
    obtain ⟨hji, hun⟩ | ⟨hji, hj⟩ := hfree j hj
    · rw [if_pos hji]
      exact hun
    · rw [if_neg hji]
      exact h.unused j hj
  · rw [← hc]
    exact hnodup

/-! The calls. -/

theorem Sound.ptr_eq_null (htype : (c.socket i).socktype ≠ .listener) :
    (c.socket i).ptr = .null := by
  obtain hnull | ⟨a, -, hptr, -⟩ := h.ptr i
  · exact hnull
  · exact absurd (h.of_ptr hptr).2.2.1 htype

theorem sound_mtcpSocket (inet stream : Bool) : Sound (mtcpSocket inet stream c).2 := by
  unfold mtcpSocket
  split
  · exact h
  · split
    · exact h
    · obtain hnone | ⟨j, free, hsome, -, hperm⟩ := allocateSocket_cases .stream c.sockets
      · rw [hnone]
        exact h
      · rw [hsome]
        have hj : (c.socket j).socktype = .unused := h.unused j (hperm.mem_iff.mpr (.head _))
        have hnull := h.ptr_eq_null (i := j) (by rw [hj]; exact nofun)
        have hnodup := hperm.nodup_iff.mp h.nodup
        refine h.touch hnull.symm (fun a ha => ?_) (fun k hk => .inr ⟨?_, ?_⟩)
          (nodup_cons.mp hnodup).2
        · rw [hnull] at ha
          cases ha
        · rintro rfl
          exact (nodup_cons.mp hnodup).1 hk
        · exact hperm.mem_iff.mpr (.tail _ hk)

theorem Sound.keep_free {f : Socket → Socket} (hptr : (f (c.socket i)).ptr = (c.socket i).ptr)
    (hkeep : ∀ a, (c.socket i).ptr = .listener a →
      (f (c.socket i)).socktype = .listener ∧ (f (c.socket i)).sport = (c.socket i).sport)
    (hused : (c.socket i).socktype ≠ .unused) : Sound { c with sockets := c.sockets.modify i f } :=
  h.touch hptr hkeep (fun j hj => .inr ⟨fun hji => hused (hji ▸ h.unused j hj), hj⟩) h.nodup

theorem sound_becomeListener (i : Nat) : Sound (becomeListener i c) := by
  unfold becomeListener
  split
  · next hstream =>
    have hnull := h.ptr_eq_null (i := i) (by rw [hstream]; exact nofun)
    refine h.keep_free rfl (fun a ha => ?_) (by rw [hstream]; exact nofun)
    rw [hnull] at ha
    cases ha
  · exact h

theorem sound_installListener (htype : (c.socket i).socktype = .listener) (hfree : c.heap a = none)
    (hport : ∀ x, c.Open x → c.portOf x ≠ (c.socket i).sport) (backlog : Int) :
    Sound (installListener i backlog a c) := by
  have hnull : (c.socket i).ptr = .null := by
    obtain hnull | ⟨x, -, hptr, -⟩ := h.ptr i
    · exact hnull
    · obtain ⟨-, hopen, -, hp⟩ := h.of_ptr hptr
      exact absurd hp (hport x hopen)
  have hsocket : ∀ j, (installListener i backlog a c).socket j =
      if j = i then { c.socket i with ptr := .listener a } else c.socket j :=
    fun j => modify_smap c.sockets i j fun s => { s with ptr := .listener a }
  have hheap : ∀ x, (installListener i backlog a c).heap x =
      if x = a then some ⟨i, backlog⟩ else c.heap x :=
    fun x => update_apply c.heap a _ x
  have htable : (installListener i backlog a c).listeners =
      insert (hashListener ((installListener i backlog a c).portOf a)) a c.listeners := rfl
  have hfault : (installListener i backlog a c).fault = none := h.fault
  have hfreeSmap : (installListener i backlog a c).sockets.freeSmap = c.sockets.freeSmap := rfl
  generalize installListener i backlog a c = c' at *
  have hne : ∀ x, c.Open x → x ≠ a := by
    rintro x ⟨l, hl, -⟩ rfl
    rw [hfree] at hl
    cases hl
  have hself : c'.heap a = some ⟨i, backlog⟩ := by rw [hheap, if_pos rfl]
  have hother : ∀ x, c.Open x → c'.Open x ∧ c'.portOf x = c.portOf x := by
    intro x hx
    have hxa := hne x hx
    obtain ⟨l, hl, ht, hp⟩ := hx
    have hl' : c'.heap x = some l := by rw [hheap, if_neg hxa, hl]
    have hli : l.sockid ≠ i := by
      rintro rfl
      rw [hnull] at hp
      cases hp
    have hs : c'.socket l.sockid = c.socket l.sockid := by rw [hsocket, if_neg hli]
    exact ⟨⟨l, hl', hs ▸ ht, hs ▸ hp⟩, by rw [portOf_of_heap hl', portOf_of_heap hl, hs]⟩
  have hnew : c'.Open a ∧ c'.portOf a = (c.socket i).sport := by
    have hs : c'.socket i = { c.socket i with ptr := .listener a } := by rw [hsocket, if_pos rfl]
    refine ⟨⟨_, hself, ?_, ?_⟩, ?_⟩
    · rw [hs]
      exact htype
    · rw [hs]
    · rw [portOf_of_heap hself, hs]
  have hopen : ∀ x, c'.Open x ↔ c.Open x ∨ x = a := by
    intro x
    constructor
    · rintro ⟨l, hl, -⟩
      by_cases hxa : x = a
      · exact .inr hxa
      · rw [hheap, if_neg hxa] at hl
        exact .inl (h.heap x l hl)
    · rintro (hx | rfl)
      · exact (hother x hx).1
      · exact hnew.1
  refine ⟨hfault, ?_, ?_, ?_, ?_, ?_, ?_⟩
  · have hkeys : Holds c'.portOf hashListener c.listeners c.Open :=
      h.table.congr (fun _ => Iff.rfl) fun x hx => congrArg hashListener (hother x hx).2
    rw [htable]
    exact (hkeys.insert fun ha => hne a ha rfl).congr hopen fun _ _ => rfl
  · intro x y hx hy hxy
    rw [hopen] at hx hy
    obtain hx | rfl := hx
    · obtain hy | rfl := hy
      · rw [(hother x hx).2, (hother y hy).2] at hxy
        exact h.unique x y hx hy hxy
      · rw [(hother x hx).2, hnew.2] at hxy
        exact absurd hxy (hport x hx)
    · obtain hy | rfl := hy
      · rw [(hother y hy).2, hnew.2] at hxy
        exact absurd hxy.symm (hport y hy)
      · rfl
  · intro x l hl
    rw [hopen]
    by_cases hxa : x = a
    · exact .inr hxa
    · rw [hheap, if_neg hxa] at hl
      exact .inl (h.heap x l hl)
  · intro j
    rw [hsocket]
    by_cases hj : j = i
    · subst hj
      rw [if_pos rfl]
      exact .inr ⟨a, backlog, rfl, hself⟩
    · rw [if_neg hj]
      obtain hj' | ⟨x, b, hp, hx⟩ := h.ptr j
      · exact .inl hj'
      · refine .inr ⟨x, b, hp, ?_⟩
        rw [hheap, if_neg (hne x (h.heap x _ hx)), hx]
  · intro j hj
    rw [hfreeSmap] at hj
    have hun := h.unused j hj
    have hji : j ≠ i := by
      rintro rfl
      rw [htype] at hun
      cases hun
    rw [hsocket, if_neg hji]
    exact hun
  · rw [hfreeSmap]
    exact h.nodup

theorem Sound.not_linked (hfree : c.heap a = none) : c.linked a = false := by
  rw [Core.linked, List.any_eq_false]
  intro b _ hmem
  obtain ⟨l, hl, -⟩ := h.table.live b a (by simpa using hmem)
  rw [hfree] at hl
  cases hl

theorem sound_mtcpListen (i : Nat) (backlog : Int) (calloc : Option Nat) :
    Sound (mtcpListen i backlog calloc c).2 := by
  unfold mtcpListen
  split
  · exact h
  · split
    · exact h
    · have hl := sound_becomeListener h i
      generalize becomeListener i c = d at hl ⊢
      dsimp only
      split
      · exact hl
      · next htype =>
        split
        · exact hl
        · split
          · next hd => exact absurd hd (hl.search_ne_dangling _)
          · exact hl
          · next hnull =>
            cases calloc with
            | none => exact hl
            | some a =>
              dsimp only
              split
              · exact hl
              · next hused =>
                have hfree : d.heap a = none := not_isSome_iff_eq_none.mp hused
                rw [hl.not_linked hfree]
                exact sound_installListener hl (not_not.mp htype) hfree
                  ((hl.search_null_iff _).mp hnull) backlog

theorem listening_iff : c.listening i ↔
    i < c.maxConcurrency ∧ ∃ a, (c.socket i).ptr = .listener a := by
  unfold Core.listening
  rw [and_eq_true, and_eq_true, decide_eq_true_iff, decide_eq_true_iff]
  constructor
  · rintro ⟨⟨hi, -⟩, hptr⟩
    cases hp : (c.socket i).ptr with
    | listener a => exact ⟨hi, a, rfl⟩
    | _ => rw [hp] at hptr; cases hptr
  · rintro ⟨hi, a, hptr⟩
    rw [hptr]
    exact ⟨⟨hi, (h.of_ptr hptr).2.2.1⟩, rfl⟩

end

theorem bindable_used {addr : Option SockAddrIn} {sa : SockAddrIn}
    (h : bindable i addr c = .ok sa) : i < c.maxConcurrency ∧ (c.socket i).socktype ≠ .unused := by
  unfold bindable at h
  split at h
  · cases h
  · next hi =>
    split at h
    · cases h
    · next hu => exact ⟨Nat.not_le.mp hi, hu⟩

theorem Sound.portOf_rebound (h : Sound c) (hptr : (c.socket i).ptr = .listener a)
    (sa : SockAddrIn) {x : Nat} (hx : c.Open x) :
    (c.rebound i sa).portOf x = if x = a then sa.port else c.portOf x := by
  have hsocket : ∀ j, (c.rebound i sa).socket j = if j = i then bound sa (c.socket i)
      else c.socket j := fun j => modify_smap c.sockets i j (bound sa)
  obtain ⟨l, hl, -, hp⟩ := hx
  rw [portOf_of_heap (show (c.rebound i sa).heap x = some l from hl), hsocket, portOf_of_heap hl]
  by_cases hli : l.sockid = i
  · have hxa : x = a := by
      rw [hli, hptr] at hp
      injection hp with hp
      exact hp.symm
    rw [if_pos hli, if_pos hxa, bound]
  · have hxa : x ≠ a := by
      rintro rfl
      obtain ⟨⟨backlog, hheap⟩, -⟩ := h.of_ptr hptr
      rw [hheap] at hl
      exact hli (congrArg TcpListener.sockid (some.inj hl)).symm
    rw [if_neg hli, if_neg hxa]

theorem rebound_socket (sa : SockAddrIn) (j : Nat) :
    ((c.rebound i sa).socket j).ptr = (c.socket j).ptr ∧
      ((c.rebound i sa).socket j).socktype = (c.socket j).socktype := by
  have hsocket : (c.rebound i sa).socket j = if j = i then bound sa (c.socket i)
      else c.socket j := modify_smap c.sockets i j (bound sa)
  rw [hsocket]
  split
  · next hj => rw [hj]; exact ⟨rfl, rfl⟩
  · exact ⟨rfl, rfl⟩

theorem rebound_open (sa : SockAddrIn) (x : Nat) : (c.rebound i sa).Open x ↔ c.Open x := by
  unfold Core.Open
  simp only [rebound_socket]
  rfl

section

variable (h : Sound c)
include h

theorem sound_rebound (hptr : (c.socket i).ptr = .listener a) {sa : SockAddrIn}
    (hbin : hashListener sa.port = hashListener (c.socket i).sport)
    (hnull : ∀ x, c.Open x → c.portOf x ≠ sa.port) : Sound (c.rebound i sa) := by
  have hold := (h.of_ptr hptr).2.2.2
  have hports := fun x hx => h.portOf_rebound hptr sa (x := x) hx
  refine ⟨h.fault, h.table.congr (rebound_open sa) fun x hx => ?_, fun x y hx hy hxy => ?_,
    fun x l hl => ?_, fun j => ?_, fun j hj => ?_, h.nodup⟩
  · rw [hports x hx]
    split
    · next hxa => rw [hxa, hold, hbin]
    · rfl
  · rw [rebound_open] at hx hy
    rw [hports x hx, hports y hy] at hxy
    by_cases hxa : x = a
    · by_cases hya : y = a
      · rw [hxa, hya]
      · rw [if_pos hxa, if_neg hya] at hxy
        exact absurd hxy.symm (hnull y hy)
    · rw [if_neg hxa] at hxy
      by_cases hya : y = a
      · rw [if_pos hya] at hxy
        exact absurd hxy (hnull x hx)
      · rw [if_neg hya] at hxy
        exact h.unique x y hx hy hxy
  · rw [rebound_open]
    exact h.heap x l hl
  · rw [(rebound_socket sa j).1]
    exact h.ptr j
  · rw [(rebound_socket sa j).2]
    exact h.unused j hj

theorem sound_mtcpBind {addr : Option SockAddrIn} (hok : harmless c (.bind i addr)) :
    Sound (mtcpBind i addr c).2 := by
  unfold mtcpBind
  rw [harmless] at hok
  cases hb : bindable i addr c with
  | error e => exact h
  | ok sa =>
    rw [hb] at hok
    obtain ⟨hi, hused⟩ := bindable_used hb
    rw [or_eq_true, or_eq_true, and_eq_true, decide_eq_true_iff, decide_eq_true_iff,
      decide_eq_true_iff, not_eq_true'] at hok
    by_cases hlisten : c.listening i
    · obtain ⟨-, a, hptr⟩ := (listening_iff h).mp hlisten
      obtain (hnot | hsame) | ⟨hbin, hnull⟩ := hok
      · rw [hlisten] at hnot
        cases hnot
      · exact h.keep_free rfl (fun _ _ => ⟨(h.of_ptr hptr).2.2.1, hsame⟩) hused
      · exact sound_rebound h hptr hbin ((h.search_null_iff _).mp hnull)
    · refine h.keep_free rfl (fun a ha => ?_) hused
      exact absurd ((listening_iff h).mpr ⟨hi, a, ha⟩) hlisten

theorem sound_freeSocket (hnull : (c.socket i).ptr = .null) :
    Sound { c with sockets := freeSocket i c.sockets } := by
  unfold freeSocket
  split
  · exact h
  · next hused =>
    have hi : i ∉ c.sockets.freeSmap := fun hi => hused (h.unused i hi)
    refine h.touch hnull.symm (fun a ha => ?_) (fun j hj => ?_) ?_
    · rw [hnull] at ha
      cases ha
    · rw [mem_append, mem_singleton] at hj
      obtain hj | rfl := hj
      · exact .inr ⟨fun hji => hi (hji ▸ hj), hj⟩
      · exact .inl ⟨rfl, rfl⟩
    · rw [nodup_append]
      refine ⟨h.nodup, nodup_singleton i, fun x hx y hy => ?_⟩
      rw [mem_singleton] at hy
      rintro rfl
      exact hi (hy ▸ hx)

theorem sound_mtcpClose (hok : harmless c (.close i)) : Sound (mtcpClose i c).2 := by
  unfold mtcpClose
  split
  · exact h
  · next hi =>
    split
    · exact h
    · have hnull : (c.socket i).ptr = .null := by
        obtain hnull | ⟨a, -, hptr, -⟩ := h.ptr i
        · exact hnull
        · have hl := (listening_iff h).mpr ⟨Nat.not_le.mp hi, a, hptr⟩
          rw [harmless, hl] at hok
          cases hok
      have hsame : (closeByType i c).2 = c := by
        unfold closeByType
        split
        · rw [closeListeningSocket, hnull]
        iterate 3 rfl
      dsimp only
      rw [hsame]
      exact sound_freeSocket h hnull

theorem filterSYNPacket_eq (ip : UInt32) (port : UInt16) : (filterSYNPacket ip port c).2 = c := by
  unfold filterSYNPacket
  cases hs : listenerHTSearch c port with
  | null => rfl
  | dangling => exact absurd hs (h.search_ne_dangling port)
  | listener a =>
    obtain ⟨⟨l, hl, -⟩, -⟩ := (h.search_listener_iff port).mp hs
    dsimp only
    rw [hl]
    dsimp only
    split <;> rfl

theorem sound_step {act : Action} (hok : harmless c act) : Sound (step c act) := by
  unfold step
  rw [h.fault]
  cases act with
  | socket inet stream => exact sound_mtcpSocket h inet stream
  | bind i addr => exact sound_mtcpBind h hok
  | listen i backlog calloc => exact sound_mtcpListen h i backlog calloc
  | close i => exact sound_mtcpClose h hok
  | syn ip port =>
    change Sound (filterSYNPacket ip port c).2
    rw [filterSYNPacket_eq h]
    exact h

/-! What breaks the table. -/

theorem Sound.close_breaks (hl : c.listening i) : ¬ Mirrors (step c (.close i)) := by
  intro hm
  obtain ⟨hi, a, hptr⟩ := (listening_iff h).mp hl
  obtain ⟨⟨backlog, hheap⟩, hopen, htype, -⟩ := h.of_ptr hptr
  have hclose : closeByType i c = (.ok 0, { c with
      heap := update c.heap a none
      sockets := c.sockets.modify i fun s => { s with ptr := .null } }) := by
    simp only [closeByType, htype, closeListeningSocket, hptr, hheap, isNone_some,
      false_eq_true, if_false]
  have hstep : (step c (.close i)).heap = update c.heap a none ∧
      (step c (.close i)).listeners = c.listeners := by
    unfold step
    rw [h.fault]
    change (mtcpClose i c).2.heap = _ ∧ (mtcpClose i c).2.listeners = _
    rw [mtcpClose, if_neg (Nat.not_le.mpr hi), htype, if_neg nofun, hclose]
    exact ⟨rfl, rfl⟩
  obtain ⟨l, hdangling, -⟩ := hm.entries _ a (hstep.2 ▸ h.table.mem a hopen)
  rw [hstep.1, update_self] at hdangling
  cases hdangling

/-- A socket that listens and gets another port is no longer found in its bin, or shares its port
with another listener. -/
theorem Sound.bind_breaks {addr : Option SockAddrIn} (hbad : harmless c (.bind i addr) = false) :
    ¬ Mirrors (step c (.bind i addr)) := by
  intro hm
  rw [harmless] at hbad
  cases hb : bindable i addr c with
  | error e =>
    rw [hb] at hbad
    cases hbad
  | ok sa =>
    rw [hb] at hbad
    rw [or_eq_false_iff, or_eq_false_iff, not_eq_false', decide_eq_false_iff_not]
      at hbad
    obtain ⟨⟨hl, hport⟩, hrest⟩ := hbad
    obtain ⟨-, a, hptr⟩ := (listening_iff h).mp hl
    obtain ⟨⟨backlog, hheap⟩, hopen, htype, hold⟩ := h.of_ptr hptr
    have hstep : step c (.bind i addr) = c.rebound i sa := by
      unfold step
      rw [h.fault]
      change (mtcpBind i addr c).2 = _
      rw [mtcpBind, hb]
    rw [hstep] at hm
    have hports := fun x hx => h.portOf_rebound hptr sa (x := x) hx
    have hnew : (c.rebound i sa).portOf a = sa.port := by rw [hports a hopen, if_pos rfl]
    have hentry : a ∈ (c.rebound i sa).listeners (hashListener (c.socket i).sport) := by
      have hmem := h.table.mem a hopen
      rw [hold] at hmem
      exact hmem
    -- the search for the new port finds the listener, so it stands in the bin of that port
    have hfound := (hm.found sa.port a).mpr ⟨hm.entries _ a hentry, hnew⟩
    obtain ⟨hbin, -⟩ := hm.onePerPort _ a _ a (searchBin_mem hfound) hentry rfl
    rw [decide_eq_true hbin, Bool.true_and, decide_eq_false_iff_not, h.search_null_iff] at hrest
    push Not at hrest
    obtain ⟨x, hx, hxport⟩ := hrest
    have hxa : x ≠ a := by
      rintro rfl
      exact hport (hxport.symm.trans hold)
    have hxport' : (c.rebound i sa).portOf x = sa.port := by rw [hports x hx, if_neg hxa, hxport]
    exact hxa (hm.onePerPort _ x _ a (h.table.mem x hx) hentry (hxport'.trans hnew.symm)).2

theorem step_mirrors_iff (act : Action) : Mirrors (step c act) ↔ harmless c act := by
  refine ⟨fun hm => ?_, fun hok => (sound_step h hok).mirrors⟩
  by_contra hbad
  rw [not_eq_true] at hbad
  cases act with
  | close i =>
    rw [harmless, not_eq_false'] at hbad
    exact h.close_breaks hbad hm
  | bind i addr => exact h.bind_breaks hbad hm
  | socket | listen | syn => cases hbad

end

/-- Along a sequence of calls and SYNs the table mirrors the open listening sockets at every
point exactly if no listening socket is closed and none gets an address that moves it. -/
theorem listener_table_mirrors_iff (n : Nat) (eths : List UInt32) (acts : List Action) :
    (∀ k, Mirrors (run (createCore n eths) (acts.take k))) ↔
      Along step (fun c act => harmless c act = true) (createCore n eths) acts := by
  have hgen : ∀ c, Sound c → ((∀ k, Mirrors (run c (acts.take k))) ↔
      Along step (fun c act => harmless c act = true) c acts) := by
    induction acts with
    | nil =>
      intro c hc
      refine ⟨fun _ => trivial, fun _ k => ?_⟩
      rw [List.take_nil]
      exact hc.mirrors
    | cons act acts ih =>
      intro c hc
      constructor
      · intro hm
        have hok := (step_mirrors_iff hc act).mp (hm 1)
        exact ⟨hok, (ih _ (sound_step hc hok)).mp fun k => hm (k + 1)⟩
      · rintro ⟨hok, hrest⟩ k
        cases k with
        | zero => exact hc.mirrors
        | succ k => exact (ih _ (sound_step hc hok)).mpr hrest k
  exact hgen _ (createCore_sound n eths)

/-- A socket is bound to port 80, listens and is closed: its entry stays, the listener behind it
is freed, and the next SYN for the port and the next `mtcp_listen` on it read the freed memory. -/
theorem closed_listener_stays_in_table :
    7 ∈ (run (createCore 2 []) [.socket true true, .bind 0 (some { addr := 0, port := 80 }),
        .listen 0 1 (some 7), .close 0]).listeners (hashListener 80) ∧
      (run (createCore 2 []) [.socket true true, .bind 0 (some { addr := 0, port := 80 }),
        .listen 0 1 (some 7), .close 0]).heap 7 = none ∧
      (run (createCore 2 []) [.socket true true, .bind 0 (some { addr := 0, port := 80 }),
        .listen 0 1 (some 7), .close 0, .syn 1 80]).fault = some .useAfterFree ∧
      (run (createCore 2 []) [.socket true true, .bind 0 (some { addr := 0, port := 80 }),
        .listen 0 1 (some 7), .close 0, .socket true true,
        .bind 1 (some { addr := 0, port := 80 }), .listen 1 1 (some 8)]).fault =
        some .useAfterFree := by
  decide +kernel

/-! A call of `mtcp_listen` that fails. -/

/-- A call that fails leaves everything as it was, and none succeeds on a socket with a stream. -/
def ListensCleanly (i : Nat) (backlog : Int) (calloc : Option Nat) (c : Core) : Prop :=
  (∀ e, (mtcpListen i backlog calloc c).1 = .error e → (mtcpListen i backlog calloc c).2 = c) ∧
    ∀ n, (mtcpListen i backlog calloc c).1 = .ok n → ∀ id, (c.socket i).ptr ≠ .stream id

def listenable (i : Nat) (backlog : Int) (calloc : Option Nat) (c : Core) : Bool :=
  decide (0 < backlog ∧ backlog ≤ c.maxConcurrency) &&
    decide (listenerHTSearch c (c.socket i).sport = .null) &&
    calloc.any fun a => (c.heap a).isNone

def hasStream (s : Socket) : Bool :=
  match s.ptr with
  | .stream _ => true
  | _ => false

/-- A STREAM socket must be able to listen, and nothing that has a stream may be. The search
reads no listener that was freed. -/
def listensCleanly (i : Nat) (backlog : Int) (calloc : Option Nat) (c : Core) : Bool :=
  decide (c.maxConcurrency ≤ i) ||
    match (c.socket i).socktype with
    | .stream => listenable i backlog calloc c && !hasStream (c.socket i)
    | .listener =>
      decide (backlog ≤ 0 ∨ c.maxConcurrency < backlog) ||
        decide (listenerHTSearch c (c.socket i).sport ≠ .dangling) &&
          !(listenable i backlog calloc c && hasStream (c.socket i))
    | _ => true

theorem hasStream_eq_false_iff {s : Socket} : hasStream s = false ↔ ∀ id, s.ptr ≠ .stream id := by
  unfold hasStream
  cases s.ptr <;> simp

theorem searchBin_congr {d : Core} (hheap : d.heap = c.heap) (hport : ∀ a, d.portOf a = c.portOf a)
    (port : UInt16) (xs : List Nat) : searchBin d port xs = searchBin c port xs := by
  induction xs with
  | nil => rfl
  | cons a xs ih => rw [searchBin, searchBin, hheap, hport, ih]

theorem becomeListener_search (i : Nat) (port : UInt16) :
    listenerHTSearch (becomeListener i c) port = listenerHTSearch c port := by
  unfold becomeListener
  split
  · apply searchBin_congr
    · rfl
    · intro a
      unfold Core.portOf
      cases c.heap a with
      | none => rfl
      | some l =>
        by_cases hl : l.sockid = i
        · simp [Core.socket, hl]
        · simp [Core.socket, modify_smap_ne _ _ hl]
  · rfl

theorem mtcpListen_cases (backlog : Int) (calloc : Option Nat) (hi : i < c.maxConcurrency)
    (ht : (c.socket i).socktype = .stream ∨ (c.socket i).socktype = .listener) :
    listenable i backlog calloc c ∧ (mtcpListen i backlog calloc c).1 = .ok 0 ∨
    listenable i backlog calloc c = false ∧ (∃ e, (mtcpListen i backlog calloc c).1 = .error e) ∧
      (mtcpListen i backlog calloc c).2 = if ¬ (backlog ≤ 0 ∨ c.maxConcurrency < backlog) ∧
          listenerHTSearch c (c.socket i).sport = .dangling
        then (becomeListener i c).abort .useAfterFree else becomeListener i c := by
  have hsearch := @becomeListener_search c i
  have hd : (becomeListener i c).maxConcurrency = c.maxConcurrency ∧
      (becomeListener i c).heap = c.heap ∧
      ((becomeListener i c).socket i).socktype = .listener ∧
      ((becomeListener i c).socket i).sport = (c.socket i).sport := by
    unfold becomeListener
    split
    · simp [Core.socket]
    · next hne => exact ⟨rfl, rfl, ht.resolve_left hne, rfl⟩
  unfold mtcpListen listenable
  have hused : (c.socket i).socktype ≠ .unused := by
    obtain h | h := ht <;> rw [h] <;> decide
  rw [if_neg (by omega), if_neg hused]
  generalize becomeListener i c = d at hsearch hd ⊢
  obtain ⟨hmax, hheap, htype, hport⟩ := hd
  dsimp only
  rw [htype, if_neg (by decide), hmax, hport, hsearch, hheap]
  by_cases hback : backlog ≤ 0 ∨ c.maxConcurrency < backlog
  · rw [if_pos hback, decide_eq_false (by omega), if_neg fun h => h.1 hback]
    exact .inr ⟨rfl, ⟨_, rfl⟩, rfl⟩
  · rw [if_neg hback, decide_eq_true (by omega)]
    cases listenerHTSearch c (c.socket i).sport with
    | null =>
      cases calloc with
      | none => exact .inr ⟨rfl, ⟨_, rfl⟩, (if_neg (by simp)).symm⟩
      | some a =>
        cases ha : c.heap a with
        | none =>
          refine .inl ⟨by simp [ha], ?_⟩
          simp only [ha, isSome_none, false_eq_true, if_false]
          split <;> rfl
        | some l => exact .inr ⟨by simp [ha], by simp [ha], by simp [ha]⟩
    | listener a => exact .inr ⟨rfl, ⟨_, rfl⟩, (if_neg (by simp)).symm⟩
    | dangling => exact .inr ⟨rfl, ⟨_, rfl⟩, (if_pos ⟨hback, rfl⟩).symm⟩

theorem abort_ne (hrun : c.fault = none) (d : Core) (hd : d.fault = c.fault) (f : Fault) :
    d.abort f ≠ c := by
  intro heq
  have hfault := congrArg Core.fault heq
  rw [Core.abort, hd, hrun] at hfault
  cases hfault

/-- A process that runs keeps its sockets and its table in a failed `mtcp_listen`, and refuses it
for a socket with a stream, exactly under this condition. -/
theorem listens_cleanly_iff (i : Nat) (backlog : Int) (calloc : Option Nat)
    (hrun : c.fault = none) :
    ListensCleanly i backlog calloc c ↔ listensCleanly i backlog calloc c = true := by
  unfold ListensCleanly listensCleanly
  by_cases hi : c.maxConcurrency ≤ i
  · have hcall : mtcpListen i backlog calloc c = (.error .badf, c) := if_pos hi
    simp [hcall, hi]
  · rw [decide_eq_false hi, Bool.false_or]
    have hcases := @mtcpListen_cases c i backlog calloc (Nat.lt_of_not_le hi)
    have hother : ∀ e, mtcpListen i backlog calloc c = (.error e, c) →
        (∀ e, (mtcpListen i backlog calloc c).1 = .error e →
          (mtcpListen i backlog calloc c).2 = c) ∧
          ∀ n, (mtcpListen i backlog calloc c).1 = .ok n → ∀ id, (c.socket i).ptr ≠ .stream id := by
      intro e he
      rw [he]
      exact ⟨fun _ _ => rfl, nofun⟩
    cases ht : (c.socket i).socktype with
    | stream =>
      obtain ⟨hcan, hok⟩ | ⟨hcan, ⟨e, he⟩, hd⟩ := hcases (.inl ht)
      · simp [hcan, hok, hasStream_eq_false_iff]
      · -- the type is LISTENER now, whatever else happened
        refine iff_of_false (fun h => ?_) (by simp [hcan])
        have htype : ((becomeListener i c).socket i).socktype = .listener := by
          rw [becomeListener, if_pos ht]
          simp [Core.socket]
        have hsame := congrArg (fun d => (d.socket i).socktype) (hd.symm.trans (h.1 e he))
        split_ifs at hsame <;> cases ht.symm.trans (hsame.symm.trans htype)
    | listener =>
      have hkeep : becomeListener i c = c := if_neg (by rw [ht]; decide)
      rw [hkeep] at hcases
      obtain ⟨hcan, hok⟩ | ⟨hcan, ⟨e, he⟩, hd⟩ := hcases (.inr ht)
      · have hin : ¬ (backlog ≤ 0 ∨ c.maxConcurrency < backlog) ∧
            listenerHTSearch c (c.socket i).sport = .null := by
          simp only [listenable, Bool.and_eq_true, decide_eq_true_eq] at hcan
          exact ⟨by omega, hcan.1.2⟩
        simp [hcan, hok, hin, hasStream_eq_false_iff]
      · rw [he, hd]
        by_cases hbad : ¬ (backlog ≤ 0 ∨ c.maxConcurrency < backlog) ∧
            listenerHTSearch c (c.socket i).sport = .dangling
        · rw [if_pos hbad]
          refine iff_of_false (fun h => abort_ne hrun c rfl _ (h.1 e rfl)) ?_
          simp [hbad.1, hbad.2]
        · rw [if_neg hbad]
          refine iff_of_true ⟨fun _ _ => rfl, nofun⟩ ?_
          simp only [hcan, Bool.false_and, Bool.not_false, Bool.and_true, Bool.or_eq_true,
            decide_eq_true_eq]
          tauto
    | unused => exact iff_of_true (hother .badf (by simp [mtcpListen, hi, ht])) rfl
    | proxy | epoll | pipe =>
      exact iff_of_true (hother .notSock (by simp [mtcpListen, hi, ht, becomeListener])) rfl

/-- The second call for a socket fails, and changes nothing. -/
theorem listens_cleanly_iff_twice :
    let c := run (createCore 2 []) [.socket true true, .listen 0 1 (some 7)]
    (mtcpListen 0 0 none c).1 = .error .inval ∧ ListensCleanly 0 0 none c :=
  ⟨by decide +kernel, (listens_cleanly_iff 0 0 none (by decide +kernel)).mpr (by decide +kernel)⟩

def connectedCore : Core :=
  { createCore 2 [] with sockets := ⟨fun _ => { socktype := .stream, ptr := .stream 3 }, []⟩ }

/-- A backlog of zero is refused, but the connected socket is a LISTENER from then on, and closing
it takes its stream for a listener; with a backlog of one the call succeeds. -/
theorem failed_listen_changes_type :
    (mtcpListen 0 0 (some 7) connectedCore).1 = .error .inval ∧
      ((mtcpListen 0 0 (some 7) connectedCore).2.socket 0).socktype = .listener ∧
      (mtcpClose 0 (mtcpListen 0 0 (some 7) connectedCore).2).2.fault = some .notAListener ∧
      (mtcpListen 0 1 (some 7) connectedCore).1 = .ok 0 := by
  decide +kernel

end Mtcp.Listeners
