import Mtcp.Membership
import Mtcp.Refine.Output

namespace Mtcp

open Serial Options List ListManager SenderLists
open Function (update_of_ne update update_self)

variable {α : Type} [DecidableEq α]

/-! The next hop. -/

structure ArpEntry where
  ip : UInt32
  prefixLen : Int
  ipMask : UInt32
  ipMasked : UInt32
  haddr : List UInt8

structure ArpTable where
  entry : List ArpEntry
  gateway : Option ArpEntry := none

/-- Longest match. An entry of length one only stands for its own address, and ends the
search. -/
def matchEntries (dip : UInt32) : List ArpEntry → Int → Option (List UInt8) → Option (List UInt8)
  | [], _, haddr => haddr
  | e :: es, best, haddr =>
    if e.prefixLen = 1 then
      if e.ip = dip then some e.haddr else matchEntries dip es best haddr
    else if dip &&& e.ipMask = e.ipMasked ∧ best < e.prefixLen then
      matchEntries dip es e.prefixLen (some e.haddr)
    else matchEntries dip es best haddr

def getDestinationHWaddr (arp : ArpTable) (dip : UInt32) (isGateway : Bool) :
    Option (List UInt8) :=
  match isGateway, arp.gateway with
  | true, some g => some g.haddr
  | _, _ => matchEntries dip arp.entry 0 none

/-! The control packet of a stream. -/

/-- The SYN/ACK always starts over. -/
def controlStart (s : TcpStream) : TcpStream :=
  if s.state = .synRcvd then { s with sndNxt := s.sndvar.iss } else s

def controlFlags (s : TcpStream) : Flags :=
  match s.state with
  | .synSent => { syn := true }
  | .synRcvd => { syn := true, ack := true }
  | .established | .closeWait | .finWait2 | .timeWait => { ack := true }
  | .lastAck | .finWait1 => { fin := true, ack := true }
  | .closing =>
    if s.sndvar.isFinSent && s.sndNxt ≠ s.sndvar.fss then { ack := true }
    else { fin := true, ack := true }
  | .closed => { rst := true }
  | .listen => {}

def controlPacket (env : Env) (s : TcpStream) : Int × TcpStream :=
  sendTCPPacket env (controlStart s) (controlFlags s) []

def controlSegment (env : Env) (s : TcpStream) : Segment :=
  buildSegment env (controlStart s) (controlFlags s) [] nil_length_lt

theorem sendControlPacket_eq (cfg : Config) (env : Env) (s : TcpStream) :
    sendControlPacket cfg env s = match s.state with
      | .listen => (0, s)
      | .lastAck | .finWait1 =>
        if s.sndvar.onSendList || s.sndvar.onAckList then (-1, s) else controlPacket env s
      | .closed => if s.sndvar.onSendList || s.sndvar.onAckList then (-1, s) else
          match controlPacket env s with
          | (ret, s) => if 0 ≤ ret then (ret, destroyTCPStream cfg s) else (ret, s)
      | _ => controlPacket env s := by
  unfold sendControlPacket controlPacket controlStart controlFlags
  cases hs : s.state with
  | closing =>
    by_cases hsent : s.sndvar.isFinSent <;> by_cases hfss : s.sndNxt = s.sndvar.fss <;>
      simp [hsent, hfss, sendFin, sendAck]
  | _ => simp [sendFin, sendAck]

theorem controlStart_frame (s : TcpStream) : (controlStart s).sndvar = s.sndvar ∧
    (controlStart s).txRoom = s.txRoom ∧ (conn (controlStart s)).log = (conn s).log := by
  unfold controlStart
  split <;> exact ⟨rfl, rfl, rfl⟩

theorem controlPacket_small {env : Env} {s : TcpStream}
    (h : s.sndvar.mss.toNat < calculateOptionLength (controlFlags s).syn) :
    controlPacket env s = (-1, controlStart s) := by
  unfold controlPacket sendTCPPacket
  rw [dif_pos (by rw [(controlStart_frame s).1, length_nil]; omega)]

theorem controlPacket_full {env : Env} {s : TcpStream}
    (h : calculateOptionLength (controlFlags s).syn ≤ s.sndvar.mss.toNat) (hroom : s.txRoom = 0) :
    controlPacket env s = (-2, controlStart s) := by
  obtain ⟨hmss, hr, -⟩ := controlStart_frame s
  unfold controlPacket sendTCPPacket
  rw [dif_neg (by rw [hmss, length_nil]; omega), if_pos (by rw [hr, hroom])]

theorem controlPacket_sent (env : Env) {s : TcpStream}
    (h : calculateOptionLength (controlFlags s).syn ≤ s.sndvar.mss.toNat) (hroom : 0 < s.txRoom) :
    0 ≤ (controlPacket env s).1 ∧ (controlPacket env s).2.txRoom = s.txRoom - 1 ∧
      (conn (controlPacket env s).2).log = .emit (controlSegment env s) :: (conn s).log := by
  obtain ⟨hmss, hr, hlog⟩ := controlStart_frame s
  unfold controlPacket sendTCPPacket
  rw [dif_neg (by rw [hmss, length_nil]; omega), if_neg (by omega)]
  refine ⟨?_, ?_, ?_⟩
  · split <;> simp
  · rw [sendSegment_txRoom, hr]
  · rw [conn_sendSegment]
    change Effect.emit _ :: (conn (controlStart s)).log = _
    rw [hlog]
    rfl

/-! The pass over the control list of one sender. -/

/-- The streams with the addresses their packets go to, the write buffers of the device, and the
calls of `SendControlPacket`. -/
structure ControlWorld (α : Type) where
  streams : α → TcpStream
  daddr : α → UInt32
  isExternal : α → Bool
  room : Nat
  attempted : List α := []

def resolved (arp : ArpTable) (w : ControlWorld α) (i : α) : Bool :=
  (getDestinationHWaddr arp (w.daddr i) (w.isExternal i)).isSome

open ListManager

/-- The stream as `IPOutput` sees it: without an entry for the next hop there is no buffer. -/
def outputStream (arp : ArpTable) (w : ControlWorld α) (i : α) : TcpStream :=
  { w.streams i with txRoom := if resolved arp w i then w.room else 0 }

def afterOutput (arp : ArpTable) (w : ControlWorld α) (i : α) (s : TcpStream) : ControlWorld α :=
  { w with
    streams := Function.update w.streams i s
    room := if resolved arp w i then s.txRoom else w.room }

def controlOutput (env : Env) (arp : ArpTable) : PacketOutput α (ControlWorld α) where
  state i w := (w.streams i).state
  packet i m :=
    match controlPacket env (outputStream arp m.rest.world i) with
    | (ret, s) => (ret, s.sndvar.tsRto, afterOutput arp m.rest.world i s)

def noteAttempt (i : α) (m : ListManager α (ControlWorld α)) : ListManager α (ControlWorld α) :=
  setWorld { m.rest.world with attempted := m.rest.world.attempted ++ [i] } m

def attempt (env : Env) (arp : ArpTable) (i : α) (m : ListManager α (ControlWorld α)) :
    Int × ListManager α (ControlWorld α) :=
  (controlOutput env arp).sendControlPacket i (noteAttempt i m)

def controlListPass (env : Env) (arp : ArpTable) (k : Nat) (thresh : Int)
    (m : ListManager α (ControlWorld α)) : ListManager α (ControlWorld α) :=
  writeTCPControlList (attempt env arp) k thresh
    (setWorld { m.rest.world with attempted := [] } m)

def optionsFit (s : TcpStream) : Bool :=
  decide (calculateOptionLength (controlFlags s).syn ≤ s.sndvar.mss.toNat)

def reachesOutput (m : ListManager α (ControlWorld α)) (i : α) : Bool :=
  let s := m.rest.world.streams i
  let busy := m.rest.send.on i || m.rest.ack.on i
  optionsFit s &&
    match s.state with
    | .listen => false
    | .lastAck | .finWait1 | .closed => !busy
    | _ => true

def blocks (arp : ArpTable) (m : ListManager α (ControlWorld α)) (i : α) : Bool :=
  reachesOutput m i && !resolved arp m.rest.world i

def emits (arp : ArpTable) (m : ListManager α (ControlWorld α)) (i : α) : Bool :=
  reachesOutput m i && resolved arp m.rest.world i

def loggedControl (env : Env) (s : TcpStream) : List Effect :=
  .emit (controlSegment env s) :: (conn s).log

/-- Every listed stream is attempted, and the packets of those with a next hop that are on no other
list go out. In LISTEN there is none. -/
def PassReachesAll (env : Env) (arp : ArpTable) (k : Nat) (m m' : ListManager α (ControlWorld α)) :
    Prop :=
  (∀ i ∈ m.rest.control.list k, i ∈ m'.rest.world.attempted) ∧
  ∀ i ∈ m.rest.control.list k, resolved arp m.rest.world i = true →
    m.rest.send.on i = false → m.rest.ack.on i = false →
    (m.rest.world.streams i).state ≠ .listen →
    (conn (m'.rest.world.streams i)).log = loggedControl env (m.rest.world.streams i)

/-! One attempt. -/

theorem sendTCPPacket_rest {ω : Type} (out : PacketOutput α ω) (i : α) (m : ListManager α ω) :
    (out.sendTCPPacket i m).2.rest = { m.rest with world := (out.packet i m).2.2 } := by
  unfold PacketOutput.sendTCPPacket
  dsimp only
  split
  · exact addtoRTOList_rest _ i
  · rfl

theorem destroyTCPStream_rest {ω : Type} (m : ListManager α ω) (i : α) :
    (ListManager.destroyTCPStream i m).rest.send = m.rest.send.remove (m.rest.sender i) i ∧
    (ListManager.destroyTCPStream i m).rest.ack = m.rest.ack.remove (m.rest.sender i) i ∧
    (ListManager.destroyTCPStream i m).rest.world = m.rest.world := by
  have hworld : ∀ u : ListManager α ω,
      (if u.onTimewaitList i then ListManager.removeFromTimewaitList i u else u).rest.world =
        u.rest.world := by
    intro u
    unfold ListManager.removeFromTimewaitList
    split_ifs <;> rfl
  have hquiet := fun u : ListManager α ω => Quiet.leaveTimewaitList i u
  unfold ListManager.destroyTCPStream
  rw [(hquiet _).send, (hquiet _).ack, hworld, leaveRTOList_rest]
  exact ⟨rfl, rfl, rfl⟩

/-- What an attempt for `i` does. The rest of the streams and the lists stay as they are. -/
structure Attempt (env : Env) (arp : ArpTable) (i : α) (m : ListManager α (ControlWorld α))
    (ret : Int) (m' : ListManager α (ControlWorld α)) : Prop where
  send : m'.rest.send = m.rest.send
  ack : m'.rest.ack = m.rest.ack
  daddr : m'.rest.world.daddr = m.rest.world.daddr
  isExternal : m'.rest.world.isExternal = m.rest.world.isExternal
  others : ∀ j, j ≠ i → m'.rest.world.streams j = m.rest.world.streams j
  room : m.rest.world.room ≤ m'.rest.world.room + 1
  attempted : m'.rest.world.attempted = m.rest.world.attempted ++ [i]
  stops : ret = -2 ↔ blocks arp m i = true
  log : (conn (m'.rest.world.streams i)).log =
    if emits arp m i then loggedControl env (m.rest.world.streams i)
    else (conn (m.rest.world.streams i)).log

section attempt

variable {env : Env} {arp : ArpTable} {i : α} {m : ListManager α (ControlWorld α)}

omit [DecidableEq α] in
theorem attempt_quiet {ret : Int} (hret : ret ≠ -2) (hreach : reachesOutput m i = false) :
    Attempt env arp i m ret (noteAttempt i m) where
  send := rfl
  ack := rfl
  daddr := rfl
  isExternal := rfl
  others := fun _ _ => rfl
  room := Nat.le_succ _
  attempted := rfl
  stops := by simp [hret, blocks, hreach]
  log := by simp [emits, hreach, noteAttempt, setWorld, mapRest]

omit [DecidableEq α] in
theorem controlSegment_outputStream (env : Env) (arp : ArpTable) (w : ControlWorld α) (i : α) :
    controlSegment env (outputStream arp w i) = controlSegment env (w.streams i) := by
  unfold controlSegment controlStart outputStream
  dsimp only
  split <;> rfl

omit [DecidableEq α] in
theorem controlPacket_ends (env : Env) (arp : ArpTable) {w : ControlWorld α} (hroom : 0 < w.room)
    (i : α) : ((controlPacket env (outputStream arp w i)).1 = -2 ↔
      (optionsFit (w.streams i) && !resolved arp w i)) ∧
    w.room ≤ (if resolved arp w i then (controlPacket env (outputStream arp w i)).2.txRoom
      else w.room) + 1 ∧ (conn (controlPacket env (outputStream arp w i)).2).log =
      if optionsFit (w.streams i) && resolved arp w i then loggedControl env (w.streams i)
      else (conn (w.streams i)).log := by
  have hseg := controlSegment_outputStream env arp w i
  have hlog : (conn (outputStream arp w i)).log = (conn (w.streams i)).log := rfl
  have hfit : optionsFit (outputStream arp w i) = optionsFit (w.streams i) := rfl
  have htx : (outputStream arp w i).txRoom = if resolved arp w i then w.room else 0 := rfl
  rw [← hfit]
  generalize outputStream arp w i = s at hseg hlog hfit htx ⊢
  by_cases hsmall : calculateOptionLength (controlFlags s).syn ≤ s.sndvar.mss.toNat
  · have hfits : optionsFit s := decide_eq_true hsmall
    cases hres : resolved arp w i with
    | true =>
      rw [hres, if_pos rfl] at htx
      obtain ⟨h1, h2, h3⟩ := controlPacket_sent env hsmall (by omega)
      rw [h3, h2, hseg, hlog, hfits]
      refine ⟨⟨fun h => by omega, fun h => (nomatch h)⟩, ?_, rfl⟩
      rw [if_pos rfl]
      omega
    | false =>
      rw [hres] at htx
      rw [controlPacket_full hsmall htx, hfits]
      simp [controlStart_frame, hlog]
  · have hfits : optionsFit s = false := decide_eq_false hsmall
    rw [controlPacket_small (not_le.mp hsmall), hfits]
    refine ⟨by simp, ?_, by simp [controlStart_frame, hlog]⟩
    rw [(controlStart_frame s).2.1, htx]
    split <;> omega

theorem attempt_packet (hroom : 0 < m.rest.world.room)
    (hreach : reachesOutput m i = optionsFit (m.rest.world.streams i)) :
    Attempt env arp i m ((controlOutput env arp).sendTCPPacket i (noteAttempt i m)).1
      ((controlOutput env arp).sendTCPPacket i (noteAttempt i m)).2 := by
  obtain ⟨hstops, hleft, hlog⟩ := controlPacket_ends env arp
    (w := (noteAttempt i m).rest.world) hroom i
  have hrest := sendTCPPacket_rest (controlOutput env arp) i (noteAttempt i m)
  have hworld : ((controlOutput env arp).packet i (noteAttempt i m)).2.2 =
      afterOutput arp (noteAttempt i m).rest.world i
        (controlPacket env (outputStream arp (noteAttempt i m).rest.world i)).2 := rfl
  have hret : ((controlOutput env arp).sendTCPPacket i (noteAttempt i m)).1 =
      (controlPacket env (outputStream arp (noteAttempt i m).rest.world i)).1 := rfl
  rw [hworld] at hrest
  rw [hret]
  generalize ((controlOutput env arp).sendTCPPacket i (noteAttempt i m)).2 = u at hrest
  generalize controlPacket env _ = r at hstops hleft hlog hrest ⊢
  obtain ⟨ret, s⟩ := r
  refine ⟨?_, ?_, ?_, ?_, ?_, ?_, ?_, ?_, ?_⟩
  all_goals try rw [hrest]
  all_goals try rfl
  · intro j hj
    exact update_of_ne hj _ _
  · exact hleft
  · unfold blocks
    rw [hreach]
    exact hstops
  · unfold emits
    rw [hreach]
    change (conn (update m.rest.world.streams i s i)).log = _
    rw [update_self]
    exact hlog

theorem Attempt.destroy {ret : Int} {m' : ListManager α (ControlWorld α)}
    (h : Attempt env arp i m ret m') (hs : m.rest.send.on i = false)
    (ha : m.rest.ack.on i = false) :
    Attempt env arp i m ret (ListManager.destroyTCPStream i m') := by
  obtain ⟨hsend, hack, hworld⟩ := destroyTCPStream_rest m' i
  rw [h.send, remove_of_off hs] at hsend
  rw [h.ack, remove_of_off ha] at hack
  refine ⟨hsend, hack, ?_, ?_, ?_, ?_, ?_, h.stops, ?_⟩
  all_goals rw [hworld]
  · exact h.daddr
  · exact h.isExternal
  · exact h.others
  · exact h.room
  · exact h.attempted
  · exact h.log

variable (env arp) in
theorem attempt_spec (hroom : 0 < m.rest.world.room) :
    Attempt env arp i m (attempt env arp i m).1 (attempt env arp i m).2 := by
  have hstate : (controlOutput env arp).state i (noteAttempt i m).rest.world =
      (m.rest.world.streams i).state := rfl
  have hbusy : ((noteAttempt i m).rest.send.on i || (noteAttempt i m).rest.ack.on i) =
      (m.rest.send.on i || m.rest.ack.on i) := rfl
  have hpacket : reachesOutput m i = optionsFit (m.rest.world.streams i) →
      Attempt env arp i m ((controlOutput env arp).sendTCPPacket i (noteAttempt i m)).1
        ((controlOutput env arp).sendTCPPacket i (noteAttempt i m)).2 := attempt_packet hroom
  have hbusyRet : reachesOutput m i = false → Attempt env arp i m (-1) (noteAttempt i m) :=
    attempt_quiet (by decide)
  have hlisten : reachesOutput m i = false → Attempt env arp i m 0 (noteAttempt i m) :=
    attempt_quiet (by decide)
  unfold attempt PacketOutput.sendControlPacket
  rw [hstate, hbusy]
  unfold reachesOutput at hpacket
  cases hs : (m.rest.world.streams i).state with
  | listen => exact hlisten (by simp [reachesOutput, hs])
  | closed =>
    cases hb : (m.rest.send.on i || m.rest.ack.on i) with
    | true => exact hbusyRet (by simp [reachesOutput, hs, hb])
    | false =>
      have hsent := hpacket (by simp [hs, hb])
      obtain ⟨hsend, hack⟩ := Bool.or_eq_false_iff.mp hb
      dsimp only
      rw [if_neg (by decide)]
      generalize (controlOutput env arp).sendTCPPacket i (noteAttempt i m) = r at hsent ⊢
      obtain ⟨ret, u⟩ := r
      split
      · exact hsent.destroy hsend hack
      · exact hsent
  | lastAck | finWait1 =>
    cases hb : (m.rest.send.on i || m.rest.ack.on i) with
    | true => exact hbusyRet (by simp [reachesOutput, hs, hb])
    | false => exact hpacket (by simp [hs, hb])
  | _ => exact hpacket (by simp [hs])

end attempt

/-! The walk along the list. -/

/-- The streams a pass gets to: all up to the first that blocks. -/
def walkedTo (stops : α → Bool) : List α → List α
  | [] => []
  | x :: xs => if stops x then [x] else x :: walkedTo stops xs

omit [DecidableEq α] in
theorem walkedTo_congr {f g : α → Bool} {xs : List α} (h : ∀ x ∈ xs, f x = g x) :
    walkedTo f xs = walkedTo g xs := by
  induction xs with
  | nil => rfl
  | cons x xs ih =>
    unfold walkedTo
    rw [h x (.head _), ih fun y hy => h y (mem_cons_of_mem x hy)]

omit [DecidableEq α] in
theorem mem_of_walkedTo {f : α → Bool} {xs : List α} {y : α} (h : y ∈ walkedTo f xs) : y ∈ xs := by
  induction xs with
  | nil => exact h
  | cons x xs ih =>
    unfold walkedTo at h
    split at h
    · exact mem_cons.mpr (.inl (mem_singleton.mp h))
    · obtain rfl | h := mem_cons.mp h
      · exact (.head _)
      · exact mem_cons_of_mem x (ih h)

omit [DecidableEq α] in
theorem walkedTo_all_iff {f : α → Bool} {xs : List α} (hxs : xs.Nodup) :
    (∀ x ∈ xs, x ∈ walkedTo f xs) ↔ ∀ x ∈ xs.dropLast, f x = false := by
  induction xs with
  | nil => simp [walkedTo]
  | cons x xs ih =>
    obtain ⟨hx, hnodup⟩ := nodup_cons.mp hxs
    cases xs with
    | nil => by_cases hf : f x <;> simp [walkedTo, hf]
    | cons y ys =>
      have hy : y ≠ x := fun h => hx (h ▸ (.head _))
      rw [dropLast_cons_cons]
      unfold walkedTo
      split
      · next hf =>
        refine ⟨fun h => ?_, fun h => ?_⟩
        · exact absurd (mem_singleton.mp (h y (by simp))) hy
        · rw [h x (.head _)] at hf
          cases hf
      · next hf =>
        rw [Bool.not_eq_true] at hf
        refine ⟨fun h z hz => ?_, fun h z hz => ?_⟩
        · obtain rfl | hz := mem_cons.mp hz
          · exact hf
          · refine (ih hnodup).mp (fun u hu => ?_) z hz
            obtain rfl | hmem := mem_cons.mp (h u (mem_cons_of_mem x hu))
            · exact absurd hu hx
            · exact hmem
        · obtain rfl | hz := mem_cons.mp hz
          · exact (.head _)
          · exact mem_cons_of_mem x ((ih hnodup).mpr (fun u hu => h u (mem_cons_of_mem x hu)) z hz)

/-- What a pass along `xs` leaves: the visited streams were attempted, each with its own
result, and the others are untouched. -/
structure Walked (env : Env) (arp : ArpTable) (xs : List α)
    (m m' : ListManager α (ControlWorld α)) : Prop where
  attempted : m'.rest.world.attempted = m.rest.world.attempted ++ walkedTo (blocks arp m) xs
  log : ∀ j ∈ walkedTo (blocks arp m) xs, (conn (m'.rest.world.streams j)).log =
    if emits arp m j then loggedControl env (m.rest.world.streams j)
    else (conn (m.rest.world.streams j)).log
  others : ∀ j, j ∉ walkedTo (blocks arp m) xs →
    m'.rest.world.streams j = m.rest.world.streams j

section walk

variable {env : Env} {arp : ArpTable} {m m' : ListManager α (ControlWorld α)} {k : Nat}

omit [DecidableEq α] in
theorem prospects_eq {cur j : α} {ret : Int} (h : Attempt env arp cur m ret m') (hj : j ≠ cur) :
    blocks arp m' j = blocks arp m j ∧ emits arp m' j = emits arp m j := by
  unfold blocks emits reachesOutput resolved
  rw [h.others j hj, h.send, h.ack, h.daddr, h.isExternal]
  exact ⟨rfl, rfl⟩

omit [DecidableEq α] in
theorem Walked.stop {cur : α} {xs : List α} {ret : Int} (h : Attempt env arp cur m ret m')
    (hvisit : walkedTo (blocks arp m) xs = [cur]) : Walked env arp xs m m' := by
  refine ⟨by rw [hvisit, h.attempted], fun j hj => ?_, fun j hj => h.others j ?_⟩
  · rw [hvisit, mem_singleton] at hj
    rw [hj, h.log]
  · rwa [hvisit, mem_singleton] at hj

theorem Walked.step {cur : α} {xs : List α} {ret : Int} {m'' : ListManager α (ControlWorld α)}
    (h : Attempt env arp cur m ret m') (hcur : cur ∉ xs) (hgo : blocks arp m cur = false)
    (hw : Walked env arp xs m' m'') : Walked env arp (cur :: xs) m m'' := by
  have hvisit : walkedTo (blocks arp m') xs = walkedTo (blocks arp m) xs :=
    walkedTo_congr fun x hx => (prospects_eq h (by rintro rfl; exact hcur hx)).1
  have hcons : walkedTo (blocks arp m) (cur :: xs) = cur :: walkedTo (blocks arp m) xs :=
    if_neg (by simp [hgo])
  obtain ⟨hatt, hlog, hothers⟩ := hw
  rw [hvisit] at hatt hlog hothers
  refine ⟨?_, fun j hj => ?_, fun j hj => ?_⟩
  · rw [hatt, hcons, h.attempted, append_assoc]
    rfl
  · rw [hcons] at hj
    by_cases hjc : j = cur
    · rw [hothers j (by rw [hjc]; exact fun hmem => hcur (mem_of_walkedTo hmem)), hjc, h.log]
    · have hmem := (mem_cons.mp hj).resolve_left hjc
      rw [hlog j hmem, (prospects_eq h hjc).2, h.others j hjc]
  · rw [hcons, mem_cons, not_or] at hj
    rw [hothers j hj.2, h.others j hj.1]

omit [DecidableEq α] in
theorem Attempt.of_mapControl {cur : α} {ret : Int} {f : SenderLists α → SenderLists α}
    (h : Attempt env arp cur (mapControl f m) ret m') : Attempt env arp cur m ret m' :=
  ⟨h.send, h.ack, h.daddr, h.isExternal, h.others, h.room, h.attempted, h.stops, h.log⟩

omit [DecidableEq α] in
theorem Attempt.mapControl {cur : α} {ret : Int} (h : Attempt env arp cur m ret m')
    (f : SenderLists α → SenderLists α) : Attempt env arp cur m ret (mapControl f m') :=
  ⟨h.send, h.ack, h.daddr, h.isExternal, h.others, h.room, h.attempted, h.stops, h.log⟩

variable (env arp) in
/-- One round with the stream at the head of the list: an attempt, after which the stream is
at the head again, at the end or gone. -/
theorem controlRound_attempt {cur : α} {xs : List α} (hlist : m.rest.control.list k = cur :: xs)
    (hon : m.rest.control.on cur) (hroom : 0 < m.rest.world.room) :
    (∃ ret, Attempt env arp cur m ret (controlRound (attempt env arp) k cur m).2) ∧
    (controlRound (attempt env arp) k cur m).1 = !blocks arp m cur ∧
    (blocks arp m cur = false → ∃ back, back.Sublist [cur] ∧
      (controlRound (attempt env arp) k cur m).2.rest.control.list k = xs ++ back) ∧ ∀ j, j ≠ cur →
      (controlRound (attempt env arp) k cur m).2.rest.control.on j = m.rest.control.on j := by
  have hflag : (mapControl (fun l => (l.takeOff k cur).addCnt k (-1)) m).rest.control.on cur := hon
  unfold controlRound
  rw [if_pos hflag]
  generalize hu : mapControl (setOn cur false)
    (mapControl (fun l => (l.takeOff k cur).addCnt k (-1)) m) = u
  have hlistu : u.rest.control.list k = xs := by
    rw [← hu]
    change update m.rest.control.list k ((m.rest.control.list k).erase cur) k = xs
    rw [update_self, hlist, erase_cons_head]
  have honu : ∀ j, j ≠ cur → u.rest.control.on j = m.rest.control.on j := by
    intro j hj
    rw [← hu]
    exact update_of_ne hj _ _
  have hoff : (noteAttempt cur u).rest.control.on cur = false := by
    rw [← hu]
    exact update_self ..
  have hspec := attempt_spec env arp (i := cur) (m := u) (by rw [← hu]; exact hroom)
  have hatt : Attempt env arp cur m (attempt env arp cur u).1 (attempt env arp cur u).2 := by
    rw [← hu] at hspec ⊢
    exact hspec.of_mapControl.of_mapControl
  have hsame : (attempt env arp cur u).2.rest.control = u.rest.control :=
    sendControlPacket_control (controlOutput env arp) hoff
  generalize attempt env arp cur u = r at hatt hsame ⊢
  obtain ⟨ret, v⟩ := r
  dsimp only at hatt hsame ⊢
  rw [← hsame] at hlistu honu
  have hstops := hatt.stops
  by_cases hret : ret = -2
  · have hblock := hstops.mp hret
    rw [if_pos hret]
    dsimp only
    refine ⟨⟨ret, hatt.mapControl _⟩, by rw [hblock]; rfl, fun h => ?_, fun j hj => ?_⟩
    · rw [hblock] at h
      cases h
    · rw [← honu j hj]
      exact update_of_ne hj _ _
  · have hgo : blocks arp m cur = false := by
      rw [← Bool.not_eq_true]
      exact fun h => hret (hstops.mpr h)
    rw [if_neg hret]
    split
    · dsimp only
      refine ⟨⟨ret, hatt.mapControl _⟩, by rw [hgo]; rfl, fun _ => ⟨[cur], .refl _, ?_⟩,
        fun j hj => ?_⟩
      · change update v.rest.control.list k (v.rest.control.list k ++ [cur]) k = _
        rw [update_self, hlistu]
      · rw [← honu j hj]
        exact update_of_ne hj _ _
    · refine ⟨⟨ret, hatt⟩, by rw [hgo]; rfl, fun _ => ⟨[], nil_sublist _, ?_⟩, honu⟩
      rw [hlistu, append_nil]

theorem nextIn_head (cur y : α) (ys : List α) : nextIn (cur :: y :: ys) cur = some y := by
  exact if_pos rfl

/-- The whole pass: `xs` is still ahead, `back` has been put behind it. -/
theorem controlLoop_walked (xs back : List α) {cur : α} {fuel : Nat}
    (hlist : m.rest.control.list k = cur :: xs ++ back) (hnodup : (cur :: xs ++ back).Nodup)
    (hon : ∀ x ∈ cur :: xs, m.rest.control.on x) (hfuel : (cur :: xs).length ≤ fuel)
    (hroom : (cur :: xs).length ≤ m.rest.world.room) : Walked env arp (cur :: xs) m
      (controlLoop (attempt env arp) k (cur :: xs).getLast? fuel cur m) := by
  induction xs generalizing cur m back fuel with
  | nil =>
    obtain ⟨fuel, rfl⟩ : ∃ n, fuel = n + 1 := ⟨fuel - 1, by simp at hfuel; omega⟩
    obtain ⟨⟨ret, hatt⟩, -, -, -⟩ := controlRound_attempt env arp hlist
      (hon cur (.head _)) (by simp at hroom; omega)
    unfold controlLoop
    generalize controlRound (attempt env arp) k cur m = r at hatt ⊢
    obtain ⟨goes, u⟩ := r
    have hvisit : walkedTo (blocks arp m) [cur] = [cur] := by simp [walkedTo]
    cases goes with
    | false => exact Walked.stop hatt hvisit
    | true =>
      dsimp only
      unfold goOn
      rw [if_pos getLast?_singleton.symm]
      exact Walked.stop hatt hvisit
  | cons y ys ih =>
    obtain ⟨fuel, rfl⟩ : ∃ n, fuel = n + 1 := ⟨fuel - 1, by simp at hfuel; omega⟩
    obtain ⟨⟨ret, hatt⟩, hgoes, hback, hflags⟩ := controlRound_attempt env arp hlist
      (hon cur (.head _)) (by simp at hroom; omega)
    have hcur : cur ∉ y :: ys ++ back := (nodup_cons.mp hnodup).1
    have hnext : nextIn (m.rest.control.list k) cur = some y := by
      rw [hlist]
      exact nextIn_head cur y _
    unfold controlLoop
    rw [hnext]
    generalize controlRound (attempt env arp) k cur m = r at hatt hgoes hback hflags ⊢
    obtain ⟨goes, u⟩ := r
    dsimp only at hatt hgoes hback hflags
    cases hblock : blocks arp m cur with
    | true =>
      rw [hgoes, hblock]
      refine Walked.stop hatt ?_
      exact if_pos hblock
    | false =>
      obtain ⟨more, hmore, hrest⟩ := hback hblock
      rw [hgoes, hblock]
      have hlast : some cur ≠ (cur :: y :: ys).getLast? := by
        rw [getLast?_cons_cons]
        intro h
        exact hcur (mem_append_left back (mem_of_getLast? h.symm))
      change Walked env arp _ m (goOn _ _ cur _ u)
      unfold goOn
      rw [if_neg hlast, getLast?_cons_cons]
      refine Walked.step hatt (fun h => hcur (mem_append_left back h)) hblock ?_
      have hroomu := hatt.room
      refine ih (back ++ more) ?_ ?_ ?_ ?_ ?_
      · exact hrest.trans (append_assoc (y :: ys) back more)
      · rw [← append_assoc]
        refine List.Nodup.append hnodup.of_cons (hmore.nodup (nodup_singleton cur)) ?_
        intro z hz hz'
        rw [mem_singleton.mp (hmore.subset hz')] at hz
        exact hcur hz
      · intro z hz
        rw [hflags z (fun h => hcur (h ▸ mem_append_left back hz))]
        exact hon z (mem_cons_of_mem cur hz)
      · simp at hfuel ⊢
        omega
      · simp at hroom ⊢
        omega

variable (env arp) in
theorem controlListPass_walked {sender : α → Nat} {thresh : Int} (h : Agree sender m)
    (hthresh : (m.rest.control.list k).length ≤ thresh)
    (hroom : (m.rest.control.list k).length ≤ m.rest.world.room) :
    Walked env arp (m.rest.control.list k) (setWorld { m.rest.world with attempted := [] } m)
      (controlListPass env arp k thresh m) := by
  have hcnt := h.control.cnt k
  have hnodup := h.control.nodup k
  have hon : ∀ x ∈ m.rest.control.list k, m.rest.control.on x :=
    fun x hx => ((h.control.mem k x).mp hx).1
  have hlist : (setWorld { m.rest.world with attempted := [] } m).rest.control.list k =
      m.rest.control.list k := rfl
  have hcnt' : (setWorld { m.rest.world with attempted := [] } m).rest.control.cnt k =
      m.rest.control.cnt k := rfl
  unfold controlListPass writeTCPControlList
  rw [hlist, hcnt']
  generalize m.rest.control.list k = xs at hthresh hroom hcnt hnodup hon hlist ⊢
  cases xs with
  | nil => exact ⟨rfl, fun j hj => (nomatch hj), fun j _ => rfl⟩
  | cons cur xs =>
    refine controlLoop_walked xs [] ?_ ?_ hon ?_ hroom
    · rw [hlist, append_nil]
    · rwa [append_nil]
    · omega

/-- One pass reaches all listed streams just when no stream but the last is waiting for its
next hop, and the options of the packets that can go out fit into the MSS. -/
theorem control_pass_reaches_all_iff {sender : α → Nat} {thresh : Int} (h : Agree sender m)
    (hthresh : (m.rest.control.list k).length ≤ thresh)
    (hroom : (m.rest.control.list k).length ≤ m.rest.world.room) :
    PassReachesAll env arp k m (controlListPass env arp k thresh m) ↔
      (∀ i ∈ (m.rest.control.list k).dropLast, blocks arp m i = false) ∧
      ∀ i ∈ m.rest.control.list k, resolved arp m.rest.world i = true →
        m.rest.send.on i = false → m.rest.ack.on i = false →
        (m.rest.world.streams i).state ≠ .listen →
        optionsFit (m.rest.world.streams i) = true := by
  obtain ⟨hatt, hlog, -⟩ := controlListPass_walked env arp h hthresh hroom
  have hblocks : blocks arp (setWorld { m.rest.world with attempted := [] } m) = blocks arp m := rfl
  have hreach : ∀ i, m.rest.send.on i = false → m.rest.ack.on i = false →
      (m.rest.world.streams i).state ≠ .listen →
      reachesOutput m i = optionsFit (m.rest.world.streams i) := by
    intro i hs ha hl
    unfold reachesOutput
    cases hst : (m.rest.world.streams i).state <;> simp_all
  have hemits : emits arp (setWorld { m.rest.world with attempted := [] } m) = emits arp m := rfl
  rw [hblocks] at hatt hlog
  rw [hemits] at hlog
  have hall := walkedTo_all_iff (f := blocks arp m) (h.control.nodup k)
  unfold PassReachesAll
  rw [hatt]
  change (∀ i ∈ _, i ∈ [] ++ walkedTo _ _) ∧ _ ↔ _
  rw [List.nil_append, hall]
  refine and_congr_right fun hfree => ?_
  have hvisit := hall.mpr hfree
  refine forall₂_congr fun i hi => imp_congr_right fun hres => imp_congr_right fun hs =>
    imp_congr_right fun ha => imp_congr_right fun hl => ?_
  rw [hlog i (hvisit i hi)]
  unfold emits
  rw [hreach i hs ha hl, hres, Bool.and_true]
  cases hfit : optionsFit (m.rest.world.streams i) with
  | true => exact ⟨fun _ => rfl, fun _ => rfl⟩
  | false =>
    refine ⟨fun hbad => ?_, fun hbad => (nomatch hbad)⟩
    exact absurd hbad.symm (List.cons_ne_self _ _)

end walk

def twoConnects : ListManager Nat (ControlWorld Nat) :=
  ListManager.addtoControlList 1 (ListManager.addtoControlList 0 { rest := {
    sender := fun _ => 0
    world := {
      streams := fun _ => { state := .synSent, sndvar := { mss := 1460 } }
      daddr := fun i => if i = 0 then 167772161 else 167772162
      isExternal := fun _ => false
      room := 10 } } })

def learned (ip : UInt32) : ArpEntry where
  ip := ip
  prefixLen := 32
  ipMask := 4294967295
  ipMasked := ip
  haddr := [2, 0, 0, 0, 0, 1]

theorem twoConnects_agree : Agree (fun _ => 0) twoConnects :=
  ((agree_start (fun _ => 0) _).addtoControlList 0).addtoControlList 1

theorem control_pass_reaches_two :
    (twoConnects.rest.control.list 0).length ≤ (5 : Int) ∧
    PassReachesAll {} ⟨[learned 167772161, learned 167772162], none⟩ 0 twoConnects
      (controlListPass {} ⟨[learned 167772161, learned 167772162], none⟩ 0 5 twoConnects) :=
  ⟨by decide, (control_pass_reaches_all_iff twoConnects_agree (by decide) (by decide)).mpr
    ⟨by decide, by decide⟩⟩

/-- The first peer is not in the table: the pass ends with it, although the second peer is and
nine more packets have room. -/
theorem unresolved_hop_blocks_others :
    Agree (fun _ => 0) twoConnects ∧ twoConnects.rest.control.list 0 = [0, 1] ∧
    resolved ⟨[learned 167772162], none⟩ twoConnects.rest.world 1 = true ∧
    (controlListPass {} ⟨[learned 167772162], none⟩ 0 5 twoConnects).rest.world.attempted = [0] ∧
    (conn ((controlListPass {} ⟨[learned 167772162], none⟩ 0 5
      twoConnects).rest.world.streams 1)).log = [] ∧
    ¬ PassReachesAll {} ⟨[learned 167772162], none⟩ 0 twoConnects
      (controlListPass {} ⟨[learned 167772162], none⟩ 0 5 twoConnects) := by
  have hlist : twoConnects.rest.control.list 0 = [0, 1] := by decide
  have hatt : (controlListPass {} ⟨[learned 167772162], none⟩ 0 5
      twoConnects).rest.world.attempted = [0] := by decide
  refine ⟨twoConnects_agree, hlist, by decide, hatt, by decide, fun h => ?_⟩
  have hmem := h.1 1 (by rw [hlist]; decide)
  rw [hatt] at hmem
  exact absurd hmem (by decide)

end Mtcp
