import Mtcp.Machine
import Mtcp.Runs
import Mtcp.Stamps

namespace Mtcp

open Serial Runs Stamps List UInt32
open Function (update update_self update_of_ne update_idem)

variable {α : Type} [DecidableEq α]

/-- The timewait list and the timeout list of `struct mtcp_manager`, in their order, with the
streams. The last three fields are not in the source: the time of the last call, and when each
stream was last put on the timewait list and last active. -/
structure IdleLists (α : Type) where
  stream : α → TcpStream
  timewaitList : List α := []
  timeoutList : List α := []
  clock : Nat := 0
  entered : α → Nat := fun _ => 0
  active : α → Nat := fun _ => 0

def envAt (t : Nat) : Env := { curTs := UInt32.ofNat t }

namespace IdleLists

def addtoTimewaitList (cfg : Config) (t : Nat) (i : α) (m : IdleLists α) : IdleLists α :=
  { m with
    stream := Function.update m.stream i (Mtcp.addtoTimewaitList cfg (envAt t) (m.stream i))
    timewaitList :=
      if (m.stream i).onTimewaitList then m.timewaitList.erase i ++ [i] else m.timewaitList ++ [i]
    entered := Function.update m.entered i t }

/-- `TAILQ_REMOVE` where the flag is set. -/
def offTimewait (i : α) (m : IdleLists α) : List α :=
  if (m.stream i).onTimewaitList then m.timewaitList.erase i else m.timewaitList

def offTimeout (i : α) (m : IdleLists α) : List α :=
  if (m.stream i).onTimeoutList then m.timeoutList.erase i else m.timeoutList

def removeFromTimewaitList (i : α) (m : IdleLists α) : IdleLists α :=
  { m with
    stream := Function.update m.stream i (Mtcp.removeFromTimewaitList (m.stream i))
    timewaitList := m.offTimewait i }

def addtoTimeoutList (i : α) (m : IdleLists α) : IdleLists α :=
  { m with
    stream := Function.update m.stream i (Mtcp.addtoTimeoutList (m.stream i))
    timeoutList := if (m.stream i).onTimeoutList then m.timeoutList else m.timeoutList ++ [i] }

def removeFromTimeoutList (i : α) (m : IdleLists α) : IdleLists α :=
  { m with
    stream := Function.update m.stream i (Mtcp.removeFromTimeoutList (m.stream i))
    timeoutList := m.offTimeout i }

/-- `last_active_ts` is set and `UpdateTimeoutList` called: by `ProcessTCPPacket` for a segment
that is accepted, and by `SendTCPPacket` for one with an acknowledgement. -/
def noteActive (t : Nat) (i : α) (m : IdleLists α) : IdleLists α :=
  { m with
    stream := Function.update m.stream i
      (updateTimeoutList { m.stream i with lastActiveTs := UInt32.ofNat t })
    timeoutList :=
      if (m.stream i).onTimeoutList then m.timeoutList.erase i ++ [i] else m.timeoutList
    active := Function.update m.active i t }

/-- `AddtoTimeoutList` is only called by the handlers that complete a handshake, after
`ProcessTCPPacket` has noted the segment. -/
def completeHandshake (cfg : Config) (t : Nat) (i : α) (m : IdleLists α) : IdleLists α :=
  if 0 < cfg.tcpTimeout then (m.noteActive t i).addtoTimeoutList i else m.noteActive t i

def destroyTCPStream (cfg : Config) (i : α) (m : IdleLists α) : IdleLists α :=
  { m with
    stream := Function.update m.stream i (Mtcp.destroyTCPStream cfg (m.stream i))
    timewaitList := m.offTimewait i
    timeoutList := if 0 < cfg.tcpTimeout then m.offTimeout i else m.timeoutList }

/-- What `CheckTimewaitExpire` does to a stream before it is destroyed. -/
def closeTimewait (i : α) (m : IdleLists α) : IdleLists α :=
  { m with
    stream := Function.update m.stream i ({ m.stream i with
      onTimewaitList := false, state := .closed, closeReason := .activeClose }.unlink .timewait)
    timewaitList := m.timewaitList.erase i }

/-- The walk goes on past a stream without its flag. -/
def timewaitDue (t : Nat) (m : IdleLists α) (walk : α) : Bool :=
  !(m.stream walk).onTimewaitList ||
    decide (0 ≤ signed (UInt32.ofNat t - (m.stream walk).rcvvar.tsTwExpire))

def expireTimewait (cfg : Config) (m : IdleLists α) (walk : α) : IdleLists α :=
  if (m.stream walk).onTimewaitList && !(m.stream walk).sndvar.onControlList then
    (m.closeTimewait walk).destroyTCPStream cfg walk
  else m

def checkTimewaitExpire (cfg : Config) (t : Nat) (thresh : Int) (m : IdleLists α) : IdleLists α :=
  Stamps.scan thresh (timewaitDue t) (expireTimewait cfg) m.timewaitList 0 m

def closeTimedOut (i : α) (m : IdleLists α) : IdleLists α :=
  { m with
    stream := Function.update m.stream i ({ m.stream i with
      onTimeoutList := false, state := .closed, closeReason := .timedout }.unlink .timeout)
    timeoutList := m.timeoutList.erase i }

def timeoutDue (cfg : Config) (t : Nat) (m : IdleLists α) (walk : α) : Bool :=
  decide (cfg.tcpTimeout ≤ signed (UInt32.ofNat t - (m.stream walk).lastActiveTs))

def raiseError (i : α) (m : IdleLists α) : IdleLists α :=
  { m with stream := Function.update m.stream i (raiseEvent .error (m.stream i)) }

def expireTimeout (cfg : Config) (m : IdleLists α) (walk : α) : IdleLists α :=
  if (m.stream walk).socket.isSome then (m.closeTimedOut walk).raiseError walk
  else (m.closeTimedOut walk).destroyTCPStream cfg walk

def checkConnectionTimeout (cfg : Config) (t : Nat) (thresh : Int) (m : IdleLists α) :
    IdleLists α :=
  Stamps.scan thresh (timeoutDue cfg t) (expireTimeout cfg) m.timeoutList 0 m

/-! Runs. -/

structure TimerView where
  onTimewaitList : Bool
  onTimeoutList : Bool
  tsTwExpire : UInt32
  lastActiveTs : UInt32
  deriving DecidableEq

def timerView (s : TcpStream) : TimerView where
  onTimewaitList := s.onTimewaitList
  onTimeoutList := s.onTimeoutList
  tsTwExpire := s.rcvvar.tsTwExpire
  lastActiveTs := s.lastActiveTs

/-- The calls of the list functions, with the rest of the stack as changes that leave the flags
and the time stamps alone. -/
inductive Call (α : Type) where
  | addTimewait (i : α)
  | removeTimewait (i : α)
  | noteActive (i : α)
  | completeHandshake (i : α)
  | removeTimeout (i : α)
  | destroy (i : α)
  | other (i : α) (s : TcpStream)
  | checkTimewait (thresh : Int)
  | checkTimeout (thresh : Int)

def call (cfg : Config) (t : Nat) (m : IdleLists α) : Call α → IdleLists α
  | .addTimewait i => m.addtoTimewaitList cfg t i
  | .removeTimewait i => m.removeFromTimewaitList i
  | .noteActive i => m.noteActive t i
  | .completeHandshake i => m.completeHandshake cfg t i
  | .removeTimeout i => m.removeFromTimeoutList i
  | .destroy i => m.destroyTCPStream cfg i
  | .other i s =>
    if timerView s = timerView (m.stream i) then { m with stream := Function.update m.stream i s }
    else m
  | .checkTimewait thresh => m.checkTimewaitExpire cfg t thresh
  | .checkTimeout thresh => if 0 < cfg.tcpTimeout then m.checkConnectionTimeout cfg t thresh else m

def step (cfg : Config) (m : IdleLists α) (e : Nat × Call α) : IdleLists α :=
  { m.call cfg e.1 e.2 with clock := e.1 }

structure Empty (m : IdleLists α) : Prop where
  timewait : m.timewaitList = []
  timeout : m.timeoutList = []
  flags : ∀ i, (m.stream i).onTimewaitList = false ∧ (m.stream i).onTimeoutList = false

/-- The scan of the timewait list at `now` closes and destroys the streams whose time has come,
among the first `thresh` and unless they wait to send a control packet, and no other stream
changes. -/
def ExpiresExactly (cfg : Config) (now : Nat) (thresh : Int) (m : IdleLists α) : Prop :=
  ∀ i, (m.checkTimewaitExpire cfg now thresh).stream i =
    if i ∈ m.timewaitList.take thresh.toNat ∧ m.entered i + cfg.tcpTimewait.toNat ≤ now ∧
        (m.stream i).sndvar.onControlList = false then
      Mtcp.destroyTCPStream cfg ({ m.stream i with
        onTimewaitList := false, state := .closed, closeReason := .activeClose }.unlink .timewait)
    else m.stream i

/-- The scan of the timeout list closes the streams that have been idle too long, among the first
`thresh`; those with a socket are notified and the others destroyed. -/
def TimesOutExactly (cfg : Config) (now : Nat) (thresh : Int) (m : IdleLists α) : Prop :=
  ∀ i, (m.checkConnectionTimeout cfg now thresh).stream i =
    if i ∈ m.timeoutList.take thresh.toNat ∧ cfg.tcpTimeout ≤ (now : Int) - m.active i then
      raiseErrorOrDestroy cfg ({ m.stream i with
        onTimeoutList := false, state := .closed, closeReason := .timedout }.unlink .timeout)
    else m.stream i

/-! The invariant of one of the lists. -/

/-- The streams on the list are those with the flag, in the order of their stamps, which they carry
modulo 2^32. -/
structure Tracks (start now : Nat) (stamp : α → Nat) (l : List α) (stream : α → TcpStream)
    (on : TcpStream → Bool) (key : TcpStream → UInt32) (offset : UInt32) : Prop
    extends Ordered start now stamp l where
  mem : ∀ i, i ∈ l ↔ on (stream i) = true
  key : ∀ i ∈ l, key (stream i) = UInt32.ofNat (stamp i) + offset

namespace Tracks

variable {start now t : Nat} {stamp : α → Nat} {l : List α} {stream : α → TcpStream}
  {on : TcpStream → Bool} {key : TcpStream → UInt32} {offset : UInt32} {i : α} {s : TcpStream}

section

variable (h : Tracks start now stamp l stream on key offset)
include h

omit [DecidableEq α] in
theorem mono (ht : now ≤ t) : Tracks start t stamp l stream on key offset :=
  ⟨h.toOrdered.mono ht, h.mem, h.key⟩

theorem erase_of_off (hi : on (stream i) = false) : l.erase i = l := by
  apply erase_of_not_mem
  rw [h.mem, hi]
  decide

theorem keep (hon : on s = on (stream i)) (hkey : key s = key (stream i)) :
    Tracks start now stamp l (update stream i s) on key offset := by
  refine ⟨h.toOrdered, fun j => ?_, fun j hj => ?_⟩
  · by_cases hji : j = i
    · rw [hji, update_self, hon, h.mem]
    · rw [update_of_ne hji, h.mem]
  · by_cases hji : j = i
    · rw [hji, update_self, hkey, h.key i (hji ▸ hj)]
    · rw [update_of_ne hji, h.key j hj]

theorem tail (hstart : start ≤ t) (ht : now ≤ t) (hon : on s) (hkey : key s = ofNat t + offset) :
    Tracks start t (update stamp i t) (l.erase i ++ [i]) (update stream i s) on key offset := by
  refine ⟨h.toOrdered.toTail i hstart ht, fun j => ?_, fun j hj => ?_⟩
  · rw [mem_append, mem_singleton, h.nodup.mem_erase_iff]
    by_cases hji : j = i
    · simp [hji, hon]
    · simp [hji, h.mem]
  · by_cases hji : j = i
    · rw [hji, update_self, update_self, hkey]
    · have hold : j ∈ l := by
        obtain hl | hl := mem_append.mp hj
        · exact mem_of_mem_erase hl
        · exact absurd (mem_singleton.mp hl) hji
      rw [update_of_ne hji, update_of_ne hji, h.key j hold]

theorem drop (hon : on s = false) :
    Tracks start now stamp (l.erase i) (update stream i s) on key offset := by
  refine ⟨h.toOrdered.sublist erase_sublist, fun j => ?_, fun j hj => ?_⟩
  · rw [h.nodup.mem_erase_iff]
    by_cases hji : j = i
    · simp [hji, hon]
    · simp [hji, h.mem]
  · obtain ⟨hji, hold⟩ := h.nodup.mem_erase_iff.mp hj
    rw [update_of_ne hji, h.key j hold]

theorem restamp (hoff : on (stream i) = false) (hon : on s = false) (t : Nat) :
    Tracks start now (update stamp i t) l (update stream i s) on key offset := by
  have hnot : i ∉ l := by
    rw [h.mem, hoff]
    decide
  refine ⟨h.toOrdered.restamp hnot t, fun j => ?_, fun j hj => ?_⟩
  · by_cases hji : j = i
    · rw [hji, update_self, hon]
      exact iff_of_false hnot (by decide)
    · rw [update_of_ne hji, h.mem]
  · have hji : j ≠ i := by
      rintro rfl
      exact hnot hj
    rw [update_of_ne hji, update_of_ne hji, h.key j hj]

end

omit [DecidableEq α] in
/-- The stamps are less than half of the sequence space apart, so the order is that of the
serial comparison. -/
theorem sorted_serial (h : Tracks start now stamp l stream on key offset)
    (hspan : now < start + 2147483648) :
    l.Pairwise fun a b => leq (key (stream a)) (key (stream b)) := by
  refine h.sorted.imp_of_mem fun {a b} ha hb hab => ?_
  have hlow := (h.bounds a ha).1
  have hhigh := (h.bounds b hb).2
  rw [h.key a ha, h.key b hb]
  apply leq_of_fwd_lt
  have hdiff : fwd (ofNat (stamp a) + offset) (ofNat (stamp b) + offset) = stamp b - stamp a := by
    rw [fwd_eq, UInt32.toNat_add, UInt32.toNat_add, UInt32.toNat_ofNat', UInt32.toNat_ofNat']
    omega
  omega

end Tracks

variable {cfg : Config} {start now t : Nat} {m : IdleLists α} {i : α}

structure InOrder (cfg : Config) (start now : Nat) (m : IdleLists α) : Prop where
  timewait : Tracks start now m.entered m.timewaitList m.stream (·.onTimewaitList)
    (·.rcvvar.tsTwExpire) cfg.tcpTimewait
  timeout : Tracks start now m.active m.timeoutList m.stream (·.onTimeoutList) (·.lastActiveTs) 0

/-! Every call keeps it. -/

theorem timerView_destroyTCPStream (s : TcpStream) :
    timerView (Mtcp.destroyTCPStream cfg s) = { timerView s with
      onTimewaitList := false
      onTimeoutList := s.onTimeoutList && !decide (0 < cfg.tcpTimeout) } := by
  have hctl : ∀ w, timerView (removeFromControlList w) = timerView w := by
    intro w
    unfold removeFromControlList
    split <;> rfl
  have hsend : ∀ w, timerView (removeFromSendList w) = timerView w := by
    intro w
    unfold removeFromSendList
    split <;> rfl
  have hack : ∀ w, timerView (removeFromACKList w) = timerView w := by
    intro w
    unfold removeFromACKList
    split <;> rfl
  have hrto : ∀ w, timerView (if w.onRtoIdx ≥ 0 then removeFromRTOList w else w) = timerView w := by
    intro w
    unfold removeFromRTOList
    split_ifs <;> rfl
  have hwait : ∀ w, timerView (if w.onTimewaitList then Mtcp.removeFromTimewaitList w else w) =
      { timerView w with onTimewaitList := false } := by
    intro w
    unfold Mtcp.removeFromTimewaitList
    split
    · rfl
    · next hoff =>
      exact congrArg (fun b => TimerView.mk b _ _ _) (eq_false_of_ne_true hoff)
  have hout : ∀ w, timerView
      (if cfg.tcpTimeout > 0 then Mtcp.removeFromTimeoutList w else w) = { timerView w with
        onTimeoutList := (timerView w).onTimeoutList && !decide (0 < cfg.tcpTimeout) } := by
    intro w
    unfold Mtcp.removeFromTimeoutList timerView
    by_cases hlimit : 0 < cfg.tcpTimeout
    · rw [if_pos hlimit]
      cases hon : w.onTimeoutList <;> simp [hlimit, hon, TcpStream.unlink]
    · rw [if_neg hlimit]
      simp [hlimit]
  have htable : ∀ w,
      timerView (if w.onHashTable then w else w.abort .notOnHashTable) = timerView w := by
    intro w
    split <;> rfl
  refine (htable _).trans ((hout _).trans ?_)
  rw [hwait, hrto, hack, hsend, hctl]
  rfl

namespace InOrder

theorem offTimewait_eq (h : InOrder cfg start now m) :
    m.offTimewait i = m.timewaitList.erase i := by
  unfold offTimewait
  split
  · rfl
  · next hoff => exact (h.timewait.erase_of_off (eq_false_of_ne_true hoff)).symm

theorem offTimeout_eq (h : InOrder cfg start now m) : m.offTimeout i = m.timeoutList.erase i := by
  unfold offTimeout
  split
  · rfl
  · next hoff => exact (h.timeout.erase_of_off (eq_false_of_ne_true hoff)).symm

section

variable (h : InOrder cfg start now m)
include h

omit [DecidableEq α] in
theorem mono (ht : now ≤ t) : InOrder cfg start t m := ⟨h.timewait.mono ht, h.timeout.mono ht⟩

theorem addtoTimewaitList (hstart : start ≤ t) (ht : now ≤ t) :
    InOrder cfg start t (m.addtoTimewaitList cfg t i) := by
  have hview : timerView (Mtcp.addtoTimewaitList cfg (envAt t) (m.stream i)) =
      { timerView (m.stream i) with
        onTimewaitList := true
        tsTwExpire := ofNat t + cfg.tcpTimewait } := by
    unfold Mtcp.addtoTimewaitList Mtcp.removeFromRTOList
    dsimp only
    split_ifs with hon
    · exact congrArg (fun b => TimerView.mk b _ _ _) hon
    all_goals rfl
  refine ⟨?_, (h.timeout.keep (congrArg TimerView.onTimeoutList hview)
    (congrArg TimerView.lastActiveTs hview)).mono ht⟩
  have htail := h.timewait.tail (i := i) hstart ht (congrArg TimerView.onTimewaitList hview)
    (congrArg TimerView.tsTwExpire hview)
  unfold IdleLists.addtoTimewaitList
  split
  · exact htail
  · next hoff =>
    rw [h.timewait.erase_of_off (eq_false_of_ne_true hoff)] at htail
    exact htail

theorem removeFromTimewaitList : InOrder cfg start now (m.removeFromTimewaitList i) := by
  have hview : timerView (Mtcp.removeFromTimewaitList (m.stream i)) =
      { timerView (m.stream i) with onTimewaitList := false } := by
    unfold Mtcp.removeFromTimewaitList
    split
    · rfl
    · next hoff =>
      exact congrArg (fun b => TimerView.mk b _ _ _) (eq_false_of_ne_true hoff)
  refine ⟨?_, h.timeout.keep (congrArg TimerView.onTimeoutList hview)
    (congrArg TimerView.lastActiveTs hview)⟩
  unfold IdleLists.removeFromTimewaitList
  rw [h.offTimewait_eq]
  exact h.timewait.drop (congrArg TimerView.onTimewaitList hview)

theorem removeFromTimeoutList : InOrder cfg start now (m.removeFromTimeoutList i) := by
  have hview : timerView (Mtcp.removeFromTimeoutList (m.stream i)) =
      { timerView (m.stream i) with onTimeoutList := false } := by
    unfold Mtcp.removeFromTimeoutList
    split
    · rfl
    · next hoff =>
      exact congrArg (fun b => TimerView.mk _ b _ _) (eq_false_of_ne_true hoff)
  refine ⟨h.timewait.keep (congrArg TimerView.onTimewaitList hview)
    (congrArg TimerView.tsTwExpire hview), ?_⟩
  unfold IdleLists.removeFromTimeoutList
  rw [h.offTimeout_eq]
  exact h.timeout.drop (congrArg TimerView.onTimeoutList hview)

theorem noteActive (hstart : start ≤ t) (ht : now ≤ t) :
    InOrder cfg start t (m.noteActive t i) := by
  have hview : timerView (updateTimeoutList { m.stream i with lastActiveTs := ofNat t }) =
      { timerView (m.stream i) with lastActiveTs := ofNat t } := by
    unfold updateTimeoutList
    split <;> rfl
  refine ⟨(h.timewait.keep (congrArg TimerView.onTimewaitList hview)
    (congrArg TimerView.tsTwExpire hview)).mono ht, ?_⟩
  unfold IdleLists.noteActive
  split
  · next hon =>
    exact h.timeout.tail hstart ht ((congrArg TimerView.onTimeoutList hview).trans hon)
      ((congrArg TimerView.lastActiveTs hview).trans (UInt32.add_zero _).symm)
  · next hoff =>
    have hoff := eq_false_of_ne_true hoff
    exact (h.timeout.restamp hoff ((congrArg TimerView.onTimeoutList hview).trans hoff) t).mono ht

/-- The stream was noted at the same time, so it may go to the tail. -/
theorem completeHandshake (hstart : start ≤ t) (ht : now ≤ t) :
    InOrder cfg start t (m.completeHandshake cfg t i) := by
  have hnoted := h.noteActive (i := i) hstart ht
  unfold IdleLists.completeHandshake
  split
  · have hview : timerView (Mtcp.addtoTimeoutList ((m.noteActive t i).stream i)) =
        { timerView ((m.noteActive t i).stream i) with onTimeoutList := true } := by
      unfold Mtcp.addtoTimeoutList
      split
      · next hon =>
        exact congrArg (fun b => TimerView.mk _ b _ _) hon
      · rfl
    refine ⟨hnoted.timewait.keep (congrArg TimerView.onTimewaitList hview)
      (congrArg TimerView.tsTwExpire hview), ?_⟩
    have hstamped : ((m.noteActive t i).stream i).lastActiveTs = ofNat t := by
      unfold IdleLists.noteActive updateTimeoutList
      dsimp only
      rw [update_self]
      split <;> rfl
    have htail := hnoted.timeout.tail (i := i) hstart (le_refl t)
      (congrArg TimerView.onTimeoutList hview)
      (((congrArg TimerView.lastActiveTs hview).trans hstamped).trans (UInt32.add_zero _).symm)
    have hactive : update (m.noteActive t i).active i t = (m.noteActive t i).active :=
      update_idem _ _ _
    rw [hactive] at htail
    unfold IdleLists.addtoTimeoutList
    split
    · next hon =>
      exact hnoted.timeout.keep ((congrArg TimerView.onTimeoutList hview).trans hon.symm)
        (congrArg TimerView.lastActiveTs hview)
    · next hoff =>
      rw [hnoted.timeout.erase_of_off (eq_false_of_ne_true hoff)] at htail
      exact htail
  · exact hnoted

theorem destroyTCPStream : InOrder cfg start now (m.destroyTCPStream cfg i) := by
  have hview : timerView (Mtcp.destroyTCPStream cfg (m.stream i)) = { timerView (m.stream i) with
        onTimewaitList := false
        onTimeoutList := (m.stream i).onTimeoutList && !decide (0 < cfg.tcpTimeout) } :=
    timerView_destroyTCPStream (m.stream i)
  constructor
  · have hdrop := h.timewait.drop (i := i) (congrArg TimerView.onTimewaitList hview)
    unfold IdleLists.destroyTCPStream
    rw [h.offTimewait_eq]
    exact hdrop
  · unfold IdleLists.destroyTCPStream
    by_cases hlimit : 0 < cfg.tcpTimeout
    · rw [if_pos hlimit, h.offTimeout_eq]
      refine h.timeout.drop ((congrArg TimerView.onTimeoutList hview).trans ?_)
      simp [hlimit]
    · rw [if_neg hlimit]
      refine h.timeout.keep ((congrArg TimerView.onTimeoutList hview).trans ?_)
        (congrArg TimerView.lastActiveTs hview)
      simp [hlimit]

theorem update {s : TcpStream} (hs : timerView s = timerView (m.stream i)) :
    InOrder cfg start now { m with stream := update m.stream i s } :=
  ⟨h.timewait.keep (congrArg TimerView.onTimewaitList hs) (congrArg TimerView.tsTwExpire hs),
    h.timeout.keep (congrArg TimerView.onTimeoutList hs) (congrArg TimerView.lastActiveTs hs)⟩

theorem expireTimewait : InOrder cfg start now (m.expireTimewait cfg i) := by
  unfold IdleLists.expireTimewait
  split
  · apply InOrder.destroyTCPStream
    exact ⟨h.timewait.drop rfl, h.timeout.keep rfl rfl⟩
  · exact h

theorem expireTimeout : InOrder cfg start now (m.expireTimeout cfg i) := by
  have hclosed : InOrder cfg start now (m.closeTimedOut i) :=
    ⟨h.timewait.keep rfl rfl, h.timeout.drop rfl⟩
  unfold IdleLists.expireTimeout
  split
  · exact hclosed.update rfl
  · exact hclosed.destroyTCPStream

theorem call (hstart : start ≤ t) (ht : now ≤ t) (c : Call α) :
    InOrder cfg start t (m.call cfg t c) := by
  cases c with
  | addTimewait i => exact h.addtoTimewaitList hstart ht
  | removeTimewait i => exact h.removeFromTimewaitList.mono ht
  | noteActive i => exact h.noteActive hstart ht
  | completeHandshake i => exact h.completeHandshake hstart ht
  | removeTimeout i => exact h.removeFromTimeoutList.mono ht
  | destroy i => exact h.destroyTCPStream.mono ht
  | other i s =>
    unfold IdleLists.call
    dsimp only
    split
    · next hs => exact (h.update hs).mono ht
    · exact h.mono ht
  | checkTimewait thresh =>
    exact scan_rule (fun _ _ h => h.expireTimewait) _ _ (h.mono ht)
  | checkTimeout thresh =>
    unfold IdleLists.call
    dsimp only
    split
    · exact scan_rule (fun _ _ h => h.expireTimeout) _ _ (h.mono ht)
    · exact h.mono ht

end

/-! What is due. -/

omit [DecidableEq α] in
theorem timewaitDue_iff (h : InOrder cfg start now m) (htw : cfg.tcpTimewait.toNat < 2147483648)
    (ht : now ≤ t) (hspan : t < start + 2147483648) (hi : i ∈ m.timewaitList) :
    m.timewaitDue t i ↔ m.entered i + cfg.tcpTimewait.toNat ≤ t := by
  obtain ⟨hlow, hhigh⟩ := h.timewait.bounds i hi
  have hon : (m.stream i).onTimewaitList := (h.timewait.mem i).mp hi
  have hkey : (m.stream i).rcvvar.tsTwExpire = ofNat (m.entered i + cfg.tcpTimewait.toNat) := by
    refine (h.timewait.key i hi).trans ?_
    rw [UInt32.ofNat_add, UInt32.ofNat_toNat]
  unfold timewaitDue
  rw [hon, hkey, signed_ofNat_sub (by omega) (by omega)]
  simp only [Bool.not_true, Bool.false_or, decide_eq_true_eq]
  omega

omit [DecidableEq α] in
theorem timeoutDue_iff (h : InOrder cfg start now m) (ht : now ≤ t)
    (hspan : t < start + 2147483648) (hi : i ∈ m.timeoutList) :
    m.timeoutDue cfg t i ↔ cfg.tcpTimeout ≤ (t : Int) - m.active i := by
  obtain ⟨hlow, hhigh⟩ := h.timeout.bounds i hi
  have hkey : (m.stream i).lastActiveTs = ofNat (m.active i) :=
    (h.timeout.key i hi).trans (UInt32.add_zero _)
  unfold timeoutDue
  rw [hkey, signed_ofNat_sub (by omega) (by omega), decide_eq_true_eq]

/-! The scans. -/

def expireStream (cfg : Config) (s : TcpStream) : TcpStream :=
  if s.onTimewaitList && !s.sndvar.onControlList then
    Mtcp.destroyTCPStream cfg ({ s with
      onTimewaitList := false, state := .closed, closeReason := .activeClose }.unlink .timewait)
  else s

def timeOutStream (cfg : Config) (s : TcpStream) : TcpStream :=
  raiseErrorOrDestroy cfg ({ s with
    onTimeoutList := false, state := .closed, closeReason := .timedout }.unlink .timeout)

theorem expireTimewait_stream (m : IdleLists α) (a b : α) : (m.expireTimewait cfg a).stream b =
      if b = a then expireStream cfg (m.stream a) else m.stream b := by
  unfold IdleLists.expireTimewait expireStream
  by_cases hba : b = a
  · subst hba
    rw [if_pos rfl]
    split
    · simp [IdleLists.destroyTCPStream, IdleLists.closeTimewait]
    · rfl
  · rw [if_neg hba]
    split
    · simp [IdleLists.destroyTCPStream, IdleLists.closeTimewait, hba]
    · rfl

theorem expireTimeout_stream (m : IdleLists α) (a b : α) : (m.expireTimeout cfg a).stream b =
      if b = a then timeOutStream cfg (m.stream a) else m.stream b := by
  unfold IdleLists.expireTimeout timeOutStream raiseErrorOrDestroy
  by_cases hba : b = a
  · subst hba
    rw [if_pos rfl]
    split
    · next hsock =>
      rw [if_pos (by exact hsock)]
      simp [IdleLists.raiseError, IdleLists.closeTimedOut]
    · next hsock =>
      rw [if_neg (by exact hsock)]
      simp [IdleLists.destroyTCPStream, IdleLists.closeTimedOut]
  · rw [if_neg hba]
    split
    · simp [IdleLists.raiseError, IdleLists.closeTimedOut, hba]
    · simp [IdleLists.destroyTCPStream, IdleLists.closeTimedOut, hba]

section scans

variable (thresh : Int) {due : IdleLists α → α → Bool} {serve : IdleLists α → α → IdleLists α}
  {g : TcpStream → TcpStream} {stamp : α → Nat} {l : List α}

/-- What a scan makes of each stream: the walk to the first that is not due has met all that
are. -/
theorem scan_stream
    (hserve : ∀ m a b, (serve m a).stream b = if b = a then g (m.stream a) else m.stream b)
    (hother : ∀ m a b, a ≠ b → due (serve m a) b = due m b) (hl : Ordered start now stamp l)
    (hdown : ∀ a ∈ l, ∀ b ∈ l, stamp a ≤ stamp b → due m b → due m a) :
    (Stamps.scan thresh due serve l 0 m).stream i =
      if i ∈ l.take thresh.toNat ∧ due m i then g (m.stream i) else m.stream i := by
  have htake := hl.sublist (take_sublist thresh.toNat l)
  have hsub : ∀ a, a ∈ l.take thresh.toNat → a ∈ l := fun a ha => mem_of_mem_take ha
  have hmet := @mem_takeWhile_iff α stamp (l.take thresh.toNat) (due m) htake.sorted
    (fun a ha b hb => hdown a (hsub a ha) b (hsub b hb)) i
  have hfold := @foldl_view α (IdleLists α) TcpStream _ serve IdleLists.stream g hserve
    ((l.take thresh.toNat).takeWhile (due m)) (htake.nodup.sublist (takeWhile_sublist _)) m i
  rw [scan_eq_foldl hother hl.nodup, Int.sub_zero]
  exact hfold.trans (if_congr hmet rfl rfl)

end scans

theorem expiresExactly (h : InOrder cfg start now m) (htw : cfg.tcpTimewait.toNat < 2147483648)
    (ht : now ≤ t) (hspan : t < start + 2147483648) (thresh : Int) :
    ExpiresExactly cfg t thresh m := by
  intro i
  have hdue := fun j hj => h.timewaitDue_iff (i := j) htw ht hspan hj
  have hother : ∀ (m : IdleLists α) a b, a ≠ b →
      (m.expireTimewait cfg a).timewaitDue t b = m.timewaitDue t b := by
    intro m a b hab
    unfold timewaitDue
    rw [expireTimewait_stream, if_neg (Ne.symm hab)]
  have hscan := scan_stream (i := i) thresh expireTimewait_stream hother
    h.timewait.toOrdered fun a ha b hb hab hb' =>
      (hdue a ha).mpr ((Nat.add_le_add_right hab _).trans ((hdue b hb).mp hb'))
  refine hscan.trans ?_
  by_cases hmem : i ∈ m.timewaitList.take thresh.toNat
  · have hin : i ∈ m.timewaitList := mem_of_mem_take hmem
    have hon : (m.stream i).onTimewaitList := (h.timewait.mem i).mp hin
    unfold expireStream
    rw [hon, if_congr (and_congr_right fun _ => hdue i hin) rfl rfl]
    cases (m.stream i).sndvar.onControlList with
    | true => simp
    | false => simp [hmem]
  · simp [hmem]

theorem timesOutExactly (h : InOrder cfg start now m) (ht : now ≤ t)
    (hspan : t < start + 2147483648) (thresh : Int) : TimesOutExactly cfg t thresh m := by
  intro i
  have hdue := fun j hj => h.timeoutDue_iff (i := j) ht hspan hj
  have hother : ∀ (m : IdleLists α) a b, a ≠ b →
      (m.expireTimeout cfg a).timeoutDue cfg t b = m.timeoutDue cfg t b := by
    intro m a b hab
    unfold timeoutDue
    rw [expireTimeout_stream, if_neg (Ne.symm hab)]
  have hscan := scan_stream (i := i) thresh expireTimeout_stream hother
    h.timeout.toOrdered fun a ha b hb hab hb' => by
      have hlater := (hdue b hb).mp hb'
      refine (hdue a ha).mpr ?_
      omega
  refine hscan.trans (if_congr (and_congr_right fun hmem => ?_) rfl rfl)
  exact hdue i (mem_of_mem_take hmem)

end InOrder

omit [DecidableEq α] in
theorem Empty.inOrder (h : m.Empty) : InOrder cfg m.clock m.clock m := by
  have hoff : ∀ {on : TcpStream → Bool}, (∀ i, on (m.stream i) = false) →
      ∀ i, i ∈ ([] : List α) ↔ on (m.stream i) := by
    intro on hon i
    rw [hon i]
    exact iff_of_false (not_mem_nil) (by decide)
  refine ⟨?_, ?_⟩
  · rw [h.timewait]
    exact ⟨.nil, hoff fun i => (h.flags i).1, nofun⟩
  · rw [h.timeout]
    exact ⟨.nil, hoff fun i => (h.flags i).2, nofun⟩

/-- Under a clock that does not run backwards, both lists are in the order of their times and the
scans find exactly the streams whose time has come. -/
theorem scans_find_expired (cfg : Config) (htw : cfg.tcpTimewait.toNat < 2147483648)
    (m : IdleLists α) (hm : m.Empty) (es : List (Nat × Call α))
    (ha : Along (step cfg) (fun m e => m.clock ≤ e.1) m es) (now : Nat)
    (hnow : (es.foldl (step cfg) m).clock ≤ now) (hspan : now < m.clock + 2147483648)
    (thresh : Int) :
    let r := es.foldl (step cfg) m
    (r.timewaitList.Pairwise fun a b =>
        leq (r.stream a).rcvvar.tsTwExpire (r.stream b).rcvvar.tsTwExpire = true) ∧
      (r.timeoutList.Pairwise fun a b =>
        leq (r.stream a).lastActiveTs (r.stream b).lastActiveTs = true) ∧
      (∀ i, (i ∈ r.timewaitList ↔ (r.stream i).onTimewaitList = true) ∧
        (i ∈ r.timeoutList ↔ (r.stream i).onTimeoutList = true)) ∧
      ExpiresExactly cfg now thresh r ∧ TimesOutExactly cfg now thresh r := by
  have hstep : ∀ (u : IdleLists α) (e : Nat × Call α),
      (m.clock ≤ u.clock ∧ InOrder cfg m.clock u.clock u) → u.clock ≤ e.1 →
      m.clock ≤ (step cfg u e).clock ∧ InOrder cfg m.clock (step cfg u e).clock (step cfg u e) := by
    rintro u e ⟨hstart, hu⟩ hclock
    have hcall := hu.call (hstart.trans hclock) hclock e.2
    exact ⟨hstart.trans hclock, hcall.timewait, hcall.timeout⟩
  obtain ⟨hstart, hr⟩ := foldl_invariant hstep ⟨le_refl _, hm.inOrder⟩ ha
  generalize es.foldl (step cfg) m = r at hnow hstart hr ⊢
  exact ⟨hr.timewait.sorted_serial (by omega), hr.timeout.sorted_serial (by omega),
    fun i => ⟨hr.timewait.mem i, hr.timeout.mem i⟩, hr.expiresExactly htw hnow hspan thresh,
    hr.timesOutExactly hnow hspan thresh⟩

def limits : Config := { Config.small with tcpTimeout := 20, tcpTimewait := 10 }

def twoStreams : List (Nat × Call Nat) :=
  [(5, .completeHandshake 0), (6, .completeHandshake 1), (9, .noteActive 0), (30, .addTimewait 0),
    (33, .addTimewait 1)]

def fresh : IdleLists Nat := { stream := fun _ => {} }

theorem scans_find_expired_first :
    ((twoStreams.foldl (step limits) fresh).checkTimewaitExpire limits 41 100).timewaitList = [1] ∧
      ExpiresExactly limits 41 100 (twoStreams.foldl (step limits) fresh) ∧
      TimesOutExactly limits 41 100 (twoStreams.foldl (step limits) fresh) := by
  have hscans := scans_find_expired limits (by decide) fresh ⟨rfl, rfl, fun _ => ⟨rfl, rfl⟩⟩
    twoStreams (by decide +kernel) 41 (by decide +kernel) (by decide) 100
  exact ⟨by decide +kernel, hscans.2.2.2⟩

end IdleLists

end Mtcp
