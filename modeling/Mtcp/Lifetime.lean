import Mtcp.Reclaim

namespace Mtcp

open Serial Runs Bool

variable {cfg : Config}

/-! Which events destroy a stream, and what holds it then. -/

def TcpStream.destructions (s : TcpStream) : Nat := s.trace.count .destroy

def destroying (cfg : Config) (s : TcpStream) (e : Env × Action) : Bool :=
  match e.2 with
  | .rx seg => packetDestroys e.1 seg s cfg
  | .rtm => rtoExpired e.1 s && rtoDestroys s
  | .timewait =>
    s.onTimewaitList && decide (0 ≤ signed (e.1.curTs - s.rcvvar.tsTwExpire)) &&
      !s.sndvar.onControlList
  | .timeout => timesOut cfg e.1 s && s.socket.isNone
  | .dequeue .closeq => decide (0 < s.occ .closeq) && s.haveReset && s.state != .closed
  | .dequeue .resetq => decide (0 < s.occ .resetq) && s.haveReset && s.state != .closed
  | .dequeue .destroyq => decide (0 < s.occ .destroyq)
  | .controlPass room => decide (0 < s.occ .control) && controlDestroys { s with txRoom := room }
  | _ => false

def TcpStream.served (s : TcpStream) : Action → TcpStream
  | .dequeue q => s.unlink q
  | _ => s

/-- A request of the application, or a connection it has yet to accept. -/
def TcpStream.waiting (s : TcpStream) : Bool :=
  [.connectq, .sendq, .ackq, .closeq, .closeqInt, .resetq, .resetqInt, .destroyq, .acceptq].any
    fun q => decide (0 < s.occ q)

def Action.call : Action → Bool
  | .write _ | .recv _ _ _ | .close | .abort => true
  | _ => false

/-- A stream is destroyed only after its last request, and no call reaches it afterwards:
`DestroyTCPStream` looks at no queue. -/
def orderlyEnd (cfg : Config) (s : TcpStream) (e : Env × Action) : Bool :=
  if s.onHashTable then !destroying cfg s e || !(s.served e.2).waiting
  else !s.attached || !e.2.call

/-- Created and not yet destroyed, or destroyed once and on no list. -/
def Lasting (s : TcpStream) : Prop :=
  if s.onHashTable then s.destructions = 0 else s.destructions = 1 ∧ ∀ l, s.occ l = 0

/-! What one event does to a stream that exists. -/

structure Spared (s t : TcpStream) : Prop where
  alive : t.onHashTable = s.onHashTable
  destructions : t.destructions = s.destructions

def SparedUnless (cfg : Config) (e : Env × Action) (s t : TcpStream) : Prop :=
  Spared s t ∨ destroying cfg s e = true ∧ Destroyed cfg (s.served e.2) t

theorem Spared.refl (s : TcpStream) : Spared s s := ⟨rfl, rfl⟩

theorem MoreTies.spared {s t : TcpStream} (h : MoreTies cfg s t) : Spared s t :=
  ⟨h.alive, h.destroys⟩

theorem Path.spared {ks : List Change} {s t : TcpStream} (h : Path ks s t)
    (hks : .destroy ∉ ks) : Spared s t := by
  refine h.rule Spared.refl (fun h h' => ⟨h'.alive.trans h.alive,
    h'.destructions.trans h.destructions⟩) fun hk hstep => ?_
  cases hstep with
  | note e hquiet =>
    refine ⟨rfl, List.count_cons_of_ne ?_⟩
    rintro rfl
    cases hquiet
  | destroy => exact absurd hk hks
  | _ => exact ⟨rfl, rfl⟩

section events

variable {s : TcpStream}

theorem TiesUnless.spared {reason : Prop} {e : Env × Action} {t : TcpStream}
    (h : TiesUnless cfg reason (s.served e.2) t) (hreason : reason → destroying cfg s e) :
    SparedUnless cfg e s t := by
  obtain h | ⟨hr, h⟩ := h
  · refine .inl ?_
    have hspared := h.spared
    obtain ⟨env, a⟩ := e
    cases a <;> exact ⟨hspared.alive, hspared.destructions⟩
  · exact .inr ⟨hreason hr, h⟩

theorem dequeue_spared (env : Env) (q : StreamList) :
    SparedUnless cfg (env, .dequeue q) s (dequeue cfg q s) := by
  by_cases hocc : s.occ q = 0
  · unfold dequeue
    rw [if_pos hocc]
    exact .inl (.refl s)
  · have hpos : 0 < s.occ q := Nat.pos_of_ne_zero hocc
    have hkeep : ∀ {u t : TcpStream}, Spared u t → u.onHashTable = s.onHashTable →
        u.destructions = s.destructions → SparedUnless cfg (env, .dequeue q) s t :=
      fun ht halive hcount => .inl ⟨ht.alive.trans halive, ht.destructions.trans hcount⟩
    unfold dequeue
    rw [if_neg hocc]
    cases q with
    | connectq => exact hkeep ((addtoControlList_path _).spared (by decide)) rfl rfl
    | sendq => exact hkeep ((addtoSendList_path _).spared (by decide)) rfl rfl
    | ackq => exact hkeep ((enqueueACK_path _ _).spared (by decide)) rfl rfl
    | closeqInt => exact hkeep ((handleCloseInt_path _).spared (by decide)) rfl rfl
    | resetqInt => exact hkeep ((handleResetInt_path _).spared (by decide)) rfl rfl
    | closeq =>
      refine (handleClose_ties _).spared fun ⟨hreset, hne⟩ => ?_
      have hreset' : s.haveReset := hreset
      have hne' : s.state ≠ .closed := hne
      simp [destroying, hpos, hreset', hne']
    | resetq =>
      refine (handleReset_ties _).spared fun ⟨hreset, hne⟩ => ?_
      have hreset' : s.haveReset := hreset
      have hne' : s.state ≠ .closed := hne
      simp [destroying, hpos, hreset', hne']
    | destroyq => exact .inr ⟨decide_eq_true hpos, destroyTCPStream_destroyed _⟩
    | _ => exact .inl ⟨rfl, rfl⟩

theorem act_spared (env : Env) (a : Action) : SparedUnless cfg (env, a) s (act cfg env s a) := by
  have hstay : SparedUnless cfg (env, a) s s := .inl (.refl s)
  have hroom : ∀ {room : Nat} {t : TcpStream}, Spared { s with txRoom := room } t →
      SparedUnless cfg (env, a) s t := fun h => .inl ⟨h.alive, h.destructions⟩
  cases a with
  | rx seg =>
    dsimp only [act]
    split
    · exact (processTCPPacket_ties env seg s).spared id
    · exact hstay
  | rtm =>
    refine (checkRtmTimeout_ties env s).spared fun ⟨hexp, hd⟩ => ?_
    simp only [destroying, hexp, hd, Bool.and_self]
  | rearrange => exact .inl ((rearrangeRTOStore_path env s).spared (by decide))
  | timewait =>
    refine (checkTimewaitExpire_ties env s).spared fun ⟨hon, hexp, hoff⟩ => ?_
    simp [destroying, hon, hexp, hoff]
  | timeout =>
    dsimp only [act]
    split
    · refine (checkConnectionTimeout_ties env s).spared fun ⟨hon, hexp, hnone⟩ => ?_
      simp [destroying, timesOut, hon, hexp, hnone]
    · exact hstay
  | dequeue q => exact dequeue_spared env q
  | controlPass room =>
    dsimp only [act]
    split
    · next hocc =>
      have hsame : SameTies cfg s { s with txRoom := room } := .of_eq rfl
      refine ((writeTCPControl_ties env _).after hsame).spared fun hd => ?_
      simp only [destroying, hocc, hd, decide_true, Bool.and_self]
    · exact hstay
  | dataPass room =>
    dsimp only [act]
    split
    · exact hroom ((writeTCPData_path env _).spared (by decide))
    · exact hstay
  | ackPass room =>
    dsimp only [act]
    split
    · exact hroom ((writeTCPACK_path env _).spared (by decide))
    · exact hstay
  | accept sock =>
    dsimp only [act]
    split
    · exact .inl ((mtcpAccept_path s sock).spared (by decide))
    · exact hstay
  | write bytes =>
    dsimp only [act]
    split
    · exact .inl ((mtcpWrite_path cfg env s bytes).spared (by decide))
    · exact hstay
  | recv nonblock peek len =>
    dsimp only [act]
    split
    · exact .inl ((mtcpRecv_path s nonblock peek len).spared (by decide))
    · exact hstay
  | close =>
    dsimp only [act]
    split
    · exact .inl ((mtcpClose_path s).spared (by decide))
    · exact hstay
  | abort =>
    dsimp only [act]
    split
    · exact .inl ((mtcpAbort_path s).spared (by decide))
    · exact hstay

/-! Nothing serves a stream that is on no list. -/

theorem occ_of_not_waiting (h : s.waiting = false) {q : StreamList} (hq : q.queue) :
    s.occ q = 0 := by
  simp only [TcpStream.waiting, List.any_cons, List.any_nil, Bool.or_false,
    or_eq_false_iff, decide_eq_false_iff_not, not_lt, Nat.le_zero] at h
  cases q <;> simp_all [StreamList.queue]

theorem act_gone (env : Env) (a : Action) (hl : Listed cfg s) (hgone : s.onHashTable = false)
    (hocc : ∀ l, s.occ l = 0) (hcall : (!s.attached || !a.call)) : act cfg env s a = s := by
  have hflag : ∀ l, l.queue = false → s.flag l = false := by
    intro l hq
    have hzero : s.occ l = (s.flag l).toNat := hl.agrees l hq
    rw [hocc l] at hzero
    cases hf : s.flag l with
    | false => rfl
    | true =>
      rw [hf] at hzero
      cases hzero
  have hwheel : s.onRtoIdx < 0 := (onWheel_eq_false_iff _).mp (hflag .rto rfl)
  have hoff : ∀ l, ¬ 0 < s.occ l := fun l => (hocc l).not_gt
  have hfree : a.call → s.attached = false := by
    intro hc
    simpa [hc] using hcall
  cases a with
  | rx seg => exact if_neg (by rw [hgone]; exact false_ne_true)
  | rtm | rearrange =>
    refine if_neg ?_
    rintro ⟨hidx, -⟩
    omega
  | timewait =>
    refine if_neg ?_
    rintro ⟨hon, -⟩
    exact absurd hon (by rw [show s.onTimewaitList = false from hflag .timewait rfl]; decide)
  | timeout =>
    dsimp only [act]
    split
    · refine if_neg ?_
      rintro ⟨hon, -⟩
      exact absurd hon (by rw [show s.onTimeoutList = false from hflag .timeout rfl]; decide)
    · rfl
  | dequeue q => exact if_pos (hocc q)
  | controlPass room => exact if_neg (hoff .control)
  | dataPass room => exact if_neg (hoff .send)
  | ackPass room => exact if_neg (hoff .ack)
  | accept sock => exact if_neg (hoff .acceptq)
  | write _ | recv _ _ _ | close | abort =>
    refine if_neg ?_
    rw [hfree rfl]
    exact false_ne_true

theorem Destroyed.gone {t : TcpStream} (h : Destroyed cfg s t) (hl : Listed cfg s)
    (hwait : s.waiting = false) (l : StreamList) : t.occ l = 0 := by
  cases hq : l.queue with
  | true => exact (h.queues l hq).trans (occ_of_not_waiting hwait hq)
  | false => exact (h.lists hl l hq).1

theorem served_listed {e : Env × Action} (hl : Listed cfg s)
    (h : destroying cfg s e) : Listed cfg (s.served e.2) := by
  obtain ⟨env, a⟩ := e
  cases a with
  | dequeue q =>
    refine hl.unlink ?_
    cases q with
    | closeq | resetq | destroyq => rfl
    | _ => exact absurd h false_ne_true
  | _ => exact hl

/-! A whole run. -/

theorem lasting_act (env : Env) (a : Action) (hl : Listed cfg s) (h : Lasting s)
    (hend : orderlyEnd cfg s (env, a)) : Lasting (act cfg env s a) := by
  unfold Lasting at h
  unfold orderlyEnd at hend
  by_cases halive : s.onHashTable
  · rw [if_pos halive] at h hend
    unfold Lasting
    obtain hsp | ⟨hd, hdes⟩ := @act_spared cfg s env a
    · rw [if_pos (hsp.alive.trans halive)]
      exact hsp.destructions.trans h
    · have hwait : (s.served a).waiting = false := by simpa [hd] using hend
      have hcount : (s.served a).destructions = s.destructions := by cases a <;> rfl
      rw [if_neg (by rw [hdes.alive]; exact false_ne_true)]
      refine ⟨hdes.destroys.trans ?_, hdes.gone (served_listed hl hd) hwait⟩
      change (s.served a).destructions + 1 = 1
      rw [hcount, h]
  · rw [if_neg halive] at h hend
    rw [act_gone env a hl (eq_false_of_ne_true halive) h.2 hend]
    unfold Lasting
    rw [if_neg halive]
    exact h

theorem lasting_step (e : Env × Action) (hl : Listed cfg s) (h : Lasting s)
    (hend : orderlyEnd cfg s e) : Lasting (step cfg s e) := by
  unfold step
  split
  · exact lasting_act e.1 e.2 hl h hend
  · exact h

/-- Outside of this condition, an event that destroys the stream leaves it in a queue. -/
theorem waiting_of_not_orderlyEnd (e : Env × Action) (halive : s.onHashTable)
    (hgone : (step cfg s e).onHashTable = false) (hend : orderlyEnd cfg s e = false) :
    (step cfg s e).waiting := by
  have hsame : ∀ {t}, Spared s t → t.onHashTable ≠ false := fun h => by
    rw [h.alive, halive]
    decide
  unfold step at hgone ⊢
  split at hgone
  · next hrun =>
    rw [if_pos hrun]
    obtain hsp | ⟨-, hdes⟩ := @act_spared cfg s e.1 e.2
    · exact absurd hgone (hsame hsp)
    · rw [orderlyEnd, if_pos halive, or_eq_false_iff] at hend
      have hwait : (s.served e.2).waiting := by simpa using hend.2
      obtain ⟨q, hq, hocc⟩ := List.any_eq_true.mp hwait
      have hqueue : q.queue := by
        cases q <;> first | rfl | simp at hq
      exact List.any_eq_true.mpr ⟨q, hq, by rwa [hdes.queues q hqueue]⟩
  · exact absurd hgone (hsame (.refl s))

theorem handlePassiveOpen_fresh (env : Env) (iss : UInt32) (seg : Segment) :
    SameTies cfg (createTCPStream cfg iss none) (handlePassiveOpen cfg env iss seg) ∧
      (handlePassiveOpen cfg env iss seg).state = .listen := by
  exact ⟨((parseTCPOptions_path env seg _).ties (by decide)).after (.of_eq rfl),
    (parseTCPOptions_path env seg _).state (by decide)⟩

theorem Opened.lasting (h : Opened cfg s) : Lasting s := by
  cases h with
  | active iss sockid room => cases room <;> rfl
  | passive env iss seg _ _ =>
    obtain ⟨hnew, hst⟩ := @handlePassiveOpen_fresh cfg env iss seg
    obtain hm | ⟨hd, -⟩ := @processTCPPacket_ties cfg env seg (handlePassiveOpen cfg env iss seg)
    · have hspared : Spared (createTCPStream cfg iss none) (createNewFlow cfg env iss seg) :=
        (hm.after hnew.more).spared
      have halive : (createNewFlow cfg env iss seg).onHashTable := hspared.alive
      unfold Lasting
      rw [if_pos halive]
      exact hspared.destructions
    · -- In LISTEN no segment destroys the stream.
      simp [packetDestroys, dispatchDestroys, resetDestroys, hst] at hd

end events

/-- Along every run in which a stream is destroyed after its last request, and no call reaches
it afterwards, it is destroyed at most once and is then on no list and in no queue. -/
theorem destroyed_once (s : TcpStream) (es : List (Env × Action)) (hs : Opened cfg s)
    (ha : Along (step cfg) (fun s e => orderlyEnd cfg s e = true) s es) :
    (run cfg s es).trace.count .destroy ≤ 1 ∧
      (.destroy ∈ (run cfg s es).trace → ∀ l, (run cfg s es).occ l = 0) := by
  have hstep : ∀ (t : TcpStream) (e : Env × Action), Listed cfg t ∧ Lasting t →
      orderlyEnd cfg t e = true → Listed cfg (step cfg t e) ∧ Lasting (step cfg t e) :=
    fun t e ht hend => ⟨step_listed t e ht.1, lasting_step e ht.1 ht.2 hend⟩
  have hlast := (foldl_invariant hstep ⟨hs.listed, hs.lasting⟩ ha).2
  unfold Lasting TcpStream.destructions at hlast
  split at hlast
  · refine ⟨hlast.le.trans zero_le_one, fun hmem => ?_⟩
    exact absurd hmem (List.count_eq_zero.mp hlast)
  · exact ⟨hlast.1.le, fun _ => hlast.2⟩

def Config.limited : Config := { Config.small with tcpTimeout := 10 }

def server : TcpStream :=
  createNewFlow .limited {} 900 { seq := 500, window := 1000, syn := true, opts := [2, 4, 5, 180] }

theorem server_opened : Opened .limited server := .passive {} 900 _ rfl rfl

def serverHandshake : List (Env × Action) :=
  [({}, .controlPass 1),
    ({ listener := some true }, .rx { seq := 501, ackSeq := 901, window := 1000, ack := true })]

def acceptAndAbort : List (Env × Action) :=
  serverHandshake ++ atRest [.accept (some 3), .abort, .dequeue .resetq, .controlPass 1]

theorem destroyed_once_aborted :
    .destroy ∈ (run .limited server acceptAndAbort).trace ∧
      (run .limited server acceptAndAbort).trace.count .destroy ≤ 1 :=
  ⟨by decide, (destroyed_once _ _ server_opened (by decide)).1⟩

def neverAccepted : List (Env × Action) := serverHandshake ++ [({ curTs := 20 }, .timeout)]

/-- `CheckConnectionTimeout` destroys a stream that has no socket yet and leaves it in the
accept queue. The application accepts and closes it there, and it is destroyed again. -/
theorem accept_queue_outlives_stream :
    .destroy ∈ (run .limited server neverAccepted).trace ∧
      (run .limited server neverAccepted).occ .acceptq = 1 ∧
      (run .limited server (neverAccepted ++ atRest [.accept (some 3), .close,
        .dequeue .destroyq])).trace.count .destroy = 2 := by
  decide

end Mtcp
