import Mtcp.Refine.Calls

namespace Mtcp

open Serial SendBuffer Runs UInt32 Option

variable {cfg : Config}

/-! A writing application and the stack thread, each in its own atomic steps. -/

/-- `mtcp_write` after the lock is released: test the flags and queue the stream. -/
def writeTest (ret : Int) (s : TcpStream) : TcpStream :=
  let s :=
    if 0 < ret ∧ ¬ (s.sndvar.onSendq ∨ s.sndvar.onSendList) then
      { s with sndvar.onSendq := true }.link .sendq
    else s
  if 0 < s.sndvar.sndWnd then raiseEvent .write s else s

variable (env : Env) (bytes : List UInt8) {t : Threads} (s : TcpStream)

theorem mtcpWrite_eq (hst : s.state = .established ∨ s.state = .closeWait) (hlen : bytes.length ≠ 0)
    : mtcpWrite cfg env bytes s = ((copyFromUser cfg env bytes s).1,
      writeTest (copyFromUser cfg env bytes s).1 (copyFromUser cfg env bytes s).2) := by
  unfold mtcpWrite
  rw [if_neg (not_not.mpr hst), if_neg hlen]
  rfl

/-- `WriteTCPDataList` after the flush: put the stream back, or clear its flag. -/
def clearSendList (ret : Int) (s : TcpStream) : TcpStream :=
  if ret < 0 then s.link .send
  else
    let s := { s with
      sndvar.onSendList := false
      sndvar.ackCnt := piggyback s.sndvar.ackCnt ret }
    releaseControl s.sndvar.onAckList s

theorem writeTCPData_eq (hlist : s.sndvar.onSendList) : writeTCPData env s =
      clearSendList (sendData env (s.unlink .send)).1 (sendData env (s.unlink .send)).2 := by
  exact if_pos hlist

/-- A stream and the two threads: what `CopyFromUser` returned to a call that has not tested
the flags yet, and what a flush returned to a pass that has not cleared the flag yet. -/
structure Threads where
  stream : TcpStream
  app : Option Int := none
  stack : Option Int := none

inductive ThreadStep where
  | append (bytes : List UInt8)
  | test
  | drain
  | flush (room : Nat)
  | clear

namespace Threads

def append (cfg : Config) (env : Env) (bytes : List UInt8) (t : Threads) : Threads :=
  { t with
    stream := (copyFromUser cfg env bytes t.stream).2
    app := some (copyFromUser cfg env bytes t.stream).1 }

def flush (env : Env) (room : Nat) (t : Threads) : Threads :=
  let s := { t.stream with txRoom := room }.unlink .send
  if s.sndvar.onSendList then
    { t with stream := (sendData env s).2, stack := some (sendData env s).1 }
  else { t with stream := s }

end Threads

/-- What a thread does next. A step it cannot take now changes nothing. -/
def threadAct (cfg : Config) (env : Env) (t : Threads) : ThreadStep → Threads
  | .append bytes =>
    if t.app.isNone ∧ (t.stream.state = .established ∨ t.stream.state = .closeWait) ∧
        bytes.length ≠ 0 then t.append cfg env bytes
    else t
  | .test =>
    match t.app with
    | some ret => { t with stream := writeTest ret t.stream, app := none }
    | none => t
  | .drain => if t.stack.isNone then { t with stream := dequeue cfg .sendq t.stream } else t
  | .flush room => if t.stack.isNone ∧ 0 < t.stream.occ .send then t.flush env room else t
  | .clear =>
    match t.stack with
    | some ret => { t with stream := clearSendList ret t.stream, stack := none }
    | none => t

def threadStep (cfg : Config) (t : Threads) (e : Env × ThreadStep) : Threads :=
  if t.stream.fault.isNone then threadAct cfg e.1 t e.2 else t

/-- There are bytes from `snd_nxt` on, as `FlushTCPSendingBuffer` counts them. -/
def unsent (s : TcpStream) : Bool :=
  match s.sndvar.sndbuf with
  | none => false
  | some buf => buf.len != 0 && UInt32.ofNat buf.len - (s.sndNxt - buf.headSeq) != 0

/-- Some step of the stack thread will come to the unsent bytes. -/
def Noticed (s : TcpStream) : Prop :=
  s.state = .established → unsent s = true → 0 < s.occ .sendq ∨ 0 < s.occ .send

instance (s : TcpStream) : Decidable (Noticed s) := inferInstanceAs (Decidable (_ → _))

/-- Between a flush that is done and the clearing of the flag, an application does not find
the flag as the only sign that its bytes will be sent. -/
def wakeupSeen (t : Threads) : ThreadStep → Bool
  | .test =>
    match t.stack with
    | some ret => decide (ret < 0) || !unsent t.stream || t.stream.sndvar.onSendq
    | none => true
  | _ => true

/-- The flags say where the stream is, and unsent bytes are noticed: by a call before its test, by
the queue, or by the list the stream stays on. -/
structure Awake (t : Threads) : Prop where
  sendq : t.stream.sndvar.onSendq = true → 0 < t.stream.occ .sendq
  list : t.stack = none → t.stream.sndvar.onSendList = true → 0 < t.stream.occ .send
  held : t.stack ≠ none → t.stream.sndvar.onSendList = true
  wake : (∀ ret, t.app = some ret → ret ≤ 0) → unsent t.stream = true →
    t.stream.sndvar.onSendq = true ∨
      t.stream.sndvar.onSendList = true ∧ ∀ ret, t.stack = some ret → ret < 0

structure Settled (s : TcpStream) : Prop where
  sendq : s.sndvar.onSendq = true → 0 < s.occ .sendq
  list : s.sndvar.onSendList = true → 0 < s.occ .send
  wake : unsent s = true → s.sndvar.onSendq = true ∨ s.sndvar.onSendList = true

theorem unsent_congr {s t : TcpStream} (hbuf : t.sndvar.sndbuf = s.sndvar.sndbuf)
    (hnxt : t.sndNxt = s.sndNxt) : unsent t = unsent s := by
  unfold unsent
  rw [hbuf, hnxt]

theorem unsent_flushed {s : TcpStream} {buf : TcpSendBuffer} (hbuf : s.sndvar.sndbuf = some buf)
    (h : buf.len = 0 ∨ s.sndNxt = buf.headSeq + ofNat buf.len) : unsent s = false := by
  unfold unsent
  rw [hbuf]
  obtain h | h := h
  · simp [h]
  · have hoff : buf.headSeq + ofNat buf.len - buf.headSeq = ofNat buf.len := by
      rw [UInt32.add_comm, UInt32.add_sub_cancel]
    simp [h, hoff]

theorem copyFromUser_occ : (copyFromUser cfg env bytes s).2.occ = s.occ := by
  unfold copyFromUser
  dsimp only
  split
  · rfl
  · split
    · rfl
    · split_ifs <;> rfl

theorem sendData_sendq : (sendData env s).2.sndvar.onSendq = s.sndvar.onSendq ∧
      (sendData env s).2.occ .sendq = s.occ .sendq := by
  apply @sendData_rule (fun u v => v.sndvar.onSendq = u.sndvar.onSendq ∧
    v.occ .sendq = u.occ .sendq)
  · exact fun u => ⟨rfl, rfl⟩
  · exact fun h h' => ⟨h'.1.trans h.1, h'.2.trans h.2⟩
  · exact fun u f _ => ⟨rfl, rfl⟩
  · intro u
    have hc := conn_probeWindow env u
    exact ⟨congrArg Conn.sendq hc, congrArg Conn.sends hc⟩
  · intro u flags payload h
    have hc := conn_sendSegment env u flags payload h
    exact ⟨congrArg Conn.sendq hc, congrArg Conn.sends hc⟩

/-! Each step of a thread. -/

theorem awake_append (h : Awake t) (hidle : t.app = none)
    (hf : (copyFromUser cfg env bytes t.stream).2.fault = none) :
    Awake (t.append cfg env bytes) := by
  have hocc := @copyFromUser_occ cfg env bytes t.stream
  have hcases := @copyFromUser_cases cfg env bytes t.stream
  unfold Threads.append
  generalize copyFromUser cfg env bytes t.stream = r at hocc hcases hf ⊢
  obtain ⟨ret, s⟩ := r
  have hkeep : ∀ v, conn s = v → v.sendq = t.stream.sndvar.onSendq →
      v.sendList = t.stream.sndvar.onSendList →
      ((∀ r, some ret = some r → r ≤ 0) → unsent s → unsent t.stream) →
      Awake { t with stream := s, app := some ret } := by
    rintro v rfl hq hl hun
    have hq' : s.sndvar.onSendq = t.stream.sndvar.onSendq := hq
    have hl' : s.sndvar.onSendList = t.stream.sndvar.onSendList := hl
    refine ⟨fun h1 => ?_, fun h1 h2 => ?_, fun h1 => ?_, fun h1 h2 => ?_⟩
    · exact (congrFun hocc _).symm ▸ h.sendq (hq' ▸ h1)
    · exact (congrFun hocc _).symm ▸ h.list h1 (hl' ▸ h2)
    · exact hl'.trans (h.held h1)
    · rw [hq', hl']
      exact h.wake (fun r hr => by rw [hidle] at hr; cases hr) (hun h1 h2)
  obtain ⟨_, hc⟩ | ⟨_, f, _, hfault⟩ | ⟨buf, put, _, _, _, hpos, hc⟩ := hcases
  · obtain hc | hc := hc
    · exact hkeep _ hc rfl rfl fun _ hu =>
        (unsent_congr (congrArg Conn.sndbuf hc) (congrArg Conn.sndNxt hc)) ▸ hu
    · exact hkeep _ hc rfl rfl fun _ hu =>
        (unsent_congr (congrArg Conn.sndbuf hc) (congrArg Conn.sndNxt hc)) ▸ hu
  · rw [hf] at hfault
    cases hs : t.stream.fault <;> rw [hs] at hfault <;> cases hfault
  · exact hkeep _ hc rfl rfl fun hle _ => absurd (hle ret rfl) (not_le.mpr hpos)

theorem awake_test (h : Awake t) {ret : Int} (happ : t.app = some ret) (hc : wakeupSeen t .test) :
    Awake { t with stream := writeTest ret t.stream, app := none } := by
  have hraise : ∀ s, Awake { t with stream := s, app := none } → Awake { t with
        stream := if 0 < s.sndvar.sndWnd then raiseEvent .write s else s
        app := none } := by
    intro s hs
    split
    · exact ⟨hs.sendq, hs.list, hs.held, hs.wake⟩
    · exact hs
  apply hraise
  split
  · next hq =>
    refine ⟨fun _ => ?_, h.list, h.held, fun _ _ => .inl rfl⟩
    simp [TcpStream.link]
  · next hq =>
    refine ⟨h.sendq, h.list, h.held, fun _ hu => ?_⟩
    by_cases hpos : 0 < ret
    · have hflag : t.stream.sndvar.onSendq ∨ t.stream.sndvar.onSendList :=
        not_not.mp fun hn => hq ⟨hpos, hn⟩
      obtain hflag | hflag := hflag
      · exact .inl hflag
      · by_cases hsq : t.stream.sndvar.onSendq
        · exact .inl hsq
        · refine .inr ⟨hflag, fun r hr => ?_⟩
          dsimp only at hu hr
          simp only [wakeupSeen, hr, hu, hsq, Bool.not_true, Bool.or_false] at hc
          exact of_decide_eq_true hc
    · exact h.wake (fun r hr => by rw [happ] at hr; cases hr; exact not_lt.mp hpos) hu

theorem awake_drain (h : Awake t) (hstack : t.stack = none)
    (hf : (dequeue cfg .sendq t.stream).fault = none) :
    Awake { t with stream := dequeue cfg .sendq t.stream } := by
  unfold dequeue at hf ⊢
  split at hf
  · next hocc =>
    rw [if_pos hocc]
    exact h
  · next hocc =>
    rw [if_neg hocc]
    dsimp only at hf ⊢
    unfold addtoSendList at hf ⊢
    split at hf
    · cases hs : t.stream.fault <;> simp [TcpStream.abort, TcpStream.unlink, hs] at hf
    · next hbuf =>
      rw [if_neg hbuf]
      split
      · next hl =>
        have hl' : t.stream.sndvar.onSendList := hl
        refine ⟨fun hq => ?_, fun _ _ => ?_, fun hn => absurd hstack hn, fun _ _ => ?_⟩
        · cases hq
        · simpa [TcpStream.unlink] using h.list hstack hl'
        · exact .inr ⟨hl', fun r hr => by rw [hstack] at hr; cases hr⟩
      · refine ⟨fun hq => ?_, fun _ _ => ?_, fun hn => absurd hstack hn, fun _ _ => ?_⟩
        · cases hq
        · simp [TcpStream.link]
        · exact .inr ⟨rfl, fun r hr => by rw [hstack] at hr; cases hr⟩

theorem awake_flush (cfg : Config) (env : Env) (room : Nat) {t : Threads} (h : Awake t)
    (hstack : t.stack = none) (hst : t.stream.state = .established)
    (hf : (t.flush env room).stream.fault = none) : Awake (t.flush env room) := by
  unfold Threads.flush at hf ⊢
  dsimp only at hf ⊢
  generalize hs : ({ t.stream with txRoom := room }.unlink .send : TcpStream) = s at hf ⊢
  have hq : s.sndvar.onSendq = t.stream.sndvar.onSendq := hs ▸ rfl
  have hsq : s.occ .sendq = t.stream.occ .sendq := by
    rw [← hs]
    simp [TcpStream.unlink]
  split at hf
  · next hl =>
    rw [if_pos hl]
    have hsend := sendData_sendq env s
    have hlist := (@sendData_steps cfg s (env, .rtm) env s hl).2
    have hstate := sendData_state env s
    have hst' : s.state = .established := hs ▸ hst
    generalize sendData env s = r at hsend hlist hstate hf ⊢
    obtain ⟨ret, w⟩ := r
    refine ⟨fun h1 => ?_, fun hn => ?_, fun _ => hlist.1, fun _ hu => ?_⟩
    · rw [hsend.2, hsq]
      exact h.sendq (hq ▸ hsend.1 ▸ h1)
    · cases hn
    · by_cases hret : 0 ≤ ret
      · obtain ⟨buf, hbuf, hdone⟩ := hlist.2 hret hf (by
          change w.state.flushes
          rw [hstate, hst']
          rfl)
        exact absurd hu (by rw [unsent_flushed hbuf hdone]; decide)
      · exact .inr ⟨hlist.1, fun r hr => by cases hr; exact not_le.mp hret⟩
  · next hl =>
    rw [if_neg hl]
    have hl' : ¬ t.stream.sndvar.onSendList := by
      rw [← hs] at hl
      exact hl
    refine ⟨fun h1 => ?_, fun _ h2 => absurd h2 hl, fun hn => absurd hstack hn, fun h1 hu => ?_⟩
    · rw [hsq]
      exact h.sendq (hq ▸ h1)
    · have hu' : unsent t.stream := by
        rw [← hu]
        exact (unsent_congr (hs ▸ rfl) (hs ▸ rfl)).symm
      obtain hw | hw := h.wake h1 hu'
      · exact .inl (hq.trans hw)
      · exact absurd hw.1 hl'

theorem awake_clear (h : Awake t) {ret : Int} (hstack : t.stack = some ret) :
    Awake { t with stream := clearSendList ret t.stream, stack := none } := by
  have hheld := h.held (by rw [hstack]; exact some_ne_none ret)
  unfold clearSendList
  split
  · refine ⟨fun hq => ?_, fun _ _ => ?_, fun hn => absurd rfl hn, fun _ _ => ?_⟩
    · simpa [TcpStream.link] using h.sendq hq
    · simp [TcpStream.link]
    · exact .inr ⟨hheld, fun r hr => by cases hr⟩
  · next hret =>
    have hcontrol : ∀ b s, s.sndvar.onSendList = false →
        Awake { t with stream := s, stack := none } →
        Awake { t with stream := releaseControl b s, stack := none } := by
      intro b s hl hs
      unfold releaseControl addtoControlList
      split
      · split
        · exact ⟨hs.sendq, hs.list, hs.held, hs.wake⟩
        · refine ⟨fun hq => ?_, fun _ h2 => ?_, hs.held, hs.wake⟩
          · simpa [TcpStream.link] using hs.sendq hq
          · cases hl.symm.trans h2
      · exact hs
    apply hcontrol
    · rfl
    · refine ⟨h.sendq, fun _ h2 => (by cases h2), fun hn => absurd rfl hn, fun h1 hu => ?_⟩
      obtain hw | hw := h.wake h1 hu
      · exact .inl hw
      · exact absurd (hw.2 ret hstack) hret

/-! Whole runs. -/

theorem threadAct_state (t : Threads) (a : ThreadStep) :
    (threadAct cfg env t a).stream.state = t.stream.state := by
  cases a with
  | append bytes =>
    dsimp only [threadAct]
    split
    · change (copyFromUser cfg env bytes t.stream).2.state = t.stream.state
      unfold copyFromUser
      dsimp only
      split
      · rfl
      · split
        · rfl
        · split_ifs <;> rfl
    · rfl
  | test =>
    dsimp only [threadAct]
    split
    · dsimp only [writeTest]
      split_ifs <;> rfl
    · rfl
  | drain =>
    dsimp only [threadAct]
    split
    · dsimp only [dequeue, addtoSendList]
      split_ifs <;> rfl
    · rfl
  | flush room =>
    dsimp only [threadAct]
    split
    · dsimp only [Threads.flush]
      split
      · exact sendData_state env _
      · rfl
    · rfl
  | clear =>
    dsimp only [threadAct]
    split
    · dsimp only [clearSendList, releaseControl, addtoControlList]
      split_ifs <;> rfl
    · rfl

theorem awake_act (a : ThreadStep) (h : Awake t) (hst : t.stream.state = .established)
    (hf : (threadAct cfg env t a).stream.fault = none) (hc : wakeupSeen t a) :
    Awake (threadAct cfg env t a) := by
  cases a with
  | append bytes =>
    dsimp only [threadAct] at hf ⊢
    split at hf
    · next hgo =>
      rw [if_pos hgo]
      exact awake_append env bytes h (isNone_iff_eq_none.mp hgo.1) hf
    · next hgo =>
      rw [if_neg hgo]
      exact h
  | test =>
    dsimp only [threadAct]
    split
    · next ret happ => exact awake_test h happ hc
    · exact h
  | drain =>
    dsimp only [threadAct] at hf ⊢
    split at hf
    · next hidle =>
      rw [if_pos hidle]
      exact awake_drain h (isNone_iff_eq_none.mp hidle) hf
    · next hidle =>
      rw [if_neg hidle]
      exact h
  | flush room =>
    dsimp only [threadAct] at hf ⊢
    split at hf
    · next hgo =>
      rw [if_pos hgo]
      exact awake_flush cfg env room h (isNone_iff_eq_none.mp hgo.1) hst hf
    · next hgo =>
      rw [if_neg hgo]
      exact h
  | clear =>
    dsimp only [threadAct]
    split
    · next ret hstack => exact awake_clear h hstack
    · exact h

def AwakeWhileOpen (t : Threads) : Prop :=
  t.stream.fault = none → t.stream.state = .established → Awake t

theorem awake_step (t : Threads) (e : Env × ThreadStep) (h : AwakeWhileOpen t)
    (hc : wakeupSeen t e.2) : AwakeWhileOpen (threadStep cfg t e) := by
  unfold AwakeWhileOpen threadStep
  by_cases hf : t.stream.fault = none
  · rw [if_pos (isNone_iff_eq_none.mpr hf)]
    intro hf' hst
    rw [threadAct_state] at hst
    exact awake_act e.1 e.2 (h hf hst) hst hf' hc
  · rw [if_neg (fun hn => hf (isNone_iff_eq_none.mp hn))]
    exact h

/-- In every interleaving in which no test falls between a flush that is done and the
clearing of the flag it relies on, unsent bytes are noticed whenever both threads are between
calls. -/
theorem no_lost_wakeup (es : List (Env × ThreadStep)) (hs : Settled s)
    (ha : Along (threadStep cfg) (fun t e => wakeupSeen t e.2 = true) { stream := s } es)
    (hf : (es.foldl (threadStep cfg) { stream := s }).stream.fault = none)
    (happ : (es.foldl (threadStep cfg) { stream := s }).app = none)
    (hstack : (es.foldl (threadStep cfg) { stream := s }).stack = none) :
    Noticed (es.foldl (threadStep cfg) { stream := s }).stream := by
  have hstart : AwakeWhileOpen { stream := s } := fun _ _ =>
    ⟨hs.sendq, fun _ => hs.list, fun hn => absurd rfl hn, fun _ hu =>
      (hs.wake hu).imp_right fun hl => ⟨hl, fun _ hr => nomatch hr⟩⟩
  have hend := foldl_invariant awake_step hstart ha
  intro hst hu
  have h := hend hf hst
  obtain hq | ⟨hl, _⟩ := h.wake (fun ret hr => by rw [happ] at hr; cases hr) hu
  · exact .inl (h.sendq hq)
  · exact .inr (h.list hstack hl)

def clientThreads (steps : List ThreadStep) : Threads :=
  (steps.map fun a => (({} : Env), a)).foldl (threadStep .small)
    { stream := run .small client (atRest clientHandshake) }

theorem no_lost_wakeup_client :
    unsent (clientThreads [.append [1], .test, .drain, .flush 1, .clear, .append [2],
        .test]).stream = true ∧
      Noticed (clientThreads [.append [1], .test, .drain, .flush 1, .clear, .append [2],
        .test]).stream :=
  ⟨by decide, no_lost_wakeup _ _ ⟨by decide, by decide, by decide⟩ (by decide) (by decide)
    (by decide) (by decide)⟩

/-- The test finds the flag of a flush that did not see the byte, and then the flag goes. -/
theorem test_before_clear_strands_byte :
    (clientThreads [.append [1], .test, .drain, .flush 1, .append [2], .test, .clear]).app = none ∧
    (clientThreads [.append [1], .test, .drain, .flush 1, .append [2], .test, .clear]).stack =
      none ∧
    (clientThreads [.append [1], .test, .drain, .flush 1, .append [2], .test,
      .clear]).stream.fault = none ∧
    ¬ Noticed (clientThreads [.append [1], .test, .drain, .flush 1, .append [2], .test,
      .clear]).stream := by
  decide

end Mtcp
