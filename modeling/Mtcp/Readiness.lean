import Mtcp.Polling

namespace Mtcp

open Serial SendBuffer RingBuffer Flags Runs UInt32

variable {cfg : Config} {p : EventPoll} {i : Nat} {b c : UInt32}

/-! Level-triggered readiness. -/

inductive PollCall where
  | ctl (op : EpollOp) (ev : EpollEvent)
  | recv (nonblock : Bool) (flags : RecvFlags) (len : Nat)
  | readv (nonblock : Bool) (iov : List Nat)
  | write (env : Env) (bytes : List UInt8)

def pollCall (cfg : Config) (i : Nat) (s : TcpStream) (p : EventPoll) :
    PollCall → TcpStream × EventPoll
  | .ctl op ev => (s, (mtcpEpollCtl op i ev (.stream s) p).2)
  | .recv nonblock flags len => mtcpRecvPolled i nonblock flags len s p
  | .readv nonblock iov => mtcpReadvPolled i nonblock iov s p
  | .write env bytes => mtcpWritePolled cfg env i bytes s p

def interest (ev : EpollEvent) : UInt32 := ev.events ||| (EPOLLERR ||| EPOLLHUP)

/-- The socket is registered level-triggered; a registration is made by the call itself. -/
def PollCall.levelTriggered (i : Nat) (p : EventPoll) : PollCall → Prop
  | .ctl .add ev => (p.socket i).epoll = 0 ∧ ¬Meets (interest ev) EPOLLET
  | .ctl .mod ev => (p.socket i).epoll ≠ 0 ∧ ¬Meets (interest ev) EPOLLET
  | .ctl .del _ => False
  | _ => (p.socket i).epoll ≠ 0 ∧ ¬Meets (p.socket i).epoll EPOLLET

def PollCall.reads : PollCall → Bool
  | .recv _ _ _ | .readv _ _ => true
  | _ => false

/-- What there is to know about the socket is pending after the call. -/
structure ReadyAfter (i : Nat) (c : PollCall) (s : TcpStream) (r : TcpStream × EventPoll) :
    Prop where
  input : Meets (r.2.socket i).epoll EPOLLIN ∧ 0 < unreadLen r.1 ∨
      c.reads = true ∧ r.1.state = .closeWait ∧ 0 < unreadLen s ∧ unreadLen r.1 = 0 →
    Meets (r.2.socket i).events EPOLLIN
  output : c.reads = false → Meets (r.2.socket i).epoll EPOLLOUT → r.1.state = .established →
    hasSpace r.1.sndvar.sndbuf → Meets (r.2.socket i).events EPOLLOUT

/-- A reader takes `n` of the bytes there are: whether it has to be told of more. -/
def readDue (mask : UInt32) (s : TcpStream) (n : Nat) : Prop :=
  Meets mask EPOLLIN ∧ n < unreadLen s ∨ s.state = .closeWait ∧ n = unreadLen s

def finds (s : TcpStream) : Prop :=
  (.established ≤ s.state ∧ s.state ≤ .closeWait) ∧ 0 < unreadLen s

/-- What the code takes care of: the event is pending already, or the call raises it and
finds room for it. -/
def PollCall.covered (cfg : Config) (i : Nat) (s : TcpStream) (p : EventPoll) :
    PollCall → Prop
  | .ctl _ ev =>
    (Meets (interest ev) EPOLLIN → 0 < unreadLen s → Meets (p.socket i).events EPOLLIN ∨
      .established ≤ s.state ∧ p.hasRoom) ∧
    (Meets (interest ev) EPOLLOUT → s.state = .established → hasSpace s.sndvar.sndbuf →
      Meets (p.socket i).events EPOLLOUT ∨ halfEmpty s.sndvar.sndbuf ∧
        (p.queue .usrShadow).numEvents +
          (if Meets (interest ev) EPOLLIN ∧ 0 < unreadLen s ∧ ¬Meets (p.socket i).events EPOLLIN
            then 1 else 0) < (p.queue .usrShadow).size)
  | .recv _ flags len =>
    (finds s ∧ flags ≠ .other →
      readDue (p.socket i).epoll s (if flags = .none then limited len (unreadLen s) else 0) →
      Meets (p.socket i).events EPOLLIN ∨ p.hasRoom) ∧
    (¬(finds s ∧ flags ≠ .other) → Meets (p.socket i).epoll EPOLLIN → 0 < unreadLen s →
      Meets (p.socket i).events EPOLLIN)
  | .readv _ iov =>
    (finds s → readDue (p.socket i).epoll s (gathered iov (unreadLen s)) →
      Meets (p.socket i).events EPOLLIN ∨ Meets (p.socket i).epoll EPOLLIN ∧ p.hasRoom) ∧
    (¬finds s → Meets (p.socket i).epoll EPOLLIN → 0 < unreadLen s →
      Meets (p.socket i).events EPOLLIN)
  | .write env bytes =>
    (Meets (p.socket i).epoll EPOLLIN → 0 < unreadLen s → Meets (p.socket i).events EPOLLIN) ∧
    (Meets (p.socket i).epoll EPOLLOUT → s.state = .established →
      leavesSpace cfg env bytes.length s.sndvar.sndbuf →
      Meets (p.socket i).events EPOLLOUT ∨ bytes ≠ [] ∧ p.hasRoom)

theorem write_ready_iff {s : TcpStream} (h : Polled cfg s) (env : Env) (bytes : List UInt8)
    (hlevel : (PollCall.write env bytes).levelTriggered i p) :
    ReadyAfter i (.write env bytes) s (pollCall cfg i s p (.write env bytes)) ↔
      (PollCall.write env bytes).covered cfg i s p := by
  obtain ⟨hstate, hrcv, halive⟩ := @mtcpWrite_frame cfg env bytes s
  have hunread : unreadLen (mtcpWrite cfg env bytes s).2 = unreadLen s := by
    rw [unreadLen, unreadLen, hrcv]
  have hin : Meets ((pollCall cfg i s p (.write env bytes)).2.socket i).events EPOLLIN ↔
      Meets (p.socket i).events EPOLLIN := by
    simp only [pollCall, mtcpWritePolled]
    split_ifs
    · rw [meets_addEpollEvent single_epollout single_epollin]
      simp [epollin_ne_epollout]
    · exact Iff.rfl
  have hmask : ((pollCall cfg i s p (.write env bytes)).2.socket i).epoll = (p.socket i).epoll := by
    simp only [pollCall, mtcpWritePolled]
    split_ifs
    · exact addEpollEvent_epoll _ _
    · rfl
  have hout : s.state = .established → (hasSpace (mtcpWrite cfg env bytes s).2.sndvar.sndbuf ↔
        leavesSpace cfg env bytes.length s.sndvar.sndbuf) ∧
      (Meets (p.socket i).epoll EPOLLOUT → leavesSpace cfg env bytes.length s.sndvar.sndbuf →
        (Meets ((pollCall cfg i s p (.write env bytes)).2.socket i).events EPOLLOUT ↔
          Meets (p.socket i).events EPOLLOUT ∨ bytes ≠ [] ∧ p.hasRoom)) := by
    intro hest
    obtain ⟨hsized, hspace⟩ := @mtcpWrite_spec cfg env s bytes h hest
    have hfits : Fits cfg (buffers (mtcpWrite cfg env bytes s).2) :=
      (mtcpWrite_path cfg env s bytes).fitting (fun _ => h.fits) (halive.trans h.alive)
    refine ⟨hspace, fun hmeets hleaves => ?_⟩
    have hwnd : 0 < (mtcpWrite cfg env bytes s).2.sndvar.sndWnd :=
      (window_pos hfits hsized).mpr (hspace.mpr hleaves)
    simp only [pollCall, mtcpWritePolled]
    by_cases hnil : bytes = []
    · rw [if_neg (fun hc => hc.2.1 hnil)]
      simp [hnil]
    · rw [if_pos ⟨.inl hest, hnil, hwnd, hmeets, hlevel.2⟩,
        meets_addEpollEvent single_epollout single_epollout]
      simp [hnil]
  constructor
  · intro hready
    refine ⟨fun hmeets hpos => hin.mp (hready.input (.inl ⟨?_, ?_⟩)), fun hmeets hest hleaves => ?_⟩
    · rw [hmask]
      exact hmeets
    · exact hunread ▸ hpos
    · obtain ⟨hspace, hevent⟩ := hout hest
      apply (hevent hmeets hleaves).mp
      apply hready.output rfl
      · rw [hmask]
        exact hmeets
      · exact hstate.trans hest
      · exact hspace.mpr hleaves
  · rintro ⟨hcin, hcout⟩
    constructor
    · rintro (⟨hmeets, hpos⟩ | ⟨hreads, -⟩)
      · rw [hmask] at hmeets
        exact hin.mpr (hcin hmeets (hunread ▸ hpos))
      · cases hreads
    · intro _ hmeets hest hspace
      rw [hmask] at hmeets
      have hest' : s.state = .established := hstate.symm.trans hest
      obtain ⟨hiff, hevent⟩ := hout hest'
      exact (hevent hmeets (hiff.mp hspace)).mpr (hcout hmeets hest' (hiff.mp hspace))

theorem nothingMerged_iff (s : TcpStream) : nothingMerged s ↔ unreadLen s = 0 := by
  unfold nothingMerged unreadLen
  cases s.rcvvar.rcvbuf with
  | none | some => simp

theorem copies_iff {s : TcpStream} (nonblock : Bool) (hpos : 0 < unreadLen s) :
    copies nonblock s ↔ finds s := by
  have hmerged : ¬nothingMerged s := by
    rw [nothingMerged_iff]
    omega
  constructor
  · intro h
    exact ⟨h.1, hpos⟩
  · intro h
    refine ⟨h.1, fun hc => hmerged hc.2, fun hc => hmerged ?_⟩
    rw [Bool.and_eq_true] at hc
    exact hc.2

/-- The event a reader raises after it took `n` bytes, if the call's last test lets it. -/
theorem reader_ready_iff {s t : TcpStream} {c : PollCall} {ret : Int} {n : Nat} {test : Bool}
    (hreads : c.reads) (hlevel : ¬Meets (p.socket i).epoll EPOLLET)
    (hpos : 0 < unreadLen s) (hstate : t.state = s.state) (hn : n ≤ unreadLen s)
    (hunread : unreadLen t = unreadLen s - n) (hret : n = unreadLen s → 0 < ret) :
    ReadyAfter i c s (t,
      if (decide (Meets (p.socket i).epoll EPOLLIN) && !decide (Meets (p.socket i).epoll EPOLLET) &&
          hasUnread t.rcvvar.rcvbuf ||
        decide (t.state = .closeWait) && !hasUnread t.rcvvar.rcvbuf && decide (0 < ret)) && test
      then (addEpollEvent .usrShadow i EPOLLIN p).2 else p) ↔ (readDue (p.socket i).epoll s n →
      Meets (p.socket i).events EPOLLIN ∨ test ∧ p.hasRoom) := by
  have hdue : (decide (Meets (p.socket i).epoll EPOLLIN) &&
      !decide (Meets (p.socket i).epoll EPOLLET) && hasUnread t.rcvvar.rcvbuf ||
      decide (t.state = .closeWait) && !hasUnread t.rcvvar.rcvbuf && decide (0 < ret)) ↔
      readDue (p.socket i).epoll s n := by
    simp only [Bool.or_eq_true, Bool.and_eq_true, decide_eq_true_eq, Bool.not_eq_true',
      Bool.eq_false_iff, ne_eq, hlevel, not_false_eq_true, and_true, hasUnread_iff, hstate, readDue]
    constructor
    · rintro (⟨hmeets, hleft⟩ | ⟨⟨hwait, hnone⟩, -⟩)
      · exact .inl ⟨hmeets, by omega⟩
      · exact .inr ⟨hwait, by omega⟩
    · rintro (⟨hmeets, hleft⟩ | ⟨hwait, hall⟩)
      · exact .inl ⟨hmeets, by omega⟩
      · exact .inr ⟨⟨hwait, by omega⟩, hret hall⟩
  have hmask : ∀ q, q = p ∨ q = (addEpollEvent .usrShadow i EPOLLIN p).2 →
      (q.socket i).epoll = (p.socket i).epoll := by
    rintro q (rfl | rfl)
    · rfl
    · exact addEpollEvent_epoll _ _
  generalize hq : (if (_ && test) then (addEpollEvent .usrShadow i EPOLLIN p).2 else p) = q
  have hevents : readDue (p.socket i).epoll s n → (Meets (q.socket i).events EPOLLIN ↔
      Meets (p.socket i).events EPOLLIN ∨ test ∧ p.hasRoom) := by
    intro h
    rw [← hq, hdue.mpr h, Bool.true_and]
    cases test with
    | true =>
      rw [if_pos rfl, meets_addEpollEvent single_epollin single_epollin]
      simp
    | false => simp
  have hepoll : (q.socket i).epoll = (p.socket i).epoll := by
    apply hmask
    rw [← hq]
    split_ifs
    · exact .inr rfl
    · exact .inl rfl
  constructor
  · intro hready hd
    apply (hevents hd).mp
    apply hready.input
    obtain ⟨hmeets, hleft⟩ | ⟨hwait, hall⟩ := hd
    · exact .inl ⟨hepoll ▸ hmeets, by change 0 < unreadLen t; omega⟩
    · exact .inr ⟨hreads, hstate.trans hwait, hpos, by change unreadLen t = 0; omega⟩
  · intro hcov
    constructor
    · intro hneed
      have hd : readDue (p.socket i).epoll s n := by
        obtain ⟨hmeets, hleft⟩ | ⟨-, hwait, -, hall⟩ := hneed
        · exact .inl ⟨hepoll ▸ hmeets, by change 0 < unreadLen t at hleft; omega⟩
        · exact .inr ⟨hstate.symm.trans hwait, by change unreadLen t = 0 at hall; omega⟩
      exact (hevents hd).mpr (hcov hd)
    · intro hno
      rw [hreads] at hno
      exact absurd hno nofun

theorem idle_ready_iff {s t : TcpStream} {c : PollCall} (hreads : c.reads)
    (hunread : unreadLen t = unreadLen s) :
    ReadyAfter i c s (t, p) ↔ (Meets (p.socket i).epoll EPOLLIN → 0 < unreadLen s →
      Meets (p.socket i).events EPOLLIN) := by
  constructor
  · intro hready hmeets hpos
    exact hready.input (.inl ⟨hmeets, by rw [hunread]; exact hpos⟩)
  · intro hcov
    constructor
    · rintro (⟨hmeets, hpos⟩ | ⟨-, -, hpos, hzero⟩)
      · exact hcov hmeets (hunread ▸ hpos)
      · change unreadLen t = 0 at hzero
        omega
    · intro hno
      rw [hreads] at hno
      exact absurd hno nofun

theorem ReadyAfter.of_empty {s : TcpStream} {c : PollCall} {r : TcpStream × EventPoll}
    (hreads : c.reads) (hnone : unreadLen s = 0) (hleft : unreadLen r.1 = 0) :
    ReadyAfter i c s r where
  input := by
    rintro (⟨-, hpos⟩ | ⟨-, -, hpos, -⟩)
    · omega
    · omega
  output := by
    intro hno
    rw [hreads] at hno
    exact absurd hno nofun

theorem peekForUser_spec (len : Int) (s : TcpStream) :
    (peekForUser len s).2.state = s.state ∧ unreadLen (peekForUser len s).2 = unreadLen s := by
  unfold peekForUser
  cases s.rcvvar.rcvbuf with
  | none => exact ⟨rfl, rfl⟩
  | some buf =>
    dsimp only
    split_ifs <;> exact ⟨rfl, rfl⟩

theorem recv_ready_iff (s : TcpStream) (nonblock : Bool) (flags : RecvFlags) (len : Nat)
    (hlevel : (PollCall.recv nonblock flags len).levelTriggered i p) :
    ReadyAfter i (.recv nonblock flags len) s (pollCall cfg i s p (.recv nonblock flags len)) ↔
      (PollCall.recv nonblock flags len).covered cfg i s p := by
  have hcopy := copyToUser_spec len s
  have hpeek := peekForUser_spec (signed (ofNat len)) s
  have hlimit : limited len (unreadLen s) ≤ unreadLen s := Nat.min_le_left _ _
  simp only [pollCall, mtcpRecvPolled, PollCall.covered]
  by_cases hpos : 0 < unreadLen s
  · by_cases hfinds : finds s
    · rw [if_pos ((copies_iff nonblock hpos).mpr hfinds)]
      cases flags with
      | none =>
        have hready := @reader_ready_iff p i s _ (.recv nonblock .none len)
          (copyToUser (signed (ofNat len)) s).1 _ (decide ((p.socket i).epoll ≠ 0)) rfl
          hlevel.2 hpos hcopy.1 hlimit hcopy.2.1 (by rw [hcopy.2.2]; split_ifs <;> omega)
        simp only [recvEvent]
        rw [hready]
        simp [hfinds, hlevel.1]
      | peek =>
        have hready := @reader_ready_iff p i s _ (.recv nonblock .peek len)
          (peekForUser (signed (ofNat len)) s).1 0 (decide ((p.socket i).epoll ≠ 0)) rfl
          hlevel.2 hpos hpeek.1 (Nat.zero_le _) hpeek.2 (by omega)
        simp only [recvEvent]
        rw [hready]
        simp [hfinds, hlevel.1]
      | other =>
        rw [idle_ready_iff rfl rfl]
        simp
    · rw [if_neg (mt (copies_iff nonblock hpos).mp hfinds), idle_ready_iff rfl rfl]
      simp [hfinds]
  · have hzero : unreadLen s = 0 := by omega
    have hno : ¬finds s := fun h => hpos h.2
    have hleft : unreadLen (pollCall cfg i s p (.recv nonblock flags len)).1 = 0 := by
      simp only [pollCall, mtcpRecvPolled]
      split_ifs
      · cases flags with
        | none =>
          change unreadLen (copyToUser (signed (ofNat len)) s).2 = 0
          rw [hcopy.2.1]
          omega
        | peek =>
          change unreadLen (peekForUser (signed (ofNat len)) s).2 = 0
          rw [hpeek.2]
          exact hzero
        | other => exact hzero
      · exact hzero
    have hready : ReadyAfter i (.recv nonblock flags len) s
        (pollCall cfg i s p (.recv nonblock flags len)) := .of_empty rfl hzero hleft
    simp only [pollCall, mtcpRecvPolled] at hready
    simp [hready, hno, hzero]

theorem readv_ready_iff (s : TcpStream) (nonblock : Bool) (iov : List Nat)
    (hlevel : (PollCall.readv nonblock iov).levelTriggered i p) :
    ReadyAfter i (.readv nonblock iov) s (pollCall cfg i s p (.readv nonblock iov)) ↔
      (PollCall.readv nonblock iov).covered cfg i s p := by
  obtain ⟨hstate, hunread, hret⟩ := readvLoop_spec iov 0 s
  simp only [pollCall, mtcpReadvPolled, PollCall.covered]
  by_cases hpos : 0 < unreadLen s
  · by_cases hfinds : finds s
    · have hle : gathered iov (unreadLen s) ≤ unreadLen s := gathered_le iov (unreadLen s)
      have hready := @reader_ready_iff p i s _ (.readv nonblock iov) (readvLoop iov 0 s).1 _
        (decide (Meets (p.socket i).epoll EPOLLIN) && !decide (Meets (p.socket i).epoll EPOLLET))
        rfl hlevel.2 hpos hstate hle hunread (by omega)
      rw [if_pos ((copies_iff nonblock hpos).mpr hfinds)]
      simp only [readvEvent]
      rw [hready]
      simp [hfinds, hlevel.2]
    · rw [if_neg (mt (copies_iff nonblock hpos).mp hfinds), idle_ready_iff rfl rfl]
      simp [hfinds]
  · have hzero : unreadLen s = 0 := by omega
    have hno : ¬finds s := fun h => hpos h.2
    have hleft : unreadLen (pollCall cfg i s p (.readv nonblock iov)).1 = 0 := by
      simp only [pollCall, mtcpReadvPolled]
      split_ifs
      · change unreadLen (readvLoop iov 0 s).2 = 0
        rw [hunread]
        omega
      · exact hzero
    have hready : ReadyAfter i (.readv nonblock iov) s
        (pollCall cfg i s p (.readv nonblock iov)) := .of_empty rfl hzero hleft
    simp only [pollCall, mtcpReadvPolled] at hready
    simp [hready, hno, hzero]

theorem raiseIf_epoll (test : Socket → Bool) :
    ((p.raiseIf test i b).socket i).epoll = (p.socket i).epoll := by
  unfold EventPoll.raiseIf
  split_ifs
  · exact addEpollEvent_epoll _ _
  · rfl

theorem meets_raiseIf (test : Socket → Bool) (hb : Single b) (hc : Single c) :
    Meets ((p.raiseIf test i b).socket i).events c ↔
      Meets (p.socket i).events c ∨ test (p.socket i) ∧ c = b ∧ p.hasRoom := by
  unfold EventPoll.raiseIf
  split_ifs with htest
  · rw [meets_addEpollEvent hb hc]
    simp [htest]
  · simp [htest]

theorem hasRoom_raiseIf (test : Socket → Bool) (hb : Single b) :
    (p.raiseIf test i b).hasRoom ↔ (p.queue .usrShadow).numEvents +
      (if test (p.socket i) ∧ ¬Meets (p.socket i).events b then 1 else 0) <
        (p.queue .usrShadow).size := by
  unfold EventPoll.raiseIf
  by_cases htest : test (p.socket i)
  · rw [if_pos htest, hasRoom_addEpollEvent hb]
    by_cases hpending : Meets (p.socket i).events b
    · simp [htest, hpending]
    · simp [htest, hpending]
  · rw [if_neg htest]
    simp [htest, EventPoll.hasRoom]

theorem raisePendingStreamEvents_events {s : TcpStream} (hstate : ¬s.state < .established) :
    (Meets ((raisePendingStreamEvents s i p).socket i).events EPOLLIN ↔
      Meets (p.socket i).events EPOLLIN ∨ (Meets (p.socket i).epoll EPOLLIN ∧
        (0 < unreadLen s ∨ s.state = .closeWait)) ∧ p.hasRoom) ∧
    (Meets ((raisePendingStreamEvents s i p).socket i).events EPOLLOUT ↔
      Meets (p.socket i).events EPOLLOUT ∨ Meets (p.socket i).epoll EPOLLOUT ∧ writable s ∧
        (p.queue .usrShadow).numEvents +
          (if (Meets (p.socket i).epoll EPOLLIN ∧ (0 < unreadLen s ∨ s.state = .closeWait)) ∧
            ¬Meets (p.socket i).events EPOLLIN then 1 else 0) < (p.queue .usrShadow).size) := by
  have hne := epollin_ne_epollout
  unfold raisePendingStreamEvents
  rw [if_neg hstate]
  constructor
  · rw [meets_raiseIf _ single_epollout single_epollin,
      meets_raiseIf _ single_epollin single_epollin]
    simp [hne, hasUnread_iff]
  · have hout := @meets_raiseIf p i EPOLLIN EPOLLOUT (fun k => decide (Meets k.epoll EPOLLIN) &&
      (hasUnread s.rcvvar.rcvbuf || decide (s.state = .closeWait))) single_epollin single_epollout
    have hroom := @hasRoom_raiseIf p i EPOLLIN (fun k => decide (Meets k.epoll EPOLLIN) &&
      (hasUnread s.rcvvar.rcvbuf || decide (s.state = .closeWait))) single_epollin
    have hepoll := @raiseIf_epoll p i EPOLLIN (fun k => decide (Meets k.epoll EPOLLIN) &&
      (hasUnread s.rcvvar.rcvbuf || decide (s.state = .closeWait)))
    generalize p.raiseIf _ i EPOLLIN = q at hout hroom hepoll ⊢
    rw [meets_raiseIf _ single_epollout single_epollout]
    simp only [hne.symm, false_and, and_false, or_false, true_and, Bool.and_eq_true,
      Bool.or_eq_true, decide_eq_true_eq, Bool.not_eq_true', decide_eq_false_iff_not,
      hasUnread_iff] at hout hroom ⊢
    rw [hout, hroom, hepoll]
    constructor
    · rintro (h | ⟨⟨⟨hmeets, hwrite⟩, -⟩, hroom⟩)
      · exact .inl h
      · exact .inr ⟨hmeets, hwrite, hroom⟩
    · rintro (h | ⟨hmeets, hwrite, hroom⟩)
      · exact .inl h
      · by_cases hpending : Meets (p.socket i).events EPOLLOUT
        · exact .inl hpending
        · exact .inr ⟨⟨⟨hmeets, hwrite⟩, hpending⟩, hroom⟩

theorem raisePendingStreamEvents_epoll (s : TcpStream) :
    ((raisePendingStreamEvents s i p).socket i).epoll = (p.socket i).epoll := by
  unfold raisePendingStreamEvents
  split_ifs
  · rfl
  · rw [raiseIf_epoll, raiseIf_epoll]

theorem ctl_ready_iff {s : TcpStream} (h : Polled cfg s) (op : EpollOp) (ev : EpollEvent)
    (htype : (p.socket i).socktype = .stream) (hlevel : (PollCall.ctl op ev).levelTriggered i p) :
    ReadyAfter i (.ctl op ev) s (pollCall cfg i s p (.ctl op ev)) ↔
      (PollCall.ctl op ev).covered cfg i s p := by
  have hset : (p.setInterest i ev).socket i = { p.socket i with
      epData := ev.data, epoll := interest ev
      registered := ev.data :: (p.socket i).registered } := by
    simp [EventPoll.setInterest, EventPoll.socket, interest]
  have hepoll : ((p.setInterest i ev).socket i).epoll = interest ev := by rw [hset]
  have hevents : ((p.setInterest i ev).socket i).events = (p.socket i).events := by rw [hset]
  have hcall : pollCall cfg i s p (.ctl op ev) =
      (s, raisePendingStreamEvents s i (p.setInterest i ev)) := by
    have hraise : raisePendingEvents (.stream s) i (p.setInterest i ev) =
        raisePendingStreamEvents s i (p.setInterest i ev) := by
      unfold raisePendingEvents
      rw [hset]
      simp [htype]
    cases op with
    | add | mod => simp [pollCall, mtcpEpollCtl, hlevel.1, hraise]
    | del => exact hlevel.elim
  have hmask := @raisePendingStreamEvents_epoll (p.setInterest i ev) i s
  rw [hepoll] at hmask
  rw [hcall]
  by_cases hstate : s.state < .established
  · have hsame : raisePendingStreamEvents s i (p.setInterest i ev) = p.setInterest i ev := by
      rw [raisePendingStreamEvents, if_pos hstate]
    have hnot : ¬.established ≤ s.state := Nat.not_le.mpr hstate
    have hne : s.state ≠ .established := by
      intro heq
      exact hnot (heq ▸ Nat.le_refl _)
    rw [hsame] at hmask ⊢
    constructor
    · intro hready
      refine ⟨fun hmeets hpos => .inl ?_, fun _ hest => absurd hest hne⟩
      rw [← hevents]
      exact hready.input (.inl ⟨by rw [hmask]; exact hmeets, hpos⟩)
    · rintro ⟨hin, -⟩
      constructor
      · rintro (⟨hmeets, hpos⟩ | ⟨hreads, -⟩)
        · rw [hmask] at hmeets
          obtain hpending | ⟨hle, -⟩ := hin hmeets hpos
          · rw [hevents]
            exact hpending
          · exact absurd hle hnot
        · cases hreads
      · intro _ _ hest
        exact absurd hest hne
  · have hle : .established ≤ s.state := Nat.not_lt.mp hstate
    obtain ⟨hinEv, houtEv⟩ := @raisePendingStreamEvents_events (p.setInterest i ev) i s hstate
    have hqueue : (p.setInterest i ev).queue = p.queue := rfl
    rw [hepoll, hevents] at hinEv houtEv
    rw [hqueue] at houtEv
    constructor
    · intro hready
      constructor
      · intro hmeets hpos
        obtain hpending | ⟨-, hfree⟩ :=
          hinEv.mp (hready.input (.inl ⟨by rw [hmask]; exact hmeets, hpos⟩))
        · exact .inl hpending
        · exact .inr ⟨hle, hfree⟩
      · intro hmeets hest hspace
        obtain hpending | ⟨-, hwrite, hfree⟩ :=
          houtEv.mp (hready.output rfl (by rw [hmask]; exact hmeets) hest hspace)
        · exact .inl hpending
        · refine .inr ⟨h.writable_iff.mp hwrite, ?_⟩
          simpa [hest, and_assoc] using hfree
    · rintro ⟨hin, hout⟩
      constructor
      · rintro (⟨hmeets, hpos⟩ | ⟨hreads, -⟩)
        · rw [hmask] at hmeets
          apply hinEv.mpr
          obtain hpending | ⟨-, hfree⟩ := hin hmeets hpos
          · exact .inl hpending
          · exact .inr ⟨⟨hmeets, .inl hpos⟩, hfree⟩
        · cases hreads
      · intro _ hmeets hest hspace
        rw [hmask] at hmeets
        apply houtEv.mpr
        obtain hpending | ⟨hhalf, hfree⟩ := hout hmeets hest hspace
        · exact .inl hpending
        · refine .inr ⟨hmeets, h.writable_iff.mpr hhalf, ?_⟩
          have hest' : s.state = .established := hest
          simpa [hest', and_assoc] using hfree

/-- For a stream of any run and any state of the event queues, a call leaves nothing of the
socket's readiness untold just when the events it has to raise are pending already or among
those it raises, with room for them. -/
theorem level_triggered_readiness (s : TcpStream) (es : List (Env × Action)) (hs : Opened cfg s)
    (hf : (run cfg s es).fault = none) (hl : (run cfg s es).onHashTable = true) (p : EventPoll)
    (i : Nat) (htype : (p.socket i).socktype = .stream) (c : PollCall)
    (hlevel : c.levelTriggered i p) :
    ReadyAfter i c (run cfg s es) (pollCall cfg i (run cfg s es) p c) ↔
      c.covered cfg i (run cfg s es) p := by
  have hpolled := run_polled hs hf hl
  cases c with
  | ctl op ev => exact ctl_ready_iff hpolled op ev htype hlevel
  | recv nonblock flags len => exact recv_ready_iff _ nonblock flags len hlevel
  | readv nonblock iov => exact readv_ready_iff _ nonblock iov hlevel
  | write env bytes => exact write_ready_iff hpolled env bytes hlevel

def pollOne : EventPoll :=
  epollRun (mtcpEpollCreate 2 (createSockets 1)) [.allocate .stream]

def writtenClient (n : Nat) : List (Env × Action) :=
  atRest (clientHandshake ++ [.write (List.replicate n 0)])

theorem level_triggered_readiness_ten :
    ReadyAfter 0 (.ctl .add ⟨EPOLLOUT, 7⟩) (run .small client (writtenClient 10))
      (pollCall .small 0 (run .small client (writtenClient 10)) pollOne
        (.ctl .add ⟨EPOLLOUT, 7⟩)) := by
  apply (level_triggered_readiness client (writtenClient 10) client_opened (by decide +kernel)
    (by decide +kernel) pollOne 0 (by decide +kernel) (.ctl .add ⟨EPOLLOUT, 7⟩)
    ⟨by decide +kernel, by decide +kernel⟩).mpr
  constructor
  · intro hin
    exact absurd hin (by decide +kernel)
  · intro _ _ _
    exact .inr ⟨by decide +kernel, by decide +kernel⟩

theorem full_half_hides_writability :
    ¬ReadyAfter 0 (.ctl .add ⟨EPOLLOUT, 7⟩) (run .small client (writtenClient 40))
      (pollCall .small 0 (run .small client (writtenClient 40)) pollOne
        (.ctl .add ⟨EPOLLOUT, 7⟩)) := by
  intro hready
  have hpending := hready.output rfl (by decide +kernel) (by decide +kernel) (by decide +kernel)
  exact absurd hpending (by decide +kernel)

/-! Readers without a receive buffer. -/

/-- The call uses a field of `rcvbuf` while it is NULL. The copy does, and so does the test for
remaining payload. -/
def readsNull (i : Nat) (s : TcpStream) (p : EventPoll) : PollCall → Prop
  | .recv nonblock flags len => (mtcpRecvPolled i nonblock flags len s p).1.fault = some .noRcvbuf
  | .readv nonblock iov => copies nonblock s ∧
      ((readvLoop iov 0 s).2.fault = some .noRcvbuf ∨
        (readvLoop iov 0 s).2.rcvvar.rcvbuf = none ∧ (s.state = .closeWait ∨
          Meets (p.socket i).epoll EPOLLIN ∧ ¬Meets (p.socket i).epoll EPOLLET))
  | _ => False

/-- There is a receive buffer, or the test for it comes first. -/
def testsBuffer (nonblock : Bool) (s : TcpStream) : Prop :=
  s.rcvvar.rcvbuf ≠ none ∨ nonblock = true ∨ ¬(.established ≤ s.state ∧ s.state < .closeWait)

def findsBuffer (i : Nat) (s : TcpStream) (p : EventPoll) : PollCall → Prop
  | .recv nonblock flags _ => flags = .other ∨ testsBuffer nonblock s
  | .readv nonblock iov => testsBuffer nonblock s ∨ (∀ len ∈ iov, len = 0) ∧
      ¬(Meets (p.socket i).epoll EPOLLIN ∧ ¬Meets (p.socket i).epoll EPOLLET)
  | _ => True

def Buffered (s : TcpStream) : Prop := s.rcvvar.rcvbuf ≠ none ∧ s.fault ≠ some .noRcvbuf

theorem Buffered.copyToUser {s : TcpStream} (h : Buffered s) (len : Int) :
    Buffered (Mtcp.copyToUser len s).2 := by
  obtain ⟨hbuf, hf⟩ := h
  have hadvertise : ∀ w, Buffered w → Buffered (advertiseWindow w) := by
    intro w hw
    unfold advertiseWindow
    split <;> exact hw
  unfold Mtcp.copyToUser
  cases hb : s.rcvvar.rcvbuf with
  | none => exact absurd hb hbuf
  | some buf =>
    dsimp only
    split
    · exact ⟨hbuf, hf⟩
    · refine hadvertise _ ⟨nofun, ?_⟩
      split
      · unfold TcpStream.abort
        cases hs : s.fault with
        | none => exact nofun
        | some f => exact fun h => hf (hs.trans h)
      · exact hf

theorem Buffered.readvLoop {s : TcpStream} (h : Buffered s) (iov : List Nat) (n : Int) :
    Buffered (Mtcp.readvLoop iov n s).2 := by
  induction iov generalizing n s with
  | nil => exact h
  | cons len iov ih =>
    have hcopy := h.copyToUser (signed (ofNat len))
    unfold Mtcp.readvLoop
    generalize Mtcp.copyToUser (signed (ofNat len)) s = r at hcopy ⊢
    dsimp only
    split_ifs
    · exact ih h n
    · exact hcopy
    · exact hcopy
    · exact ih hcopy _

theorem readvLoop_missing {s : TcpStream} (h : s.rcvvar.rcvbuf = none) (iov : List Nat) (n : Int) :
    (readvLoop iov n s).2 = if ∀ len ∈ iov, len = 0 then s else s.abort .noRcvbuf := by
  induction iov with
  | nil => rfl
  | cons len iov ih =>
    have hcopy : copyToUser (signed (ofNat len)) s = (-1, s.abort .noRcvbuf) := by
      rw [copyToUser, h]
    unfold readvLoop
    by_cases hlen : len = 0
    · simp [hlen, ih]
    · simp [hlen, hcopy]

theorem copies_missing {s : TcpStream} (h : s.rcvvar.rcvbuf = none) (nonblock : Bool) :
    copies nonblock s ↔ ¬testsBuffer nonblock s := by
  have hnone : nothingMerged s := by rw [nothingMerged, h]
  have hlt : s.state < .closeWait ↔ s.state ≤ .closeWait ∧ s.state ≠ .closeWait := by
    cases s.state <;> decide
  simp only [copies, testsBuffer, hnone, h, hlt]
  cases nonblock
  · simp
    tauto
  · simp

/-- A call of a reader keeps off a missing receive buffer exactly if it does not block, or the
buffer is there, or the state is none in which it is read without a test. -/
theorem reads_find_buffer_iff (s : TcpStream) (hf : s.fault = none) (i : Nat) (p : EventPoll)
    (c : PollCall) : ¬readsNull i s p c ↔ findsBuffer i s p c := by
  have habort : (s.abort .noRcvbuf).fault = some .noRcvbuf := by rw [TcpStream.abort, hf]; rfl
  have hf' : s.fault ≠ some .noRcvbuf := by simp [hf]
  by_cases hbuf : s.rcvvar.rcvbuf = none
  · cases c with
    | recv nonblock flags len =>
      have hcopies := copies_missing hbuf nonblock
      simp only [readsNull, findsBuffer, mtcpRecvPolled]
      by_cases ht : testsBuffer nonblock s
      · rw [if_neg (by rw [hcopies]; exact not_not.mpr ht)]
        exact iff_of_true hf' (.inr ht)
      · rw [if_pos (hcopies.mpr ht)]
        cases flags with
        | other => exact iff_of_true hf' (.inl rfl)
        | none => simp [ht, recvEvent, copyToUser, hbuf, habort]
        | peek => simp [ht, recvEvent, peekForUser, hbuf, habort]
    | readv nonblock iov =>
      simp only [readsNull, findsBuffer, copies_missing hbuf, readvLoop_missing hbuf]
      by_cases ht : testsBuffer nonblock s
      · simp [ht]
      · have hwait : s.state ≠ .closeWait := by
          intro hst
          exact ht (.inr (.inr (by rw [hst]; decide)))
        by_cases hzero : ∀ len ∈ iov, len = 0
        · simpa [ht, if_pos hzero, hf', hbuf, hwait] using fun _ => hzero
        · simp [ht, habort, hzero]
    | _ => exact iff_of_true id trivial
  · have hs : Buffered s := ⟨hbuf, hf'⟩
    cases c with
    | recv nonblock flags len =>
      refine iff_of_true ?_ (.inr (.inl hbuf))
      simp only [readsNull, mtcpRecvPolled]
      split_ifs
      · cases flags with
        | none => exact (hs.copyToUser _).2
        | peek =>
          cases hb : s.rcvvar.rcvbuf with
          | none => exact absurd hb hbuf
          | some buf =>
            simp only [recvEvent, peekForUser, hb]
            split <;> exact hf'
        | other => exact hf'
      · exact hf'
    | readv nonblock iov =>
      obtain ⟨hsome, hnone⟩ := hs.readvLoop iov 0
      exact iff_of_true (fun h => h.2.elim hnone fun h => hsome h.1) (.inl (.inl hbuf))
    | _ => exact iff_of_true id trivial

theorem reads_find_buffer_iff_nonblocking :
    ¬readsNull 0 (run .small client (atRest clientHandshake)) pollOne (.recv true .none 10) :=
  (reads_find_buffer_iff _ (by decide +kernel) 0 pollOne _).mpr (.inr (.inr (.inl rfl)))

/-- A client reads as soon as it is connected, without waiting for its peer. -/
theorem first_blocking_read_uses_null :
    (run .small client (atRest clientHandshake)).state = .established ∧
      (run .small client (atRest clientHandshake)).fault = none ∧
      readsNull 0 (run .small client (atRest clientHandshake)) pollOne (.recv false .none 10) := by
  unfold readsNull
  decide +kernel

end Mtcp
