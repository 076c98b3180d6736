import Mtcp.PaceSteps
import Mtcp.Sending

namespace Mtcp

open Serial SendBuffer RingBuffer Runs Prod

variable {cfg : Config} {env : Env} {seg : Segment} {s : TcpStream}

/-! Which window the sender goes by. -/

/-- The order in which `snd_wl1` and `snd_wl2` rank segments. -/
def newer (a b : Segment) : Bool := lt b.seq a.seq || (a.seq == b.seq && lt b.ackSeq a.ackSeq)

def MostRecent (segs : List Segment) (a : Segment) : Prop :=
  a ∈ segs ∧ ∀ b ∈ segs, newer b a = false

def scaledWindow (scale : UInt8) (seg : Segment) : UInt32 :=
  seg.window.toUInt32 <<< scale.toUInt32

/-- A segment without SYN is accepted in ESTABLISHED; between two of them anything happens. -/
def arrivesEstablished (cfg : Config) (s : TcpStream) (e : Env × Action) : Bool :=
  match e.2 with
  | .rx seg =>
    s.fault.isNone && s.onHashTable && decide (s.state = .established) && !seg.syn &&
      validated cfg e.1 seg s
  | _ => true

/-- After each arrival, `peer_wnd` is the window of a most recent segment accepted so far. -/
def FollowsNewest (cfg : Config) : List Segment → TcpStream → List (Env × Action) → Prop
  | _, _, [] => True
  | before, s, e :: es =>
    match e.2 with
    | .rx seg =>
      (∃ a, MostRecent (seg :: before) a ∧
        (step cfg s e).sndvar.peerWnd = scaledWindow s.sndvar.wscalePeer a) ∧
        FollowsNewest cfg (seg :: before) (step cfg s e) es
    | _ => FollowsNewest cfg before (step cfg s e) es

def segmentsOf (es : List (Env × Action)) : List Segment :=
  es.filterMap fun e =>
    match e.2 with
    | .rx seg => some seg
    | _ => none

/-- Each segment is most recent when it arrives, or has the window of one that is. -/
def WindowsAgree (scale : UInt8) : List Segment → List Segment → Prop
  | _, [] => True
  | before, seg :: segs =>
    (∃ a, MostRecent (seg :: before) a ∧ scaledWindow scale seg = scaledWindow scale a) ∧
      WindowsAgree scale (seg :: before) segs

/-! One segment. -/

def peer (s : TcpStream) : UInt32 × UInt8 := (s.sndvar.peerWnd, s.sndvar.wscalePeer)

def peerKinds : List Change := [.arrive, .opening, .options, .peerWnd]

theorem Path.peer {ks : List Change} {t : TcpStream} (h : Path ks s t)
    (hks : ∀ k ∈ ks, k ∉ peerKinds) : peer t = peer s :=
  h.view Mtcp.peer fun hk hstep => by
    have hout := hks _ hk
    cases hstep <;> first | rfl | exact absurd (by decide) hout

theorem peer_noteAck (buf : TcpSendBuffer) (x : UInt32)
    (h : s.sndvar.peerWnd = segmentWindow seg s) : peer (noteAck seg buf x s) = peer s := by
  have hwin : peer (updateWindow seg x s) = peer s := by
    unfold updateWindow
    dsimp only
    split_ifs
    · exact congrArg (·, s.sndvar.wscalePeer) h.symm
    · exact congrArg (·, s.sndvar.wscalePeer) h.symm
    · rfl
  unfold noteAck
  rw [(recoverAfterLoss_path _ _ _).peer (by decide), (respondDupAcks_path _ _ _).peer (by decide),
    (countDupAcks_path _ _ _).peer (by decide), hwin]

theorem peer_handleAck (h : s.sndvar.peerWnd = segmentWindow seg s) :
    peer (handleAck env seg s) = peer s := by
  unfold handleAck processACK
  split
  · split
    · rfl
    · next buf _ =>
      dsimp only
      split
      · rfl
      · split
        · exact peer_noteAck buf _ h
        · exact ((removeAcked_path env _ buf _).peer (by decide)).trans (peer_noteAck buf _ h)
  · rfl

theorem peer_handleEstablished (hsyn : seg.syn = false)
    (h : s.sndvar.peerWnd = segmentWindow seg s) :
    peer (handleEstablished cfg env seg s) = peer s := by
  have hput := (handlePayload_path cfg env seg s).peer (by decide)
  have hack : peer (if seg.ack then handleAck env seg (handlePayload cfg env seg s)
      else handlePayload cfg env seg s) = peer s := by
    split
    · refine (peer_handleAck ?_).trans hput
      unfold segmentWindow at h ⊢
      have hwnd : (handlePayload cfg env seg s).sndvar.peerWnd = s.sndvar.peerWnd :=
        congrArg fst hput
      have hscale : (handlePayload cfg env seg s).sndvar.wscalePeer = s.sndvar.wscalePeer :=
        congrArg snd hput
      rw [hwnd, hscale]
      exact h
    · exact hput
  unfold handleEstablished
  rw [if_neg (by simp [hsyn])]
  dsimp only
  generalize (if seg.ack then handleAck env seg (handlePayload cfg env seg s)
    else handlePayload cfg env seg s) = w at hack ⊢
  split
  · split
    · exact ((addtoControlList_path _).peer (by decide)).trans hack
    · exact ((enqueueACK_path w _).peer (by decide)).trans hack
  · exact hack

theorem peer_processRST (hst : s.state = .established) : peer (processRST cfg seg s) = peer s := by
  unfold processRST
  rw [hst]
  dsimp only
  split <;> rfl

theorem processTCPPacket_peerWnd (hst : s.state = .established) (hsyn : seg.syn = false)
    (hval : validated cfg env seg s) : peer (processTCPPacket cfg env seg s) =
      (scaledWindow s.sndvar.wscalePeer seg, s.sndvar.wscalePeer) := by
  obtain ⟨-, hno, -⟩ | ⟨upd, recent, echo, -, heq⟩ := processTCPPacket_cases env seg s cfg
  · cases hval.symm.trans hno
  have harr : peer (arrived env seg (restamped upd recent echo s)) =
      (scaledWindow s.sndvar.wscalePeer seg, s.sndvar.wscalePeer) := by
    have hstored : (arrived env seg (restamped upd recent echo s)).sndvar = { s.sndvar with
        peerWnd := segmentWindow seg s } := by
      unfold arrived updateTimeoutList
      split <;> rfl
    unfold peer
    rw [hstored, segmentWindow, hsyn]
    rfl
  have hstate : (arrived env seg (restamped upd recent echo s)).state = .established :=
    (state_of_conn (arrived_conn env seg _)).trans hst
  have hwnd := arrived_peerWnd env seg (restamped upd recent echo s)
  rw [heq, processValidated_arrived, ← harr]
  generalize arrived env seg _ = u at hstate hwnd ⊢
  split
  · rw [if_pos (by rw [hstate]; decide)]
    exact peer_processRST (by exact hstate)
  · unfold dispatch
    rw [hstate]
    exact peer_handleEstablished hsyn hwnd

/-! Whole runs. -/

theorem wscalePeer_step (e : Env × Action) (hrx : ∀ seg, e.2 ≠ .rx seg) :
    (step cfg s e).sndvar.wscalePeer = s.sndvar.wscalePeer := by
  unfold step
  split
  · by_cases hrtm : e.2 = .rtm
    · rw [hrtm]
      exact congrArg snd ((checkRtmTimeout_path cfg e.1 s).peer (by decide))
    · exact congrArg Tuning.wscalePeer (act_pace e.2 hrx hrtm).tuning
  · rfl

theorem step_arrives (ha : arrivesEstablished cfg s (env, .rx seg)) :
    peer (step cfg s (env, .rx seg)) =
      (scaledWindow s.sndvar.wscalePeer seg, s.sndvar.wscalePeer) := by
  unfold arrivesEstablished at ha
  simp only [Bool.and_eq_true, decide_eq_true_eq, Bool.not_eq_true'] at ha
  obtain ⟨⟨⟨⟨hfault, htable⟩, hst⟩, hsyn⟩, hval⟩ := ha
  unfold step act
  rw [if_pos hfault]
  dsimp only
  rw [if_pos htable]
  exact processTCPPacket_peerWnd hst hsyn hval

theorem followsNewest_from (es : List (Env × Action)) (s : TcpStream) (before : List Segment)
    (ha : Along (step cfg) (fun s e => arrivesEstablished cfg s e) s es) :
    FollowsNewest cfg before s es ↔ WindowsAgree s.sndvar.wscalePeer before (segmentsOf es) := by
  induction es generalizing s before with
  | nil => exact Iff.rfl
  | cons e es ih =>
    obtain ⟨harr, hrest⟩ := ha
    obtain ⟨env, a⟩ := e
    by_cases hrx : ∃ seg, a = .rx seg
    · obtain ⟨seg, rfl⟩ := hrx
      have hpeer := step_arrives harr
      have hwnd : (step cfg s (env, .rx seg)).sndvar.peerWnd =
          scaledWindow s.sndvar.wscalePeer seg := congrArg fst hpeer
      have hscale : (step cfg s (env, .rx seg)).sndvar.wscalePeer = s.sndvar.wscalePeer :=
        congrArg snd hpeer
      have htail := ih (step cfg s (env, .rx seg)) (seg :: before) hrest
      rw [hscale] at htail
      have hcons : segmentsOf ((env, .rx seg) :: es) = seg :: segmentsOf es := rfl
      rw [hcons]
      unfold FollowsNewest WindowsAgree
      dsimp only
      rw [hwnd, htail]
    · have hscale := @wscalePeer_step cfg s (env, a) (fun seg h => hrx ⟨seg, h⟩)
      have htail := ih (step cfg s (env, a)) before hrest
      rw [hscale] at htail
      have hskip : FollowsNewest cfg before s ((env, a) :: es) ↔
          FollowsNewest cfg before (step cfg s (env, a)) es := by
        cases a with
        | rx seg => exact absurd ⟨seg, rfl⟩ hrx
        | _ => exact Iff.rfl
      have hnone : segmentsOf ((env, a) :: es) = segmentsOf es := by
        cases a with
        | rx seg => exact absurd ⟨seg, rfl⟩ hrx
        | _ => rfl
      rw [hskip, hnone, htail]

/-- The window of the newest segment is the one in force exactly when no segment arrives late
with another window: each arrival is most recent, or its window is that of one that is. -/
theorem peer_window_newest (cfg : Config) (s : TcpStream) (es : List (Env × Action))
    (ha : Along (step cfg) (fun s e => arrivesEstablished cfg s e = true) s es) :
    FollowsNewest cfg [] s es ↔ WindowsAgree s.sndvar.wscalePeer [] (segmentsOf es) :=
  followsNewest_from es s [] ha

def ahead : Segment := { seq := 511, ackSeq := 101, window := 900, ack := true, payload := [7] }

def overtaken : Segment := { seq := 501, ackSeq := 101, window := 10, ack := true, payload := [7] }

theorem peer_window_newest_in_order :
    FollowsNewest .small [] connected (atRest [.rx overtaken, .ackPass 1, .rx ahead]) := by
  refine (peer_window_newest .small connected _ (by decide +kernel)).mpr ?_
  refine ⟨⟨overtaken, ⟨by decide, by decide⟩, rfl⟩, ⟨ahead, ⟨by decide, by decide⟩, rfl⟩, trivial⟩

/-- Out of order, the window of the older segment stays in force. -/
theorem late_window_overwrites :
    connected.sndvar.peerWnd = 1000 ∧
      Along (step .small) (fun s e => arrivesEstablished .small s e = true) connected
        (atRest [.rx ahead, .rx overtaken]) ∧
      (run .small connected (atRest [.rx ahead, .rx overtaken])).sndvar.peerWnd = 10 ∧
      newer ahead overtaken = true ∧
      ¬ FollowsNewest .small [] connected (atRest [.rx ahead, .rx overtaken]) := by
  refine ⟨by decide +kernel, by decide +kernel, by decide +kernel, by decide, ?_⟩
  rintro ⟨-, ⟨a, ⟨hmem, hnewest⟩, hwnd⟩, -⟩
  have ha : a = ahead := by
    obtain h | h := List.mem_pair.mp hmem
    · subst h
      exact absurd (hnewest ahead (by simp)) (by decide)
    · exact h
  subst ha
  exact absurd hwnd (by decide +kernel)

end Mtcp
