import Mtcp.Congestion

namespace Mtcp

open Serial SendBuffer Runs

variable {cfg : Config} {env : Env} {seg : Segment} {s : TcpStream}

/-! Fast retransmit in a run of duplicate acknowledgements. -/

/-- An acknowledgement is processed; a retransmission timeout and a flush can come between two. -/
inductive AckEvent where
  | ack (env : Env) (seg : Segment)
  | rto (cfg : Config)
  | flush (env : Env) (room : Nat)

def AckEvent.apply (s : TcpStream) : AckEvent → TcpStream
  | .ack env seg => processACK env seg s
  | .rto cfg => handleRTO cfg s
  | .flush env room => (flushTCPSendingBuffer env { s with txRoom := room }).2

/-- The acknowledgement is inside the send buffer and passes the duplicate test: the number is
that of the last one, there is no payload, the window edge stays and data is outstanding. -/
def duplicate (seg : Segment) (s : TcpStream) : Bool :=
  match s.sndvar.sndbuf with
  | none => false
  | some buf =>
    !gt (effectiveAck seg s) (buf.headSeq + UInt32.ofNat buf.len) &&
      isDuplicate seg (effectiveAck seg s) (s.sndvar.peerWnd + s.rcvvar.sndWl2)
        (updateWindow seg (effectiveAck seg s) s)

def AckEvent.allowed (s : TcpStream) : AckEvent → Bool
  | .ack _ seg => duplicate seg s
  | .rto _ | .flush _ _ => true

/-- The fast-retransmit action: `snd_nxt` is pulled back to the acknowledgement, and `ssthresh`
becomes half of the window. -/
def AckEvent.retransmits (s : TcpStream) : AckEvent → Bool
  | .ack env seg =>
    let x := effectiveAck seg s
    let t := processACK env seg s
    s.sndNxt != x && t.sndNxt == x &&
      t.sndvar.ssthresh == halvedSsthresh (updateWindow seg x s).sndvar
  | .rto _ | .flush _ _ => false

def AckEvent.isAck : AckEvent → Bool
  | .ack _ _ => true
  | .rto _ | .flush _ _ => false

def fastRetransmits : TcpStream → List AckEvent → Nat
  | _, [] => 0
  | s, e :: es => (e.retransmits s).toNat + fastRetransmits (e.apply s) es

def acks (es : List AckEvent) : Nat := es.countP AckEvent.isAck

/-! The counter. -/

theorem updateWindow_ssthresh (x : UInt32) :
    (updateWindow seg x s).sndvar.ssthresh = s.sndvar.ssthresh :=
  congrArg Tuning.ssthresh ((updateWindow_path seg s x).pace (by decide)).tuning

theorem removeAcked_sndNxt (buf : TcpSendBuffer) (x : UInt32) :
    (removeAcked env buf x s).sndNxt = s.sndNxt := by
  obtain h | ⟨_, _, h⟩ := conn_removeAcked env buf x s <;> exact congrArg Conn.sndNxt h

theorem growCwnd_ssthresh (packets : UInt32) :
    (growCwnd packets s).sndvar.ssthresh = s.sndvar.ssthresh := by
  unfold growCwnd
  dsimp only
  split_ifs <;> rfl

theorem removeAcked_ssthresh (buf : TcpSendBuffer) (x : UInt32) :
    (removeAcked env buf x s).sndvar.ssthresh = s.sndvar.ssthresh := by
  obtain ⟨rto, hrto⟩ := @updateRTO_sndvar env s
  rw [removeAcked_eq]
  split
  · rfl
  · refine (congrArg Tuning.ssthresh (takeAcked_tuning buf x)).trans ?_
    change (growCwnd _ _).sndvar.ssthresh = _
    rw [growCwnd_ssthresh, hrto]

structure DupView where
  dupAcks : UInt8
  sndNxt : UInt32
  ssthresh : UInt32

def dupView (s : TcpStream) : DupView where
  dupAcks := s.rcvvar.dupAcks
  sndNxt := s.sndNxt
  ssthresh := s.sndvar.ssthresh

theorem dupView_removeAcked (buf : TcpSendBuffer) (x : UInt32) :
    dupView (removeAcked env buf x s) = dupView s := by
  unfold dupView
  rw [(removeAcked_path env s buf x).dupAcks (by decide), removeAcked_sndNxt, removeAcked_ssthresh]

theorem dupView_recoverAfterLoss (buf : TcpSendBuffer) {x : UInt32} (h : gt x s.sndNxt = false) :
    dupView (recoverAfterLoss buf x s) = dupView s := by
  unfold recoverAfterLoss
  rw [if_neg (by simp [h])]

theorem dupView_respondDupAcks {x : UInt32} (h : lt x s.sndNxt) :
    dupView (respondDupAcks true x s) = if s.rcvvar.dupAcks = 3 then
        { dupView s with sndNxt := x, ssthresh := halvedSsthresh s.sndvar } else dupView s := by
  unfold respondDupAcks
  by_cases h3 : s.rcvvar.dupAcks = 3
  · rw [if_pos (by simp [h3]), if_pos h3]
    unfold fastRetransmit
    rw [if_pos h]
    exact (addtoSendList_path _).view dupView fun hk hstep => by
      cases hstep <;> first | rfl | exact absurd hk (by decide)
  · rw [if_neg (by simp [h3]), if_neg h3]
    split_ifs <;> rfl

theorem dupView_noteAck (buf : TcpSendBuffer) {x : UInt32}
    (h : isDuplicate seg x (s.sndvar.peerWnd + s.rcvvar.sndWl2) (updateWindow seg x s)) :
    lt x s.sndNxt ∧ dupView (noteAck seg buf x s) = if s.rcvvar.dupAcks + 1 = 3 then
        { dupAcks := 3, sndNxt := x, ssthresh := halvedSsthresh (updateWindow seg x s).sndvar }
      else { dupView s with dupAcks := s.rcvvar.dupAcks + 1 } := by
  have hnxt : (updateWindow seg x s).sndNxt = s.sndNxt :=
    congrArg Conn.sndNxt (conn_updateWindow seg x s)
  have hdup := (updateWindow_dupAcks seg x s).1
  have hthresh := @updateWindow_ssthresh seg s x
  have hlt : lt x s.sndNxt := by
    unfold isDuplicate at h
    rw [hnxt] at h
    simp only [Bool.and_eq_true] at h
    exact h.1.1
  refine ⟨hlt, ?_⟩
  unfold noteAck
  dsimp only
  rw [h]
  generalize updateWindow seg x s = u at hnxt hdup hthresh ⊢
  have hview := @dupView_respondDupAcks (countDupAcks true x u) x (by exact hnxt ▸ hlt)
  have hcount : dupView (countDupAcks true x u) =
      { dupView s with dupAcks := s.rcvvar.dupAcks + 1 } := by
    unfold dupView countDupAcks
    rw [if_pos rfl]
    rw [hnxt, hdup, hthresh]
  have hsame : (countDupAcks true x u).rcvvar.dupAcks = s.rcvvar.dupAcks + 1 :=
    congrArg DupView.dupAcks hcount
  rw [hcount, hsame] at hview
  rw [dupView_recoverAfterLoss, hview]
  · split
    · next h3 => rw [h3]; rfl
    · rfl
  · have hnxt' := congrArg DupView.sndNxt hview
    change (respondDupAcks true x (countDupAcks true x u)).sndNxt = _ at hnxt'
    rw [hnxt']
    split
    · exact gt_self x
    · exact gt_eq_false_of_lt hlt

theorem processACK_duplicate (h : duplicate seg s) :
    (processACK env seg s).rcvvar.dupAcks = s.rcvvar.dupAcks + 1 ∧
      (AckEvent.ack env seg).retransmits s = decide (s.rcvvar.dupAcks + 1 = 3) := by
  unfold duplicate at h
  split at h
  · cases h
  · next buf hbuf =>
    simp only [Bool.and_eq_true, Bool.not_eq_true'] at h
    obtain ⟨hlt, hview⟩ := dupView_noteAck buf h.2
    have hack : dupView (processACK env seg s) =
        dupView (noteAck seg buf (effectiveAck seg s) s) := by
      unfold processACK
      rw [hbuf]
      dsimp only
      rw [if_neg (by simp [h.1])]
      split
      · rfl
      · exact dupView_removeAcked buf _
    rw [hview] at hack
    have hne : s.sndNxt ≠ effectiveAck seg s := by
      intro heq
      rw [heq, lt_iff, fwd_self] at hlt
      exact absurd hlt (by decide)
    unfold AckEvent.retransmits
    have hdup : (processACK env seg s).rcvvar.dupAcks = _ := congrArg DupView.dupAcks hack
    have hnxt : (processACK env seg s).sndNxt = _ := congrArg DupView.sndNxt hack
    have hthresh : (processACK env seg s).sndvar.ssthresh = _ := congrArg DupView.ssthresh hack
    dsimp only
    rw [hdup, hnxt, hthresh]
    by_cases h3 : s.rcvvar.dupAcks + 1 = 3
    · simp [h3, hne]
    · simp [h3, hne, dupView]

/-! Whole runs. -/

/-- The counter of the code after `n` duplicates is `n` modulo 256, so it is three again every
256 duplicates. -/
theorem fastRetransmits_from (es : List AckEvent) (s : TcpStream) (n : Nat)
    (hn : s.rcvvar.dupAcks.toNat = n % 256)
    (hdup : Along AckEvent.apply (fun s e => e.allowed s) s es) :
    fastRetransmits s es = (n + acks es + 253) / 256 - (n + 253) / 256 := by
  induction es generalizing s n with
  | nil => simp [fastRetransmits, acks]
  | cons e es ih =>
    obtain ⟨hallowed, hrest⟩ := hdup
    cases e with
    | ack env seg =>
      obtain ⟨hcount, hacts⟩ := @processACK_duplicate env seg s hallowed
      have hnext : (s.rcvvar.dupAcks + 1).toNat = (n + 1) % 256 := by
        rw [UInt8.toNat_add, hn]
        exact Nat.mod_add_mod n 256 1
      have hthree : s.rcvvar.dupAcks + 1 = 3 ↔ (n + 1) % 256 = 3 := by
        rw [← UInt8.toNat_inj, hnext]
        rfl
      have htail := ih (processACK env seg s) (n + 1) (by rw [hcount]; exact hnext) hrest
      have hacks : acks (.ack env seg :: es) = acks es + 1 := List.countP_cons_of_pos rfl
      change (AckEvent.retransmits s _).toNat + fastRetransmits (processACK env seg s) es = _
      rw [hacts, htail, hacks]
      by_cases h3 : s.rcvvar.dupAcks + 1 = 3
      · have hmod := hthree.mp h3
        simp only [h3, decide_true, Bool.toNat_true]
        omega
      · have hmod : ¬ (n + 1) % 256 = 3 := fun h => h3 (hthree.mpr h)
        simp only [h3, decide_false, Bool.toNat_false]
        omega
    | rto cfg =>
      have hcount := congrArg UInt8.toNat ((handleRTO_path cfg s).dupAcks (by decide))
      exact (Nat.zero_add _).trans (ih (handleRTO cfg s) n (hcount.trans hn) hrest)
    | flush env room =>
      have htail := ih (flushTCPSendingBuffer env { s with txRoom := room }).2 n
        (by rw [(flushTCPSendingBuffer_path env _).dupAcks (by decide)]; exact hn) hrest
      exact (Nat.zero_add _).trans htail

/-- A run of duplicates triggers the action once from the third on, and not before, exactly as
long as the counter of eight bits has not come round to three again. -/
theorem one_fast_retransmit (s : TcpStream) (hfirst : s.rcvvar.dupAcks = 0)
    (es : List AckEvent) (hdup : Along AckEvent.apply (fun s e => e.allowed s = true) s es) :
    (fastRetransmits s es = if 3 ≤ acks es then 1 else 0) ↔ acks es < 259 := by
  have hcount := fastRetransmits_from es s 0 (by rw [hfirst]; rfl) hdup
  rw [hcount]
  split <;> omega

def windowKnown : TcpStream := processACK {} (ackUpTo 101) smallSegments

def duplicates (n : Nat) : List AckEvent :=
  List.replicate 3 (.ack {} (ackUpTo 101)) ++ .flush {} 2 ::
    List.replicate n (.ack {} (ackUpTo 101))

theorem one_fast_retransmit_four : fastRetransmits windowKnown (duplicates 1) = 1 :=
  (one_fast_retransmit windowKnown (by decide +kernel) (duplicates 1) (by decide +kernel)).mpr
    (by decide +kernel)

/-- The 259th duplicate triggers the action a second time. -/
theorem second_fast_retransmit :
    windowKnown.rcvvar.dupAcks = 0 ∧
      Along AckEvent.apply (fun s e => e.allowed s = true) windowKnown (duplicates 256) ∧
      acks (duplicates 256) = 259 ∧ fastRetransmits windowKnown (duplicates 256) = 2 := by
  decide +kernel

end Mtcp
