import Mtcp.Paths
import Mtcp.Refine.Calls

namespace Mtcp

open Serial SendBuffer RingBuffer Runs List

variable {cfg : Config}

/-! The states a stream goes through, also inside the processing of one segment. -/

/-- The states after each part of `Handle_TCP_ST_ESTABLISHED`. -/
def visitedEstablished (cfg : Config) (env : Env) (seg : Segment) (s : TcpStream) :
    List TcpState :=
  if seg.syn then [(handleEstablished cfg env seg s).state]
  else
    let p := handlePayload cfg env seg s
    let a := if seg.ack then handleAck env seg p else p
    [p.state, a.state, (handleEstablished cfg env seg s).state]

def visitedFinWait1 (cfg : Config) (env : Env) (seg : Segment) (s : TcpStream) :
    List TcpState :=
  let a := handleAck env seg s
  let f := ackOfFin seg a
  let p := handlePayload cfg env seg f
  if lt seg.seq s.rcvNxt || !seg.ack then [(handleFinWait1 cfg env seg s).state]
  else [a.state, f.state, p.state, (handleFinWait1 cfg env seg s).state]

def visitedFinWait2 (cfg : Config) (env : Env) (seg : Segment) (s : TcpStream) :
    List TcpState :=
  let a := handleAck env seg s
  let p := handlePayload cfg env seg a
  if seg.ack then [a.state, p.state, (handleFinWait2 cfg env seg s).state]
  else [(handleFinWait2 cfg env seg s).state]

def visitedSynRcvd (cfg : Config) (env : Env) (seg : Segment) (s : TcpStream) :
    List TcpState :=
  if seg.syn ∧ seg.seq = s.rcvvar.irs then [(handleListen seg s).state]
  else
    let t := handleSynRcvd cfg env seg s
    t.state :: if 0 < seg.payload.length ∧ t.state = .established then
      visitedEstablished cfg env seg t else []

/-- In the other states one segment assigns the state at most once. -/
def visitedDispatch (cfg : Config) (env : Env) (seg : Segment) (s : TcpStream) :
    List TcpState :=
  match s.state with
  | .synRcvd => visitedSynRcvd cfg env seg s
  | .established => visitedEstablished cfg env seg s
  | .finWait1 => visitedFinWait1 cfg env seg s
  | .finWait2 => visitedFinWait2 cfg env seg s
  | _ => [(dispatch cfg env seg s).state]

def arrived (env : Env) (seg : Segment) (s : TcpStream) : TcpStream :=
  updateTimeoutList { s with
    sndvar.peerWnd := segmentWindow seg s
    lastActiveTs := env.curTs }

def visitedPacket (cfg : Config) (env : Env) (seg : Segment) (s : TcpStream) :
    List TcpState :=
  if seg.rst then [(processTCPPacket cfg env seg s).state]
  else if .synRcvd < s.state then
    match validateSequence cfg env seg s with
    | (false, s) => [s.state]
    | (true, s) => visitedDispatch cfg env seg (arrived env seg s)
  else visitedDispatch cfg env seg (arrived env seg s)

def visited (cfg : Config) (s : TcpStream) (e : Env × Action) : List TcpState :=
  match e.2 with
  | .rx seg =>
    if s.fault.isNone ∧ s.onHashTable then visitedPacket cfg e.1 seg s else [(step cfg s e).state]
  | _ => [(step cfg s e).state]

def runVisited (cfg : Config) : TcpStream → List (Env × Action) → List TcpState
  | _, [] => []
  | s, e :: es => visited cfg s e ++ runVisited cfg (step cfg s e) es

/-- A segment whose payload finds no receive buffer and no memory for one, and whose FIN is
in sequence all the same. -/
def finWithoutMemory (env : Env) (s : TcpStream) (seg : Segment) : Bool :=
  s.rcvvar.rcvbuf.isNone && !env.rbAlloc && decide (0 < seg.payload.length) && seg.fin &&
    match s.state with
    | .established => !seg.syn && seg.seq + seg.payloadlen == s.rcvNxt
    | .finWait2 => seg.ack && seg.seq + seg.payloadlen == s.rcvNxt
    | .synRcvd => !seg.syn && seg.seq + seg.payloadlen == s.rcvvar.irs + 1
    | _ => false

def memoryForFin (cfg : Config) (s : TcpStream) (e : Env × Action) : Bool :=
  match e.2 with
  | .rx seg => seg.rst || !validated cfg e.1 seg s || !finWithoutMemory e.1 s seg
  | _ => true

def Absorbing (states : List TcpState) : Prop :=
  states.Pairwise fun a b => a = .closed → b = .closed

instance (states : List TcpState) : Decidable (Absorbing states) :=
  inferInstanceAs (Decidable (states.Pairwise _))

/-! What leaves the state alone. -/

theorem state_of_conn {s t : TcpStream} (h : conn s = conn t) : s.state = t.state :=
  congrArg Conn.state h

@[simp] theorem addtoControlList_state (s : TcpStream) : (addtoControlList s).state = s.state :=
  (addtoControlList_path s).state (by decide)

@[simp] theorem addtoSendList_state (s : TcpStream) : (addtoSendList s).state = s.state :=
  (addtoSendList_path s).state (by decide)

@[simp] theorem enqueueACK_state (s : TcpStream) (opt : AckOpt) :
    (enqueueACK s opt).state = s.state :=
  (enqueueACK_path s opt).state (by decide)

@[simp] theorem destroyTCPStream_state (s : TcpStream) : (destroyTCPStream cfg s).state = s.state :=
  (destroyTCPStream_path s cfg).state (by decide)

variable (env : Env) (seg : Segment) (s : TcpStream)

theorem arrived_conn : conn (arrived env seg s) = conn s := conn_updateTimeoutList _

theorem handleAck_sendOnly : SendOnly (conn s) (conn (handleAck env seg s)) := by
  unfold handleAck
  split
  · unfold processACK
    split
    · rfl
    · next buf hbuf =>
      dsimp only
      obtain ⟨fast, _, hn⟩ := conn_noteAck seg buf (effectiveAck seg s) s hbuf
      generalize noteAck seg buf (effectiveAck seg s) s = t at hn ⊢
      split
      · rfl
      · split
        · rw [hn]
          rfl
        · obtain h | ⟨_, _, h⟩ := conn_removeAcked env buf (effectiveAck seg s) t
          · rw [h, hn]
            rfl
          · rw [h, hn]
            rfl
  · rfl

theorem handleAck_state : (handleAck env seg s).state = s.state :=
  congrArg Conn.state (handleAck_sendOnly env seg s)

theorem handleAck_rcvNxt : (handleAck env seg s).rcvNxt = s.rcvNxt :=
  congrArg Conn.rcvNxt (handleAck_sendOnly env seg s)

theorem handleAck_rcvbuf : (handleAck env seg s).rcvvar.rcvbuf = s.rcvvar.rcvbuf :=
  congrArg Conn.rcvbuf (handleAck_sendOnly env seg s)

/-- A payload in the window for which there is neither a buffer nor memory for one. -/
structure Unstored (env : Env) (seg : Segment) (s : TcpStream) : Prop where
  payload : 0 < seg.payload.length
  below : ¬ lt (seg.seq + seg.payloadlen) s.rcvNxt = true
  above : ¬ gt (seg.seq + seg.payloadlen) (s.rcvNxt + s.rcvvar.rcvWnd) = true
  rcvbuf : s.rcvvar.rcvbuf = none
  alloc : env.rbAlloc = false

theorem handlePayload_conn : (handlePayload cfg env seg s).state = s.state ∨
      conn (handlePayload cfg env seg s) = { conn s with state := .closed, reason := .noMem } ∧
        Unstored env seg s := by
  unfold handlePayload
  split
  · next hpay =>
    have hout : (processTCPPayload cfg env seg s).2.state = s.state ∨
        conn (processTCPPayload cfg env seg s).2 =
            { conn s with state := .closed, reason := .noMem } ∧ Unstored env seg s := by
      unfold processTCPPayload
      split_ifs with hbelow habove
      · exact .inl rfl
      · exact .inl rfl
      · split
        · next hnone =>
          unfold ensureRcvbuf at hnone
          split at hnone
          · cases hnone
          · next hb =>
            split at hnone
            · cases hnone
            · next hal =>
              exact .inr ⟨rfl, hpay, hbelow, habove, hb, eq_false_of_ne_true hal⟩
        · next buf _ =>
          obtain ⟨_, _, hconn, _⟩ := conn_receivePayload env seg buf s
          have hst := congrArg Conn.state hconn
          generalize advanceRcvNxt (discardMerged (putPayload env seg buf s)) = r at hst ⊢
          left
          dsimp only
          split_ifs <;> exact hst
    generalize processTCPPayload cfg env seg s = r at hout ⊢
    obtain ⟨ret, w⟩ := r
    have henq : ∀ opt, (enqueueACK w opt).state = s.state ∨
        conn (enqueueACK w opt) = { conn s with state := .closed, reason := .noMem } ∧
          Unstored env seg s := by
      intro opt
      rw [enqueueACK_state, conn_enqueueACK]
      exact hout
    dsimp only
    split
    · exact henq _
    · exact henq _
  · exact .inl rfl

theorem handlePayload_state : (handlePayload cfg env seg s).state = s.state ∨
      (handlePayload cfg env seg s).state = .closed ∧
        (handlePayload cfg env seg s).rcvNxt = s.rcvNxt ∧
        s.rcvvar.rcvbuf = none ∧ env.rbAlloc = false ∧ 0 < seg.payload.length :=
  (handlePayload_conn env seg s).imp id fun ⟨hc, h⟩ =>
    ⟨congrArg Conn.state hc, congrArg Conn.rcvNxt hc, h.rcvbuf, h.alloc, h.payload⟩

/-! No step takes a stream out of CLOSED. -/

theorem dispatch_of_closed (hs : s.state = .closed) : dispatch cfg env seg s = s := by
  unfold dispatch
  rw [hs]

theorem processValidated_arrived : processValidated cfg env seg s = if seg.rst then
      if .synSent < (arrived env seg s).state then
        processRST cfg seg { arrived env seg s with haveReset := true }
      else dispatch cfg env seg { arrived env seg s with haveReset := true }
    else dispatch cfg env seg (arrived env seg s) :=
  rfl

theorem processTCPPacket_of_closed (hs : s.state = .closed) : processTCPPacket cfg env seg s =
      { arrived env seg s with haveReset := (arrived env seg s).haveReset || seg.rst } := by
  have hearly : ¬ TcpState.synRcvd < s.state := by rw [hs]; decide
  have ha : (arrived env seg s).state = .closed := (state_of_conn (arrived_conn env seg s)).trans hs
  unfold processTCPPacket
  have hlow : ¬ TcpState.synSent < (arrived env seg s).state := by rw [ha]; decide
  rw [if_neg hearly, processValidated_arrived, if_neg hlow]
  split
  · next hr => rw [dispatch_of_closed env seg { arrived env seg s with haveReset := true } ha, hr,
      Bool.or_true]
  · next hr => rw [dispatch_of_closed env seg _ ha, eq_false_of_ne_true hr, Bool.or_false]

theorem processTCPPacket_closed (hs : s.state = .closed) :
    (processTCPPacket cfg env seg s).state = .closed := by
  rw [processTCPPacket_of_closed env seg s hs]
  exact (state_of_conn (arrived_conn env seg s)).trans hs

def reopenKinds : List Change := [.revive, .refuse, .synRcvd, .establish]

theorem Path.closed {ks : List Change} {s t : TcpStream} (h : Path ks s t)
    (hks : ∀ k ∈ ks, k ∉ reopenKinds) (hs : s.state = .closed) : t.state = .closed := by
  refine @Path.keeps ks s t (·.state = .closed) h (fun hk hstep hu => ?_) hs
  have hout := hks _ hk
  cases hstep with
  | enter st hlow =>
    rw [hu] at hlow
    exact absurd hlow (by decide)
  | revive | refuse | synRcvd | establish => exact absurd (by decide) hout
  | shut => rfl
  | _ => exact hu

theorem act_closed (a : Action) (hs : s.state = .closed) : (act cfg env s a).state = .closed := by
  have hite : ∀ {c : Prop} [Decidable c] {t : TcpStream}, t.state = .closed →
      (if c then t else s).state = .closed := by
    intro c _ t ht
    split
    · exact ht
    · exact hs
  cases a with
  | rx seg => exact hite (processTCPPacket_closed env seg s hs)
  | rtm => exact (checkRtmTimeout_path cfg env s).closed (by decide) hs
  | rearrange => exact (rearrangeRTOStore_path env s).closed (by decide) hs
  | timewait => exact (checkTimewaitExpire_path cfg env s).closed (by decide) hs
  | timeout => exact hite ((checkConnectionTimeout_path cfg env s).closed (by decide) hs)
  | dequeue q => exact (dequeue_path cfg s q).closed (by decide) hs
  | controlPass room => exact hite ((writeTCPControl_path env _ cfg).closed (by decide) hs)
  | dataPass room => exact hite ((writeTCPData_path env _).closed (by decide) hs)
  | ackPass room => exact hite ((writeTCPACK_path env _).closed (by decide) hs)
  | accept sock => exact hite ((mtcpAccept_path s sock).closed (by decide) hs)
  | write bytes => exact hite ((mtcpWrite_path cfg env s bytes).closed (by decide) hs)
  | recv nonblock peek len =>
    exact hite ((mtcpRecv_path s nonblock peek len).closed (by decide) hs)
  | close => exact hite ((mtcpClose_path s).closed (by decide) hs)
  | abort => exact hite ((mtcpAbort_path s).closed (by decide) hs)

theorem step_closed (e : Env × Action) (hs : s.state = .closed) :
    (step cfg s e).state = .closed := by
  unfold step
  split
  · exact act_closed e.1 s e.2 hs
  · exact hs

/-! Inside one segment. -/

theorem Absorbing.append {states rest : List TcpState} {last : TcpState}
    (h : Absorbing (states ++ [last])) (hrest : Absorbing (last :: rest)) :
    Absorbing (states ++ last :: rest) := by
  obtain ⟨h1, _, h3⟩ := pairwise_append.mp h
  refine pairwise_append.mpr ⟨h1, hrest, fun a ha b hb hclosed => ?_⟩
  have hlast := h3 a ha last (mem_singleton_self last) hclosed
  obtain rfl | hb := mem_cons.mp hb
  · exact hlast
  · exact rel_of_pairwise_cons hrest hb hlast

/-- The states of a step: they end in the state it leaves, and CLOSED absorbs. -/
structure StepStates (before after : TcpState) (states : List TcpState) : Prop where
  last : ∃ first, states = first ++ [after]
  absorbing : Absorbing (before :: states)

theorem StepStates.single {before after : TcpState} (h : before = .closed → after = .closed) :
    StepStates before after [after] := by
  refine ⟨⟨[], rfl⟩, ?_⟩
  simpa [Absorbing] using h

theorem StepStates.cons {before mid after : TcpState} {states : List TcpState}
    (h : before = .closed → mid = .closed) (hs : StepStates mid after states) :
    StepStates before after (mid :: states) := by
  obtain ⟨first, rfl⟩ := hs.last
  refine ⟨⟨mid :: first, rfl⟩, ?_⟩
  exact @Absorbing.append [before] _ _ (by simpa [Absorbing] using h) hs.absorbing

theorem established_states (hs : s.state = .established)
    (hmem : s.rcvvar.rcvbuf = none → env.rbAlloc = false → 0 < seg.payload.length →
      seg.fin → seg.syn = false → seg.seq + seg.payloadlen ≠ s.rcvNxt) :
    StepStates s.state (handleEstablished cfg env seg s).state
      (visitedEstablished cfg env seg s) := by
  have hopen : s.state ≠ .closed := by
    rw [hs]
    decide
  unfold visitedEstablished
  split
  · exact .single fun h => absurd h hopen
  · next hsyn =>
    dsimp only
    have hp := @handlePayload_state cfg env seg s
    have hlast : (handlePayload cfg env seg s).state = .closed →
        (handleEstablished cfg env seg s).state = .closed := by
      intro hclosed
      obtain h | ⟨_, hn, hb, hal, hpay⟩ := hp
      · exact absurd (h.symm.trans hclosed) hopen
      · unfold handleEstablished
        rw [if_neg hsyn]
        dsimp only
        generalize handlePayload cfg env seg s = p at hclosed hn ⊢
        have ha : (if seg.ack then handleAck env seg p else p).state = .closed ∧
            (if seg.ack then handleAck env seg p else p).rcvNxt = s.rcvNxt := by
          split
          · exact ⟨(handleAck_state env seg p).trans hclosed, (handleAck_rcvNxt env seg p).trans hn⟩
          · exact ⟨hclosed, hn⟩
        generalize (if seg.ack then handleAck env seg p else p) = a at ha ⊢
        split
        · next hfin =>
          have hclosed := hmem hb hal hpay hfin (eq_false_of_ne_true hsyn)
          rw [if_neg (by rw [ha.2]; exact hclosed)]
          exact (enqueueACK_state a _).trans ha.1
        · exact ha.1
    have ha : (if seg.ack then handleAck env seg (handlePayload cfg env seg s)
        else handlePayload cfg env seg s).state = (handlePayload cfg env seg s).state := by
      split
      · exact handleAck_state env seg _
      · rfl
    rw [ha]
    exact .cons (fun h => absurd h hopen) (.cons id (.single hlast))

theorem ackOfFin_closed (hs : s.state = .finWait1) :
    (ackOfFin seg s).state = .finWait1 ∨ (ackOfFin seg s).state = .finWait2 := by
  unfold ackOfFin
  split
  · exact .inr rfl
  · exact .inl hs

theorem finAfterClose_closed (hs : s.state = .closed) :
    (finAfterClose cfg env seg s).state = .closed := by
  unfold finAfterClose
  split
  · dsimp only [TcpStream.log]
    rw [hs]
    exact addtoControlList_state _
  · exact hs

theorem finWait1_states (hs : s.state = .finWait1) :
    StepStates s.state (handleFinWait1 cfg env seg s).state (visitedFinWait1 cfg env seg s) := by
  have hopen : s.state ≠ .closed := by
    rw [hs]
    decide
  unfold visitedFinWait1
  split
  · exact .single fun h => absurd h hopen
  · next hin =>
    simp only [Bool.or_eq_true, Bool.not_eq_true', not_or, Bool.not_eq_true,
      Bool.not_eq_false] at hin
    have ha : (handleAck env seg s).state = .finWait1 := (handleAck_state env seg s).trans hs
    have hf := ackOfFin_closed seg (handleAck env seg s) ha
    have hlast : (handlePayload cfg env seg (ackOfFin seg (handleAck env seg s))).state = .closed →
        (handleFinWait1 cfg env seg s).state = .closed := by
      intro hclosed
      unfold handleFinWait1
      rw [if_neg (by rw [hin.1]; decide), if_pos hin.2]
      exact finAfterClose_closed env seg _ hclosed
    refine .cons (fun h => absurd h hopen)
      (.cons (fun h => ?_) (.cons (fun h => ?_) (.single hlast)))
    · rw [ha] at h
      cases h
    · obtain hf | hf := hf <;> rw [hf] at h <;> cases h

theorem finWait2_states (hs : s.state = .finWait2)
    (hmem : s.rcvvar.rcvbuf = none → env.rbAlloc = false → 0 < seg.payload.length →
      seg.fin → seg.ack → seg.seq + seg.payloadlen ≠ s.rcvNxt) :
    StepStates s.state (handleFinWait2 cfg env seg s).state (visitedFinWait2 cfg env seg s) := by
  have hopen : s.state ≠ .closed := by
    rw [hs]
    decide
  have ha : (handleAck env seg s).state = .finWait2 := (handleAck_state env seg s).trans hs
  have hb := handleAck_rcvbuf env seg s
  have hn := handleAck_rcvNxt env seg s
  unfold visitedFinWait2
  split
  · next hack =>
    have hp := @handlePayload_state cfg env seg (handleAck env seg s)
    have hlast : (handlePayload cfg env seg (handleAck env seg s)).state = .closed →
        (handleFinWait2 cfg env seg s).state = .closed := by
      intro hclosed
      obtain h | ⟨_, hn', hb', hal, hpay⟩ := hp
      · rw [ha, hclosed] at h
        cases h
      · unfold handleFinWait2
        rw [if_pos hack]
        rw [hb] at hb'
        rw [hn] at hn'
        rw [if_neg (fun h => hmem hb' hal hpay h.1 hack (h.2.trans hn'))]
        exact hclosed
    refine .cons (fun h => absurd h hopen) (.cons (fun h => ?_) (.single hlast))
    rw [ha] at h
    cases h
  · exact .single fun h => absurd h hopen

theorem enterTimeout_recv : (if 0 < cfg.tcpTimeout then addtoTimeoutList s else s).state = s.state ∧
      (if 0 < cfg.tcpTimeout then addtoTimeoutList s else s).rcvNxt = s.rcvNxt ∧
      (if 0 < cfg.tcpTimeout then addtoTimeoutList s else s).rcvvar = s.rcvvar ∧
      (if 0 < cfg.tcpTimeout then addtoTimeoutList s else s).sndvar = s.sndvar := by
  unfold addtoTimeoutList
  split_ifs <;> exact ⟨rfl, rfl, rfl, rfl⟩

theorem addtoControlList_recv : (addtoControlList s).rcvNxt = s.rcvNxt ∧
    (addtoControlList s).rcvvar = s.rcvvar := by
  unfold addtoControlList
  split <;> exact ⟨rfl, rfl⟩

theorem addtoControlList_control : (addtoControlList s).sndvar.onControlList :=
  congrArg Conn.control (conn_addtoControlList s)

theorem offerToListener_recv : (offerToListener cfg env s).rcvNxt = s.rcvNxt ∧
      (offerToListener cfg env s).rcvvar = s.rcvvar ∧
      ((offerToListener cfg env s).state = s.state ∧ env.listener ≠ some false ∧
          (offerToListener cfg env s).sndvar = s.sndvar ∨
        (offerToListener cfg env s).state = .closed ∧ env.listener = some false ∧
          (offerToListener cfg env s).sndvar.onControlList) := by
  unfold offerToListener
  split
  · next hnone =>
    refine ⟨rfl, rfl, .inl ⟨rfl, ?_, rfl⟩⟩
    rw [hnone]
    decide
  · next room hroom =>
    dsimp only [raiseEvent, TcpStream.log]
    cases room with
    | true =>
      rw [if_pos rfl]
      obtain ⟨h1, h2, h3, h4⟩ := @enterTimeout_recv cfg (s.link .acceptq)
      refine ⟨h2, h3, .inl ⟨h1, ?_, h4⟩⟩
      rw [hroom]
      decide
    | false =>
      rw [if_neg Bool.false_ne_true]
      have hc := addtoControlList_recv { s with closeReason := .notAccepted, state := .closed }
      have hst := addtoControlList_state { s with closeReason := .notAccepted, state := .closed }
      have hon := addtoControlList_control { s with closeReason := .notAccepted, state := .closed }
      generalize addtoControlList { s with closeReason := .notAccepted, state := .closed } = u
        at hc hst hon ⊢
      obtain ⟨h1, h2, h3, h4⟩ := @enterTimeout_recv cfg u
      refine ⟨h2.trans hc.1, h3.trans hc.2, .inr ⟨h1.trans hst, hroom, ?_⟩⟩
      rw [h4]
      exact hon

theorem removeFromRTOList_recv : (removeFromRTOList s).rcvNxt = s.rcvNxt ∧
    (removeFromRTOList s).rcvvar = s.rcvvar ∧ (removeFromRTOList s).sndvar = s.sndvar := by
  unfold removeFromRTOList
  split <;> exact ⟨rfl, rfl, rfl⟩

/-- `Handle_TCP_ST_SYN_RCVD` waits, or our SYN is acknowledged, with or without room for the stream.
-/
inductive SynRcvdCase (env : Env) (seg : Segment) (s t : TcpStream) : Prop
  | wait (hst : t.state = .synRcvd)
  | opened (hst : t.state = .established) (hn : t.rcvNxt = s.rcvvar.irs + 1)
      (hr : t.rcvvar = s.rcvvar) (hack : seg.ack = true) (hseq : seg.ackSeq = s.sndvar.iss + 1)
      (hlisten : env.listener ≠ some false)
      (hcontrol : t.sndvar.onControlList = s.sndvar.onControlList)
  | refused (hst : t.state = .closed) (hcontrol : t.sndvar.onControlList = true)

theorem handleSynRcvd_cases (hs : s.state = .synRcvd) :
    SynRcvdCase env seg s (handleSynRcvd cfg env seg s) := by
  unfold handleSynRcvd
  split
  · next hack =>
    split
    · exact .wait hs
    · next hseq =>
      have hc := removeFromRTOList_recv { s with
        sndvar.sndUna := s.sndvar.sndUna + 1, sndvar.cwnd := openingCwnd s.sndvar, sndvar.nrtx := 0
        sndNxt := seg.ackSeq
        rcvNxt := s.rcvvar.irs + 1 }
      generalize removeFromRTOList _ = u at hc ⊢
      obtain ⟨h1, h2, ⟨h3, hl, h4⟩ | ⟨h3, _, hon⟩⟩ := @offerToListener_recv cfg env u.establish
      · refine .opened h3 (h1.trans hc.1) (h2.trans hc.2.1) hack (not_not.mp hseq) hl ?_
        have hu := congrArg TcpSendVars.onControlList hc.2.2
        rw [h4]
        exact hu
      · exact .refused h3 hon
  · exact .wait ((addtoControlList_state _).trans hs)

theorem handleSynRcvd_recv (hs : s.state = .synRcvd)
    (hest : (handleSynRcvd cfg env seg s).state = .established) :
    (handleSynRcvd cfg env seg s).rcvNxt = s.rcvvar.irs + 1 ∧
      (handleSynRcvd cfg env seg s).rcvvar = s.rcvvar := by
  cases @handleSynRcvd_cases cfg env seg s hs with
  | wait hst =>
    rw [hest] at hst
    cases hst
  | opened _ hn hr => exact ⟨hn, hr⟩
  | refused hst =>
    rw [hest] at hst
    cases hst

theorem dispatch_states (hmem : finWithoutMemory env s seg = false) :
    StepStates s.state (dispatch cfg env seg s).state (visitedDispatch cfg env seg s) := by
  unfold visitedDispatch
  split
  · next hs =>
    have hd : dispatch cfg env seg s =
        if seg.syn ∧ seg.seq = s.rcvvar.irs then handleListen seg s
        else if 0 < seg.payload.length ∧ (handleSynRcvd cfg env seg s).state = .established then
          handleEstablished cfg env seg (handleSynRcvd cfg env seg s)
        else handleSynRcvd cfg env seg s := by
      rw [dispatch, hs]
    rw [hd]
    unfold visitedSynRcvd
    have hne : s.state ≠ .closed := by
      rw [hs]
      decide
    split
    · exact .single fun h => absurd h hne
    · dsimp only
      split
      · next hest =>
        obtain ⟨hn, hb⟩ := handleSynRcvd_recv env seg s hs hest.2
        refine .cons (fun h => absurd h hne) (established_states env seg _ hest.2 ?_)
        rw [hn, hb]
        intro h1 h2 h3 h4 h5 h6
        simp [finWithoutMemory, h1, h2, h3, h4, h5, h6, hs] at hmem
      · exact .single fun h => absurd h hne
  · next hs =>
    rw [show dispatch cfg env seg s = handleEstablished cfg env seg s by rw [dispatch, hs]]
    refine established_states env seg s hs fun h1 h2 h3 h4 h5 h6 => ?_
    simp [finWithoutMemory, h1, h2, h3, h4, h5, h6, hs] at hmem
  · next hs =>
    rw [show dispatch cfg env seg s = handleFinWait1 cfg env seg s by rw [dispatch, hs]]
    exact finWait1_states env seg s hs
  · next hs =>
    rw [show dispatch cfg env seg s = handleFinWait2 cfg env seg s by rw [dispatch, hs]]
    refine finWait2_states env seg s hs fun h1 h2 h3 h4 h5 h6 => ?_
    simp [finWithoutMemory, h1, h2, h3, h4, h5, h6, hs] at hmem
  · refine .single fun h => ?_
    unfold dispatch
    rw [h]
    exact h

theorem finWithoutMemory_congr {env : Env} {s t : TcpStream} (seg : Segment)
    (h : conn t = conn s) : finWithoutMemory env t seg = finWithoutMemory env s seg := by
  have h1 : t.rcvvar.rcvbuf = s.rcvvar.rcvbuf := congrArg Conn.rcvbuf h
  have h2 : t.state = s.state := congrArg Conn.state h
  have h3 : t.rcvNxt = s.rcvNxt := congrArg Conn.rcvNxt h
  have h4 : t.rcvvar.irs = s.rcvvar.irs := congrArg Conn.irs h
  unfold finWithoutMemory
  rw [h1, h2, h3, h4]

theorem processValidated_eq (hr : seg.rst = false) :
    processValidated cfg env seg s = dispatch cfg env seg (arrived env seg s) := by
  rw [processValidated_arrived, hr]
  rfl

theorem packet_states
    (hmem : (seg.rst || !validated cfg env seg s || !finWithoutMemory env s seg)) :
    StepStates s.state (processTCPPacket cfg env seg s).state (visitedPacket cfg env seg s) := by
  unfold visitedPacket
  cases hr : seg.rst with
  | true => exact .single (processTCPPacket_closed env seg s)
  | false =>
    have hgo : ∀ t, conn t = conn s → validated cfg env seg s →
        StepStates s.state (processValidated cfg env seg t).state
          (visitedDispatch cfg env seg (arrived env seg t)) := by
      intro t ht hval
      have hc := (arrived_conn env seg t).trans ht
      have hfin : finWithoutMemory env (arrived env seg t) seg = false := by
        rw [finWithoutMemory_congr seg hc]
        simpa [hr, hval] using hmem
      rw [processValidated_eq env seg t hr, ← state_of_conn hc]
      exact dispatch_states env seg _ hfin
    unfold processTCPPacket
    split
    · next hlate =>
      have hst := (validateSequence_path cfg env seg s).state (by decide)
      have htrue := @validateSequence_true cfg env seg s
      have hval : (validateSequence cfg env seg s).1 → validated cfg env seg s := by
        intro h
        unfold validated
        rw [h, Bool.or_true]
      generalize validateSequence cfg env seg s = r at hst htrue hval ⊢
      obtain ⟨ok, u⟩ := r
      cases ok with
      | false =>
        dsimp only at hst ⊢
        rw [hst]
        exact .single id
      | true =>
        obtain ⟨_, _, _, rfl : u = _⟩ := htrue rfl
        exact hgo _ rfl (hval rfl)
    · next hearly =>
      refine hgo s rfl ?_
      unfold validated
      rw [decide_eq_false hearly]
      rfl

theorem step_states (e : Env × Action) (hc : memoryForFin cfg s e) :
    StepStates s.state (step cfg s e).state (visited cfg s e) := by
  obtain ⟨env, a⟩ := e
  unfold visited
  cases a with
  | rx seg =>
    dsimp only
    split
    · next h =>
      have hstep : step cfg s (env, .rx seg) = processTCPPacket cfg env seg s := by
        unfold step act
        rw [if_pos h.1]
        dsimp only
        rw [if_pos h.2]
      rw [hstep]
      exact packet_states env seg s hc
    · exact .single (step_closed s _)
  | _ => exact .single (step_closed s _)

/-- Along every run in which no FIN is processed after its payload found no memory, a stream
that was set to CLOSED stays CLOSED, inside a segment and after it. -/
theorem closed_is_absorbing (es : List (Env × Action))
    (ha : Along (step cfg) (fun s e => memoryForFin cfg s e = true) s es) :
    Absorbing (s.state :: runVisited cfg s es) := by
  induction es generalizing s with
  | nil => exact List.pairwise_singleton _ _
  | cons e es ih =>
    obtain ⟨⟨first, hlast⟩, habs⟩ := step_states s e ha.1
    rw [hlast] at habs
    change Absorbing (s.state :: (visited cfg s e ++ runVisited cfg (step cfg s e) es))
    rw [hlast, List.append_assoc]
    exact @Absorbing.append (s.state :: first) _ _ habs (ih _ ha.2)

theorem closed_is_absorbing_client :
    (run .small client (atRest [.dequeue .connectq, .controlPass 1, .abort])).state = .closed ∧
      Absorbing (client.state :: runVisited .small client (atRest [.dequeue .connectq,
        .controlPass 1, .abort, .rx { seq := 500, ackSeq := 101, syn := true, ack := true }])) :=
  ⟨by decide, closed_is_absorbing _ _ (by decide)⟩

/-- No memory for a byte that comes with the FIN: CLOSED, then CLOSE_WAIT. -/
theorem no_memory_leaves_closed :
    runVisited .small (run .small client (atRest clientHandshake))
      [({ rbAlloc := false },
        .rx { seq := 500, ackSeq := 101, ack := true, fin := true, payload := [7] })] =
      [.closed, .closed, .closeWait] ∧ ¬ Absorbing [.closed, .closed, .closeWait] := by
  decide

end Mtcp
