import Mtcp.Reachable
import Mtcp.Ties.Steps

namespace Mtcp

open Serial Runs Bool

variable {cfg : Config}

/-! Closed streams, and who can still destroy them. -/

/-- On one of the queues, or on the list, whose turn destroys a closed stream. -/
def TcpStream.queued (s : TcpStream) : Bool :=
  [.destroyq, .resetq, .resetqInt, .closeq, .closeqInt, .control].any fun q => decide (0 < s.occ q)

def TcpStream.referenced (s : TcpStream) : Bool := s.attached || s.queued

/-- A stream exists as long as it is on the flow table, which `DestroyTCPStream` takes it off. -/
def Reclaimable (s : TcpStream) : Prop :=
  s.onHashTable = true → s.state = .closed → s.referenced = true

instance (s : TcpStream) : Decidable (Reclaimable s) :=
  inferInstanceAs (Decidable (s.onHashTable = true → s.state = .closed → s.referenced = true))

/-- A payload for which there is no memory. A FIN in sequence still takes the stream out of CLOSED
or to the control list. -/
def dispatchLoses (env : Env) (seg : Segment) (s : TcpStream) : Bool :=
  decide (0 < seg.payload.length) && s.rcvvar.rcvbuf.isNone && !env.rbAlloc &&
    match s.state with
    | .synRcvd =>
      !seg.syn && seg.ack && seg.ackSeq == s.sndvar.iss + 1 && env.listener != some false &&
        !lt (seg.seq + seg.payloadlen) (s.rcvvar.irs + 1) &&
        !gt (seg.seq + seg.payloadlen) (s.rcvvar.irs + 1 + s.rcvvar.rcvWnd) &&
        !(seg.fin && seg.seq + seg.payloadlen == s.rcvvar.irs + 1)
    | .established => !seg.syn && !(seg.fin && seg.seq + seg.payloadlen == s.rcvNxt)
    | .finWait1 =>
      seg.ack && !lt seg.seq s.rcvNxt && !(seg.fin && seg.seq + seg.payloadlen == s.rcvNxt)
    | .finWait2 => seg.ack && !(seg.fin && seg.seq + seg.payloadlen == s.rcvNxt)
    | _ => false

def packetLoses (cfg : Config) (env : Env) (seg : Segment) (s : TcpStream) : Bool :=
  !seg.rst && validated cfg env seg s && dispatchLoses env seg s

def givesUp (env : Env) (s : TcpStream) : Bool :=
  rtoExpired env s && decide (s.closeReason = .notClosed) &&
    (!decide (s.sndvar.nrtx < 16) || decide (s.state = .synSent) && decide (7 < s.sndvar.nrtx + 1))

def timesOut (cfg : Config) (env : Env) (s : TcpStream) : Bool :=
  s.onTimeoutList && decide (cfg.tcpTimeout ≤ signed (env.curTs - s.lastActiveTs))

/-- A request that goes over to the queue for streams with something still to send. -/
def passedOn (q : StreamList) (s : TcpStream) : Bool :=
  match q with
  | .resetq => !s.haveReset && flushing s
  | .resetqInt => flushing s
  | .destroyq => true
  | _ => false

/-- The events that do not take the last reference from a closed stream: an abort or a second
close of it, a close or reset request for it, a payload without memory, or a timer that
reports to a socket freed before. -/
def keepsReference (cfg : Config) (s : TcpStream) (e : Env × Action) : Bool :=
  match e.2 with
  | .rx seg => s.referenced || !packetLoses cfg e.1 seg s
  | .rtm => !(s.socketFreed && givesUp e.1 s) || s.queued
  | .timeout => !(s.socketFreed && timesOut cfg e.1 s) || s.queued
  | .dequeue q => s.state != .closed || (s.unlink q).referenced || passedOn q s
  | .close => s.state != .closed || !s.closed || s.queued
  | .abort => s.state != .closed || s.queued
  | _ => true

/-! References are not lost where ties are kept. -/

theorem referenced_of_queued {s : TcpStream} (h : s.queued) : s.referenced := by
  unfold TcpStream.referenced
  rw [h, Bool.or_true]

theorem queued_iff {s : TcpStream} : s.queued ↔
    0 < s.occ .destroyq ∨ 0 < s.occ .resetq ∨ 0 < s.occ .resetqInt ∨ 0 < s.occ .closeq ∨
      0 < s.occ .closeqInt ∨ 0 < s.occ .control := by
  simp [TcpStream.queued]

theorem Listed.control_occ {s : TcpStream} (h : Listed cfg s) :
    s.occ .control = s.sndvar.onControlList.toNat :=
  h.agrees .control rfl

theorem Listed.on_control {s : TcpStream} (h : Listed cfg s) (hpos : 0 < s.occ .control) :
    s.sndvar.onControlList := by
  rw [h.control_occ] at hpos
  cases hon : s.sndvar.onControlList with
  | true => rfl
  | false =>
    rw [hon] at hpos
    cases hpos

theorem Listed.queued_of_control {s : TcpStream} (h : Listed cfg s)
    (hon : s.sndvar.onControlList) : s.queued := by
  rw [queued_iff, h.control_occ, hon]
  exact .inr (.inr (.inr (.inr (.inr Nat.one_pos))))

theorem MoreTies.queued {s t : TcpStream} (h : MoreTies cfg s t) (hs : Listed cfg s)
    (hcontrol : s.sndvar.onControlList → t.sndvar.onControlList) (hq : s.queued) : t.queued := by
  have hle : ∀ q, q.queue → 0 < s.occ q → 0 < t.occ q :=
    fun q hq hpos => hpos.trans_le (h.queues q hq)
  rw [queued_iff] at hq ⊢
  refine hq.imp (hle _ rfl) (.imp (hle _ rfl) (.imp (hle _ rfl) (.imp (hle _ rfl)
    (.imp (hle _ rfl) fun hpos => ?_))))
  rw [(h.listed hs).control_occ, hcontrol (hs.on_control hpos)]
  decide

theorem MoreTies.referenced {s t : TcpStream} (h : MoreTies cfg s t) (hs : Listed cfg s)
    (hcontrol : s.sndvar.onControlList → t.sndvar.onControlList)
    (hr : s.referenced) : t.referenced := by
  unfold TcpStream.referenced at hr ⊢
  rw [or_eq_true] at hr ⊢
  exact hr.imp (fun ha => h.attached.trans ha) (h.queued hs hcontrol)

/-! A segment that leaves an open stream CLOSED. -/

/-- How a segment leaves a stream CLOSED without destroying it: an RST is to be sent, or its
payload found no memory. -/
def ClosedBy (env : Env) (seg : Segment) (s t : TcpStream) : Prop :=
  t.state = .closed → t.onHashTable = true → t.sndvar.onControlList = true ∨
    dispatchLoses env seg s = true ∧ t.sndvar.onControlList = s.sndvar.onControlList

theorem ClosedBy.of_state {env : Env} {seg : Segment} {s t : TcpStream} {st : TcpState}
    (hst : t.state = st) (hne : st ≠ .closed) : ClosedBy env seg s t :=
  fun hc _ => absurd (hst.symm.trans hc) hne

theorem destroyed_gone {p : Prop} {s : TcpStream} (h : (destroyTCPStream cfg s).onHashTable) :
    p := by
  rw [(destroyTCPStream_destroyed s).alive] at h
  cases h

theorem finInSequence_eq_false {seg : Segment} {x : UInt32}
    (h : ¬ (seg.fin ∧ seg.seq + seg.payloadlen = x)) :
    (seg.fin && seg.seq + seg.payloadlen == x) = false := by
  rw [← not_eq_true, and_eq_true, beq_iff_eq]
  exact h

theorem Path.open {ks : List Change} {s t : TcpStream} (h : Path ks s t) (hks : .shut ∉ ks)
    (hs : s.state ≠ .closed) : t.state ≠ .closed := by
  refine @Path.keeps ks s t (·.state ≠ .closed) h (fun hk hstep hu => ?_) hs
  cases hstep with
  | shut => exact absurd hk hks
  | enter st _ hle | revive st _ hle =>
    rintro rfl
    exact absurd hle (by decide)
  | refuse | synRcvd | establish => exact nofun
  | _ => exact hu

variable (env : Env) (seg : Segment)

theorem handleEstablished_closed (s : TcpStream) (hs : s.state = .established)
    (hc : (handleEstablished cfg env seg s).state = .closed) :
    seg.syn = false ∧ Unstored env seg s ∧ ¬ (seg.fin ∧ seg.seq + seg.payloadlen = s.rcvNxt) ∧
      (handleEstablished cfg env seg s).sndvar.onControlList = s.sndvar.onControlList := by
  unfold handleEstablished at hc ⊢
  split at hc
  · rw [addtoControlList_state] at hc
    rw [hs] at hc
    cases hc
  · next hsyn =>
    rw [if_neg hsyn]
    have hp := @handlePayload_conn cfg env seg s
    dsimp only at hc ⊢
    generalize handlePayload cfg env seg s = p at hp hc ⊢
    have ha : SendOnly (conn p) (conn (if seg.ack then handleAck env seg p else p)) := by
      split
      · exact handleAck_sendOnly env seg p
      · exact .refl _
    generalize (if seg.ack then handleAck env seg p else p) = a at ha hc ⊢
    have hstate : a.state = p.state := congrArg Conn.state ha
    have hnxt : a.rcvNxt = p.rcvNxt := congrArg Conn.rcvNxt ha
    have hcontrol : a.sndvar.onControlList = p.sndvar.onControlList := congrArg Conn.control ha
    -- Only a payload without memory closes the stream, and a FIN in sequence reopens it.
    have hlost : p.state = .closed →
        conn p = { conn s with state := .closed, reason := .noMem } ∧ Unstored env seg s := by
      intro hclosed
      obtain h | h := hp
      · rw [hclosed, hs] at h
        cases h
      · exact h
    split at hc
    · next hfin =>
      rw [if_pos hfin]
      split at hc
      · change (addtoControlList _).state = .closed at hc
        rw [addtoControlList_state] at hc
        cases hc
      · next hseq =>
        rw [if_neg hseq]
        rw [enqueueACK_state] at hc
        obtain ⟨hconn, hun⟩ := hlost (hstate ▸ hc)
        refine ⟨eq_false_of_ne_true hsyn, hun, fun h => hseq ?_, ?_⟩
        · rw [hnxt, show p.rcvNxt = s.rcvNxt from congrArg Conn.rcvNxt hconn]
          exact h.2
        · have henq := congrArg Conn.control (conn_enqueueACK a .now)
          exact henq.trans (hcontrol.trans (congrArg Conn.control hconn))
    · next hfin =>
      rw [if_neg hfin]
      obtain ⟨hconn, hun⟩ := hlost (hstate ▸ hc)
      exact ⟨eq_false_of_ne_true hsyn, hun, fun h => hfin h.1,
        hcontrol.trans (congrArg Conn.control hconn)⟩

theorem handlePayload_closing {s u : TcpStream} (hu : u.state = .finWait1 ∨ u.state = .finWait2)
    (hbuf : u.rcvvar.rcvbuf = s.rcvvar.rcvbuf) (hnxt : u.rcvNxt = s.rcvNxt)
    (hcontrol : u.sndvar.onControlList = s.sndvar.onControlList)
    (hc : (handlePayload cfg env seg u).state = .closed) :
    0 < seg.payload.length ∧ s.rcvvar.rcvbuf = none ∧ env.rbAlloc = false ∧
      (handlePayload cfg env seg u).rcvNxt = s.rcvNxt ∧
      (handlePayload cfg env seg u).sndvar.onControlList = s.sndvar.onControlList := by
  obtain h | ⟨hconn, hun⟩ := @handlePayload_conn cfg env seg u
  · rw [hc] at h
    obtain hu | hu := hu <;> rw [hu] at h <;> cases h
  · exact ⟨hun.payload, hbuf ▸ hun.rcvbuf, hun.alloc, (congrArg Conn.rcvNxt hconn).trans hnxt,
      (congrArg Conn.control hconn).trans hcontrol⟩

theorem handleFinWait1_closed (s : TcpStream) (hs : s.state = .finWait1) :
    ClosedBy env seg s (handleFinWait1 cfg env seg s) := by
  unfold handleFinWait1
  split
  · exact .of_state ((addtoControlList_state s).trans hs) (by decide)
  · next hseq =>
    split
    · next hack =>
      have hsend := handleAck_sendOnly env seg s
      generalize handleAck env seg s = a at hsend ⊢
      have hfin : (ackOfFin seg a).state = .finWait1 ∨ (ackOfFin seg a).state = .finWait2 :=
        ackOfFin_closed seg a ((congrArg Conn.state hsend).trans hs)
      have hframe : (ackOfFin seg a).rcvvar.rcvbuf = a.rcvvar.rcvbuf ∧
          (ackOfFin seg a).rcvNxt = a.rcvNxt ∧
          (ackOfFin seg a).sndvar.onControlList = a.sndvar.onControlList := by
        unfold ackOfFin removeFromRTOList
        dsimp only
        split_ifs <;> exact ⟨rfl, rfl, rfl⟩
      generalize ackOfFin seg a = f at hfin hframe ⊢
      have hlost := @handlePayload_closing cfg env seg s f hfin
        (hframe.1.trans (congrArg Conn.rcvbuf hsend))
        (hframe.2.1.trans (congrArg Conn.rcvNxt hsend))
        (hframe.2.2.trans (congrArg Conn.control hsend))
      have hpst := @handlePayload_state cfg env seg f
      generalize handlePayload cfg env seg f = p at hlost hpst ⊢
      unfold finAfterClose
      split
      · exact fun _ _ => .inl (addtoControlList_control _)
      · next hno =>
        intro hc _
        obtain ⟨h1, h2, h3, h4, h5⟩ := hlost hc
        refine .inr ⟨?_, h5⟩
        rw [h4] at hno
        simp [dispatchLoses, hs, h1, h2, h3, hack, hseq, finInSequence_eq_false hno]
    · exact .of_state hs (by decide)

theorem handleFinWait2_closed (s : TcpStream) (hs : s.state = .finWait2) :
    ClosedBy env seg s (handleFinWait2 cfg env seg s) := by
  unfold handleFinWait2
  split
  · next hack =>
    have hsend := handleAck_sendOnly env seg s
    dsimp only
    generalize handleAck env seg s = a at hsend ⊢
    have hlost := @handlePayload_closing cfg env seg s a
      (.inr ((congrArg Conn.state hsend).trans hs)) (congrArg Conn.rcvbuf hsend)
      (congrArg Conn.rcvNxt hsend) (congrArg Conn.control hsend)
    generalize handlePayload cfg env seg a = p at hlost ⊢
    split
    · exact fun _ _ => .inl (addtoControlList_control _)
    · next hno =>
      intro hc _
      obtain ⟨h1, h2, h3, h4, h5⟩ := hlost hc
      refine .inr ⟨?_, h5⟩
      rw [h4] at hno
      simp [dispatchLoses, hs, h1, h2, h3, hack, finInSequence_eq_false hno]
  · exact .of_state hs (by decide)

theorem handleLastAck_closed (s : TcpStream) (hs : s.state = .lastAck) :
    ClosedBy env seg s (handleLastAck cfg env seg s) := by
  have ha : (handleAck env seg s).state = .lastAck := (handleAck_state env seg s).trans hs
  unfold handleLastAck
  dsimp only
  generalize handleAck env seg s = a at ha ⊢
  split_ifs
  · exact .of_state hs (by decide)
  · exact .of_state ha (by decide)
  · exact fun _ => destroyed_gone
  · exact .of_state ((addtoControlList_state a).trans ha) (by decide)
  · exact .of_state ((addtoControlList_state s).trans hs) (by decide)

theorem synRcvd_closed (s : TcpStream) (hs : s.state = .synRcvd) : ClosedBy env seg s
      (if 0 < seg.payload.length ∧ (handleSynRcvd cfg env seg s).state = .established then
        handleEstablished cfg env seg (handleSynRcvd cfg env seg s)
      else handleSynRcvd cfg env seg s) := by
  have hcases := @handleSynRcvd_cases cfg env seg s hs
  generalize handleSynRcvd cfg env seg s = t at hcases ⊢
  split
  · next hest =>
    cases hcases with
    | wait hst =>
      rw [hest.2] at hst
      cases hst
    | opened _ hn hr hack hseq hlisten hcontrol =>
      intro hc _
      obtain ⟨hsyn, hun, hfin, hkeep⟩ := handleEstablished_closed env seg t hest.2 hc
      refine .inr ⟨?_, hkeep.trans hcontrol⟩
      have hbelow := hun.below
      have habove := hun.above
      have hbuf := hun.rcvbuf
      rw [hn] at hbelow hfin
      rw [hn, hr] at habove
      rw [hr] at hbuf
      simp [dispatchLoses, hs, hun.payload, hbuf, hun.alloc, hsyn, hack, hseq, hlisten, hbelow,
        habove, finInSequence_eq_false hfin]
    | refused hst =>
      rw [hest.2] at hst
      cases hst
  · cases hcases with
    | wait hst => exact .of_state hst (by decide)
    | opened hst => exact .of_state hst (by decide)
    | refused _ hcontrol => exact fun _ _ => .inl hcontrol

theorem dispatch_closedBy (s : TcpStream) (hs : s.state ≠ .closed) :
    ClosedBy env seg s (dispatch cfg env seg s) := by
  have hopen : ∀ {ks t}, Path ks s t → .shut ∉ ks → ClosedBy env seg s t :=
    fun h hks hc => absurd hc (h.open hks hs)
  have hlisten := hopen (handleListen_path seg s) (by decide)
  unfold dispatch
  split
  · exact hlisten
  · exact hopen (handleSynSent_path cfg env seg s) (by decide)
  · next hst =>
    split
    · exact hlisten
    · exact synRcvd_closed env seg s hst
  · next hst =>
    intro hc _
    obtain ⟨hsyn, hun, hfin, hkeep⟩ := handleEstablished_closed env seg s hst hc
    refine .inr ⟨?_, hkeep⟩
    simp [dispatchLoses, hst, hun.payload, hun.rcvbuf, hun.alloc, hsyn, finInSequence_eq_false hfin]
  · exact hopen (handleCloseWait_path env seg s) (by decide)
  · next hst => exact handleLastAck_closed env seg s hst
  · next hst => exact handleFinWait1_closed env seg s hst
  · next hst => exact handleFinWait2_closed env seg s hst
  · next hst => exact hopen (handleClosing_path cfg env seg s hst) (by decide)
  · exact hopen (handleTimeWait_path cfg env s) (by decide)
  · next hst => exact absurd hst hs

theorem processRST_closed (s : TcpStream) (hs : s.state ≠ .closed) :
    (processRST cfg seg s).state = .closed → (processRST cfg seg s).onHashTable → False := by
  unfold processRST
  split
  · split
    · exact fun _ => destroyed_gone
    · exact fun hc _ => hs hc
  iterate 5 exact fun _ => destroyed_gone
  · split
    · exact fun hc _ => hs hc
    · nofun

theorem dispatchLoses_congr {env : Env} {s t : TcpStream} (seg : Segment) (h : conn t = conn s)
    (hwnd : s.state = .synRcvd → t.rcvvar.rcvWnd = s.rcvvar.rcvWnd) :
    dispatchLoses env seg t = dispatchLoses env seg s := by
  have h1 : t.rcvvar.rcvbuf = s.rcvvar.rcvbuf := congrArg Conn.rcvbuf h
  have h2 : t.state = s.state := congrArg Conn.state h
  have h3 : t.rcvNxt = s.rcvNxt := congrArg Conn.rcvNxt h
  have h4 : t.rcvvar.irs = s.rcvvar.irs := congrArg Conn.irs h
  have h5 : t.sndvar.iss = s.sndvar.iss := congrArg Conn.iss h
  unfold dispatchLoses
  rw [h1, h2, h3, h4, h5]
  cases hst : s.state with
  | synRcvd =>
    rw [hwnd hst]
  | _ => rfl

theorem arrived_rcvWnd (s : TcpStream) : (arrived env seg s).rcvvar = s.rcvvar := by
  unfold arrived updateTimeoutList
  split <;> rfl

theorem validated_closedBy {s t : TcpStream} (hs : s.state ≠ .closed) (ht : conn t = conn s)
    (hwnd : s.state = .synRcvd → t.rcvvar.rcvWnd = s.rcvvar.rcvWnd)
    (hval : validated cfg env seg s) (hc : (processValidated cfg env seg t).state = .closed)
    (halive : (processValidated cfg env seg t).onHashTable) :
    (processValidated cfg env seg t).sndvar.onControlList ∨ packetLoses cfg env seg s ∧
      (processValidated cfg env seg t).sndvar.onControlList = s.sndvar.onControlList := by
  have hca : conn (arrived env seg t) = conn s := (arrived_conn env seg t).trans ht
  have hst : (arrived env seg t).state = s.state := congrArg Conn.state hca
  have hlose := @dispatchLoses_congr env s (arrived env seg t) seg hca fun h =>
    (congrArg TcpRecvVars.rcvWnd (arrived_rcvWnd env seg t)).trans (hwnd h)
  have hcontrol : (arrived env seg t).sndvar.onControlList = s.sndvar.onControlList :=
    congrArg Conn.control hca
  rw [processValidated_arrived] at hc halive ⊢
  rw [← hst] at hs
  unfold packetLoses
  rw [hval, ← hlose, ← hcontrol]
  generalize arrived env seg t = u at hs hc halive ⊢
  cases hr : seg.rst with
  | true =>
    rw [hr, if_pos rfl] at hc halive
    rw [if_pos rfl]
    split at hc
    · next hrst =>
      rw [if_pos hrst] at halive
      exact (processRST_closed seg { u with haveReset := true } hs hc halive).elim
    · next hearly =>
      rw [if_neg hearly] at halive ⊢
      obtain h | ⟨h, -⟩ := dispatch_closedBy env seg { u with haveReset := true } hs hc halive
      · exact .inl h
      · -- Neither LISTEN nor SYN_SENT looks at a payload.
        have h' : dispatchLoses env seg u := h
        cases hstate : u.state <;> rw [hstate] at hearly <;> first
            | exact absurd (by decide) hearly
            | simp [dispatchLoses, hstate] at h'
  | false =>
    rw [hr] at hc halive
    exact dispatch_closedBy env seg u hs hc halive

theorem packet_closedBy (s : TcpStream) (hs : s.state ≠ .closed)
    (hc : (processTCPPacket cfg env seg s).state = .closed)
    (halive : (processTCPPacket cfg env seg s).onHashTable) :
    (processTCPPacket cfg env seg s).sndvar.onControlList ∨ packetLoses cfg env seg s ∧
      (processTCPPacket cfg env seg s).sndvar.onControlList = s.sndvar.onControlList := by
  obtain ⟨-, -, heq⟩ | ⟨upd, recent, echo, hval, heq⟩ := processTCPPacket_cases env seg s cfg
  · rw [heq] at hc
    exact absurd (((validateSequence_path cfg env seg s).state (by decide)).symm.trans hc) hs
  · rw [heq] at hc halive ⊢
    exact validated_closedBy env seg hs (by rfl) (fun _ => rfl) hval hc halive

/-! One lemma per kind of event. -/

section steps

variable {s : TcpStream}

variable {t : TcpStream} (env : Env)

theorem reclaimable_packet (seg : Segment) (hl : Listed cfg s) (h : Reclaimable s)
    (hc : (s.referenced || !packetLoses cfg env seg s)) :
    Reclaimable (processTCPPacket cfg env seg s) := by
  intro halive hclosed
  have hties := (@processTCPPacket_ties cfg env seg s).more halive
  by_cases hs : s.state = .closed
  · refine hties.referenced hl (fun hon => ?_) (h (hties.alive ▸ halive) hs)
    rw [processTCPPacket_of_closed env seg s hs]
    exact (congrArg Conn.control (arrived_conn env seg s)).trans hon
  · obtain hon | ⟨hlost, hkeep⟩ := packet_closedBy env seg s hs hclosed halive
    · exact referenced_of_queued ((hties.listed hl).queued_of_control hon)
    · rw [hlost] at hc
      exact hties.referenced hl (fun hon => hkeep.trans hon) (by simpa using hc)

/-- `HandleRTO` leaves a stream CLOSED that was so before, or gives one up that has an owner. -/
def RtoCloses (s t : TcpStream) : Prop :=
  t.state = .closed → t.onHashTable = true →
    t.sndvar.onControlList = s.sndvar.onControlList ∧
      (s.state = .closed ∨ s.socket.isSome = true ∧ s.closeReason = .notClosed ∧
        (¬ s.sndvar.nrtx < 16 ∨ s.state = .synSent ∧ 7 < s.sndvar.nrtx + 1))

theorem raiseErrorOrDestroy_alive (h : (raiseErrorOrDestroy cfg s).onHashTable) :
    s.socket.isSome ∧ raiseErrorOrDestroy cfg s = raiseEvent .error s := by
  unfold raiseErrorOrDestroy at h ⊢
  split at h
  · next hsome =>
    rw [if_pos hsome]
    exact ⟨hsome, rfl⟩
  · exact destroyed_gone h

theorem retryOrGiveUp_closes (hreason : s.closeReason = .notClosed) :
    RtoCloses s (retryOrGiveUp cfg (backOff s)) := by
  have hre : ∀ st, (backOff s).state = st → st ≠ .closed →
      RtoCloses s (retransmit (backOff s)) := by
    intro st hst hne hc
    rw [(retransmit_path _).state (by decide)] at hc
    exact absurd (hst.symm.trans hc) hne
  unfold retryOrGiveUp
  split
  · next hst =>
    split
    · next hgive =>
      intro _ halive
      obtain ⟨hsome, heq⟩ := raiseErrorOrDestroy_alive halive
      rw [heq]
      exact ⟨rfl, .inr ⟨hsome, hreason, .inr ⟨hst, hgive⟩⟩⟩
    · exact hre _ hst (by decide)
  · next hst =>
    split
    · exact fun _ => destroyed_gone
    · exact hre _ hst (by decide)
  all_goals next hst => first
    | exact hre _ hst (by decide)
    | exact fun hc _ => ⟨rfl, .inl hc⟩

theorem handleRTO_closes : RtoCloses s (handleRTO cfg s) := by
  unfold handleRTO
  split
  · exact fun hc _ => ⟨rfl, .inl hc⟩
  · split
    · exact fun hc _ => ⟨rfl, .inl hc⟩
    · next hreason =>
      split
      · next hmax =>
        unfold exceedMaxRtx
        split
        · exact fun _ => destroyed_gone
        · intro _ halive
          obtain ⟨hsome, heq⟩ := raiseErrorOrDestroy_alive halive
          rw [heq]
          exact ⟨rfl, .inr ⟨hsome, not_not.mp hreason, .inl hmax⟩⟩
      · exact retryOrGiveUp_closes (not_not.mp hreason)

theorem referenced_of_owner (hties : MoreTies cfg s t) (hl : Listed cfg s)
    (hkeep : t.sndvar.onControlList = s.sndvar.onControlList) (hsome : s.socket.isSome)
    (hc : s.socketFreed → s.queued) : t.referenced := by
  refine hties.referenced hl (fun hon => hkeep.trans hon) ?_
  unfold TcpStream.referenced TcpStream.attached
  cases hfreed : s.socketFreed with
  | false =>
    rw [hsome]
    rfl
  | true => rw [hc hfreed, Bool.or_true]

theorem reclaimable_rto (hl : Listed cfg s) (h : Reclaimable s)
    (hc : (!(s.socketFreed && givesUp env s) || s.queued)) :
    Reclaimable (checkRtmTimeout cfg env s) := by
  intro halive hclosed
  have hties := (@checkRtmTimeout_ties cfg env s).more halive
  unfold checkRtmTimeout at halive hclosed hties ⊢
  split at hclosed
  · next hexp =>
    rw [if_pos hexp] at halive hties ⊢
    obtain ⟨hkeep, hs | ⟨hsome, hreason, hgive⟩⟩ := handleRTO_closes hclosed halive
    · exact hties.referenced hl (fun hon => hkeep.trans hon) (h (hties.alive ▸ halive) hs)
    · refine referenced_of_owner hties hl hkeep hsome fun hfreed => ?_
      have hgive' : givesUp env s := by
        have h1 : s.closeReason = .notClosed := hreason
        have h2 : ¬ s.sndvar.nrtx < 16 ∨ s.state = .synSent ∧ 7 < s.sndvar.nrtx + 1 := hgive
        unfold givesUp rtoExpired
        rw [decide_eq_true hexp, h1]
        obtain h2 | ⟨h2, h3⟩ := h2
        · simp [h2]
        · simp [h2, h3]
      simpa [hfreed, hgive'] using hc
  · next hexp =>
    rw [if_neg hexp] at halive ⊢
    exact h halive hclosed

theorem reclaimable_timeout (hl : Listed cfg s) (h : Reclaimable s)
    (hc : (!(s.socketFreed && timesOut cfg env s) || s.queued)) :
    Reclaimable (checkConnectionTimeout cfg env s) := by
  intro halive hclosed
  have hties := (@checkConnectionTimeout_ties cfg env s).more halive
  unfold checkConnectionTimeout at halive hclosed hties ⊢
  split at hclosed
  · next hexp =>
    rw [if_pos hexp] at halive hties ⊢
    obtain ⟨hsome, heq⟩ := raiseErrorOrDestroy_alive halive
    refine referenced_of_owner hties hl ?_ hsome fun hfreed => ?_
    · rw [heq]
      rfl
    · have hout : timesOut cfg env s := by simp [timesOut, hexp.1, hexp.2]
      simpa [hfreed, hout] using hc
  · next hexp =>
    rw [if_neg hexp] at halive ⊢
    exact h halive hclosed

theorem destroyReset_closes (halive : (destroyReset cfg s).onHashTable) :
    s.state = .closed ∧ destroyReset cfg s = s := by
  unfold destroyReset at halive ⊢
  split at halive
  · exact destroyed_gone halive
  · next hst =>
    rw [if_neg hst]
    exact ⟨not_not.mp hst, rfl⟩

/-- What a request does to a stream it finds CLOSED, or closes: it keeps the control flag, or
sets it. -/
def RequestCloses (s t : TcpStream) : Prop :=
  t.state = .closed → t.onHashTable = true →
    t.sndvar.onControlList = true ∨
      s.state = .closed ∧ t.sndvar.onControlList = s.sndvar.onControlList

theorem RequestCloses.of_open (h : s.state ≠ .closed → t.state ≠ .closed)
    (hcontrol : t.sndvar.onControlList = s.sndvar.onControlList) : RequestCloses s t := by
  intro hc _
  by_cases hs : s.state = .closed
  · exact .inr ⟨hs, hcontrol⟩
  · exact absurd hc (h hs)

theorem beginClose_control (s : TcpStream) :
    (beginClose s).sndvar.onControlList = s.sndvar.onControlList := by
  unfold beginClose
  split <;> rfl

theorem RequestCloses.of_destroyReset {u : TcpStream} (hst : u.state = s.state)
    (hcontrol : u.sndvar.onControlList = s.sndvar.onControlList) :
    RequestCloses s (destroyReset cfg u) := by
  intro _ halive
  obtain ⟨hclosed, heq⟩ := destroyReset_closes halive
  rw [heq]
  exact .inr ⟨hst ▸ hclosed, hcontrol⟩

theorem handleClose_closes : RequestCloses s (handleClose cfg s) := by
  have hleave := conn_leaveTimeout (0 < cfg.tcpTimeout) (setFss { s with sndvar.onCloseq := false })
  unfold handleClose
  dsimp only
  generalize (if 0 < cfg.tcpTimeout then _ else _ : TcpStream) = u at hleave ⊢
  have hst : u.state = s.state := congrArg Conn.state hleave
  have hcontrol : u.sndvar.onControlList = s.sndvar.onControlList := congrArg Conn.control hleave
  split_ifs
  · exact .of_destroyReset hst hcontrol
  · exact .of_open (fun h => hst ▸ h) hcontrol
  · exact .of_open (fun h => (beginClose_path u).open (by decide) (hst ▸ h))
      ((beginClose_control u).trans hcontrol)
  · exact fun _ _ => .inl (addtoControlList_control _)
  · exact .of_open (fun h => hst ▸ h) hcontrol

theorem handleCloseInt_closes : RequestCloses s (handleCloseInt s) := by
  unfold handleCloseInt
  split
  · exact .of_open id rfl
  · dsimp only
    split
    · exact fun _ _ => .inl (addtoControlList_control _)
    · exact .of_open id rfl

theorem sendRST_closes {u : TcpStream} (hst : u.state = s.state)
    (hcontrol : u.sndvar.onControlList = s.sndvar.onControlList) : RequestCloses s (sendRST u) := by
  unfold sendRST
  split
  · exact fun _ _ => .inl (addtoControlList_control _)
  · exact .of_open (fun h => hst ▸ h) hcontrol

theorem handleReset_closes : RequestCloses s (handleReset cfg s) := by
  have hleave := conn_leaveTimeout (0 < cfg.tcpTimeout) { s with sndvar.onResetq := false }
  unfold handleReset
  dsimp only
  generalize (if 0 < cfg.tcpTimeout then _ else _ : TcpStream) = u at hleave ⊢
  have hst : u.state = s.state := congrArg Conn.state hleave
  have hcontrol : u.sndvar.onControlList = s.sndvar.onControlList := congrArg Conn.control hleave
  split_ifs
  · exact .of_destroyReset hst hcontrol
  · exact .of_open (fun h => hst ▸ h) hcontrol
  · exact sendRST_closes hst hcontrol

theorem handleResetInt_closes : RequestCloses s (handleResetInt s) := by
  unfold handleResetInt
  split
  · exact .of_open id rfl
  · exact sendRST_closes rfl rfl

/-- A request taken off its queue leaves a closed stream on the control list or with the
references it has besides. -/
theorem reclaimable_request {u t : TcpStream} (hties : MoreTies cfg u t) (hl : Listed cfg u)
    (hcloses : RequestCloses u t) (hc : u.state = .closed → u.referenced ∨ t.queued) :
    Reclaimable t := by
  intro halive hclosed
  obtain hon | ⟨hu, hkeep⟩ := hcloses hclosed halive
  · exact referenced_of_queued ((hties.listed hl).queued_of_control hon)
  · obtain href | hq := hc hu
    · exact hties.referenced hl (fun hon => hkeep.trans hon) href
    · exact referenced_of_queued hq

theorem link_pos (s : TcpStream) (q : StreamList) : 0 < (s.link q).occ q := by
  simp [TcpStream.link]

/-- A reset request for a stream that still has something to send waits on. -/
theorem queued_of_passedOn (h : passedOn .resetq s) :
    (handleReset cfg (s.unlink .resetq)).queued := by
  simp only [passedOn, and_eq_true, not_eq_true'] at h
  have hgo : ∀ u, u.haveReset = false → flushing u → (if u.haveReset then destroyReset cfg u
      else if flushing u then
        { u with sndvar.onResetqInt := true }.link .resetqInt
      else sendRST u).queued := by
    intro u hreset hflush
    rw [hreset, if_neg Bool.false_ne_true, if_pos hflush]
    exact queued_iff.mpr (.inr (.inr (.inl (link_pos _ _))))
  refine hgo _ ?_ ?_
  · unfold removeFromTimeoutList
    split_ifs <;> exact h.1
  · unfold removeFromTimeoutList flushing
    split_ifs <;> exact h.2

theorem reclaimable_dequeue (q : StreamList) (hl : Listed cfg s) (h : Reclaimable s)
    (hc : (s.state != .closed || (s.unlink q).referenced || passedOn q s)) :
    Reclaimable (dequeue cfg q s) := by
  by_cases hocc : s.occ q = 0
  · unfold dequeue
    rw [if_pos hocc]
    exact h
  · have hkept : passedOn q s = false → s.state = .closed → (s.unlink q).referenced := by
      intro hno hs
      simpa [hno, hs] using hc
    have hu : q.queue → Listed cfg (s.unlink q) := hl.unlink
    unfold dequeue
    rw [if_neg hocc]
    cases q with
    | connectq =>
      exact reclaimable_request ((addtoControlList_path _).more (by decide)) (hu rfl)
        (fun _ _ => .inl (addtoControlList_control _)) fun hs => .inl (hkept rfl hs)
    | sendq =>
      have hties : SameTies cfg (s.unlink .sendq) (addtoSendList { s.unlink .sendq with
          sndvar.onSendq := false }) :=
        ((addtoSendList_path _).ties (by decide)).after (.of_eq rfl)
      refine reclaimable_request hties.more (hu rfl) (.of_open (fun hs => ?_) ?_)
        fun hs => .inl (hkept rfl hs)
      · rw [addtoSendList_state]
        exact hs
      · have hconn := congrArg Conn.control (conn_addtoSendList { s.unlink .sendq with
          sndvar.onSendq := false })
        split at hconn <;> exact hconn
    | ackq =>
      have hties : SameTies cfg (s.unlink .ackq) (enqueueACK { s.unlink .ackq with
          sndvar.onAckq := false } .aggregate) :=
        ((enqueueACK_path _ _).ties (by decide)).after (.of_eq rfl)
      refine reclaimable_request hties.more (hu rfl) (.of_open (fun hs => ?_) ?_)
        fun hs => .inl (hkept rfl hs)
      · rw [enqueueACK_state]
        exact hs
      · exact congrArg Conn.control (conn_enqueueACK _ _)
    | closeq =>
      intro halive
      exact reclaimable_request ((handleClose_ties _).more halive) (hu rfl) handleClose_closes
        (fun hs => .inl (hkept rfl hs)) halive
    | closeqInt =>
      exact reclaimable_request ((handleCloseInt_path _).more (by decide)) (hu rfl)
        handleCloseInt_closes
        fun hs => .inl (hkept rfl hs)
    | resetq =>
      intro halive
      refine reclaimable_request ((handleReset_ties _).more halive) (hu rfl) handleReset_closes
        (fun hs => ?_) halive
      cases hpass : passedOn .resetq s with
      | false => exact .inl (hkept hpass hs)
      | true => exact .inr (queued_of_passedOn hpass)
    | resetqInt =>
      refine reclaimable_request ((handleResetInt_path _).more (by decide)) (hu rfl)
        handleResetInt_closes fun hs => ?_
      cases hpass : passedOn .resetqInt s with
      | false => exact .inl (hkept hpass hs)
      | true =>
        right
        have hflush : flushing (s.unlink .resetqInt) := hpass
        dsimp only
        unfold handleResetInt
        rw [if_pos hflush]
        exact queued_iff.mpr (.inr (.inr (.inl (link_pos _ _))))
    | destroyq => exact destroyed_gone
    | _ =>
      dsimp only
      rw [unlink_link hocc]
      exact h

theorem Reclaimable.keep (h : Reclaimable s) (hl : Listed cfg s) (hties : MoreTies cfg s t)
    (hst : t.state = s.state)
    (hcontrol : s.state = .closed → s.sndvar.onControlList → t.sndvar.onControlList) :
    Reclaimable t := by
  intro halive hclosed
  have hs : s.state = .closed := hst.symm.trans hclosed
  exact hties.referenced hl (hcontrol hs) (h (hties.alive ▸ halive) hs)

theorem writeTCPControl_stays (hs : s.state = .closed) (hon : s.sndvar.onControlList)
    (halive : (writeTCPControl cfg env s).onHashTable) :
    (writeTCPControl cfg env s).sndvar.onControlList := by
  have hgo : ∀ u, u.state = .closed → (relisted (sendControlPacket cfg env u)).onHashTable →
      (relisted (sendControlPacket cfg env u)).sndvar.onControlList := by
    intro u hu
    have hsent : 0 ≤ (sendControlPacket cfg env u).1 →
        (sendControlPacket cfg env u).2.onHashTable = false := by
      unfold sendControlPacket
      rw [hu]
      dsimp only
      split
      · intro h
        cases h
      · generalize sendTCPPacket env u { rst := true } [] = r
        obtain ⟨ret, w⟩ := r
        split
        · exact fun _ => (@destroyTCPStream_destroyed cfg w).alive
        · next hneg => exact fun hpos => absurd hpos hneg
    generalize sendControlPacket cfg env u = r at hsent ⊢
    obtain ⟨ret, w⟩ := r
    unfold relisted
    split
    · exact fun _ => rfl
    · next hneg =>
      intro h
      rw [hsent (not_lt.mp hneg)] at h
      cases h
  unfold writeTCPControl at halive ⊢
  have hon' : (s.unlink .control).sndvar.onControlList := hon
  rw [if_pos hon'] at halive ⊢
  exact hgo _ hs halive

theorem reclaimable_control (hl : Listed cfg s) (hocc : 0 < s.occ .control) :
    Reclaimable (writeTCPControl cfg env s) := by
  intro halive hclosed
  have hs : s.state = .closed :=
    ((writeTCPControl_path env s cfg).state (by decide)).symm.trans hclosed
  have hon := hl.on_control hocc
  exact referenced_of_queued (((writeTCPControl_ties env s).listed hl).queued_of_control
    (writeTCPControl_stays env hs hon halive))

theorem releaseControl_control (blocked : Bool) (hon : s.sndvar.onControlList) :
    (releaseControl blocked s).sndvar.onControlList := by
  unfold releaseControl
  split
  · exact addtoControlList_control _
  · exact hon

theorem writeTCPData_control (hs : s.state = .closed) (hon : s.sndvar.onControlList) :
    (writeTCPData env s).sndvar.onControlList := by
  have hidle : sendData env (s.unlink .send) = (0, s.unlink .send) := by
    have hs' : (s.unlink .send).state = .closed := hs
    simp [sendData, canFlush, hs']
  unfold writeTCPData
  dsimp only
  rw [hidle]
  split
  · exact releaseControl_control _ hon
  · exact hon

theorem writeTCPACK_control (hs : s.state = .closed) (hon : s.sndvar.onControlList) :
    (writeTCPACK env s).sndvar.onControlList := by
  have hno : toAck s = false := by simp [toAck, hs]
  unfold writeTCPACK
  split
  · rw [hno]
    exact releaseControl_control _ hon
  · exact hon

/-! The calls of the application. -/

theorem mtcpWrite_of_closed (bytes : List UInt8) (hs : s.state = .closed) :
    (mtcpWrite cfg env bytes s).2 = s := by
  unfold mtcpWrite
  rw [if_pos (by rw [hs]; decide)]

theorem mtcpRecv_of_closed (nonblock peek : Bool) (len : Nat) (hs : s.state = .closed) :
    (mtcpRecv nonblock peek len s).2 = s := by
  unfold mtcpRecv
  rw [if_pos (by rw [hs]; decide)]

theorem queued_of_occ (hocc : t.occ = s.occ) (h : s.queued) : t.queued := by
  unfold TcpStream.queued at h ⊢
  rw [hocc]
  exact h

theorem reclaimable_accept (sock : Option Nat) (h : Reclaimable s) :
    Reclaimable (mtcpAccept sock s) := by
  have hq : s.queued → ∀ t : TcpStream, t.occ = (s.unlink .acceptq).occ → t.queued := by
    intro hs t ht
    refine queued_of_occ ht ?_
    rw [queued_iff] at hs ⊢
    simpa [TcpStream.unlink] using hs
  have hgo : ∀ t : TcpStream, t.onHashTable = s.onHashTable → t.state = s.state →
      t.occ = (s.unlink .acceptq).occ → (s.attached → t.attached) →
      Reclaimable t := by
    intro t halive hst hocc hatt h1 h2
    have href := h (halive ▸ h1) (hst ▸ h2)
    unfold TcpStream.referenced at href ⊢
    rw [or_eq_true] at href ⊢
    exact href.imp hatt fun hs => hq hs t hocc
  unfold mtcpAccept
  dsimp only
  split
  · next hnone =>
    refine hgo _ rfl rfl rfl fun hatt => ?_
    have hnone' : s.socket.isNone := hnone
    unfold TcpStream.attached at hatt
    rw [Option.isNone_iff_eq_none.mp hnone'] at hatt
    cases hatt
  · exact hgo _ rfl rfl rfl id

theorem reclaimable_close (hc : (s.state != .closed || !s.closed || s.queued)) :
    Reclaimable (mtcpClose s) := by
  intro _ hclosed
  refine referenced_of_queued ?_
  unfold mtcpClose at hclosed ⊢
  split at hclosed
  · next hmark =>
    rw [if_pos hmark]
    refine queued_of_occ (s := s) rfl ?_
    simpa [show s.state = .closed from hclosed, hmark] using hc
  · next hmark =>
    rw [if_neg hmark]
    dsimp only at hclosed ⊢
    split at hclosed
    · exact queued_iff.mpr (.inl (link_pos _ _))
    · exact queued_iff.mpr (.inl (link_pos _ _))
    all_goals simp_all [TcpStream.link]

theorem reclaimable_abort (hc : (s.state != .closed || s.queued)) : Reclaimable (mtcpAbort s) := by
  intro _ hclosed
  refine referenced_of_queued ?_
  unfold mtcpAbort at hclosed ⊢
  dsimp only at hclosed ⊢
  split at hclosed
  · next hst =>
    refine queued_of_occ (s := s) rfl ?_
    simpa [hst] using hc
  iterate 4 exact queued_iff.mpr (.inl (link_pos _ _))
  · next hne _ _ _ _ =>
    split at hclosed <;> exact absurd hclosed hne

theorem reclaimable_act (a : Action) (hl : Listed cfg s) (h : Reclaimable s)
    (hc : keepsReference cfg s (env, a)) : Reclaimable (act cfg env s a) := by
  have hroom : ∀ room, Listed cfg { s with txRoom := room } :=
    fun room => hl.congr (fun _ _ => rfl) rfl
  -- a closed stream is returned as it is by the calls that move data
  have hcall : ∀ t, MoreTies cfg s t → t.state = s.state →
      (s.state = .closed → t = s) → Reclaimable t := by
    intro t hties hst hsame
    exact h.keep hl hties hst fun hs hon => (hsame hs).symm ▸ hon
  cases a with
  | rx seg => exact iteInduction (fun _ => reclaimable_packet env seg hl h hc) fun _ => h
  | rtm => exact reclaimable_rto env hl h hc
  | rearrange =>
    refine h.keep hl ((rearrangeRTOStore_path env s).more (by decide))
      ((rearrangeRTOStore_path env s).state (by decide)) fun _ hon => ?_
    dsimp only [act, rearrangeRTOStore]
    split <;> exact hon
  | timewait =>
    dsimp only [act, checkTimewaitExpire]
    split
    · exact destroyed_gone
    · exact h
  | timeout => exact iteInduction (fun _ => reclaimable_timeout env hl h hc) fun _ => h
  | dequeue q => exact reclaimable_dequeue q hl h hc
  | controlPass room =>
    exact iteInduction (fun hocc => reclaimable_control env (hroom room) hocc) fun _ => h
  | dataPass room =>
    exact iteInduction (fun _ => Reclaimable.keep (s := { s with txRoom := room }) h (hroom room)
      (writeTCPData_ties env _).more ((writeTCPData_path env _).state (by decide))
      (writeTCPData_control env)) fun _ => h
  | ackPass room =>
    exact iteInduction (fun _ => Reclaimable.keep (s := { s with txRoom := room }) h (hroom room)
      ((writeTCPACK_path env _).more (by decide)) ((writeTCPACK_path env _).state (by decide))
      (writeTCPACK_control env)) fun _ => h
  | accept sock => exact iteInduction (fun _ => reclaimable_accept sock h) fun _ => h
  | write bytes =>
    exact iteInduction (fun _ => hcall _ ((mtcpWrite_path cfg env s bytes).more (by decide))
      ((mtcpWrite_path cfg env s bytes).state (by decide))
      (mtcpWrite_of_closed env bytes)) fun _ => h
  | recv nonblock peek len =>
    exact iteInduction (fun _ => hcall _ ((mtcpRecv_path s nonblock peek len).more (by decide))
      ((mtcpRecv_path s nonblock peek len).state (by decide))
      (mtcpRecv_of_closed nonblock peek len)) fun _ => h
  | close => exact iteInduction (fun _ => reclaimable_close hc) fun _ => h
  | abort => exact iteInduction (fun _ => reclaimable_abort hc) fun _ => h

theorem reclaimable_step (e : Env × Action) (hl : Listed cfg s) (h : Reclaimable s)
    (hc : keepsReference cfg s e) : Reclaimable (step cfg s e) := by
  unfold step
  split
  · exact reclaimable_act e.1 e.2 hl h hc
  · exact h

theorem Opened.reclaimable (h : Opened cfg s) : Reclaimable s := by
  intro _ hclosed
  cases h with
  | active iss sockid room => cases room <;> cases hclosed
  | passive env iss seg hsyn _ =>
    obtain hconn | hconn := @conn_createNewFlow cfg env iss seg hsyn
    · exact absurd ((congrArg Conn.state hconn).symm.trans hclosed) nofun
    · exact absurd ((congrArg Conn.state hconn).symm.trans hclosed) nofun

end steps

/-- Along every run without such an event, a closed stream that still exists has a socket or
waits for the turn that destroys it. -/
theorem closed_streams_reclaimable (s : TcpStream) (es : List (Env × Action)) (hs : Opened cfg s)
    (ha : Along (step cfg) (fun s e => keepsReference cfg s e = true) s es) :
    Reclaimable (run cfg s es) := by
  have hstep : ∀ (t : TcpStream) (e : Env × Action), Listed cfg t ∧ Reclaimable t →
      keepsReference cfg t e = true → Listed cfg (step cfg t e) ∧ Reclaimable (step cfg t e) :=
    fun t e ht hc => ⟨step_listed t e ht.1, reclaimable_step e ht.1 ht.2 hc⟩
  exact (foldl_invariant hstep ⟨hs.listed, hs.reclaimable⟩ ha).2

def unansweredConnect : List Action :=
  [.dequeue .connectq, .controlPass 1, .rtm, .controlPass 1, .rtm, .controlPass 1, .rtm,
    .controlPass 1, .rtm, .controlPass 1, .rtm, .controlPass 1, .rtm, .controlPass 1, .rtm,
    .controlPass 1, .rtm]

theorem closed_streams_reclaimable_unanswered :
    (run .small client (atRest (unansweredConnect ++ [.close]))).state = .closed ∧
      (run .small client (atRest (unansweredConnect ++ [.close]))).onHashTable = true ∧
      Reclaimable (run .small client (atRest (unansweredConnect ++ [.close]))) :=
  ⟨by decide, by decide, closed_streams_reclaimable _ _ client_opened (by decide)⟩

/-- `mtcp_abort` on the socket of a failed connect lets go of a stream that nothing else
refers to. -/
theorem abort_of_failed_connect_leaks :
    ¬ Reclaimable (run .small client (atRest (unansweredConnect ++ [.abort]))) ∧
      ∀ l : StreamList, (run .small client (atRest (unansweredConnect ++ [.abort]))).occ l = 0 := by
  refine ⟨by decide, fun l => ?_⟩
  cases l <;> decide

end Mtcp
