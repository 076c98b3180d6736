import Mtcp.Paths

namespace Mtcp

open Serial SendBuffer RingBuffer Options

/-! What paces a sender: the parameters of the handshake, the congestion window and the
round-trip estimates. Few functions touch them. -/

structure Tuning where
  mss : UInt16
  effMss : UInt16
  wscalePeer : UInt8
  cwnd : UInt32
  ssthresh : UInt32
  rto : UInt32
  srtt : UInt32
  mdev : UInt32
  mdevMax : UInt32
  rttvar : UInt32
  echo : UInt32
  saw : Bool

def tuning (s : TcpStream) : Tuning where
  mss := s.sndvar.mss
  effMss := s.sndvar.effMss
  wscalePeer := s.sndvar.wscalePeer
  cwnd := s.sndvar.cwnd
  ssthresh := s.sndvar.ssthresh
  rto := s.sndvar.rto
  srtt := s.rcvvar.srtt
  mdev := s.rcvvar.mdev
  mdevMax := s.rcvvar.mdevMax
  rttvar := s.rcvvar.rttvar
  echo := s.rcvvar.tsLastackRcvd
  saw := s.sawTimestamp

def TcpState.handshaking : TcpState → Bool
  | .synSent | .synRcvd => true
  | _ => false

/-- No handshake completes, no retries are counted, nothing is divided by zero, and only a timeout
of zero fails the checks of the timeout. -/
structure SamePace (s t : TcpStream) : Prop where
  tuning : tuning t = tuning s
  nrtx : t.state.handshaking = true → t.sndvar.nrtx = s.sndvar.nrtx
  state : t.state = s.state ∨ t.state = .closed ∨ .synSent < s.state ∧ .established ≤ t.state
  fault : ∀ f, t.fault = some f →
    s.fault = some f ∨ f ≠ .divideByZero ∧ (f = .rtoZero → s.sndvar.rto = 0)

theorem not_handshaking_of_le {st : TcpState} (h : .established ≤ st) : st.handshaking = false := by
  cases st <;> first | rfl | exact absurd h (by decide)

namespace SamePace

variable {s t u : TcpStream}

theorem of_eq (htuning : Mtcp.tuning t = Mtcp.tuning s) (hnrtx : t.sndvar.nrtx = s.sndvar.nrtx)
    (hstate : t.state = s.state) (hfault : t.fault = s.fault) : SamePace s t :=
  ⟨htuning, fun _ => hnrtx, .inl hstate, fun _ hf => .inl (hfault.symm.trans hf)⟩

theorem refl (s : TcpStream) : SamePace s s := .of_eq rfl rfl rfl rfl

theorem after (h' : SamePace t u) (h : SamePace s t) : SamePace s u := by
  have hback : u.state.handshaking → t.state.handshaking := by
    intro hu
    obtain hst | hst | ⟨-, hst⟩ := h'.state
    · rwa [← hst]
    · rw [hst] at hu
      exact absurd hu (by decide)
    · rw [not_handshaking_of_le hst] at hu
      exact absurd hu (by decide)
  refine ⟨h'.tuning.trans h.tuning, fun hu => (h'.nrtx hu).trans (h.nrtx (hback hu)), ?_,
    fun f hf => ?_⟩
  · obtain hst | hst | ⟨hlow, hst⟩ := h'.state
    · rw [hst]
      exact h.state
    · exact .inr (.inl hst)
    · refine .inr (.inr ⟨?_, hst⟩)
      obtain hst' | hst' | ⟨hlow', -⟩ := h.state
      · rwa [← hst']
      · rw [hst'] at hlow
        exact absurd hlow (by decide)
      · exact hlow'
  · obtain hf | ⟨hne, hzero⟩ := h'.fault f hf
    · exact h.fault f hf
    · refine .inr ⟨hne, fun he => ?_⟩
      exact (congrArg Tuning.rto h.tuning).symm.trans (hzero he)

theorem ite {c : Prop} [Decidable c] (h : SamePace s t) (h' : SamePace s u) :
    SamePace s (if c then t else u) := by
  split
  · exact h
  · exact h'

theorem abort {f : Fault} (hne : f ≠ .divideByZero) (hzero : f = .rtoZero → s.sndvar.rto = 0) :
    SamePace s (s.abort f) := by
  refine ⟨rfl, fun _ => rfl, .inl rfl, fun g hg => ?_⟩
  change s.fault.or (some f) = some g at hg
  cases hf : s.fault with
  | some f' =>
    rw [hf] at hg
    exact .inl hg
  | none =>
    rw [hf] at hg
    cases hg
    exact .inr ⟨hne, hzero⟩

theorem shut (htuning : Mtcp.tuning t = Mtcp.tuning s) (hstate : t.state = .closed)
    (hfault : t.fault = s.fault) : SamePace s t := by
  refine ⟨htuning, fun h => ?_, .inr (.inl hstate), fun _ hf => .inl (hfault.symm.trans hf)⟩
  rw [hstate] at h
  exact absurd h (by decide)

theorem enter (st : TcpState) (h : SamePace s t) (hlow : .synSent < s.state)
    (htuning : Mtcp.tuning u = Mtcp.tuning t) (hstate : u.state = st) (hle : .established ≤ st)
    (hfault : u.fault = t.fault) : SamePace s u := by
  rw [← hstate] at hle
  refine ⟨htuning.trans h.tuning, fun hu => ?_, .inr (.inr ⟨hlow, hle⟩),
    fun f hf => h.fault f (hfault.symm.trans hf)⟩
  rw [not_handshaking_of_le hle] at hu
  exact absurd hu (by decide)

end SamePace

def paceKinds : List Change :=
  [.revive, .refuse, .synRcvd, .establish, .opened, .divide, .nrtx, .backOff, .congestion, .fast,
    .rtt, .options, .stamps]

theorem Path.pace {ks : List Change} {s t : TcpStream} (h : Path ks s t)
    (hks : ∀ k ∈ ks, k ∉ paceKinds) : SamePace s t := by
  refine h.rule SamePace.refl (fun h h' => h'.after h) fun hk hstep => ?_
  have hout := hks _ hk
  cases hstep with
  | shut r => exact .shut rfl rfl rfl
  | enter st hlow hle => exact .enter st (.refl _) hlow rfl rfl hle rfl
  | finAcked una nxt hle => exact .enter _ (.refl _) (synSent_lt_of_le hle) rfl rfl hle rfl
  | fault f hd hz => exact .abort hd fun h => absurd h hz
  | rtoZero h => exact .abort nofun fun _ => h
  | _ => first | exact .of_eq rfl rfl rfl rfl | exact absurd (by decide) hout

def unretried (s : TcpStream) : TcpStream := { s with sndvar.nrtx := 0 }

section restart

variable {env : Env} (s : TcpStream)

theorem pace_restart : SamePace (unretried s) (updateRetransmissionTimer env s) := by
  have htime : ∀ u, SamePace u { u with sndvar.tsRto := env.curTs + u.sndvar.rto } :=
    fun _ => .of_eq rfl rfl rfl rfl
  have hzero : SamePace (unretried s)
      (unretried (if s.sndvar.rto = 0 then s.abort .rtoZero else s)) := by
    split
    · next h => exact @SamePace.abort (unretried s) .rtoZero nofun fun _ => h
    · exact .refl _
  have hoff := ((stopTimer_path _).pace (by decide)).after hzero
  exact .ite (((addtoRTOList_path _ env).pace (by decide)).after ((htime _).after hoff)) hoff

theorem pace_updateRetransmissionTimer (hst : s.state.handshaking = false) :
    SamePace s (updateRetransmissionTimer env s) := by
  refine (pace_restart s).after ⟨rfl, fun h => ?_, .inl rfl, fun f hf => .inl hf⟩
  exact absurd (hst.symm.trans h) (by decide)

end restart

end Mtcp
