import Mtcp.Absorbing

namespace Mtcp

open Serial SendBuffer RingBuffer Options
open Function (update_self update_of_ne update update_eq_self)

variable {cfg : Config}

/-! What refers to a stream: its socket, the queues between the threads, and the lists that
have a flag in the stream. -/

def StreamList.queue : StreamList → Bool
  | .control | .send | .ack | .rto | .timewait | .timeout => false
  | _ => true

def TcpStream.flag (s : TcpStream) : StreamList → Bool
  | .control => s.sndvar.onControlList
  | .send => s.sndvar.onSendList
  | .ack => s.sndvar.onAckList
  | .rto => onWheel s.onRtoIdx
  | .timewait => s.onTimewaitList
  | .timeout => s.onTimeoutList
  | _ => false

/-- A list with a flag has the stream once if the flag is set, and else not at all. -/
def Agrees (s : TcpStream) (l : StreamList) : Prop := s.occ l = (s.flag l).toNat

def Timed (cfg : Config) (s : TcpStream) : Prop := s.onTimeoutList = true → 0 < cfg.tcpTimeout

structure Listed (cfg : Config) (s : TcpStream) : Prop where
  agrees : ∀ l, l.queue = false → Agrees s l
  timed : Timed cfg s

structure Ties where
  socket : Option Nat
  freed : Bool
  alive : Bool
  destroys : Nat
  occ : StreamList → Nat
  flag : StreamList → Bool

def ties (s : TcpStream) : Ties where
  socket := s.socket
  freed := s.socketFreed
  alive := s.onHashTable
  destroys := s.trace.count .destroy
  occ := s.occ
  flag := s.flag

/-- Nothing was destroyed, and no queue or socket let go of the stream. -/
structure MoreTies (cfg : Config) (s t : TcpStream) : Prop where
  socket : t.socket = s.socket
  freed : t.socketFreed = s.socketFreed
  alive : t.onHashTable = s.onHashTable
  destroys : t.trace.count .destroy = s.trace.count .destroy
  queues : ∀ q, q.queue = true → s.occ q ≤ t.occ q
  agrees : ∀ l, l.queue = false → Agrees s l → Agrees t l
  timed : Timed cfg s → Timed cfg t

/-- Nor did a queue take it. -/
structure SameTies (cfg : Config) (s t : TcpStream) : Prop extends MoreTies cfg s t where
  fewer : ∀ q, q.queue = true → t.occ q ≤ s.occ q

structure SameBut (l : StreamList) (s t : TcpStream) : Prop where
  socket : t.socket = s.socket
  freed : t.socketFreed = s.socketFreed
  alive : t.onHashTable = s.onHashTable
  destroys : t.trace.count .destroy = s.trace.count .destroy
  occ : ∀ q, q ≠ l → t.occ q = s.occ q
  flag : ∀ q, q ≠ l → t.flag q = s.flag q

namespace MoreTies

variable {s t u : TcpStream}

theorem after (h' : MoreTies cfg t u) (h : MoreTies cfg s t) : MoreTies cfg s u where
  socket := h'.socket.trans h.socket
  freed := h'.freed.trans h.freed
  alive := h'.alive.trans h.alive
  destroys := h'.destroys.trans h.destroys
  queues q hq := (h.queues q hq).trans (h'.queues q hq)
  agrees l hl hs := h'.agrees l hl (h.agrees l hl hs)
  timed hs := h'.timed (h.timed hs)

theorem listed (h : MoreTies cfg s t) (hs : Listed cfg s) : Listed cfg t :=
  ⟨fun l hl => h.agrees l hl (hs.agrees l hl), h.timed hs.timed⟩

theorem link {q : StreamList} (hq : q.queue) (s : TcpStream) : MoreTies cfg s (s.link q) := by
  refine ⟨rfl, rfl, rfl, rfl, fun p _ => ?_, fun l hl hs => ?_, id⟩
  · by_cases hp : p = q
    · have hlink : (s.link q).occ q = s.occ q + 1 := update_self _ _ _
      rw [hp, hlink]
      exact Nat.le_succ _
    · exact (update_of_ne hp _ _).ge
  · have hne : l ≠ q := by
      rintro rfl
      rw [hq] at hl
      cases hl
    exact (update_of_ne hne _ _).trans hs

theorem attached (h : MoreTies cfg s t) : t.attached = s.attached := by
  unfold TcpStream.attached
  rw [h.socket, h.freed]

end MoreTies

namespace SameTies

variable {s t u : TcpStream}

theorem refl (s : TcpStream) : SameTies cfg s s :=
  ⟨⟨rfl, rfl, rfl, rfl, fun _ _ => le_refl _, fun _ _ => id, id⟩, fun _ _ => le_refl _⟩

theorem more (h : SameTies cfg s t) : MoreTies cfg s t := h.toMoreTies

theorem occ_eq (h : SameTies cfg s t) (q : StreamList) (hq : q.queue) : t.occ q = s.occ q :=
  (h.fewer q hq).antisymm (h.queues q hq)

theorem after (h' : SameTies cfg t u) (h : SameTies cfg s t) : SameTies cfg s u :=
  ⟨h'.more.after h.more, fun q hq => (h'.fewer q hq).trans (h.fewer q hq)⟩

theorem congr (h : SameTies cfg s t) (hties : ties u = ties t) : SameTies cfg s u := by
  have hocc : u.occ = t.occ := congrArg Ties.occ hties
  have hflag : u.flag = t.flag := congrArg Ties.flag hties
  refine SameTies.after (t := t) ⟨⟨congrArg Ties.socket hties, congrArg Ties.freed hties,
    congrArg Ties.alive hties, congrArg Ties.destroys hties, fun q _ => (congrFun hocc q).ge,
    fun l _ ht => ?_, fun ht hon => ht ?_⟩, fun q _ => (congrFun hocc q).le⟩ h
  · unfold Agrees
    rw [hocc, hflag]
    exact ht
  · rw [← hon]
    exact (congrFun hflag .timeout).symm

theorem of_eq (hties : ties t = ties s) : SameTies cfg s t := (refl s).congr hties

theorem ite {c : Prop} [Decidable c] (h : SameTies cfg s t) (h' : SameTies cfg s u) :
    SameTies cfg s (if c then t else u) := by
  split
  · exact h
  · exact h'

end SameTies

namespace SameBut

variable {l : StreamList} {s t : TcpStream}

theorem sameTies (h : SameBut l s t) (hl : l.queue = false) (hown : Agrees s l → Agrees t l)
    (htime : t.flag .timeout → s.flag .timeout ∨ 0 < cfg.tcpTimeout) : SameTies cfg s t := by
  have hocc : ∀ q, q.queue → t.occ q = s.occ q := fun q hq => by
    refine h.occ q fun hql => ?_
    rw [hql, hl] at hq
    cases hq
  refine ⟨⟨h.socket, h.freed, h.alive, h.destroys, fun q hq => (hocc q hq).ge, fun q _ hs => ?_,
    fun hs ht => (htime ht).elim hs id⟩, fun q hq => (hocc q hq).le⟩
  by_cases hql : q = l
  · rw [hql] at hs ⊢
    exact hown hs
  · unfold Agrees
    rw [h.occ q hql, h.flag q hql]
    exact hs

theorem relist (h : SameBut l s t) (hl : l.queue = false) {n : Nat}
    (hown : s.occ l = (s.flag l).toNat → n = (t.flag l).toNat)
    (htime : l = .timeout → t.flag l → 0 < cfg.tcpTimeout) :
    SameTies cfg s { t with occ := update t.occ l n } := by
  have hlist : SameBut l s { t with occ := update t.occ l n } :=
    ⟨h.socket, h.freed, h.alive, h.destroys,
      fun q hq => (update_of_ne hq _ _).trans (h.occ q hq), h.flag⟩
  refine hlist.sameTies hl (fun hs => (update_self _ _ _).trans (hown hs)) fun ht => ?_
  by_cases hlt : l = .timeout
  · exact .inr (htime hlt (hlt ▸ ht))
  · exact .inl ((h.flag .timeout fun he => hlt he.symm).symm.trans ht)

theorem link (h : SameBut l s t) (hl : l.queue = false) (hocc : t.occ l = s.occ l)
    (hoff : s.flag l = false) (hon : t.flag l) (htime : l = .timeout → 0 < cfg.tcpTimeout) :
    SameTies cfg s (t.link l) := by
  refine h.relist hl (fun hs => ?_) fun hlt _ => htime hlt
  rw [hocc, hs, hoff, hon]
  rfl

theorem unlink (h : SameBut l s t) (hl : l.queue = false) (hocc : t.occ l = s.occ l)
    (hoff : t.flag l = false) : SameTies cfg s (t.unlink l) := by
  refine h.relist hl (fun hs => ?_) fun _ hon => absurd (hoff.symm.trans hon) Bool.false_ne_true
  rw [hocc, hs, hoff]
  cases s.flag l <;> rfl

end SameBut

theorem relink_ties (l : StreamList) (s : TcpStream) (hl : l.queue = false)
    (hon : s.flag l) : SameTies cfg s ((s.unlink l).link l) := by
  have hsame : SameBut l s ((s.unlink l).link l) := ⟨rfl, rfl, rfl, rfl, fun q hq =>
      (update_of_ne hq _ _).trans (update_of_ne hq _ _), fun _ _ => rfl⟩
  refine hsame.sameTies hl (fun hs => ?_) .inl
  change update (s.unlink l).occ l ((s.unlink l).occ l + 1) l = (s.flag l).toNat
  rw [update_self]
  change update s.occ l (s.occ l - 1) l + 1 = _
  rw [update_self, show s.occ l = _ from hs, hon]
  rfl

/-! The changes. -/

/-- The changes that may touch a queue or the socket, destroy the stream, or depend on the time
limit. -/
def Change.loose : Change → Bool
  | .put _ | .take _ | .unflag | .socket | .advertise | .destroy | .on .timeout => true
  | _ => false

theorem Change.Step.ties {k : Change} {s t : TcpStream} (h : k.Step s t)
    (hk : k.loose = false) : SameTies cfg s t := by
  cases h with
  | onControl hoff | onSend hoff | onAck hoff | onTimewait hoff =>
    refine SameBut.link ⟨rfl, rfl, rfl, rfl, fun _ _ => rfl, fun q hq => ?_⟩ rfl rfl hoff rfl nofun
    cases q <;> first | rfl | exact absurd rfl hq
  | onRto i hneg hi =>
    refine SameBut.link ⟨rfl, rfl, rfl, rfl, fun _ _ => rfl, fun q hq => ?_⟩ rfl rfl
      ((onWheel_eq_false_iff _).mpr hneg) ((onWheel_eq_true_iff _).mpr hi) nofun
    cases q <;> first | rfl | exact absurd rfl hq
  | offControl | offSend | offAck | offRto | offTimewait | offTimeout =>
    refine SameBut.unlink ⟨rfl, rfl, rfl, rfl, fun _ _ => rfl, fun q hq => ?_⟩ rfl rfl rfl
    cases q <;> first | rfl | exact absurd rfl hq
  | againTimewait hon => exact relink_ties .timewait s rfl hon
  | againTimeout hon => exact relink_ties .timeout s rfl hon
  | slot i hs hi =>
    have hflag : onWheel i = onWheel s.onRtoIdx :=
      ((onWheel_eq_true_iff _).mpr hi).trans ((onWheel_eq_true_iff _).mpr hs).symm
    refine .of_eq ?_
    unfold Mtcp.ties
    congr 1
    funext l
    cases l <;> first | rfl | exact hflag
  | note e hquiet =>
    have hcount : (e :: s.trace).count .destroy = s.trace.count .destroy :=
      List.count_cons_of_ne (by rintro rfl; cases hquiet)
    exact .of_eq (congrArg (fun n => { Mtcp.ties s with destroys := n }) hcount)
  | _ => first | exact .of_eq rfl | cases hk

theorem Path.ties {ks : List Change} {s t : TcpStream} (h : Path ks s t)
    (hks : ∀ k ∈ ks, k.loose = false) : SameTies cfg s t :=
  h.rule SameTies.refl (fun h h' => h'.after h) fun hk hstep => hstep.ties (hks _ hk)

/-- The changes that may let go of a queue or the socket, destroy the stream, or depend on the
time limit. -/
def Change.releases : Change → Bool
  | .put q => !q.queue
  | .advertise => false
  | k => k.loose

theorem Path.more {ks : List Change} {s t : TcpStream} (h : Path ks s t)
    (hks : ∀ k ∈ ks, k.releases = false) : MoreTies cfg s t := by
  refine h.rule (fun s => (SameTies.refl s).more) (fun h h' => h'.after h) fun hk hstep => ?_
  have hout := hks _ hk
  cases hl : Change.loose _ with
  | false => exact (hstep.ties hl).more
  | true =>
    cases hstep with
    | put q => exact .link (by simpa [Change.releases] using hout) _
    | advertise => exact MoreTies.after (.link rfl _) (SameTies.more (.of_eq rfl))
    | _ => exact absurd (hl.symm.trans hout) nofun

section lists

variable (s : TcpStream)

theorem addtoTimeoutList_ties :
    SameTies cfg s (if 0 < cfg.tcpTimeout then addtoTimeoutList s else s) := by
  split
  · next hpos =>
    unfold addtoTimeoutList
    split
    · exact .of_eq rfl
    · next hoff =>
      refine SameBut.link ⟨rfl, rfl, rfl, rfl, fun _ _ => rfl, fun q hq => ?_⟩ rfl rfl
        (eq_false_of_ne_true hoff) rfl (fun _ => hpos)
      cases q <;> first | rfl | exact absurd rfl hq
  · exact .refl s

theorem removeFromControlList_flag :
    (removeFromControlList s).flag = update s.flag .control false := by
  funext l
  unfold removeFromControlList
  cases l <;> split <;> simp_all [TcpStream.flag, TcpStream.unlink]

theorem removeFromSendList_flag : (removeFromSendList s).flag = update s.flag .send false := by
  funext l
  unfold removeFromSendList
  cases l <;> split <;> simp_all [TcpStream.flag, TcpStream.unlink]

theorem removeFromACKList_flag : (removeFromACKList s).flag = update s.flag .ack false := by
  funext l
  unfold removeFromACKList
  cases l <;> split <;> simp_all [TcpStream.flag, TcpStream.unlink]

theorem stopTimer_flag : (if s.onRtoIdx ≥ 0 then removeFromRTOList s else s).flag =
    update s.flag .rto false := by
  funext l
  unfold removeFromRTOList
  cases l <;> split_ifs <;> simp_all [TcpStream.flag, TcpStream.unlink]

theorem leaveTimewait_flag : (if s.onTimewaitList then removeFromTimewaitList s else s).flag =
      update s.flag .timewait false := by
  funext l
  unfold removeFromTimewaitList
  cases l <;> split_ifs <;> simp_all [TcpStream.flag, TcpStream.unlink]

theorem removeFromTimeoutList_flag :
    (removeFromTimeoutList s).flag = update s.flag .timeout false := by
  funext l
  unfold removeFromTimeoutList
  cases l <;> split <;> simp_all [TcpStream.flag, TcpStream.unlink]

end lists

/-- What `DestroyTCPStream` leaves behind: the queues and the socket it does not know of. -/
structure Destroyed (cfg : Config) (s t : TcpStream) : Prop where
  socket : t.socket = s.socket
  freed : t.socketFreed = s.socketFreed
  alive : t.onHashTable = false
  destroys : t.trace.count .destroy = s.trace.count .destroy + 1
  queues : ∀ q, q.queue = true → t.occ q = s.occ q
  lists : Listed cfg s → ∀ l, l.queue = false → t.occ l = 0 ∧ t.flag l = false

theorem Destroyed.after {s t u : TcpStream} (h' : Destroyed cfg t u) (h : SameTies cfg s t) :
    Destroyed cfg s u where
  socket := h'.socket.trans h.socket
  freed := h'.freed.trans h.freed
  alive := h'.alive
  destroys := h'.destroys.trans (congrArg (· + 1) h.destroys)
  queues q hq := (h'.queues q hq).trans (h.occ_eq q hq)
  lists hs := h'.lists (h.more.listed hs)

/-- Nothing lets go of the stream, or it is destroyed for a reason. -/
def TiesUnless (cfg : Config) (reason : Prop) (s t : TcpStream) : Prop :=
  MoreTies cfg s t ∨ reason ∧ Destroyed cfg s t

theorem TiesUnless.mono {p q : Prop} {s t : TcpStream} (h : TiesUnless cfg p s t) (hpq : p → q) :
    TiesUnless cfg q s t := h.imp id (And.imp_left hpq)

theorem TiesUnless.after {p : Prop} {s t u : TcpStream} (h' : TiesUnless cfg p t u)
    (h : SameTies cfg s t) : TiesUnless cfg p s u :=
  h'.imp (·.after h.more) (And.imp_right (·.after h))

theorem SameTies.unless {p : Prop} {s t : TcpStream} (h : SameTies cfg s t) :
    TiesUnless cfg p s t := .inl h.more

theorem Listed.occ_eq_zero {s : TcpStream} (h : Listed cfg s) {l : StreamList}
    (hl : l.queue = false) (hoff : s.flag l = false) : s.occ l = 0 := by
  rw [show s.occ l = _ from h.agrees l hl, hoff]
  rfl

theorem destroyTCPStream_destroyed (s : TcpStream) : Destroyed cfg s (destroyTCPStream cfg s) := by
  unfold destroyTCPStream
  dsimp only
  have h1 : SameTies cfg s _ := (removeFromControlList_path s).ties (by decide)
  have f1 := removeFromControlList_flag s
  generalize removeFromControlList s = s1 at h1 f1 ⊢
  have h2 := ((removeFromSendList_path s1).ties (by decide)).after h1
  have f2 := removeFromSendList_flag s1
  generalize removeFromSendList s1 = s2 at h2 f2 ⊢
  have h3 := ((removeFromACKList_path s2).ties (by decide)).after h2
  have f3 := removeFromACKList_flag s2
  generalize removeFromACKList s2 = s3 at h3 f3 ⊢
  have h4 := ((stopTimer_path s3).ties (by decide)).after h3
  have f4 := stopTimer_flag s3
  generalize (if s3.onRtoIdx ≥ 0 then removeFromRTOList s3 else s3) = s4 at h4 f4 ⊢
  have h5 : SameTies cfg s (if s4.onTimewaitList then removeFromTimewaitList s4 else s4) :=
    .ite (((removeFromTimewaitList_path s4).ties (by decide)).after h4) h4
  have f5 := leaveTimewait_flag s4
  generalize (if s4.onTimewaitList then removeFromTimewaitList s4 else s4) = s5 at h5 f5 ⊢
  have h6 : SameTies cfg s (if cfg.tcpTimeout > 0 then removeFromTimeoutList s5 else s5) :=
    .ite (((removeFromTimeoutList_path s5).ties (by decide)).after h5) h5
  have f6 : Listed cfg s5 → (if cfg.tcpTimeout > 0 then removeFromTimeoutList s5 else s5).flag =
      update s5.flag .timeout false := by
    intro hl
    split
    · exact removeFromTimeoutList_flag s5
    · next hno =>
      have hoff : s5.flag .timeout = false := eq_false_of_ne_true fun hon => hno (hl.timed hon)
      rw [← hoff, update_eq_self]
  generalize (if cfg.tcpTimeout > 0 then removeFromTimeoutList s5 else s5) = s6 at h6 f6 ⊢
  have h7 : SameTies cfg s (if s6.onHashTable then s6 else s6.abort .notOnHashTable) :=
    .ite h6 (h6.congr rfl)
  have f7 : (if s6.onHashTable then s6 else s6.abort .notOnHashTable).flag = s6.flag := by
    split <;> rfl
  generalize (if s6.onHashTable then s6 else s6.abort .notOnHashTable) = s7 at h7 f7 ⊢
  refine ⟨h7.socket, h7.freed, rfl, ?_, h7.occ_eq, fun hs l hl => ?_⟩
  · exact List.count_cons_self.trans (congrArg (· + 1) h7.destroys)
  · have hoff : s7.flag l = false := by
      rw [f7, f6 (h5.more.listed hs), f5, f4, f3, f2, f1]
      cases l <;> rfl
    exact ⟨(h7.more.listed hs).occ_eq_zero hl hoff, hoff⟩

/-! What the steps of a run keep. -/

theorem Destroyed.listed {s t : TcpStream} (h : Destroyed cfg s t) (hs : Listed cfg s) :
    Listed cfg t := by
  constructor
  · intro l hl
    obtain ⟨hocc, hflag⟩ := h.lists hs l hl
    unfold Agrees
    rw [hocc, hflag]
    rfl
  · intro hon
    have hoff : t.onTimeoutList = false := (h.lists hs .timeout rfl).2
    rw [hoff] at hon
    cases hon

theorem TiesUnless.listed {p : Prop} {s t : TcpStream} (h : TiesUnless cfg p s t)
    (hs : Listed cfg s) : Listed cfg t := by
  obtain h | ⟨_, h⟩ := h
  · exact h.listed hs
  · exact h.listed hs

theorem TiesUnless.more {p : Prop} {s t : TcpStream} (h : TiesUnless cfg p s t)
    (halive : t.onHashTable) : MoreTies cfg s t := by
  obtain h | ⟨_, h⟩ := h
  · exact h
  · rw [h.alive] at halive
    cases halive

theorem Listed.congr {s t : TcpStream} (hs : Listed cfg s)
    (hocc : ∀ l, l.queue = false → t.occ l = s.occ l) (hflag : t.flag = s.flag) : Listed cfg t := by
  constructor
  · intro l hl
    unfold Agrees
    rw [hocc l hl, hflag]
    exact hs.agrees l hl
  · intro hon
    exact hs.timed ((congrFun hflag .timeout).symm.trans hon)

theorem Listed.unlink {s : TcpStream} {q : StreamList} (hs : Listed cfg s)
    (hq : q.queue) : Listed cfg (s.unlink q) := by
  refine hs.congr (fun l hl => update_of_ne ?_ _ _) rfl
  rintro rfl
  rw [hq] at hl
  cases hl

theorem Listed.link {s : TcpStream} {q : StreamList} (hs : Listed cfg s)
    (hq : q.queue) : Listed cfg (s.link q) := (MoreTies.link hq s).listed hs

end Mtcp
