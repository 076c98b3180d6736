import Mtcp.EpollOnce
import Mtcp.Stored
import Mtcp.Windows

namespace Mtcp

open Serial SendBuffer RingBuffer Flags Runs UInt32 EventPoll

variable {cfg : Config}

/-! The calls of `api.c` on a stream socket, with the events they raise. -/

inductive RecvFlags where
  | none | peek | other
  deriving DecidableEq, Repr

/-- The end of `mtcp_recv`: raise EPOLLIN if bytes remain, or if a reader in CLOSE_WAIT has
taken the last one. -/
def recvEvent (i : Nat) (r : Int × TcpStream) (p : EventPoll) : TcpStream × EventPoll :=
  let k := p.socket i
  let eventRemaining :=
    decide (Meets k.epoll EPOLLIN) && !decide (Meets k.epoll EPOLLET) &&
      hasUnread r.2.rcvvar.rcvbuf ||
      decide (r.2.state = .closeWait) && !hasUnread r.2.rcvvar.rcvbuf && decide (0 < r.1)
  (r.2, if eventRemaining && decide (k.epoll ≠ 0) then (addEpollEvent .usrShadow i EPOLLIN p).2
    else p)

/-- The end of `mtcp_readv`, which asks for EPOLLIN in the mask once more. -/
def readvEvent (i : Nat) (r : Int × TcpStream) (p : EventPoll) : TcpStream × EventPoll :=
  let k := p.socket i
  let eventRemaining :=
    decide (Meets k.epoll EPOLLIN) && !decide (Meets k.epoll EPOLLET) &&
      hasUnread r.2.rcvvar.rcvbuf ||
      decide (r.2.state = .closeWait) && !hasUnread r.2.rcvvar.rcvbuf && decide (0 < r.1)
  (r.2, if eventRemaining && (decide (Meets k.epoll EPOLLIN) && !decide (Meets k.epoll EPOLLET))
    then (addEpollEvent .usrShadow i EPOLLIN p).2 else p)

def copies (nonblock : Bool) (s : TcpStream) : Prop :=
  (.established ≤ s.state ∧ s.state ≤ .closeWait) ∧
    ¬(s.state = .closeWait ∧ nothingMerged s = true) ∧ ¬(nonblock && nothingMerged s) = true

instance (nonblock : Bool) (s : TcpStream) : Decidable (copies nonblock s) :=
  inferInstanceAs (Decidable (_ ∧ _ ∧ _))

def mtcpRecvPolled (i : Nat) (nonblock : Bool) (flags : RecvFlags) (len : Nat) (s : TcpStream)
    (p : EventPoll) : TcpStream × EventPoll :=
  if copies nonblock s then
    match flags with
    | .none => recvEvent i (copyToUser (signed (UInt32.ofNat len)) s) p
    | .peek => recvEvent i (peekForUser (signed (UInt32.ofNat len)) s) p
    | .other => (s, p)
  else (s, p)

/-- The loop of `mtcp_readv` over the user's buffers. -/
def readvLoop : List Nat → Int → TcpStream → Int × TcpStream
  | [], bytesRead, s => (bytesRead, s)
  | len :: iov, bytesRead, s =>
    if len = 0 then readvLoop iov bytesRead s
    else
      match copyToUser (signed (UInt32.ofNat len)) s with
      | (ret, s) =>
        if ret ≤ 0 then (bytesRead, s)
        else if ret < len then (bytesRead + ret, s)
        else readvLoop iov (bytesRead + ret) s

def mtcpReadvPolled (i : Nat) (nonblock : Bool) (iov : List Nat) (s : TcpStream)
    (p : EventPoll) : TcpStream × EventPoll :=
  if copies nonblock s then readvEvent i (readvLoop iov 0 s) p else (s, p)

def mtcpWritePolled (cfg : Config) (env : Env) (i : Nat) (bytes : List UInt8) (s : TcpStream)
    (p : EventPoll) : TcpStream × EventPoll :=
  let t := (mtcpWrite cfg env bytes s).2
  let k := p.socket i
  (t, if (s.state = .established ∨ s.state = .closeWait) ∧ bytes ≠ [] ∧ 0 < t.sndvar.sndWnd ∧
      Meets k.epoll EPOLLOUT ∧ ¬Meets k.epoll EPOLLET then
    (addEpollEvent .usrShadow i EPOLLOUT p).2 else p)

theorem mtcpRecvPolled_stream (i : Nat) (nonblock : Bool) (len : Nat) (s : TcpStream)
    (p : EventPoll) :
    (mtcpRecvPolled i nonblock .none len s p).1 = (mtcpRecv nonblock false len s).2 ∧
      (mtcpRecvPolled i nonblock .peek len s p).1 = (mtcpRecv nonblock true len s).2 := by
  unfold mtcpRecvPolled mtcpRecv
  by_cases hcopies : copies nonblock s
  · obtain ⟨hstate, hwait, hnon⟩ := id hcopies
    rw [if_pos hcopies, if_pos hcopies, if_neg (not_not.mpr hstate), if_neg hwait, if_neg hnon,
      if_neg (not_not.mpr hstate), if_neg hwait, if_neg hnon]
    exact ⟨rfl, rfl⟩
  · rw [if_neg hcopies, if_neg hcopies]
    by_cases hstate : .established ≤ s.state ∧ s.state ≤ .closeWait
    · by_cases hwait : s.state = .closeWait ∧ nothingMerged s
      · rw [if_neg (not_not.mpr hstate), if_pos hwait, if_neg (not_not.mpr hstate), if_pos hwait]
        exact ⟨rfl, rfl⟩
      · have hnon : (nonblock && nothingMerged s) := by
          by_contra hnon
          exact hcopies ⟨hstate, hwait, hnon⟩
        rw [if_neg (not_not.mpr hstate), if_neg hwait, if_pos hnon, if_neg (not_not.mpr hstate),
          if_neg hwait, if_pos hnon]
        exact ⟨rfl, rfl⟩
    · rw [if_pos hstate, if_pos hstate]
      exact ⟨rfl, rfl⟩

/-- What the calls below rely on: sound buffers, and windows that tell their free space. -/
structure Polled (cfg : Config) (s : TcpStream) : Prop where
  alive : s.onHashTable = true
  fits : Fits cfg (buffers s)
  sound : (conn s).Stored cfg

variable {env : Env} {s : TcpStream} {buf : TcpSendBuffer} (bytes : List UInt8)

theorem run_polled {es : List (Env × Action)} (hs : Opened cfg s) (hf : (run cfg s es).fault = none)
    (hl : (run cfg s es).onHashTable) : Polled cfg (run cfg s es) where
  alive := hl
  fits := run_fitting es hs hl
  sound := (run_invariant (fun _ _ _ _ _ _ h hg hm _ => h.apply hg (.inl hm))
    (fun _ hv => stored_started hv) hs (along_of_forall (fun _ _ => trivial) s es) hf hl).2

/-! What raising an event does to a socket. -/

variable {p : EventPoll} {i : Nat} {b c : UInt32}

def EventPoll.hasRoom (p : EventPoll) : Prop :=
  (p.queue .usrShadow).numEvents < (p.queue .usrShadow).size

theorem addEpollEvent_epoll (t : EventQueueType) (j : Nat) :
    ((addEpollEvent t i b p).2.socket j).epoll = (p.socket j).epoll := by
  unfold addEpollEvent
  split_ifs
  · rfl
  · rfl
  · rfl
  · by_cases hj : j = i
    · subst hj
      simp [register, socket]
    · simp [register, socket, modify_smap_ne, hj]

theorem meets_addEpollEvent (hb : Single b) (hc : Single c) :
    Meets ((addEpollEvent .usrShadow i b p).2.socket i).events c ↔
      Meets (p.socket i).events c ∨ c = b ∧ p.hasRoom := by
  unfold addEpollEvent
  rw [if_neg hb.ne_zero]
  by_cases hpending : Meets (p.socket i).events b
  · rw [if_pos hpending]
    constructor
    · exact .inl
    · rintro (h | ⟨rfl, -⟩)
      · exact h
      · exact hpending
  · rw [if_neg hpending]
    by_cases hfull : (p.queue .usrShadow).size ≤ (p.queue .usrShadow).numEvents
    · have hno : ¬p.hasRoom := Nat.not_lt.mpr hfull
      rw [if_pos hfull]
      simp [hno]
    · have hroom : p.hasRoom := Nat.lt_of_not_le hfull
      have hevents : ((p.register .usrShadow i b).socket i).events = (p.socket i).events ||| b := by
        simp [register, socket]
      rw [if_neg hfull, hevents, hc.meets_or hb]
      simp [hroom]

theorem hasRoom_addEpollEvent (hb : Single b) : (addEpollEvent .usrShadow i b p).2.hasRoom ↔
      (p.queue .usrShadow).numEvents + (if Meets (p.socket i).events b then 0 else 1) <
        (p.queue .usrShadow).size := by
  unfold addEpollEvent
  rw [if_neg hb.ne_zero]
  by_cases hpending : Meets (p.socket i).events b
  · rw [if_pos hpending, if_pos hpending]
    exact Iff.rfl
  · rw [if_neg hpending, if_neg hpending]
    by_cases hfull : (p.queue .usrShadow).size ≤ (p.queue .usrShadow).numEvents
    · rw [if_pos hfull]
      change (p.queue .usrShadow).numEvents < (p.queue .usrShadow).size ↔ _
      omega
    · rw [if_neg hfull]
      simp [hasRoom, register, EventQueue.put]

theorem epollin_ne_epollout : EPOLLIN ≠ EPOLLOUT := by decide

/-! How many bytes the calls move. -/

def unreadLen (s : TcpStream) : Nat :=
  match s.rcvvar.rcvbuf with
  | none => 0
  | some buf => buf.mergedLen

theorem hasUnread_iff (s : TcpStream) : hasUnread s.rcvvar.rcvbuf ↔ 0 < unreadLen s := by
  unfold hasUnread unreadLen
  cases s.rcvvar.rcvbuf with
  | none | some => simp

def limited (len room : Nat) : Nat := min room (signed (UInt32.ofNat len)).toNat

def gathered : List Nat → Nat → Nat
  | [], _ => 0
  | len :: iov, n =>
    if len = 0 then gathered iov n
    else if limited len n = 0 then 0
    else if limited len n < len then limited len n
    else limited len n + gathered iov (n - limited len n)

theorem gathered_le (iov : List Nat) (n : Nat) : gathered iov n ≤ n := by
  induction iov generalizing n with
  | nil => exact Nat.zero_le n
  | cons len iov ih =>
    unfold gathered
    have hle : limited len n ≤ n := Nat.min_le_left _ _
    have hrest := ih (n - limited len n)
    split_ifs
    · exact ih n
    · exact Nat.zero_le n
    · exact hle
    · omega

theorem rbRemove_mergedLen {buf : TcpRingBuffer} {n : Nat} (hn : n ≤ buf.mergedLen) :
    (rbRemove buf n).2.2.mergedLen = buf.mergedLen - n := by
  unfold rbRemove
  rw [Nat.min_eq_left hn]
  by_cases h0 : n = 0
  · rw [if_pos h0, h0]
    rfl
  · rw [if_neg h0]
    cases buf.fctx with
    | nil => rfl
    | cons first rest =>
      dsimp only
      split_ifs <;> rfl

theorem copyToUser_spec (len : Nat) (s : TcpStream) :
    (copyToUser (signed (ofNat len)) s).2.state = s.state ∧
      unreadLen (copyToUser (signed (ofNat len)) s).2 = unreadLen s - limited len (unreadLen s) ∧
      (copyToUser (signed (ofNat len)) s).1 =
        if limited len (unreadLen s) = 0 then -1 else (limited len (unreadLen s) : Int) := by
  unfold copyToUser
  cases hbuf : s.rcvvar.rcvbuf with
  | none =>
    have hzero : unreadLen s = 0 := by rw [unreadLen, hbuf]
    have hsame : unreadLen (s.abort .noRcvbuf) = unreadLen s := rfl
    rw [hsame, hzero]
    exact ⟨rfl, by simp, by simp [limited]⟩
  | some buf =>
    have hlen : unreadLen s = buf.mergedLen := by rw [unreadLen, hbuf]
    rw [hlen]
    dsimp only
    by_cases hnone : min (buf.mergedLen : Int) (signed (ofNat len)) ≤ 0
    · have hzero : limited len buf.mergedLen = 0 := by
        unfold limited
        omega
      rw [if_pos hnone, hzero, hlen]
      simp
    · have hcopy : (min (buf.mergedLen : Int) (signed (ofNat len))).toNat =
          limited len buf.mergedLen := by
        unfold limited
        omega
      have hpos : limited len buf.mergedLen ≠ 0 := by omega
      have hmerged := @rbRemove_mergedLen buf (limited len buf.mergedLen) (Nat.min_le_left _ _)
      rw [if_neg hnone, if_neg hpos, hcopy]
      generalize rbRemove buf (limited len buf.mergedLen) = r at hmerged ⊢
      obtain ⟨n, failed, rest⟩ := r
      have hadvertise : ∀ w, (advertiseWindow w).state = w.state ∧
          unreadLen (advertiseWindow w) = unreadLen w := by
        intro w
        unfold advertiseWindow
        split <;> exact ⟨rfl, rfl⟩
      rw [(hadvertise _).1, (hadvertise _).2]
      refine ⟨?_, ?_, by omega⟩
      · cases failed <;> rfl
      · rw [← hmerged]
        cases failed <;> rfl

theorem readvLoop_spec (iov : List Nat) (bytesRead : Int) (s : TcpStream) :
    (readvLoop iov bytesRead s).2.state = s.state ∧
      unreadLen (readvLoop iov bytesRead s).2 = unreadLen s - gathered iov (unreadLen s) ∧
      (readvLoop iov bytesRead s).1 = bytesRead + gathered iov (unreadLen s) := by
  induction iov generalizing bytesRead s with
  | nil => simp [readvLoop, gathered]
  | cons len iov ih =>
    unfold readvLoop gathered
    by_cases hlen : len = 0
    · rw [if_pos hlen, if_pos hlen]
      exact ih bytesRead s
    · rw [if_neg hlen, if_neg hlen]
      obtain ⟨hstate, hunread, hret⟩ := copyToUser_spec len s
      generalize copyToUser (signed (ofNat len)) s = r at hstate hunread hret ⊢
      obtain ⟨ret, w⟩ := r
      dsimp only at hstate hunread hret ⊢
      have hle : limited len (unreadLen s) ≤ unreadLen s := Nat.min_le_left _ _
      by_cases hzero : limited len (unreadLen s) = 0
      · rw [if_pos hzero] at hret ⊢
        rw [if_pos (by omega)]
        rw [hzero] at hunread
        exact ⟨hstate, hunread, by simp⟩
      · rw [if_neg hzero] at hret ⊢
        rw [if_neg (by omega)]
        by_cases hshort : limited len (unreadLen s) < len
        · rw [if_pos hshort, if_pos (by omega)]
          exact ⟨hstate, hunread, by omega⟩
        · rw [if_neg hshort, if_neg (by omega)]
          obtain ⟨hstate', hunread', hret'⟩ := ih (bytesRead + ret) w
          rw [hunread] at hunread' hret'
          refine ⟨hstate'.trans hstate, by omega, by omega⟩

def hasSpace : Option TcpSendBuffer → Prop
  | none => True
  | some buf => buf.len < buf.size

instance : DecidablePred hasSpace
  | none => isTrue trivial
  | some buf => inferInstanceAs (Decidable (buf.len < buf.size))

def leavesSpace (cfg : Config) (env : Env) (len : Nat) : Option TcpSendBuffer → Prop
  | none => env.sbAlloc = false ∨ limited len cfg.sndbufSize < cfg.sndbufSize
  | some buf => buf.len + limited len (buf.size - buf.len) < buf.size

theorem limited_le_length (len room : Nat) : limited len room ≤ len := by
  unfold limited
  rw [signed_eq]
  have hmod : (ofNat len).toNat ≤ len := by
    rw [toNat_ofNat']
    exact Nat.mod_le _ _
  split_ifs <;> omega

theorem sbPut_len {bytes : List UInt8} (hpos : 0 < bytes.length)
    (hroom : bytes.length ≤ buf.size - buf.len) :
    (sbPut buf bytes).1 = bytes.length ∧ (sbPut buf bytes).2.len = buf.len + bytes.length ∧
      (sbPut buf bytes).2.size = buf.size := by
  unfold sbPut
  rw [if_neg (by omega)]
  rw [Nat.min_eq_left hroom, if_neg (by omega)]
  split_ifs <;> exact ⟨rfl, rfl, rfl⟩

theorem Polled.size_lt (h : Polled cfg s) {buf : TcpSendBuffer} (hbuf : s.sndvar.sndbuf = some buf)
    : buf.len ≤ buf.size ∧ buf.size < 2147483648 := by
  obtain ⟨hwf, hsize⟩ := h.sound buf hbuf
  have hlt := cfg.sndbufSize_lt
  exact ⟨hwf.len_le, hsize ▸ hlt⟩

theorem toNat_ofNat_small {n : Nat} (h : n < 2147483648) : (ofNat n).toNat = n := by
  rw [toNat_ofNat']
  exact Nat.mod_eq_of_lt (by omega)

theorem min_signed_toNat {room len : Nat} (h : room < 2147483648) :
    (min (signed (ofNat room)) (signed (ofNat len))).toNat = limited len room ∧
      (min (signed (ofNat room)) (signed (ofNat len)) ≤ 0 ↔ limited len room = 0) := by
  have hroom : signed (ofNat room) = room := by
    rw [signed_eq, toNat_ofNat_small h, if_pos h]
  rw [hroom]
  unfold limited
  constructor
  · omega
  · omega

theorem copyFromUser_none {room : Nat} (bytes : List UInt8) (hroom : room < 2147483648)
    (hwnd : s.sndvar.sndWnd = ofNat room) (hzero : limited bytes.length room = 0) :
    (copyFromUser cfg env bytes s).2 = s := by
  unfold copyFromUser
  rw [hwnd, if_pos ((min_signed_toNat hroom).2.mpr hzero)]

theorem copyFromUser_put (hsize : buf.size < 2147483648)
    (hwnd : s.sndvar.sndWnd = ofNat (buf.size - buf.len)) (hbuf : ensureSndbuf cfg env s = some buf)
    (hpos : limited bytes.length (buf.size - buf.len) ≠ 0) :
    ∃ rest, (copyFromUser cfg env bytes s).2.sndvar.sndbuf = some rest ∧ rest.size = buf.size ∧
      rest.len = buf.len + limited bytes.length (buf.size - buf.len) := by
  obtain ⟨hcopy, hnone⟩ := @min_signed_toNat (buf.size - buf.len) bytes.length (by omega)
  have hlength : (bytes.take (limited bytes.length (buf.size - buf.len))).length =
      limited bytes.length (buf.size - buf.len) := by
    rw [List.length_take]
    exact Nat.min_eq_left (limited_le_length _ _)
  have hput := @sbPut_len buf (bytes.take (limited bytes.length (buf.size - buf.len)))
    (by omega) (by rw [hlength]; exact Nat.min_le_left _ _)
  rw [hlength] at hput
  unfold copyFromUser
  rw [hwnd, if_neg (mt hnone.mp hpos), hbuf]
  dsimp only
  rw [hcopy]
  generalize sbPut buf _ = r at hput ⊢
  obtain ⟨ret, rest⟩ := r
  obtain ⟨hret, hlen, hrest⟩ := hput
  have hall : ¬ret ≠ min (signed (ofNat (buf.size - buf.len)))
      (signed (ofNat bytes.length)) := by omega
  rw [if_neg hall, if_neg (by omega)]
  exact ⟨rest, rfl, hrest, hlen⟩

/-- A buffer of a size the configuration allows, and whether it has space. -/
def Sized (b : Option TcpSendBuffer) : Prop := ∀ buf, b = some buf → buf.size < 2147483648

theorem copyFromUser_spec (h : Polled cfg s) :
    Sized (copyFromUser cfg env bytes s).2.sndvar.sndbuf ∧
      (hasSpace (copyFromUser cfg env bytes s).2.sndvar.sndbuf ↔
        leavesSpace cfg env bytes.length s.sndvar.sndbuf) := by
  have hwnd : s.sndvar.sndWnd = sendRoom cfg s.sndvar.sndbuf := h.fits.send
  have hsized : Sized s.sndvar.sndbuf := fun buf hbuf => (h.size_lt hbuf).2
  have hput : ∀ rest, rest.size < 2147483648 → Sized (some rest) := by
    rintro rest hrest buf ⟨⟩
    exact hrest
  cases hbuf : s.sndvar.sndbuf with
  | some buf =>
    obtain ⟨hle, hsize⟩ := h.size_lt hbuf
    rw [hbuf] at hwnd
    by_cases hzero : limited bytes.length (buf.size - buf.len) = 0
    · rw [copyFromUser_none bytes (by omega) hwnd hzero]
      refine ⟨hsized, ?_⟩
      simp [hbuf, leavesSpace, hasSpace, hzero]
    · obtain ⟨rest, hrest, hrsize, hrlen⟩ :=
        @copyFromUser_put cfg env s buf bytes hsize hwnd (by rw [ensureSndbuf, hbuf]) hzero
      rw [hrest]
      refine ⟨hput rest (hrsize ▸ hsize), ?_⟩
      simp [leavesSpace, hasSpace, hrsize, hrlen]
  | none =>
    have hsize := cfg.sndbufSize_lt
    have hge := cfg.sndbufSize_ge
    rw [hbuf] at hwnd
    by_cases hzero : limited bytes.length cfg.sndbufSize = 0
    · rw [copyFromUser_none bytes hsize hwnd hzero]
      refine ⟨hsized, ?_⟩
      simp only [hbuf, leavesSpace, hasSpace, hzero]
      exact ⟨fun _ => .inr (by omega), fun _ => trivial⟩
    · cases halloc : env.sbAlloc with
      | true =>
        obtain ⟨rest, hrest, hrsize, hrlen⟩ :=
          @copyFromUser_put cfg env s (sbInit env.junk cfg.sndbufSize (s.sndvar.iss + 1)) bytes
            hsize hwnd (by rw [ensureSndbuf, hbuf]; simp [halloc]) hzero
        have hlen : rest.len = limited bytes.length cfg.sndbufSize := by
          simpa [sbInit] using hrlen
        have hfull : rest.size = cfg.sndbufSize := hrsize
        rw [hrest]
        refine ⟨hput rest (hfull ▸ hsize), ?_⟩
        simp [leavesSpace, hasSpace, hfull, hlen, halloc]
      | false =>
        have hensure : ensureSndbuf cfg env s = none := by
          rw [ensureSndbuf, hbuf]
          simp [halloc]
        have hsame : (copyFromUser cfg env bytes s).2.sndvar.sndbuf = s.sndvar.sndbuf := by
          unfold copyFromUser
          dsimp only
          rw [hensure]
          split_ifs <;> rfl
        rw [hsame]
        refine ⟨hsized, ?_⟩
        simp [hbuf, leavesSpace, hasSpace, halloc]

theorem mtcpWrite_frame (env : Env) (bytes : List UInt8) (s : TcpStream) :
    (mtcpWrite cfg env bytes s).2.state = s.state ∧
      (mtcpWrite cfg env bytes s).2.rcvvar = s.rcvvar ∧
      (mtcpWrite cfg env bytes s).2.onHashTable = s.onHashTable := by
  have hcopy : (copyFromUser cfg env bytes s).2.state = s.state ∧
      (copyFromUser cfg env bytes s).2.rcvvar = s.rcvvar ∧
      (copyFromUser cfg env bytes s).2.onHashTable = s.onHashTable := by
    unfold copyFromUser
    dsimp only
    split
    · exact ⟨rfl, rfl, rfl⟩
    · split
      · exact ⟨rfl, rfl, rfl⟩
      · generalize sbPut _ _ = r
        obtain ⟨ret, rest⟩ := r
        split_ifs <;> exact ⟨rfl, rfl, rfl⟩
  unfold mtcpWrite
  split
  · exact ⟨rfl, rfl, rfl⟩
  · split
    · exact ⟨rfl, rfl, rfl⟩
    · generalize copyFromUser cfg env bytes s = r at hcopy ⊢
      obtain ⟨ret, w⟩ := r
      dsimp only
      split_ifs <;> exact hcopy

theorem mtcpWrite_spec (h : Polled cfg s) (hstate : s.state = .established) :
    Sized (mtcpWrite cfg env bytes s).2.sndvar.sndbuf ∧
      (hasSpace (mtcpWrite cfg env bytes s).2.sndvar.sndbuf ↔
        leavesSpace cfg env bytes.length s.sndvar.sndbuf) := by
  unfold mtcpWrite
  rw [if_neg (not_not.mpr (.inl hstate))]
  by_cases hnil : bytes.length = 0
  · rw [if_pos hnil, hnil]
    refine ⟨fun buf hbuf => (h.size_lt hbuf).2, ?_⟩
    have hge := cfg.sndbufSize_ge
    cases s.sndvar.sndbuf with
    | none =>
      simp only [hasSpace, leavesSpace, limited]
      exact ⟨fun _ => .inr (by simp [signed_eq]; omega), fun _ => trivial⟩
    | some buf => simp [hasSpace, leavesSpace, limited, signed_eq]
  · rw [if_neg hnil]
    have hcopy := @copyFromUser_spec cfg env s bytes h
    generalize copyFromUser cfg env bytes s = r at hcopy ⊢
    obtain ⟨ret, w⟩ := r
    dsimp only
    split_ifs <;> exact hcopy

theorem window_pos {b : Buffers} (hfit : Fits cfg b) (hsized : Sized b.sndbuf) :
    0 < b.sndWnd ↔ hasSpace b.sndbuf := by
  rw [hfit.send, UInt32.lt_iff_toNat_lt]
  cases hbuf : b.sndbuf with
  | none =>
    have hge := cfg.sndbufSize_ge
    simp only [sendRoom, hasSpace, toNat_ofNat_small cfg.sndbufSize_lt]
    exact ⟨fun _ => trivial, fun _ => by simp; omega⟩
  | some buf =>
    have hsize := hsized buf hbuf
    have hsmall : buf.size - buf.len < 2147483648 := by omega
    simp only [sendRoom, hasSpace, toNat_ofNat_small hsmall, UInt32.toNat_zero]
    omega

def halfEmpty : Option TcpSendBuffer → Prop
  | none => True
  | some buf => 2 * buf.len < buf.size

instance : DecidablePred halfEmpty
  | none => isTrue trivial
  | some buf => inferInstanceAs (Decidable (2 * buf.len < buf.size))

theorem Polled.writable_iff (h : Polled cfg s) : writable s ↔ halfEmpty s.sndvar.sndbuf := by
  have hwnd : s.sndvar.sndWnd = sendRoom cfg s.sndvar.sndbuf := h.fits.send
  unfold writable
  cases hbuf : s.sndvar.sndbuf with
  | none => simp [halfEmpty]
  | some buf =>
    obtain ⟨hle, hsize⟩ := h.size_lt hbuf
    have hsmall : buf.size - buf.len < 2147483648 := by omega
    simp only [hwnd, hbuf, sendRoom, toNat_ofNat_small hsmall, halfEmpty, decide_eq_true_eq]
    omega

end Mtcp
