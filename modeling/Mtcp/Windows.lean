import Mtcp.Paths

namespace Mtcp

open Serial SendBuffer RingBuffer Options

/-- The buffers of a stream with their windows, and whether the stream still exists. -/
structure Buffers where
  sndWnd : UInt32
  sndbuf : Option TcpSendBuffer
  rcvWnd : UInt32
  rcvbuf : Option TcpRingBuffer
  alive : Bool

def buffers (s : TcpStream) : Buffers where
  sndWnd := s.sndvar.sndWnd
  sndbuf := s.sndvar.sndbuf
  rcvWnd := s.rcvvar.rcvWnd
  rcvbuf := s.rcvvar.rcvbuf
  alive := s.onHashTable

/-! The windows tell the free space of the buffers. -/

/-- The free space of the send buffer, before and after it is allocated. -/
def sendRoom (cfg : Config) : Option TcpSendBuffer → UInt32
  | none => UInt32.ofNat cfg.sndbufSize
  | some buf => UInt32.ofNat (buf.size - buf.len)

/-- The receive window starts from a constant. -/
def recvRoom : Option TcpRingBuffer → UInt32
  | none => 14600
  | some buf => UInt32.ofNat (buf.size - buf.mergedLen)

structure Fits (cfg : Config) (b : Buffers) : Prop where
  send : b.sndWnd = sendRoom cfg b.sndbuf
  recv : b.rcvWnd = recvRoom b.rcvbuf

def Fitting (cfg : Config) (s : TcpStream) : Prop := s.onHashTable = true → Fits cfg (buffers s)

theorem estimateRTT_buffer (s : TcpStream) (mrtt : UInt32) :
    (estimateRTT s mrtt).rcvWnd = s.rcvvar.rcvWnd ∧
      (estimateRTT s mrtt).rcvbuf = s.rcvvar.rcvbuf := by
  unfold estimateRTT
  dsimp only
  split
  · split <;> exact ⟨rfl, rfl⟩
  · exact ⟨rfl, rfl⟩

section

variable {cfg : Config} {s t : TcpStream}

theorem Change.Step.fitting {k : Change} (h : k.Step s t) (hs : Fitting cfg s) : Fitting cfg t := by
  intro halive
  cases h with
  | removed | written => exact ⟨rfl, (hs halive).recv⟩
  | store | read => exact ⟨(hs halive).send, rfl⟩
  | destroy => exact absurd halive nofun
  | rtt mrtt rto =>
    obtain ⟨hwnd, hbuf⟩ := estimateRTT_buffer s mrtt
    refine ⟨(hs halive).send, ?_⟩
    change (estimateRTT s mrtt).rcvWnd = recvRoom (estimateRTT s mrtt).rcvbuf
    rw [hwnd, hbuf]
    exact (hs halive).recv
  | _ => exact ⟨(hs halive).send, (hs halive).recv⟩

theorem Path.fitting {ks : List Change} (h : Path ks s t) (hs : Fitting cfg s) : Fitting cfg t :=
  h.keeps (fun _ => Change.Step.fitting) hs

theorem fitting_step (e : Env × Action) (hs : Fitting cfg s) : Fitting cfg (step cfg s e) :=
  run_changes cfg s Change.Step.fitting hs [e]

theorem Opened.fitting (h : Opened cfg s) : Fitting cfg s := by
  cases h with
  | active iss sockid room =>
    unfold mtcpConnect
    split <;> exact fun _ => ⟨rfl, rfl⟩
  | passive env iss seg _ _ =>
    apply (processTCPPacket_path cfg env seg _).fitting
    apply (parseTCPOptions_path env seg _).fitting
    exact fun _ => ⟨rfl, rfl⟩

theorem run_fitting (es : List (Env × Action)) (h : Opened cfg s) : Fitting cfg (run cfg s es) :=
  run_changes cfg s Change.Step.fitting h.fitting es

end

end Mtcp
