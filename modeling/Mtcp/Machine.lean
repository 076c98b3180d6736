import Mtcp.Output
import Mtcp.Input
import Mtcp.Application

namespace Mtcp

/-- A segment arrives, a timer check or a queue reaches the stream, a send pass serves it with some
write buffers left, or the application calls. -/
inductive Action where
  | rx (seg : Segment)
  | rtm
  | rearrange
  | timewait
  | timeout
  | dequeue (q : StreamList)
  | controlPass (room : Nat)
  | dataPass (room : Nat)
  | ackPass (room : Nat)
  | accept (sock : Option Nat)
  | write (bytes : List UInt8)
  | recv (nonblock peek : Bool) (len : Nat)
  | close
  | abort

/-- One step of a stream. It is served only while on a list, found only in the flow table, and
called only through its socket. -/
def act (cfg : Config) (env : Env) (s : TcpStream) : Action → TcpStream
  | .rx seg => if s.onHashTable then processTCPPacket cfg env seg s else s
  | .rtm => checkRtmTimeout cfg env s
  | .rearrange => rearrangeRTOStore env s
  | .timewait => checkTimewaitExpire cfg env s
  | .timeout => if 0 < cfg.tcpTimeout then checkConnectionTimeout cfg env s else s
  | .dequeue q => dequeue cfg q s
  | .controlPass room =>
    if 0 < s.occ .control then writeTCPControl cfg env { s with txRoom := room } else s
  | .dataPass room => if 0 < s.occ .send then writeTCPData env { s with txRoom := room } else s
  | .ackPass room => if 0 < s.occ .ack then writeTCPACK env { s with txRoom := room } else s
  | .accept sock => if 0 < s.occ .acceptq then mtcpAccept sock s else s
  | .write bytes => if s.attached then (mtcpWrite cfg env bytes s).2 else s
  | .recv nonblock peek len =>
    if s.attached then (mtcpRecv nonblock peek len s).2 else s
  | .close => if s.attached then mtcpClose s else s
  | .abort => if s.attached then mtcpAbort s else s

/-- A failed assertion or a crash ends the run. -/
def step (cfg : Config) (s : TcpStream) (e : Env × Action) : TcpStream :=
  if s.fault.isNone then act cfg e.1 s e.2 else s

def run (cfg : Config) (s : TcpStream) (es : List (Env × Action)) : TcpStream :=
  es.foldl (step cfg) s

/-- How a stream comes into being: the application connects, or a listening port gets a
SYN. -/
inductive Opened (cfg : Config) : TcpStream → Prop
  | active (iss : UInt32) (sockid : Nat) (room : Bool) :
      Opened cfg (mtcpConnect cfg iss sockid room)
  | passive (env : Env) (iss : UInt32) (seg : Segment) (hsyn : seg.syn) (hack : seg.ack = false) :
      Opened cfg (createNewFlow cfg env iss seg)

def Config.small : Config where
  sndbufSize := 64
  rcvbufSize := 64
  tcpTimeout := 0
  tcpTimewait := 0
  sndbufSize_ge := by decide
  rcvbufSize_ge := by decide
  sndbufSize_lt := by decide
  rcvbufSize_lt := by decide

def atRest (actions : List Action) : List (Env × Action) := actions.map fun a => ({}, a)

def client : TcpStream := mtcpConnect .small 100 1 true

def clientHandshake : List Action :=
  [.dequeue .connectq, .controlPass 1,
    .rx { seq := 500, ackSeq := 101, window := 1000, syn := true, ack := true,
          opts := [2, 4, 5, 180] },
    .controlPass 1]

theorem client_opened : Opened .small client := .active 100 1 true

def connected : TcpStream := run .small client (atRest clientHandshake)

end Mtcp
