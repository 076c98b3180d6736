import Mtcp.Lists

namespace Mtcp.Options

/-- The byte at an offset of the option area. Offsets past the area fall into the payload
and then into whatever follows the frame. -/
def byteAt (seg : Segment) (i : Nat) : UInt8 := (seg.opts ++ seg.payload ++ seg.trailer).getD i 0

def ntohl (seg : Segment) (i : Nat) : UInt32 :=
  ((byteAt seg i).toUInt32 <<< 24) + ((byteAt seg (i + 1)).toUInt32 <<< 16) +
    ((byteAt seg (i + 2)).toUInt32 <<< 8) + (byteAt seg (i + 3)).toUInt32

def optEnd : UInt8 := 0
def optNop : UInt8 := 1
def optMss : UInt8 := 2
def optWscale : UInt8 := 3
def optSackPermit : UInt8 := 4
def optTimestamp : UInt8 := 8

/-- One round of the loop of `ParseTCPOptions` with the cursor inside the area: the new
cursor, or `none` for a `break`. -/
def parseRound (curTs : UInt32) (seg : Segment) (i : Nat) (s : TcpStream) :
    Option Nat × TcpStream :=
  let opt := byteAt seg i
  if opt = optEnd then (none, s)
  else if opt = optNop then (some (i + 1), s)
  else
    let optlen := (byteAt seg (i + 1)).toNat
    if i + optlen > seg.opts.length then (none, s)
    else if opt = optMss then
      let mss := ((byteAt seg (i + 2)).toUInt16 <<< 8) + (byteAt seg (i + 3)).toUInt16
      (some (i + 4), { s with sndvar.mss := mss, sndvar.effMss := mss - 12 })
    else if opt = optWscale then
      (some (i + 3), { s with sndvar.wscalePeer := byteAt seg (i + 2) })
    else if opt = optSackPermit then (some (i + 2), { s with sackPermit := true })
    else if opt = optTimestamp then
      (some (i + 10), { s with
        sawTimestamp := true
        rcvvar.tsRecent := ntohl seg (i + 2)
        rcvvar.tsLastTsUpd := curTs })
    else (some (i + optlen), s)

/-- A round moves the cursor forwards, or not at all on an unknown option of length zero: more
rounds than bytes mean no end. -/
def parseLoop (curTs : UInt32) (seg : Segment) : Nat → Nat → TcpStream → Option TcpStream
  | 0, _, _ => none
  | fuel + 1, i, s =>
    if i < seg.opts.length then
      match parseRound curTs seg i s with
      | (none, s) => some s
      | (some i, s) => parseLoop curTs seg fuel i s
    else some s

def parseTCPOptions (env : Env) (seg : Segment) (s : TcpStream) : TcpStream :=
  match parseLoop env.curTs seg (seg.opts.length + 1) 0 s with
  | some s => s
  | none => s.abort .optionLoop

def timestampLoop (seg : Segment) : Nat → Nat → Option (Option (UInt32 × UInt32))
  | 0, _ => none
  | fuel + 1, i =>
    if i < seg.opts.length then
      let opt := byteAt seg i
      if opt = optEnd then some none
      else if opt = optNop then timestampLoop seg fuel (i + 1)
      else
        let optlen := (byteAt seg (i + 1)).toNat
        if i + optlen > seg.opts.length then some none
        else if opt = optTimestamp then some (some (ntohl seg (i + 2), ntohl seg (i + 6)))
        else timestampLoop seg fuel (i + optlen)
    else some none

/-- `ParseTCPTimestamp`: `none` when its loop never ends, else the value and the echo found. -/
def parseTCPTimestamp (seg : Segment) : Option (Option (UInt32 × UInt32)) :=
  timestampLoop seg (seg.opts.length + 1) 0

def htonl (x : UInt32) : List UInt8 :=
  [(x >>> 24).toUInt8, (x >>> 16).toUInt8, (x >>> 8).toUInt8, x.toUInt8]

def generateTCPTimestamp (s : TcpStream) (curTs : UInt32) : List UInt8 :=
  [optTimestamp, 10] ++ htonl curTs ++ htonl s.rcvvar.tsRecent

def generateTCPOptions (s : TcpStream) (curTs : UInt32) (syn : Bool) : List UInt8 :=
  if syn then
    [optMss, 4, (s.sndvar.mss >>> 8).toUInt8, (s.sndvar.mss % 256).toUInt8, optNop, optNop] ++
      generateTCPTimestamp s curTs ++ [optNop, optWscale, 3, s.sndvar.wscaleMine]
  else
    [optNop, optNop] ++ generateTCPTimestamp s curTs

/-- `SendTCPPacketStandalone` without payload; the stream only logs it. -/
def sendTCPPacketStandalone (env : Env) (seq ackSeq : UInt32) (ack : Bool) (s : TcpStream) :
    TcpStream :=
  s.log (.standalone {
    seq := seq
    ackSeq := if ack then ackSeq else 0
    rst := true
    ack := ack
    opts := [optNop, optNop, optTimestamp, 10] ++ htonl env.curTs ++ htonl 0 })

def calculateOptionLength (syn : Bool) : Nat := if syn then 20 else 12

end Mtcp.Options
