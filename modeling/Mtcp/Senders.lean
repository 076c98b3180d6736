import Mtcp.Output
import Mtcp.Manager

namespace Mtcp

open Serial

variable {α ω : Type} [DecidableEq α]

/-- `TAILQ_NEXT`: the entry behind `x`. -/
def nextIn : List α → α → Option α
  | a :: b :: l, x => if a = x then some b else nextIn (b :: l) x
  | _, _ => none

/-- One kind of list, for every sender, with the flag of every stream. -/
structure SenderLists (α : Type) where
  list : Nat → List α := fun _ => []
  cnt : Nat → Int := fun _ => 0
  on : α → Bool := fun _ => false

namespace SenderLists

def takeOff (k : Nat) (i : α) (l : SenderLists α) : SenderLists α :=
  { l with list := Function.update l.list k ((l.list k).erase i) }

def insertTail (k : Nat) (i : α) (l : SenderLists α) : SenderLists α :=
  { l with list := Function.update l.list k (l.list k ++ [i]) }

def insertHead (k : Nat) (i : α) (l : SenderLists α) : SenderLists α :=
  { l with list := Function.update l.list k (i :: l.list k) }

def addCnt (k : Nat) (d : Int) (l : SenderLists α) : SenderLists α :=
  { l with cnt := Function.update l.cnt k (l.cnt k + d) }

def setOn (i : α) (b : Bool) (l : SenderLists α) : SenderLists α :=
  { l with on := Function.update l.on i b }

/-- `AddtoControlList`, `AddtoSendList` and `AddtoACKList` on their list. -/
def add (k : Nat) (i : α) (l : SenderLists α) : SenderLists α :=
  if l.on i then l else ((l.setOn i true).insertTail k i).addCnt k 1

/-- `RemoveFromControlList`, `RemoveFromSendList` and `RemoveFromACKList` on their list. -/
def remove (k : Nat) (i : α) (l : SenderLists α) : SenderLists α :=
  if l.on i then ((l.setOn i false).takeOff k i).addCnt k (-1) else l

end SenderLists

/-- The lists of the senders, the timewait list, and the rest of the stack. `sender` is what
`GetSender` finds for the `nif_out` of a stream; `mismatch` is set by the branches that find a
stream in a list without its flag. -/
structure StreamLists (α ω : Type) where
  sender : α → Nat
  control : SenderLists α := {}
  send : SenderLists α := {}
  ack : SenderLists α := {}
  controlListWaiting : α → Bool := fun _ => false
  ackCnt : α → BitVec 6 := fun _ => 0
  isWack : α → Bool := fun _ => false
  timewaitList : List α := []
  timewaitListCnt : Int := 0
  tsTwExpire : α → UInt32 := fun _ => 0
  mismatch : Bool := false
  world : ω

abbrev ListManager (α ω : Type) := Manager α (StreamLists α ω)

namespace ListManager

def mapRest (f : StreamLists α ω → StreamLists α ω) (m : ListManager α ω) : ListManager α ω :=
  { m with rest := f m.rest }

def mapControl (f : SenderLists α → SenderLists α) : ListManager α ω → ListManager α ω :=
  mapRest fun r => { r with control := f r.control }

def mapSend (f : SenderLists α → SenderLists α) : ListManager α ω → ListManager α ω :=
  mapRest fun r => { r with send := f r.send }

def mapAck (f : SenderLists α → SenderLists α) : ListManager α ω → ListManager α ω :=
  mapRest fun r => { r with ack := f r.ack }

def setWorld (w : ω) : ListManager α ω → ListManager α ω := mapRest fun r => { r with world := w }

def setAckCnt (i : α) (n : BitVec 6) : ListManager α ω → ListManager α ω :=
  mapRest fun r => { r with ackCnt := Function.update r.ackCnt i n }

def setIsWack (i : α) (b : Bool) : ListManager α ω → ListManager α ω :=
  mapRest fun r => { r with isWack := Function.update r.isWack i b }

def setControlListWaiting (i : α) (b : Bool) : ListManager α ω → ListManager α ω :=
  mapRest fun r => { r with controlListWaiting := Function.update r.controlListWaiting i b }

def reportMismatch : ListManager α ω → ListManager α ω :=
  mapRest fun r => { r with mismatch := true }

def addtoControlList (i : α) (m : ListManager α ω) : ListManager α ω :=
  mapControl (SenderLists.add (m.rest.sender i) i) m

def addtoSendList (i : α) (m : ListManager α ω) : ListManager α ω :=
  mapSend (SenderLists.add (m.rest.sender i) i) m

def addtoACKList (i : α) (m : ListManager α ω) : ListManager α ω :=
  mapAck (SenderLists.add (m.rest.sender i) i) m

def removeFromControlList (i : α) (m : ListManager α ω) : ListManager α ω :=
  mapControl (SenderLists.remove (m.rest.sender i) i) m

def removeFromSendList (i : α) (m : ListManager α ω) : ListManager α ω :=
  mapSend (SenderLists.remove (m.rest.sender i) i) m

def removeFromACKList (i : α) (m : ListManager α ω) : ListManager α ω :=
  mapAck (SenderLists.remove (m.rest.sender i) i) m

def enqueueACK (i : α) (opt : AckOpt) (m : ListManager α ω) : ListManager α ω :=
  addtoACKList i <|
    match opt with
    | .now => setAckCnt i (m.rest.ackCnt i + 1) m
    | .aggregate => if m.rest.ackCnt i = 0 then setAckCnt i 1 m else m
    | .wack => setIsWack i true m

/-- The assignment to `ts_rto` and the `AddtoRTOList` behind it. -/
def armRTO (i : α) (tsRto : UInt32) (m : ListManager α ω) : ListManager α ω :=
  { m with tsRto := Function.update m.tsRto i tsRto }.addtoRTOList i

def addtoTimewaitList (tsTwExpire : UInt32) (i : α) (m : ListManager α ω) : ListManager α ω :=
  let m := mapRest (fun r => { r with
    tsTwExpire := Function.update r.tsTwExpire i tsTwExpire }) m
  if m.onTimewaitList i then
    mapRest (fun r => { r with timewaitList := r.timewaitList.erase i ++ [i] }) m
  else
    let m := if 0 ≤ m.onRtoIdx i then m.removeFromRTOList i else m
    mapRest (fun r => { r with
        timewaitList := r.timewaitList ++ [i]
        timewaitListCnt := r.timewaitListCnt + 1 })
      { m with onTimewaitList := Function.update m.onTimewaitList i true }

def removeFromTimewaitList (i : α) (m : ListManager α ω) : ListManager α ω :=
  if m.onTimewaitList i then
    mapRest (fun r => { r with
        timewaitList := r.timewaitList.erase i
        timewaitListCnt := r.timewaitListCnt - 1 })
      { m with onTimewaitList := Function.update m.onTimewaitList i false }
  else m

def destroyTCPStream (i : α) (m : ListManager α ω) : ListManager α ω :=
  let m := removeFromACKList i (removeFromSendList i (removeFromControlList i m))
  let m := if 0 ≤ m.onRtoIdx i then m.removeFromRTOList i else m
  if m.onTimewaitList i then removeFromTimewaitList i m else m

/-- A control packet that waited for data or acknowledgements. -/
def releaseControl (blocked : Bool) (i : α) (m : ListManager α ω) : ListManager α ω :=
  if m.rest.controlListWaiting i && !blocked then
    addtoControlList i (setControlListWaiting i false m)
  else m

/-! The passes over the lists of sender `k`. What they call for a stream is a parameter. -/

/-- The end of a round: stop at what was the last entry, or go on with the next one. -/
def goOn (last next : Option α) (cur : α) (loop : α → ListManager α ω → ListManager α ω)
    (m : ListManager α ω) : ListManager α ω :=
  if some cur = last then m
  else
    match next with
    | some next => loop next m
    | none => m

section control

variable (sendControlPacket : α → ListManager α ω → Int × ListManager α ω)

/-- What `WriteTCPControlList` does with one stream, and whether it goes on. -/
def controlRound (k : Nat) (cur : α) (m : ListManager α ω) : Bool × ListManager α ω :=
  let m := mapControl (fun l => (l.takeOff k cur).addCnt k (-1)) m
  if m.rest.control.on cur then
    match sendControlPacket cur (mapControl (SenderLists.setOn cur false) m) with
    | (ret, m) =>
      if ret = -2 then
        (false, mapControl (fun l => ((l.insertHead k cur).setOn cur true).addCnt k 1) m)
      else if ret < 0 then
        (true, mapControl (fun l => ((l.insertTail k cur).setOn cur true).addCnt k 1) m)
      else (true, m)
  else (true, reportMismatch m)

def controlLoop (k : Nat) (last : Option α) : Nat → α → ListManager α ω → ListManager α ω
  | 0, _, m => m
  | fuel + 1, cur, m =>
    match controlRound sendControlPacket k cur m with
    | (false, m) => m
    | (true, m') =>
      goOn last (nextIn (m.rest.control.list k) cur) cur (controlLoop k last fuel) m'

def writeTCPControlList (k : Nat) (thresh : Int) (m : ListManager α ω) : ListManager α ω :=
  match (m.rest.control.list k).head? with
  | none => m
  | some first =>
    controlLoop sendControlPacket k (m.rest.control.list k).getLast?
      (min thresh (m.rest.control.cnt k)).toNat first m

end control

section data

variable (sendData : α → ListManager α ω → Int × ListManager α ω)

/-- What `WriteTCPDataList` does with one stream, and whether it goes on. The flag and the
count stay until all is flushed. -/
def dataRound (k : Nat) (cur : α) (m : ListManager α ω) : Bool × ListManager α ω :=
  let m := mapSend (SenderLists.takeOff k cur) m
  if m.rest.send.on cur then
    match sendData cur m with
    | (ret, m) =>
      if ret < 0 then (false, mapSend (SenderLists.insertTail k cur) m)
      else
        let m := mapSend (fun l => (l.setOn cur false).addCnt k (-1)) m
        let m := setAckCnt cur (piggyback (m.rest.ackCnt cur) ret) m
        (true, releaseControl (m.rest.ack.on cur) cur m)
  else (true, reportMismatch m)

def dataLoop (k : Nat) (last : Option α) : Nat → α → ListManager α ω → ListManager α ω
  | 0, _, m => m
  | fuel + 1, cur, m =>
    match dataRound sendData k cur m with
    | (false, m) => m
    | (true, m') => goOn last (nextIn (m.rest.send.list k) cur) cur (dataLoop k last fuel) m'

def writeTCPDataList (k : Nat) (thresh : Int) (m : ListManager α ω) : ListManager α ω :=
  match (m.rest.send.list k).head? with
  | none => m
  | some first => dataLoop sendData k (m.rest.send.list k).getLast? thresh.toNat first m

end data

section ack

variable (toAck : α → ListManager α ω → Bool)
  (sendTCPPacket : α → ListManager α ω → Int × ListManager α ω)

def ackRounds (cur : α) : Nat → ListManager α ω → ListManager α ω
  | 0, m => m
  | fuel + 1, m =>
    if m.rest.ackCnt cur = 0 then m
    else
      match sendTCPPacket cur m with
      | (ret, m) =>
        if ret < 0 then m else ackRounds cur fuel (setAckCnt cur (m.rest.ackCnt cur - 1) m)

def sendWack (cur : α) (m : ListManager α ω) : ListManager α ω :=
  if m.rest.isWack cur then
    match sendTCPPacket cur (setIsWack cur false m) with
    | (ret, m) => if ret < 0 then setIsWack cur true m else m
  else m

def leaveAckList (k : Nat) (cur : α) : ListManager α ω → ListManager α ω :=
  mapAck fun l => ((l.setOn cur false).takeOff k cur).addCnt k (-1)

/-- What `WriteTCPACKList` does with one stream. -/
def ackRound (k : Nat) (cur : α) (m : ListManager α ω) : ListManager α ω :=
  if m.rest.ack.on cur then
    let m :=
      if toAck cur m then
        let m := sendWack sendTCPPacket cur
          (ackRounds sendTCPPacket cur (m.rest.ackCnt cur).toNat m)
        if m.rest.ackCnt cur = 0 && !m.rest.isWack cur then leaveAckList k cur m else m
      else leaveAckList k cur (setIsWack cur false (setAckCnt cur 0 m))
    releaseControl (m.rest.send.on cur) cur m
  else reportMismatch (mapAck (fun l => (l.takeOff k cur).addCnt k (-1)) m)

def ackLoop (k : Nat) (last : Option α) : Nat → α → ListManager α ω → ListManager α ω
  | 0, _, m => m
  | fuel + 1, cur, m =>
    goOn last (nextIn (m.rest.ack.list k) cur) cur (ackLoop k last fuel)
      (ackRound toAck sendTCPPacket k cur m)

def writeTCPACKList (k : Nat) (thresh : Int) (m : ListManager α ω) : ListManager α ω :=
  match (m.rest.ack.list k).head? with
  | none => m
  | some first =>
    ackLoop toAck sendTCPPacket k (m.rest.ack.list k).getLast? thresh.toNat first m

end ack

/-- The loop of `CheckTimewaitExpire`, over the streams on the list. -/
def timewaitLoop (curTs : UInt32) : Nat → List α → ListManager α ω → ListManager α ω
  | fuel + 1, walk :: next, m =>
    if m.onTimewaitList walk then
      if 0 ≤ signed (curTs - m.rest.tsTwExpire walk) then
        timewaitLoop curTs fuel next <|
          if m.rest.control.on walk then m
          else destroyTCPStream walk (removeFromTimewaitList walk m)
      else m
    else timewaitLoop curTs fuel next (reportMismatch m)
  | _, _, m => m

def checkTimewaitExpire (curTs : UInt32) (thresh : Int) (m : ListManager α ω) :
    ListManager α ω :=
  timewaitLoop curTs thresh.toNat m.rest.timewaitList m

end ListManager

/-- What `SendControlPacket` takes from the stack: the state of a stream, and the result of
`SendTCPPacket` with the new `ts_rto`. -/
structure PacketOutput (α ω : Type) where
  state : α → ω → TcpState
  packet : α → ListManager α ω → Int × UInt32 × ω

namespace PacketOutput

open ListManager

variable (out : PacketOutput α ω)

/-- The timer is set for what takes up sequence numbers. -/
def sendTCPPacket (i : α) (m : ListManager α ω) : Int × ListManager α ω :=
  match out.packet i m with
  | (ret, tsRto, w) =>
    (ret, if 0 < ret then armRTO i tsRto (setWorld w m) else setWorld w m)

def sendControlPacket (i : α) (m : ListManager α ω) : Int × ListManager α ω :=
  let busy := m.rest.send.on i || m.rest.ack.on i
  match out.state i m.rest.world with
  | .listen => (0, m)
  | .lastAck | .finWait1 => if busy then (-1, m) else out.sendTCPPacket i m
  | .closed =>
    if busy then (-1, m)
    else
      match out.sendTCPPacket i m with
      | (ret, m) => if 0 ≤ ret then (ret, ListManager.destroyTCPStream i m) else (ret, m)
  | _ => out.sendTCPPacket i m

end PacketOutput

end Mtcp
