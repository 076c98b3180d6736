import Mtcp.Links

namespace Mtcp

open Serial Manager List ListManager SenderLists
open Function (update update_self update_of_ne)

variable {α ω : Type} [DecidableEq α]

/-- How a round of `FlushTCPSendingBuffer` ends: nothing is left, the window is full and may
be probed, or a packet is sent. -/
inductive FlushRound where
  | done
  | full (wack : Bool)
  | packet

inductive RtoAction where
  | none
  | destroy
  | data
  | dataBeforeFin
  | control

/-- The decisions the passes take from the rest of the stack, which may look at everything:
besides the output, the rounds of `FlushTCPSendingBuffer`, whether there is something to
acknowledge, and `HandleRTO`. -/
structure Stack (α ω : Type) extends PacketOutput α ω where
  flush : α → ListManager α ω → FlushRound × ω
  flushFuel : α → ListManager α ω → Nat
  toAck : α → ListManager α ω → Bool
  rto : α → ListManager α ω → RtoAction × ω

/-! What the stack does to the lists when the passes call it. -/

namespace Stack

open ListManager

variable (stack : Stack α ω)

def flushLoop (i : α) : Nat → Int → ListManager α ω → Int × ListManager α ω
  | 0, packets, m => (packets, m)
  | fuel + 1, packets, m =>
    match stack.flush i m with
    | (.done, w) => (packets, setWorld w m)
    | (.full wack, w) =>
      (-3, if wack then ListManager.enqueueACK i .wack (setWorld w m) else setWorld w m)
    | (.packet, w) =>
      match stack.sendTCPPacket i (setWorld w m) with
      | (sndlen, m) => if sndlen < 0 then (-3, m) else flushLoop i fuel (packets + 1) m

def sendData (i : α) (m : ListManager α ω) : Int × ListManager α ω :=
  match stack.state i m.rest.world with
  | .established =>
    if m.rest.control.on i then (-1, m) else stack.flushLoop i (stack.flushFuel i m) 0 m
  | .closeWait | .finWait1 | .lastAck => stack.flushLoop i (stack.flushFuel i m) 0 m
  | _ => (0, m)

def handleRTO (i : α) (m : ListManager α ω) : ListManager α ω :=
  match stack.rto i m with
  | (.none, w) => setWorld w m
  | (.destroy, w) => ListManager.destroyTCPStream i (setWorld w m)
  | (.data, w) => ListManager.addtoSendList i (setWorld w m)
  | (.dataBeforeFin, w) =>
    ListManager.addtoSendList i
      (setControlListWaiting i true (ListManager.removeFromControlList i (setWorld w m)))
  | (.control, w) => ListManager.addtoControlList i (setWorld w m)

end Stack

/-- The calls that touch the lists, and what the rest of the stack does between them. -/
inductive ListCall (α ω : Type) where
  | addtoControlList (i : α)
  | addtoSendList (i : α)
  | addtoACKList (i : α)
  | removeFromControlList (i : α)
  | removeFromSendList (i : α)
  | removeFromACKList (i : α)
  | enqueueACK (i : α) (opt : AckOpt)
  | setControlListWaiting (i : α) (b : Bool)
  | writeTCPControlList (k : Nat) (thresh : Int)
  | writeTCPDataList (k : Nat) (thresh : Int)
  | writeTCPACKList (k : Nat) (thresh : Int)
  | addtoRTOList (i : α) (tsRto : UInt32)
  | removeFromRTOList (i : α)
  | checkRtmTimeout (curTs : UInt32) (thresh : Int)
  | addtoTimewaitList (i : α) (tsTwExpire : UInt32)
  | checkTimewaitExpire (curTs : UInt32) (thresh : Int)
  | destroyTCPStream (i : α)
  | elsewhere (w : ω)

open ListManager in
def listStep (stack : Stack α ω) (m : ListManager α ω) : ListCall α ω → ListManager α ω
  | .addtoControlList i => ListManager.addtoControlList i m
  | .addtoSendList i => ListManager.addtoSendList i m
  | .addtoACKList i => ListManager.addtoACKList i m
  | .removeFromControlList i => ListManager.removeFromControlList i m
  | .removeFromSendList i => ListManager.removeFromSendList i m
  | .removeFromACKList i => ListManager.removeFromACKList i m
  | .enqueueACK i opt => ListManager.enqueueACK i opt m
  | .setControlListWaiting i b => setControlListWaiting i b m
  | .writeTCPControlList k thresh => writeTCPControlList stack.sendControlPacket k thresh m
  | .writeTCPDataList k thresh => writeTCPDataList stack.sendData k thresh m
  | .writeTCPACKList k thresh => writeTCPACKList stack.toAck stack.sendTCPPacket k thresh m
  | .addtoRTOList i tsRto => armRTO i tsRto m
  | .removeFromRTOList i => Manager.removeFromRTOList i m
  | .checkRtmTimeout curTs thresh =>
    (Manager.checkRtmTimeout stack.handleRTO (fun _ => reportMismatch) curTs thresh m).2
  | .addtoTimewaitList i tsTwExpire => ListManager.addtoTimewaitList tsTwExpire i m
  | .checkTimewaitExpire curTs thresh => ListManager.checkTimewaitExpire curTs thresh m
  | .destroyTCPStream i => ListManager.destroyTCPStream i m
  | .elsewhere w => setWorld w m

/-! Operations on single streams. -/

/-- What changes neither the lists of the senders nor the agreement of the timers. -/
structure Quiet (m m' : ListManager α ω) : Prop where
  sender : m'.rest.sender = m.rest.sender
  control : m'.rest.control = m.rest.control
  send : m'.rest.send = m.rest.send
  ack : m'.rest.ack = m.rest.ack
  mismatch : m'.rest.mismatch = m.rest.mismatch
  timers : TimersAgree m → TimersAgree m'

namespace Quiet

variable {u v w m : ListManager α ω} {sender : α → Nat}

omit [DecidableEq α] in
theorem refl (m : ListManager α ω) : Quiet m m := ⟨rfl, rfl, rfl, rfl, rfl, id⟩

omit [DecidableEq α] in
theorem trans (h : Quiet u v) (h' : Quiet v w) : Quiet u w :=
  ⟨h'.sender.trans h.sender, h'.control.trans h.control, h'.send.trans h.send,
    h'.ack.trans h.ack, h'.mismatch.trans h.mismatch, fun ht => h'.timers (h.timers ht)⟩

omit [DecidableEq α] in
theorem outside (h : Quiet u v) (hu : AgreeOutside sender u) : AgreeOutside sender v where
  sender_eq := h.sender.trans hu.sender_eq
  control := by simpa only [h.control] using hu.control
  ack := by simpa only [h.ack] using hu.ack
  timers := h.timers hu.timers
  noMismatch := h.mismatch.trans hu.noMismatch

omit [DecidableEq α] in
theorem agree (h : Quiet u v) (hu : Agree sender u) : Agree sender v :=
  ⟨h.outside hu.toAgreeOutside, by simpa only [h.send] using hu.send⟩

omit [DecidableEq α] in
theorem setWorld (w : ω) (m : ListManager α ω) : Quiet m (setWorld w m) :=
  ⟨rfl, rfl, rfl, rfl, rfl, fun ht => ht.mapRest rfl rfl⟩

theorem setAckCnt (i : α) (n : BitVec 6) (m : ListManager α ω) : Quiet m (setAckCnt i n m) :=
  ⟨rfl, rfl, rfl, rfl, rfl, fun ht => ht.mapRest rfl rfl⟩

theorem setIsWack (i : α) (b : Bool) (m : ListManager α ω) : Quiet m (setIsWack i b m) :=
  ⟨rfl, rfl, rfl, rfl, rfl, fun ht => ht.mapRest rfl rfl⟩

theorem setControlListWaiting (i : α) (b : Bool) (m : ListManager α ω) :
    Quiet m (setControlListWaiting i b m) :=
  ⟨rfl, rfl, rfl, rfl, rfl, fun ht => ht.mapRest rfl rfl⟩

theorem armRTO (i : α) (ts : UInt32) (m : ListManager α ω) : Quiet m (armRTO i ts m) := by
  have hrest : (ListManager.armRTO i ts m).rest = m.rest := addtoRTOList_rest _ i
  refine ⟨?_, ?_, ?_, ?_, ?_, fun ht => ht.armRTO i ts⟩ <;> rw [hrest]

theorem removeFromRTOList (i : α) (m : ListManager α ω) :
    Quiet m (Manager.removeFromRTOList i m) := by
  have hrest := removeFromRTOList_rest m i
  refine ⟨?_, ?_, ?_, ?_, ?_, fun ht => ht.removeFromRTOList i⟩ <;> rw [hrest]

theorem sendTCPPacket (out : PacketOutput α ω) (i : α) (m : ListManager α ω) :
    Quiet m (out.sendTCPPacket i m).2 := by
  unfold PacketOutput.sendTCPPacket
  generalize out.packet i m = r
  obtain ⟨ret, ts, w⟩ := r
  dsimp only
  split
  · exact (setWorld w m).trans (armRTO i ts _)
  · exact setWorld w m

end Quiet

namespace AgreeOutside

variable {m : ListManager α ω} {sender : α → Nat} {f : SenderLists α → SenderLists α}

omit [DecidableEq α] in
theorem mapControl (h : AgreeOutside sender m) (hf : Linked sender (f m.rest.control)) :
    AgreeOutside sender (mapControl f m) :=
  ⟨h.sender_eq, hf, h.ack, h.timers.mapRest rfl rfl, h.noMismatch⟩

omit [DecidableEq α] in
theorem mapSend (h : AgreeOutside sender m) (f : SenderLists α → SenderLists α) :
    AgreeOutside sender (mapSend f m) :=
  ⟨h.sender_eq, h.control, h.ack, h.timers.mapRest rfl rfl, h.noMismatch⟩

section

variable (h : AgreeOutside sender m)
include h

omit [DecidableEq α] in
theorem mapAck (hf : Linked sender (f m.rest.ack)) : AgreeOutside sender (mapAck f m) :=
  ⟨h.sender_eq, h.control, hf, h.timers.mapRest rfl rfl, h.noMismatch⟩

theorem addtoControlList (i : α) : AgreeOutside sender (ListManager.addtoControlList i m) := by
  unfold ListManager.addtoControlList
  rw [h.sender_eq]
  exact h.mapControl (h.control.add i)

theorem addtoACKList (i : α) : AgreeOutside sender (ListManager.addtoACKList i m) := by
  unfold ListManager.addtoACKList
  rw [h.sender_eq]
  exact h.mapAck (h.ack.add i)

theorem removeFromControlList (i : α) :
    AgreeOutside sender (ListManager.removeFromControlList i m) := by
  unfold ListManager.removeFromControlList
  rw [h.sender_eq]
  exact h.mapControl (h.control.remove i)

theorem removeFromACKList (i : α) : AgreeOutside sender (ListManager.removeFromACKList i m) := by
  unfold ListManager.removeFromACKList
  rw [h.sender_eq]
  exact h.mapAck (h.ack.remove i)

theorem enqueueACK (i : α) (opt : AckOpt) :
    AgreeOutside sender (ListManager.enqueueACK i opt m) := by
  apply addtoACKList
  cases opt with
  | now => exact (Quiet.setAckCnt i _ m).outside h
  | aggregate =>
    dsimp only
    split
    · exact (Quiet.setAckCnt i _ m).outside h
    · exact h
  | wack => exact (Quiet.setIsWack i _ m).outside h

theorem releaseControl (b : Bool) (i : α) :
    AgreeOutside sender (ListManager.releaseControl b i m) := by
  unfold ListManager.releaseControl
  split
  · exact ((Quiet.setControlListWaiting i _ m).outside h).addtoControlList i
  · exact h

end

end AgreeOutside

theorem enqueueACK_send (i : α) (opt : AckOpt) (m : ListManager α ω) :
    (ListManager.enqueueACK i opt m).rest.send = m.rest.send := by
  cases opt with
  | now | wack => rfl
  | aggregate =>
    simp only [ListManager.enqueueACK]
    split <;> rfl

theorem releaseControl_send (b : Bool) (i : α) (m : ListManager α ω) :
    (ListManager.releaseControl b i m).rest.send = m.rest.send := by
  unfold ListManager.releaseControl
  split <;> rfl

theorem releaseControl_ack (b : Bool) (i : α) (m : ListManager α ω) :
    (ListManager.releaseControl b i m).rest.ack = m.rest.ack := by
  unfold ListManager.releaseControl
  split <;> rfl

namespace Agree

variable {m : ListManager α ω} {sender : α → Nat} {f : SenderLists α → SenderLists α}

omit [DecidableEq α] in
theorem mapControl (h : Agree sender m) (hf : Linked sender (f m.rest.control)) :
    Agree sender (mapControl f m) := ⟨h.toAgreeOutside.mapControl hf, h.send⟩

omit [DecidableEq α] in
theorem mapSend (h : AgreeOutside sender m) (hf : Linked sender (f m.rest.send)) :
    Agree sender (mapSend f m) := ⟨h.mapSend f, hf⟩

omit [DecidableEq α] in
theorem mapAck (h : Agree sender m) (hf : Linked sender (f m.rest.ack)) :
    Agree sender (mapAck f m) := ⟨h.toAgreeOutside.mapAck hf, h.send⟩

section

variable (h : Agree sender m) (i : α)
include h

theorem addtoSendList : Agree sender (ListManager.addtoSendList i m) := by
  unfold ListManager.addtoSendList
  rw [h.sender_eq]
  exact mapSend h.toAgreeOutside (h.send.add i)

theorem removeFromSendList : Agree sender (ListManager.removeFromSendList i m) := by
  unfold ListManager.removeFromSendList
  rw [h.sender_eq]
  exact mapSend h.toAgreeOutside (h.send.remove i)

theorem addtoControlList : Agree sender (ListManager.addtoControlList i m) :=
  ⟨h.toAgreeOutside.addtoControlList i, h.send⟩

theorem removeFromControlList : Agree sender (ListManager.removeFromControlList i m) :=
  ⟨h.toAgreeOutside.removeFromControlList i, h.send⟩

theorem removeFromACKList : Agree sender (ListManager.removeFromACKList i m) :=
  ⟨h.toAgreeOutside.removeFromACKList i, h.send⟩

theorem enqueueACK (opt : AckOpt) : Agree sender (ListManager.enqueueACK i opt m) :=
  ⟨h.toAgreeOutside.enqueueACK i opt, by simpa only [enqueueACK_send] using h.send⟩

end

theorem releaseControl (h : Agree sender m) (b : Bool) (i : α) :
    Agree sender (ListManager.releaseControl b i m) :=
  ⟨h.toAgreeOutside.releaseControl b i, by simpa only [releaseControl_send] using h.send⟩

end Agree

theorem leaveRTOList_rest (m : ListManager α ω) (i : α) :
    (if 0 ≤ m.onRtoIdx i then m.removeFromRTOList i else m).rest = m.rest := by
  split
  · exact removeFromRTOList_rest m i
  · rfl

theorem Quiet.leaveRTOList (i : α) (m : ListManager α ω) :
    Quiet m (if 0 ≤ m.onRtoIdx i then m.removeFromRTOList i else m) := by
  split
  · exact Quiet.removeFromRTOList i m
  · exact Quiet.refl m

theorem Quiet.removeFromTimewaitList (i : α) (m : ListManager α ω) :
    Quiet m (ListManager.removeFromTimewaitList i m) := by
  refine ⟨?_, ?_, ?_, ?_, ?_, fun ht => ht.removeFromTimewaitList i⟩ <;>
    (unfold ListManager.removeFromTimewaitList; split <;> rfl)

theorem Quiet.leaveTimewaitList (i : α) (m : ListManager α ω) :
    Quiet m (if m.onTimewaitList i then ListManager.removeFromTimewaitList i m else m) := by
  split
  · exact Quiet.removeFromTimewaitList i m
  · exact Quiet.refl m

theorem Quiet.addtoTimewaitList (ts : UInt32) (i : α) (m : ListManager α ω) :
    Quiet m (ListManager.addtoTimewaitList ts i m) := by
  have hrest : ∃ l c t, (ListManager.addtoTimewaitList ts i m).rest =
      { m.rest with timewaitList := l, timewaitListCnt := c, tsTwExpire := t } := by
    unfold ListManager.addtoTimewaitList
    have hts : (mapRest (fun r => { r with
        tsTwExpire := update r.tsTwExpire i ts }) m).rest = { m.rest with
          tsTwExpire := update m.rest.tsTwExpire i ts } := rfl
    generalize mapRest _ m = u at hts ⊢
    dsimp only
    split
    · exact ⟨u.rest.timewaitList.erase i ++ [i], u.rest.timewaitListCnt, u.rest.tsTwExpire, by
        simp only [mapRest, hts]⟩
    · have hleft := leaveRTOList_rest u i
      generalize (if 0 ≤ u.onRtoIdx i then u.removeFromRTOList i else u) = v at hleft ⊢
      exact ⟨v.rest.timewaitList ++ [i], v.rest.timewaitListCnt + 1, v.rest.tsTwExpire, by
        simp only [mapRest, hleft, hts]⟩
  obtain ⟨l, c, t, hrest⟩ := hrest
  refine ⟨?_, ?_, ?_, ?_, ?_, fun ht => ht.addtoTimewaitList ts i⟩ <;> rw [hrest]

theorem Agree.destroyTCPStream {m : ListManager α ω} {sender : α → Nat} (h : Agree sender m)
    (i : α) : Agree sender (ListManager.destroyTCPStream i m) := by
  have hlists := ((h.removeFromControlList i).removeFromSendList i).removeFromACKList i
  have hrto := (Quiet.leaveRTOList i _).agree hlists
  exact (Quiet.leaveTimewaitList i _).agree hrto

theorem destroyTCPStream_control (m : ListManager α ω) (i : α) :
    (ListManager.destroyTCPStream i m).rest.control =
      m.rest.control.remove (m.rest.sender i) i := by
  unfold ListManager.destroyTCPStream
  rw [(Quiet.leaveTimewaitList i _).control, leaveRTOList_rest]
  rfl

/-! What the passes call. -/

section callees

variable (stack : Stack α ω) {sender : α → Nat} {m : ListManager α ω} {i : α}

theorem sendControlPacket_cases (out : PacketOutput α ω) (i : α) (m : ListManager α ω) :
    (out.sendControlPacket i m).2 = m ∨ (out.sendControlPacket i m).2 = (out.sendTCPPacket i m).2 ∨
    (out.sendControlPacket i m).2 = ListManager.destroyTCPStream i (out.sendTCPPacket i m).2 := by
  unfold PacketOutput.sendControlPacket
  dsimp only
  split
  · exact .inl rfl
  · split
    · exact .inl rfl
    · exact .inr (.inl rfl)
  · split
    · exact .inl rfl
    · exact .inr (.inl rfl)
  · split
    · exact .inl rfl
    · split
      · exact .inr (.inr rfl)
      · exact .inr (.inl rfl)
  · exact .inr (.inl rfl)

theorem sendControlPacket_agree (out : PacketOutput α ω) (h : Agree sender m) :
    Agree sender (out.sendControlPacket i m).2 := by
  have hsent := (Quiet.sendTCPPacket out i m).agree h
  obtain heq | heq | heq := sendControlPacket_cases out i m
  · rwa [heq]
  · rwa [heq]
  · rw [heq]
    exact hsent.destroyTCPStream i

/-- The stream is off the control list while its control packet is sent, and stays off. -/
theorem sendControlPacket_control (out : PacketOutput α ω) (hi : m.rest.control.on i = false) :
    (out.sendControlPacket i m).2.rest.control = m.rest.control := by
  have hsame := (Quiet.sendTCPPacket out i m).control
  obtain heq | heq | heq := sendControlPacket_cases out i m
  · rw [heq]
  · rw [heq, hsame]
  · rw [heq, destroyTCPStream_control, hsame, remove_of_off hi]

theorem flushLoop_spec (fuel : Nat) (packets : Int) (h : AgreeOutside sender m) :
    AgreeOutside sender (stack.flushLoop i fuel packets m).2 ∧
      (stack.flushLoop i fuel packets m).2.rest.send = m.rest.send := by
  induction fuel generalizing packets m with
  | zero => exact ⟨h, rfl⟩
  | succ fuel ih =>
    unfold Stack.flushLoop
    generalize stack.flush i m = r
    obtain ⟨round, w⟩ := r
    have hworld := (Quiet.setWorld w m).outside h
    cases round with
    | done => exact ⟨hworld, rfl⟩
    | full wack =>
      cases wack with
      | false => exact ⟨hworld, rfl⟩
      | true => exact ⟨hworld.enqueueACK i .wack, rfl⟩
    | packet =>
      have hpacket := Quiet.sendTCPPacket stack.toPacketOutput i (ListManager.setWorld w m)
      have hsent := hpacket.outside hworld
      have hsend := hpacket.send
      dsimp only
      generalize stack.sendTCPPacket i _ = r at hsent hsend ⊢
      obtain ⟨sndlen, u⟩ := r
      split
      · exact ⟨hsent, hsend⟩
      · obtain ⟨h1, h2⟩ := ih (packets + 1) hsent
        exact ⟨h1, h2.trans hsend⟩

theorem sendData_spec (h : AgreeOutside sender m) : AgreeOutside sender (stack.sendData i m).2 ∧
      (stack.sendData i m).2.rest.send = m.rest.send := by
  unfold Stack.sendData
  have hflush := flushLoop_spec stack (i := i) (stack.flushFuel i m) 0 h
  split
  · split
    · exact ⟨h, rfl⟩
    · exact hflush
  · exact hflush
  · exact hflush
  · exact hflush
  · exact ⟨h, rfl⟩

theorem Quiet.ackRounds (fuel : Nat) (m : ListManager α ω) :
    Quiet m (ackRounds stack.sendTCPPacket i fuel m) := by
  induction fuel generalizing m with
  | zero => exact Quiet.refl m
  | succ fuel ih =>
    unfold ListManager.ackRounds
    split
    · exact Quiet.refl m
    · have hpacket := Quiet.sendTCPPacket stack.toPacketOutput i m
      generalize stack.sendTCPPacket i m = r at hpacket ⊢
      obtain ⟨ret, u⟩ := r
      dsimp only at hpacket ⊢
      split
      · exact hpacket
      · exact (hpacket.trans (Quiet.setAckCnt i _ u)).trans (ih _)

theorem Quiet.sendWack (m : ListManager α ω) :
    Quiet m (ListManager.sendWack stack.sendTCPPacket i m) := by
  unfold ListManager.sendWack
  split
  · have hpacket := (Quiet.setIsWack i false m).trans (Quiet.sendTCPPacket stack.toPacketOutput i _)
    generalize stack.sendTCPPacket i _ = r at hpacket ⊢
    obtain ⟨ret, u⟩ := r
    dsimp only at hpacket ⊢
    split
    · exact hpacket.trans (Quiet.setIsWack i true u)
    · exact hpacket
  · exact Quiet.refl m

theorem handleRTO_agree (h : Agree sender m) : Agree sender (stack.handleRTO i m) := by
  unfold Stack.handleRTO
  generalize stack.rto i m = r
  obtain ⟨action, w⟩ := r
  have hworld := (Quiet.setWorld w m).agree h
  cases action with
  | none => exact hworld
  | destroy => exact hworld.destroyTCPStream i
  | data => exact hworld.addtoSendList i
  | dataBeforeFin =>
    have hwaiting := (Quiet.setControlListWaiting i true _).agree (hworld.removeFromControlList i)
    exact hwaiting.addtoSendList i
  | control => exact hworld.addtoControlList i

/-- The stream is off the wheel when its expiry is handled; the wheel stays as it is. -/
theorem handleRTO_wheel (hi : m.onRtoIdx i < 0) : (stack.handleRTO i m).onRtoIdx = m.onRtoIdx := by
  unfold Stack.handleRTO
  generalize stack.rto i m = r
  obtain ⟨action, w⟩ := r
  cases action with
  | destroy =>
    simp only [ListManager.destroyTCPStream, ListManager.removeFromControlList,
      ListManager.removeFromSendList, ListManager.removeFromACKList, ListManager.mapControl,
      ListManager.mapSend, ListManager.mapAck, ListManager.setWorld, ListManager.mapRest,
      not_le.mpr hi, if_false, ListManager.removeFromTimewaitList]
    split <;> rfl
  | none | data | dataBeforeFin | control => rfl

end callees

/-! The passes. Each keeps the agreement and works on a stream that is in the list. -/

section passes

open ListManager

variable (stack : Stack α ω) {sender : α → Nat} {m : ListManager α ω} {k : Nat} {cur : α}

theorem goOn_rule {P : ListManager α ω → Prop} {last next : Option α}
    {loop : α → ListManager α ω → ListManager α ω} (hstop : P m)
    (hnext : ∀ y, next = some y → P (loop y m)) : P (goOn last next cur loop m) := by
  unfold goOn
  split
  · exact hstop
  · cases next with
    | none => exact hstop
    | some y => exact hnext y rfl

theorem controlRound_spec (h : Agree sender m) (hcur : cur ∈ m.rest.control.list k) :
    Agree sender (controlRound stack.sendControlPacket k cur m).2 ∧
      ∀ y ∈ (m.rest.control.list k).erase cur,
        y ∈ (controlRound stack.sendControlPacket k cur m).2.rest.control.list k := by
  obtain ⟨hon, hk⟩ := (h.control.mem k cur).mp hcur
  have hflag : (mapControl (fun l => (l.takeOff k cur).addCnt k (-1)) m).rest.control.on cur =
      true := hon
  unfold controlRound
  rw [if_pos hflag]
  have hoff : Agree sender (mapControl (setOn cur false)
      (mapControl (fun l => (l.takeOff k cur).addCnt k (-1)) m)) :=
    (h.mapControl (f := fun l => ((l.takeOff k cur).addCnt k (-1)).setOn cur false)
      (h.control.takeOff hcur))
  have hsent := sendControlPacket_agree (i := cur) stack.toPacketOutput hoff
  have hsame := sendControlPacket_control (i := cur) stack.toPacketOutput
    (m := mapControl (setOn cur false)
      (mapControl (fun l => (l.takeOff k cur).addCnt k (-1)) m)) (update_self ..)
  generalize stack.sendControlPacket cur _ = r at hsent hsame ⊢
  obtain ⟨ret, u⟩ := r
  dsimp only at hsent hsame ⊢
  have huoff : u.rest.control.on cur = false := by
    rw [hsame]
    exact update_self ..
  have hlist : u.rest.control.list k = (m.rest.control.list k).erase cur := by
    rw [hsame]
    exact update_self ..
  rw [← hlist]
  split
  · dsimp only
    refine ⟨hsent.mapControl (hsent.control.put huoff hk (List.Perm.refl _)), fun y hy => ?_⟩
    change y ∈ update u.rest.control.list k (cur :: u.rest.control.list k) k
    rw [update_self]
    exact mem_cons_of_mem cur hy
  · split
    · dsimp only
      refine ⟨hsent.mapControl (hsent.control.put huoff hk (perm_append_singleton cur _)),
        fun y hy => ?_⟩
      change y ∈ update u.rest.control.list k (u.rest.control.list k ++ [cur]) k
      rw [update_self]
      exact mem_append_left [cur] hy
    · exact ⟨hsent, fun y hy => hy⟩

theorem controlLoop_agree (last : Option α) (fuel : Nat) (h : Agree sender m)
    (hcur : cur ∈ m.rest.control.list k) :
    Agree sender (controlLoop stack.sendControlPacket k last fuel cur m) := by
  induction fuel generalizing cur m with
  | zero => exact h
  | succ fuel ih =>
    obtain ⟨hround, hkept⟩ := controlRound_spec stack h hcur
    unfold controlLoop
    generalize controlRound stack.sendControlPacket k cur m = r at hround hkept ⊢
    obtain ⟨goes, u⟩ := r
    cases goes with
    | false => exact hround
    | true =>
      refine goOn_rule hround fun y hy => ih hround (hkept y ?_)
      exact nextIn_mem_erase (h.control.nodup k) hy

theorem dataRound_spec (h : Agree sender m) (hcur : cur ∈ m.rest.send.list k) :
    Agree sender (dataRound stack.sendData k cur m).2 ∧ ∀ y ∈ (m.rest.send.list k).erase cur,
        y ∈ (dataRound stack.sendData k cur m).2.rest.send.list k := by
  obtain ⟨hon, hk⟩ := (h.send.mem k cur).mp hcur
  have hflag : (mapSend (SenderLists.takeOff k cur) m).rest.send.on cur := hon
  unfold dataRound
  rw [if_pos hflag]
  obtain ⟨hsent, hsame⟩ := sendData_spec stack (i := cur)
    (h.toAgreeOutside.mapSend (SenderLists.takeOff k cur))
  generalize stack.sendData cur _ = r at hsent hsame ⊢
  obtain ⟨ret, u⟩ := r
  dsimp only at hsent hsame ⊢
  have hlist : u.rest.send.list k = (m.rest.send.list k).erase cur := by
    rw [hsame]
    exact Function.update_self ..
  split
  · have hback : u.rest.send.insertTail k cur = { m.rest.send with
        list := Function.update m.rest.send.list k ((m.rest.send.list k).erase cur ++ [cur]) } := by
      simp only [SenderLists.insertTail, hlist]
      rw [hsame]
      simp only [mapSend, mapRest, SenderLists.takeOff, Function.update_idem]
    have hp : ((m.rest.send.list k).erase cur ++ [cur]).Perm (m.rest.send.list k) :=
      (List.perm_append_singleton cur _).trans (List.perm_cons_erase hcur).symm
    refine ⟨Agree.mapSend hsent (by rw [hback]; exact h.send.reorder hp), fun y hy => ?_⟩
    change y ∈ (u.rest.send.insertTail k cur).list k
    rw [hback]
    simp only [Function.update_self]
    exact List.mem_append_left [cur] hy
  · have hgone : (u.rest.send.setOn cur false).addCnt k (-1) =
        ((m.rest.send.takeOff k cur).setOn cur false).addCnt k (-1) := by
      rw [hsame]
      rfl
    have hsend : Agree sender (mapSend (fun l => (l.setOn cur false).addCnt k (-1)) u) :=
      Agree.mapSend hsent (by rw [hgone]; exact h.send.takeOff hcur)
    refine ⟨((Quiet.setAckCnt cur _ _).agree hsend).releaseControl _ cur, fun y hy => ?_⟩
    rw [releaseControl_send]
    change y ∈ u.rest.send.list k
    rwa [hlist]

theorem dataLoop_agree (last : Option α) (fuel : Nat) (h : Agree sender m)
    (hcur : cur ∈ m.rest.send.list k) :
    Agree sender (dataLoop stack.sendData k last fuel cur m) := by
  induction fuel generalizing cur m with
  | zero => exact h
  | succ fuel ih =>
    obtain ⟨hround, hkept⟩ := dataRound_spec stack h hcur
    unfold dataLoop
    generalize dataRound stack.sendData k cur m = r at hround hkept ⊢
    obtain ⟨goes, u⟩ := r
    cases goes with
    | false => exact hround
    | true =>
      refine goOn_rule hround fun y hy => ih hround (hkept y ?_)
      exact nextIn_mem_erase (h.send.nodup k) hy

theorem leaveAckList_spec {u : ListManager α ω} (h : Agree sender u)
    (hsame : u.rest.ack = m.rest.ack) (hcur : cur ∈ m.rest.ack.list k) :
    Agree sender (leaveAckList k cur u) ∧
      (leaveAckList k cur u).rest.ack.list k = (m.rest.ack.list k).erase cur := by
  rw [← hsame] at hcur
  refine ⟨h.mapAck (h.ack.takeOff hcur), ?_⟩
  rw [← hsame]
  exact update_self ..

theorem ackRound_spec (h : Agree sender m) (hcur : cur ∈ m.rest.ack.list k) :
    Agree sender (ackRound stack.toAck stack.sendTCPPacket k cur m) ∧
      ∀ y ∈ (m.rest.ack.list k).erase cur,
        y ∈ (ackRound stack.toAck stack.sendTCPPacket k cur m).rest.ack.list k := by
  obtain ⟨hon, hk⟩ := (h.ack.mem k cur).mp hcur
  unfold ackRound
  dsimp only
  rw [if_pos hon]
  suffices hleft : ∀ u, Agree sender u → (u.rest.ack.list k = m.rest.ack.list k ∨
        u.rest.ack.list k = (m.rest.ack.list k).erase cur) →
      Agree sender (ListManager.releaseControl (u.rest.send.on cur) cur u) ∧
        ∀ y ∈ (m.rest.ack.list k).erase cur,
          y ∈ (ListManager.releaseControl (u.rest.send.on cur) cur u).rest.ack.list k by
    split
    · have hquiet := (Quiet.ackRounds stack (i := cur) (m.rest.ackCnt cur).toNat m).trans
        (Quiet.sendWack stack (i := cur) _)
      split
      · obtain ⟨h1, h2⟩ := leaveAckList_spec (hquiet.agree h) hquiet.ack hcur
        exact hleft _ h1 (.inr h2)
      · exact hleft _ (hquiet.agree h) (.inl (by rw [hquiet.ack]))
    · have hquiet := (Quiet.setAckCnt cur 0 m).trans (Quiet.setIsWack cur false _)
      obtain ⟨h1, h2⟩ := leaveAckList_spec (hquiet.agree h) hquiet.ack hcur
      exact hleft _ h1 (.inr h2)
  intro u hu hlist
  refine ⟨hu.releaseControl _ cur, fun y hy => ?_⟩
  rw [releaseControl_ack]
  obtain hlist | hlist := hlist
  · rw [hlist]
    exact List.mem_of_mem_erase hy
  · rwa [hlist]

theorem ackLoop_agree (last : Option α) (fuel : Nat) (h : Agree sender m)
    (hcur : cur ∈ m.rest.ack.list k) :
    Agree sender (ListManager.ackLoop stack.toAck stack.sendTCPPacket k last fuel cur m) := by
  induction fuel generalizing cur m with
  | zero => exact h
  | succ fuel ih =>
    obtain ⟨hround, hkept⟩ := ackRound_spec stack h hcur
    refine goOn_rule hround fun y hy => ih hround (hkept y ?_)
    exact nextIn_mem_erase (h.ack.nodup k) hy

omit [DecidableEq α] in
theorem pass_rule {l : List α} {pass : α → ListManager α ω} (h : Agree sender m)
    (hpass : ∀ first ∈ l, Agree sender (pass first)) :
    Agree sender (match l.head? with | none => m | some first => pass first) := by
  cases hl : l.head? with
  | none => exact h
  | some first => exact hpass first (mem_of_head? hl)

end passes

/-! The checks of the timers. -/

section checks

open ListManager

variable (stack : Stack α ω) {sender : α → Nat} {m : ListManager α ω}

omit [DecidableEq α] in
theorem Agree.of_timers {u : ListManager α ω} (h : Agree sender m) (hrest : u.rest = m.rest)
    (ht : TimersAgree u) : Agree sender u where
  sender_eq := by rw [hrest, h.sender_eq]
  control := by rw [hrest]; exact h.control
  ack := by rw [hrest]; exact h.ack
  timers := ht
  noMismatch := by rw [hrest, h.noMismatch]
  send := by rw [hrest]; exact h.send

theorem checkSlot_agree {k : Nat} (thresh : Int) (xs : List α) (cnt : Int) (h : Agree sender m)
    (hxs : xs.Nodup) (hslot : ∀ x ∈ xs, m.onRtoIdx x = k) :
    Agree sender (checkSlot stack.handleRTO (fun _ => reportMismatch) k thresh xs cnt m).2 := by
  induction xs generalizing cnt m with
  | nil => exact h
  | cons walk next ih =>
    have hwalk := hslot walk (.head _)
    unfold checkSlot
    split
    · exact h
    · rw [if_pos (by omega)]
      have hoff : Agree sender { m.deleteRTO k walk with rtoListCnt := m.rtoListCnt - 1 } :=
        h.of_timers rfl (h.timers.delete hwalk)
      refine ih _ (handleRTO_agree stack hoff) hxs.of_cons fun x hx => ?_
      have hne : x ≠ walk := fun heq => (nodup_cons.mp hxs).1 (heq ▸ hx)
      rw [handleRTO_wheel stack (by simp [deleteRTO])]
      simp only [deleteRTO, update_of_ne hne]
      exact hslot x (mem_cons_of_mem walk hx)

theorem rearrange_agree (xs : List α) (h : Agree sender m) (hxs : xs.Nodup)
    (hslot : ∀ x ∈ xs, m.onRtoIdx x = 3000) : Agree sender (xs.foldl rearrange m) := by
  induction xs generalizing m with
  | nil => exact h
  | cons x xs ih =>
    have hx := hslot x (.head _)
    have hidx : ∀ y, y ≠ x → (m.rearrange x).onRtoIdx y = m.onRtoIdx y := by
      intro y hy
      unfold rearrange
      dsimp only
      split
      · simp only [insertRTO, deleteRTO, update_of_ne hy]
      · rfl
    have hmoved : TimersAgree (m.rearrange x) := by
      refine ⟨h.timers.wheel.rearrange hx, ?_, ?_, ?_, ?_⟩
      · simpa only [rearrange_rest, rearrange_onTimewaitList] using h.timers.waiting
      · simpa only [rearrange_rest] using h.timers.waitNodup
      · simpa only [rearrange_rest] using h.timers.waitCnt
      · intro j hj
        rw [rearrange_onTimewaitList] at hj
        have hneg := h.timers.apart j hj
        rw [hidx j (by rintro rfl; omega)]
        exact hneg
    refine ih (h.of_timers (rearrange_rest m x) hmoved) hxs.of_cons fun y hy => ?_
    rw [hidx y (fun heq => (nodup_cons.mp hxs).1 (heq ▸ hy))]
    exact hslot y (mem_cons_of_mem x hy)

theorem tick_agree (h : Agree sender m) : Agree sender m.tick := by
  have hturn : Agree sender { m with
      rtoNowIdx := (m.rtoNowIdx + 1) % 3000, rtoNowTs := m.rtoNowTs + 1 } :=
    h.of_timers rfl ⟨⟨⟨h.timers.wheel.mem, h.timers.wheel.nodup⟩, h.timers.wheel.slot,
      h.timers.wheel.cnt⟩, h.timers.waiting, h.timers.waitNodup, h.timers.waitCnt,
      h.timers.apart⟩
  unfold tick
  dsimp only
  split
  · refine rearrange_agree _ hturn (h.timers.wheel.nodup 3000) fun x hx => ?_
    exact (h.timers.wheel.mem 3000 x).mp hx
  · exact hturn

theorem checkLoop_agree (curTs : UInt32) (thresh : Int) (fuel : Nat) (cnt : Int)
    (h : Agree sender m) : Agree sender
      (checkLoop stack.handleRTO (fun _ => reportMismatch) curTs thresh fuel cnt m).2 := by
  induction fuel generalizing cnt m with
  | zero => exact h
  | succ fuel ih =>
    unfold checkLoop
    split
    · exact h
    · have hslot := checkSlot_agree stack thresh (m.rtoList m.rtoNowIdx.toNat) cnt h
        (h.timers.wheel.nodup _) fun x hx => (h.timers.wheel.mem _ x).mp hx
      generalize checkSlot _ _ _ _ _ _ m = r at hslot ⊢
      obtain ⟨cnt', u⟩ := r
      dsimp only at hslot ⊢
      split
      · exact hslot
      · exact ih cnt' (tick_agree hslot)

theorem removeFromTimewaitList_other {x y : α} (hne : y ≠ x) (m : ListManager α ω) :
    (ListManager.removeFromTimewaitList x m).onTimewaitList y = m.onTimewaitList y := by
  unfold ListManager.removeFromTimewaitList
  split
  · exact update_of_ne hne _ _
  · rfl

theorem destroyTCPStream_other {x y : α} (hne : y ≠ x) (m : ListManager α ω) :
    (ListManager.destroyTCPStream x m).onTimewaitList y = m.onTimewaitList y := by
  have hrto : ∀ u : ListManager α ω,
      (if 0 ≤ u.onRtoIdx x then u.removeFromRTOList x else u).onTimewaitList =
        u.onTimewaitList := by
    intro u
    split
    · exact removeFromRTOList_onTimewaitList u x
    · rfl
  have hwait : ∀ u : ListManager α ω,
      (if u.onTimewaitList x then ListManager.removeFromTimewaitList x u else u).onTimewaitList y =
        u.onTimewaitList y := by
    intro u
    split
    · exact removeFromTimewaitList_other hne u
    · rfl
  unfold ListManager.destroyTCPStream
  rw [hwait, hrto]
  rfl

theorem timewaitLoop_agree (curTs : UInt32) (fuel : Nat) (xs : List α) (h : Agree sender m)
    (hxs : xs.Nodup) (hwait : ∀ x ∈ xs, m.onTimewaitList x) :
    Agree sender (timewaitLoop curTs fuel xs m) := by
  induction fuel generalizing xs m with
  | zero => exact h
  | succ fuel ih =>
    cases xs with
    | nil => exact h
    | cons walk next =>
      have hnext : ∀ x ∈ next, m.onTimewaitList x := fun x hx => hwait x (mem_cons_of_mem walk hx)
      unfold timewaitLoop
      rw [if_pos (hwait walk (.head _))]
      split
      · split
        · exact ih next h hxs.of_cons hnext
        · refine ih next (((Quiet.removeFromTimewaitList walk m).agree h).destroyTCPStream walk)
            hxs.of_cons fun x hx => ?_
          have hne : x ≠ walk := fun heq => (nodup_cons.mp hxs).1 (heq ▸ hx)
          rw [destroyTCPStream_other hne, removeFromTimewaitList_other hne]
          exact hnext x hx
      · exact h

end checks

/-! Runs. -/

theorem listStep_agree (stack : Stack α ω) {sender : α → Nat} {m : ListManager α ω}
    (h : Agree sender m) (call : ListCall α ω) : Agree sender (listStep stack m call) := by
  cases call with
  | addtoControlList i => exact h.addtoControlList i
  | addtoSendList i => exact h.addtoSendList i
  | addtoACKList i => exact ⟨h.toAgreeOutside.addtoACKList i, h.send⟩
  | removeFromControlList i => exact h.removeFromControlList i
  | removeFromSendList i => exact h.removeFromSendList i
  | removeFromACKList i => exact h.removeFromACKList i
  | enqueueACK i opt => exact h.enqueueACK i opt
  | setControlListWaiting i b => exact (Quiet.setControlListWaiting i b m).agree h
  | writeTCPControlList k thresh =>
    exact pass_rule h fun first hfirst => controlLoop_agree stack _ _ h hfirst
  | writeTCPDataList k thresh =>
    exact pass_rule h fun first hfirst => dataLoop_agree stack _ _ h hfirst
  | writeTCPACKList k thresh =>
    exact pass_rule h fun first hfirst => ackLoop_agree stack _ _ h hfirst
  | addtoRTOList i tsRto => exact (Quiet.armRTO i tsRto m).agree h
  | removeFromRTOList i => exact (Quiet.removeFromRTOList i m).agree h
  | checkRtmTimeout curTs thresh =>
    unfold listStep Manager.checkRtmTimeout
    dsimp only
    split
    · exact h
    · exact checkLoop_agree stack _ _ _ _ h
  | addtoTimewaitList i tsTwExpire => exact (Quiet.addtoTimewaitList tsTwExpire i m).agree h
  | checkTimewaitExpire curTs thresh =>
    exact timewaitLoop_agree _ _ _ h h.timers.waitNodup fun x hx => (h.timers.waiting x).mp hx
  | destroyTCPStream i => exact h.destroyTCPStream i
  | elsewhere w => exact (Quiet.setWorld w m).agree h

omit [DecidableEq α] in
theorem agree_start (sender : α → Nat) (w : ω) :
    Agree sender ({ rest := { sender := sender, world := w } } : ListManager α ω) where
  sender_eq := rfl
  control := ⟨by simp, by simp, by simp⟩
  send := ⟨by simp, by simp, by simp⟩
  ack := ⟨by simp, by simp, by simp⟩
  timers := ⟨⟨⟨by simp, by simp⟩, by simp, by simp⟩, by simp, by simp, by simp, by simp⟩
  noMismatch := rfl

/-- Whatever the calls and whatever the rest of the stack decides, the membership flags, the
links and the counters agree after them. -/
theorem flags_links_counters_agree (stack : Stack α ω) (sender : α → Nat) (w : ω)
    (calls : List (ListCall α ω)) :
    Agree sender (calls.foldl (listStep stack) { rest := { sender := sender, world := w } }) := by
  apply List.foldlRecOn
  · exact agree_start sender w
  · exact fun m h call _ => listStep_agree stack h call

end Mtcp
