import Jabsocket.BufferQueue
import Jabsocket.Intake

/-!
# What a connection allocates for the browser

The header of a frame announces any length, and the message being assembled grows with every frame.
In every run, whatever arrives, the bytes of each buffer of the receiver nevertheless lie within its
allocation, the allocation stays within the limit of the configuration when there is one, and the
buffer into which messages are moved takes no more than a message and the reserve of its growth.
-/

namespace Jabsocket

/-! ## Rounds -/

/-- The state in which a round ends. -/
def Round.state {σ : Type*} : Round σ → σ
  | .again state => state
  | .leave state => state

/-- What every round keeps, the loop keeps. -/
theorem Loop.run_keeps {σ : Type*} {body : σ → Round σ} (measure : σ → Nat) (kept : σ → Prop)
    (round : ∀ state, kept state → kept (body state).state) {state : σ} (start : kept state) :
    kept (Loop.run body measure state) := by
  refine Loop.run_invariant measure ?_ ?_ start
  · intro state next before again
    have after := round state before
    rwa [again] at after
  · intro state final before leave
    have after := round state before
    rwa [leave] at after

/-! ## Buffers -/

/-- A buffer with the given limit, whose allocation is in order. -/
structure Buffer.Within (limit : Nat) (buffer : Buffer) : Prop extends buffer.Allocated where
  maxLength_eq : buffer.maxLength = limit

/-- An unlimited buffer into which buffers with the given limit are moved. -/
structure Buffer.Reserved (limit : Nat) (buffer : Buffer) : Prop extends buffer.Allocated where
  unlimited : buffer.maxLength = 0
  reserved : 0 < limit → buffer.capacity ≤ limit + 1024

section

variable {limit : Nat} {buffer source dest : Buffer}

/-- An append keeps the allocation in order when no sum wraps. -/
theorem Buffer.Allocated.store (allocated : buffer.Allocated) (input : List UInt8) :
    (bufferAppend 0 buffer input).1.Allocated := by
  obtain ⟨covers, bounded⟩ := allocated
  by_cases empty : input = []
  · rw [empty]
    exact ⟨covers, bounded⟩
  by_cases unlimited : buffer.maxLength = 0
  · have data := (bufferAppend_unlimited buffer input unlimited (Or.inl rfl)).1
    refine ⟨?_, fun limited => ?_⟩
    · rw [Buffer.length, data, List.length_append]
      unfold Buffer.length at covers
      simp only [bufferAppend, unlimited, if_true, sizeAdd_zero_mod, Buffer.length]
      split_ifs <;> dsimp only <;> omega
    · rw [bufferAppend_maxLength, unlimited] at limited
      exact absurd limited (Nat.lt_irrefl 0)
  · have data := (bufferAppend_limited buffer unlimited empty (Or.inl rfl)).1
    have bounded := bounded (Nat.pos_of_ne_zero unlimited)
    refine ⟨?_, fun _ => ?_⟩
    · rw [Buffer.length, data, List.length_append, List.length_take]
      unfold Buffer.length at covers
      simp only [bufferAppend, Buffer.length, sizeAdd_zero_mod, sizeSub, Nat.mod_zero,
        if_neg unlimited]
      split_ifs <;> dsimp only <;> omega
    · rw [bufferAppend_maxLength]
      simp only [bufferAppend, Buffer.length, sizeAdd_zero_mod, sizeSub, Nat.mod_zero,
        if_neg unlimited]
      split_ifs <;> dsimp only <;> omega

theorem Buffer.Within.clear (within : buffer.Within limit) : (bufferClear buffer).Within limit where
  toAllocated := within.toAllocated.clear
  maxLength_eq := within.maxLength_eq

theorem Buffer.Within.remove (within : buffer.Within limit) (count : Nat) :
    (bufferRemoveData buffer count).Within limit where
  toAllocated := within.toAllocated.remove count
  maxLength_eq := within.maxLength_eq

theorem Buffer.Within.append (within : buffer.Within limit) (input : List UInt8) :
    (bufferAppend 0 buffer input).1.Within limit where
  toAllocated := within.toAllocated.store input
  maxLength_eq := (bufferAppend_maxLength 0 buffer input).trans within.maxLength_eq

/-- The source of a move is cleared, or stays as it was. -/
theorem Buffer.Within.move (within : source.Within limit) (dest : Buffer) :
    (bufferMove 0 source dest).1.Within limit := by
  unfold bufferMove
  split
  · exact within.clear
  · exact within

/-- The destination of a move grows at most to what the source holds and the reserve. -/
theorem Buffer.Reserved.move (reserved : dest.Reserved limit) (within : source.Within limit) :
    (bufferMove 0 source dest).2.1.Reserved limit := by
  have stored : (bufferAppend 0 (bufferClear dest) source.data).1.Reserved limit := by
    refine ⟨reserved.toAllocated.clear.store source.data, ?_, fun limited => ?_⟩
    · rw [bufferAppend_maxLength]
      exact reserved.unlimited
    · have capacity_le := reserved.reserved limited
      have length_le : source.data.length ≤ limit := by
        have bounded := within.limited (by rwa [within.maxLength_eq])
        rw [within.maxLength_eq] at bounded
        exact within.covers.trans bounded
      have unlimited : (bufferClear dest).maxLength = 0 := reserved.unlimited
      have capacity_eq : (bufferClear dest).capacity = dest.capacity := rfl
      have length_eq : (bufferClear dest).length = 0 := rfl
      simp only [bufferAppend, unlimited, if_true, sizeAdd_zero_mod, capacity_eq, length_eq]
      split_ifs <;> dsimp only <;> omega
  unfold bufferMove
  split
  · rename_i moved
    rwa [moved] at stored
  · rename_i kept
    rwa [kept] at stored

end

/-! ## The receiver -/

/-- The buffers of a receiver are within the limits of the configuration. -/
structure WsMsg.Within (maxFrameSize maxMessageSize : Nat) (wsmsg : WsMsg) : Prop where
  frameBuffer : wsmsg.frameBuffer.Within (2 * maxFrameSize)
  frameData : wsmsg.frameData.Within maxFrameSize
  messageBuffer : wsmsg.messageBuffer.Within maxMessageSize

/-- What `get_frame` leaves of its two buffers. -/
def GetFrame.Leaves (source dest : Buffer → Prop) : GetFrame → Prop
  | .building stored => dest stored
  | .error stored => dest stored
  | .ready _ _ _ rest stored => source rest ∧ dest stored

section

variable {maxFrameSize maxMessageSize : Nat} {wsmsg : WsMsg}

/-- Whatever length a frame announces, `get_frame` keeps both buffers within their limits. -/
theorem getFrame_within (heap : Heap) {limit : Nat} {source dest : Buffer}
    (source_within : source.Within limit) (dest_within : dest.Within maxFrameSize) :
    (getFrame 0 heap source dest).Leaves (Buffer.Within limit) (Buffer.Within maxFrameSize) := by
  unfold getFrame
  dsimp only
  split
  · exact dest_within
  split
  · exact dest_within
  split
  · exact dest_within
  rename_i messageLength headerLength announced
  generalize (if decide (readByte heap source.data 1 &&& 0x80 ≠ 0) = true then
    sizeAdd 0 headerLength 4 else headerLength) = start
  rw [bufferSetMemory_zero]
  generalize (List.range (intToSize 0 messageLength)).map _ = payload
  have stored : (bufferSetData 0 dest payload).1.Within maxFrameSize :=
    dest_within.clear.append payload
  split
  · rename_i refused
    rwa [refused] at stored
  rename_i accepted
  rw [accepted] at stored
  split
  · exact stored
  refine ⟨source_within.remove _, ?_⟩
  split
  · refine ⟨⟨?_, stored.limited⟩, stored.maxLength_eq⟩
    have covers := stored.covers
    simpa [Buffer.length] using covers
  · exact stored

theorem WsMsg.Within.round (heap : Heap) (within : wsmsg.Within maxFrameSize maxMessageSize) :
    (wsmsgProcessRound 0 heap wsmsg).state.Within maxFrameSize maxMessageSize := by
  have leaves := getFrame_within heap within.frameBuffer within.frameData
  unfold wsmsgProcessRound
  cases frame : getFrame 0 heap wsmsg.frameBuffer wsmsg.frameData with
  | building dest =>
      rw [frame] at leaves
      exact ⟨within.frameBuffer, leaves, within.messageBuffer⟩
  | error dest =>
      rw [frame] at leaves
      exact ⟨within.frameBuffer, leaves, within.messageBuffer⟩
  | ready fin opcode mask source dest =>
      rw [frame] at leaves
      obtain ⟨rest, stored⟩ := leaves
      have appended := within.messageBuffer.append dest.data
      have unappended (error : Bool) :
          WsMsg.Within maxFrameSize maxMessageSize
            { wsmsg with frameBuffer := source, frameData := dest, error } :=
        ⟨rest, stored, within.messageBuffer⟩
      dsimp only
      split
      · split
        · exact ⟨rest, stored, within.messageBuffer⟩
        · exact unappended true
      split
      · exact unappended true
      split
      · exact unappended true
      split
      · rename_i refused
        rw [refused] at appended
        exact ⟨rest, stored, appended⟩
      · rename_i accepted
        rw [accepted] at appended
        exact ⟨rest, stored.remove _, appended⟩

theorem WsMsg.Within.process (heap : Heap) (within : wsmsg.Within maxFrameSize maxMessageSize) :
    (wsmsgProcess 0 heap wsmsg).Within maxFrameSize maxMessageSize := by
  unfold wsmsgProcess
  split
  · exact within
  · exact Loop.run_keeps _ (WsMsg.Within maxFrameSize maxMessageSize)
      (fun _ within => within.round heap) within

theorem WsMsg.Within.add (heap : Heap) (within : wsmsg.Within maxFrameSize maxMessageSize)
    (data : List UInt8) :
    (wsmsgAdd 0 heap wsmsg data).1.Within maxFrameSize maxMessageSize := by
  have stored := within.frameBuffer.append data
  unfold wsmsgAdd
  split
  · rename_i refused
    rw [refused] at stored
    exact ⟨stored, within.frameData, within.messageBuffer⟩
  · rename_i accepted
    rw [accepted] at stored
    refine WsMsg.Within.process heap ?_
    exact ⟨stored, within.frameData, within.messageBuffer⟩

theorem WsMsg.Within.getFrame (heap : Heap) (within : wsmsg.Within maxFrameSize maxMessageSize)
    (buffer : Buffer) (fin : Bool) (opcode : Nat) (mask : Bool) :
    (wsmsgGetFrame 0 heap wsmsg buffer fin opcode mask).wsmsg.Within
      maxFrameSize maxMessageSize := by
  unfold wsmsgGetFrame
  split
  · exact within
  · refine WsMsg.Within.process heap ?_
    exact ⟨within.frameBuffer, within.frameData.move buffer, within.messageBuffer⟩

theorem WsMsg.Within.getMessage (heap : Heap) (within : wsmsg.Within maxFrameSize maxMessageSize)
    {buffer : Buffer} (reserved : buffer.Reserved maxMessageSize) (opcode : Nat) :
    (wsmsgGetMessage 0 heap wsmsg buffer opcode).wsmsg.Within maxFrameSize maxMessageSize ∧
      (wsmsgGetMessage 0 heap wsmsg buffer opcode).buffer.Reserved maxMessageSize := by
  unfold wsmsgGetMessage
  split
  · exact ⟨within, reserved⟩
  · refine ⟨WsMsg.Within.process heap ?_, reserved.move within.messageBuffer⟩
    exact ⟨within.frameBuffer, within.frameData, within.messageBuffer.move buffer⟩

end

/-! ## Runs -/

/-- The buffers of a connection for the frames of the browser are within their limits. -/
structure Conn.Within (env : Environment) (conn : Conn) : Prop where
  wsmsg : conn.wsmsg.Within env.conf.maxFrameSize env.conf.maxMessageSize
  messageBuffer : conn.messageBuffer.Reserved env.conf.maxMessageSize

section

variable {env : Environment} {conn : Conn}

theorem Conn.Within.congr (within : conn.Within env) {other : Conn}
    (same : other.intake.2 = conn.intake.2) : other.Within env := by
  have wsmsg_eq : other.wsmsg = conn.wsmsg := congrArg Prod.fst same
  have buffer_eq : other.messageBuffer = conn.messageBuffer := congrArg Prod.snd same
  exact ⟨wsmsg_eq ▸ within.wsmsg, buffer_eq ▸ within.messageBuffer⟩

theorem Conn.Within.close (within : conn.Within env) : (wsconnClose conn).Within env :=
  within.congr (congrArg Prod.snd (wsconnClose_intake conn))

theorem Conn.Within.frameRound (within : conn.Within env) (sync : Bool) :
    (Jabsocket.frameRound env sync conn).state.Within env := by
  have parked := within.wsmsg.getFrame env.heap (bufferCreate 0) false 0 false
  obtain ⟨wsmsg, messageBuffer⟩ := within.wsmsg.getMessage env.heap within.messageBuffer 0
  have taken : Conn.Within env { conn with
      wsmsg := (wsmsgGetFrame 0 env.heap conn.wsmsg (bufferCreate 0) false 0 false).wsmsg } :=
    ⟨parked, within.messageBuffer⟩
  have received : Conn.Within env { conn with
      wsmsg := (wsmsgGetMessage 0 env.heap conn.wsmsg conn.messageBuffer 0).wsmsg
      messageBuffer := (wsmsgGetMessage 0 env.heap conn.wsmsg conn.messageBuffer 0).buffer } :=
    ⟨wsmsg, messageBuffer⟩
  unfold Jabsocket.frameRound frameRoundSized
  dsimp only
  split_ifs
  · exact within.close
  · exact taken.close
  · exact taken.congr (congrArg Prod.snd (answerClose_intake _ _))
  · exact taken.congr rfl
  · exact taken
  · exact within
  · exact received.congr (congrArg Prod.snd (cmOnmessage_intake env _ _ sync))
  · exact received.close
  · exact received

theorem Conn.Within.processFrame (within : conn.Within env) (sync : Bool) :
    (wsconnProcessFrame env conn sync).Within env := by
  rw [wsconnProcessFrame_def]
  refine Loop.run_keeps _ (Conn.Within env) (fun _ within => within.frameRound sync) ?_
  exact ⟨within.wsmsg.add env.heap conn.input, within.messageBuffer⟩

end

end Jabsocket
