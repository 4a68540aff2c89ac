import Jabsocket.Frame
import Jabsocket.Loop

/-!
# Reassembling messages

The receiver of `wsmessage.c`.  `wsmsgProcess` takes frames out of `frameBuffer` until none is
complete, a control frame is parked in `frameData`, or an error is found; it is entered from
`wsmsgAdd`, `wsmsgGetFrame` and `wsmsgGetMessage`.  Only `get_frame` adds lengths which the peer
states, so only there the width of `size_t` matters: the other sums are of lengths of bytes which
are held in memory.
-/

namespace Jabsocket

/-- Opcodes named in `wsmessage.h`. -/
def opcodeContinuation : Nat := 0x00
def opcodeText : Nat := 0x01
def opcodeBinary : Nat := 0x02
def opcodeClose : Nat := 0x08
def opcodePing : Nat := 0x09
def opcodePong : Nat := 0x0a

/-- The opcodes which `_wsmsg_process` treats as control frames. -/
def isControl (opcode : Nat) : Bool :=
  opcode == opcodeClose || opcode == opcodePing || opcode == opcodePong

@[simp] theorem isControl_opcodeContinuation : isControl opcodeContinuation = false := rfl

/-- `wsmsg_t`. -/
structure WsMsg where
  /-- A control frame is parked in `frameData`. -/
  frame : Bool
  /-- A message is complete in `messageBuffer`. -/
  message : Bool
  /-- The connection has to be terminated. -/
  error : Bool
  /-- Received bytes which are not decoded yet. -/
  frameBuffer : Buffer
  /-- Unmasked payload of the last frame. -/
  frameData : Buffer
  fin : Bool
  opcode : Nat
  mask : Bool
  /-- Payload of the message being assembled. -/
  messageBuffer : Buffer
  messageOpcode : Nat
  /-- A message has been started and not been taken. -/
  messageStarted : Bool
  deriving DecidableEq, Repr

/-- `wsmsg_create`, for the two limits of the configuration; twice the first is still an `int`. -/
def wsmsgCreate (maxFrameSize maxMessageSize : Nat) : WsMsg where
  frame := false
  message := false
  error := false
  frameBuffer := bufferCreate (2 * maxFrameSize)
  frameData := bufferCreate maxFrameSize
  fin := false
  opcode := 0
  mask := false
  messageBuffer := bufferCreate maxMessageSize
  messageOpcode := 0
  messageStarted := false

/-- One round of the loop in `_wsmsg_process`. -/
def wsmsgProcessRound (sizeMod : Nat) (heap : Heap) (wsmsg : WsMsg) : Round WsMsg :=
  match getFrame sizeMod heap wsmsg.frameBuffer wsmsg.frameData with
  | .building dest => .leave { wsmsg with frameData := dest }
  | .error dest => .leave { wsmsg with frameData := dest, error := true }
  | .ready fin opcode mask source dest =>
      let wsmsg := { wsmsg with frameBuffer := source, frameData := dest }
      if isControl opcode then
        if fin then .leave { wsmsg with frame := true, fin, opcode, mask }
        else .leave { wsmsg with error := true }
      else if wsmsg.messageStarted && opcode != opcodeContinuation then
        .leave { wsmsg with error := true }
      else if !wsmsg.messageStarted && opcode == opcodeContinuation then
        .leave { wsmsg with error := true }
      else
        match bufferAppend 0 wsmsg.messageBuffer wsmsg.frameData.data with
        | (messageBuffer, false) => .leave { wsmsg with messageBuffer, error := true }
        | (messageBuffer, true) =>
            .again
              { wsmsg with
                messageBuffer
                messageOpcode := if wsmsg.messageStarted then wsmsg.messageOpcode else opcode
                messageStarted := true
                message := wsmsg.message || fin
                frameData := bufferRemoveData wsmsg.frameData wsmsg.frameData.length }

/-- The loop in `_wsmsg_process`; a frame taken out shortens `frameBuffer`. -/
def wsmsgProcessLoop (sizeMod : Nat) (heap : Heap) (wsmsg : WsMsg) : WsMsg :=
  Loop.run (wsmsgProcessRound sizeMod heap) (fun wsmsg => wsmsg.frameBuffer.length) wsmsg

/-- `_wsmsg_process`. -/
def wsmsgProcess (sizeMod : Nat) (heap : Heap) (wsmsg : WsMsg) : WsMsg :=
  if wsmsg.message || wsmsg.frame || wsmsg.error then wsmsg
  else wsmsgProcessLoop sizeMod heap wsmsg

/-- `wsmsg_add`. -/
def wsmsgAdd (sizeMod : Nat) (heap : Heap) (wsmsg : WsMsg) (data : List UInt8) :
    WsMsg × Bool :=
  match bufferAppend 0 wsmsg.frameBuffer data with
  | (frameBuffer, false) => ({ wsmsg with frameBuffer }, false)
  | (frameBuffer, true) => (wsmsgProcess sizeMod heap { wsmsg with frameBuffer }, true)

/-- What `wsmsg_get_message` returns. -/
structure MessageOut where
  wsmsg : WsMsg
  buffer : Buffer
  opcode : Nat
  result : Bool
  deriving DecidableEq, Repr

/-- `wsmsg_get_message`; without a message the caller's opcode stays as it was. -/
def wsmsgGetMessage (sizeMod : Nat) (heap : Heap) (wsmsg : WsMsg) (buffer : Buffer)
    (opcode : Nat) : MessageOut :=
  if !wsmsg.message then
    { wsmsg, buffer, opcode, result := false }
  else
    match bufferMove 0 wsmsg.messageBuffer buffer with
    | (messageBuffer, buffer, result) =>
        { wsmsg := wsmsgProcess sizeMod heap
            { wsmsg with message := false, messageStarted := false, messageBuffer }
          buffer
          opcode := wsmsg.messageOpcode
          result }

/-- What `wsmsg_get_frame` returns. -/
structure FrameOut where
  wsmsg : WsMsg
  buffer : Buffer
  fin : Bool
  opcode : Nat
  mask : Bool
  result : Bool
  deriving DecidableEq, Repr

/-- `wsmsg_get_frame`; without a frame the caller's values stay as they were. -/
def wsmsgGetFrame (sizeMod : Nat) (heap : Heap) (wsmsg : WsMsg) (buffer : Buffer)
    (fin : Bool) (opcode : Nat) (mask : Bool) : FrameOut :=
  if !wsmsg.frame then
    { wsmsg, buffer, fin, opcode, mask, result := false }
  else
    match bufferMove 0 wsmsg.frameData buffer with
    | (frameData, buffer, result) =>
        { wsmsg := wsmsgProcess sizeMod heap { wsmsg with frame := false, frameData }
          buffer
          fin := wsmsg.fin
          opcode := wsmsg.opcode
          mask := wsmsg.mask
          result }

/-! ## Termination -/

/-- Every frame taken out of a buffer shortens it by at least its two header bytes. -/
theorem getFrame_ready_length {sizeMod : Nat} {heap : Heap} {source dest : Buffer}
    (honest : Honest sizeMod source.data) {fin : Bool} {opcode : Nat} {mask : Bool}
    {source' dest' : Buffer}
    (ready : getFrame sizeMod heap source dest = .ready fin opcode mask source' dest') :
    source'.length + 2 ≤ source.length := by
  cases found : scanFrame source.data with
  | more =>
      obtain ⟨stored, building, -⟩ := getFrame_of_more heap honest dest found
      rw [ready] at building
      cases building
  | fail =>
      rw [getFrame_of_fail heap found] at ready
      cases ready
  | item frame rest =>
      obtain ⟨stored, outcome, -⟩ := getFrame_of_item heap honest dest found
      rw [ready] at outcome
      injection outcome with _ _ _ source_eq _
      obtain ⟨two_le, -, messageLength, headerLength, announced, complete, -, rest_eq⟩ :=
        scanFrame_eq_item_iff.mp found
      have header_ge := (frameHeader_bounds announced two_le).2.1
      have start_ge := le_payloadStart (byteAt source.data) headerLength
      rw [source_eq]
      simp only [Buffer.length, rest_eq, List.length_drop]
      omega

/-- A frame which is ready takes at least two bytes out of `frameBuffer`. -/
def WsMsg.Removes (sizeMod : Nat) (heap : Heap) (wsmsg : WsMsg) : Prop :=
  ∀ fin opcode mask source dest,
    getFrame sizeMod heap wsmsg.frameBuffer wsmsg.frameData = .ready fin opcode mask source dest →
      source.length + 2 ≤ wsmsg.frameBuffer.length

theorem removes_of_honest {sizeMod : Nat} (heap : Heap) {wsmsg : WsMsg}
    (honest : Honest sizeMod wsmsg.frameBuffer.data) : wsmsg.Removes sizeMod heap :=
  fun _ _ _ _ _ ready => getFrame_ready_length honest ready

/-- Bytes and flags which the caller still has to see. -/
def pendingMeasure (wsmsg : WsMsg) : Nat :=
  2 * wsmsg.frameBuffer.length + wsmsg.frame.toNat + wsmsg.message.toNat

theorem wsmsgProcessRound_again {sizeMod : Nat} {heap : Heap} {wsmsg next : WsMsg}
    (removes : wsmsg.Removes sizeMod heap)
    (again : wsmsgProcessRound sizeMod heap wsmsg = .again next) :
    next.frameBuffer.length + 2 ≤ wsmsg.frameBuffer.length ∧ next.frame = wsmsg.frame := by
  unfold wsmsgProcessRound at again
  split at again
  · cases again
  · cases again
  rename_i ready
  have shorter := removes _ _ _ _ _ ready
  dsimp only at again
  repeat' split at again
  all_goals cases again
  all_goals exact ⟨shorter, rfl⟩

theorem wsmsgProcessRound_leave {sizeMod : Nat} {heap : Heap} {wsmsg final : WsMsg}
    (removes : wsmsg.Removes sizeMod heap)
    (leave : wsmsgProcessRound sizeMod heap wsmsg = .leave final) :
    pendingMeasure final ≤ pendingMeasure wsmsg := by
  unfold wsmsgProcessRound at leave
  split at leave
  · cases leave
    exact Nat.le_refl _
  · cases leave
    exact Nat.le_refl _
  rename_i ready
  have shorter := removes _ _ _ _ _ ready
  dsimp only at leave
  have flags := Bool.toNat_le wsmsg.frame
  repeat' split at leave
  all_goals cases leave
  all_goals
    simp only [pendingMeasure, Bool.toNat_true]
    omega

theorem wsmsgProcessRound_decreasing (heap : Heap) :
    Loop.Decreasing (wsmsgProcessRound 0 heap) (fun wsmsg => wsmsg.frameBuffer.length) := by
  intro wsmsg next again
  have := (wsmsgProcessRound_again (removes_of_honest heap (honest_zero _)) again).1
  dsimp only
  omega

theorem wsmsgProcessRound_again_pending {sizeMod : Nat} {heap : Heap} {wsmsg next : WsMsg}
    (removes : wsmsg.Removes sizeMod heap)
    (again : wsmsgProcessRound sizeMod heap wsmsg = .again next) :
    pendingMeasure next ≤ pendingMeasure wsmsg := by
  obtain ⟨shorter, frame_eq⟩ := wsmsgProcessRound_again removes again
  have flag := Bool.toNat_le next.message
  simp only [pendingMeasure, frame_eq]
  omega

/-- Processing never leaves the caller more to see. -/
theorem pendingMeasure_wsmsgProcess_le (heap : Heap) (wsmsg : WsMsg) :
    pendingMeasure (wsmsgProcess 0 heap wsmsg) ≤ pendingMeasure wsmsg := by
  unfold wsmsgProcess
  split
  · exact Nat.le_refl _
  · refine Loop.run_induction (fun state => pendingMeasure state ≤ pendingMeasure wsmsg)
      (fun state => pendingMeasure state ≤ pendingMeasure wsmsg)
      (wsmsgProcessRound_decreasing heap) ?_ ?_ (Nat.le_refl _)
    · intro state next bound again
      have removes := removes_of_honest heap (honest_zero state.frameBuffer.data)
      exact Nat.le_trans (wsmsgProcessRound_again_pending removes again) bound
    · intro state final bound leave
      have removes := removes_of_honest heap (honest_zero state.frameBuffer.data)
      exact Nat.le_trans (wsmsgProcessRound_leave removes leave) bound

/-- Taking a control frame is progress. -/
theorem pendingMeasure_wsmsgGetFrame_lt (heap : Heap) {wsmsg : WsMsg}
    (parked : wsmsg.frame = true) (buffer : Buffer) (fin : Bool) (opcode : Nat) (mask : Bool) :
    pendingMeasure (wsmsgGetFrame 0 heap wsmsg buffer fin opcode mask).wsmsg <
      pendingMeasure wsmsg := by
  have unparked := pendingMeasure_wsmsgProcess_le heap
    { wsmsg with frame := false, frameData := (bufferMove 0 wsmsg.frameData buffer).1 }
  simp only [wsmsgGetFrame, parked, Bool.not_true, Bool.false_eq_true, if_false]
  simp only [pendingMeasure, parked, Bool.toNat_true, Bool.toNat_false] at unparked ⊢
  omega

/-- Taking a message is progress. -/
theorem pendingMeasure_wsmsgGetMessage_lt (heap : Heap) {wsmsg : WsMsg}
    (waiting : wsmsg.message = true) (buffer : Buffer) (opcode : Nat) :
    pendingMeasure (wsmsgGetMessage 0 heap wsmsg buffer opcode).wsmsg <
      pendingMeasure wsmsg := by
  have taken := pendingMeasure_wsmsgProcess_le heap
    { wsmsg with
      message := false
      messageStarted := false
      messageBuffer := (bufferMove 0 wsmsg.messageBuffer buffer).1 }
  simp only [wsmsgGetMessage, waiting, Bool.not_true, Bool.false_eq_true, if_false]
  simp only [pendingMeasure, waiting, Bool.toNat_true, Bool.toNat_false] at taken ⊢
  omega

end Jabsocket
