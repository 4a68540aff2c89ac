import Jabsocket.Lengths

/-!
# Receiving a stream in chunks

A stream is fed to the receiver chunk by chunk, and after each chunk the caller drains it.  The
receiver is simulated by `runGroups` on the frames completed by each chunk, which reduces the
question whether the cut matters to the frame sequence of the stream.
-/

namespace Jabsocket

/-! ## Draining the receiver -/

/-- One round of the caller: take a parked control frame, else a complete message. -/
def drainRound (sizeMod : Nat) (heap : Heap) (state : WsMsg × List Delivery) :
    Round (WsMsg × List Delivery) :=
  if state.1.frame then
    let out := wsmsgGetFrame sizeMod heap state.1 (bufferCreate 0) false 0 false
    .again (out.wsmsg, state.2 ++ [.control out.opcode out.buffer.data])
  else if state.1.message then
    let out := wsmsgGetMessage sizeMod heap state.1 (bufferCreate 0) 0
    .again (out.wsmsg, state.2 ++ [.message out.opcode out.buffer.data])
  else
    .leave state

/-- Drain the receiver behind earlier deliveries. -/
def drain (sizeMod : Nat) (heap : Heap) (state : WsMsg × List Delivery) :
    WsMsg × List Delivery :=
  Loop.run (drainRound sizeMod heap) (fun state => pendingMeasure state.1) state

/-- Feed chunks, draining after each; the flag is `wsmsg_fail` at the end. -/
def receiveFrom (sizeMod : Nat) (heap : Heap) :
    WsMsg → List (List UInt8) → List Delivery × Bool
  | wsmsg, [] => ([], wsmsg.error)
  | wsmsg, chunk :: chunks =>
      let drained := drain sizeMod heap ((wsmsgAdd sizeMod heap wsmsg chunk).1, [])
      prepend drained.2 (receiveFrom sizeMod heap drained.1 chunks)

/-- Feed chunks to a fresh receiver without limits. -/
def receive (sizeMod : Nat) (heap : Heap) (chunks : List (List UInt8)) : List Delivery × Bool :=
  receiveFrom sizeMod heap (wsmsgCreate 0 0) chunks

theorem drainRound_decreasing (heap : Heap) :
    Loop.Decreasing (drainRound 0 heap) (fun state => pendingMeasure state.1) := by
  rintro ⟨wsmsg, log⟩ next again
  unfold drainRound at again
  dsimp only at again ⊢
  split at again
  · rename_i parked
    cases again
    exact pendingMeasure_wsmsgGetFrame_lt heap parked _ _ _ _
  split at again
  · rename_i waiting
    cases again
    exact pendingMeasure_wsmsgGetMessage_lt heap waiting _ _
  · cases again

/-! ## Simulation -/

/-- The message part of a receiver without limits represents a stage. -/
structure Represents (wsmsg : WsMsg) (stage : Stage) : Prop where
  frameBuffer_unlimited : wsmsg.frameBuffer.maxLength = 0
  frameData_unlimited : wsmsg.frameData.maxLength = 0
  messageBuffer_unlimited : wsmsg.messageBuffer.maxLength = 0
  started_eq : wsmsg.messageStarted = stage.isOpen
  message_eq : wsmsg.message = stage.isComplete
  opcode_eq : stage.isOpen = true → wsmsg.messageOpcode = stage.draft.opcode
  payload_eq : wsmsg.messageBuffer.data = stage.draft.payload

/-- A receiver in the middle of a group, with the given bytes undecoded. -/
structure Running (wsmsg : WsMsg) (stage : Stage) (bytes : List UInt8) : Prop where
  represents : Represents wsmsg stage
  frame_eq : wsmsg.frame = false
  error_eq : wsmsg.error = false
  bytes_eq : wsmsg.frameBuffer.data = bytes

theorem running_wsmsgCreate : Running (wsmsgCreate 0 0) .idle [] where
  represents :=
    { frameBuffer_unlimited := rfl
      frameData_unlimited := rfl
      messageBuffer_unlimited := rfl
      started_eq := rfl
      message_eq := rfl
      opcode_eq := by simp [Stage.isOpen]
      payload_eq := rfl }
  frame_eq := rfl
  error_eq := rfl
  bytes_eq := rfl

/-- A receiver which has failed, with at most a complete message left to take. -/
structure Failed (wsmsg : WsMsg) (stage : Stage) : Prop where
  represents : Represents wsmsg stage
  frame_eq : wsmsg.frame = false
  error_eq : wsmsg.error = true

/-- A receiver with a parked control frame. -/
structure Parked (wsmsg : WsMsg) (stage : Stage) (frame : Frame) (bytes : List UInt8) :
    Prop where
  represents : Represents wsmsg stage
  frame_eq : wsmsg.frame = true
  error_eq : wsmsg.error = false
  bytes_eq : wsmsg.frameBuffer.data = bytes
  opcode_eq : wsmsg.opcode = frame.opcode
  payload_eq : wsmsg.frameData.data = frame.payload

/-- The message part depends on no other field. -/
theorem Represents.congr {wsmsg other : WsMsg} {stage : Stage} (represents : Represents wsmsg stage)
    (frameBuffer : other.frameBuffer.maxLength = 0) (frameData : other.frameData.maxLength = 0)
    (messageBuffer : other.messageBuffer = wsmsg.messageBuffer)
    (message : other.message = wsmsg.message)
    (messageStarted : other.messageStarted = wsmsg.messageStarted)
    (messageOpcode : other.messageOpcode = wsmsg.messageOpcode) : Represents other stage where
  frameBuffer_unlimited := frameBuffer
  frameData_unlimited := frameData
  messageBuffer_unlimited := by rw [messageBuffer, represents.messageBuffer_unlimited]
  started_eq := by rw [messageStarted, represents.started_eq]
  message_eq := by rw [message, represents.message_eq]
  opcode_eq opened := by rw [messageOpcode, represents.opcode_eq opened]
  payload_eq := by rw [messageBuffer, represents.payload_eq]

section Rounds

variable {wsmsg : WsMsg} {stage : Stage} {bytes : List UInt8} {receiver : Receiver (List UInt8)}
  (heap : Heap)

theorem Depicts.represents (depicts : Depicts 0 0 wsmsg receiver) :
    Represents wsmsg receiver.stage where
  frameBuffer_unlimited := depicts.frameBuffer_limit
  frameData_unlimited := depicts.frameData_limit
  messageBuffer_unlimited := depicts.messageBuffer_limit
  started_eq := depicts.started_eq
  message_eq := depicts.message_eq
  opcode_eq := depicts.opcode_eq
  payload_eq := depicts.payload_eq

theorem Depicts.running (depicts : Depicts 0 0 wsmsg receiver) (unparked : receiver.parked = none)
    (healthy : receiver.failed = false) : Running wsmsg receiver.stage receiver.source where
  represents := depicts.represents
  frame_eq := by rw [depicts.frame_eq, unparked]; rfl
  error_eq := by rw [depicts.error_eq, healthy]
  bytes_eq := depicts.bytes_eq

theorem Depicts.failed (depicts : Depicts 0 0 wsmsg receiver) (unparked : receiver.parked = none)
    (failed : receiver.failed = true) : Failed wsmsg receiver.stage where
  represents := depicts.represents
  frame_eq := by rw [depicts.frame_eq, unparked]; rfl
  error_eq := by rw [depicts.error_eq, failed]

theorem Depicts.parked {frame : Frame} (depicts : Depicts 0 0 wsmsg receiver)
    (parked : receiver.parked = some frame) (healthy : receiver.failed = false) :
    Parked wsmsg receiver.stage frame receiver.source := by
  obtain ⟨-, opcode_eq, -, payload_eq⟩ := depicts.parked_eq frame parked
  exact
    { represents := depicts.represents
      frame_eq := by rw [depicts.frame_eq, parked]; rfl
      error_eq := by rw [depicts.error_eq, healthy]
      bytes_eq := depicts.bytes_eq
      opcode_eq := opcode_eq
      payload_eq := payload_eq }

theorem Running.depicts (running : Running wsmsg stage bytes) :
    Depicts 0 0 wsmsg { source := bytes, stage, parked := none, failed := false } where
  frameBuffer_limit := running.represents.frameBuffer_unlimited
  frameData_limit := running.represents.frameData_unlimited
  messageBuffer_limit := running.represents.messageBuffer_unlimited
  bytes_eq := running.bytes_eq
  frame_eq := running.frame_eq
  error_eq := running.error_eq
  parked_eq := nofun
  started_eq := running.represents.started_eq
  message_eq := running.represents.message_eq
  opcode_eq := running.represents.opcode_eq
  payload_eq := running.represents.payload_eq

/-- One round of the code is one round of a receiver which keeps everything. -/
theorem Running.round (running : Running wsmsg stage bytes) :
    Round.Related
      (fun wsmsg receiver => Depicts 0 0 wsmsg receiver ∧ receiver.parked = none)
      (Depicts 0 0)
      (wsmsgProcessRound 0 heap wsmsg)
      (match scanFrame bytes with
        | .more => .leave { source := bytes, stage, parked := none, failed := false }
        | .fail => .leave { source := bytes, stage, parked := none, failed := true }
        | .item frame rest =>
            Receiver.handle (clipping 0 0)
              { source := rest, stage, parked := none, failed := false } frame) := by
  have related := running.depicts.round heap rfl
  rwa [Receiver.round_clipping] at related

theorem Running.round_more (running : Running wsmsg stage bytes)
    (found : scanFrame bytes = .more) :
    ∃ final, wsmsgProcessRound 0 heap wsmsg = .leave final ∧ Running final stage bytes := by
  have related := running.round heap
  rw [found] at related
  obtain ⟨final, leave, depicts⟩ := related.exists_leave
  exact ⟨final, leave, depicts.running rfl rfl⟩

theorem Running.round_fail (running : Running wsmsg stage bytes)
    (found : scanFrame bytes = .fail) :
    ∃ final, wsmsgProcessRound 0 heap wsmsg = .leave final ∧ Failed final stage := by
  have related := running.round heap
  rw [found] at related
  obtain ⟨final, leave, depicts⟩ := related.exists_leave
  exact ⟨final, leave, depicts.failed rfl rfl⟩

variable {frame : Frame} {rest : List UInt8}

theorem Running.round_control (running : Running wsmsg stage bytes)
    (found : scanFrame bytes = .item frame rest) (control : isControl frame.opcode = true)
    (final : frame.fin = true) :
    ∃ parked, wsmsgProcessRound 0 heap wsmsg = .leave parked ∧
      Parked parked stage frame rest := by
  have related := running.round heap
  have whole : (clipping 0 0).control frame.payload = some frame.payload := rfl
  rw [found] at related
  dsimp only at related
  rw [Receiver.handle_of_parked control final whole] at related
  obtain ⟨parked, leave, depicts⟩ := related.exists_leave
  exact ⟨parked, leave, depicts.parked rfl rfl⟩

/-- A fragmented control frame, or a data frame out of sequence, is an error. -/
theorem Running.round_refused (running : Running wsmsg stage bytes)
    (found : scanFrame bytes = .item frame rest)
    (refused : stage.Refuses frame) :
    ∃ final, wsmsgProcessRound 0 heap wsmsg = .leave final ∧ Failed final stage := by
  have related := running.round heap
  rw [found] at related
  dsimp only at related
  rw [Receiver.handle_of_refuses refused] at related
  obtain ⟨final, leave, depicts⟩ := related.exists_leave
  exact ⟨final, leave, depicts.failed rfl rfl⟩

theorem Running.round_accepted (running : Running wsmsg stage bytes)
    (found : scanFrame bytes = .item frame rest) (data : isControl frame.opcode = false)
    (accepted : stage.accepts frame = true) :
    ∃ next, wsmsgProcessRound 0 heap wsmsg = .again next ∧
      Running next (stage.extend frame) rest := by
  have related := running.round heap
  have whole : (clipping 0 0).data stage.draft.payload frame.payload = some frame.payload :=
    admitted_unlimited _ _
  rw [found] at related
  dsimp only at related
  rw [Receiver.handle_of_kept data accepted whole] at related
  obtain ⟨next, again, depicts, -⟩ := related.exists_again
  exact ⟨next, again, depicts.running rfl rfl⟩

end Rounds

/-! ## A whole group -/

section Group

variable {wsmsg : WsMsg} {stage : Stage} {bytes : List UInt8} (heap : Heap)

theorem processLoop_of_again {state next : WsMsg}
    (again : wsmsgProcessRound 0 heap state = .again next) :
    wsmsgProcessLoop 0 heap state = wsmsgProcessLoop 0 heap next :=
  Loop.run_of_again (wsmsgProcessRound_decreasing heap) again

theorem processLoop_of_leave {state final : WsMsg}
    (leave : wsmsgProcessRound 0 heap state = .leave final) :
    wsmsgProcessLoop 0 heap state = final :=
  Loop.run_of_leave _ leave

theorem drain_of_again {state next : WsMsg × List Delivery}
    (again : drainRound 0 heap state = .again next) : drain 0 heap state = drain 0 heap next :=
  Loop.run_of_again (drainRound_decreasing heap) again

/-- Without a complete message the receiver processes. -/
theorem Running.wsmsgProcess_eq (running : Running wsmsg stage bytes) (settled : stage.Settled) :
    wsmsgProcess 0 heap wsmsg = wsmsgProcessLoop 0 heap wsmsg := by
  have waiting : wsmsg.message = false := by
    rw [running.represents.message_eq, Stage.settled_iff.mp settled]
  simp [wsmsgProcess, waiting, running.frame_eq, running.error_eq]

/-- With a complete message, or after an error, it does not. -/
theorem wsmsgProcess_blocked {sizeMod : Nat} {state : WsMsg}
    (blocked : state.message = true ∨ state.error = true) :
    wsmsgProcess sizeMod heap state = state := by
  simp only [wsmsgProcess]
  rw [if_pos]
  obtain flag | flag := blocked <;> simp [flag]

theorem drain_finished {sizeMod : Nat} {state : WsMsg} (log : List Delivery)
    (frame : state.frame = false) (message : state.message = false) :
    drain sizeMod heap (state, log) = (state, log) := by
  exact Loop.run_of_leave _ (by simp [drainRound, frame, message])

/-- Taking a complete message leaves the rest of the receiver as it was. -/
theorem drain_message (represents : Represents wsmsg stage) (log : List Delivery)
    (frame : wsmsg.frame = false) (waiting : stage.isComplete = true) :
    ∃ taken : WsMsg, Represents taken .idle ∧ taken.frame = false ∧
      taken.error = wsmsg.error ∧ taken.frameBuffer = wsmsg.frameBuffer ∧
      drain 0 heap (wsmsg, log) =
        drain 0 heap (wsmsgProcess 0 heap taken, log ++ stage.flush) := by
  have message : wsmsg.message = true := by rw [represents.message_eq, waiting]
  obtain ⟨emptied, moved, -, -⟩ :=
    bufferMove_unlimited wsmsg.messageBuffer (bufferCreate_maxLength 0)
  have opened : stage.isOpen = true := by
    cases stage <;> simp_all [Stage.isComplete, Stage.isOpen]
  refine ⟨{ wsmsg with
      message := false
      messageStarted := false
      messageBuffer := (bufferMove 0 wsmsg.messageBuffer (bufferCreate 0)).1 },
    ⟨represents.frameBuffer_unlimited, represents.frameData_unlimited, ?_, rfl, rfl,
      by simp [Stage.isOpen], ?_⟩, frame, rfl, rfl, ?_⟩
  · rw [emptied]
    exact represents.messageBuffer_unlimited
  · rw [emptied]
    rfl
  · rw [(Stage.flush_of_isComplete waiting).1]
    apply drain_of_again
    simp [drainRound, frame, message, wsmsgGetMessage, moved, represents.opcode_eq opened,
      represents.payload_eq]

/-- Taking a parked control frame lets the receiver go on behind it. -/
theorem Parked.drain_eq {frame : Frame} (parked : Parked wsmsg stage frame bytes)
    (log : List Delivery) :
    ∃ taken, Running taken stage bytes ∧
      drain 0 heap (wsmsg, log) =
        drain 0 heap
          (wsmsgProcess 0 heap taken, log ++ [.control frame.opcode frame.payload]) := by
  have represents := parked.represents
  obtain ⟨emptied, moved, -, -⟩ :=
    bufferMove_unlimited wsmsg.frameData (bufferCreate_maxLength 0)
  refine ⟨{ wsmsg with
      frame := false
      frameData := (bufferMove 0 wsmsg.frameData (bufferCreate 0)).1 },
    ⟨represents.congr represents.frameBuffer_unlimited ?_ rfl rfl rfl rfl, rfl,
      parked.error_eq, parked.bytes_eq⟩, ?_⟩
  · dsimp only
    rw [emptied]
    exact represents.frameData_unlimited
  · apply drain_of_again
    simp [drainRound, parked.frame_eq, wsmsgGetFrame, moved, parked.opcode_eq, parked.payload_eq]

/-- A failed receiver gives away its complete message and then stops for good. -/
theorem Failed.drain_eq (failed : Failed wsmsg stage) (log : List Delivery) :
    ∃ final, final.error = true ∧ final.frame = false ∧ final.message = false ∧
      drain 0 heap (wsmsg, log) = (final, log ++ stage.flush) := by
  cases waiting : stage.isComplete with
  | false =>
      have message : wsmsg.message = false := by rw [failed.represents.message_eq, waiting]
      refine ⟨wsmsg, failed.error_eq, failed.frame_eq, message, ?_⟩
      rw [drain_finished heap log failed.frame_eq message,
        Stage.flush_of_settled (Stage.settled_iff.mpr waiting), List.append_nil]
  | true =>
      obtain ⟨taken, idle, frame, error, -, drained⟩ :=
        drain_message heap failed.represents log failed.frame_eq waiting
      rw [failed.error_eq] at error
      refine ⟨taken, error, frame, idle.message_eq, ?_⟩
      rw [drained, wsmsgProcess_blocked heap (Or.inr error),
        drain_finished heap _ frame idle.message_eq]

/-- Processing and draining handle the decoded frames as one group. -/
theorem Running.drain_process (running : Running wsmsg stage bytes) (log : List Delivery) :
    ∃ final,
      drain 0 heap (wsmsgProcessLoop 0 heap wsmsg, log) =
        (final, log ++ (batch stage (frameScanner.pieces bytes)).1) ∧
      match (batch stage (frameScanner.pieces bytes)).2 with
      | some next => Running final next (frameScanner.residue bytes)
      | none => final.error = true ∧ final.frame = false ∧ final.message = false := by
  induction bytes using frameScanner.input_induction
    generalizing wsmsg stage log with
  | more bytes found =>
      obtain ⟨left, leave, running⟩ := running.round_more heap found
      rw [processLoop_of_leave heap leave, Scanner.pieces_more found, Scanner.residue_more found]
      cases waiting : stage.isComplete with
      | false =>
          have settled := Stage.settled_iff.mpr waiting
          refine ⟨left, ?_, ?_⟩
          · rw [drain_finished heap log running.frame_eq
              (by rw [running.represents.message_eq, waiting])]
            simp [batch, settled]
          · simpa [batch, settled] using running
      | true =>
          obtain ⟨taken, idle, frame, error, buffer, drained⟩ :=
            drain_message heap running.represents log running.frame_eq waiting
          have again : Running taken .idle bytes :=
            ⟨idle, frame, error.trans running.error_eq, by rw [buffer, running.bytes_eq]⟩
          obtain ⟨final, leave, finished⟩ := again.round_more heap found
          refine ⟨final, ?_, ?_⟩
          · rw [drained, again.wsmsgProcess_eq heap trivial, processLoop_of_leave heap leave,
              drain_finished heap _ finished.frame_eq finished.represents.message_eq]
            rfl
          · simpa [batch, (Stage.flush_of_isComplete waiting).2] using finished
  | fail bytes found =>
      obtain ⟨left, leave, failed⟩ := running.round_fail heap found
      obtain ⟨final, error, frame, message, drained⟩ := failed.drain_eq heap log
      rw [processLoop_of_leave heap leave, Scanner.pieces_fail found]
      exact ⟨final, drained, error, frame, message⟩
  | item bytes frame rest found ih =>
      rw [Scanner.pieces_item found, Scanner.residue_item found]
      by_cases refused : stage.Refuses frame
      · obtain ⟨left, leave, failed⟩ := running.round_refused heap found refused
        obtain ⟨final, error, frame_eq, message, drained⟩ := failed.drain_eq heap log
        rw [processLoop_of_leave heap leave, batch_of_refuses refused]
        exact ⟨final, drained, error, frame_eq, message⟩
      unfold Stage.Refuses at refused
      by_cases control : isControl frame.opcode
      · have whole : frame.fin = true := by simpa [control] using refused
        obtain ⟨left, leave, parked⟩ := running.round_control heap found control whole
        obtain ⟨taken, continuing, drained⟩ := parked.drain_eq heap log
        rw [processLoop_of_leave heap leave, drained]
        simp only [batch, control, whole, if_true]
        cases waiting : stage.isComplete with
        | false =>
            have settled := Stage.settled_iff.mpr waiting
            obtain ⟨final, later, ends⟩ :=
              ih continuing (log ++ [.control frame.opcode frame.payload])
            rw [continuing.wsmsgProcess_eq heap settled]
            exact ⟨final, by simpa [settled] using later, by simpa [settled] using ends⟩
        | true =>
            obtain ⟨emptied, idle, frame_eq, error, buffer, taken_eq⟩ :=
              drain_message heap continuing.represents
                (log ++ [.control frame.opcode frame.payload]) continuing.frame_eq waiting
            have again : Running emptied .idle rest :=
              ⟨idle, frame_eq, error.trans continuing.error_eq,
                by rw [buffer, continuing.bytes_eq]⟩
            obtain ⟨final, later, ends⟩ := ih again
              (log ++ [.control frame.opcode frame.payload] ++ stage.flush)
            rw [wsmsgProcess_blocked heap (Or.inl (by
              rw [continuing.represents.message_eq, waiting])), taken_eq,
              again.wsmsgProcess_eq heap trivial]
            rw [(Stage.flush_of_isComplete waiting).2]
            exact ⟨final, by simpa using later, ends⟩
      · have accepted : stage.accepts frame = true := by simpa [control] using refused
        obtain ⟨next, again, continuing⟩ :=
          running.round_accepted heap found (by simpa using control) accepted
        rw [processLoop_of_again heap again]
        simpa [batch, control, accepted] using ih continuing log

end Group

/-! ## A whole stream -/

/-- A failed receiver which has been drained delivers nothing more. -/
theorem receiveFrom_of_failed {sizeMod : Nat} (heap : Heap) {wsmsg : WsMsg}
    (error : wsmsg.error = true) (frame : wsmsg.frame = false) (message : wsmsg.message = false)
    (chunks : List (List UInt8)) : receiveFrom sizeMod heap wsmsg chunks = ([], true) := by
  induction chunks generalizing wsmsg with
  | nil => simp [receiveFrom, error]
  | cons chunk chunks ih =>
      have kept : ∃ added : WsMsg, (wsmsgAdd sizeMod heap wsmsg chunk).1 = added ∧
          added.error = true ∧ added.frame = false ∧ added.message = false := by
        rcases appended : bufferAppend 0 wsmsg.frameBuffer chunk with ⟨frameBuffer, result⟩
        refine ⟨{ wsmsg with frameBuffer }, ?_, error, frame, message⟩
        cases result with
        | false => simp [wsmsgAdd, appended]
        | true =>
            rw [← @wsmsgProcess_blocked heap sizeMod { wsmsg with frameBuffer }
              (show _ ∨ ({ wsmsg with frameBuffer } : WsMsg).error = true from Or.inr error)]
            simp [wsmsgAdd, appended]
      obtain ⟨added, added_eq, error, frame, message⟩ := kept
      rw [receiveFrom, added_eq, drain_finished heap [] frame message]
      exact ih error frame message

/-- A chunk is stored whole behind the undecoded bytes. -/
theorem Running.added {wsmsg : WsMsg} {stage : Stage} {bytes : List UInt8}
    (running : Running wsmsg stage bytes) (chunk : List UInt8) :
    ∃ frameBuffer, bufferAppend 0 wsmsg.frameBuffer chunk = (frameBuffer, true) ∧
      Running { wsmsg with frameBuffer } stage (bytes ++ chunk) := by
  have unlimited := running.represents.frameBuffer_unlimited
  have data := bufferAppend_data_unlimited chunk unlimited
  have ok := bufferAppend_ok_unlimited chunk unlimited
  have limit := bufferAppend_maxLength 0 wsmsg.frameBuffer chunk
  rw [running.bytes_eq] at data
  rw [unlimited] at limit
  rcases appended : bufferAppend 0 wsmsg.frameBuffer chunk with ⟨frameBuffer, result⟩
  rw [appended] at data ok limit
  obtain rfl : result = true := ok
  exact ⟨frameBuffer, rfl,
    running.represents.congr limit running.represents.frameData_unlimited rfl rfl rfl rfl,
    running.frame_eq, running.error_eq, data⟩

/-- Feeding chunks to the receiver is reassembly of the frames completed by each chunk. -/
theorem Running.receiveFrom_eq (heap : Heap) {wsmsg : WsMsg} {stage : Stage}
    {bytes : List UInt8} (running : Running wsmsg stage bytes) (settled : stage.Settled)
    (chunks : List (List UInt8)) :
    receiveFrom 0 heap wsmsg chunks =
      runGroups stage (frameScanner.groups (some bytes) chunks) := by
  induction chunks generalizing wsmsg stage bytes with
  | nil => simp [receiveFrom, running.error_eq, Scanner.groups, runGroups]
  | cons chunk chunks ih =>
      obtain ⟨frameBuffer, appended, added⟩ := running.added chunk
      obtain ⟨final, drained, ends⟩ := added.drain_process heap []
      rw [receiveFrom]
      simp only [wsmsgAdd, appended, added.wsmsgProcess_eq heap settled, drained,
        List.nil_append]
      rw [Scanner.groups, runGroups, Scanner.feed]
      dsimp only
      rcases outcome : batch stage (frameScanner.pieces (bytes ++ chunk)) with
        ⟨deliveries, next⟩
      rw [outcome] at ends
      cases next with
      | none =>
          obtain ⟨error, frame, message⟩ := ends
          simp [receiveFrom_of_failed heap error frame message, prepend]
      | some next =>
          obtain ⟨accepted, settled⟩ := batch_some (congrArg Prod.snd outcome)
          simp only [Piece.any_isBad, accepted, if_false]
          rw [ih ends settled]

/-- Feeding chunks to a fresh receiver is reassembly of the frames completed by each chunk. -/
theorem receive_eq_runGroups (heap : Heap) (chunks : List (List UInt8)) :
    receive 0 heap chunks = runGroups .idle (frameScanner.groups (some []) chunks) :=
  running_wsmsgCreate.receiveFrom_eq heap trivial chunks

theorem unpacks_residue (bytes : List UInt8) : Unpacks bytes (frameScanner.residue bytes) := by
  induction bytes using frameScanner.input_induction with
  | more bytes found =>
      rw [Scanner.residue_more found]
      exact .refl
  | fail bytes found =>
      rw [Scanner.residue, found]
      exact .refl
  | item bytes frame rest found ih =>
      rw [Scanner.residue_item found]
      exact unpacks_iff.mpr (Or.inr ⟨frame, rest, found, ih⟩)

theorem unpacks_drainRound {heap : Heap} {state next : WsMsg × List Delivery}
    (again : drainRound 0 heap state = .again next) :
    Unpacks state.1.frameBuffer.data next.1.frameBuffer.data := by
  unfold drainRound at again
  dsimp only at again
  split_ifs at again
  · cases again
    exact unpacks_wsmsgGetFrame heap state.1 _ _ _ _
  · cases again
    exact unpacks_wsmsgGetMessage heap state.1 _ _

section Moderate

variable {sizeMod : Nat} (large : 2 ^ 33 ≤ sizeMod) (heap : Heap)

include large

theorem drain_of_moderate {state : WsMsg × List Delivery}
    (moderate : AllModerate state.1.frameBuffer.data) :
    drain sizeMod heap state = drain 0 heap state := by
  refine Loop.run_congr _ fun visited visits => ?_
  have unpacks : Unpacks state.1.frameBuffer.data visited.1.frameBuffer.data := by
    clear moderate
    induction visits with
    | start => exact .refl
    | round again _ ih => exact (unpacks_drainRound again).trans ih
  have moderate := moderate.of_unpacks unpacks
  rw [drainRound, drainRound, wsmsgGetFrame_of_moderate heap large moderate,
    wsmsgGetMessage_of_moderate heap large moderate]

/-- Feeding chunks without a large announced length does not depend on the width of `size_t`. -/
theorem Running.receiveFrom_of_moderate {wsmsg : WsMsg} {stage : Stage} {bytes : List UInt8}
    (running : Running wsmsg stage bytes) (settled : stage.Settled) {chunks : List (List UInt8)}
    (moderate : AllModerate (bytes ++ chunks.flatten)) :
    receiveFrom sizeMod heap wsmsg chunks = receiveFrom 0 heap wsmsg chunks := by
  induction chunks generalizing wsmsg stage bytes with
  | nil => rfl
  | cons chunk chunks ih =>
      rw [List.flatten_cons, ← List.append_assoc] at moderate
      have arrived : AllModerate (bytes ++ chunk) := moderate.of_append
      obtain ⟨frameBuffer, appended, added⟩ := running.added chunk
      have stored : AllModerate frameBuffer.data := by
        rw [added.bytes_eq]
        exact arrived
      have add_eq := wsmsgAdd_of_moderate heap large
        (show AllModerate (wsmsg.frameBuffer.data ++ chunk) by rwa [running.bytes_eq])
      have processed : (wsmsgAdd 0 heap wsmsg chunk).1 =
          wsmsgProcess 0 heap { wsmsg with frameBuffer } := by
        simp only [wsmsgAdd, appended]
      rw [receiveFrom, receiveFrom, add_eq, processed, drain_of_moderate large heap
        (stored.of_unpacks (unpacks_wsmsgProcess heap { wsmsg with frameBuffer }))]
      obtain ⟨final, drained, ends⟩ := added.drain_process heap []
      rw [added.wsmsgProcess_eq heap settled, drained]
      dsimp only
      rcases outcome : batch stage (frameScanner.pieces (bytes ++ chunk)) with
        ⟨deliveries, next⟩
      rw [outcome] at ends
      cases next with
      | none =>
          obtain ⟨error, frame, message⟩ := ends
          rw [receiveFrom_of_failed heap error frame message,
            receiveFrom_of_failed heap error frame message]
      | some next =>
          obtain ⟨-, settled⟩ := batch_some (congrArg Prod.snd outcome)
          rw [ih ends settled (moderate.of_unpacks ((unpacks_residue _).append _))]

/-- A stream without a large announced length is received as where no sum wraps. -/
theorem receive_of_moderate {chunks : List (List UInt8)}
    (moderate : AllModerate chunks.flatten) :
    receive sizeMod heap chunks = receive 0 heap chunks :=
  running_wsmsgCreate.receiveFrom_of_moderate large heap trivial moderate

end Moderate

end Jabsocket
