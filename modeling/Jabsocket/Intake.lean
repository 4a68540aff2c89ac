import Jabsocket.Receiver
import Jabsocket.Safety

/-!
# What becomes of the browser's bytes

A connection hands all unread bytes to its receiver at once.  The receiver has room for twice the
allowed size of a frame, and drops what does not fit without telling anyone.  No byte is lost in the
runs in which the bytes of every read fit behind those which are still undecoded.
-/

namespace Jabsocket

/-! ## The receiver of a connection -/

/-- The policy of a connection. -/
def Environment.policy (env : Environment) : Policy (List UInt8) :=
  clipping env.conf.maxFrameSize env.conf.maxMessageSize

/-- The receiver of a connection, between two of its calls. -/
structure Receives (env : Environment) (conn : Conn) (receiver : Receiver (List UInt8)) :
    Prop where
  depicts : Depicts env.conf.maxFrameSize env.conf.maxMessageSize conn.wsmsg receiver
  exhausted : receiver.Exhausted env.policy
  unlimited : conn.messageBuffer.maxLength = 0

theorem receives_wsconnCreate (env : Environment) :
    Receives env (wsconnCreate env) (Receiver.create []) where
  depicts := depicts_wsmsgCreate _ _
  exhausted := fun _ => rfl
  unlimited := rfl

section

variable {env : Environment} {conn : Conn} {receiver : Receiver (List UInt8)}

theorem Receives.congr (receives : Receives env conn receiver) {other : Conn}
    (same : other.intake.2 = conn.intake.2) : Receives env other receiver := by
  have wsmsg_eq : other.wsmsg = conn.wsmsg := congrArg Prod.fst same
  have buffer_eq : other.messageBuffer = conn.messageBuffer := congrArg Prod.snd same
  exact
    { depicts := wsmsg_eq ▸ receives.depicts
      exhausted := receives.exhausted
      unlimited := buffer_eq ▸ receives.unlimited }

theorem wsconnClose_intake (conn : Conn) : (wsconnClose conn).intake = conn.intake := by
  unfold wsconnClose
  dsimp only
  split_ifs <;> rfl

theorem wsconnHandshake_intake (env : Environment) (conn : Conn) :
    (wsconnHandshake env conn).intake = conn.intake := by
  unfold wsconnHandshake
  dsimp only
  split_ifs
  · rfl
  · exact wsconnClose_intake _

theorem answerClose_intake (conn : Conn) (payload : List UInt8) :
    (answerClose conn payload).intake = conn.intake :=
  wsconnInitiateClose_intake _ _ _

/-! ## One round of the frame loop -/

/-- The ways in which a round of the frame loop can go, by what the receiver holds. -/
inductive FrameOutcome (env : Environment) (sync : Bool) (conn : Conn)
    (receiver : Receiver (List UInt8)) : Round Conn → Prop
  | failed (failed : receiver.failed = true) :
      FrameOutcome env sync conn receiver (.leave (wsconnClose conn))
  | close {frame : Frame} {wsmsg : WsMsg} (healthy : receiver.failed = false)
      (parked : receiver.parked = some frame) (opcode_eq : frame.opcode = opcodeClose)
      (taken : Receives env { conn with wsmsg } (receiver.takeFrame env.policy).1) :
      FrameOutcome env sync conn receiver
        (.leave (answerClose { conn with wsmsg } frame.payload))
  | ping {frame : Frame} {wsmsg : WsMsg} (healthy : receiver.failed = false)
      (parked : receiver.parked = some frame) (opcode_eq : frame.opcode = opcodePing)
      (taken : Receives env { conn with wsmsg } (receiver.takeFrame env.policy).1) :
      FrameOutcome env sync conn receiver (.leave (answerPing { conn with wsmsg } frame.payload))
  | pong {frame : Frame} {wsmsg : WsMsg} (healthy : receiver.failed = false)
      (parked : receiver.parked = some frame) (opcode_ne : frame.opcode ≠ opcodePing)
      (taken : Receives env { conn with wsmsg } (receiver.takeFrame env.policy).1) :
      FrameOutcome env sync conn receiver (.again { conn with wsmsg })
  | idle (healthy : receiver.failed = false) (unparked : receiver.parked = none)
      (settled : receiver.stage.Settled) : FrameOutcome env sync conn receiver (.leave conn)
  | text {draft : Draft} {wsmsg : WsMsg} {messageBuffer : Buffer}
      (healthy : receiver.failed = false) (unparked : receiver.parked = none)
      (complete : receiver.stage = .complete draft)
      (taken : Receives env { conn with wsmsg, messageBuffer }
        (receiver.takeMessage env.policy).1) :
      FrameOutcome env sync conn receiver
        (.again (cmOnmessage env
          (({ conn with wsmsg, messageBuffer } : Conn).log
            (.message ({ conn with wsmsg, messageBuffer } : Conn).view))
          draft.payload sync))
  | binary {draft : Draft} {wsmsg : WsMsg} {messageBuffer : Buffer}
      (healthy : receiver.failed = false) (unparked : receiver.parked = none)
      (complete : receiver.stage = .complete draft)
      (taken : Receives env { conn with wsmsg, messageBuffer }
        (receiver.takeMessage env.policy).1) :
      FrameOutcome env sync conn receiver (.leave (wsconnClose { conn with wsmsg, messageBuffer }))
  | other {draft : Draft} {wsmsg : WsMsg} {messageBuffer : Buffer}
      (healthy : receiver.failed = false) (unparked : receiver.parked = none)
      (complete : receiver.stage = .complete draft)
      (taken : Receives env { conn with wsmsg, messageBuffer }
        (receiver.takeMessage env.policy).1) :
      FrameOutcome env sync conn receiver (.again { conn with wsmsg, messageBuffer })

theorem Receives.frameTaken (receives : Receives env conn receiver) {frame : Frame}
    (parked : receiver.parked = some frame) :
    Receives env (conn.frameTaken env) (receiver.takeFrame env.policy).1 where
  depicts := (receives.depicts.takeFrame env.heap parked (bufferCreate_maxLength 0) _ _ _).1
  exhausted := receives.exhausted.takeFrame
  unlimited := receives.unlimited

theorem Receives.messageTaken (receives : Receives env conn receiver) {draft : Draft}
    (complete : receiver.stage = .complete draft) :
    Receives env (conn.messageTaken env) (receiver.takeMessage env.policy).1 where
  depicts := (receives.depicts.takeMessage env.heap complete receives.unlimited _).1
  exhausted := receives.exhausted.takeMessage
  unlimited := (receives.depicts.takeMessage env.heap complete receives.unlimited 0).2.2.2.1

theorem Receives.frameRound_failed (receives : Receives env conn receiver)
    (failed : receiver.failed = true) (sync : Bool) :
    frameRound env sync conn = .leave (wsconnClose conn) :=
  if_pos (by rw [receives.depicts.error_eq, failed])

/-- A control frame is taken, and answered if it is a Close frame or a ping. -/
theorem Receives.frameRound_parked (receives : Receives env conn receiver)
    (healthy : receiver.failed = false) {frame : Frame} (parked : receiver.parked = some frame)
    (sync : Bool) :
    frameRound env sync conn =
      if frame.opcode = opcodeClose then .leave (answerClose (conn.frameTaken env) frame.payload)
      else if frame.opcode = opcodePing then
        .leave (answerPing (conn.frameTaken env) frame.payload)
      else .again (conn.frameTaken env) := by
  have depicts := receives.depicts
  obtain ⟨-, opcode_eq, payload_eq, ok⟩ :=
    depicts.takeFrame env.heap parked (bufferCreate_maxLength 0) false 0 false
  unfold frameRound frameRoundSized
  rw [if_neg (by simp [depicts.error_eq, healthy]),
    if_pos (by rw [depicts.frame_eq, parked]; rfl)]
  dsimp only
  rw [ok, opcode_eq, payload_eq, if_neg (by simp)]
  rfl

/-- A message is taken, and passed on if it is a text. -/
theorem Receives.frameRound_complete (receives : Receives env conn receiver)
    (healthy : receiver.failed = false) (unparked : receiver.parked = none) {draft : Draft}
    (complete : receiver.stage = .complete draft) (sync : Bool) :
    frameRound env sync conn =
      if draft.opcode = opcodeText then
        .again (cmOnmessage env
          ((conn.messageTaken env).log (.message (conn.messageTaken env).view))
          draft.payload sync)
      else if draft.opcode = opcodeBinary then .leave (wsconnClose (conn.messageTaken env))
      else .again (conn.messageTaken env) := by
  have depicts := receives.depicts
  obtain ⟨-, opcode_eq, payload_eq, -⟩ :=
    depicts.takeMessage env.heap complete receives.unlimited 0
  unfold frameRound frameRoundSized
  rw [if_neg (by simp [depicts.error_eq, healthy]), if_neg (by simp [depicts.frame_eq, unparked]),
    if_neg (by simp [depicts.message_eq, complete, Stage.isComplete])]
  dsimp only
  rw [opcode_eq, payload_eq]
  rfl

theorem Receives.frameRound_settled (receives : Receives env conn receiver)
    (healthy : receiver.failed = false) (unparked : receiver.parked = none)
    (settled : receiver.stage.Settled) (sync : Bool) : frameRound env sync conn = .leave conn := by
  have depicts := receives.depicts
  unfold frameRound frameRoundSized
  rw [if_neg (by simp [depicts.error_eq, healthy]), if_neg (by simp [depicts.frame_eq, unparked]),
    if_pos (by simp [depicts.message_eq, Stage.settled_iff.mp settled])]

theorem Receives.frameRound (sync : Bool) (receives : Receives env conn receiver) :
    FrameOutcome env sync conn receiver (frameRound env sync conn) := by
  cases failed : receiver.failed with
  | true =>
      rw [receives.frameRound_failed failed]
      exact .failed failed
  | false =>
      cases parked : receiver.parked with
      | some frame =>
          have after := receives.frameTaken parked
          rw [receives.frameRound_parked failed parked]
          split_ifs with close ping
          · exact .close failed parked close after
          · exact .ping failed parked ping after
          · exact .pong failed parked ping after
      | none =>
          cases stage : receiver.stage with
          | complete draft =>
              have after := receives.messageTaken stage
              rw [receives.frameRound_complete failed parked stage]
              split_ifs with isText isBinary
              · exact .text failed parked stage after
              · exact .binary failed parked stage after
              · exact .other failed parked stage after
          | idle =>
              rw [receives.frameRound_settled failed parked (stage ▸ trivial)]
              exact .idle failed parked (stage ▸ trivial)
          | started draft =>
              rw [receives.frameRound_settled failed parked (stage ▸ trivial)]
              exact .idle failed parked (stage ▸ trivial)

/-! ## Runs -/

/-- The frame loop begins when the receiver was given the unread bytes. -/
theorem Receives.added (receives : Receives env conn receiver) :
    Receives env
      { conn with input := [], wsmsg := (wsmsgAdd 0 env.heap conn.wsmsg conn.input).1 }
      (receiver.add env.policy conn.input) where
  depicts := receives.depicts.add env.heap conn.input
  exhausted := receives.exhausted.add conn.input
  unlimited := receives.unlimited

theorem Receives.processFrame (receives : Receives env conn receiver) (sync : Bool) :
    ∃ receiver, Receives env (wsconnProcessFrame env conn sync) receiver := by
  let received : Conn → Prop := fun conn => ∃ receiver, Receives env conn receiver
  refine Loop.run_induction received received (frameRound_decreasing env sync) ?_ ?_
    ⟨_, receives.added⟩
  · rintro state next ⟨receiver, receives⟩ again
    have outcome := receives.frameRound sync
    rw [again] at outcome
    cases outcome with
    | pong healthy parked opcode_ne taken => exact ⟨_, taken⟩
    | text healthy unparked complete taken =>
        exact ⟨_, taken.congr (congrArg Prod.snd (cmOnmessage_intake env _ _ sync))⟩
    | other healthy unparked complete taken => exact ⟨_, taken⟩
  · rintro state final ⟨receiver, receives⟩ leave
    have outcome := receives.frameRound sync
    rw [leave] at outcome
    cases outcome with
    | failed failed => exact ⟨_, receives.congr (congrArg Prod.snd (wsconnClose_intake state))⟩
    | close healthy parked opcode_eq taken =>
        exact ⟨_, taken.congr (congrArg Prod.snd (answerClose_intake _ _))⟩
    | ping healthy parked opcode_eq taken => exact ⟨_, taken.congr rfl⟩
    | idle healthy unparked settled => exact ⟨_, receives⟩
    | binary healthy unparked complete taken =>
        exact ⟨_, taken.congr (congrArg Prod.snd (wsconnClose_intake _))⟩

theorem handshake_intake (env : Environment) (conn : Conn) :
    (Loop.run (handshakeRound env) (fun conn => conn.input.length) conn).intake.2 =
      conn.intake.2 := by
  let kept : Conn → Prop := fun state => state.intake.2 = conn.intake.2
  refine handshake_induction kept kept ?_ ?_ ?_ ?_ rfl
  · intro state line rest same
    exact same
  · intro state same
    exact same
  · intro state same
    exact (congrArg Prod.snd (wsconnClose_intake state)).trans same
  · intro state same
    exact (congrArg Prod.snd (wsconnHandshake_intake env state)).trans same

theorem cmReadcb_intake (env : Environment) (conn : Conn) :
    (cmReadcb env conn).intake = conn.intake := by
  have forwarded := forwardFrames_keeps env.heap (fun state => state.intake = conn.intake)
    (fun _ _ same => same)
  unfold cmReadcb
  split
  · dsimp only
    split_ifs
    · rfl
    · exact forwarded _ rfl
  · rfl

/-- Every handler call leaves a receiver behind. -/
theorem exists_receives_of_connStep {env : Environment} (conn : Conn) (label : Label)
    (next : Conn) (received : ∃ receiver, Receives env conn receiver)
    (stepped : connStep env conn label = some next) : ∃ receiver, Receives env next receiver := by
  obtain ⟨receiver, receives⟩ := received
  obtain ⟨-, handled⟩ := handles_of_connStep stepped
  cases handled with
  | read bytes sync =>
      have unread : Receives env { conn with input := conn.input ++ bytes } receiver :=
        receives.congr rfl
      rw [wsconnReadCb_def]
      split
      · exact ⟨_, unread.congr (handshake_intake env _)⟩
      · exact unread.processFrame sync
      · exact ⟨_, unread⟩
      · exact ⟨_, unread⟩
  | write sent =>
      rw [wsconnWriteCb]
      split_ifs <;> exact ⟨_, receives.congr rfl⟩
  | event events =>
      rw [wsconnEventCb]
      split_ifs
      · exact ⟨_, receives.congr (congrArg Prod.snd (wsconnClose_intake _))⟩
      · exact ⟨_, receives⟩
  | managerRead bytes bev_eq =>
      exact ⟨_, receives.congr (congrArg Prod.snd (cmReadcb_intake env _))⟩
  | managerEvent events present =>
      exact ⟨_, receives.congr (congrArg Prod.snd (cmEventcb_intake conn events))⟩

end

/-! ## No byte is lost -/

/-- All bytes of a chunk are put into `frame_buffer`, and what is no longer there was taken out as
whole frames. -/
def Accounted (heap : Heap) (wsmsg : WsMsg) (chunk : List UInt8) : Prop :=
  (bufferAppend 0 wsmsg.frameBuffer chunk).1.data = wsmsg.frameBuffer.data ++ chunk ∧
    Unpacks (wsmsg.frameBuffer.data ++ chunk) (wsmsgAdd 0 heap wsmsg chunk).1.frameBuffer.data

/-- The bytes of a read are accounted for, or a failure is reported, or the connection is closed. -/
def KeepsBytes (env : Environment) (conn : Conn) : Label → Prop
  | .read bytes sync =>
      conn.wsState = .receiving →
        Accounted env.heap conn.wsmsg (conn.input ++ bytes) ∨
          (wsmsgAdd 0 env.heap conn.wsmsg (conn.input ++ bytes)).1.error = true ∨
          (wsconnReadCb env { conn with input := conn.input ++ bytes } sync).wsState = .closed
  | _ => True

/-- The bytes of a read fit behind the bytes which are not decoded yet. -/
def FitsRead (env : Environment) (conn : Conn) : Label → Prop
  | .read bytes _ =>
      conn.wsState = .receiving →
        conn.wsmsg.frameBuffer.length + (conn.input ++ bytes).length ≤ 2 * env.conf.maxFrameSize
  | _ => True

instance (env : Environment) (conn : Conn) (label : Label) : Decidable (FitsRead env conn label) :=
  match label with
  | .read _ _ => inferInstanceAs (Decidable (_ → _))
  | .write _ | .event _ | .managerRead _ | .managerEvent _ => isTrue trivial

/-- A chunk which fits is accounted for. -/
theorem Depicts.accounted {maxFrameSize maxMessageSize : Nat} {wsmsg : WsMsg}
    {receiver : Receiver (List UInt8)} (heap : Heap)
    (depicts : Depicts maxFrameSize maxMessageSize wsmsg receiver) {chunk : List UInt8}
    (fits : wsmsg.frameBuffer.length + chunk.length ≤ 2 * maxFrameSize) :
    Accounted heap wsmsg chunk := by
  obtain ⟨appended, -⟩ := bufferAppend_eq_admitted wsmsg.frameBuffer chunk
  rw [Buffer.length] at fits
  rw [depicts.frameBuffer_limit, admitted_of_le fits] at appended
  have unpacks := Receiver.unpacks_process maxFrameSize maxMessageSize
    { receiver with source := receiver.source ++ chunk }
  have added := (depicts.add heap chunk).bytes_eq
  rw [depicts.bytes_eq] at fits
  have stored : (clipping maxFrameSize maxMessageSize).chunk receiver.source chunk =
      some (receiver.source ++ chunk) := by
    simp [clipping, admitted_of_le fits]
  refine ⟨appended, ?_⟩
  rw [added, depicts.bytes_eq, Receiver.add, stored]
  exact unpacks

/-- No byte is lost in a run in which the bytes of every read fit. -/
theorem guarded_keepsBytes_of_fits {env : Environment} {labels : List Label}
    (fits : Execution.Guarded (connStep env) (FitsRead env) (wsconnCreate env) labels) :
    Execution.Guarded (connStep env) (KeepsBytes env) (wsconnCreate env) labels := by
  refine Execution.Guarded.imp exists_receives_of_connStep ?_ ⟨_, receives_wsconnCreate env⟩ fits
  rintro conn label ⟨receiver, receives⟩ fits
  cases label with
  | read bytes sync =>
      intro receiving
      exact Or.inl (receives.depicts.accounted env.heap (fits receiving))
  | write sent => trivial
  | event events => trivial
  | managerRead bytes => trivial
  | managerEvent events => trivial

/-- The environment of the sessions, with a limit for the size of a frame. -/
def limitedEnvironment (maxFrameSize : Nat) : Environment :=
  { sessionEnvironment with conf := { configCreate with maxFrameSize } }

/-- With room for frames of 64 bytes the session loses nothing. -/
theorem guarded_keepsBytes_session :
    Execution.Guarded (connStep (limitedEnvironment 64)) (KeepsBytes (limitedEnvironment 64))
      (wsconnCreate (limitedEnvironment 64)) session :=
  guarded_keepsBytes_of_fits (by decide +kernel)

/-- With a limit of one byte for a frame, a text frame with one byte does not fit: its key and its
payload are lost, and the connection goes on. -/
theorem not_keepsBytes_singleByte :
    ∃ conn, Execution.run (connStep (limitedEnvironment 1)) (wsconnCreate (limitedEnvironment 1))
        [.read sessionRequest false] = some conn ∧
      (wsmsgAdd 0 (limitedEnvironment 1).heap conn.wsmsg
        (browserFrame opcodeText [0x61])).1.frameBuffer.data = [0x81, 0x81] ∧
      ¬ KeepsBytes (limitedEnvironment 1) conn (.read (browserFrame opcodeText [0x61]) false) := by
  obtain ⟨conn, execution, receiving, unread, stored, dropped, healthy, unclosed⟩ :
      ∃ conn, Execution.run (connStep (limitedEnvironment 1)) (wsconnCreate (limitedEnvironment 1))
          [.read sessionRequest false] = some conn ∧
        conn.wsState = .receiving ∧ conn.input = [] ∧
        (wsmsgAdd 0 (limitedEnvironment 1).heap conn.wsmsg
          (browserFrame opcodeText [0x61])).1.frameBuffer.data = [0x81, 0x81] ∧
        (bufferAppend 0 conn.wsmsg.frameBuffer (browserFrame opcodeText [0x61])).1.data ≠
          conn.wsmsg.frameBuffer.data ++ browserFrame opcodeText [0x61] ∧
        (wsmsgAdd 0 (limitedEnvironment 1).heap conn.wsmsg
          (browserFrame opcodeText [0x61])).1.error = false ∧
        (wsconnReadCb (limitedEnvironment 1)
          { conn with input := browserFrame opcodeText [0x61] } false).wsState = .receiving := by
    decide +kernel
  refine ⟨conn, execution, stored, fun keeps => ?_⟩
  have kept := keeps receiving
  rw [unread, List.nil_append, healthy, unclosed] at kept
  obtain accounted | failed | closed := kept
  · exact dropped accounted.1
  · cases failed
  · cases closed

end Jabsocket
