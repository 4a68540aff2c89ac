import Jabsocket.Intake
import Jabsocket.Lengths
import Jabsocket.Output
import Jabsocket.ServerLoss

/-!
# What a read callback leaves behind

The read callback is called again only when new bytes arrive, so it should leave nothing which is
complete.  It does so in two cases: bytes which arrive together with the end of the request are not
looked at, and the frame loop is left when it has answered a ping.
-/

namespace Jabsocket

/-! ## Nothing complete -/

/-- Nothing complete is waiting: no control frame, no message, and no frame in `frame_buffer`. -/
structure WsMsg.Drained (wsmsg : WsMsg) : Prop where
  frame_eq : wsmsg.frame = false
  message_eq : wsmsg.message = false
  incomplete : ∀ frame rest, scanFrame wsmsg.frameBuffer.data ≠ .item frame rest

/-- A connection on which messages are exchanged has nothing complete waiting. -/
def Conn.LeavesNothing (conn : Conn) : Prop :=
  conn.wsState = .receiving → conn.input = [] ∧ conn.wsmsg.Drained

/-- Frames which complete nothing: fragments of a message, up to a frame which is refused and behind
which no frame is complete. -/
def unfinished (maxFrameSize maxMessageSize : Nat) : Stage → List (Piece Frame) → Prop
  | stage, [] => stage.Settled
  | stage, .bad :: _ => stage.Settled
  | stage, .item frame :: pieces =>
      stage.Settled ∧
        if isControl frame.opcode then frame.fin = false ∧ ∀ frame, .item frame ∉ pieces
        else if stage.accepts frame then
          match admitted maxMessageSize stage.draft.payload (clipped maxFrameSize frame.payload) with
          | some payload =>
              unfinished maxFrameSize maxMessageSize (stage.extend { frame with payload }) pieces
          | none => ∀ frame, .item frame ∉ pieces
        else ∀ frame, .item frame ∉ pieces

/-- What the message part of `wsmsg_t` holds. -/
def WsMsg.stage (wsmsg : WsMsg) : Stage :=
  let draft := { opcode := wsmsg.messageOpcode, payload := wsmsg.messageBuffer.data }
  if wsmsg.message then .complete draft
  else if wsmsg.messageStarted then .started draft
  else .idle

theorem Depicts.stage_eq {maxFrameSize maxMessageSize : Nat} {wsmsg : WsMsg}
    {receiver : Receiver (List UInt8)}
    (depicts : Depicts maxFrameSize maxMessageSize wsmsg receiver) :
    wsmsg.stage = receiver.stage := by
  have started := depicts.started_eq
  have message := depicts.message_eq
  have payload := depicts.payload_eq
  have opcode := depicts.opcode_eq
  unfold WsMsg.stage
  cases stage : receiver.stage with
  | idle => simp_all [Stage.isOpen, Stage.isComplete]
  | started draft => simp_all [Stage.isOpen, Stage.isComplete, Stage.draft]
  | complete draft => simp_all [Stage.isOpen, Stage.isComplete, Stage.draft]

/-! ## Behind a control frame -/

/-- The same for a receiver. -/
structure Receiver.Drained (receiver : Receiver (List UInt8)) : Prop where
  unparked : receiver.parked = none
  settled : receiver.stage.Settled
  incomplete : ∀ frame rest, scanFrame receiver.source ≠ .item frame rest

theorem Depicts.drained_iff {maxFrameSize maxMessageSize : Nat} {wsmsg : WsMsg}
    {receiver : Receiver (List UInt8)}
    (depicts : Depicts maxFrameSize maxMessageSize wsmsg receiver) :
    wsmsg.Drained ↔ receiver.Drained := by
  constructor
  · intro drained
    refine ⟨?_, ?_, ?_⟩
    · have flag := drained.frame_eq
      rw [depicts.frame_eq] at flag
      simpa using flag
    · rw [Stage.settled_iff, ← depicts.message_eq]
      exact drained.message_eq
    · rw [← depicts.bytes_eq]
      exact drained.incomplete
  · intro drained
    refine ⟨?_, ?_, ?_⟩
    · rw [depicts.frame_eq, drained.unparked]
      rfl
    · rw [depicts.message_eq]
      exact Stage.settled_iff.mp drained.settled
    · rw [depicts.bytes_eq]
      exact drained.incomplete

theorem notMem_pieces_iff {bytes : List UInt8} :
    (∀ frame, .item frame ∉ frameScanner.pieces bytes) ↔
      ∀ frame rest, scanFrame bytes ≠ .item frame rest := by
  cases found : scanFrame bytes with
  | more =>
      have pieces : frameScanner.pieces bytes = [] := Scanner.pieces_more found
      simp [pieces]
  | fail =>
      have pieces : frameScanner.pieces bytes = [.bad] := Scanner.pieces_fail found
      simp [pieces]
  | item frame rest =>
      have pieces : frameScanner.pieces bytes = .item frame :: frameScanner.pieces rest :=
        Scanner.pieces_item found
      refine iff_of_false (fun none => none frame (by simp [pieces]))
        (fun none => none frame rest rfl)

theorem unfinished_settled {maxFrameSize maxMessageSize : Nat} {stage : Stage}
    {pieces : List (Piece Frame)} (none : unfinished maxFrameSize maxMessageSize stage pieces) :
    stage.Settled := by
  cases pieces with
  | nil => exact none
  | cons piece pieces =>
      cases piece with
      | bad => exact none
      | item frame => exact none.1

theorem Stage.settled_of_extend {stage : Stage} {frame : Frame}
    (settled : (stage.extend frame).Settled) : stage.Settled := by
  rw [Stage.settled_iff, Stage.isComplete_extend] at settled
  rw [Stage.settled_iff]
  exact (Bool.or_eq_false_iff.mp settled).1

section

variable (maxFrameSize maxMessageSize : Nat)

theorem Receiver.drained_failed_iff {receiver : Receiver (List UInt8)}
    (unparked : receiver.parked = none) :
    ({ receiver with failed := true } : Receiver (List UInt8)).Drained ↔
      receiver.stage.Settled ∧ ∀ frame, .item frame ∉ frameScanner.pieces receiver.source := by
  rw [notMem_pieces_iff]
  exact ⟨fun drained => ⟨drained.settled, drained.incomplete⟩,
    fun facts => ⟨unparked, facts.1, facts.2⟩⟩

/-- The loop leaves nothing complete exactly when the frames are unfinished. -/
theorem Receiver.drained_run_iff {receiver : Receiver (List UInt8)}
    (unparked : receiver.parked = none) (healthy : receiver.failed = false) :
    (Loop.run (Receiver.round (clipping maxFrameSize maxMessageSize))
        (fun receiver => (clipping maxFrameSize maxMessageSize).size receiver.source)
        receiver).Drained ↔
      unfinished maxFrameSize maxMessageSize receiver.stage
        (frameScanner.pieces receiver.source) := by
  obtain ⟨bytes, stage, parked, failed⟩ := receiver
  obtain rfl : parked = none := unparked
  obtain rfl : failed = false := healthy
  dsimp only
  induction bytes using frameScanner.input_induction generalizing stage with
  | more bytes found =>
      have leave : Receiver.round (clipping maxFrameSize maxMessageSize) ⟨bytes, stage, none, false⟩ =
          .leave ⟨bytes, stage, none, false⟩ := by
        rw [Receiver.round_clipping]
        dsimp only
        rw [show scanFrame bytes = .more from found]
      rw [Loop.run_of_leave _ leave, Scanner.pieces_more found, unfinished]
      refine ⟨fun drained => drained.settled, fun settled => ⟨rfl, settled, ?_⟩⟩
      intro frame rest
      rw [show scanFrame bytes = .more from found]
      nofun
  | fail bytes found =>
      have leave : Receiver.round (clipping maxFrameSize maxMessageSize) ⟨bytes, stage, none, false⟩ =
          .leave ⟨bytes, stage, none, true⟩ := by
        rw [Receiver.round_clipping]
        dsimp only
        rw [show scanFrame bytes = .fail from found]
      rw [Loop.run_of_leave _ leave, Scanner.pieces_fail found, unfinished]
      refine ⟨fun drained => drained.settled, fun settled => ⟨rfl, settled, ?_⟩⟩
      intro frame rest
      rw [show scanFrame bytes = .fail from found]
      nofun
  | item bytes frame rest found ih =>
      have round_eq : Receiver.round (clipping maxFrameSize maxMessageSize)
          ⟨bytes, stage, none, false⟩ =
            Receiver.handle (clipping maxFrameSize maxMessageSize) ⟨rest, stage, none, false⟩
              frame := by
        rw [Receiver.round_clipping]
        dsimp only
        rw [show scanFrame bytes = .item frame rest from found]
      rw [Scanner.pieces_item found, unfinished]
      by_cases refused : stage.Refuses frame
      · have leave := round_eq.trans (Receiver.handle_of_refuses refused)
        rw [Loop.run_of_leave _ leave, Receiver.drained_failed_iff rfl]
        refine and_congr_right fun _ => ?_
        unfold Stage.Refuses at refused
        split_ifs at refused ⊢ with control accepted
        · exact (and_iff_right refused).symm
        · simp [accepted] at refused
        · rfl
      unfold Stage.Refuses at refused
      cases control : isControl frame.opcode with
      | true =>
          have final : frame.fin = true := by simpa [control] using refused
          have leave := round_eq.trans (Receiver.handle_of_parked control final rfl)
          rw [Loop.run_of_leave _ leave]
          refine iff_of_false (fun drained => ?_) (fun unfinished => ?_)
          · exact absurd drained.unparked (by simp)
          · simp [final] at unfinished
      | false =>
          have accepted : stage.accepts frame = true := by simpa [control] using refused
          rw [if_neg (by simp), if_pos accepted]
          cases kept : admitted maxMessageSize stage.draft.payload
            (clipped maxFrameSize frame.payload) with
          | none =>
              have leave := round_eq.trans (Receiver.handle_of_none control accepted kept)
              rw [Loop.run_of_leave _ leave]
              exact Receiver.drained_failed_iff rfl
          | some payload =>
              have again := round_eq.trans (Receiver.handle_of_kept control accepted kept)
              rw [Loop.run_of_again (Receiver.round_decreasing _) again]
              refine (ih (stage.extend { frame with payload })).trans ?_
              refine ⟨fun later => ⟨?_, later⟩, fun both => both.2⟩
              exact Stage.settled_of_extend (unfinished_settled later)

/-- The frames behind a control frame which has just been taken leave nothing complete exactly when
they are unfinished. -/
theorem Receiver.drained_process_iff {receiver : Receiver (List UInt8)}
    (unparked : receiver.parked = none) (healthy : receiver.failed = false) :
    (receiver.process (clipping maxFrameSize maxMessageSize)).Drained ↔
      unfinished maxFrameSize maxMessageSize receiver.stage
        (frameScanner.pieces receiver.source) := by
  unfold Receiver.process
  split_ifs with blocked
  · have complete : receiver.stage.isComplete = true := by
      simpa [Receiver.blocked, unparked, healthy] using blocked
    have unsettled : ¬ receiver.stage.Settled := by
      simp [Stage.settled_iff, complete]
    exact iff_of_false (fun drained => unsettled drained.settled)
      (fun unfinished => unsettled (unfinished_settled unfinished))
  · exact Receiver.drained_run_iff maxFrameSize maxMessageSize unparked healthy

end

/-! ## The two ways to leave something behind -/

/-- The frame loop is about to answer a ping although the frames behind it complete something. -/
structure Conn.HurriedPing (env : Environment) (conn : Conn) : Prop where
  receiving : conn.wsState = .receiving
  healthy : conn.wsmsg.error = false
  parked : conn.wsmsg.frame = true
  opcode_eq : conn.wsmsg.opcode = opcodePing
  finished : ¬ unfinished env.conf.maxFrameSize env.conf.maxMessageSize conn.wsmsg.stage
    (frameScanner.pieces conn.wsmsg.frameBuffer.data)

section

variable {env : Environment} {conn : Conn} {receiver : Receiver (List UInt8)}

theorem leavesNothing_wsconnClose (conn : Conn) : (wsconnClose conn).LeavesNothing := by
  intro receiving
  rw [wsconnClose_wsState] at receiving
  cases receiving

/-- A parked ping is hurried exactly when something complete is left once it has been taken. -/
theorem Receives.hurriedPing_iff (receives : Receives env conn receiver) {frame : Frame}
    (healthy : receiver.failed = false) (parked : receiver.parked = some frame)
    (opcode_eq : frame.opcode = opcodePing) :
    conn.HurriedPing env ↔
      conn.wsState = .receiving ∧ ¬ (receiver.takeFrame env.policy).1.Drained := by
  have depicts := receives.depicts
  have drained_iff := Receiver.drained_process_iff env.conf.maxFrameSize env.conf.maxMessageSize
    (show ({ receiver with parked := none } : Receiver (List UInt8)).parked = none from rfl) healthy
  have taken : (receiver.takeFrame env.policy).1 =
      Receiver.process (clipping env.conf.maxFrameSize env.conf.maxMessageSize)
        { receiver with parked := none } := by
    simp only [Receiver.takeFrame, parked]
    rfl
  rw [taken, drained_iff]
  dsimp only
  rw [← depicts.stage_eq, ← depicts.bytes_eq]
  constructor
  · intro hurried
    exact ⟨hurried.receiving, hurried.finished⟩
  · rintro ⟨receiving, finished⟩
    exact
      { receiving
        healthy := by rw [depicts.error_eq, healthy]
        parked := by rw [depicts.frame_eq, parked]; rfl
        opcode_eq := (depicts.parked_eq frame parked).2.1.trans opcode_eq
        finished }

theorem Receives.not_hurriedPing (receives : Receives env conn receiver)
    (other : ∀ frame, receiver.failed = false → receiver.parked = some frame →
      frame.opcode ≠ opcodePing) : ¬ conn.HurriedPing env := by
  intro hurried
  have depicts := receives.depicts
  have flag := hurried.parked
  rw [depicts.frame_eq] at flag
  obtain ⟨frame, parked⟩ := Option.isSome_iff_exists.mp flag
  have healthy : receiver.failed = false := by
    rw [← depicts.error_eq]
    exact hurried.healthy
  refine other frame healthy parked ?_
  rw [← (depicts.parked_eq frame parked).2.1]
  exact hurried.opcode_eq

/-- A receiver from which nothing has to be taken has nothing complete. -/
theorem Receives.drained (receives : Receives env conn receiver)
    (healthy : receiver.failed = false) (unparked : receiver.parked = none)
    (settled : receiver.stage.Settled) : conn.wsmsg.Drained := by
  rw [receives.depicts.drained_iff]
  refine ⟨unparked, settled, fun frame rest found => ?_⟩
  have free : receiver.blocked = false := by
    simp [Receiver.blocked, unparked, healthy, Stage.settled_iff.mp settled]
  have nothing : arrivalOf receiver.source = .more := receives.exhausted free
  rw [arrivalOf_eq_item_iff.mpr found] at nothing
  cases nothing

/-- The states in which a round of the frame loop begins. -/
structure LoopState (env : Environment) (conn : Conn) : Prop where
  inLoop : InLoop conn
  received : ∃ receiver, Receives env conn receiver
  input_eq : conn.input = []

theorem LoopState.again (sync : Bool) {next : Conn} (state : LoopState env conn)
    (again : frameRound env sync conn = .again next) :
    LoopState env next ∧ ¬ conn.HurriedPing env := by
  obtain ⟨receiver, receives⟩ := state.received
  have kept : InLoop next := state.inLoop.frameStep (frameStep_of_eq again)
  have outcome := receives.frameRound sync
  rw [again] at outcome
  cases outcome with
  | pong healthy parked opcode_ne taken =>
      refine ⟨⟨kept, ⟨_, taken⟩, state.input_eq⟩, receives.not_hurriedPing ?_⟩
      intro frame _ parked'
      obtain rfl := Option.some.inj (parked.symm.trans parked')
      exact opcode_ne
  | text healthy unparked complete taken =>
      refine ⟨⟨kept, ⟨_, taken.congr ?_⟩, ?_⟩, receives.not_hurriedPing ?_⟩
      · exact congrArg Prod.snd (cmOnmessage_intake env _ _ sync)
      · exact (congrArg Prod.fst (cmOnmessage_intake env _ _ sync)).trans state.input_eq
      · intro frame _ parked
        rw [unparked] at parked
        cases parked
  | other healthy unparked complete taken =>
      refine ⟨⟨kept, ⟨_, taken⟩, state.input_eq⟩, receives.not_hurriedPing ?_⟩
      intro frame _ parked
      rw [unparked] at parked
      cases parked

theorem LoopState.leave (sync : Bool) {final : Conn} (state : LoopState env conn)
    (leave : frameRound env sync conn = .leave final) :
    ¬ final.LeavesNothing ↔ conn.HurriedPing env := by
  obtain ⟨receiver, receives⟩ := state.received
  have outcome := receives.frameRound sync
  rw [leave] at outcome
  cases outcome with
  | failed failed =>
      refine iff_of_false (not_not_intro (leavesNothing_wsconnClose _))
        (receives.not_hurriedPing ?_)
      intro frame healthy
      simp [failed] at healthy
  | close healthy parked opcode_eq taken =>
      obtain ⟨byManager, draining⟩ := (state.inLoop.congr _ conn.messageBuffer).answerClose _
      refine iff_of_false (not_not_intro fun receiving => ?_) (receives.not_hurriedPing ?_)
      · rw [draining.wsState_eq] at receiving
        cases receiving
      · intro frame _ parked'
        obtain rfl := Option.some.inj (parked.symm.trans parked')
        rw [opcode_eq]
        decide
  | ping healthy parked opcode_eq taken =>
      rw [receives.hurriedPing_iff healthy parked opcode_eq, ← taken.depicts.drained_iff]
      unfold Conn.LeavesNothing
      rw [Classical.not_imp, not_and]
      exact and_congr_right fun _ => ⟨fun undrained => undrained state.input_eq, fun undrained _ =>
        undrained⟩
  | idle healthy unparked settled =>
      refine iff_of_false (not_not_intro fun _ => ⟨state.input_eq,
        receives.drained healthy unparked settled⟩) (receives.not_hurriedPing ?_)
      intro frame _ parked
      rw [unparked] at parked
      cases parked
  | binary healthy unparked complete taken =>
      refine iff_of_false (not_not_intro (leavesNothing_wsconnClose _))
        (receives.not_hurriedPing ?_)
      intro frame _ parked
      rw [unparked] at parked
      cases parked

end

/-! ## Reachable states -/

section

variable {env : Environment} {conn : Conn}

theorem InLoop.wsState_ne_start (inLoop : InLoop conn) : conn.wsState ≠ .start := by
  obtain serving | stalled := inLoop
  · simp [serving.wsState_eq]
  · simp [stalled.wsState_eq]

theorem Serving.processFrame_wsState_ne_start (serving : Serving conn) (sync : Bool) :
    (wsconnProcessFrame env conn sync).wsState ≠ .start := by
  refine Loop.run_induction InLoop (fun conn => conn.wsState ≠ .start)
    (frameRound_decreasing env sync) ?_ ?_ (Or.inl { serving with })
  · intro state next inLoop again
    exact inLoop.frameStep (frameStep_of_eq again)
  · intro state final inLoop leave
    cases frameStep_of_eq leave with
    | failed => simp [wsconnClose_wsState]
    | close payload =>
        obtain ⟨byManager, draining⟩ := (inLoop.frameTaken env).answerClose payload
        simp [draining.wsState_eq]
    | ping payload => exact inLoop.wsState_ne_start
    | idle => exact inLoop.wsState_ne_start
    | binary => simp [wsconnClose_wsState]

end

end Jabsocket
