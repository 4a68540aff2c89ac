import Jabsocket.Refusal

/-!
# Answers to control frames

`wsconn_process_frame` answers a ping with a pong and a Close frame with a Close frame.  The payload
goes through `frame_buffer`, `frame_data`, the split into status code and reason, and the encoder.
The browser gets its own payload back when the frame fits into those buffers, when a Close frame
does not carry the status code zero, and when nothing was left from earlier calls which is answered
instead.
-/

namespace Jabsocket

/-! ## What is queued -/

/-- The bytes of a write. -/
def Write.bytes : Write → List UInt8
  | .response bytes => bytes
  | .frame opcode payload => frameBytes opcode payload

/-- What is queued for the browser, and the bytes which were not sent. -/
def Conn.outbox (conn : Conn) : List Write × List UInt8 :=
  (conn.queued, conn.pending)

/-- A connection has queued some writes. -/
def Conn.Queues (conn : Conn) (writes : List Write) (final : Conn) : Prop :=
  final.outbox = (conn.queued ++ writes, conn.pending ++ writes.flatMap Write.bytes)

/-- A Close frame for the browser when the XMPP server cannot be reached. -/
def serverLost : List UInt8 :=
  storeU16 (htons 1001) ++ text "XMPP server closed"

/-- The payload with which a Close frame is answered. -/
def closeReply : List UInt8 → List UInt8
  | high :: low :: reason => if high = 0 ∧ low = 0 then [] else high :: low :: reason
  | _ => storeU16 (htons 1001)

/-- A message completes the header of the stream, and the manager connects to the server. -/
def Conn.connects (env : Environment) (conn : Conn) (message : List UInt8) : Bool :=
  match conn.cm.state, conn.cm.parser with
  | .start, some parser =>
      let parser := (streamparserAdd env.expat parser (cstr message)).1
      !parser.error && parser.server.isSome
  | _, _ => false

section

variable {conn : Conn}

theorem Conn.Queues.of_eq {final : Conn} (same : final.outbox = conn.outbox) :
    conn.Queues [] final := by
  rw [Conn.Queues, same, List.append_nil, List.flatMap_nil, List.append_nil, outbox]

theorem Conn.Queues.congr {writes : List Write} {final : Conn} (queues : conn.Queues writes final)
    {other : Conn} (same : other.outbox = conn.outbox) : other.Queues writes final := by
  have queued_eq : other.queued = conn.queued := congrArg Prod.fst same
  have pending_eq : other.pending = conn.pending := congrArg Prod.snd same
  rw [Conn.Queues, queued_eq, pending_eq]
  exact queues

theorem Conn.Queues.trans {first second : List Write} {middle final : Conn}
    (earlier : conn.Queues first middle) (later : middle.Queues second final) :
    conn.Queues (first ++ second) final := by
  have queued_eq : middle.queued = conn.queued ++ first := congrArg Prod.fst earlier
  have pending_eq : middle.pending = conn.pending ++ first.flatMap Write.bytes :=
    congrArg Prod.snd earlier
  rw [Conn.Queues, later, queued_eq, pending_eq, List.flatMap_append, List.append_assoc,
    List.append_assoc]

theorem Conn.queues_writeFrame (conn : Conn) (opcode : Nat) (payload : List UInt8) :
    conn.Queues [.frame opcode payload] (conn.writeFrame opcode payload) := by
  have written : wsconnWriteFrame 0 conn.pending opcode payload =
      conn.pending ++ frameBytes opcode payload :=
    wsconnWriteFrame_eq (Or.inl rfl) conn.pending opcode (Or.inl rfl)
  simp [Conn.Queues, outbox, writeFrame, written, Write.bytes]

theorem queues_wsconnClose (conn : Conn) : conn.Queues [] (wsconnClose conn) := by
  refine .of_eq ?_
  unfold wsconnClose
  dsimp only
  split_ifs <;> rfl

theorem queues_answerPing (conn : Conn) (payload : List UInt8) :
    conn.Queues [.frame opcodePong payload] (answerPing conn payload) :=
  ((conn.log (.ping conn.flWsClosing)).queues_writeFrame opcodePong payload).congr rfl

theorem queues_wsconnInitiateClose (unclosed : conn.flWsClosing = false) (status : Nat)
    (reason : List UInt8) :
    conn.Queues
      [.frame opcodeClose (if status > 0 then storeU16 (htons status) ++ reason else [])]
      (wsconnInitiateClose conn status reason) := by
  unfold wsconnInitiateClose
  generalize (if status > 0 then storeU16 (htons status) ++ reason else []) = message
  rw [if_neg (by simp [unclosed])]
  dsimp only
  split_ifs <;> exact conn.queues_writeFrame opcodeClose message

/-- The status code goes through two conversions of the byte order. -/
theorem storeU16_status (high low : UInt8) :
    storeU16 (htons (ntohs (loadU16 high low))) = [high, low] := by
  have high_lt := high.toNat_lt
  have low_lt := low.toNat_lt
  obtain ⟨first, second⟩ := htons_bytes (256 * high.toNat + low.toNat)
  have high_eq : UInt8.ofNat (htons (256 * high.toNat + low.toNat)) = high := by
    refine UInt8.toNat_inj.mp ?_
    rw [UInt8.toNat_ofNat', first]
    omega
  have low_eq : UInt8.ofNat (htons (256 * high.toNat + low.toNat) / 256) = low := by
    refine UInt8.toNat_inj.mp ?_
    rw [UInt8.toNat_ofNat', second]
    omega
  rw [ntohs_loadU16, storeU16, high_eq, low_eq]

theorem queues_answerClose (unclosed : conn.flWsClosing = false) (payload : List UInt8) :
    conn.Queues [.frame opcodeClose (closeReply payload)] (answerClose conn payload) := by
  have queues : ∀ status, conn.Queues
      [.frame opcodeClose
        (if status > 0 then storeU16 (htons status) ++ payload.drop 2 else [])]
      (wsconnInitiateClose { conn with status } status (payload.drop 2)) :=
    fun status => @queues_wsconnInitiateClose { conn with status } unclosed status _
  have missing := queues 1001
  rw [if_pos (by decide)] at missing
  match payload with
  | [] => exact missing
  | [first] => exact missing
  | high :: low :: reason =>
      have status_pos : ntohs (loadU16 high low) > 0 ↔ ¬ (high = 0 ∧ low = 0) := by
        rw [ntohs_loadU16, ← UInt8.toNat_inj, ← UInt8.toNat_inj]
        simp only [UInt8.toNat_zero]
        omega
      have written := queues (ntohs (loadU16 high low))
      simp only [status_pos, ite_not, storeU16_status] at written
      exact written

theorem queues_answerClose_closing (closing : conn.flWsClosing = true) (payload : List UInt8) :
    conn.Queues [] (answerClose conn payload) := by
  unfold answerClose wsconnInitiateClose
  rw [if_pos closing]
  exact .of_eq rfl

/-- The XMPP side fails while messages are exchanged. -/
theorem queues_cmEventcb (receiving : conn.wsState = .receiving)
    (unclosed : conn.flWsClosing = false) (alive : conn.deleted = false) {events : Events}
    (unconnected : events.connected = false) (error : events.error = true) :
    conn.Queues [.frame opcodeClose serverLost] (cmEventcb conn events) ∧
      (cmEventcb conn events).flWsClosing = true := by
  rw [cmEventcb_error receiving unclosed alive unconnected error]
  exact ⟨conn.queues_writeFrame opcodeClose serverLost, rfl⟩

/-- A message is queued for the browser only when the XMPP server cannot be reached at once. -/
theorem Serving.queues_cmOnmessage (env : Environment) (serving : Serving conn)
    (message : List UInt8) (sync : Bool) :
    if sync && conn.connects env message then
      conn.Queues [.frame opcodeClose serverLost]
          (cmOnmessage env (conn.log (.message conn.view)) message sync) ∧
        (cmOnmessage env (conn.log (.message conn.view)) message sync).flWsClosing = true
    else
      conn.Queues [] (cmOnmessage env (conn.log (.message conn.view)) message sync) ∧
        (cmOnmessage env (conn.log (.message conn.view)) message sync).flWsClosing = false := by
  have unclosed := serving.flWsClosing_eq
  obtain waiting | linked := serving.manager
  · obtain ⟨parser, parser_eq⟩ := Option.isSome_iff_exists.mp waiting.parser_some
    obtain ⟨buffer, buffer_eq⟩ := Option.isSome_iff_exists.mp waiting.buffer_some
    simp only [Conn.connects, waiting.state_eq, parser_eq, cmOnmessage, cmOnStart, Conn.log,
      buffer_eq]
    generalize (streamparserAdd env.expat parser (cstr message)).1 = parser'
    generalize (bufferAppend 0 buffer message).1 = buffer'
    cases failed : parser'.error with
    | true => simpa using ⟨Conn.Queues.of_eq rfl, unclosed⟩
    | false =>
        cases server_eq : parser'.server with
        | none => simpa using ⟨Conn.Queues.of_eq rfl, unclosed⟩
        | some server =>
            cases sync with
            | false => simpa [cmConnect] using ⟨Conn.Queues.of_eq rfl, unclosed⟩
            | true =>
                let connecting : Conn :=
                  { conn.log (.message conn.view) with
                    cm :=
                      { conn.cm with
                        state := .start
                        parser := some parser'
                        buffer := some buffer'
                        server := some server
                        bev := some { input := [], written := [] }
                        dnsbase := true } }
                let events : Events := { connected := false, error := true, eof := false }
                have lost := queues_cmEventcb (show connecting.wsState = .receiving from
                  serving.wsState_eq) unclosed serving.deleted_eq
                  (show events.connected = false from rfl) rfl
                simp only [Bool.false_eq_true, if_false]
                exact ⟨lost.1.congr rfl, lost.2⟩
  · cases state_eq : conn.cm.state with
    | start => exact absurd state_eq linked.state_ne
    | connect =>
        simp only [Conn.connects, cmOnmessage, Conn.log, state_eq, Bool.and_false]
        exact ⟨.of_eq rfl, unclosed⟩
    | forward =>
        obtain ⟨bev, bev_eq⟩ := Option.isSome_iff_exists.mp linked.bev_some
        simp only [Conn.connects, cmOnmessage, Conn.log, state_eq, bev_eq, Bool.and_false]
        exact ⟨.of_eq rfl, unclosed⟩

end

/-! ## A control frame at the front of `frame_buffer` -/

/-- A buffer with a limit keeps of a content and an input what it would keep of both at once. -/
theorem append_admitted {limit : Nat} {content : List UInt8}
    (confined : clipped limit content = content) (input : List UInt8) :
    content ++ (admitted limit content input).getD [] = clipped limit (content ++ input) := by
  by_cases unlimited : limit = 0
  · subst unlimited
    simp [admitted_unlimited, clipped]
  have short : content.length ≤ limit :=
    (clipped_eq_self_iff.mp confined).resolve_left unlimited
  rw [clipped, if_neg unlimited, List.take_append, List.take_of_length_le short]
  unfold admitted
  by_cases empty : input = []
  · simp [empty]
  rw [if_neg empty, if_neg unlimited]
  by_cases room : content.length < limit
  · rw [if_pos room, Option.getD_some]
  · rw [if_neg room, Option.getD_none, Nat.sub_eq_zero_of_le (Nat.le_of_not_lt room),
      List.take_zero]

section

variable {maxFrameSize maxMessageSize : Nat} {receiver : Receiver (List UInt8)}

theorem Receiver.process_of_blocked {policy : Policy (List UInt8)}
    (blocked : receiver.blocked = true) : receiver.process policy = receiver :=
  if_pos blocked

theorem Receiver.process_of_more (free : receiver.blocked = false)
    (nothing : scanFrame receiver.source = .more) :
    receiver.process (clipping maxFrameSize maxMessageSize) = receiver := by
  rw [Receiver.process, if_neg (by simp [free])]
  refine Loop.run_of_leave _ ?_
  rw [Receiver.round_clipping, nothing]

/-- A control frame is parked at once. -/
theorem Receiver.process_of_control (free : receiver.blocked = false) {frame : Frame}
    {rest : List UInt8} (found : scanFrame receiver.source = .item frame rest)
    (control : isControl frame.opcode = true) (final : frame.fin = true) :
    receiver.process (clipping maxFrameSize maxMessageSize) =
      { receiver with
        source := rest
        parked := some { frame with payload := clipped maxFrameSize frame.payload } } := by
  rw [Receiver.process, if_neg (by simp [free])]
  refine Loop.run_of_leave _ ?_
  rw [Receiver.round_clipping, found]
  exact Receiver.handle_of_parked control final rfl

/-- `wsmsg_add` processes the bytes which fit into `frame_buffer`. -/
theorem Receiver.add_clipping
    (exhausted : receiver.Exhausted (clipping maxFrameSize maxMessageSize))
    (confined : clipped (2 * maxFrameSize) receiver.source = receiver.source)
    (chunk : List UInt8) :
    receiver.add (clipping maxFrameSize maxMessageSize) chunk =
      Receiver.process (clipping maxFrameSize maxMessageSize)
        { receiver with source := clipped (2 * maxFrameSize) (receiver.source ++ chunk) } := by
  have stored := append_admitted confined chunk
  have policy_eq : (clipping maxFrameSize maxMessageSize).chunk receiver.source chunk =
      (admitted (2 * maxFrameSize) receiver.source chunk).map (receiver.source ++ ·) := rfl
  rw [Receiver.add, policy_eq, ← stored]
  cases admitted (2 * maxFrameSize) receiver.source chunk with
  | some taken => rfl
  | none =>
      simp only [Option.map_none, Option.getD_none, List.append_nil]
      cases free : receiver.blocked with
      | true => rw [Receiver.process_of_blocked free]
      | false =>
          have nothing : scanFrame receiver.source = .more := by
            have scanned := exhausted free
            change arrivalOf receiver.source = .more at scanned
            unfold arrivalOf at scanned
            split at scanned <;> simp_all
          exact (Receiver.process_of_more free nothing).symm

theorem Receiver.confined_process
    (confined : clipped (2 * maxFrameSize) receiver.source = receiver.source) :
    clipped (2 * maxFrameSize)
        (receiver.process (clipping maxFrameSize maxMessageSize)).source =
      (receiver.process (clipping maxFrameSize maxMessageSize)).source := by
  have shorter := (receiver.unpacks_process maxFrameSize maxMessageSize).length_le
  rw [clipped_eq_self_iff] at confined ⊢
  exact confined.imp id (Nat.le_trans shorter)

/-- No call puts more into `frame_buffer` than its limit. -/
theorem Receiver.confined_call
    (exhausted : receiver.Exhausted (clipping maxFrameSize maxMessageSize))
    (confined : clipped (2 * maxFrameSize) receiver.source = receiver.source)
    (call : ReceiverCall) :
    clipped (2 * maxFrameSize)
        (Receiver.call (clipping maxFrameSize maxMessageSize) (receiver, []) call).1.source =
      (Receiver.call (clipping maxFrameSize maxMessageSize) (receiver, []) call).1.source := by
  cases call with
  | add chunk =>
      dsimp only [Receiver.call]
      rw [Receiver.add_clipping exhausted confined]
      refine Receiver.confined_process ?_
      dsimp only
      unfold clipped
      split_ifs with unlimited
      · rfl
      · rw [List.take_take, Nat.min_self]
  | getFrame =>
      dsimp only [Receiver.call, Receiver.takeFrame]
      split
      · exact confined
      · exact Receiver.confined_process confined
  | getMessage =>
      dsimp only [Receiver.call, Receiver.takeMessage]
      split
      · exact Receiver.confined_process confined
      · exact confined
      · exact confined

end

/-- The bytes in `frame_buffer` never exceed its limit. -/
theorem Callable.confined {env : Environment} {wsmsg : WsMsg} (callable : Callable env wsmsg) :
    clipped (2 * env.conf.maxFrameSize) wsmsg.frameBuffer.data = wsmsg.frameBuffer.data := by
  obtain ⟨calls, execution⟩ := callable
  let invariant : WsMsg → Prop := fun wsmsg =>
    ∃ receiver, Depicts env.conf.maxFrameSize env.conf.maxMessageSize wsmsg receiver ∧
      receiver.Exhausted env.policy ∧
      clipped (2 * env.conf.maxFrameSize) receiver.source = receiver.source
  have start : invariant (wsmsgCreate env.conf.maxFrameSize env.conf.maxMessageSize) :=
    ⟨_, depicts_wsmsgCreate _ _, fun _ => rfl, clipped_of_le (Nat.zero_le _)⟩
  suffices keeps : ∀ wsmsg call next, invariant wsmsg → receiverStep 0 env.heap wsmsg call =
      some next → invariant next by
    obtain ⟨receiver, depicts, -, confined⟩ := Execution.invariant_of_run keeps start execution
    rw [depicts.bytes_eq, confined]
  rintro wsmsg call next ⟨receiver, depicts, exhausted, confined⟩ stepped
  obtain rfl := Option.some.inj stepped
  refine ⟨_, (depicts.call env.heap [] call).1, ?_, Receiver.confined_call exhausted confined call⟩
  cases call with
  | add chunk => exact exhausted.add chunk
  | getFrame => exact exhausted.takeFrame
  | getMessage => exact exhausted.takeMessage

/-! ## The frame loop -/

/-- A masked ping, or a masked Close frame with a status code, with a payload of at most 125
bytes. -/
structure WireFrame.Asks (frame : WireFrame) : Prop where
  masked : frame.key.isSome = true
  final : frame.fin = true
  short : frame.payload.length ≤ 125
  kind : (frame.opcode : Nat) = opcodePing ∨
    (frame.opcode : Nat) = opcodeClose ∧ 2 ≤ frame.payload.length

/-- What is queued for a control frame when the frame loop comes to it. -/
def WireFrame.answer (maxFrameSize : Nat) (closing : Bool) (frame : WireFrame) : List Write :=
  if maxFrameSize = 0 ∨ frame.bytes.length ≤ 2 * maxFrameSize then
    if (frame.opcode : Nat) = opcodePing then
      [.frame opcodePong (clipped maxFrameSize frame.payload)]
    else if closing then []
    else [.frame opcodeClose (closeReply (clipped maxFrameSize frame.payload))]
  else []

/-- What a connection queues because of what was left in its receiver by earlier calls, if this
comes in front of the answer to a new frame or in place of it. -/
def Conn.backlog (env : Environment) (conn : Conn) (sync : Bool) : Option (List Write) :=
  if conn.wsmsg.error then some []
  else if conn.wsmsg.frame && conn.wsmsg.opcode == opcodeClose then
    some [.frame opcodeClose (closeReply conn.wsmsg.frameData.data)]
  else if conn.wsmsg.frame && conn.wsmsg.opcode == opcodePing then
    some [.frame opcodePong conn.wsmsg.frameData.data]
  else if conn.wsmsg.message && conn.wsmsg.messageOpcode == opcodeBinary then some []
  else if conn.wsmsg.message && conn.wsmsg.messageOpcode == opcodeText &&
      (sync && conn.connects env conn.wsmsg.messageBuffer.data) then
    some [.frame opcodeClose serverLost]
  else none

/-- What a connection queues because of a complete message, if it comes in front of the answer to a
new frame or in place of it. -/
def Conn.messageBacklog (env : Environment) (conn : Conn) (sync : Bool) :
    Stage → Option (List Write)
  | .complete draft =>
      if draft.opcode = opcodeBinary then some []
      else if draft.opcode = opcodeText ∧ (sync && conn.connects env draft.payload) = true then
        some [.frame opcodeClose serverLost]
      else none
  | .idle | .started _ => none

/-- What a call queues, by what was left by earlier calls. -/
def Conn.Responds (maxFrameSize : Nat) (frame : WireFrame) (conn final : Conn) :
    Option (List Write) → Prop
  | none => conn.Queues (frame.answer maxFrameSize false) final
  | some writes =>
      ∃ more, conn.Queues (writes ++ more) final ∧
        (more = [] ∨
          writes = [.frame opcodeClose serverLost] ∧ (frame.opcode : Nat) = opcodePing)

theorem WireFrame.Asks.isControl {frame : WireFrame} (asks : frame.Asks) :
    isControl frame.opcode = true := by
  obtain ping | ⟨close, -⟩ := asks.kind
  · rw [ping]
    rfl
  · rw [close]
    rfl

section

variable {env : Environment} {conn : Conn} {receiver : Receiver (List UInt8)} {frame : WireFrame}
  {later : List UInt8}

/-- The frame is found when it fits into `frame_buffer`, and nothing is found otherwise. -/
theorem WireFrame.scanFrame_clipped (frame : WireFrame) (later : List UInt8) (limit : Nat) :
    if limit = 0 ∨ frame.bytes.length ≤ 2 * limit then
      ∃ rest, scanFrame (clipped (2 * limit) (frame.bytes ++ later)) = .item frame.decoded rest
    else scanFrame (clipped (2 * limit) (frame.bytes ++ later)) = .more := by
  split_ifs with fits
  · have stored : ∃ rest, clipped (2 * limit) (frame.bytes ++ later) = frame.bytes ++ rest := by
      unfold clipped
      split_ifs with unlimited
      · exact ⟨later, rfl⟩
      · have short : frame.bytes.length ≤ 2 * limit := by omega
        exact ⟨_, by rw [List.take_append, List.take_of_length_le short]⟩
    obtain ⟨rest, rest_eq⟩ := stored
    exact ⟨rest, rest_eq ▸ frame.scanFrame_bytes rest⟩
  · have long : 2 * limit < frame.bytes.length := by omega
    rw [clipped, if_neg (by omega), List.take_append_of_le_length (by omega)]
    refine frame.scanFrame_of_isPrefix (List.take_prefix _ _) fun whole => ?_
    have lengths := congrArg List.length whole
    rw [List.length_take] at lengths
    omega

/-- The loop with nothing in front of the frame. -/
theorem Receives.queues_settled (receives : Receives env conn (receiver.process env.policy))
    (free : receiver.blocked = false) (asks : frame.Asks)
    (source_eq : receiver.source = clipped (2 * env.conf.maxFrameSize) (frame.bytes ++ later))
    (sync : Bool) :
    conn.Queues (frame.answer env.conf.maxFrameSize conn.flWsClosing)
      (Loop.run (Jabsocket.frameRound env sync) (fun conn => pendingMeasure conn.wsmsg) conn) := by
  have parts := free
  simp only [Receiver.blocked, Bool.or_eq_false_iff, Option.isSome_eq_false_iff,
    Option.isNone_iff_eq_none] at parts
  obtain ⟨⟨settled, unparked⟩, healthy⟩ := parts
  have scanned := frame.scanFrame_clipped later env.conf.maxFrameSize
  rw [← source_eq] at scanned
  unfold WireFrame.answer
  by_cases fits : env.conf.maxFrameSize = 0 ∨ frame.bytes.length ≤ 2 * env.conf.maxFrameSize
  · rw [if_pos fits] at scanned ⊢
    obtain ⟨rest, found⟩ := scanned
    rw [Environment.policy, Receiver.process_of_control free found asks.isControl asks.final]
      at receives
    have round := receives.frameRound_parked healthy rfl sync
    dsimp only at round
    obtain ping | ⟨close, -⟩ := asks.kind
    · rw [if_pos ping]
      rw [WireFrame.decoded_opcode, ping, if_neg (by decide), if_pos rfl] at round
      rw [Loop.run_of_leave _ round]
      exact (queues_answerPing _ _).congr rfl
    · rw [close, if_neg (by decide)]
      rw [WireFrame.decoded_opcode, close, if_pos rfl] at round
      rw [Loop.run_of_leave _ round]
      cases closing : conn.flWsClosing with
      | true =>
          have late : (conn.frameTaken env).flWsClosing = true := closing
          exact (queues_answerClose_closing late _).congr rfl
      | false =>
          have unclosed : (conn.frameTaken env).flWsClosing = false := closing
          exact (queues_answerClose unclosed _).congr rfl
  · rw [if_neg fits] at scanned ⊢
    rw [Environment.policy, Receiver.process_of_more free scanned] at receives
    rw [Loop.run_of_leave _ (receives.frameRound_settled healthy unparked
      (Stage.settled_iff.mpr settled) sync)]
    exact .of_eq rfl

/-- The loop with a message in front of the frame, or with nothing. -/
theorem Receives.queues_unparked (receives : Receives env conn (receiver.process env.policy))
    (serving : Serving conn) (healthy : receiver.failed = false)
    (unparked : receiver.parked = none) (asks : frame.Asks)
    (source_eq : receiver.source = clipped (2 * env.conf.maxFrameSize) (frame.bytes ++ later))
    (sync : Bool) :
    conn.Responds env.conf.maxFrameSize frame
      (Loop.run (Jabsocket.frameRound env sync) (fun conn => pendingMeasure conn.wsmsg) conn)
      (conn.messageBacklog env sync receiver.stage) := by
  have decreasing := frameRound_decreasing env sync
  have unhindered : receiver.stage.Settled →
      conn.Queues (frame.answer env.conf.maxFrameSize false)
        (Loop.run (Jabsocket.frameRound env sync) (fun conn => pendingMeasure conn.wsmsg) conn) := by
    intro settled
    have free : receiver.blocked = false := by
      simp [Receiver.blocked, unparked, healthy, Stage.settled_iff.mp settled]
    exact serving.flWsClosing_eq ▸ receives.queues_settled free asks source_eq sync
  cases stage : receiver.stage with
  | idle => exact unhindered (stage ▸ trivial)
  | started draft => exact unhindered (stage ▸ trivial)
  | complete draft =>
      rw [Receiver.process_of_blocked (by simp [Receiver.blocked, stage, Stage.isComplete])]
        at receives
      have round := receives.frameRound_complete healthy unparked stage sync
      have after := receives.messageTaken stage
      simp only [Receiver.takeMessage, stage] at after
      have free : Receiver.blocked { receiver with stage := .idle } = false := by
        simp [Receiver.blocked, unparked, healthy, Stage.isComplete]
      have taken : Serving (conn.messageTaken env) := { serving with }
      have passed := taken.queues_cmOnmessage env draft.payload sync
      have received := after.congr (congrArg Prod.snd (cmOnmessage_intake env
        ((conn.messageTaken env).log (.message (conn.messageTaken env).view)) draft.payload sync))
      have connects_eq : (conn.messageTaken env).connects env draft.payload =
        conn.connects env draft.payload := rfl
      rw [connects_eq] at passed
      unfold Conn.messageBacklog
      dsimp only
      by_cases isBinary : draft.opcode = opcodeBinary
      · rw [if_neg (by rw [isBinary]; decide), if_pos isBinary] at round
        rw [if_pos isBinary, Loop.run_of_leave _ round]
        exact ⟨[], (queues_wsconnClose _).congr rfl, Or.inl rfl⟩
      rw [if_neg isBinary] at round ⊢
      by_cases isText : draft.opcode = opcodeText
      · rw [if_pos isText] at round
        rw [Loop.run_of_again decreasing round]
        have answered := received.queues_settled free asks source_eq sync
        cases lost : sync && conn.connects env draft.payload with
        | true =>
            rw [lost, if_pos rfl] at passed
            rw [if_pos ⟨isText, rfl⟩]
            rw [passed.2] at answered
            refine ⟨_, (passed.1.trans answered).congr rfl, ?_⟩
            obtain ping | ⟨close, -⟩ := asks.kind
            · exact Or.inr ⟨rfl, ping⟩
            · exact Or.inl (by simp [WireFrame.answer, close, opcodeClose, opcodePing])
        | false =>
            rw [lost, if_neg (by decide)] at passed
            rw [if_neg (by simp)]
            rw [passed.2] at answered
            exact (passed.1.trans answered).congr rfl
      · rw [if_neg isText] at round
        rw [if_neg (fun both => isText both.1), Loop.run_of_again decreasing round]
        have answered := after.queues_settled free asks source_eq sync
        rw [taken.flWsClosing_eq] at answered
        exact answered.congr rfl

theorem Conn.Responds.congr {maxFrameSize : Nat} {final : Conn} {backlog : Option (List Write)}
    (responds : conn.Responds maxFrameSize frame final backlog) {other : Conn}
    (same : other.outbox = conn.outbox) : other.Responds maxFrameSize frame final backlog := by
  cases backlog with
  | none => exact Conn.Queues.congr responds same
  | some writes =>
      obtain ⟨more, queues, harmless⟩ := responds
      exact ⟨more, queues.congr same, harmless⟩

/-- A control frame which is not answered leaves the message. -/
theorem Receives.backlog_eq (receives : Receives env conn receiver)
    (healthy : receiver.failed = false)
    (unanswered : ∀ frame ∈ receiver.parked,
      frame.opcode ≠ opcodeClose ∧ frame.opcode ≠ opcodePing) (sync : Bool) :
    conn.backlog env sync = conn.messageBacklog env sync receiver.stage := by
  have depicts := receives.depicts
  have silent : ∀ opcode, opcode = opcodeClose ∨ opcode = opcodePing →
      (conn.wsmsg.frame && conn.wsmsg.opcode == opcode) = false := by
    intro opcode answered
    cases parked : receiver.parked with
    | none => simp [depicts.frame_eq, parked]
    | some frame =>
        obtain ⟨-, opcode_eq, -⟩ := depicts.parked_eq frame parked
        obtain ⟨not_close, not_ping⟩ := unanswered frame parked
        have differs : frame.opcode ≠ opcode := by
          rintro rfl
          exact answered.elim not_close not_ping
        simp [opcode_eq, differs]
  unfold Conn.backlog
  rw [if_neg (by simp [depicts.error_eq, healthy]), silent _ (Or.inl rfl), silent _ (Or.inr rfl),
    if_neg (by decide), if_neg (by decide)]
  cases stage : receiver.stage with
  | idle => simp [depicts.message_eq, stage, Stage.isComplete, Conn.messageBacklog]
  | started draft => simp [depicts.message_eq, stage, Stage.isComplete, Conn.messageBacklog]
  | complete draft =>
      have opcode_eq := depicts.opcode_eq (by rw [stage]; rfl)
      have payload_eq := depicts.payload_eq
      rw [stage] at opcode_eq payload_eq
      simp [depicts.message_eq, stage, Stage.isComplete, Conn.messageBacklog, opcode_eq, payload_eq,
        Stage.draft]

/-- A call of `wsconn_process_frame` when a control frame comes next. -/
theorem Receives.responds (receives : Receives env conn receiver) (serving : Serving conn)
    (confined : clipped (2 * env.conf.maxFrameSize) receiver.source = receiver.source)
    (asks : frame.Asks) (stream : receiver.source ++ conn.input = frame.bytes ++ later)
    (sync : Bool) :
    conn.Responds env.conf.maxFrameSize frame (wsconnProcessFrame env conn sync)
      (conn.backlog env sync) := by
  have added := receives.added
  rw [Environment.policy, Receiver.add_clipping receives.exhausted confined, stream] at added
  have depicts := receives.depicts
  cases failed : receiver.failed with
  | true =>
      rw [Receiver.process_of_blocked (by simp [Receiver.blocked, failed])] at added
      have round := added.frameRound_failed failed sync
      rw [Conn.backlog, if_pos (depicts.error_eq.trans failed), wsconnProcessFrame_def,
        Loop.run_of_leave _ round]
      exact ⟨[], (queues_wsconnClose _).congr rfl, Or.inl rfl⟩
  | false =>
      cases parked : receiver.parked with
      | none =>
          rw [receives.backlog_eq failed (by simp [parked])]
          exact (added.queues_unparked { serving with } failed parked asks rfl sync).congr rfl
      | some waiting =>
          rw [Receiver.process_of_blocked (by simp [Receiver.blocked, parked])] at added
          have round := added.frameRound_parked failed parked sync
          obtain ⟨-, opcode_eq, -, payload_eq⟩ := depicts.parked_eq waiting parked
          have frame_eq : conn.wsmsg.frame = true := by rw [depicts.frame_eq, parked]; rfl
          have healthy : conn.wsmsg.error = false := depicts.error_eq.trans failed
          rw [wsconnProcessFrame_def]
          by_cases close : waiting.opcode = opcodeClose
          · rw [if_pos close] at round
            rw [Loop.run_of_leave _ round, Conn.backlog, healthy, frame_eq, opcode_eq, payload_eq,
              close]
            have unclosed : Conn.flWsClosing (Conn.frameTaken env
                { conn with
                  input := []
                  wsmsg := (wsmsgAdd 0 env.heap conn.wsmsg conn.input).1 }) = false :=
              serving.flWsClosing_eq
            exact ⟨[], (queues_answerClose unclosed _).congr rfl, Or.inl rfl⟩
          rw [if_neg close] at round
          by_cases ping : waiting.opcode = opcodePing
          · rw [if_pos ping] at round
            rw [Loop.run_of_leave _ round, Conn.backlog, healthy, frame_eq, opcode_eq, payload_eq,
              ping]
            exact ⟨[], (queues_answerPing _ _).congr rfl, Or.inl rfl⟩
          rw [if_neg ping] at round
          rw [Loop.run_of_again (frameRound_decreasing env sync) round,
            receives.backlog_eq failed (by simp [parked, close, ping])]
          have after := added.frameTaken parked
          simp only [Receiver.takeFrame, parked] at after
          exact (after.queues_unparked { serving with } failed rfl asks rfl sync).congr rfl

end

/-! ## The same payload comes back -/

end Jabsocket
