import Jabsocket.Execution
import Jabsocket.FrameEncoding
import Jabsocket.Framer
import Jabsocket.Message
import Jabsocket.Request
import Jabsocket.StreamParser

/-!
# One connection

The browser side of `wsserver.c` and the XMPP side of `cmanager.c` of one connection, as the
handlers which libevent calls.  Besides the state of the program a connection carries the writes
which were queued for the browser and a log of the calls between the two sides.
-/

namespace Jabsocket

/-- `enum _ws_state_t`. -/
inductive WsState where
  | start
  | receiving
  | closing
  | closed
  deriving DecidableEq, Repr

/-- The order of the states in the enumeration. -/
def WsState.rank : WsState → Nat
  | start => 0
  | receiving => 1
  | closing => 2
  | closed => 3

/-- `enum _cm_state_t` of `wsserver.c`. -/
inductive CmState where
  | start
  | created
  | closing
  | closed
  deriving DecidableEq, Repr

/-- `cm_state_t` of `cmanager.c`. -/
inductive ManagerState where
  | start
  | connect
  | forward
  deriving DecidableEq, Repr

/-- The bits of a bufferevent's event mask which the handlers test. -/
structure Events where
  connected : Bool
  error : Bool
  eof : Bool
  deriving DecidableEq, Repr

/-- The bufferevent of the XMPP side: bytes received and not read, and all bytes written. -/
structure XmppBev where
  input : List UInt8
  written : List UInt8
  deriving DecidableEq, Repr

/-- `cmanager_t`; a pointer is `none` when it is `NULL`. -/
structure CManager where
  state : ManagerState
  parser : Option StreamParser
  server : Option (List UInt8)
  bev : Option XmppBev
  dnsbase : Bool
  buffer : Option Buffer
  framer : Option Framer
  deriving DecidableEq, Repr

/-- What is queued on the bufferevent of the browser. -/
inductive Write where
  | response (bytes : List UInt8)
  | frame (opcode : Nat) (payload : List UInt8)
  deriving DecidableEq, Repr

/-- What `cm_onmessage` finds when it is called. -/
structure ManagerView where
  state : ManagerState
  parser : Bool
  buffer : Bool
  bev : Bool
  deriving DecidableEq, Repr

/-- Entries of the log. -/
inductive Call where
  /-- An assignment to `ws_state`. -/
  | wsState (state : WsState)
  /-- `rq_analyze` returned. -/
  | analyzed (accepted : Bool)
  /-- `WSCB_CONNECTED`. -/
  | connected
  /-- `WSCB_MESSAGE`, with what the manager finds. -/
  | message (view : ManagerView)
  /-- `WSCB_CLOSE`. -/
  | close
  /-- `wsconn_delete`. -/
  | delete
  /-- `cm_eventcb` calls `cm_close` after `wsconn_onclosed`; the manager is already freed or not. -/
  | managerClose (freed : Bool)
  /-- A ping is answered; `fl_ws_closing` at that time. -/
  | ping (closing : Bool)
  /-- `wsconn_event_cb` handles the end of the browser's socket. -/
  | browserGone
  /-- `cm_eventcb` is called. -/
  | xmppEvent (events : Events)
  /-- A `NULL` pointer is dereferenced. -/
  | fault
  deriving DecidableEq, Repr

/-- `wsconn_t`. -/
structure Conn where
  wsState : WsState
  cmState : CmState
  flWsClosing : Bool
  flCmClosed : Bool
  req : Request
  wsmsg : WsMsg
  messageBuffer : Buffer
  cm : CManager
  /-- `status` from the browser's Close frame. -/
  status : Nat
  /-- Bytes from the browser which were not read. -/
  input : List UInt8
  /-- Bytes for the browser which were not sent. -/
  pending : List UInt8
  /-- Everything queued for the browser. -/
  queued : List Write
  deleted : Bool
  calls : List Call

/-- The bytes in front of a line feed, without a carriage return at their end. -/
def stripReturn (bytes : List UInt8) : List UInt8 :=
  if bytes.getLast? = some 13 then bytes.dropLast else bytes

/-- The input buffers of libevent.  `evbuffer_readln` with `EVBUFFER_EOL_CRLF` takes out the first
line and returns it without the line feed, or carriage return and line feed, at its end. -/
structure Evbuffer where
  /-- The line and the rest of the input. -/
  readln : List UInt8 → Option (List UInt8 × List UInt8)
  readln_line : ∀ bytes rest, 10 ∉ bytes →
    readln (bytes ++ 10 :: rest) = some (stripReturn bytes, rest)
  readln_none : ∀ bytes, 10 ∉ bytes → readln bytes = none

/-- What a connection is run with: the platform, the configuration, the XML parser, the input
buffers, and the contents of memory which the program does not initialize. -/
structure Environment where
  platform : Platform
  conf : JsConf
  expat : Expat
  evbuffer : Evbuffer
  heap : Heap
  memory : Nat → UInt8

/-- `cm_create`. -/
def cmCreate : CManager :=
  { state := .start
    parser := some streamparserCreate
    server := none
    bev := none
    dnsbase := false
    buffer := some (bufferCreate 0)
    framer := some framerCreate }

/-- `cm_close`. -/
def cmClose (cm : CManager) : CManager :=
  { cm with
    framer := none
    buffer := none
    parser := none
    bev := none
    dnsbase := false
    server := none }

/-- `wsconn_create`. -/
def wsconnCreate (env : Environment) : Conn :=
  { wsState := .start
    cmState := .created
    flWsClosing := false
    flCmClosed := true
    req := rqCreate env.memory
    wsmsg := wsmsgCreate env.conf.maxFrameSize env.conf.maxMessageSize
    messageBuffer := bufferCreate 0
    cm := cmCreate
    status := 0
    input := []
    pending := []
    queued := []
    deleted := false
    calls := [] }

namespace Conn

/-- Add an entry to the log. -/
def log (conn : Conn) (call : Call) : Conn :=
  { conn with calls := conn.calls ++ [call] }

/-- An assignment to `ws_state`. -/
def setWsState (conn : Conn) (state : WsState) : Conn :=
  { conn.log (.wsState state) with wsState := state }

/-- `wsconn_write_frame`. -/
def writeFrame (conn : Conn) (opcode : Nat) (payload : List UInt8) : Conn :=
  { conn with
    pending := wsconnWriteFrame 0 conn.pending opcode payload
    queued := conn.queued ++ [.frame opcode payload] }

/-- `WSCB_CLOSE` for a manager which was created. -/
def closeManager (conn : Conn) : Conn :=
  { conn.log .close with cm := cmClose conn.cm, cmState := .closing }

/-- What `cm_onmessage` finds. -/
def view (conn : Conn) : ManagerView :=
  { state := conn.cm.state
    parser := conn.cm.parser.isSome
    buffer := conn.cm.buffer.isSome
    bev := conn.cm.bev.isSome }

@[simp] theorem setWsState_cmState (conn : Conn) (state : WsState) :
    (conn.setWsState state).cmState = conn.cmState := rfl

@[simp] theorem writeFrame_cmState (conn : Conn) (opcode : Nat) (payload : List UInt8) :
    (conn.writeFrame opcode payload).cmState = conn.cmState := rfl

end Conn

/-- `wsconn_write`. -/
def wsconnWrite (conn : Conn) (data : List UInt8) : Conn :=
  conn.writeFrame opcodeText data

/-- `wsconn_delete`, with `WSCB_DELETE`. -/
def wsconnDelete (conn : Conn) : Conn :=
  { conn.log .delete with deleted := true, cm := cmClose conn.cm }

/-- `wsconn_close`. -/
def wsconnClose (conn : Conn) : Conn :=
  let conn := conn.setWsState .closed
  if conn.cmState = .created then conn.closeManager
  else if conn.flCmClosed then wsconnDelete conn
  else conn

/-- `wsconn_initiate_close`. -/
def wsconnInitiateClose (conn : Conn) (status : Nat) (reason : List UInt8) : Conn :=
  if conn.flWsClosing then conn
  else
    let message := if status > 0 then storeU16 (htons status) ++ reason else []
    let conn := (conn.writeFrame opcodeClose message).setWsState .closing
    let conn := if conn.cmState = .created then conn.closeManager else conn
    { conn.setWsState .closing with flWsClosing := true }

/-- `wsconn_onclosed`. -/
def wsconnOnclosed (conn : Conn) : Conn :=
  let conn := { conn with cmState := .closed, flCmClosed := true }
  match conn.wsState with
  | .receiving => wsconnInitiateClose conn 1001 (text "XMPP server closed")
  | .closed => wsconnDelete conn
  | .start | .closing => conn

/-! ## The XMPP side -/

/-- `cm_eventcb`. -/
def cmEventcb (conn : Conn) (events : Events) : Conn :=
  let conn := conn.log (.xmppEvent events)
  if events.connected then
    match conn.cm.buffer, conn.cm.bev with
    | some buffer, some bev =>
        { conn with
          cm :=
            { conn.cm with
              buffer := some (bufferRemoveData buffer buffer.length)
              bev := some { bev with written := bev.written ++ buffer.data }
              state := .forward } }
    | _, _ => conn.log .fault
  else if events.error then
    let conn := wsconnOnclosed conn
    { conn.log (.managerClose conn.deleted) with cm := cmClose conn.cm }
  else conn

/-- `cm_connect`; `sync` tells whether libevent reports an error before the call returns. -/
def cmConnect (conn : Conn) (sync : Bool) : Conn :=
  let conn :=
    { conn with cm := { conn.cm with bev := some { input := [], written := [] }, dnsbase := true } }
  if sync then cmEventcb conn { connected := false, error := true, eof := false }
  else conn

/-- `cm_onmessage` in `ST_START`. -/
def cmOnStart (env : Environment) (conn : Conn) (message : List UInt8) (sync : Bool) : Conn :=
  match conn.cm.parser with
  | none => conn.log .fault
  | some parser =>
      let parser := (streamparserAdd env.expat parser (cstr message)).1
      let conn := { conn with cm := { conn.cm with parser := some parser } }
      if parser.error then conn
      else
        match conn.cm.buffer with
        | none => conn.log .fault
        | some buffer =>
            let buffer := (bufferAppend 0 buffer message).1
            let conn := { conn with cm := { conn.cm with buffer := some buffer } }
            match parser.server with
            | none => conn
            | some server =>
                let conn :=
                  cmConnect { conn with cm := { conn.cm with server := some server } } sync
                { conn with cm := { conn.cm with state := .connect } }

/-- `cm_onmessage`. -/
def cmOnmessage (env : Environment) (conn : Conn) (message : List UInt8) (sync : Bool) : Conn :=
  match conn.cm.state with
  | .start => cmOnStart env conn message sync
  | .connect => conn
  | .forward =>
      match conn.cm.bev with
      | none => conn.log .fault
      | some bev =>
          { conn with
            cm := { conn.cm with bev := some { bev with written := bev.written ++ message } } }

/-- `is_prefix` on C strings. -/
def isPrefix (start string : List UInt8) : Bool :=
  decide (start.length ≤ (cstr string).length) && (cstr string).take start.length == start

/-- A piece of input begins with the header of a new stream. -/
def isRestart (piece : List UInt8) : Bool :=
  isPrefix (text "<?xml") piece || isPrefix (text "<stream:stream") piece

/-- State of the first loop of `cm_readcb`: the framer, the unread input, whether this is the first
piece, and whether the framer has failed. -/
structure Feeding where
  framer : Framer
  input : List UInt8
  first : Bool
  failed : Bool

/-- One round of the first loop of `cm_readcb`. -/
def feedRound (expat : Expat) (state : Feeding) : Round Feeding :=
  if state.input.isEmpty then .leave state
  else
    let piece := state.input.take 1024
    let framer :=
      if state.first && isRestart piece then framerReset state.framer else state.framer
    match framerAdd expat framer piece with
    | (framer, true) =>
        .again { framer, input := state.input.drop 1024, first := false, failed := false }
    | (framer, false) =>
        .leave { framer, input := state.input.drop 1024, first := false, failed := true }

/-- The first loop of `cm_readcb`. -/
def feedFramer (expat : Expat) (framer : Framer) (input : List UInt8) : Feeding :=
  Loop.run (feedRound expat) (fun state => state.input.length)
    { framer, input, first := true, failed := false }

/-- Size of the static buffer in `cm_readcb`. -/
def frameCapacity : Nat := 65536

/-- One round of the second loop of `cm_readcb`. -/
def forwardRound (heap : Heap) (state : Framer × Conn) : Round (Framer × Conn) :=
  match state.1.frames with
  | [] => .leave state
  | head :: _ =>
      let out := framerGetFrame2 heap state.1 head (dataInit frameCapacity)
      .again (out.1, wsconnWrite state.2 out.2.1.buffer)

/-- The second loop of `cm_readcb`. -/
def forwardFrames (heap : Heap) (framer : Framer) (conn : Conn) : Framer × Conn :=
  Loop.run (forwardRound heap) (fun state => state.1.frames.length) (framer, conn)

/-- `cm_readcb`. -/
def cmReadcb (env : Environment) (conn : Conn) : Conn :=
  match conn.cm.bev, conn.cm.framer with
  | some bev, some framer =>
      let fed := feedFramer env.expat framer bev.input
      let out := if fed.failed then (fed.framer, conn) else forwardFrames env.heap fed.framer conn
      { out.2 with
        cm := { out.2.cm with bev := some { bev with input := fed.input }, framer := some out.1 } }
  | _, _ => conn.log .fault

/-! ## The browser side -/

/-- `wsconn_handshake`. -/
def wsconnHandshake (env : Environment) (conn : Conn) : Conn :=
  let analysis := rqAnalyze env.platform conn.req env.conf (strLocal 1024)
  let response := analysis.1.buffer.take analysis.1.length
  let conn :=
    { conn.log (.analyzed (analysis.2 ≠ 0)) with
      pending := conn.pending ++ response
      queued := conn.queued ++ [.response response] }
  if analysis.2 ≠ 0 then
    { (conn.log .connected).setWsState .receiving with flCmClosed := false }.log .connected
  else wsconnClose conn

/-- One round of the loop of `wsconn_read_cb` in `WS_ST_START`. -/
def handshakeRound (env : Environment) (conn : Conn) : Round Conn :=
  match env.evbuffer.readln conn.input with
  | none => .leave conn
  | some (line, rest) =>
      let conn :=
        { conn with input := rest, req := rqAddLine env.platform conn.req (cstr line) }
      if conn.req.error then .leave (wsconnClose conn)
      else if conn.req.done then .leave (wsconnHandshake env conn)
      else .again conn

/-- A Close frame from the browser, with its payload. -/
def answerClose (conn : Conn) (payload : List UInt8) : Conn :=
  let status :=
    match payload with
    | high :: low :: _ => ntohs (loadU16 high low)
    | _ => 1001
  wsconnInitiateClose { conn with status } status (payload.drop 2)

/-- A ping from the browser, with its payload. -/
def answerPing (conn : Conn) (payload : List UInt8) : Conn :=
  (conn.log (.ping conn.flWsClosing)).writeFrame opcodePong payload

/-- One round of the loop of `wsconn_process_frame`, in a given `size_t`. -/
def frameRoundSized (sizeMod : Nat) (env : Environment) (sync : Bool) (conn : Conn) : Round Conn :=
  if conn.wsmsg.error then .leave (wsconnClose conn)
  else if conn.wsmsg.frame then
    let out := wsmsgGetFrame sizeMod env.heap conn.wsmsg (bufferCreate 0) false 0 false
    let conn := { conn with wsmsg := out.wsmsg }
    if !out.result then .leave (wsconnClose conn)
    else if out.opcode = opcodeClose then .leave (answerClose conn out.buffer.data)
    else if out.opcode = opcodePing then .leave (answerPing conn out.buffer.data)
    else .again conn
  else if !conn.wsmsg.message then .leave conn
  else
    let out := wsmsgGetMessage sizeMod env.heap conn.wsmsg conn.messageBuffer 0
    let conn := { conn with wsmsg := out.wsmsg, messageBuffer := out.buffer }
    if out.opcode = opcodeText then
      .again (cmOnmessage env (conn.log (.message conn.view)) out.buffer.data sync)
    else if out.opcode = opcodeBinary then .leave (wsconnClose conn)
    else .again conn

/-- `wsconn_process_frame`, in a given `size_t`. -/
def wsconnProcessFrameSized (sizeMod : Nat) (env : Environment) (conn : Conn) (sync : Bool) :
    Conn :=
  let conn :=
    { conn with input := [], wsmsg := (wsmsgAdd sizeMod env.heap conn.wsmsg conn.input).1 }
  Loop.run (frameRoundSized sizeMod env sync) (fun conn => pendingMeasure conn.wsmsg) conn

/-- `wsconn_read_cb`, in a given `size_t`. -/
def wsconnReadCbSized (sizeMod : Nat) (env : Environment) (conn : Conn) (sync : Bool) : Conn :=
  match conn.wsState with
  | .start => Loop.run (handshakeRound env) (fun conn => conn.input.length) conn
  | .receiving => wsconnProcessFrameSized sizeMod env conn sync
  | .closing | .closed => conn

/-- One round of the loop of `wsconn_process_frame`, where no frame length is negative and no sum
wraps. -/
def frameRound (env : Environment) (sync : Bool) (conn : Conn) : Round Conn :=
  frameRoundSized 0 env sync conn

/-- `wsconn_process_frame`, where no frame length is negative and no sum wraps. -/
def wsconnProcessFrame (env : Environment) (conn : Conn) (sync : Bool) : Conn :=
  wsconnProcessFrameSized 0 env conn sync

/-- `wsconn_read_cb`, where no frame length is negative and no sum wraps. -/
def wsconnReadCb (env : Environment) (conn : Conn) (sync : Bool) : Conn :=
  wsconnReadCbSized 0 env conn sync

theorem wsconnProcessFrame_def (env : Environment) (conn : Conn) (sync : Bool) :
    wsconnProcessFrame env conn sync =
      Loop.run (frameRound env sync) (fun conn => pendingMeasure conn.wsmsg)
        { conn with input := [], wsmsg := (wsmsgAdd 0 env.heap conn.wsmsg conn.input).1 } := rfl

theorem wsconnReadCb_def (env : Environment) (conn : Conn) (sync : Bool) :
    wsconnReadCb env conn sync =
      match conn.wsState with
      | .start => Loop.run (handshakeRound env) (fun conn => conn.input.length) conn
      | .receiving => wsconnProcessFrame env conn sync
      | .closing | .closed => conn := rfl

theorem wsconnReadCb_ended (env : Environment) (conn : Conn)
    (ended : conn.wsState = .closing ∨ conn.wsState = .closed) (sync : Bool) :
    wsconnReadCb env conn sync = conn := by
  rw [wsconnReadCb_def]
  rcases ended with state | state <;> rw [state]

/-- `wsconn_write_cb`. -/
def wsconnWriteCb (conn : Conn) : Conn :=
  if conn.wsState = .closing ∧ conn.pending = [] then wsconnDelete conn else conn

/-- `wsconn_event_cb`. -/
def wsconnEventCb (conn : Conn) (events : Events) : Conn :=
  if events.error || events.eof then wsconnClose (conn.log .browserGone) else conn

/-! ## Runs -/

/-- A handler call, with what the network did before it. -/
inductive Label where
  /-- `wsconn_read_cb` after some bytes arrived; `sync` is for a call of `cm_connect`. -/
  | read (bytes : List UInt8) (sync : Bool)
  /-- `wsconn_write_cb` after some bytes were sent. -/
  | write (sent : Nat)
  /-- `wsconn_event_cb`. -/
  | event (events : Events)
  /-- `cm_readcb` after some bytes arrived. -/
  | managerRead (bytes : List UInt8)
  /-- `cm_eventcb`. -/
  | managerEvent (events : Events)
  deriving DecidableEq, Repr

/-- One handler call, in a given `size_t`.  No handler is called on a bufferevent which was
freed. -/
def connStepSized (sizeMod : Nat) (env : Environment) (conn : Conn) (label : Label) :
    Option Conn :=
  if conn.deleted then none
  else
    match label with
    | .read bytes sync =>
        some (wsconnReadCbSized sizeMod env { conn with input := conn.input ++ bytes } sync)
    | .write sent => some (wsconnWriteCb { conn with pending := conn.pending.drop sent })
    | .event events => some (wsconnEventCb conn events)
    | .managerRead bytes =>
        match conn.cm.bev with
        | none => none
        | some bev =>
            some (cmReadcb env
              { conn with
                cm := { conn.cm with bev := some { bev with input := bev.input ++ bytes } } })
    | .managerEvent events => if conn.cm.bev.isSome then some (cmEventcb conn events) else none

/-- One handler call, where no frame length is negative and no sum wraps. -/
def connStep (env : Environment) (conn : Conn) (label : Label) : Option Conn :=
  connStepSized 0 env conn label

/-- What the handlers do, each on a bufferevent which exists. -/
inductive Handles (env : Environment) (conn : Conn) : Label → Conn → Prop
  | read (bytes : List UInt8) (sync : Bool) :
      Handles env conn (.read bytes sync)
        (wsconnReadCb env { conn with input := conn.input ++ bytes } sync)
  | write (sent : Nat) :
      Handles env conn (.write sent) (wsconnWriteCb { conn with pending := conn.pending.drop sent })
  | event (events : Events) : Handles env conn (.event events) (wsconnEventCb conn events)
  | managerRead (bytes : List UInt8) {bev : XmppBev} (bev_eq : conn.cm.bev = some bev) :
      Handles env conn (.managerRead bytes)
        (cmReadcb env
          { conn with
            cm := { conn.cm with bev := some { bev with input := bev.input ++ bytes } } })
  | managerEvent (events : Events) (present : conn.cm.bev.isSome = true) :
      Handles env conn (.managerEvent events) (cmEventcb conn events)

/-- A handler call does what its handler does, on a connection which was not deleted. -/
theorem handles_of_connStep {env : Environment} {conn next : Conn} {label : Label}
    (stepped : connStep env conn label = some next) :
    conn.deleted = false ∧ Handles env conn label next := by
  unfold connStep connStepSized at stepped
  split at stepped
  · cases stepped
  rename_i alive
  refine ⟨by simpa using alive, ?_⟩
  cases label with
  | read bytes sync =>
      injection stepped with next_eq
      exact next_eq ▸ .read bytes sync
  | write sent =>
      injection stepped with next_eq
      exact next_eq ▸ .write sent
  | event events =>
      injection stepped with next_eq
      exact next_eq ▸ .event events
  | managerRead bytes =>
      dsimp only at stepped
      split at stepped
      · cases stepped
      · rename_i bev bev_eq
        injection stepped with next_eq
        exact next_eq ▸ .managerRead bytes bev_eq
  | managerEvent events =>
      dsimp only at stepped
      split_ifs at stepped with present
      injection stepped with next_eq
      exact next_eq ▸ .managerEvent events present

/-- A state which a new connection can reach. -/
def Reachable (env : Environment) (conn : Conn) : Prop :=
  ∃ labels, Execution.run (connStep env) (wsconnCreate env) labels = some conn

/-! ## Termination of the loops -/

/-- What the browser's bytes go through: the unread bytes, the receiver and the buffer for its
messages. -/
def Conn.intake (conn : Conn) : List UInt8 × WsMsg × Buffer :=
  (conn.input, conn.wsmsg, conn.messageBuffer)

theorem wsconnInitiateClose_intake (conn : Conn) (status : Nat) (reason : List UInt8) :
    (wsconnInitiateClose conn status reason).intake = conn.intake := by
  unfold wsconnInitiateClose
  generalize (if status > 0 then storeU16 (htons status) ++ reason else []) = message
  dsimp only
  split_ifs <;> rfl

theorem wsconnOnclosed_intake (conn : Conn) : (wsconnOnclosed conn).intake = conn.intake := by
  unfold wsconnOnclosed
  dsimp only
  split
  · exact wsconnInitiateClose_intake _ _ _
  · rfl
  · rfl
  · rfl

theorem cmEventcb_intake (conn : Conn) (events : Events) :
    (cmEventcb conn events).intake = conn.intake := by
  unfold cmEventcb
  dsimp only
  split_ifs
  · split <;> rfl
  · exact wsconnOnclosed_intake _
  · rfl

theorem cmConnect_intake (conn : Conn) (sync : Bool) :
    (cmConnect conn sync).intake = conn.intake := by
  unfold cmConnect
  dsimp only
  split_ifs
  · exact cmEventcb_intake _ _
  · rfl

/-- The manager does not touch what the browser's bytes go through. -/
theorem cmOnmessage_intake (env : Environment) (conn : Conn) (message : List UInt8)
    (sync : Bool) : (cmOnmessage env conn message sync).intake = conn.intake := by
  unfold cmOnmessage cmOnStart
  dsimp only
  repeat' split
  all_goals first | exact cmConnect_intake _ _ | rfl

theorem cmOnmessage_wsmsg (env : Environment) (conn : Conn) (message : List UInt8) (sync : Bool) :
    (cmOnmessage env conn message sync).wsmsg = conn.wsmsg :=
  congrArg (fun intake => intake.2.1) (cmOnmessage_intake env conn message sync)

theorem wsmsgGetFrame_parked (heap : Heap) {wsmsg : WsMsg} (parked : wsmsg.frame = true) :
    (wsmsgGetFrame 0 heap wsmsg (bufferCreate 0) false 0 false).opcode = wsmsg.opcode ∧
      (wsmsgGetFrame 0 heap wsmsg (bufferCreate 0) false 0 false).result = true := by
  have moved := bufferMove_unlimited wsmsg.frameData (bufferCreate_maxLength 0)
  simp [wsmsgGetFrame, parked, moved.2.2.2]

/-- The connection when its control frame was taken. -/
def Conn.frameTaken (env : Environment) (conn : Conn) : Conn :=
  { conn with wsmsg := (wsmsgGetFrame 0 env.heap conn.wsmsg (bufferCreate 0) false 0 false).wsmsg }

/-- The connection when its message was taken. -/
def Conn.messageTaken (env : Environment) (conn : Conn) : Conn :=
  let out := wsmsgGetMessage 0 env.heap conn.wsmsg conn.messageBuffer 0
  { conn with wsmsg := out.wsmsg, messageBuffer := out.buffer }

/-- The ways in which a round of the frame loop can go. -/
inductive FrameStep (env : Environment) (sync : Bool) (conn : Conn) : Round Conn → Prop
  | failed (failed : conn.wsmsg.error = true) :
      FrameStep env sync conn (.leave (wsconnClose conn))
  | close (payload : List UInt8) (healthy : conn.wsmsg.error = false)
      (parked : conn.wsmsg.frame = true) (opcode_eq : conn.wsmsg.opcode = opcodeClose) :
      FrameStep env sync conn (.leave (answerClose (conn.frameTaken env) payload))
  | ping (payload : List UInt8) (healthy : conn.wsmsg.error = false)
      (parked : conn.wsmsg.frame = true) (opcode_eq : conn.wsmsg.opcode = opcodePing) :
      FrameStep env sync conn (.leave (answerPing (conn.frameTaken env) payload))
  | control (healthy : conn.wsmsg.error = false) (parked : conn.wsmsg.frame = true)
      (opcode_ne : conn.wsmsg.opcode ≠ opcodePing) :
      FrameStep env sync conn (.again (conn.frameTaken env))
  | idle (healthy : conn.wsmsg.error = false) (unparked : conn.wsmsg.frame = false)
      (empty : conn.wsmsg.message = false) : FrameStep env sync conn (.leave conn)
  | text (payload : List UInt8) (healthy : conn.wsmsg.error = false)
      (unparked : conn.wsmsg.frame = false) (complete : conn.wsmsg.message = true) :
      FrameStep env sync conn
        (.again (cmOnmessage env
          ((conn.messageTaken env).log (.message (conn.messageTaken env).view)) payload sync))
  | binary (healthy : conn.wsmsg.error = false) (unparked : conn.wsmsg.frame = false)
      (complete : conn.wsmsg.message = true) :
      FrameStep env sync conn (.leave (wsconnClose (conn.messageTaken env)))
  | other (healthy : conn.wsmsg.error = false) (unparked : conn.wsmsg.frame = false)
      (complete : conn.wsmsg.message = true) :
      FrameStep env sync conn (.again (conn.messageTaken env))

/-- A round of the frame loop goes in one of these ways. -/
theorem frameStep_of_eq {env : Environment} {sync : Bool} {conn : Conn} {round : Round Conn}
    (taken : frameRound env sync conn = round) : FrameStep env sync conn round := by
  rw [← taken]
  unfold frameRound frameRoundSized
  dsimp only
  split_ifs with failed parked result close ping idle isText isBinary
  · exact .failed failed
  · simp [(wsmsgGetFrame_parked env.heap parked).2] at result
  · rw [(wsmsgGetFrame_parked env.heap parked).1] at close
    exact .close _ (by simpa using failed) parked close
  · rw [(wsmsgGetFrame_parked env.heap parked).1] at ping
    exact .ping _ (by simpa using failed) parked ping
  · rw [(wsmsgGetFrame_parked env.heap parked).1] at ping
    exact .control (by simpa using failed) parked ping
  · exact .idle (by simpa using failed) (by simpa using parked) (by simpa using idle)
  · exact .text _ (by simpa using failed) (by simpa using parked) (by simpa using idle)
  · exact .binary (by simpa using failed) (by simpa using parked) (by simpa using idle)
  · exact .other (by simpa using failed) (by simpa using parked) (by simpa using idle)

/-- Every round of the frame loop takes a frame or a message. -/
theorem frameRound_decreasing (env : Environment) (sync : Bool) :
    Loop.Decreasing (frameRound env sync) (fun conn => pendingMeasure conn.wsmsg) := by
  intro conn next again
  cases frameStep_of_eq again with
  | control _ parked _ =>
      exact pendingMeasure_wsmsgGetFrame_lt env.heap parked _ _ _ _
  | text _ _ _ complete =>
      dsimp only
      rw [cmOnmessage_wsmsg]
      exact pendingMeasure_wsmsgGetMessage_lt env.heap complete _ _
  | other _ _ complete =>
      exact pendingMeasure_wsmsgGetMessage_lt env.heap complete _ _

/-- A line ends at the first line feed. -/
theorem Evbuffer.readln_eq_some_iff (evbuffer : Evbuffer) {input line rest : List UInt8} :
    evbuffer.readln input = some (line, rest) ↔
      ∃ bytes, 10 ∉ bytes ∧ input = bytes ++ 10 :: rest ∧ line = stripReturn bytes := by
  constructor
  · intro found
    by_cases member : 10 ∈ input
    · obtain ⟨bytes, behind, rfl, whole⟩ := List.eq_append_cons_of_mem member
      rw [evbuffer.readln_line bytes behind whole] at found
      obtain ⟨rfl, rfl⟩ := Prod.mk.inj (Option.some.inj found)
      exact ⟨bytes, whole, rfl, rfl⟩
    · rw [evbuffer.readln_none input member] at found
      cases found
  · rintro ⟨bytes, whole, rfl, rfl⟩
    exact evbuffer.readln_line bytes rest whole

theorem Evbuffer.readln_length (evbuffer : Evbuffer) {input line rest : List UInt8}
    (found : evbuffer.readln input = some (line, rest)) : rest.length < input.length := by
  obtain ⟨bytes, -, rfl, -⟩ := evbuffer.readln_eq_some_iff.mp found
  rw [List.length_append, List.length_cons]
  omega

/-- Every round of the handshake loop takes a line. -/
theorem handshakeRound_decreasing (env : Environment) :
    Loop.Decreasing (handshakeRound env) (fun conn => conn.input.length) := by
  intro conn next again
  unfold handshakeRound at again
  split at again
  · cases again
  · rename_i line rest found
    dsimp only at again
    split_ifs at again
    injection again with next_eq
    rw [← next_eq]
    exact env.evbuffer.readln_length found

theorem feedRound_decreasing (expat : Expat) :
    Loop.Decreasing (feedRound expat) (fun state => state.input.length) := by
  intro state next again
  unfold feedRound at again
  split_ifs at again with finished
  dsimp only at again
  split at again
  · injection again with next_eq
    rw [← next_eq]
    have unread : state.input ≠ [] := by simpa using finished
    have positive := List.length_pos_of_ne_nil unread
    simp only [List.length_drop]
    omega
  · cases again

theorem framerGetFrame2_frames (heap : Heap) (framer : Framer) (head : QueuedFrame)
    (data : Data) : (framerGetFrame2 heap framer head data).1.frames = framer.frames.tail := by
  simp only [framerGetFrame2, framerDrop, framerSkipTo]
  split_ifs <;> rfl

/-- Every round of the forwarding loop takes a frame. -/
theorem forwardRound_decreasing (heap : Heap) :
    Loop.Decreasing (forwardRound heap) (fun state => state.1.frames.length) := by
  intro state next again
  unfold forwardRound at again
  split at again
  · cases again
  · rename_i head rest frames_eq
    injection again with next_eq
    rw [← next_eq]
    simp [framerGetFrame2_frames, frames_eq]

/-! ## Properties which the loops keep -/

/-- What holds while the lines of a request are read gives what holds behind the loop. -/
theorem handshake_induction {env : Environment} (during after : Conn → Prop)
    (reads : ∀ state line rest, during state →
      during { state with input := rest, req := rqAddLine env.platform state.req (cstr line) })
    (waits : ∀ state, during state → after state)
    (closes : ∀ state, during state → after (wsconnClose state))
    (decides : ∀ state, during state → after (wsconnHandshake env state))
    {conn : Conn} (start : during conn) :
    after (Loop.run (handshakeRound env) (fun conn => conn.input.length) conn) := by
  refine Loop.run_induction during after (handshakeRound_decreasing env) ?_ ?_ start
  · intro state next held again
    unfold handshakeRound at again
    split at again
    · cases again
    · dsimp only at again
      split_ifs at again
      injection again with next_eq
      rw [← next_eq]
      exact reads state _ _ held
  · intro state final held leave
    unfold handshakeRound at leave
    split at leave
    · injection leave with final_eq
      rw [← final_eq]
      exact waits state held
    · dsimp only at leave
      split_ifs at leave <;> injection leave with final_eq <;> rw [← final_eq]
      · exact closes _ (reads state _ _ held)
      · exact decides _ (reads state _ _ held)

/-- What every stanza which is written keeps is kept by the forwarding loop. -/
theorem forwardFrames_keeps (heap : Heap) (kept : Conn → Prop)
    (writes : ∀ state payload, kept state → kept (wsconnWrite state payload)) (framer : Framer)
    {conn : Conn} (start : kept conn) : kept (forwardFrames heap framer conn).2 := by
  refine Loop.run_induction (fun state : Framer × Conn => kept state.2) (fun state => kept state.2)
    (forwardRound_decreasing heap) ?_ ?_ start
  · intro state next held again
    unfold forwardRound at again
    split at again
    · cases again
    · injection again with next_eq
      rw [← next_eq]
      exact writes state.2 _ held
  · intro state final held leave
    unfold forwardRound at leave
    split at leave
    · injection leave with final_eq
      rwa [← final_eq]
    · cases leave

end Jabsocket
