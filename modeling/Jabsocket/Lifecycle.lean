import Jabsocket.History

/-!
# The life of a connection

Between two handler calls a connection is in one of four phases.  Each phase fixes the two states,
the two flags and the resources of the manager, and every handler leads from phases to phases.
-/

namespace Jabsocket

/-! ## Phases -/

/-- All resources of the manager were released. -/
structure CManager.Released (cm : CManager) : Prop where
  parser_eq : cm.parser = none
  buffer_eq : cm.buffer = none
  framer_eq : cm.framer = none
  bev_eq : cm.bev = none

/-- The manager waits for the header of the browser's stream. -/
structure CManager.Waiting (cm : CManager) : Prop where
  state_eq : cm.state = .start
  parser_some : cm.parser.isSome = true
  buffer_some : cm.buffer.isSome = true
  framer_some : cm.framer.isSome = true
  bev_eq : cm.bev = none

/-- The manager has a bufferevent for the XMPP server. -/
structure CManager.Linked (cm : CManager) : Prop where
  state_ne : cm.state ≠ .start
  buffer_some : cm.buffer.isSome = true
  framer_some : cm.framer.isSome = true
  bev_some : cm.bev.isSome = true

theorem cmClose_released (cm : CManager) : (cmClose cm).Released :=
  ⟨rfl, rfl, rfl, rfl⟩

/-- The log and the queue of a connection, with the ledger entries which are no fields of it. -/
def Conn.Tracks (conn : Conn) (gone closed accepted : Bool) (progress : Progress) : Prop :=
  History
    { wsState := conn.wsState, closed, deleted := conn.deleted, accepted, gone, progress }
    conn.calls conn.queued

/-- The handshake is not complete. -/
structure Fresh (conn : Conn) : Prop where
  wsState_eq : conn.wsState = .start
  cmState_eq : conn.cmState = .created
  flWsClosing_eq : conn.flWsClosing = false
  flCmClosed_eq : conn.flCmClosed = true
  deleted_eq : conn.deleted = false
  manager : conn.cm.Waiting
  tracks : conn.Tracks false false false .silent

/-- The handshake was accepted and no side has closed. -/
structure Receiving (conn : Conn) : Prop where
  wsState_eq : conn.wsState = .receiving
  cmState_eq : conn.cmState = .created
  flWsClosing_eq : conn.flWsClosing = false
  flCmClosed_eq : conn.flCmClosed = false
  deleted_eq : conn.deleted = false
  tracks : conn.Tracks false false true .answered

/-- Messages are exchanged. -/
structure Serving (conn : Conn) : Prop extends Receiving conn where
  manager : conn.cm.Waiting ∨ conn.cm.Linked

/-- A Close frame is queued, because the manager has closed or because the browser asked for it. -/
structure Draining (byManager : Bool) (conn : Conn) : Prop where
  wsState_eq : conn.wsState = .closing
  cmState_eq : conn.cmState = if byManager then .closed else .closing
  flWsClosing_eq : conn.flWsClosing = true
  flCmClosed_eq : conn.flCmClosed = byManager
  manager : conn.cm.Released
  tracks : ∃ progress, (progress = .ended ∨ progress = .spoiled) ∧
    conn.Tracks false (!byManager) true progress

/-- The frame loop goes on after the manager has closed in the middle of it. -/
structure Stalled (conn : Conn) : Prop extends Draining true conn where
  state_eq : conn.cm.state = .connect
  deleted_eq : conn.deleted = false

/-- What `wsconn_close` finds: a manager which was not told to close, or one which is closed. -/
structure Closable (gone : Bool) (conn : Conn) : Prop where
  tracks : ∃ closed accepted progress, conn.Tracks gone closed accepted progress ∧
    (conn.cmState = .created → closed = false)
  released : conn.cmState ≠ .created → conn.cm.Released

/-- The browser side is closed. -/
structure Shut (gone : Bool) (conn : Conn) : Prop extends Closable gone conn where
  wsState_eq : conn.wsState = .closed
  cmState_ne : conn.cmState ≠ .created

/-- The phases of a connection; `gone` tells whether the end of the browser's socket was handled. -/
inductive Phase : Bool → Conn → Prop
  | fresh {conn : Conn} (fresh : Fresh conn) : Phase false conn
  | serving {conn : Conn} (serving : Serving conn) : Phase false conn
  | draining {byManager : Bool} {conn : Conn} (draining : Draining byManager conn) :
      Phase false conn
  | shut {gone : Bool} {conn : Conn} (shut : Shut gone conn) : Phase gone conn

/-- The states between two rounds of the frame loop. -/
def InLoop (conn : Conn) : Prop :=
  Serving conn ∨ Stalled conn

theorem fresh_wsconnCreate (env : Environment) : Fresh (wsconnCreate env) where
  wsState_eq := rfl
  cmState_eq := rfl
  flWsClosing_eq := rfl
  flCmClosed_eq := rfl
  deleted_eq := rfl
  manager := ⟨rfl, rfl, rfl, rfl, rfl⟩
  tracks := History.nil

/-! ## Closing -/

section

variable {conn : Conn} {gone : Bool}

theorem Closable.close (closable : Closable gone conn) (alive : conn.deleted = false) :
    Shut gone (wsconnClose conn) := by
  obtain ⟨closed, accepted, progress, tracks, opened⟩ := closable.tracks
  have forward : conn.wsState.rank ≤ WsState.closed.rank := by
    cases conn.wsState <;> decide
  have assigned := History.wsState tracks .closed forward
  simp only [wsconnClose]
  split
  · rename_i created
    exact
      { tracks := ⟨true, accepted, progress, assigned.close (opened created), by
          simp [Conn.closeManager]⟩
        released := fun _ => cmClose_released _
        wsState_eq := rfl
        cmState_ne := by simp [Conn.closeManager] }
  · rename_i other
    have kept : conn.cmState = .created → closed = false := fun created => absurd created other
    split
    · exact
        { tracks := ⟨closed, accepted, progress, assigned.delete alive, kept⟩
          released := fun _ => cmClose_released _
          wsState_eq := rfl
          cmState_ne := other }
    · exact
        { tracks := ⟨closed, accepted, progress, assigned, kept⟩
          released := fun _ => closable.released other
          wsState_eq := rfl
          cmState_ne := other }

theorem Closable.browserGone (closable : Closable gone conn) :
    Closable true (conn.log .browserGone) := by
  obtain ⟨closed, accepted, progress, tracks, opened⟩ := closable.tracks
  exact ⟨⟨closed, accepted, progress, History.gone tracks, opened⟩, closable.released⟩

theorem Fresh.closable (fresh : Fresh conn) : Closable false conn where
  tracks := ⟨false, false, .silent, fresh.tracks, fun _ => rfl⟩
  released := fun other => absurd fresh.cmState_eq other

theorem Receiving.closable (receiving : Receiving conn) : Closable false conn where
  tracks := ⟨false, true, .answered, receiving.tracks, fun _ => rfl⟩
  released := fun other => absurd receiving.cmState_eq other

theorem Draining.cmState_ne {byManager : Bool} (draining : Draining byManager conn) :
    conn.cmState ≠ .created := by
  rw [draining.cmState_eq]
  cases byManager <;> simp

theorem Draining.closable {byManager : Bool} (draining : Draining byManager conn) :
    Closable false conn := by
  obtain ⟨progress, -, tracks⟩ := draining.tracks
  exact ⟨⟨!byManager, true, progress, tracks, fun created =>
    absurd created draining.cmState_ne⟩, fun _ => draining.manager⟩

theorem InLoop.closable (inLoop : InLoop conn) : Closable false conn := by
  obtain serving | stalled := inLoop
  · exact serving.closable
  · exact stalled.toDraining.closable

theorem InLoop.deleted_eq (inLoop : InLoop conn) : conn.deleted = false := by
  obtain serving | stalled := inLoop
  · exact serving.deleted_eq
  · exact stalled.deleted_eq

theorem Phase.closable (phase : Phase gone conn) : Closable gone conn := by
  cases phase with
  | fresh fresh => exact fresh.closable
  | serving serving => exact serving.closable
  | draining draining => exact draining.closable
  | shut shut => exact shut.toClosable

/-- `wsconn_initiate_close` when a Close frame was received. -/
theorem Receiving.initiateClose (receiving : Receiving conn) (status : Nat)
    (reason : List UInt8) : Draining false (wsconnInitiateClose conn status reason) := by
  have forward : conn.wsState.rank ≤ WsState.closing.rank := by
    rw [receiving.wsState_eq]
    decide
  simp only [wsconnInitiateClose, receiving.flWsClosing_eq, Bool.false_eq_true, if_false,
    Conn.setWsState_cmState, Conn.writeFrame_cmState, receiving.cmState_eq, if_true]
  have ended := History.closeFrame receiving.tracks
    (if status > 0 then storeU16 (htons status) ++ reason else []) rfl rfl
  have closed := ((ended.wsState .closing forward).close rfl).wsState .closing (Nat.le_refl _)
  exact
    { wsState_eq := rfl
      cmState_eq := rfl
      flWsClosing_eq := rfl
      flCmClosed_eq := receiving.flCmClosed_eq
      manager := cmClose_released _
      tracks := ⟨.ended, Or.inl rfl, closed⟩ }

/-- `cm_eventcb` reports an error of the XMPP side: the browser is sent a Close frame. -/
theorem cmEventcb_error (receiving : conn.wsState = .receiving)
    (unclosed : conn.flWsClosing = false) (alive : conn.deleted = false) {events : Events}
    (unconnected : events.connected = false) (error : events.error = true) :
    cmEventcb conn events =
      { conn with
        wsState := .closing
        cmState := .closed
        flCmClosed := true
        flWsClosing := true
        pending := wsconnWriteFrame 0 conn.pending opcodeClose
          (storeU16 (htons 1001) ++ text "XMPP server closed")
        queued := conn.queued ++
          [.frame opcodeClose (storeU16 (htons 1001) ++ text "XMPP server closed")]
        calls := conn.calls ++ [.xmppEvent events] ++ [.wsState .closing] ++
          [.wsState .closing] ++ [.managerClose false]
        cm := cmClose conn.cm } := by
  simp [cmEventcb, unconnected, error, wsconnOnclosed, Conn.log, receiving, wsconnInitiateClose,
    unclosed, Conn.writeFrame, Conn.setWsState, alive]

theorem Receiving.managerError (receiving : Receiving conn) {events : Events}
    (unconnected : events.connected = false) (error : events.error = true) :
    Draining true (cmEventcb conn events) ∧ (cmEventcb conn events).deleted = false := by
  have forward : conn.wsState.rank ≤ WsState.closing.rank := by
    rw [receiving.wsState_eq]
    decide
  have noted := History.harmless receiving.tracks (.xmppEvent events) trivial
  have ended := noted.closeFrame (storeU16 (htons 1001) ++ text "XMPP server closed") rfl rfl
  have assigned := (ended.wsState .closing forward).wsState .closing (Nat.le_refl _)
  have closed := assigned.harmless (.managerClose false) trivial
  rw [cmEventcb_error receiving.wsState_eq receiving.flWsClosing_eq receiving.deleted_eq unconnected
    error]
  exact ⟨
    { wsState_eq := rfl
      cmState_eq := rfl
      flWsClosing_eq := rfl
      flCmClosed_eq := rfl
      manager := cmClose_released _
      tracks := ⟨.ended, Or.inl rfl, closed⟩ }, receiving.deleted_eq⟩

/-! ## The XMPP side -/

/-- A manager with a bufferevent is linked. -/
theorem Serving.linked (serving : Serving conn) (present : conn.cm.bev.isSome = true) :
    conn.cm.Linked := by
  obtain waiting | linked := serving.manager
  · simp [waiting.bev_eq] at present
  · exact linked

/-- Bytes of the XMPP server arrive. -/
theorem Serving.received (serving : Serving conn) {bev : XmppBev}
    (bev_eq : conn.cm.bev = some bev) (bytes : List UInt8) :
    Serving
      { conn with
        cm := { conn.cm with bev := some { bev with input := bev.input ++ bytes } } } := by
  have linked := serving.linked (by rw [bev_eq]; rfl)
  exact
    { serving with
      manager := Or.inr ⟨linked.state_ne, linked.buffer_some, linked.framer_some, rfl⟩ }

/-- When the connection is established, what was stored is written. -/
theorem cmEventcb_connected {buffer : Buffer} (buffer_eq : conn.cm.buffer = some buffer)
    {bev : XmppBev} (bev_eq : conn.cm.bev = some bev) {events : Events}
    (connected : events.connected = true) :
    cmEventcb conn events =
      { conn.log (.xmppEvent events) with
        cm :=
          { conn.cm with
            buffer := some (bufferRemoveData buffer buffer.length)
            bev := some { bev with written := bev.written ++ buffer.data }
            state := .forward } } := by
  simp [cmEventcb, connected, Conn.log, buffer_eq, bev_eq]

theorem Serving.managerEvent (serving : Serving conn) (present : conn.cm.bev.isSome = true)
    (events : Events) :
    Serving (cmEventcb conn events) ∨ Draining true (cmEventcb conn events) := by
  have linked := serving.linked present
  have noted := History.harmless serving.tracks (.xmppEvent events) trivial
  cases connected : events.connected with
  | true =>
      obtain ⟨buffer, buffer_eq⟩ := Option.isSome_iff_exists.mp linked.buffer_some
      obtain ⟨bev, bev_eq⟩ := Option.isSome_iff_exists.mp linked.bev_some
      rw [cmEventcb_connected buffer_eq bev_eq connected]
      exact Or.inl
        { serving with
          tracks := noted
          manager := Or.inr ⟨by simp, rfl, linked.framer_some, rfl⟩ }
  | false =>
      cases error : events.error with
      | true => exact Or.inr (serving.managerError connected error).1
      | false =>
          have outcome : cmEventcb conn events = conn.log (.xmppEvent events) := by
            simp [cmEventcb, connected, error]
          rw [outcome]
          exact Or.inl { serving with tracks := noted, manager := Or.inr { linked with } }

/-- A message for the manager, while the handshake of the XMPP side is not begun. -/
theorem Receiving.onStart (env : Environment) (receiving : Receiving conn)
    (waiting : conn.cm.Waiting) (message : List UInt8) (sync : Bool) :
    InLoop (cmOnStart env conn message sync) := by
  obtain ⟨parser, parser_eq⟩ := Option.isSome_iff_exists.mp waiting.parser_some
  obtain ⟨buffer, buffer_eq⟩ := Option.isSome_iff_exists.mp waiting.buffer_some
  simp only [cmOnStart, parser_eq, buffer_eq]
  generalize (streamparserAdd env.expat parser (cstr message)).1 = parser'
  generalize (bufferAppend 0 buffer message).1 = buffer'
  split
  · exact Or.inl
      { receiving with
        manager := Or.inl ⟨waiting.state_eq, rfl, by simp, waiting.framer_some,
          waiting.bev_eq⟩ }
  · split
    · exact Or.inl
        { receiving with
          manager := Or.inl ⟨waiting.state_eq, rfl, rfl, waiting.framer_some, waiting.bev_eq⟩ }
    · rename_i server server_eq
      cases sync with
      | false =>
          exact Or.inl
            { receiving with
              manager := Or.inr ⟨by simp, rfl, waiting.framer_some, rfl⟩ }
      | true =>
          have connecting : Receiving
              { conn with
                cm :=
                  { conn.cm with
                    parser := some parser'
                    buffer := some buffer'
                    server := some server
                    bev := some { input := [], written := [] }
                    dnsbase := true } } := { receiving with }
          obtain ⟨draining, alive⟩ := connecting.managerError
            (show Events.connected { connected := false, error := true, eof := false } = false
              from rfl) rfl
          exact Or.inr
            { draining with
              manager := { draining.manager with }
              state_eq := rfl
              deleted_eq := alive }

/-- A message for the manager. -/
theorem InLoop.onmessage (env : Environment) (inLoop : InLoop conn) (message : List UInt8)
    (sync : Bool) :
    InLoop (cmOnmessage env (conn.log (.message conn.view)) message sync) := by
  obtain serving | stalled := inLoop
  · have ready : conn.view.Ready := by
      obtain waiting | linked := serving.manager
      · exact ⟨fun _ => ⟨waiting.parser_some, waiting.buffer_some⟩,
          fun forward => by simp [Conn.view, waiting.state_eq] at forward⟩
      · exact ⟨fun start => absurd start linked.state_ne, fun _ => linked.bev_some⟩
    have noted : Receiving (conn.log (.message conn.view)) :=
      { serving with tracks := History.message serving.tracks conn.view rfl rfl ready }
    obtain waiting | linked := serving.manager
    · simp only [cmOnmessage, Conn.log, waiting.state_eq]
      exact noted.onStart env waiting message sync
    · cases state_eq : conn.cm.state with
      | start => exact absurd state_eq linked.state_ne
      | connect =>
          simp only [cmOnmessage, Conn.log, state_eq]
          exact Or.inl { noted with manager := Or.inr linked }
      | forward =>
          obtain ⟨bev, bev_eq⟩ := Option.isSome_iff_exists.mp linked.bev_some
          simp only [cmOnmessage, Conn.log, state_eq, bev_eq]
          exact Or.inl
            { noted with
              manager := Or.inr ⟨by simp, linked.buffer_some, linked.framer_some, rfl⟩ }
  · obtain ⟨progress, past, tracks⟩ := stalled.tracks
    have ready : conn.view.Ready :=
      ⟨fun start => by simp [Conn.view, stalled.state_eq] at start,
        fun forward => by simp [Conn.view, stalled.state_eq] at forward⟩
    simp only [cmOnmessage, Conn.log, stalled.state_eq]
    exact Or.inr
      { stalled with
        tracks := ⟨progress, past, History.message tracks conn.view rfl rfl ready⟩ }

/-! ## The frame loop -/

theorem InLoop.congr (inLoop : InLoop conn) (wsmsg : WsMsg) (messageBuffer : Buffer) :
    InLoop { conn with wsmsg, messageBuffer } := by
  obtain serving | stalled := inLoop
  · exact Or.inl { serving with }
  · exact Or.inr { stalled with }

theorem InLoop.answerClose (inLoop : InLoop conn) (payload : List UInt8) :
    ∃ byManager, Draining byManager (answerClose conn payload) := by
  obtain serving | stalled := inLoop
  · have receiving : ∀ status, Receiving { conn with status } :=
      fun _ => { serving.toReceiving with }
    exact ⟨false, (receiving _).initiateClose _ _⟩
  · refine ⟨true, ?_⟩
    unfold Jabsocket.answerClose
    rw [wsconnInitiateClose, if_pos stalled.flWsClosing_eq]
    exact { stalled.toDraining with }

theorem InLoop.answerPing (inLoop : InLoop conn) (payload : List UInt8) :
    InLoop (answerPing conn payload) := by
  rw [Jabsocket.answerPing]
  obtain serving | stalled := inLoop
  · have pong := History.pong serving.tracks payload rfl rfl
    rw [serving.flWsClosing_eq]
    exact Or.inl { serving with tracks := pong }
  · obtain ⟨progress, past, tracks⟩ := stalled.tracks
    have pong := History.latePong tracks payload past
    rw [stalled.flWsClosing_eq]
    exact Or.inr { stalled with tracks := ⟨.spoiled, Or.inr rfl, pong⟩ }

theorem InLoop.phase (inLoop : InLoop conn) : Phase false conn := by
  obtain serving | stalled := inLoop
  · exact .serving serving
  · exact .draining stalled.toDraining

/-- One round of the frame loop. -/
theorem InLoop.frameTaken (inLoop : InLoop conn) (env : Environment) :
    InLoop (conn.frameTaken env) :=
  inLoop.congr _ conn.messageBuffer

theorem InLoop.messageTaken (inLoop : InLoop conn) (env : Environment) :
    InLoop (conn.messageTaken env) :=
  inLoop.congr _ _

/-- What a round of the frame loop leaves behind. -/
theorem InLoop.frameStep {env : Environment} {sync : Bool} {round : Round Conn}
    (inLoop : InLoop conn) (step : FrameStep env sync conn round) :
    match round with
    | .again next => InLoop next
    | .leave final => Phase false final := by
  have closed : ∀ {conn : Conn}, InLoop conn → Phase false (wsconnClose conn) :=
    fun inLoop => .shut (inLoop.closable.close inLoop.deleted_eq)
  cases step with
  | failed => exact closed inLoop
  | close payload =>
      obtain ⟨byManager, draining⟩ := (inLoop.frameTaken env).answerClose payload
      exact .draining draining
  | ping payload => exact ((inLoop.frameTaken env).answerPing payload).phase
  | control => exact inLoop.frameTaken env
  | idle => exact inLoop.phase
  | text payload => exact (inLoop.messageTaken env).onmessage env payload sync
  | binary => exact closed (inLoop.messageTaken env)
  | other => exact inLoop.messageTaken env

/-! ## Handlers -/

theorem Serving.processFrame (env : Environment) (serving : Serving conn) (sync : Bool) :
    Phase false (wsconnProcessFrame env conn sync) := by
  refine Loop.run_induction InLoop (Phase false) (frameRound_decreasing env sync) ?_ ?_
    (Or.inl { serving with })
  · intro state next inLoop again
    exact inLoop.frameStep (frameStep_of_eq again)
  · intro state final inLoop leave
    exact inLoop.frameStep (frameStep_of_eq leave)

/-- `wsconn_handshake` after the last line of the request. -/
theorem Fresh.handshake (env : Environment) (fresh : Fresh conn) :
    Phase false (wsconnHandshake env conn) := by
  unfold wsconnHandshake
  dsimp only
  generalize rqAnalyze env.platform conn.req env.conf (strLocal 1024) = analysis
  have responded := History.response fresh.tracks (decide (analysis.2 ≠ 0))
    (analysis.1.buffer.take analysis.1.length) rfl
  split_ifs with accepted
  · have forward : conn.wsState.rank ≤ WsState.receiving.rank := by
      rw [fresh.wsState_eq]
      decide
    have connected := ((responded.harmless .connected trivial).wsState .receiving forward).harmless
      .connected trivial
    rw [decide_eq_true accepted] at connected ⊢
    exact .serving
      { wsState_eq := rfl
        cmState_eq := fresh.cmState_eq
        flWsClosing_eq := fresh.flWsClosing_eq
        flCmClosed_eq := rfl
        deleted_eq := fresh.deleted_eq
        tracks := connected
        manager := Or.inl { fresh.manager with } }
  · have closable : Closable false
        { conn.log (.analyzed (decide (analysis.2 ≠ 0))) with
          pending := conn.pending ++ analysis.1.buffer.take analysis.1.length
          queued := conn.queued ++ [.response (analysis.1.buffer.take analysis.1.length)] } :=
      { tracks := ⟨false, _, .answered, responded, fun _ => rfl⟩
        released := fun other => absurd fresh.cmState_eq other }
    exact .shut (closable.close fresh.deleted_eq)

theorem Fresh.read (env : Environment) (fresh : Fresh conn) :
    Phase false (Loop.run (handshakeRound env) (fun conn => conn.input.length) conn) := by
  refine handshake_induction Fresh (Phase false) ?_ ?_ ?_ ?_ fresh
  · intro state line rest fresh
    exact { fresh with }
  · intro state fresh
    exact .fresh fresh
  · intro state fresh
    exact .shut (fresh.closable.close fresh.deleted_eq)
  · intro state fresh
    exact fresh.handshake env

theorem Phase.congr (phase : Phase gone conn) (input pending : List UInt8) :
    Phase gone { conn with input, pending } := by
  cases phase with
  | fresh fresh => exact .fresh { fresh with }
  | serving serving => exact .serving { serving with }
  | draining draining => exact .draining { draining with }
  | shut shut => exact .shut { shut with }

theorem Phase.read (env : Environment) (phase : Phase gone conn) (sync : Bool) :
    Phase gone (wsconnReadCb env conn sync) := by
  rw [wsconnReadCb_def]
  cases phase with
  | fresh fresh =>
      rw [fresh.wsState_eq]
      exact fresh.read env
  | serving serving =>
      rw [serving.wsState_eq]
      exact serving.processFrame env sync
  | draining draining =>
      rw [draining.wsState_eq]
      exact .draining draining
  | shut shut =>
      rw [shut.wsState_eq]
      exact .shut shut

theorem Phase.write (phase : Phase gone conn) (alive : conn.deleted = false) :
    Phase gone (wsconnWriteCb conn) := by
  unfold wsconnWriteCb
  split_ifs with flushed
  · have closing := flushed.1
    cases phase with
    | fresh fresh => simp [fresh.wsState_eq] at closing
    | serving serving => simp [serving.wsState_eq] at closing
    | draining draining =>
        obtain ⟨progress, past, tracks⟩ := draining.tracks
        exact .draining
          { draining with
            manager := cmClose_released _
            tracks := ⟨progress, past, History.delete tracks alive⟩ }
    | shut shut => simp [shut.wsState_eq] at closing
  · exact phase

theorem Phase.event (phase : Phase gone conn) (alive : conn.deleted = false) (events : Events) :
    Phase (gone || (events.error || events.eof)) (wsconnEventCb conn events) := by
  unfold wsconnEventCb
  split_ifs with past
  · rw [past, Bool.or_true]
    exact .shut (phase.closable.browserGone.close alive)
  · rw [Bool.not_eq_true] at past
    rwa [past, Bool.or_false]

/-- A bufferevent for the XMPP server exists only while messages are exchanged. -/
theorem Phase.serving_of_bev (phase : Phase gone conn) (present : conn.cm.bev.isSome = true) :
    gone = false ∧ Serving conn := by
  cases phase with
  | fresh fresh => simp [fresh.manager.bev_eq] at present
  | serving serving => exact ⟨rfl, serving⟩
  | draining draining => simp [draining.manager.bev_eq] at present
  | shut shut => simp [(shut.released shut.cmState_ne).bev_eq] at present

theorem Phase.serving_of_receiving (phase : Phase gone conn)
    (receiving : conn.wsState = .receiving) : Serving conn := by
  cases phase with
  | fresh fresh => simp [fresh.wsState_eq] at receiving
  | serving serving => exact serving
  | draining draining => simp [draining.wsState_eq] at receiving
  | shut shut => simp [shut.wsState_eq] at receiving

/-- Stanzas are queued as text frames. -/
theorem Receiving.forwardFrames (heap : Heap) (framer : Framer) (receiving : Receiving conn)
    (linked : conn.cm.Linked) :
    Receiving (forwardFrames heap framer conn).2 ∧
      (forwardFrames heap framer conn).2.cm.Linked := by
  refine forwardFrames_keeps heap (fun state => Receiving state ∧ state.cm.Linked) ?_ framer
    ⟨receiving, linked⟩
  rintro state payload ⟨receiving, linked⟩
  exact ⟨{ receiving with tracks := History.text receiving.tracks _ rfl rfl }, linked⟩

theorem Serving.managerRead (env : Environment) (serving : Serving conn)
    (present : conn.cm.bev.isSome = true) : Serving (cmReadcb env conn) := by
  have linked := serving.linked present
  obtain ⟨bev, bev_eq⟩ := Option.isSome_iff_exists.mp linked.bev_some
  obtain ⟨framer, framer_eq⟩ := Option.isSome_iff_exists.mp linked.framer_some
  have relinked : ∀ {conn : Conn} (bev : XmppBev) (framer : Framer), Receiving conn →
      conn.cm.Linked →
        Serving { conn with cm := { conn.cm with bev := some bev, framer := some framer } } :=
    fun _ _ receiving linked =>
      { receiving with manager := Or.inr ⟨linked.state_ne, linked.buffer_some, rfl, rfl⟩ }
  unfold cmReadcb
  rw [bev_eq, framer_eq]
  dsimp only
  generalize feedFramer env.expat framer bev.input = fed
  split_ifs with failed
  · exact relinked _ _ serving.toReceiving linked
  · obtain ⟨receiving, linked⟩ :=
      serving.toReceiving.forwardFrames env.heap fed.framer linked
    exact relinked _ _ receiving linked

/-! ## Runs -/

/-- Whether a handler call reports the end of the browser's socket. -/
def Label.browserGone : Label → Bool
  | .event events => events.error || events.eof
  | _ => false

theorem Phase.step (env : Environment) (phase : Phase gone conn) {label : Label} {next : Conn}
    (stepped : connStep env conn label = some next) : Phase (gone || label.browserGone) next := by
  obtain ⟨alive, handled⟩ := handles_of_connStep stepped
  cases handled with
  | read bytes sync =>
      simp only [Label.browserGone, Bool.or_false]
      exact (phase.congr (conn.input ++ bytes) conn.pending).read env sync
  | write sent =>
      simp only [Label.browserGone, Bool.or_false]
      exact (phase.congr conn.input (conn.pending.drop sent)).write alive
  | event events => exact phase.event alive events
  | managerRead bytes bev_eq =>
      obtain ⟨rfl, serving⟩ := phase.serving_of_bev (by rw [bev_eq]; rfl)
      exact .serving ((serving.received bev_eq bytes).managerRead env rfl)
  | managerEvent events present =>
      obtain ⟨rfl, serving⟩ := phase.serving_of_bev present
      obtain serving | draining := serving.managerEvent present events
      · exact .serving serving
      · exact .draining draining

/-- Every handler call leads from a phase to a phase. -/
theorem exists_phase_of_connStep {env : Environment} (conn : Conn) (label : Label) (next : Conn)
    (phase : ∃ gone, Phase gone conn) (stepped : connStep env conn label = some next) :
    ∃ gone, Phase gone next := by
  obtain ⟨gone, phase⟩ := phase
  exact ⟨_, phase.step env stepped⟩

theorem exists_phase_wsconnCreate (env : Environment) : ∃ gone, Phase gone (wsconnCreate env) :=
  ⟨false, .fresh (fresh_wsconnCreate env)⟩

theorem phase_of_reachable {env : Environment} (reachable : Reachable env conn) :
    ∃ gone, Phase gone conn := by
  obtain ⟨labels, execution⟩ := reachable
  exact Execution.invariant_of_run exists_phase_of_connStep (exists_phase_wsconnCreate env)
    execution

end

end Jabsocket
