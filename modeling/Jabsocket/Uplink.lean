import Jabsocket.Relay
import Jabsocket.Uptake

/-!
# What a run makes of the browser's frames

In every run, whatever the browser sends, whatever the XMPP side does and whenever a side closes,
the bytes which are written to the XMPP server are the payloads of whole text messages of the
browser, in their order and each at most once, and the pongs which are queued for the browser answer
its pings one by one.  Nothing else reaches the server: no control frame, no part of a message, no
byte of the request.
-/

namespace Jabsocket

/-! ## What the manager has -/

/-- The manager has written bytes to the XMPP server, or will write them when it is connected. -/
structure CManager.Has (bytes : List UInt8) (cm : CManager) : Prop where
  held_eq : cm.held = bytes
  unlimited : ∀ buffer ∈ cm.buffer, buffer.maxLength = 0
  unwritten : cm.state ≠ .forward → ∀ bev ∈ cm.bev, bev.written = []
  emptied : cm.state = .forward → ∀ buffer ∈ cm.buffer, buffer.data = []

/-- The manager has the payloads of some of the messages. -/
def CManager.Picks (messages : List (List Frame)) (cm : CManager) : Prop :=
  ∃ passed : List (List Frame), passed.Sublist messages ∧
    (∀ frames ∈ passed, IsMessage opcodeText frames) ∧
    cm.Has (passed.flatten.flatMap Frame.payload)

/-- The payload of a pong. -/
def Write.pong? : Write → Option (List UInt8)
  | .frame opcode payload => if opcode = opcodePong then some payload else none
  | .response _ => none

/-- The pongs which were queued. -/
def Conn.pongs (conn : Conn) : List (List UInt8) :=
  conn.queued.filterMap Write.pong?

section

variable {cm other : CManager} {bytes : List UInt8} {messages : List (List Frame)} {conn : Conn}

theorem CManager.has_cmCreate : cmCreate.Has [] where
  held_eq := rfl
  unlimited := by simp [cmCreate, bufferCreate]
  unwritten := by simp [cmCreate]
  emptied := by simp [cmCreate]

theorem CManager.Has.congr (has : cm.Has bytes) (state_eq : other.state = cm.state)
    (buffer_eq : other.buffer = cm.buffer)
    (written_eq : other.bev.map XmppBev.written = cm.bev.map XmppBev.written) :
    other.Has bytes := by
  refine ⟨?_, ?_, ?_, ?_⟩
  · rw [← has.held_eq, CManager.held, CManager.held, state_eq, buffer_eq, written_eq]
  · rw [buffer_eq]
    exact has.unlimited
  · intro waiting bev member
    have written : some bev.written = cm.bev.map XmppBev.written := by
      rw [← written_eq, show other.bev = some bev from member]
      rfl
    obtain ⟨linked, linked_eq, same⟩ := Option.map_eq_some_iff.mp written.symm
    rw [← same]
    exact has.unwritten (by rwa [← state_eq]) linked linked_eq
  · rw [state_eq, buffer_eq]
    exact has.emptied

/-- A manager without buffer and without bufferevent has nothing. -/
theorem CManager.has_nothing (buffer_none : cm.buffer = none) (bev_none : cm.bev = none) :
    cm.Has [] := by
  refine ⟨?_, by simp [buffer_none], by simp [bev_none], by simp [buffer_none]⟩
  unfold CManager.held
  split <;> simp [buffer_none, bev_none]

theorem CManager.picks_nothing (buffer_none : cm.buffer = none) (bev_none : cm.bev = none) :
    cm.Picks messages :=
  ⟨[], List.nil_sublist _, by simp, has_nothing buffer_none bev_none⟩

theorem CManager.picks_cmClose : (cmClose cm).Picks messages :=
  picks_nothing rfl rfl

theorem CManager.Picks.congr (picks : cm.Picks messages) (state_eq : other.state = cm.state)
    (buffer_eq : other.buffer = cm.buffer)
    (written_eq : other.bev.map XmppBev.written = cm.bev.map XmppBev.written) :
    other.Picks messages := by
  obtain ⟨passed, sublist, texts, has⟩ := picks
  exact ⟨passed, sublist, texts, has.congr state_eq buffer_eq written_eq⟩

/-- A message which is not kept. -/
theorem CManager.Picks.skip (picks : cm.Picks messages) (frames : List Frame) :
    cm.Picks (messages ++ [frames]) := by
  obtain ⟨passed, sublist, kept⟩ := picks
  exact ⟨passed, sublist.trans (List.sublist_append_left _ _), kept⟩

/-- A message which is kept. -/
theorem CManager.Picks.keep {frames : List Frame} (picks : cm.Picks messages)
    (isText : IsMessage opcodeText frames)
    (has : ∀ bytes, cm.Has bytes → other.Has (bytes ++ frames.flatMap Frame.payload)) :
    other.Picks (messages ++ [frames]) := by
  obtain ⟨passed, sublist, texts, kept⟩ := picks
  refine ⟨passed ++ [frames], sublist.append (List.Sublist.refl _), ?_, ?_⟩
  · intro message member
    rcases List.mem_append.mp member with earlier | last
    · exact texts message earlier
    · rw [List.mem_singleton.mp last]
      exact isText
  · simpa using has _ kept

theorem picks_wsconnClose (picks : conn.cm.Picks messages) :
    (wsconnClose conn).cm.Picks messages := by
  unfold wsconnClose
  dsimp only
  split_ifs
  · exact CManager.picks_cmClose
  · exact CManager.picks_cmClose
  · exact picks

theorem picks_wsconnInitiateClose (picks : conn.cm.Picks messages) (status : Nat)
    (reason : List UInt8) : (wsconnInitiateClose conn status reason).cm.Picks messages := by
  unfold wsconnInitiateClose
  dsimp only
  split_ifs
  all_goals first
    | exact picks
    | exact CManager.picks_cmClose

theorem picks_answerClose (picks : conn.cm.Picks messages) (payload : List UInt8) :
    (answerClose conn payload).cm.Picks messages := by
  unfold answerClose
  refine picks_wsconnInitiateClose ?_ _ _
  exact picks

theorem answerPing_intake (conn : Conn) (payload : List UInt8) :
    (answerPing conn payload).intake = conn.intake := rfl

theorem picks_answerPing (picks : conn.cm.Picks messages) (payload : List UInt8) :
    (answerPing conn payload).cm.Picks messages :=
  picks

/-- When the server is connected, what is in the buffer is written. -/
theorem CManager.Has.connected (has : cm.Has bytes) {buffer : Buffer} {bev : XmppBev}
    (buffer_eq : cm.buffer = some buffer) (bev_eq : cm.bev = some bev) :
    CManager.Has bytes
      { cm with
        buffer := some (bufferRemoveData buffer buffer.length)
        bev := some { bev with written := bev.written ++ buffer.data }
        state := .forward } := by
  refine ⟨?_, ?_, by simp, by simp [Buffer.length]⟩
  · rw [← has.held_eq]
    cases state : cm.state with
    | forward =>
        have nothing := has.emptied state buffer buffer_eq
        simp [CManager.held, state, bev_eq, nothing]
    | start =>
        have unwritten := has.unwritten (by simp [state]) bev bev_eq
        simp [CManager.held, state, buffer_eq, unwritten]
    | connect =>
        have unwritten := has.unwritten (by simp [state]) bev bev_eq
        simp [CManager.held, state, buffer_eq, unwritten]
  · simpa using has.unlimited buffer buffer_eq

theorem picks_cmEventcb (picks : conn.cm.Picks messages) (events : Events) :
    (cmEventcb conn events).cm.Picks messages := by
  unfold cmEventcb
  dsimp only
  split_ifs
  · split
    · rename_i buffer bev buffer_eq bev_eq
      obtain ⟨passed, sublist, texts, has⟩ := picks
      exact ⟨passed, sublist, texts, has.connected buffer_eq bev_eq⟩
    · exact picks
  · exact CManager.picks_cmClose
  · exact picks

/-- A message before a server is known is dropped or put into the buffer. -/
theorem picks_cmOnStart (env : Environment) (picks : conn.cm.Picks messages)
    (start : conn.cm.state = .start) {frames : List Frame}
    (isText : IsMessage opcodeText frames) (sync : Bool) :
    (cmOnStart env conn (frames.flatMap Frame.payload) sync).cm.Picks (messages ++ [frames]) := by
  unfold cmOnStart
  split
  · exact picks.skip frames
  rename_i parser parser_eq
  dsimp only
  split_ifs
  · exact (picks.skip frames).congr rfl rfl rfl
  split
  · exact (picks.skip frames).congr rfl rfl rfl
  rename_i buffer buffer_eq
  have stored : ∀ bytes, conn.cm.Has bytes → ∀ state : ManagerState, state ≠ .forward →
      ∀ cm : CManager, cm.state = state →
      cm.buffer = some (bufferAppend 0 buffer (frames.flatMap Frame.payload)).1 →
      (∀ bev ∈ cm.bev, bev.written = []) → cm.Has (bytes ++ frames.flatMap Frame.payload) := by
    intro bytes has state waiting cm state_eq appended unwritten
    have unlimited := has.unlimited buffer buffer_eq
    have held_eq : bytes = buffer.data := by
      rw [← has.held_eq, CManager.held, start]
      simp [show conn.cm.buffer = some buffer from buffer_eq]
    refine ⟨?_, by simp [appended, unlimited], fun _ => unwritten, fun forward => ?_⟩
    · cases state with
      | start => simp [CManager.held, state_eq, appended, unlimited, held_eq]
      | connect => simp [CManager.held, state_eq, appended, unlimited, held_eq]
      | forward => exact absurd rfl waiting
    · exact absurd (state_eq.symm.trans forward) waiting
  split
  · refine picks.keep isText fun bytes has => ?_
    exact stored bytes has .start (by simp) _ start rfl (has.unwritten (by simp [start]))
  · cases sync with
    | false =>
        refine picks.keep isText fun bytes has => ?_
        exact stored bytes has .connect (by simp) _ rfl rfl (by simp [cmConnect])
    | true => exact CManager.picks_nothing rfl rfl

theorem picks_cmOnmessage (env : Environment) (picks : conn.cm.Picks messages)
    {frames : List Frame} (isText : IsMessage opcodeText frames) (sync : Bool) :
    (cmOnmessage env conn (frames.flatMap Frame.payload) sync).cm.Picks
      (messages ++ [frames]) := by
  unfold cmOnmessage
  split
  · rename_i start
    exact picks_cmOnStart env picks start isText sync
  · exact picks.skip frames
  · rename_i forward
    split
    · exact picks.skip frames
    · rename_i bev bev_eq
      refine picks.keep isText fun bytes has => ⟨?_, has.unlimited, ?_, has.emptied⟩
      · rw [← has.held_eq]
        simp [CManager.held, forward, bev_eq]
      · exact fun other => absurd forward other

theorem picks_cmReadcb (env : Environment) (picks : conn.cm.Picks messages) :
    (cmReadcb env conn).cm.Picks messages := by
  have forwarded := forwardFrames_keeps env.heap
    (fun state => state.cm.state = conn.cm.state ∧ state.cm.buffer = conn.cm.buffer)
    (fun _ _ same => same)
  unfold cmReadcb
  split
  · rename_i bev framer bev_eq framer_eq
    dsimp only
    split_ifs
    · exact picks.congr rfl rfl (by simp [bev_eq])
    · obtain ⟨state_eq, buffer_eq⟩ := @forwarded (feedFramer env.expat framer bev.input).framer
        conn ⟨rfl, rfl⟩
      exact picks.congr state_eq buffer_eq (by simp [bev_eq])
  · exact picks

end

/-! ## What is answered -/

section

variable {conn : Conn}

theorem pongs_wsconnClose (conn : Conn) : (wsconnClose conn).pongs = conn.pongs := by
  unfold wsconnClose
  dsimp only
  split_ifs <;> rfl

theorem pongs_writeFrame (conn : Conn) {opcode : Nat} (other : opcode ≠ opcodePong)
    (payload : List UInt8) : (conn.writeFrame opcode payload).pongs = conn.pongs := by
  simp [Conn.pongs, Conn.writeFrame, Write.pong?, other]

theorem pongs_wsconnInitiateClose (conn : Conn) (status : Nat) (reason : List UInt8) :
    (wsconnInitiateClose conn status reason).pongs = conn.pongs := by
  have written := pongs_writeFrame conn (show opcodeClose ≠ opcodePong by decide)
  unfold wsconnInitiateClose
  dsimp only
  split_ifs
  · rfl
  all_goals exact written _

theorem pongs_cmEventcb (conn : Conn) (events : Events) :
    (cmEventcb conn events).pongs = conn.pongs := by
  unfold cmEventcb
  dsimp only
  split_ifs
  · split <;> rfl
  · unfold wsconnOnclosed
    dsimp only
    split
    · exact pongs_wsconnInitiateClose { conn.log _ with cmState := .closed, flCmClosed := true } _ _
    all_goals rfl
  · rfl

theorem pongs_cmConnect (conn : Conn) (sync : Bool) : (cmConnect conn sync).pongs = conn.pongs := by
  unfold cmConnect
  dsimp only
  split_ifs
  · exact pongs_cmEventcb _ _
  · rfl

theorem pongs_cmOnmessage (env : Environment) (conn : Conn) (message : List UInt8) (sync : Bool) :
    (cmOnmessage env conn message sync).pongs = conn.pongs := by
  unfold cmOnmessage cmOnStart
  dsimp only
  split
  · split
    · rfl
    · split_ifs
      · rfl
      · split
        · rfl
        · split
          · rfl
          · exact pongs_cmConnect _ sync
  · rfl
  · split <;> rfl

theorem pongs_wsconnHandshake (env : Environment) (conn : Conn) :
    (wsconnHandshake env conn).pongs = conn.pongs := by
  have responded : (conn.responded env).pongs = conn.pongs := by
    simp [Conn.pongs, Conn.responded, Write.pong?, Conn.log]
  rw [wsconnHandshake_eq]
  split_ifs
  · exact responded
  · exact (pongs_wsconnClose _).trans responded

theorem pongs_readRequest (env : Environment) (conn : Conn) :
    (readRequest env conn).pongs = conn.pongs :=
  handshake_induction (fun state => state.pongs = conn.pongs)
    (fun state => state.pongs = conn.pongs)
    (fun _ _ _ same => same) (fun _ same => same)
    (fun state same => (pongs_wsconnClose state).trans same)
    (fun state same => (pongs_wsconnHandshake env state).trans same) rfl

theorem pongs_answerPing (conn : Conn) (payload : List UInt8) :
    (answerPing conn payload).pongs = conn.pongs ++ [payload] := by
  simp [Conn.pongs, answerPing, Conn.writeFrame, Conn.log, Write.pong?]

theorem pongs_answerClose (conn : Conn) (payload : List UInt8) :
    (answerClose conn payload).pongs = conn.pongs := by
  unfold answerClose
  exact pongs_wsconnInitiateClose _ _ _

theorem pongs_cmReadcb (env : Environment) (conn : Conn) :
    (cmReadcb env conn).pongs = conn.pongs := by
  have forwarded := forwardFrames_keeps env.heap (fun state => state.pongs = conn.pongs)
    (fun state payload same => (pongs_writeFrame state (by decide) payload).trans same)
  unfold cmReadcb
  split
  · dsimp only
    split_ifs
    · rfl
    · exact forwarded _ rfl
  · rfl

end

/-! ## Runs -/

/-- What the bytes of the browser contain behind the request, when it is accepted. -/
def behindRequest (env : Environment) (received : List UInt8) : List UInt8 :=
  let conn := readRequest env ((wsconnCreate env).unread received)
  if conn.wsState = .receiving then conn.input else []

/-- A connection has taken messages from the bytes behind the request, its manager has the payloads
of some of them, and all pings which were taken are answered. -/
structure Uplink (env : Environment) (received : List UInt8) (conn : Conn) : Prop where
  /-- The request is not complete. -/
  start : conn.wsState = .start → conn = readRequest env ((wsconnCreate env).unread received)
  /-- No byte is lost while frames are received. -/
  receiving : conn.wsState = .receiving →
    (readRequest env ((wsconnCreate env).unread received)).wsState = .receiving
  heeds : ∃ receiver given messages, Receives env conn receiver ∧
    receiver.Heeds given messages conn.pongs ∧ conn.cm.Picks messages ∧
    given <+: behindRequest env received ∧
    (conn.wsState = .receiving → behindRequest env received = given ++ conn.input)

section

variable {env : Environment} {received : List UInt8} {conn : Conn}

theorem uplink_wsconnCreate (env : Environment) : Uplink env [] (wsconnCreate env) where
  start := fun _ => by
    rw [Conn.unread_nil, readRequest_none env _ (env.evbuffer.readln_none [] List.not_mem_nil)]
  receiving := fun receiving => by cases receiving
  heeds := ⟨_, [], [], receives_wsconnCreate env, Receiver.heeds_create,
    ⟨[], .refl _, by simp, CManager.has_cmCreate⟩, List.nil_prefix, fun receiving => by
      cases receiving⟩

/-- A request which is decided is decided however many bytes follow. -/
theorem readRequest_received (env : Environment) (received bytes : List UInt8) :
    readRequest env ((wsconnCreate env).unread (received ++ bytes)) =
      if (readRequest env ((wsconnCreate env).unread received)).wsState = .start then
        readRequest env ((readRequest env ((wsconnCreate env).unread received)).unread bytes)
      else (readRequest env ((wsconnCreate env).unread received)).unread bytes := by
  rw [Conn.unread_append]
  exact readRequest_unread env rfl bytes

theorem behindRequest_append (env : Environment) (bytes : List UInt8)
    (accepted : (readRequest env ((wsconnCreate env).unread received)).wsState = .receiving) :
    behindRequest env (received ++ bytes) = behindRequest env received ++ bytes := by
  have later := readRequest_received env received bytes
  rw [if_neg (by simp [accepted])] at later
  simp only [behindRequest, later]
  rw [if_pos accepted, if_pos (by exact accepted)]
  rfl

theorem behindRequest_isPrefix (env : Environment) (received bytes : List UInt8) :
    behindRequest env received <+: behindRequest env (received ++ bytes) := by
  by_cases accepted :
      (readRequest env ((wsconnCreate env).unread received)).wsState = .receiving
  · rw [behindRequest_append env bytes accepted]
    exact List.prefix_append _ _
  · rw [behindRequest, if_neg accepted]
    exact List.nil_prefix

theorem readRequest_pending (env : Environment) (conn : Conn) :
    (readRequest env conn).wsState = .start → (readRequest env conn).pending = conn.pending := by
  refine handshake_induction (fun state => state.pending = conn.pending)
    (fun state => state.wsState = .start → state.pending = conn.pending) ?_ ?_ ?_ ?_ rfl
  · exact fun _ _ _ same => same
  · exact fun _ same _ => same
  · exact fun state _ start => by simp [wsconnClose_wsState] at start
  · exact fun state _ start => absurd start (wsconnHandshake_wsState_ne env state)

/-- A handler which neither reads nor accepts anything. -/
theorem Uplink.quiet (uplink : Uplink env received conn) {next : Conn}
    (intake : next.intake = conn.intake) (pongs : next.pongs = conn.pongs)
    (picks : ∀ messages, conn.cm.Picks messages → next.cm.Picks messages)
    (start : next.wsState = .start → next = conn)
    (receiving : next.wsState = .receiving → conn.wsState = .receiving) :
    Uplink env received next := by
  obtain ⟨receiver, given, messages, receives, heeds, picked, beginning, whole⟩ := uplink.heeds
  refine ⟨fun waiting => ?_, fun open_state => uplink.receiving (receiving open_state),
    receiver, given, messages, receives.congr (congrArg Prod.snd intake), pongs ▸ heeds,
    picks messages picked, beginning, fun open_state => ?_⟩
  · obtain rfl := start waiting
    exact uplink.start waiting
  · rw [show next.input = conn.input from congrArg Prod.fst intake]
    exact whole (receiving open_state)

/-- Between two rounds of the frame loop. -/
def Taking (env : Environment) (given : List UInt8) (conn : Conn) : Prop :=
  ∃ receiver messages, Receives env conn receiver ∧ receiver.Heeds given messages conn.pongs ∧
    conn.cm.Picks messages ∧ conn.input = []

theorem Taking.again {given : List UInt8} (unlimited : env.Unlimited)
    (taking : Taking env given conn) {sync : Bool} {next : Conn}
    (again : frameRound env sync conn = .again next) : Taking env given next := by
  obtain ⟨receiver, messages, receives, heeds, picks, drained⟩ := taking
  have policy_eq := unlimited.policy_eq
  have outcome := receives.frameRound sync
  rw [again] at outcome
  cases outcome with
  | pong healthy parked opcode_ne taken =>
      rw [policy_eq] at taken
      have later := heeds.takeFrame parked
      rw [pingPayloads_other opcode_ne, List.append_nil] at later
      exact ⟨_, messages, taken, later, picks, drained⟩
  | @text draft wsmsg messageBuffer healthy unparked complete taken =>
      rw [policy_eq] at taken
      obtain ⟨frames, isMessage, payload_eq, later⟩ := heeds.takeMessage complete
      have message := receives.frameRound_complete healthy unparked complete sync
      rw [again] at message
      have intake := cmOnmessage_intake env
        (({ conn with wsmsg, messageBuffer } : Conn).log
          (.message ({ conn with wsmsg, messageBuffer } : Conn).view)) draft.payload sync
      refine ⟨_, messages ++ [frames], taken.congr (congrArg Prod.snd intake), ?_, ?_,
        (congrArg Prod.fst intake).trans drained⟩
      · rw [pongs_cmOnmessage]
        exact later
      split_ifs at message with isText isBinary
      · rw [isText] at isMessage
        rw [payload_eq]
        refine picks_cmOnmessage env ?_ isMessage sync
        exact picks
      · injection message with next_eq
        rw [next_eq]
        exact picks.skip frames
  | other healthy unparked complete taken =>
      rw [policy_eq] at taken
      obtain ⟨frames, isMessage, payload_eq, later⟩ := heeds.takeMessage complete
      exact ⟨_, _, taken, later, picks.skip frames, drained⟩

theorem Taking.leave {given : List UInt8} (unlimited : env.Unlimited)
    (taking : Taking env given conn) {sync : Bool} {final : Conn}
    (leave : frameRound env sync conn = .leave final) : Taking env given final := by
  obtain ⟨receiver, messages, receives, heeds, picks, drained⟩ := taking
  have policy_eq := unlimited.policy_eq
  have outcome := receives.frameRound sync
  rw [leave] at outcome
  cases outcome with
  | failed failed =>
      have same := wsconnClose_intake conn
      exact ⟨receiver, messages, receives.congr (congrArg Prod.snd same),
        (pongs_wsconnClose conn).symm ▸ heeds, picks_wsconnClose picks,
        (congrArg Prod.fst same).trans drained⟩
  | @close frame wsmsg healthy parked opcode_eq taken =>
      rw [policy_eq] at taken
      have same := answerClose_intake { conn with wsmsg } frame.payload
      have other : frame.opcode ≠ opcodePing := by simp [opcode_eq, opcodeClose, opcodePing]
      have later := heeds.takeFrame parked
      rw [pingPayloads_other other, List.append_nil] at later
      exact ⟨_, messages, taken.congr (congrArg Prod.snd same),
        (pongs_answerClose { conn with wsmsg } frame.payload).symm ▸ later,
        @picks_answerClose messages { conn with wsmsg } picks frame.payload,
        (congrArg Prod.fst same).trans drained⟩
  | @ping frame wsmsg healthy parked opcode_eq taken =>
      rw [policy_eq] at taken
      have same := answerPing_intake { conn with wsmsg } frame.payload
      have later := heeds.takeFrame parked
      rw [pingPayloads_ping opcode_eq] at later
      exact ⟨_, messages, taken.congr (congrArg Prod.snd same),
        (pongs_answerPing { conn with wsmsg } frame.payload).symm ▸ later,
        @picks_answerPing messages { conn with wsmsg } picks frame.payload,
        (congrArg Prod.fst same).trans drained⟩
  | idle healthy unparked settled => exact ⟨receiver, messages, receives, heeds, picks, drained⟩
  | @binary draft wsmsg messageBuffer healthy unparked complete taken =>
      rw [policy_eq] at taken
      obtain ⟨frames, isMessage, payload_eq, later⟩ := heeds.takeMessage complete
      have same := wsconnClose_intake { conn with wsmsg, messageBuffer }
      exact ⟨_, _, taken.congr (congrArg Prod.snd same),
        (pongs_wsconnClose { conn with wsmsg, messageBuffer }).symm ▸ later,
        picks_wsconnClose (picks.skip frames), (congrArg Prod.fst same).trans drained⟩

/-- The frame loop takes messages and passes the texts on. -/
theorem Uplink.processFrame (uplink : Uplink env received conn) (unlimited : env.Unlimited)
    (serving : Serving conn) (bytes : List UInt8) (sync : Bool) :
    Uplink env (received ++ bytes) (wsconnProcessFrame env (conn.unread bytes) sync) := by
  obtain ⟨receiver, given, messages, receives, heeds, picks, beginning, whole⟩ := uplink.heeds
  have accepted := uplink.receiving serving.wsState_eq
  have longer := behindRequest_append env bytes accepted
  rw [whole serving.wsState_eq, List.append_assoc] at longer
  have unread : Receives env (conn.unread bytes) receiver := receives.congr rfl
  have added := unread.added
  rw [unlimited.policy_eq] at added
  obtain ⟨receiver, messages, receives, heeds, picks, drained⟩ :
      Taking env (given ++ (conn.input ++ bytes))
        (wsconnProcessFrame env (conn.unread bytes) sync) :=
    Loop.run_induction (Taking env _) (Taking env _) (frameRound_decreasing env sync)
      (fun _ _ taking again => taking.again unlimited again)
      (fun _ _ taking leave => taking.leave unlimited leave)
      ⟨_, messages, added, heeds.add _, picks, rfl⟩
  have decided : (readRequest env ((wsconnCreate env).unread (received ++ bytes))).wsState =
      .receiving := by
    rw [readRequest_received, if_neg (by simp [accepted])]
    exact accepted
  have serving' : Serving (conn.unread bytes) := { serving with }
  refine ⟨fun start => absurd start (serving'.processFrame_wsState_ne_start sync),
    fun _ => decided, receiver, _, messages, receives, heeds, picks, ?_, fun _ => ?_⟩
  · rw [longer]
  · rw [longer, drained, List.append_nil]

theorem picks_wsconnHandshake {messages : List (List Frame)} (picks : conn.cm.Picks messages) :
    (wsconnHandshake env conn).cm.Picks messages := by
  rw [wsconnHandshake_eq]
  split_ifs
  · exact picks
  · refine picks_wsconnClose ?_
    exact picks

theorem picks_readRequest {messages : List (List Frame)} (picks : conn.cm.Picks messages) :
    (readRequest env conn).cm.Picks messages :=
  handshake_induction (fun state => state.cm.Picks messages) (fun state => state.cm.Picks messages)
    (fun _ _ _ picks => picks) (fun _ picks => picks) (fun _ picks => picks_wsconnClose picks)
    (fun _ picks => picks_wsconnHandshake picks) picks

/-- Lines of the request are read. -/
theorem Uplink.readRequest (uplink : Uplink env received conn) (start : conn.wsState = .start)
    (bytes : List UInt8) :
    Uplink env (received ++ bytes) (readRequest env (conn.unread bytes)) := by
  obtain ⟨receiver, given, messages, receives, heeds, picks, beginning, -⟩ := uplink.heeds
  have conn_eq := uplink.start start
  have whole : Jabsocket.readRequest env ((wsconnCreate env).unread (received ++ bytes)) =
      Jabsocket.readRequest env (conn.unread bytes) := by
    rw [readRequest_received, ← conn_eq, if_pos start]
  have nothing : behindRequest env received = [] := by
    rw [behindRequest, ← conn_eq, start]
    rfl
  obtain rfl : given = [] := List.prefix_nil.mp (nothing ▸ beginning)
  refine ⟨fun _ => whole.symm, fun receiving => by rwa [whole], receiver, [], messages,
    receives.congr (handshake_intake env (conn.unread bytes)),
    (pongs_readRequest env (conn.unread bytes)).symm ▸ heeds, picks_readRequest picks,
    List.nil_prefix, fun receiving => ?_⟩
  rw [behindRequest, whole]
  exact if_pos receiving

/-- A connection which is closing does not take what arrives. -/
theorem Uplink.ignore (uplink : Uplink env received conn) (other : conn.wsState ≠ .start)
    (other' : conn.wsState ≠ .receiving) (bytes : List UInt8) :
    Uplink env (received ++ bytes) (conn.unread bytes) := by
  obtain ⟨receiver, given, messages, receives, heeds, picks, beginning, -⟩ := uplink.heeds
  exact
    { start := fun start => absurd start other
      receiving := fun receiving => absurd receiving other'
      heeds :=
        ⟨receiver, given, messages, receives.congr rfl, heeds, picks,
          beginning.trans (behindRequest_isPrefix env received bytes),
          fun receiving => absurd receiving other'⟩ }

theorem wsconnInitiateClose_wsState (conn : Conn) (status : Nat) (reason : List UInt8) :
    (wsconnInitiateClose conn status reason).wsState = conn.wsState ∨
      (wsconnInitiateClose conn status reason).wsState = .closing := by
  unfold wsconnInitiateClose
  by_cases closing : conn.flWsClosing = true
  · rw [if_pos closing]
    exact Or.inl rfl
  · rw [if_neg closing]
    exact Or.inr rfl

theorem cmEventcb_wsState (conn : Conn) (events : Events) :
    (cmEventcb conn events).wsState = conn.wsState ∨
      (cmEventcb conn events).wsState = .closing := by
  unfold cmEventcb
  dsimp only
  split_ifs
  · split <;> exact Or.inl rfl
  · unfold wsconnOnclosed
    dsimp only
    split
    · exact wsconnInitiateClose_wsState _ _ _
    all_goals exact Or.inl rfl
  · exact Or.inl rfl

theorem cmReadcb_wsState (env : Environment) (conn : Conn) :
    (cmReadcb env conn).wsState = conn.wsState := by
  have forwarded := forwardFrames_keeps env.heap (fun state => state.wsState = conn.wsState)
    (fun _ _ same => same)
  unfold cmReadcb
  split
  · dsimp only
    split_ifs
    · rfl
    · exact forwarded _ rfl
  · rfl

/-- No bufferevent for an XMPP server exists before the request is accepted. -/
theorem Phase.unlinked {gone : Bool} (phase : Phase gone conn) (start : conn.wsState = .start) :
    conn.cm.bev = none := by
  cases phase with
  | fresh fresh => exact fresh.manager.bev_eq
  | serving serving => simp [serving.wsState_eq] at start
  | draining draining => simp [draining.wsState_eq] at start
  | shut shut => simp [shut.wsState_eq] at start

/-- What arrives from the browser is read, or left where it is. -/
theorem Uplink.read (uplink : Uplink env received conn) (unlimited : env.Unlimited) {gone : Bool}
    (phase : Phase gone conn) (bytes : List UInt8) (sync : Bool) :
    Uplink env (received ++ bytes) (wsconnReadCb env (conn.unread bytes) sync) := by
  cases state : conn.wsState with
  | start =>
      rw [wsconnReadCb_start (by exact state)]
      exact uplink.readRequest state bytes
  | receiving =>
      rw [wsconnReadCb_def, show (conn.unread bytes).wsState = .receiving from state]
      exact uplink.processFrame unlimited (phase.serving_of_receiving state) bytes sync
  | closing =>
      rw [wsconnReadCb_ended env (conn.unread bytes) (Or.inl state)]
      exact uplink.ignore (by simp [state]) (by simp [state]) bytes
  | closed =>
      rw [wsconnReadCb_ended env (conn.unread bytes) (Or.inr state)]
      exact uplink.ignore (by simp [state]) (by simp [state]) bytes

/-- Bytes are sent to the browser; before the request is complete there are none. -/
theorem Uplink.write (uplink : Uplink env received conn) (sent : Nat) :
    Uplink env received (wsconnWriteCb { conn with pending := conn.pending.drop sent }) := by
  unfold wsconnWriteCb
  split_ifs with closing
  · refine uplink.quiet rfl rfl (fun _ _ => CManager.picks_cmClose) (fun start => ?_)
      fun receiving => receiving
    cases closing.1.symm.trans start
  · refine uplink.quiet rfl rfl (fun _ picks => picks) (fun start => ?_)
      fun receiving => receiving
    have conn_eq := uplink.start start
    have pending_eq : conn.pending = [] := by
      have kept := readRequest_pending env ((wsconnCreate env).unread received)
      rw [← conn_eq] at kept
      exact kept start
    rw [pending_eq, List.drop_nil, ← pending_eq]

theorem Uplink.event (uplink : Uplink env received conn) (events : Events) :
    Uplink env received (wsconnEventCb conn events) := by
  unfold wsconnEventCb
  split_ifs
  · refine uplink.quiet (wsconnClose_intake _) (pongs_wsconnClose _)
      (fun _ picks => picks_wsconnClose picks) ?_ ?_
    · simp [wsconnClose_wsState]
    · simp [wsconnClose_wsState]
  · exact uplink

theorem Uplink.managerRead (uplink : Uplink env received conn) {gone : Bool}
    (phase : Phase gone conn) {bev : XmppBev} (bev_eq : conn.cm.bev = some bev)
    (bytes : List UInt8) :
    Uplink env received (cmReadcb env
      { conn with
        cm := { conn.cm with bev := some { bev with input := bev.input ++ bytes } } }) := by
  have state_eq := cmReadcb_wsState env
    { conn with cm := { conn.cm with bev := some { bev with input := bev.input ++ bytes } } }
  refine uplink.quiet (cmReadcb_intake env _) (pongs_cmReadcb env _)
    (fun _ picks => picks_cmReadcb env ?_) (fun start => ?_)
    fun receiving => state_eq.symm.trans receiving
  · exact picks.congr rfl rfl (by simp [bev_eq])
  · cases (phase.unlinked (state_eq.symm.trans start)).symm.trans bev_eq

theorem Uplink.managerEvent (uplink : Uplink env received conn) {gone : Bool}
    (phase : Phase gone conn) (present : conn.cm.bev.isSome = true) (events : Events) :
    Uplink env received (cmEventcb conn events) := by
  have unchanged {state : WsState} (other : state ≠ .closing)
      (state_eq : (cmEventcb conn events).wsState = state) : conn.wsState = state := by
    obtain same | closing := cmEventcb_wsState conn events
    · exact same.symm.trans state_eq
    · exact absurd (state_eq.symm.trans closing) other
  refine uplink.quiet (cmEventcb_intake conn events) (pongs_cmEventcb conn events)
    (fun _ picks => picks_cmEventcb picks events) (fun start => ?_) (unchanged (by decide))
  rw [phase.unlinked (unchanged (by decide) start)] at present
  cases present

/-- Every handler keeps what the bytes so far were made into. -/
theorem Uplink.step (uplink : Uplink env received conn) (unlimited : env.Unlimited) {gone : Bool}
    (phase : Phase gone conn) {label : Label} {next : Conn}
    (stepped : connStep env conn label = some next) :
    Uplink env (received ++ label.chunk?.getD []) next := by
  have unread {other : Label} (nothing : other.chunk? = none) :
      received ++ other.chunk?.getD [] = received := by
    rw [nothing, Option.getD_none, List.append_nil]
  obtain ⟨-, handled⟩ := handles_of_connStep stepped
  cases handled with
  | read bytes sync => exact uplink.read unlimited phase bytes sync
  | write sent =>
      rw [unread rfl]
      exact uplink.write sent
  | event events =>
      rw [unread rfl]
      exact uplink.event events
  | managerRead bytes bev_eq =>
      rw [unread rfl]
      exact uplink.managerRead phase bev_eq bytes
  | managerEvent events present =>
      rw [unread rfl]
      exact uplink.managerEvent phase present events

theorem Uplink.run (uplink : Uplink env received conn) (unlimited : env.Unlimited)
    {gone : Bool} (phase : Phase gone conn) {labels : List Label} {final : Conn}
    (execution : Execution.run (connStep env) conn labels = some final) :
    Uplink env (received ++ (labels.filterMap Label.chunk?).flatten) final := by
  induction labels generalizing conn received gone with
  | nil =>
      obtain rfl := Execution.run_nil.mp execution
      simpa using uplink
  | cons label labels ih =>
      obtain ⟨next, stepped, rest⟩ := Execution.run_cons.mp execution
      have later := ih (uplink.step unlimited phase stepped) (phase.step env stepped) rest
      rw [List.append_assoc] at later
      rw [List.filterMap_cons]
      cases label with
      | read bytes sync => exact later
      | write sent => exact later
      | event events => exact later
      | managerRead bytes => exact later
      | managerEvent events => exact later

/-- In every run in which no frame of the browser announces a large length, what was written to the
XMPP server are the payloads of whole text messages of the browser, in their order and each at most
once. -/
theorem server_given_messages (unlimited : env.Unlimited) {labels : List Label} {final : Conn}
    (execution : Execution.run (connStepSized (2 ^ 64) env) (wsconnCreate env) labels = some final)
    (moderate : Execution.Guarded (connStepSized (2 ^ 64) env) ReadsModerate (wsconnCreate env)
      labels)
    {bev : XmppBev} (linked : final.cm.bev = some bev) :
    ∃ messages : List (List Frame),
      messages.flatten <+:
          dataFrames (foundFrames (behindRequest env (labels.filterMap Label.chunk?).flatten)) ∧
        (∀ frames ∈ messages, ∃ opcode, IsMessage opcode frames) ∧
        ∃ passed : List (List Frame), passed.Sublist messages ∧
          (∀ frames ∈ passed, IsMessage opcodeText frames) ∧
          bev.written = passed.flatten.flatMap Frame.payload := by
  rw [Execution.run_congr (connStepSized_of_moderate (by decide) env) moderate] at execution
  obtain ⟨receiver, given, messages, -, heeds, ⟨passed, sublist, texts, has⟩, ⟨later, whole⟩, -⟩ :=
    ((uplink_wsconnCreate env).run unlimited (.fresh (fresh_wsconnCreate env)) execution).heeds
  rw [List.nil_append] at whole
  refine ⟨messages, whole ▸ heeds.messages_isPrefix later, heeds.grouped, ?_⟩
  by_cases forward : final.cm.state = .forward
  · refine ⟨passed, sublist, texts, ?_⟩
    rw [← has.held_eq, CManager.held, forward, linked]
    rfl
  · exact ⟨[], List.nil_sublist _, by simp, has.unwritten forward bev linked⟩

/-- In every such run, the pongs which are queued are the payloads of the first pings of the browser,
in their order: none is answered twice, and none is left out. -/
theorem pongs_answer_pings (unlimited : env.Unlimited) {labels : List Label} {final : Conn}
    (execution : Execution.run (connStepSized (2 ^ 64) env) (wsconnCreate env) labels = some final)
    (moderate : Execution.Guarded (connStepSized (2 ^ 64) env) ReadsModerate (wsconnCreate env)
      labels) :
    final.pongs <+:
      pingPayloads (foundFrames (behindRequest env (labels.filterMap Label.chunk?).flatten)) := by
  rw [Execution.run_congr (connStepSized_of_moderate (by decide) env) moderate] at execution
  obtain ⟨receiver, given, messages, -, heeds, -, ⟨later, whole⟩, -⟩ :=
    ((uplink_wsconnCreate env).run unlimited (.fresh (fresh_wsconnCreate env)) execution).heeds
  rw [List.nil_append] at whole
  exact whole ▸ heeds.pings_isPrefix later

end

/-- The header of the stream, a stanza while the manager connects, and one when it is connected,
in two fragments with a ping between them. -/
def droppedLabels : List Label :=
  [.read sessionRequest false, .read (browserFrame opcodeText streamHeader) false,
    .read (browserFrame opcodeText (text "<a/>")) false,
    .managerEvent { connected := true, error := false, eof := false },
    .read ([1, 130, 0, 0, 0, 0] ++ text "<b") false,
    .read (browserFrame opcodePing (text "p")) false,
    .read (browserFrame opcodeContinuation (text "/>")) false]

/-- The Close frame of the browser, and a ping behind it. -/
def closeLabels : List Label :=
  [.read (browserFrame opcodeClose []) false, .read (browserFrame opcodePing (text "q")) false]

/-- The stanza which comes too early is left out as a whole. -/
theorem server_given_messages_dropped :
    ∃ final bev,
      Execution.run (connStepSized (2 ^ 64) echoEnvironment) (wsconnCreate echoEnvironment)
        droppedLabels = some final ∧
      final.cm.bev = some bev ∧ bev.written = streamHeader ++ text "<b/>" ∧
      ∃ messages : List (List Frame),
        messages.flatten <+:
            dataFrames (foundFrames
              (behindRequest echoEnvironment (droppedLabels.filterMap Label.chunk?).flatten)) ∧
          (∀ frames ∈ messages, ∃ opcode, IsMessage opcode frames) ∧
          ∃ passed : List (List Frame), passed.Sublist messages ∧
            (∀ frames ∈ passed, IsMessage opcodeText frames) ∧
            streamHeader ++ text "<b/>" = passed.flatten.flatMap Frame.payload := by
  obtain ⟨final, execution, linked⟩ :
      ∃ final, Execution.run (connStepSized (2 ^ 64) echoEnvironment) (wsconnCreate echoEnvironment)
          droppedLabels = some final ∧
        final.cm.bev.map XmppBev.written = some (streamHeader ++ text "<b/>") := by
    decide +kernel
  obtain ⟨bev, bev_eq, written_eq⟩ := Option.map_eq_some_iff.mp linked
  have given := @server_given_messages echoEnvironment (by decide) droppedLabels final execution
    (by decide +kernel) bev bev_eq
  rw [written_eq] at given
  exact ⟨final, bev, execution, bev_eq, written_eq, given⟩

/-- The ping behind the Close frame is not answered. -/
theorem pongs_answer_pings_closed :
    ∃ final, Execution.run (connStepSized (2 ^ 64) echoEnvironment) (wsconnCreate echoEnvironment)
        (droppedLabels ++ closeLabels) = some final ∧
      final.pongs = [text "p"] ∧
      [text "p"] <+: pingPayloads (foundFrames (behindRequest echoEnvironment
        ((droppedLabels ++ closeLabels).filterMap Label.chunk?).flatten)) := by
  obtain ⟨final, execution, pongs_eq⟩ :
      ∃ final, Execution.run (connStepSized (2 ^ 64) echoEnvironment) (wsconnCreate echoEnvironment)
          (droppedLabels ++ closeLabels) = some final ∧ final.pongs = [text "p"] := by
    decide +kernel
  have answered := @pongs_answer_pings echoEnvironment (by decide) (droppedLabels ++ closeLabels)
    final execution (by decide +kernel)
  rw [pongs_eq] at answered
  exact ⟨final, execution, pongs_eq, answered⟩

end Jabsocket
