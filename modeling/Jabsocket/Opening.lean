import Mathlib.Logic.Relation
import Jabsocket.Safety

/-!
# Opening the stream

The manager gives the messages of the browser to the stream parser until a stream element names the
XMPP server.  Which server this is depends only on the bytes of the messages, and not on how they
were cut.  No XMPP server is contacted before, and none at all once the parser has rejected a
message.
-/

namespace Jabsocket

/-! ## The name of the server -/

/-- The name of a stream element in its namespace. -/
def streamElement : List UInt8 :=
  text "http://etherx.jabber.org/streams" ++ 0xFF :: text "stream"

/-- The server which a stream element names with its attribute `to`. -/
def Callback.server? : Callback → Option (List UInt8)
  | .start el attr _ _ => if el = streamElement then attr.lookup (text "to") else none
  | .stop _ _ _ => none

/-- The first server which is named. -/
def namedServer (calls : List Callback) : Option (List UInt8) :=
  calls.findSome? Callback.server?

theorem namedServer_append (first second : List Callback) :
    namedServer (first ++ second) = (namedServer first).or (namedServer second) :=
  List.findSome?_append

/-- Where an element name is divided. -/
theorem split_name_iff {el space element : List UInt8} (plain : 0xFF ∉ space) :
    bareName el = some element ∧ namespaceOf el = space ↔ el = space ++ 0xFF :: element := by
  constructor
  · rintro ⟨bare_eq, rfl⟩
    have whole := List.takeWhile_append_dropWhile (p := (· ≠ 0xFF)) (l := el)
    cases behind : el.dropWhile (· ≠ 0xFF) with
    | nil =>
        rw [bareName, behind] at bare_eq
        cases bare_eq
    | cons separator rest =>
        have found : separator = 0xFF := by
          have nonempty : el.dropWhile (· ≠ 0xFF) ≠ [] := by
            rw [behind]
            exact List.cons_ne_nil separator rest
          have stops := List.head_dropWhile_not (· ≠ (0xFF : UInt8)) nonempty
          simp only [behind, List.head_cons] at stops
          simpa using stops
        rw [bareName, behind, List.tail?_cons, Option.some.injEq] at bare_eq
        rw [behind, found, bare_eq] at whole
        exact whole.symm
  · rintro rfl
    have before : ∀ byte ∈ space, decide (byte ≠ 0xFF) = true := by
      intro byte member
      simpa using ne_of_mem_of_not_mem member plain
    constructor
    · rw [bareName, List.dropWhile_append_of_pos before, List.dropWhile_cons_of_neg (by simp)]
      rfl
    · rw [namespaceOf, List.takeWhile_append_of_pos before, List.takeWhile_cons_of_neg (by simp),
        List.append_nil]

theorem find?_fst_map_snd {α β : Type*} [BEq α] [LawfulBEq α] (key : α) (entries : List (α × β)) :
    (entries.find? fun entry => entry.1 == key).map Prod.snd = entries.lookup key := by
  induction entries with
  | nil => rfl
  | cons entry entries ih =>
      obtain ⟨name, value⟩ := entry
      by_cases same : name = key
      · simp [same]
      · have different : (key == name) = false := by simpa using Ne.symm same
        simp [List.lookup_cons, same, different, ih]

/-- The element handler keeps the first server. -/
theorem streamparserStart_eq (server : Option (List UInt8)) (call : Callback) :
    streamparserStart server call = server.or call.server? := by
  cases call with
  | stop el index count => simp [streamparserStart, Callback.server?]
  | start el attr index count =>
      have divided := fun element => @split_name_iff el (text "http://etherx.jabber.org/streams")
        element (by decide)
      cases server with
      | some found =>
          unfold streamparserStart
          split <;> first | rfl | simp_all
      | none =>
          simp only [Option.none_or, Callback.server?]
          by_cases names : el = streamElement
          · obtain ⟨bare_eq, space_eq⟩ := (divided (text "stream")).mpr names
            rw [if_pos names, ← find?_fst_map_snd]
            simp [streamparserStart, bare_eq, space_eq]
          · rw [if_neg names]
            cases bare_eq : bareName el with
            | none => simp [streamparserStart, bare_eq]
            | some element =>
                have other : ¬ (namespaceOf el = text "http://etherx.jabber.org/streams" ∧
                    element = text "stream") := by
                  rintro ⟨space_eq, rfl⟩
                  exact names ((divided (text "stream")).mp ⟨bare_eq, space_eq⟩)
                simp only [streamparserStart, bare_eq, if_neg other]

theorem foldl_streamparserStart (calls : List Callback) (server : Option (List UInt8)) :
    calls.foldl streamparserStart server = server.or (namedServer calls) := by
  induction calls generalizing server with
  | nil => simp [namedServer]
  | cons call calls ih =>
      rw [List.foldl_cons, ih, streamparserStart_eq, Option.or_assoc, namedServer, namedServer,
        List.findSome?_cons]
      cases call.server? <;> rfl

/-- The parser knows the server and the error which the bytes fed to it determine. -/
structure StreamParser.Sound (expat : Expat) (parser : StreamParser) : Prop where
  server_eq : parser.server = namedServer (expat.report parser.fed)
  error_eq : parser.error = !expat.accepts parser.fed

theorem sound_streamparserCreate (expat : Expat) : streamparserCreate.Sound expat where
  server_eq := by
    rw [streamparserCreate, expat.report_nil]
    rfl
  error_eq := by
    rw [streamparserCreate, expat.accepts_nil]
    rfl

theorem streamparserAdd_fed (expat : Expat) (parser : StreamParser) (data : List UInt8) :
    (streamparserAdd expat parser data).1.fed = parser.fed ++ data := by
  unfold streamparserAdd
  dsimp only
  split_ifs <;> rfl

theorem StreamParser.Sound.add {expat : Expat} {parser : StreamParser} (sound : parser.Sound expat)
    (data : List UInt8) : (streamparserAdd expat parser data).1.Sound expat := by
  have named : (xmlParse expat parser.fed data).foldl streamparserStart parser.server =
      namedServer (expat.report (parser.fed ++ data)) := by
    rw [foldl_streamparserStart, sound.server_eq, ← namedServer_append, report_append_xmlParse]
  unfold streamparserAdd
  dsimp only
  split_ifs with accepted
  · refine ⟨named, ?_⟩
    rw [sound.error_eq, accepted, expat.accepts_of_append _ _ accepted]
  · refine ⟨named, ?_⟩
    simpa using accepted

/-! ## The manager in every run -/

/-- The manager of a connection, and what was queued for the browser. -/
def Conn.exchange (conn : Conn) : CManager × List Write :=
  (conn.cm, conn.queued)

/-- The frame for an item of the XMPP stream, as opposed to the answer to a ping. -/
def Write.isStanza : Write → Bool
  | .frame opcode _ => opcode == opcodeText
  | .response _ => false

/-- What a handler does to the manager and to the queue, piece by piece; `reading` tells whether it
reads from the XMPP server. -/
inductive Evolves (env : Environment) (reading : Prop) :
    CManager × List Write → CManager × List Write → Prop
  /-- The response or the answer to a control frame is queued. -/
  | answer {cm : CManager} {queued : List Write} {write : Write} (other : write.isStanza = false) :
      Evolves env reading (cm, queued) (cm, queued ++ [write])
  /-- A stanza is queued. -/
  | stanza {cm : CManager} {queued : List Write} {write : Write} (now : reading)
      (linked : cm.bev.isSome = true) :
      Evolves env reading (cm, queued) (cm, queued ++ [write])
  /-- The manager is closed. -/
  | close {cm : CManager} {queued : List Write} :
      Evolves env reading (cm, queued) (cmClose cm, queued)
  /-- The stream parser rejects a message. -/
  | reject {cm : CManager} {queued : List Write} {parser : StreamParser} {message : List UInt8}
      (start : cm.state = .start) (parser_eq : cm.parser = some parser)
      (rejected : (streamparserAdd env.expat parser message).1.error = true) :
      Evolves env reading (cm, queued)
        ({ cm with parser := some (streamparserAdd env.expat parser message).1 }, queued)
  /-- A message for which there is no buffer. -/
  | fault {cm : CManager} {queued : List Write} {parser : StreamParser} {message : List UInt8}
      (parser_eq : cm.parser = some parser) (missing : cm.buffer = none) :
      Evolves env reading (cm, queued)
        ({ cm with parser := some (streamparserAdd env.expat parser message).1 }, queued)
  /-- No server is named yet. -/
  | wait {cm : CManager} {queued : List Write} {parser : StreamParser} {message : List UInt8}
      {buffer : Buffer} (start : cm.state = .start) (parser_eq : cm.parser = some parser)
      (unnamed : (streamparserAdd env.expat parser message).1.server = none) :
      Evolves env reading (cm, queued)
        ({ cm with
          parser := some (streamparserAdd env.expat parser message).1
          buffer := some buffer }, queued)
  /-- A message names the server, which is contacted at once. -/
  | contact {cm : CManager} {queued : List Write} {parser : StreamParser} {message : List UInt8}
      {buffer : Buffer} {server : List UInt8} (start : cm.state = .start)
      (parser_eq : cm.parser = some parser)
      (accepted : (streamparserAdd env.expat parser message).1.error = false)
      (named : (streamparserAdd env.expat parser message).1.server = some server) :
      Evolves env reading (cm, queued)
        ({ cm with
          parser := some (streamparserAdd env.expat parser message).1
          buffer := some buffer
          server := some server
          bev := some { input := [], written := [] }
          dnsbase := true
          state := .connect }, queued)
  /-- Bytes go to the XMPP server. -/
  | relay {cm : CManager} {queued : List Write} {bev : XmppBev} {written : List UInt8}
      {buffer : Option Buffer} {state : ManagerState} (linked : cm.bev = some bev)
      (kept : buffer.isSome = cm.buffer.isSome) (later : state = cm.state ∨ state = .forward) :
      Evolves env reading (cm, queued)
        ({ cm with bev := some { bev with written }, buffer, state }, queued)
  /-- Bytes come from the XMPP server. -/
  | receive {cm : CManager} {queued : List Write} {bev : XmppBev} {framer : Option Framer}
      (now : reading) (linked : cm.bev.isSome = true) :
      Evolves env reading (cm, queued) ({ cm with bev := some bev, framer }, queued)

/-- A sequence of such pieces. -/
def Leads (env : Environment) (reading : Prop) (conn next : Conn) : Prop :=
  Relation.ReflTransGen (Evolves env reading) conn.exchange next.exchange

section

variable {env : Environment} {reading : Prop} {conn next : Conn}

theorem Leads.refl (env : Environment) (reading : Prop) (conn : Conn) :
    Leads env reading conn conn :=
  Relation.ReflTransGen.refl

theorem Leads.trans {final : Conn} (first : Leads env reading conn next)
    (second : Leads env reading next final) : Leads env reading conn final :=
  Relation.ReflTransGen.trans first second

/-- Only the manager and the queue matter. -/
theorem Leads.congr {other : Conn} (leads : Leads env reading other next)
    (same : other.exchange = conn.exchange) : Leads env reading conn next := by
  rwa [Leads, ← same]

theorem Evolves.leads (evolves : Evolves env reading conn.exchange next.exchange) :
    Leads env reading conn next :=
  Relation.ReflTransGen.single evolves

theorem leads_wsconnDelete (conn : Conn) : Leads env reading conn (wsconnDelete conn) :=
  Evolves.leads .close

theorem leads_closeManager (conn : Conn) : Leads env reading conn conn.closeManager :=
  Evolves.leads .close

theorem leads_wsconnClose (conn : Conn) : Leads env reading conn (wsconnClose conn) := by
  unfold wsconnClose
  dsimp only
  split_ifs
  · exact leads_closeManager (conn.setWsState .closed)
  · exact leads_wsconnDelete (conn.setWsState .closed)
  · exact .refl env reading conn

theorem leads_wsconnInitiateClose (conn : Conn) (status : Nat) (reason : List UInt8) :
    Leads env reading conn (wsconnInitiateClose conn status reason) := by
  unfold wsconnInitiateClose
  dsimp only
  split_ifs
  all_goals first
    | exact .refl env reading conn
    | exact Evolves.leads (.answer rfl)
    | exact Relation.ReflTransGen.trans (Relation.ReflTransGen.single (.answer rfl))
        (Relation.ReflTransGen.single .close)

theorem leads_wsconnOnclosed (conn : Conn) : Leads env reading conn (wsconnOnclosed conn) := by
  unfold wsconnOnclosed
  dsimp only
  split
  · exact leads_wsconnInitiateClose { conn with cmState := .closed, flCmClosed := true } _ _
  · exact leads_wsconnDelete { conn with cmState := .closed, flCmClosed := true }
  · exact .refl env reading conn
  · exact .refl env reading conn

theorem leads_cmEventcb (conn : Conn) (events : Events) :
    Leads env reading conn (cmEventcb conn events) := by
  unfold cmEventcb
  dsimp only
  split_ifs
  · split
    · rename_i buffer bev buffer_eq bev_eq
      exact Evolves.leads (.relay (show conn.cm.bev = some bev from bev_eq)
        (by rw [show conn.cm.buffer = some buffer from buffer_eq]; rfl) (Or.inr rfl))
    · exact .refl env reading conn
  · exact (leads_wsconnOnclosed (conn.log (.xmppEvent events))).trans (Evolves.leads .close)
  · exact .refl env reading conn

/-- An error of the XMPP side does not depend on the state of the manager. -/
theorem cmEventcb_withState (conn : Conn) (state : ManagerState) {events : Events}
    (failed : events.connected = false) (error : events.error = true) :
    ({ cmEventcb conn events with cm := { (cmEventcb conn events).cm with state } }).exchange =
      (cmEventcb { conn with cm := { conn.cm with state } } events).exchange := by
  simp only [cmEventcb, failed, error, Bool.false_eq_true, if_false, if_true, wsconnOnclosed,
    Conn.log, Conn.exchange]
  split
  · unfold wsconnInitiateClose
    split_ifs <;> rfl
  · rfl
  · rfl
  · rfl

/-- `cm_connect`, and the state which is assigned behind it. -/
theorem leads_cmConnect (conn : Conn) (sync : Bool) :
    Leads env reading
      { conn with
        cm :=
          { conn.cm with
            bev := some { input := [], written := [] }
            dnsbase := true
            state := .connect } }
      { cmConnect conn sync with cm := { (cmConnect conn sync).cm with state := .connect } } := by
  cases sync with
  | false => exact .refl env reading _
  | true =>
      have failed := cmEventcb_withState
        { conn with
          cm := { conn.cm with bev := some { input := [], written := [] }, dnsbase := true } }
        .connect
        (show ({ connected := false, error := true, eof := false } : Events).connected = false from rfl)
        rfl
      rw [Leads]
      refine (congrArg (Relation.ReflTransGen (Evolves env reading) _) failed).mpr ?_
      exact leads_cmEventcb _ _

/-- A message before a server is known. -/
theorem leads_cmOnStart (env : Environment) (message : List UInt8) (sync : Bool)
    (start : conn.cm.state = .start) :
    Leads env reading conn (cmOnStart env conn message sync) := by
  unfold cmOnStart
  split
  · exact .refl env reading conn
  rename_i parser parser_eq
  dsimp only
  split_ifs with rejected
  · exact Evolves.leads (.reject start parser_eq rejected)
  split
  · rename_i missing
    exact Evolves.leads (.fault parser_eq missing)
  split
  · rename_i unnamed
    exact Evolves.leads (.wait start parser_eq unnamed)
  rename_i server named
  refine Leads.trans (Evolves.leads ?_) (leads_cmConnect _ sync)
  exact .contact start parser_eq (by simpa using rejected) named

theorem leads_cmOnmessage (env : Environment) (conn : Conn) (message : List UInt8) (sync : Bool) :
    Leads env reading conn (cmOnmessage env conn message sync) := by
  unfold cmOnmessage
  split
  · rename_i start
    exact leads_cmOnStart env message sync start
  · exact .refl env reading conn
  · split
    · exact .refl env reading conn
    · rename_i bev bev_eq
      exact Evolves.leads (.relay bev_eq rfl (Or.inl rfl))

/-- The stanzas of an XMPP stream are queued only while its bufferevent exists. -/
theorem leads_forwardFrames (heap : Heap) (framer : Framer) (now : reading)
    (linked : conn.cm.bev.isSome = true) :
    Leads env reading conn (forwardFrames heap framer conn).2 ∧
      (forwardFrames heap framer conn).2.cm = conn.cm := by
  refine forwardFrames_keeps heap
    (fun state => Leads env reading conn state ∧ state.cm = conn.cm) ?_ framer
    ⟨.refl env reading conn, rfl⟩
  rintro state payload ⟨leads, cm_eq⟩
  refine ⟨leads.trans (Evolves.leads (.stanza now ?_)), cm_eq⟩
  rwa [cm_eq]

theorem leads_cmReadcb (env : Environment) (conn : Conn) (now : reading) :
    Leads env reading conn (cmReadcb env conn) := by
  unfold cmReadcb
  split
  · rename_i bev framer bev_eq framer_eq
    have linked : conn.cm.bev.isSome = true := by
      rw [bev_eq]
      rfl
    dsimp only
    split_ifs
    · exact Evolves.leads (.receive now linked)
    · obtain ⟨leads, cm_eq⟩ := @leads_forwardFrames env reading conn env.heap
        (feedFramer env.expat framer bev.input).framer now linked
      refine leads.trans (Evolves.leads (.receive now ?_))
      rwa [cm_eq]
  · exact .refl env reading conn

theorem leads_wsconnHandshake (env : Environment) (conn : Conn) :
    Leads env reading conn (wsconnHandshake env conn) := by
  unfold wsconnHandshake
  dsimp only
  split_ifs
  · exact Evolves.leads (.answer rfl)
  · refine Leads.trans (Evolves.leads ?_) (leads_wsconnClose _)
    exact .answer rfl

theorem leads_answerClose (conn : Conn) (payload : List UInt8) :
    Leads env reading conn (answerClose conn payload) := by
  unfold answerClose
  exact (leads_wsconnInitiateClose _ _ _).congr rfl

theorem leads_answerPing (conn : Conn) (payload : List UInt8) :
    Leads env reading conn (answerPing conn payload) :=
  Evolves.leads (@Evolves.answer env reading conn.cm conn.queued (.frame opcodePong payload) rfl)

theorem leads_frameStep {sync : Bool} {round : Round Conn} (step : FrameStep env sync conn round) :
    match round with
    | .again next => Leads env reading conn next
    | .leave final => Leads env reading conn final := by
  cases step with
  | failed => exact leads_wsconnClose conn
  | close payload => exact leads_answerClose (conn.frameTaken env) payload
  | ping payload => exact leads_answerPing (conn.frameTaken env) payload
  | control => exact .refl env reading conn
  | idle => exact .refl env reading conn
  | text payload => exact (leads_cmOnmessage env _ payload sync).congr rfl
  | binary => exact leads_wsconnClose (conn.messageTaken env)
  | other => exact .refl env reading conn

theorem leads_wsconnReadCb (env : Environment) (conn : Conn) (sync : Bool) :
    Leads env reading conn (wsconnReadCb env conn sync) := by
  rw [wsconnReadCb_def]
  split
  · exact handshake_induction (Leads env reading conn) (Leads env reading conn)
      (fun _ _ _ leads => leads) (fun _ leads => leads)
      (fun state leads => leads.trans (leads_wsconnClose state))
      (fun state leads => leads.trans (leads_wsconnHandshake env state)) (.refl env reading conn)
  · refine Loop.run_induction (Leads env reading conn) (Leads env reading conn)
      (frameRound_decreasing env sync) ?_ ?_ (.refl env reading conn)
    · intro state next leads again
      exact leads.trans (leads_frameStep (frameStep_of_eq again))
    · intro state final leads leave
      exact leads.trans (leads_frameStep (frameStep_of_eq leave))
  · exact .refl env reading conn
  · exact .refl env reading conn

/-- Bytes which arrive from the XMPP server. -/
def Label.segment? : Label → Option (List UInt8)
  | .managerRead bytes => some bytes
  | .read _ _ | .write _ | .event _ | .managerEvent _ => none

/-- Every handler call is a sequence of such pieces. -/
theorem leads_of_connStep {label : Label} (stepped : connStep env conn label = some next) :
    Leads env (label.segment?.isSome = true) conn next := by
  obtain ⟨-, handled⟩ := handles_of_connStep stepped
  cases handled with
  | read bytes sync => exact leads_wsconnReadCb env { conn with input := conn.input ++ bytes } sync
  | write sent =>
      unfold wsconnWriteCb
      split_ifs
      · exact leads_wsconnDelete { conn with pending := conn.pending.drop sent }
      · exact .refl env _ conn
  | event events =>
      unfold wsconnEventCb
      split_ifs
      · exact leads_wsconnClose (conn.log .browserGone)
      · exact .refl env _ conn
  | managerRead bytes bev_eq =>
      refine Leads.trans (Evolves.leads ?_) (leads_cmReadcb env _ rfl)
      exact .receive rfl (by rw [bev_eq]; rfl)
  | managerEvent events => exact leads_cmEventcb conn events

theorem Leads.keeps {kept : CManager × List Write → Prop}
    (evolves : ∀ before after, kept before → Evolves env reading before after → kept after)
    (held : kept conn.exchange) (leads : Leads env reading conn next) : kept next.exchange := by
  unfold Leads at leads
  generalize next.exchange = after at leads
  induction leads with
  | refl => exact held
  | tail _ last ih => exact evolves _ _ ih last

/-- What every piece keeps holds after every run. -/
theorem exchange_of_run {kept : CManager × List Write → Prop}
    (evolves : ∀ reading before after, kept before → Evolves env reading before after → kept after)
    {labels : List Label} {final : Conn} (start : kept conn.exchange)
    (execution : Execution.run (connStep env) conn labels = some final) : kept final.exchange := by
  have steps : ∀ state label next, kept (Conn.exchange state) →
      connStep env state label = some next → kept next.exchange :=
    fun _ _ _ held stepped => (leads_of_connStep stepped).keeps (evolves _) held
  exact Execution.invariant_of_run steps start execution

/-! ## Whom the manager contacts -/

/-- No XMPP server is contacted and no stanza is queued before a message names the server, and the
server which is contacted is the one which was named. -/
structure Contacts (env : Environment) (exchange : CManager × List Write) : Prop where
  sound : ∀ parser ∈ exchange.1.parser, parser.Sound env.expat
  buffered : exchange.1.parser.isSome = exchange.1.buffer.isSome
  parsed : exchange.1.bev.isSome = true → exchange.1.parser.isSome = true
  alone : exchange.1.state = .start → exchange.1.bev = none ∧ exchange.1.server = none ∧
    ∀ write ∈ exchange.2, write.isStanza = false
  unnamed : exchange.1.state = .start → ∀ parser ∈ exchange.1.parser, parser.error = false →
    parser.server = none
  named : exchange.1.state ≠ .start → ∀ parser ∈ exchange.1.parser,
    parser.error = false ∧ parser.server.isSome = true ∧ exchange.1.server = parser.server

theorem contacts_wsconnCreate (env : Environment) : Contacts env (wsconnCreate env).exchange where
  sound parser member := by
    rw [← Option.some.inj member]
    exact sound_streamparserCreate env.expat
  buffered := rfl
  parsed := fun _ => rfl
  alone := fun _ => ⟨rfl, rfl, fun _ member => absurd member List.not_mem_nil⟩
  unnamed := by
    rintro - parser member -
    rw [← Option.some.inj member]
    rfl
  named := fun other => absurd rfl other

theorem Contacts.evolves {before after : CManager × List Write} (contacts : Contacts env before)
    (evolves : Evolves env reading before after) : Contacts env after := by
  cases evolves with
  | answer other =>
      refine { contacts with alone := fun start => ?_ }
      obtain ⟨bev_eq, server_eq, silent⟩ := contacts.alone start
      refine ⟨bev_eq, server_eq, fun write member => ?_⟩
      rcases List.mem_append.mp member with earlier | last
      · exact silent write earlier
      · rw [List.mem_singleton.mp last]
        exact other
  | stanza now linked =>
      refine { contacts with alone := fun start => ?_ }
      rw [(contacts.alone start).1] at linked
      cases linked
  | close =>
      exact
        { sound := fun _ member => by cases member
          buffered := rfl
          parsed := fun linked => by cases linked
          alone := fun start => ⟨rfl, rfl, (contacts.alone start).2.2⟩
          unnamed := fun _ _ member => by cases member
          named := fun _ _ member => by cases member }
  | @reject cm queued parser message start parser_eq rejected =>
      have sound := (contacts.sound parser parser_eq).add message
      exact
        { sound := fun _ member => Option.some.inj member ▸ sound
          buffered := by rw [← contacts.buffered, parser_eq]; rfl
          parsed := fun _ => rfl
          alone := contacts.alone
          unnamed := by
            rintro - _ member accepted
            rw [← Option.some.inj member, rejected] at accepted
            cases accepted
          named := fun other => absurd start other }
  | @fault cm queued parser message parser_eq missing =>
      have buffered := contacts.buffered
      rw [parser_eq, missing] at buffered
      cases buffered
  | @wait cm queued parser message buffer start parser_eq unnamed =>
      have sound := (contacts.sound parser parser_eq).add message
      exact
        { sound := fun _ member => Option.some.inj member ▸ sound
          buffered := rfl
          parsed := fun _ => rfl
          alone := contacts.alone
          unnamed := by
            rintro - _ member -
            rw [← Option.some.inj member, unnamed]
          named := fun other => absurd start other }
  | @contact cm queued parser message buffer server start parser_eq accepted named =>
      have sound := (contacts.sound parser parser_eq).add message
      exact
        { sound := fun _ member => Option.some.inj member ▸ sound
          buffered := rfl
          parsed := fun _ => rfl
          alone := fun other => by cases other
          unnamed := fun other => by cases other
          named := by
            rintro - _ member
            rw [← Option.some.inj member, named]
            exact ⟨accepted, rfl, rfl⟩ }
  | @relay cm queued bev written buffer state linked kept later =>
      have begun : cm.state ≠ .start := by
        intro start
        rw [(contacts.alone start).1] at linked
        cases linked
      have begun' : state ≠ .start := by
        rcases later with rfl | rfl
        · exact begun
        · simp
      exact
        { sound := contacts.sound
          buffered := contacts.buffered.trans kept.symm
          parsed := fun _ => contacts.parsed (Option.isSome_of_eq_some linked)
          alone := fun start => absurd start begun'
          unnamed := fun start => absurd start begun'
          named := fun _ => contacts.named begun }
  | @receive cm queued bev framer now linked =>
      have begun : cm.state ≠ .start := by
        intro start
        rw [(contacts.alone start).1] at linked
        cases linked
      exact
        { contacts with
          parsed := fun _ => contacts.parsed linked
          alone := fun start => absurd start begun }

theorem contacts_of_reachable (reachable : Reachable env conn) : Contacts env conn.exchange := by
  obtain ⟨labels, execution⟩ := reachable
  exact exchange_of_run (fun _ _ _ contacts evolves => contacts.evolves evolves)
    (contacts_wsconnCreate env) execution

theorem StreamParser.Sound.add_error {expat : Expat} {parser : StreamParser}
    (sound : parser.Sound expat) (rejected : parser.error = true) (data : List UInt8) :
    (streamparserAdd expat parser data).1.error = true := by
  rw [(sound.add data).error_eq, streamparserAdd_fed]
  rw [sound.error_eq] at rejected
  by_contra accepted
  rw [expat.accepts_of_append parser.fed data (by simpa using accepted)] at rejected
  cases rejected

/-- The stream parser has rejected a message before a server was named. -/
structure Silenced (env : Environment) (exchange : CManager × List Write) : Prop extends
    Contacts env exchange where
  start : exchange.1.state = .start
  rejected : ∀ parser ∈ exchange.1.parser, parser.error = true

theorem Silenced.evolves {before after : CManager × List Write} (silenced : Silenced env before)
    (evolves : Evolves env reading before after) : Silenced env after := by
  have contacts := silenced.toContacts.evolves evolves
  have add_error : ∀ parser message, before.1.parser = some parser →
      (streamparserAdd env.expat parser message).1.error = true :=
    fun parser message parser_eq => (silenced.sound parser parser_eq).add_error
      (silenced.rejected parser parser_eq) message
  cases evolves with
  | answer => exact ⟨contacts, silenced.start, silenced.rejected⟩
  | stanza => exact ⟨contacts, silenced.start, silenced.rejected⟩
  | close => exact ⟨contacts, silenced.start, fun _ member => by cases member⟩
  | @reject cm queued parser message start parser_eq rejected =>
      exact ⟨contacts, start, fun _ member => Option.some.inj member ▸ rejected⟩
  | @fault cm queued parser message parser_eq missing =>
      exact ⟨contacts, silenced.start,
        fun _ member => Option.some.inj member ▸ add_error parser message parser_eq⟩
  | @wait cm queued parser message buffer start parser_eq unnamed =>
      exact ⟨contacts, start,
        fun _ member => Option.some.inj member ▸ add_error parser message parser_eq⟩
  | @contact cm queued parser message buffer server start parser_eq accepted named =>
      rw [add_error parser message parser_eq] at accepted
      cases accepted
  | relay linked =>
      rw [(silenced.alone silenced.start).1] at linked
      cases linked
  | receive now linked =>
      rw [(silenced.alone silenced.start).1] at linked
      cases linked

/-- The stream parser was given texts until a server was named. -/
def CManager.Parses (cm : CManager) (texts : List (List UInt8)) : Prop :=
  ∃ parser, cm.parser = some parser ∧ parser.fed <+: (texts.map cstr).flatten ∧
    (cm.state = .start → parser.fed = (texts.map cstr).flatten)

theorem parses_cmCreate : cmCreate.Parses [] :=
  ⟨streamparserCreate, rfl, List.prefix_refl [], fun _ => rfl⟩

theorem cmOnmessage_parser_eq {parser : StreamParser} (env : Environment)
    (start : conn.cm.state = .start) (parser_eq : conn.cm.parser = some parser)
    (message : List UInt8) :
    (cmOnmessage env conn message false).cm.parser =
      some (streamparserAdd env.expat parser (cstr message)).1 := by
  simp only [cmOnmessage, start, cmOnStart, parser_eq, cmConnect, Bool.false_eq_true, if_false]
  split_ifs
  · rfl
  · split
    · rfl
    · split <;> rfl

theorem CManager.Parses.onmessage {texts : List (List UInt8)} (parses : conn.cm.Parses texts)
    (env : Environment) (message : List UInt8) :
    (cmOnmessage env conn message false).cm.Parses (texts ++ [message]) := by
  obtain ⟨parser, parser_eq, beginning, all⟩ := parses
  have longer : ((texts ++ [message]).map cstr).flatten =
      (texts.map cstr).flatten ++ cstr message := by
    simp
  cases state_eq : conn.cm.state with
  | start =>
      have fed_eq : (streamparserAdd env.expat parser (cstr message)).1.fed =
          ((texts ++ [message]).map cstr).flatten := by
        rw [streamparserAdd_fed, all state_eq, longer]
      exact ⟨_, cmOnmessage_parser_eq env state_eq parser_eq message,
        fed_eq ▸ List.prefix_refl _, fun _ => fed_eq⟩
  | connect =>
      have kept : cmOnmessage env conn message false = conn := by
        simp only [cmOnmessage, state_eq]
      rw [kept]
      refine ⟨parser, parser_eq, beginning.trans ⟨cstr message, longer.symm⟩, fun start => ?_⟩
      rw [state_eq] at start
      cases start
  | forward =>
      have kept : (cmOnmessage env conn message false).cm.parser = conn.cm.parser ∧
          (cmOnmessage env conn message false).cm.state = .forward := by
        simp only [cmOnmessage, state_eq]
        split
        · exact ⟨rfl, state_eq⟩
        · exact ⟨rfl, rfl⟩
      refine ⟨parser, kept.1.trans parser_eq, beginning.trans ⟨cstr message, longer.symm⟩,
        fun start => ?_⟩
      rw [kept.2] at start
      cases start

/-- The server depends only on the bytes of the texts. -/
theorem Contacts.server_eq {texts : List (List UInt8)} (contacts : Contacts env conn.exchange)
    (parses : conn.cm.Parses texts)
    (sound : conn.cm.state = .start → ∀ parser ∈ conn.cm.parser, parser.error = false) :
    conn.cm.server = namedServer (env.expat.report (texts.map cstr).flatten) := by
  obtain ⟨parser, parser_eq, ⟨rest, whole⟩, all⟩ := parses
  have known := (contacts.sound parser parser_eq).server_eq
  by_cases start : conn.cm.state = .start
  · have unnamed := contacts.unnamed start parser parser_eq (sound start parser parser_eq)
    rw [show conn.cm.server = none from (contacts.alone start).2.1, ← all start, ← known, unnamed]
  · obtain ⟨-, named, server_eq⟩ := contacts.named start parser parser_eq
    obtain ⟨server, found⟩ := Option.isSome_iff_exists.mp named
    obtain ⟨more, report_eq⟩ := env.expat.report_extends parser.fed rest
    rw [show conn.cm.server = parser.server from server_eq, ← whole, ← report_eq,
      namedServer_append, ← known, found]
    rfl

end

/-- The header of the stream arrives. -/
def opening : List Label :=
  [.read sessionRequest false, .read (browserFrame opcodeText streamHeader) false]

end Jabsocket
