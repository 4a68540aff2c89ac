import Jabsocket.Conversation
import Jabsocket.Display
import Jabsocket.Forwarding
import Jabsocket.Response

/-!
# Both directions of a session

While no side closes, a connection relays: every text message of the browser is written to the XMPP
server, or kept for it until the server is connected, and every complete item of the XMPP stream and
the answer to every ping are queued for the browser.  This holds for every order in which bytes
arrive from both sides and are sent.
-/

namespace Jabsocket

/-! ## Labels -/

/-- Bytes which arrive from the browser. -/
def Label.chunk? : Label → Option (List UInt8)
  | .read bytes _ => some bytes
  | .write _ | .event _ | .managerRead _ | .managerEvent _ => none

/-- The order of events in a session which goes well.  The XMPP server can be reached, the stream
parser understands what the browser sends before the server is known, no message is completed while
the manager connects, and no side ends. -/
def GoesWell (env : Environment) (conn : Conn) : Label → Prop
  | .read bytes sync =>
      sync = false ∧
        ∀ message ∈ ({ conn with input := conn.input ++ bytes } : Conn).completes env,
          conn.cm.state ≠ .connect ∧
            (conn.cm.state = .start → ∀ parser ∈ conn.cm.parser,
              env.expat.accepts (parser.fed ++ cstr message) = true)
  | .write _ => True
  | .event events => (events.error || events.eof) = false
  | .managerRead _ => True
  | .managerEvent events => events.connected = true ∧ conn.cm.state = .connect

instance (env : Environment) (conn : Conn) : (label : Label) → Decidable (GoesWell env conn label)
  | .read _ _ => inferInstanceAs (Decidable (_ ∧ _))
  | .write _ => isTrue trivial
  | .event _ => inferInstanceAs (Decidable (_ = _))
  | .managerRead _ => isTrue trivial
  | .managerEvent _ => inferInstanceAs (Decidable (_ ∧ _))

/-! ## The invariant -/

/-- Behind the earlier ones, the answers to pings were queued, and the items of a stream. -/
def Relays (document : Document) (received : List UInt8) (pings : List (List UInt8))
    (earlier queued : List Write) (framer : Framer) : Prop :=
  Displays document received queued framer ∧
    ∃ writes, queued = earlier ++ writes ∧
      writes.filter (not ∘ Write.isStanza) = pings.map (.frame opcodePong)

/-- A connection which relays: what the browser has said, the bytes of an unfinished frame, and the
part of the XMPP stream which has not arrived. -/
structure Relaying (env : Environment) (document : Document) (sent unsent : List UInt8)
    (talk : Talk) (behind : List UInt8) (earlier : List Write) (conn : Conn) : Prop where
  serving : Serving conn
  receives : Receives env conn (talk.receiver behind)
  textual : talk.Textual
  unread : conn.input = []
  manager : conn.cm.Open
  held_eq : conn.cm.held = talk.texts.flatten
  sound : conn.cm.state = .start → ∀ parser ∈ conn.cm.parser, parser.error = false
  parses : conn.cm.Parses talk.texts
  bev_unread : ∀ bev ∈ conn.cm.bev, bev.input = []
  relays : ∃ framer received, conn.cm.framer = some framer ∧ received ++ unsent = sent ∧
    Relays document received talk.pings earlier conn.queued framer

section

variable {env : Environment} {document : Document} {sent unsent received behind : List UInt8}
  {talk : Talk} {earlier : List Write} {conn : Conn}

theorem Relays.append {pings : List (List UInt8)} {queued : List Write} {framer : Framer}
    (relays : Relays document received pings earlier queued framer) (payload : List UInt8) :
    Relays document received (pings ++ [payload]) earlier
      (queued ++ [.frame opcodePong payload]) framer := by
  obtain ⟨displays, writes, queued_eq, pongs⟩ := relays
  refine ⟨displays.append rfl, writes ++ [.frame opcodePong payload], ?_, ?_⟩
  · rw [queued_eq, List.append_assoc]
  · rw [List.filter_append, pongs]
    simp [Write.isStanza, opcodePong, opcodeText]

/-! ## The manager -/

/-- Without an error from `cm_connect`, a message for the manager changes nothing else. -/
theorem cmOnmessage_async (env : Environment) (conn : Conn) (message : List UInt8) :
    ∃ cm calls, cmOnmessage env conn message false = { conn with cm, calls } ∧
      cm.framer = conn.cm.framer ∧
      ((∀ bev ∈ conn.cm.bev, bev.input = []) → ∀ bev ∈ cm.bev, bev.input = []) := by
  unfold cmOnmessage cmOnStart
  split
  · split
    · exact ⟨_, _, rfl, rfl, id⟩
    · dsimp only
      split_ifs
      · exact ⟨_, _, rfl, rfl, id⟩
      · split
        · exact ⟨_, _, rfl, rfl, id⟩
        · split
          · exact ⟨_, _, rfl, rfl, id⟩
          · refine ⟨_, _, rfl, rfl, fun _ bev member => ?_⟩
            rw [← Option.some.inj member]
  · exact ⟨_, _, rfl, rfl, id⟩
  · split
    · exact ⟨_, _, rfl, rfl, id⟩
    · rename_i bev bev_eq
      refine ⟨_, _, rfl, rfl, fun unread other member => ?_⟩
      rw [← Option.some.inj member]
      exact unread bev bev_eq

/-- The stream parser understands a message. -/
theorem cmOnmessage_sound {parser : StreamParser} (start : conn.cm.state = .start)
    (parser_eq : conn.cm.parser = some parser) (sound : parser.error = false)
    {message : List UInt8} (accepted : env.expat.accepts (parser.fed ++ cstr message) = true) :
    ∀ other ∈ (cmOnmessage env conn message false).cm.parser, other.error = false := by
  have added : (streamparserAdd env.expat parser (cstr message)).1.error = false := by
    rw [streamparserAdd, if_pos accepted]
    exact sound
  intro other member
  rw [cmOnmessage_parser_eq env start parser_eq message] at member
  rwa [← Option.some.inj member]

/-- A message arrives at a manager which is not connecting. -/
theorem CManager.Open.onmessage (opened : conn.cm.Open) (message : List UInt8)
    (ready : conn.cm.state ≠ .connect)
    (sound : conn.cm.state = .start → ∀ parser ∈ conn.cm.parser, parser.error = false)
    (accepted : conn.cm.state = .start → ∀ parser ∈ conn.cm.parser,
      env.expat.accepts (parser.fed ++ cstr message) = true) :
    (cmOnmessage env conn message false).cm.Open ∧
      (cmOnmessage env conn message false).cm.held = conn.cm.held ++ message ∧
      ((cmOnmessage env conn message false).cm.state = .start →
        ∀ parser ∈ (cmOnmessage env conn message false).cm.parser, parser.error = false) := by
  cases state : conn.cm.state with
  | connect => exact absurd state ready
  | start =>
      obtain ⟨parser, parser_eq⟩ := Option.isSome_iff_exists.mp (opened.parser_some state)
      have clean := cmOnmessage_sound state parser_eq (sound state parser parser_eq)
        (accepted state parser parser_eq)
      have clean_any : (cmOnmessage env conn message false).cm.parser.any (·.error) = false := by
        cases after : (cmOnmessage env conn message false).cm.parser with
        | none => rfl
        | some other => simpa using clean other after
      obtain ⟨opened', held_eq⟩ := opened.onStart env message state clean_any
      exact ⟨opened', held_eq, fun _ => clean⟩
  | forward =>
      obtain ⟨opened', held_eq⟩ := opened.onForward env message state
      obtain ⟨bev, bev_eq, -⟩ := opened.bev_some (by simp [state])
      refine ⟨opened', held_eq, fun start => ?_⟩
      simp [cmOnmessage, state, bev_eq] at start

/-! ## Steps -/

theorem InLoop.serving (inLoop : InLoop conn) (receiving : conn.wsState = .receiving) :
    Serving conn := by
  obtain serving | stalled := inLoop
  · exact serving
  · simp [stalled.wsState_eq] at receiving

/-- The read callback passes on what is complete. -/
theorem Relaying.takes (relaying : Relaying env document sent unsent talk behind earlier conn)
    {next : Talk} {rest bytes : List UInt8} (textual : next.Textual) {final : Conn}
    (takes : Takes env false { conn with input := conn.input ++ bytes } talk next final)
    (receives : Receives env final (next.receiver rest))
    (well : GoesWell env conn (.read bytes false)) :
    Relaying env document sent unsent next rest earlier final := by
  obtain ⟨framer, received, framer_eq, arrived, relays⟩ := relaying.relays
  cases takes with
  | quiet wsmsg texts_eq pings_eq =>
      exact
        { relaying with
          serving := { relaying.serving with }
          receives
          textual
          unread := rfl
          held_eq := texts_eq ▸ relaying.held_eq
          parses := texts_eq ▸ relaying.parses
          relays := ⟨framer, received, framer_eq, arrived, pings_eq ▸ relays⟩ }
  | ping wsmsg payload texts_eq pings_eq =>
      have inLoop : InLoop { conn with input := [], wsmsg } := Or.inl { relaying.serving with }
      exact
        { relaying with
          serving := (inLoop.answerPing payload).serving relaying.serving.wsState_eq
          receives
          textual
          unread := rfl
          held_eq := texts_eq ▸ relaying.held_eq
          parses := texts_eq ▸ relaying.parses
          relays := ⟨framer, received, framer_eq, arrived, pings_eq ▸ relays.append payload⟩ }
  | message wsmsg messageBuffer payload texts_eq pings_eq completes_eq =>
      obtain ⟨ready, accepted⟩ := well.2 payload completes_eq
      let taken : Conn := { conn with input := [], wsmsg, messageBuffer }
      have inLoop : InLoop taken := Or.inl { relaying.serving with }
      have passed := inLoop.onmessage env payload false
      obtain ⟨opened, held_eq, sound⟩ := @CManager.Open.onmessage env
        (taken.log (.message taken.view)) relaying.manager payload ready relaying.sound accepted
      obtain ⟨cm, calls, outcome, framer_same, bev_same⟩ :=
        cmOnmessage_async env (taken.log (.message taken.view)) payload
      have serving := passed.serving (by rw [outcome]; exact relaying.serving.wsState_eq)
      have parses := @CManager.Parses.onmessage (taken.log (.message taken.view)) talk.texts
        relaying.parses env payload
      exact
        { serving
          receives
          textual
          unread := by rw [outcome]; rfl
          manager := opened
          held_eq := by
            rw [held_eq, texts_eq, List.flatten_append, ← relaying.held_eq]
            simp [taken, Conn.log]
          sound
          parses := texts_eq ▸ parses
          bev_unread := by
            rw [outcome]
            exact bev_same relaying.bev_unread
          relays := by
            rw [outcome]
            exact ⟨framer, received, framer_same.trans framer_eq, arrived, pings_eq ▸ relays⟩ }

/-- The frames of the browser which are complete were heard. -/
def Heard (env : Environment) (frames : List WireFrame) (document : Document)
    (sent unsent data : List UInt8) (earlier : List Write) (conn : Conn) : Prop :=
  ∃ talk behind,
    Execution.run Talk.hear Talk.silent (frames.take (completed frames data.length)) = some talk ∧
      data = (frames.take (completed frames data.length)).flatMap WireFrame.bytes ++ behind ∧
      Relaying env document sent unsent talk behind earlier conn

theorem exists_hear_of_run {frames : List WireFrame} {whole : Talk}
    (heard : Execution.run Talk.hear talk frames = some whole) (count : Nat) :
    ∃ next, Execution.run Talk.hear talk (frames.take count) = some next := by
  rw [← List.take_append_drop count frames, Execution.run_append] at heard
  obtain ⟨next, first, -⟩ := heard
  exact ⟨next, first⟩

/-- Bytes of the browser arrive. -/
theorem Heard.read {frames : List WireFrame} {data bytes : List UInt8}
    (heard : Heard env frames document sent unsent data earlier conn) (unlimited : env.Unlimited)
    {whole : Talk} (talks : Execution.run Talk.hear Talk.silent frames = some whole)
    (beginning : data ++ bytes <+: frames.flatMap WireFrame.bytes)
    (paced : completed frames (data ++ bytes).length ≤ completed frames data.length + 1)
    {sync : Bool} (well : GoesWell env conn (.read bytes sync)) :
    Heard env frames document sent unsent (data ++ bytes) earlier
      (wsconnReadCb env { conn with input := conn.input ++ bytes } sync) := by
  obtain ⟨talk, behind, said, data_eq, relaying⟩ := heard
  obtain rfl := well.1
  have input_eq : conn.input ++ bytes = bytes := by rw [relaying.unread, List.nil_append]
  have receives : Receives env { conn with input := conn.input ++ bytes } (talk.receiver behind) :=
    relaying.receives.congr rfl
  have outcome : wsconnReadCb env { conn with input := conn.input ++ bytes } false =
      wsconnProcessFrame env { conn with input := conn.input ++ bytes } false := by
    rw [wsconnReadCb_def]
    simp only [relaying.serving.wsState_eq]
  rw [outcome]
  obtain ⟨same, nothing⟩ | ⟨frame, rest, frame_eq, next_count, found, nothing⟩ :=
    chunk_completes beginning paced data_eq
  · obtain ⟨takes, received⟩ := receives.read_more unlimited
      (by rw [input_eq]; exact nothing) false
    refine ⟨talk, behind ++ (conn.input ++ bytes), by rw [same]; exact said, ?_,
      relaying.takes relaying.textual takes received well⟩
    rw [same, input_eq, ← List.append_assoc, ← data_eq]
  · have taken : frames.take (completed frames (data ++ bytes).length) =
        frames.take (completed frames data.length) ++ [frame] := by
      rw [next_count, List.take_add_one, frame_eq]
      rfl
    obtain ⟨next, said_next⟩ := exists_hear_of_run talks (completed frames (data ++ bytes).length)
    have hear : talk.hear frame = some next := by
      rw [taken, Execution.run_append] at said_next
      obtain ⟨middle, first, last⟩ := said_next
      obtain rfl := Option.some.inj (said.symm.trans first)
      obtain ⟨after, step, ended⟩ := Execution.run_cons.mp last
      rwa [Execution.run_nil.mp ended] at step
    obtain ⟨takes, received⟩ := receives.read_frame unlimited relaying.textual hear
      (by rw [input_eq]; exact found) nothing false
    refine ⟨next, rest, said_next, ?_,
      relaying.takes (relaying.textual.hear hear) takes received well⟩
    rw [taken, List.flatMap_append, List.append_assoc, List.flatMap_singleton, ← found,
      ← List.append_assoc, ← data_eq]

/-- The XMPP server is connected. -/
theorem Relaying.connected (relaying : Relaying env document sent unsent talk behind earlier conn)
    {events : Events} (well : GoesWell env conn (.managerEvent events)) :
    Relaying env document sent unsent talk behind earlier (cmEventcb conn events) := by
  obtain ⟨connected, connecting⟩ := well
  obtain ⟨buffer, buffer_eq, unlimited⟩ := relaying.manager.buffer_some
  obtain ⟨bev, bev_eq, unwritten⟩ := relaying.manager.bev_some (by simp [connecting])
  obtain ⟨framer, received, framer_eq, arrived, relays⟩ := relaying.relays
  have held_eq := relaying.held_eq
  have unread := relaying.bev_unread bev bev_eq
  have linked := relaying.serving.linked (by rw [bev_eq]; rfl)
  rw [cmEventcb_connected buffer_eq bev_eq connected]
  simp only [CManager.held, connecting, buffer_eq, Option.map_some, Option.getD_some] at held_eq
  exact
    { relaying with
      serving :=
        { relaying.serving with
          tracks := History.harmless relaying.serving.tracks (.xmppEvent events) trivial
          manager := Or.inr ⟨by simp, rfl, linked.framer_some, rfl⟩ }
      receives := relaying.receives.congr rfl
      manager := ⟨by simp, ⟨_, rfl, by simpa using unlimited⟩, fun _ => ⟨_, rfl, by simp⟩⟩
      held_eq := by simp [CManager.held, unwritten connecting, held_eq]
      sound := by simp
      parses := by
        obtain ⟨parser, parser_eq, beginning, -⟩ := relaying.parses
        exact ⟨parser, parser_eq, beginning, by simp⟩
      bev_unread := fun other member => by rw [← Option.some.inj member]; exact unread
      relays := ⟨framer, received, framer_eq, arrived, relays⟩ }

/-- The items which a segment completes are queued. -/
theorem Relays.receive {segment : List UInt8} {pings : List (List UInt8)} {framer : Framer}
    (relays : Relays document received pings earlier conn.queued framer)
    (nonempty : segment ≠ []) (understands : env.expat.Understands document)
    (beginning : received ++ segment <+: document.bytes)
    (plain : document.IsPlain (received ++ segment)) (bev : XmppBev) :
    (feedFramer env.expat framer segment).failed = false ∧
      (feedFramer env.expat framer segment).input = [] ∧
      Relays document (received ++ segment) pings earlier
        (forwardFrames env.heap (feedFramer env.expat framer segment).framer
          (conn.withInput bev segment)).2.queued
        (forwardFrames env.heap (feedFramer env.expat framer segment).framer
          (conn.withInput bev segment)).1 := by
  obtain ⟨displays, writes, queued_eq, pongs⟩ := relays
  obtain ⟨failed_eq, input_eq, displays', items, grown⟩ :=
    displays.receive nonempty understands beginning plain bev
  refine ⟨failed_eq, input_eq, displays', writes ++ items.map Item.written, ?_, ?_⟩
  · rw [grown, queued_eq, List.append_assoc]
  · have none : (items.map Item.written).filter (not ∘ Write.isStanza) = [] :=
      List.filter_eq_nil_iff.mpr (by simp [Write.isStanza, Item.written])
    rw [List.filter_append, pongs, none, List.append_nil]

/-- Bytes of the XMPP server arrive. -/
theorem Relaying.segment {segment : List UInt8} {bev : XmppBev}
    (relaying : Relaying env document sent (segment ++ unsent) talk behind earlier conn)
    (bev_eq : conn.cm.bev = some bev) (understands : env.expat.Understands document)
    (beginning : sent <+: document.bytes) (plain : document.IsPlain sent) :
    Relaying env document sent unsent talk behind earlier (readSegment env conn bev segment) := by
  obtain ⟨framer, received, framer_eq, arrived, relays⟩ := relaying.relays
  have unread := relaying.bev_unread bev bev_eq
  by_cases empty : segment = []
  · subst empty
    rw [readSegment_nil env bev_eq unread framer_eq relays.1.drained]
    exact relaying
  rw [← List.append_assoc] at arrived
  subst arrived
  obtain ⟨failed_eq, input_eq, relays'⟩ := relays.receive empty understands
    (List.IsPrefix.trans (List.prefix_append _ _) beginning) plain.of_append bev
  have serving : Serving (readSegment env conn bev segment) :=
    (relaying.serving.received bev_eq segment).managerRead env rfl
  have intake : (readSegment env conn bev segment).intake = conn.intake := cmReadcb_intake env _
  obtain ⟨cm_after, queued_after⟩ := Prod.mk.inj
    (readSegment_exchange framer_eq unread failed_eq input_eq)
  have held_eq := relaying.held_eq
  exact
    { serving
      receives := relaying.receives.congr (congrArg Prod.snd intake)
      textual := relaying.textual
      unread := (congrArg Prod.fst intake).trans relaying.unread
      manager := by
        rw [cm_after]
        refine ⟨relaying.manager.parser_some, relaying.manager.buffer_some, fun linked => ?_⟩
        obtain ⟨other, other_eq, unwritten⟩ := relaying.manager.bev_some linked
        obtain rfl := Option.some.inj (bev_eq.symm.trans other_eq)
        exact ⟨_, rfl, unwritten⟩
      held_eq := by
        rw [cm_after, ← held_eq]
        simp only [CManager.held, bev_eq, Option.map_some]
      sound := by
        rw [cm_after]
        exact relaying.sound
      parses := by
        rw [cm_after]
        exact relaying.parses
      bev_unread := by
        rw [cm_after]
        intro other member
        rw [← Option.some.inj member]
      relays := by
        rw [cm_after, queued_after]
        exact ⟨_, _, rfl, rfl, relays'⟩ }

/-- Calls which concern neither direction. -/
theorem Relaying.write (relaying : Relaying env document sent unsent talk behind earlier conn)
    (count : Nat) :
    Relaying env document sent unsent talk behind earlier
      (wsconnWriteCb { conn with pending := conn.pending.drop count }) := by
  have open_state : ¬ (conn.wsState = .closing ∧ conn.pending.drop count = []) := by
    simp [relaying.serving.wsState_eq]
  rw [wsconnWriteCb, if_neg open_state]
  exact
    { relaying with
      serving := { relaying.serving with }
      receives := relaying.receives.congr rfl }

/-! ## Runs -/

/-- Every order of events which goes well is relayed. -/
theorem Heard.run {frames : List WireFrame} {done : List (List UInt8)} {labels : List Label}
    {final : Conn} (heard : Heard env frames document sent
      (labels.filterMap Label.segment?).flatten done.flatten earlier conn)
    (unlimited : env.Unlimited) {whole : Talk}
    (talks : Execution.run Talk.hear Talk.silent frames = some whole)
    (understands : env.expat.Understands document) (stream : sent <+: document.bytes)
    (plain : document.IsPlain sent)
    (execution : Execution.run (connStep env) conn labels = some final)
    (well : Execution.Guarded (connStep env) (GoesWell env) conn labels)
    (beginning : (done ++ labels.filterMap Label.chunk?).flatten <+:
      frames.flatMap WireFrame.bytes)
    (paced : Paced frames (done ++ labels.filterMap Label.chunk?)) :
    Heard env frames document sent [] (done ++ labels.filterMap Label.chunk?).flatten earlier
      final := by
  induction labels generalizing conn done with
  | nil =>
      obtain rfl := Execution.run_nil.mp execution
      rwa [List.filterMap_nil, List.append_nil]
  | cons label labels ih =>
      obtain ⟨next, stepped, rest⟩ := Execution.run_cons.mp execution
      obtain ⟨here, later⟩ := well
      obtain ⟨-, handled⟩ := handles_of_connStep stepped
      cases handled with
      | read bytes sync =>
          rw [show (Label.read bytes sync :: labels).filterMap Label.chunk? =
            bytes :: labels.filterMap Label.chunk? from rfl] at beginning paced ⊢
          have longer : done.flatten ++ bytes = (done ++ [bytes]).flatten := by simp
          have front : done.flatten ++ bytes <+: frames.flatMap WireFrame.bytes := by
            refine List.IsPrefix.trans ⟨(labels.filterMap Label.chunk?).flatten, ?_⟩ beginning
            simp
          have read := heard.read unlimited talks front paced.chunk_le here
          rw [longer] at read
          rw [List.append_cons done bytes] at beginning paced ⊢
          exact ih read rest (later _ stepped) beginning paced
      | write count =>
          obtain ⟨talk, behind, said, data_eq, relaying⟩ := heard
          exact ih ⟨talk, behind, said, data_eq, relaying.write count⟩ rest (later _ stepped)
            beginning paced
      | event events =>
          obtain ⟨talk, behind, said, data_eq, relaying⟩ := heard
          have kept : wsconnEventCb conn events = conn := by
            rw [wsconnEventCb, if_neg (by simp [show _ = false from here])]
          rw [kept] at rest stepped
          exact ih ⟨talk, behind, said, data_eq, relaying⟩ rest (later _ stepped) beginning paced
      | managerRead bytes bev_eq =>
          obtain ⟨talk, behind, said, data_eq, relaying⟩ := heard
          exact ih ⟨talk, behind, said, data_eq, relaying.segment bev_eq understands stream plain⟩ rest
            (later _ stepped) beginning paced
      | managerEvent events present =>
          obtain ⟨talk, behind, said, data_eq, relaying⟩ := heard
          exact ih ⟨talk, behind, said, data_eq, relaying.connected here⟩ rest (later _ stepped)
            beginning paced

end

/-! ## Sessions -/

theorem completed_zero (frames : List WireFrame) : completed frames 0 = 0 := by
  cases frames with
  | nil => rfl
  | cons frame frames => simp [completed, WireFrame.bytes]

section

variable {env : Environment} {document : Document} {received : List UInt8} {sent : RequestText}

/-- A connection whose request was accepted relays what comes. -/
theorem heard_of_accepted (digest : ∀ bytes, (env.platform.sha1 bytes).length = 20)
    (fits : sent.Fits) (accepted : sent.verdict env.platform env.conf = .accepted)
    (understands : env.expat.Understands document) (frames : List WireFrame) {conn : Conn}
    (reachable : Reachable env conn)
    (conn_eq : conn = wsconnHandshake env
      { wsconnCreate env with req := sent.submit env.platform env.memory }) :
    Heard env frames document received received []
      [.response (wireLines (sent.answer env.platform .accepted))] conn := by
  obtain ⟨response_eq, accepted_iff⟩ := fits.analysis_eq env.memory env.conf digest
  rw [accepted] at response_eq
  rw [wsconnHandshake_eq, if_pos (by exact accepted_iff.mpr accepted)] at conn_eq
  obtain ⟨gone, phase⟩ := phase_of_reachable reachable
  have receiving : conn.wsState = .receiving := by rw [conn_eq]; rfl
  have cm_eq : conn.cm = cmCreate := by rw [conn_eq]; rfl
  have queued_eq : conn.queued =
      [.response (wireLines (sent.answer env.platform .accepted))] := by
    rw [conn_eq, ← response_eq]
    rfl
  refine ⟨Talk.silent, [], by rw [List.length_nil, completed_zero]; rfl,
    by rw [List.length_nil, completed_zero]; rfl, ?_⟩
  exact
    { serving := phase.serving_of_receiving receiving
      receives := by
        rw [conn_eq]
        exact (receives_wsconnCreate env).congr rfl
      textual := Talk.textual_silent
      unread := by rw [conn_eq]; rfl
      manager := by rw [cm_eq]; exact open_cmCreate
      held_eq := by rw [cm_eq]; rfl
      sound := by
        rw [cm_eq]
        rintro - parser member
        rw [← Option.some.inj member]
        rfl
      parses := by rw [cm_eq]; exact parses_cmCreate
      bev_unread := by simp [cm_eq, cmCreate]
      relays := by
        rw [cm_eq, queued_eq]
        exact ⟨framerCreate, [], rfl, rfl, displays_framerCreate understands rfl, [], rfl, rfl⟩ }

/-- In every session which goes well, and in every order of events, the XMPP server which the text
messages of the browser name first gets these messages, and the browser gets the answer to its
request, the complete items of the XMPP stream and the answers to its pings. -/
theorem session_relays (digest : ∀ bytes, (env.platform.sha1 bytes).length = 20)
    (unlimited : env.Unlimited) (fits : sent.Fits)
    (lines : ∀ line ∈ sent.requestLine :: sent.headerLines, 10 ∉ line)
    (accepted : sent.verdict env.platform env.conf = .accepted)
    {requestReads : List (List UInt8 × Bool)} (nonempty : ∀ read ∈ requestReads, read.1 ≠ [])
    (request : arrived requestReads = wireLines (sent.requestLine :: sent.headerLines ++ [[]]))
    {conn : Conn} (opening : Execution.run (connStepSized (2 ^ 64) env) (wsconnCreate env)
      (readLabels requestReads) = some conn)
    {frames : List WireFrame} {talk : Talk}
    (talks : Execution.run Talk.hear Talk.silent frames = some talk)
    (understands : env.expat.Understands document) (stream : received <+: document.bytes)
    (plain : document.IsPlain received) {labels : List Label} {final : Conn}
    (execution : Execution.run (connStepSized (2 ^ 64) env) conn labels = some final)
    (moderate : Execution.Guarded (connStepSized (2 ^ 64) env) ReadsModerate (wsconnCreate env)
      (readLabels requestReads ++ labels))
    (well : Execution.Guarded (connStepSized (2 ^ 64) env) (GoesWell env) conn labels)
    (beginning : (labels.filterMap Label.chunk?).flatten <+: frames.flatMap WireFrame.bytes)
    (paced : Paced frames (labels.filterMap Label.chunk?))
    (arrives : (labels.filterMap Label.segment?).flatten = received) :
    let heard := frames.take (completed frames (labels.filterMap Label.chunk?).flatten.length)
    let texts := (reassemble none heard).1.filterMap Delivery.text?
    final.wsState = .receiving ∧
      final.cm.server = namedServer (env.expat.report (texts.map cstr).flatten) ∧
      final.cm.held = texts.flatten ∧
      ∃ writes, final.queued =
          .response (wireLines (sent.answer env.platform .accepted)) :: writes ∧
        writes.partition Write.isStanza =
          ((document.items.filter fun item => item.stop ≤ received.length).map Item.written,
            ((reassemble none heard).1.filterMap Delivery.ping?).map (.frame opcodePong)) := by
  intro heard texts
  have same := @connStepSized_of_moderate (2 ^ 64) (by decide) env
  have later := moderate.later opening
  rw [Execution.run_congr same later] at execution
  rw [Execution.guarded_step_congr same later] at well
  rw [Execution.run_congr same moderate.of_append] at opening
  have opened := run_request env fits lines nonempty request
  have start := @heard_of_accepted env document received sent digest fits accepted understands
    frames conn ⟨_, opening⟩ (Option.some.inj (opening.symm.trans opened))
  rw [← arrives] at start stream plain
  have ended := @Heard.run env document _ _ conn frames [] labels final start unlimited talk talks
    understands stream plain execution well beginning paced
  rw [List.nil_append] at ended
  obtain ⟨said, behind, saying, -, relaying⟩ := ended
  obtain ⟨texts_eq, pings_eq⟩ := Talk.run_hear Talk.textual_silent saying
  obtain ⟨framer, shown, -, whole, displays, writes, queued_eq, pongs⟩ := relaying.relays
  rw [List.append_nil] at whole
  have stanzas := displays.queued_eq (whole ▸ plain)
  rw [queued_eq, whole, arrives] at stanzas
  have contacts : Contacts env final.exchange :=
    contacts_of_reachable ⟨_, Execution.run_append.mpr ⟨conn, opening, execution⟩⟩
  have texts_all : said.texts = texts := texts_eq
  refine ⟨relaying.serving.wsState_eq, ?_, ?_, writes, queued_eq, ?_⟩
  · rw [contacts.server_eq relaying.parses relaying.sound, texts_all]
  · rw [relaying.held_eq, texts_all]
  · rw [List.partition_eq_filter_filter, pongs, pings_eq]
    exact congrArg₂ Prod.mk stanzas rfl

end

/-- A masked frame of a browser. -/
def spokenFrame (fin : Bool) (opcode : Fin 16) (body : List UInt8) (fits : body.length ≤ 125) :
    WireFrame :=
  { fin, opcode, key := some ![0, 0, 0, 0], form := .seven, body, fits, small := by omega }

/-- The header of the stream, a ping, and a stanza in two fragments. -/
def spokenFrames : List WireFrame :=
  [spokenFrame true 1 streamHeader (by decide +kernel),
    spokenFrame true 9 (text "b") (by decide),
    spokenFrame false 1 (text "<b") (by decide),
    spokenFrame true 0 (text "/>") (by decide)]

/-- The XMPP server is connected and sends its header and a stanza, while the browser talks. -/
def echoLabels : List Label :=
  match spokenFrames.map WireFrame.bytes with
  | [header, ping, first, second] =>
      [.read (header.take 7) false, .read (header.drop 7) false,
        .managerEvent { connected := true, error := false, eof := false },
        .managerRead (streamHeader.take 9), .read ping false, .managerRead (streamHeader.drop 9),
        .read first false, .write 20, .managerRead (text "<a xmlns='u'/>"), .read second false]
  | _ => []

/-- The session relays in both directions. -/
theorem session_relays_echo :
    ∃ conn final,
      Execution.run (connStepSized (2 ^ 64) echoEnvironment) (wsconnCreate echoEnvironment)
        (readLabels greetingReads) = some conn ∧
      Execution.run (connStepSized (2 ^ 64) echoEnvironment) conn echoLabels = some final ∧
      final.wsState = .receiving ∧ final.cm.server = some (text "x") ∧
      final.cm.held = streamHeader ++ text "<b/>" ∧
      ∃ writes, final.queued =
          .response (wireLines
            ((RequestText.greeting "Upgrade").answer RequestText.greetingPlatform .accepted)) ::
              writes ∧
        writes.partition Write.isStanza =
          ([.frame opcodeText streamHeader, .frame opcodeText (text "<a xmlns='u'/>")],
            [.frame opcodePong (text "b")]) := by
  obtain ⟨⟨conn, opening, ⟨final, execution, -⟩, well⟩, moderate⟩ :
      (∃ conn, Execution.run (connStepSized (2 ^ 64) echoEnvironment)
          (wsconnCreate echoEnvironment) (readLabels greetingReads) = some conn ∧
        ((∃ final, Execution.run (connStepSized (2 ^ 64) echoEnvironment) conn echoLabels =
            some final ∧ final.deleted = false) ∧
          Execution.Guarded (connStepSized (2 ^ 64) echoEnvironment) (GoesWell echoEnvironment)
            conn echoLabels)) ∧
        Execution.Guarded (connStepSized (2 ^ 64) echoEnvironment) ReadsModerate
          (wsconnCreate echoEnvironment) (readLabels greetingReads ++ echoLabels) := by
    decide +kernel
  obtain ⟨talk, talks, -⟩ : ∃ talk, Execution.run Talk.hear Talk.silent spokenFrames = some talk ∧
      talk.opened = none := by
    decide +kernel
  obtain ⟨receiving, server_eq, held_eq, writes, queued_eq, shared⟩ :=
    @session_relays echoEnvironment echoStream _ (RequestText.greeting "Upgrade") (fun _ => rfl)
      (by decide) (by decide +kernel) (by decide +kernel) (by decide +kernel) greetingReads
      (by decide +kernel) (by decide +kernel) conn opening spokenFrames talk talks
      understands_echoEnvironment (by decide +kernel) isPlain_echoStream echoLabels final execution
      moderate well (by decide +kernel) (by unfold Paced; decide +kernel)
      (by decide +kernel)
  refine ⟨conn, final, opening, execution, receiving, ?_, ?_, writes, queued_eq, ?_⟩
  · rw [server_eq]
    decide +kernel
  · rw [held_eq]
    decide +kernel
  · rw [shared]
    decide +kernel

end Jabsocket
