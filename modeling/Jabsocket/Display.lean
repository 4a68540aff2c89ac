import Jabsocket.Delivery
import Jabsocket.Lengths
import Jabsocket.Opening

/-!
# What the browser is shown

The stanzas which are queued for the browser are the complete items of the stream which the XMPP
server has sent, each cut to the buffer of `cm_readcb`.  This holds in every state of every run in
which no announced length is large, whatever else the browser sends, in whichever order the handlers
are called, and whichever side ends.
-/

namespace Jabsocket

/-- A framer which has received a part of a stream, and a queue with the items which are
complete. -/
def Displays (document : Document) (received : List UInt8) (queued : List Write)
    (framer : Framer) : Prop :=
  ∃ taken, Shows document received taken framer ∧
    queued.filter Write.isStanza = taken.map Item.written

/-- The manager and the queue of a connection which displays a stream: what has arrived was fed to
the framer, or the manager was closed. -/
inductive Displaying (document : Document) (sent unsent : List UInt8) :
    CManager × List Write → Prop
  | live {cm : CManager} {queued : List Write} {framer : Framer} {received : List UInt8}
      (framer_eq : cm.framer = some framer) (arrived : received ++ unsent = sent)
      (displays : Displays document received queued framer)
      (unread : ∀ bev ∈ cm.bev, bev.input = []) : Displaying document sent unsent (cm, queued)
  | ended {cm : CManager} {queued : List Write} {received : List UInt8} (bev_eq : cm.bev = none)
      (parser_eq : cm.parser = none) (arrived : received ++ unsent = sent)
      (shown : queued.filter Write.isStanza =
        (document.items.filter fun item => item.stop ≤ received.length).map Item.written) :
      Displaying document sent unsent (cm, queued)

section

variable {env : Environment} {document : Document} {sent unsent received segment : List UInt8}
  {conn : Conn} {queued : List Write} {framer : Framer}

theorem displays_framerCreate (understands : env.expat.Understands document)
    (silent : queued.filter Write.isStanza = []) :
    Displays document [] queued framerCreate :=
  ⟨[], shows_framerCreate understands, silent⟩

theorem Displays.queued_eq (displays : Displays document received queued framer)
    (plain : document.IsPlain received) :
    queued.filter Write.isStanza =
      (document.items.filter fun item => item.stop ≤ received.length).map Item.written := by
  obtain ⟨taken, shows, shown⟩ := displays
  rw [shown, shows.taken_eq plain.isStream plain.small]

theorem Displays.drained (displays : Displays document received queued framer) :
    framer.frames = [] := by
  obtain ⟨taken, shows, -⟩ := displays
  exact shows.drained

/-- Other writes do not matter. -/
theorem Displays.append (displays : Displays document received queued framer) {write : Write}
    (other : write.isStanza = false) : Displays document received (queued ++ [write]) framer := by
  obtain ⟨taken, shows, shown⟩ := displays
  refine ⟨taken, shows, ?_⟩
  rw [List.filter_append, List.filter_singleton, other, shown]
  exact List.append_nil _

theorem filter_written (items : List Item) :
    (items.map Item.written).filter Write.isStanza = items.map Item.written :=
  List.filter_eq_self.mpr (by simp [Write.isStanza, Item.written])

/-- The items which a segment completes are queued. -/
theorem Displays.receive (displays : Displays document received conn.queued framer)
    (nonempty : segment ≠ []) (understands : env.expat.Understands document)
    (beginning : received ++ segment <+: document.bytes)
    (plain : document.IsPlain (received ++ segment)) (bev : XmppBev) :
    (feedFramer env.expat framer segment).failed = false ∧
      (feedFramer env.expat framer segment).input = [] ∧
      Displays document (received ++ segment)
        (forwardFrames env.heap (feedFramer env.expat framer segment).framer
          (conn.withInput bev segment)).2.queued
        (forwardFrames env.heap (feedFramer env.expat framer segment).framer
          (conn.withInput bev segment)).1 ∧
      ∃ items : List Item,
        (forwardFrames env.heap (feedFramer env.expat framer segment).framer
          (conn.withInput bev segment)).2.queued = conn.queued ++ items.map Item.written := by
  obtain ⟨taken, shows, shown⟩ := displays
  obtain ⟨failed_eq, input_eq, -, items, queued_eq, shows'⟩ :=
    shows.receive nonempty understands beginning plain env.heap (conn.withInput bev segment)
  refine ⟨failed_eq, input_eq, ⟨taken ++ items, shows', ?_⟩, items, queued_eq⟩
  rw [queued_eq, Conn.withInput, List.filter_append, shown, filter_written, List.map_append]

/-- What is left of a connection which reads a segment. -/
theorem readSegment_exchange {bev : XmppBev} (framer_eq : conn.cm.framer = some framer)
    (unread : bev.input = [])
    (failed_eq : (feedFramer env.expat framer segment).failed = false)
    (input_eq : (feedFramer env.expat framer segment).input = []) :
    let out := forwardFrames env.heap (feedFramer env.expat framer segment).framer
      (conn.withInput bev segment)
    (readSegment env conn bev segment).exchange =
      ({ conn.cm with bev := some { bev with input := [] }, framer := some out.1 },
        out.2.queued) := by
  have cm_eq : (forwardFrames env.heap (feedFramer env.expat framer segment).framer
      (conn.withInput bev segment)).2.cm = (conn.withInput bev segment).cm :=
    forwardFrames_keeps env.heap (fun state => state.cm = (conn.withInput bev segment).cm)
      (fun _ _ same => same) _ rfl
  rw [readSegment_of_accepted env unread framer_eq failed_eq, input_eq, Conn.exchange,
    Conn.afterRead, cm_eq]
  rfl

/-- Bytes of the XMPP server arrive. -/
theorem Displaying.receive (displaying : Displaying document sent (segment ++ unsent) conn.exchange)
    {bev : XmppBev} (bev_eq : conn.cm.bev = some bev)
    (understands : env.expat.Understands document) (beginning : sent <+: document.bytes)
    (plain : document.IsPlain sent) :
    Displaying document sent unsent (readSegment env conn bev segment).exchange := by
  cases displaying with
  | ended gone => exact absurd (bev_eq.symm.trans gone) (by simp)
  | @live _ _ framer received framer_eq arrived displays unread =>
      have drained : bev.input = [] := unread bev bev_eq
      by_cases empty : segment = []
      · subst empty
        rw [readSegment_nil env bev_eq drained framer_eq displays.drained]
        exact .live framer_eq arrived displays unread
      rw [← List.append_assoc] at arrived
      subst arrived
      obtain ⟨failed_eq, input_eq, displays', -⟩ :=
        displays.receive empty understands
          (List.IsPrefix.trans (List.prefix_append _ _) beginning) plain.of_append bev
      rw [readSegment_exchange framer_eq drained failed_eq input_eq]
      refine .live rfl rfl displays' ?_
      rintro other member
      rw [← Option.some.inj member]

/-- The other handlers queue no stanza and do not touch the framer, unless they close the
manager. -/
theorem Displaying.evolves {before after : CManager × List Write} {reading : Prop}
    (displaying : Displaying document sent unsent before) (plain : document.IsPlain sent)
    (quiet : ¬ reading) (evolves : Evolves env reading before after) :
    Displaying document sent unsent after := by
  cases evolves with
  | @answer cm queued write other =>
      cases displaying with
      | live framer_eq arrived displays unread =>
          exact .live framer_eq arrived (displays.append other) unread
      | ended bev_eq parser_eq arrived shown =>
          refine .ended bev_eq parser_eq arrived ?_
          rw [List.filter_append, List.filter_singleton, other, ← shown]
          exact List.append_nil _
  | stanza now => exact absurd now quiet
  | close =>
      cases displaying with
      | live framer_eq arrived displays unread =>
          refine .ended rfl rfl arrived (displays.queued_eq ?_)
          rw [← arrived] at plain
          exact plain.of_append
      | ended bev_eq parser_eq arrived shown => exact .ended rfl rfl arrived shown
  | reject start parser_eq rejected =>
      cases displaying with
      | live framer_eq arrived displays unread => exact .live framer_eq arrived displays unread
      | ended bev_eq gone => exact absurd (parser_eq.symm.trans gone) (by simp)
  | fault parser_eq missing =>
      cases displaying with
      | live framer_eq arrived displays unread => exact .live framer_eq arrived displays unread
      | ended bev_eq gone => exact absurd (parser_eq.symm.trans gone) (by simp)
  | wait start parser_eq unnamed =>
      cases displaying with
      | live framer_eq arrived displays unread => exact .live framer_eq arrived displays unread
      | ended bev_eq gone => exact absurd (parser_eq.symm.trans gone) (by simp)
  | contact start parser_eq accepted named =>
      cases displaying with
      | live framer_eq arrived displays unread =>
          refine .live framer_eq arrived displays ?_
          rintro bev member
          rw [← Option.some.inj member]
      | ended bev_eq gone => exact absurd (parser_eq.symm.trans gone) (by simp)
  | relay linked kept later =>
      cases displaying with
      | live framer_eq arrived displays unread =>
          have drained := unread _ linked
          refine .live framer_eq arrived displays ?_
          rintro bev member
          rw [← Option.some.inj member]
          exact drained
      | ended gone => exact absurd (linked.symm.trans gone) (by simp)
  | receive now => exact absurd now quiet

/-- One handler call, which may take a segment of the stream. -/
theorem Displaying.step {label : Label} {next : Conn}
    (displaying : Displaying document sent (label.segment?.toList.flatten ++ unsent) conn.exchange)
    (understands : env.expat.Understands document) (beginning : sent <+: document.bytes)
    (plain : document.IsPlain sent) (stepped : connStep env conn label = some next) :
    Displaying document sent unsent next.exchange := by
  cases arrives : label.segment? with
  | none =>
      rw [arrives] at displaying
      refine (leads_of_connStep stepped).keeps
        (fun _ _ held evolves => held.evolves plain ?_ evolves) displaying
      rw [arrives]
      simp
  | some segment =>
      obtain rfl : label = .managerRead segment := by
        cases label <;> cases arrives
        rfl
      obtain ⟨-, handled⟩ := handles_of_connStep stepped
      cases handled with
      | managerRead _ bev_eq =>
          rw [arrives, Option.toList_some, List.flatten_singleton] at displaying
          exact displaying.receive bev_eq understands beginning plain

theorem Displaying.run {labels : List Label} {final : Conn}
    (displaying : Displaying document sent ((labels.filterMap Label.segment?).flatten ++ unsent)
      conn.exchange)
    (understands : env.expat.Understands document) (beginning : sent <+: document.bytes)
    (plain : document.IsPlain sent)
    (execution : Execution.run (connStep env) conn labels = some final) :
    Displaying document sent unsent final.exchange := by
  induction labels generalizing conn with
  | nil =>
      obtain rfl : conn = final := Option.some.inj execution
      exact displaying
  | cons label labels ih =>
      obtain ⟨next, stepped, later⟩ := Execution.run_cons.mp execution
      refine ih ?_ later
      refine Displaying.step ?_ understands beginning plain stepped
      rw [List.filterMap_cons] at displaying
      cases arrives : label.segment? with
      | none =>
          rw [arrives] at displaying
          exact displaying
      | some segment =>
          rw [arrives, List.flatten_cons, List.append_assoc] at displaying
          rw [Option.toList_some, List.flatten_singleton]
          exact displaying

/-- In every run in which no frame of the browser announces a large length, the stanzas which are
queued for the browser are the complete items of what the XMPP server has sent, in order, each cut
to the buffer of `cm_readcb`. -/
theorem stanzas_mirror_stream (understands : env.expat.Understands document)
    (stream : received <+: document.bytes) (plain : document.IsPlain received)
    {labels : List Label} {final : Conn}
    (execution : Execution.run (connStepSized (2 ^ 64) env) (wsconnCreate env) labels = some final)
    (moderate : Execution.Guarded (connStepSized (2 ^ 64) env) ReadsModerate (wsconnCreate env)
      labels)
    (arrives : (labels.filterMap Label.segment?).flatten = received) :
    final.queued.filter Write.isStanza =
      (document.items.filter fun item => item.stop ≤ received.length).map Item.written := by
  rw [Execution.run_congr (connStepSized_of_moderate (by decide) env) moderate] at execution
  have start : Displaying document received ((labels.filterMap Label.segment?).flatten ++ [])
      (wsconnCreate env).exchange := by
    rw [arrives, List.append_nil]
    exact .live rfl (List.nil_append _) (displays_framerCreate understands rfl)
      fun _ member => by cases member
  have displaying := start.run understands stream plain execution
  generalize exchange_eq : final.exchange = exchange at displaying
  cases displaying with
  | live framer_eq arrived displays unread =>
      obtain ⟨-, rfl⟩ := Prod.mk.inj exchange_eq
      rw [List.append_nil] at arrived
      rw [displays.queued_eq (arrived ▸ plain), arrived]
  | ended bev_eq parser_eq arrived shown =>
      obtain ⟨-, rfl⟩ := Prod.mk.inj exchange_eq
      rw [List.append_nil] at arrived
      rw [shown, arrived]

end

/-- An XMPP stream whose header also opens the stream of the browser. -/
def echoStream : Document :=
  { prolog := []
    root := { name := streamName, attr := [(text "to", text "x")], bytes := streamHeader }
    content := .empty
      { name := text "u" ++ [0xFF] ++ text "a", attr := [], bytes := text "<a xmlns='u'/>" } .nil
    endTag := text "</s:stream>"
    epilog := [] }

/-- The environment of the sessions, with a parser for the stream. -/
def echoEnvironment : Environment :=
  { sessionEnvironment with expat := Expat.reading echoStream }

/-- The bytes of the stream which arrive. -/
def echoBytes : List UInt8 := streamHeader ++ text "<a xmlns='u'/>"

theorem isPlain_echoStream : echoStream.IsPlain echoBytes where
  isStream :=
    { root_name := by decide +kernel
      content_names := ⟨⟨text "a", by decide +kernel, by decide +kernel⟩, trivial⟩ }
  tagged := by decide +kernel
  small := by decide +kernel
  unique := @isRestart_drop_eq_false _ 74 _ (by decide +kernel) (by decide +kernel)

/-- The browser opens its stream, is shown the header of the stream of the XMPP server, and closes
before the stanza is complete. -/
def closingLabels : List Label :=
  [.read sessionRequest false, .read (browserFrame opcodeText streamHeader) false,
    .managerEvent { connected := true, error := false, eof := false },
    .managerRead (streamHeader.take 9), .read (browserFrame opcodePing (text "b")) false,
    .managerRead (streamHeader.drop 9), .managerRead (text "<a xm"),
    .read (browserFrame opcodeClose []) false, .write 20]

theorem isPlain_closingLabels : echoStream.IsPlain (streamHeader ++ text "<a xm") := by
  have whole : echoBytes = streamHeader ++ text "<a xm" ++ text "lns='u'/>" := by decide +kernel
  have plain := isPlain_echoStream
  rw [whole] at plain
  exact plain.of_append

theorem understands_echoEnvironment : echoEnvironment.expat.Understands echoStream :=
  ⟨echoStream.reads_reading (by decide +kernel), echoStream.reads_reading (by decide +kernel)⟩

/-- The stanza which is not complete is not shown. -/
theorem stanzas_mirror_stream_closing :
    ∃ final, Execution.run (connStepSized (2 ^ 64) echoEnvironment) (wsconnCreate echoEnvironment)
        closingLabels = some final ∧
      final.wsState = .closing ∧
      final.queued.filter Write.isStanza = [.frame opcodeText streamHeader] := by
  obtain ⟨⟨final, execution, closing⟩, moderate⟩ :
      (∃ final, Execution.run (connStepSized (2 ^ 64) echoEnvironment)
          (wsconnCreate echoEnvironment) closingLabels = some final ∧ final.wsState = .closing) ∧
        Execution.Guarded (connStepSized (2 ^ 64) echoEnvironment) ReadsModerate
          (wsconnCreate echoEnvironment) closingLabels := by
    decide +kernel
  refine ⟨final, execution, closing, ?_⟩
  rw [@stanzas_mirror_stream echoEnvironment echoStream _ understands_echoEnvironment
    (by decide +kernel) isPlain_closingLabels closingLabels final execution moderate
    (by decide +kernel)]
  decide +kernel

end Jabsocket
