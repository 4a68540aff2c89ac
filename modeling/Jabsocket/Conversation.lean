import Jabsocket.Answers
import Jabsocket.Reference

/-!
# A conversation with the browser

A browser which talks sends text messages in any fragments, with pings and pongs anywhere between
the fragments.  When every read completes at most one frame, the read callback passes every message
on as soon as its last frame is complete, and answers every ping at once.
-/

namespace Jabsocket

/-! ## What is said -/

/-- What a browser has said: the message which it has begun, its text messages and the payloads of
its pings. -/
structure Talk where
  opened : Option Draft
  texts : List (List UInt8)
  pings : List (List UInt8)
  deriving DecidableEq, Repr

namespace Talk

/-- Nothing was said. -/
def silent : Talk := { opened := none, texts := [], pings := [] }

/-- The message which a data frame begins or continues. -/
def draft (talk : Talk) (frame : WireFrame) : Draft :=
  match talk.opened with
  | none => { opcode := frame.opcode, payload := frame.payload }
  | some draft => { draft with payload := draft.payload ++ frame.payload }

/-- The opcode of the next data frame. -/
def expected (talk : Talk) : Nat :=
  if talk.opened.isSome then opcodeContinuation else opcodeText

/-- The next frame of a conversation.  There is none if the frame is out of place, closes the
conversation or is not text. -/
def hear (talk : Talk) (frame : WireFrame) : Option Talk :=
  if (frame.opcode : Nat) = opcodePing then
    if frame.fin then some { talk with pings := talk.pings ++ [frame.payload] } else none
  else if (frame.opcode : Nat) = opcodePong then if frame.fin then some talk else none
  else if (frame.opcode : Nat) = talk.expected then
    if frame.fin then
      some { talk with opened := none, texts := talk.texts ++ [(talk.draft frame).payload] }
    else some { talk with opened := some (talk.draft frame) }
  else none

/-- The ways in which a conversation goes on. -/
inductive Hears (talk : Talk) (frame : WireFrame) : Talk → Prop
  | ping (opcode_eq : (frame.opcode : Nat) = opcodePing) (final : frame.fin = true) :
      Hears talk frame { talk with pings := talk.pings ++ [frame.payload] }
  | pong (opcode_eq : (frame.opcode : Nat) = opcodePong) (final : frame.fin = true) :
      Hears talk frame talk
  | part (opcode_eq : (frame.opcode : Nat) = talk.expected) (fragment : frame.fin = false) :
      Hears talk frame { talk with opened := some (talk.draft frame) }
  | message (opcode_eq : (frame.opcode : Nat) = talk.expected) (final : frame.fin = true) :
      Hears talk frame
        { talk with opened := none, texts := talk.texts ++ [(talk.draft frame).payload] }

theorem hears_of_hear {talk next : Talk} {frame : WireFrame} (heard : talk.hear frame = some next) :
    talk.Hears frame next := by
  unfold hear at heard
  split_ifs at heard with ping final pong final data final
  · rw [← Option.some.inj heard]
    exact .ping ping final
  · rw [← Option.some.inj heard]
    exact .pong pong final
  · rw [← Option.some.inj heard]
    exact .message data final
  · rw [← Option.some.inj heard]
    exact .part data (by simpa using final)

/-- The message which was begun is text. -/
def Textual (talk : Talk) : Prop :=
  ∀ draft ∈ talk.opened, draft.opcode = opcodeText

theorem textual_silent : silent.Textual := by
  intro draft begun
  cases begun

theorem Textual.draft {talk : Talk} (textual : talk.Textual) {frame : WireFrame}
    (opcode_eq : (frame.opcode : Nat) = talk.expected) :
    (talk.draft frame).opcode = opcodeText := by
  unfold Talk.draft
  cases opened : talk.opened with
  | none => simpa [expected, opened] using opcode_eq
  | some draft => exact textual draft opened

theorem Textual.hear {talk next : Talk} {frame : WireFrame} (textual : talk.Textual)
    (heard : talk.hear frame = some next) : next.Textual := by
  cases hears_of_hear heard with
  | ping => exact textual
  | pong => exact textual
  | part opcode_eq =>
      intro draft begun
      obtain rfl : talk.draft frame = draft := Option.some.inj begun
      exact textual.draft opcode_eq
  | message => simp [Textual]

end Talk

/-- The content of a text message. -/
def Delivery.text? : Delivery → Option (List UInt8)
  | .message opcode payload => if opcode = opcodeText then some payload else none
  | .control _ _ => none

/-- The content of a ping. -/
def Delivery.ping? : Delivery → Option (List UInt8)
  | .control opcode payload => if opcode = opcodePing then some payload else none
  | .message _ _ => none

/-- What is said is what the reference delivers. -/
theorem Talk.run_hear {talk next : Talk} (textual : talk.Textual) {frames : List WireFrame}
    (heard : Execution.run Talk.hear talk frames = some next) :
    next.texts = talk.texts ++ (reassemble talk.opened frames).1.filterMap Delivery.text? ∧
      next.pings = talk.pings ++ (reassemble talk.opened frames).1.filterMap Delivery.ping? := by
  induction frames generalizing talk with
  | nil =>
      obtain rfl := Execution.run_nil.mp heard
      simp [reassemble]
  | cons frame frames ih =>
      obtain ⟨middle, first, rest⟩ := Execution.run_cons.mp heard
      obtain ⟨texts_eq, pings_eq⟩ := ih (textual.hear first) rest
      rw [texts_eq, pings_eq]
      cases hears_of_hear first with
      | ping opcode_eq final =>
          have opcode : frame.opcode.val = 9 := opcode_eq
          simp [reassemble, opcode, final, prepend, List.filterMap_cons, Delivery.text?,
            Delivery.ping?, opcodePing]
      | pong opcode_eq final =>
          have opcode : frame.opcode.val = 10 := opcode_eq
          simp [reassemble, opcode, final, prepend, List.filterMap_cons, Delivery.text?,
            Delivery.ping?, opcodePing]
      | part opcode_eq fragment =>
          cases opened : talk.opened with
          | none =>
              have opcode : frame.opcode.val = 1 := by rw [opcode_eq, expected, opened]; rfl
              simp [reassemble, opcode, fragment, Talk.draft, opened]
          | some draft =>
              have opcode : frame.opcode.val = 0 := by rw [opcode_eq, expected, opened]; rfl
              simp [reassemble, opcode, fragment, Talk.draft, opened]
      | message opcode_eq final =>
          cases opened : talk.opened with
          | none =>
              have opcode : frame.opcode.val = 1 := by rw [opcode_eq, expected, opened]; rfl
              simp [reassemble, opcode, final, Talk.draft, opened, prepend, List.filterMap_cons,
                Delivery.text?, Delivery.ping?, opcodeText]
          | some draft =>
              have opcode : frame.opcode.val = 0 := by rw [opcode_eq, expected, opened]; rfl
              have kind : draft.opcode = opcodeText := textual draft opened
              simp [reassemble, opcode, final, Talk.draft, opened, prepend, List.filterMap_cons,
                Delivery.text?, Delivery.ping?, kind]

/-! ## Frames in a stream of bytes -/

/-- Behind the complete frames of a stream there is no further one. -/
theorem exists_behind {frames : List WireFrame} {data : List UInt8}
    (beginning : data <+: frames.flatMap WireFrame.bytes) :
    ∃ behind,
      data = (frames.take (completed frames data.length)).flatMap WireFrame.bytes ++ behind ∧
        scanFrame behind = .more := by
  induction frames generalizing data with
  | nil =>
      obtain rfl : data = [] := by simpa using beginning
      exact ⟨[], rfl, rfl⟩
  | cons frame frames ih =>
      rw [List.flatMap_cons] at beginning
      by_cases complete : frame.bytes.length ≤ data.length
      · obtain ⟨rest, rfl⟩ : frame.bytes <+: data :=
          List.prefix_of_prefix_length_le (List.prefix_append _ _) beginning complete
        obtain ⟨behind, rest_eq, nothing⟩ :=
          ih ((List.prefix_append_right_inj frame.bytes).mp beginning)
        refine ⟨behind, ?_, nothing⟩
        rw [completed, if_pos complete, List.length_append, Nat.add_sub_cancel_left,
          List.take_succ_cons, List.flatMap_cons, List.append_assoc, ← rest_eq]
      · have inside : data <+: frame.bytes :=
          List.prefix_of_prefix_length_le beginning (List.prefix_append _ _) (by omega)
        refine ⟨data, by rw [completed, if_neg complete]; rfl,
          frame.scanFrame_of_isPrefix inside ?_⟩
        rintro rfl
        exact complete (Nat.le_refl _)

theorem completed_mono (frames : List WireFrame) {count more : Nat} (le : count ≤ more) :
    completed frames count ≤ completed frames more := by
  induction frames generalizing count more with
  | nil => exact Nat.le_refl _
  | cons frame frames ih =>
      rw [completed, completed]
      split_ifs with first second
      · exact Nat.succ_le_succ (ih (by omega))
      · omega
      · exact Nat.zero_le _
      · exact Nat.zero_le _

/-- A chunk completes no frame, or the next one. -/
theorem chunk_completes {frames : List WireFrame} {data chunk behind : List UInt8}
    (beginning : data ++ chunk <+: frames.flatMap WireFrame.bytes)
    (paced : completed frames (data ++ chunk).length ≤ completed frames data.length + 1)
    (data_eq :
      data = (frames.take (completed frames data.length)).flatMap WireFrame.bytes ++ behind) :
    (completed frames (data ++ chunk).length = completed frames data.length ∧
        scanFrame (behind ++ chunk) = .more) ∨
      ∃ frame rest, frames[completed frames data.length]? = some frame ∧
        completed frames (data ++ chunk).length = completed frames data.length + 1 ∧
        behind ++ chunk = frame.bytes ++ rest ∧ scanFrame rest = .more := by
  obtain ⟨behind', data_eq', nothing⟩ := exists_behind beginning
  have grows : completed frames data.length ≤ completed frames (data ++ chunk).length :=
    completed_mono frames (by simp)
  rcases Nat.eq_or_lt_of_le grows with same | more
  · refine Or.inl ⟨same.symm, ?_⟩
    rw [← same] at data_eq'
    nth_rewrite 1 [data_eq] at data_eq'
    rw [List.append_assoc] at data_eq'
    rwa [List.append_cancel_left data_eq']
  · have next : completed frames (data ++ chunk).length = completed frames data.length + 1 := by
      omega
    have bound : completed frames data.length < frames.length := by
      have le := completed_le frames (data ++ chunk).length
      omega
    refine Or.inr ⟨frames[completed frames data.length], behind', List.getElem?_eq_getElem bound,
      next, ?_, nothing⟩
    rw [next, List.take_add_one, List.getElem?_eq_getElem bound] at data_eq'
    nth_rewrite 1 [data_eq] at data_eq'
    rw [List.flatMap_append, List.append_assoc, List.append_assoc] at data_eq'
    simpa using List.append_cancel_left data_eq'

/-! ## The read callback -/

/-- No limits are configured. -/
def Environment.Unlimited (env : Environment) : Prop :=
  env.conf.maxFrameSize = 0 ∧ env.conf.maxMessageSize = 0

instance (env : Environment) : Decidable env.Unlimited :=
  inferInstanceAs (Decidable (_ ∧ _))

/-- The receiver between two frames of a conversation. -/
def Talk.receiver (talk : Talk) (behind : List UInt8) : Receiver (List UInt8) :=
  { source := behind, stage := stageOf talk.opened, parked := none, failed := false }

section

variable {env : Environment} {talk next : Talk} {behind rest : List UInt8} {frame : WireFrame}

theorem Environment.Unlimited.policy_eq (unlimited : env.Unlimited) :
    env.policy = clipping 0 0 := by
  rw [Environment.policy, unlimited.1, unlimited.2]

theorem Talk.stage_settled (talk : Talk) : (stageOf talk.opened).Settled := by
  cases talk.opened <;> trivial

theorem Talk.receiver_free (talk : Talk) (behind : List UInt8) :
    (talk.receiver behind).blocked = false := by
  simp [Receiver.blocked, Talk.receiver, Stage.settled_iff.mp talk.stage_settled]

theorem Talk.receiver_add (talk : Talk) (behind chunk : List UInt8) :
    (talk.receiver behind).add (clipping 0 0) chunk =
      (talk.receiver (behind ++ chunk)).process (clipping 0 0) := by
  have stored : (clipping 0 0).chunk behind chunk = some (behind ++ chunk) := by
    simp [clipping, admitted_unlimited]
  rw [Receiver.add, show (talk.receiver behind).source = behind from rfl, stored]
  rfl

/-- Nothing is complete. -/
theorem Talk.process_more (talk : Talk) (nothing : scanFrame behind = .more) :
    (talk.receiver behind).process (clipping 0 0) = talk.receiver behind :=
  Receiver.process_of_more (talk.receiver_free behind) nothing

/-- A control frame is complete. -/
theorem Talk.process_control (talk : Talk) (rest : List UInt8)
    (control : isControl frame.opcode = true) (final : frame.fin = true) :
    (talk.receiver (frame.bytes ++ rest)).process (clipping 0 0) =
      { talk.receiver rest with parked := some frame.decoded } := by
  rw [Receiver.process_of_control (talk.receiver_free _) (frame.scanFrame_bytes rest) control final]
  rfl

/-- A frame of a text message is complete. -/
theorem Talk.process_data (talk : Talk) (opcode_eq : (frame.opcode : Nat) = talk.expected)
    (nothing : scanFrame rest = .more) :
    (talk.receiver (frame.bytes ++ rest)).process (clipping 0 0) =
      { talk.receiver rest with
        stage := if frame.fin then .complete (talk.draft frame)
          else .started (talk.draft frame) } := by
  have data : isControl frame.decoded.opcode = false := by
    rw [WireFrame.decoded_opcode, opcode_eq, expected]
    split <;> rfl
  have accepted : (stageOf talk.opened).accepts frame.decoded = true := by
    cases opened : talk.opened <;>
      simp [stageOf, Stage.accepts, opcode_eq, expected, opened, opcodeContinuation, opcodeText]
  have extended : (stageOf talk.opened).extend frame.decoded =
      if frame.fin then .complete (talk.draft frame) else .started (talk.draft frame) := by
    cases opened : talk.opened <;> cases final : frame.fin <;>
      simp [stageOf, Stage.extend, Stage.draftWith, Talk.draft, opened, final]
  have round : (talk.receiver (frame.bytes ++ rest)).round (clipping 0 0) =
      .again { talk.receiver rest with stage := (stageOf talk.opened).extend frame.decoded } := by
    rw [Receiver.round_clipping, show (talk.receiver (frame.bytes ++ rest)).source =
      frame.bytes ++ rest from rfl, frame.scanFrame_bytes rest]
    exact Receiver.handle_of_kept data accepted (by simp [clipping, clipped, admitted_unlimited])
  rw [Receiver.process, if_neg (by simp [talk.receiver_free]),
    Loop.run_of_again (Receiver.round_decreasing _) round, extended]
  refine Loop.run_of_leave _ ?_
  rw [Receiver.round_clipping, show (talk.receiver rest).source = rest from rfl, nothing]

/-- The connection when its receiver was given the unread bytes. -/
def Conn.collected (env : Environment) (conn : Conn) : Conn :=
  { conn with input := [], wsmsg := (wsmsgAdd 0 env.heap conn.wsmsg conn.input).1 }

/-- The message which the unread bytes complete. -/
def Conn.completes (env : Environment) (conn : Conn) : Option (List UInt8) :=
  if (conn.collected env).wsmsg.message then some (conn.collected env).wsmsg.messageBuffer.data
  else none

/-- What the read callback does when it comes to a frame of a conversation. -/
inductive Takes (env : Environment) (sync : Bool) (conn : Conn) (talk next : Talk) : Conn → Prop
  /-- Nothing is passed on and nothing is answered. -/
  | quiet (wsmsg : WsMsg) (texts_eq : next.texts = talk.texts)
      (pings_eq : next.pings = talk.pings) :
      Takes env sync conn talk next { conn with input := [], wsmsg }
  /-- A ping is answered. -/
  | ping (wsmsg : WsMsg) (payload : List UInt8) (texts_eq : next.texts = talk.texts)
      (pings_eq : next.pings = talk.pings ++ [payload]) :
      Takes env sync conn talk next (answerPing { conn with input := [], wsmsg } payload)
  /-- A text message is passed on. -/
  | message (wsmsg : WsMsg) (messageBuffer : Buffer) (payload : List UInt8)
      (texts_eq : next.texts = talk.texts ++ [payload]) (pings_eq : next.pings = talk.pings)
      (completes_eq : conn.completes env = some payload) :
      Takes env sync conn talk next
        (cmOnmessage env
          (({ conn with input := [], wsmsg, messageBuffer } : Conn).log
            (.message ({ conn with input := [], wsmsg, messageBuffer } : Conn).view)) payload sync)

variable {conn : Conn}

theorem wsconnProcessFrame_eq (env : Environment) (conn : Conn) (sync : Bool) :
    wsconnProcessFrame env conn sync =
      Loop.run (Jabsocket.frameRound env sync) (fun conn => pendingMeasure conn.wsmsg)
        (conn.collected env) := rfl

theorem Receives.collected (receives : Receives env conn (talk.receiver behind))
    (unlimited : env.Unlimited) :
    Receives env (conn.collected env)
      ((talk.receiver (behind ++ conn.input)).process (clipping 0 0)) := by
  have added := receives.added
  rwa [unlimited.policy_eq, talk.receiver_add] at added

/-- The loop ends when nothing is complete. -/
theorem Receives.loop_more (receives : Receives env conn (talk.receiver behind)) (sync : Bool) :
    Loop.run (Jabsocket.frameRound env sync) (fun conn => pendingMeasure conn.wsmsg) conn = conn :=
  Loop.run_of_leave _ (receives.frameRound_settled rfl rfl talk.stage_settled sync)

/-- A read which completes no frame. -/
theorem Receives.read_more (receives : Receives env conn (talk.receiver behind))
    (unlimited : env.Unlimited) (nothing : scanFrame (behind ++ conn.input) = .more) (sync : Bool) :
    Takes env sync conn talk talk (wsconnProcessFrame env conn sync) ∧
      Receives env (wsconnProcessFrame env conn sync) (talk.receiver (behind ++ conn.input)) := by
  have collected := receives.collected unlimited
  rw [talk.process_more nothing] at collected
  rw [wsconnProcessFrame_eq, collected.loop_more]
  exact ⟨.quiet _ rfl rfl, collected⟩

theorem Receives.takeControl
    (receives : Receives env conn { talk.receiver rest with parked := some frame.decoded })
    (unlimited : env.Unlimited) (nothing : scanFrame rest = .more) :
    Receives env (conn.frameTaken env) (talk.receiver rest) := by
  have taken := receives.frameTaken rfl
  rw [unlimited.policy_eq, Receiver.takeFrame] at taken
  rwa [show ({ talk.receiver rest with parked := none } : Receiver (List UInt8)) =
    talk.receiver rest from rfl, talk.process_more nothing] at taken

theorem Receives.takeText {draft : Draft}
    (receives : Receives env conn { talk.receiver rest with stage := .complete draft })
    (unlimited : env.Unlimited) (nothing : scanFrame rest = .more) (ended : next.opened = none) :
    Receives env (conn.messageTaken env) (next.receiver rest) := by
  have taken := receives.messageTaken rfl
  rw [unlimited.policy_eq] at taken
  have processed : Receives env (conn.messageTaken env)
      (Receiver.process (clipping 0 0)
        { source := rest, stage := .idle, parked := none, failed := false }) := taken
  have idle : next.receiver rest =
      { source := rest, stage := .idle, parked := none, failed := false } := by
    rw [Talk.receiver, ended]
    rfl
  rwa [← idle, next.process_more nothing] at processed

/-- A read which completes one frame of the conversation. -/
theorem Receives.read_frame (receives : Receives env conn (talk.receiver behind))
    (unlimited : env.Unlimited) (textual : talk.Textual) (heard : talk.hear frame = some next)
    (found : behind ++ conn.input = frame.bytes ++ rest) (nothing : scanFrame rest = .more)
    (sync : Bool) :
    Takes env sync conn talk next (wsconnProcessFrame env conn sync) ∧
      Receives env (wsconnProcessFrame env conn sync) (next.receiver rest) := by
  have collected := receives.collected unlimited
  rw [found] at collected
  rw [wsconnProcessFrame_eq]
  cases Talk.hears_of_hear heard with
  | ping opcode_eq final =>
      rw [talk.process_control rest (by rw [opcode_eq]; rfl) final] at collected
      have round := collected.frameRound_parked rfl rfl sync
      rw [WireFrame.decoded_opcode, opcode_eq, if_neg (by decide), if_pos rfl] at round
      rw [Loop.run_of_leave _ round]
      exact ⟨.ping _ frame.payload rfl rfl,
        (collected.takeControl unlimited nothing).congr rfl⟩
  | pong opcode_eq final =>
      rw [talk.process_control rest (by rw [opcode_eq]; rfl) final] at collected
      have round := collected.frameRound_parked rfl rfl sync
      rw [WireFrame.decoded_opcode, opcode_eq, if_neg (by decide), if_neg (by decide)] at round
      have taken := collected.takeControl unlimited nothing
      rw [Loop.run_of_again (frameRound_decreasing env sync) round, taken.loop_more]
      exact ⟨.quiet _ rfl rfl, taken⟩
  | part opcode_eq fragment =>
      rw [talk.process_data opcode_eq nothing, fragment] at collected
      have begun : Receives env (conn.collected env)
          (({ talk with opened := some (talk.draft frame) } : Talk).receiver rest) := collected
      rw [begun.loop_more]
      exact ⟨.quiet _ rfl rfl, begun⟩
  | message opcode_eq final =>
      rw [talk.process_data opcode_eq nothing, final, if_pos rfl] at collected
      have round := collected.frameRound_complete rfl rfl rfl sync
      rw [textual.draft opcode_eq, if_pos rfl] at round
      let ended : Talk :=
        { talk with opened := none, texts := talk.texts ++ [(talk.draft frame).payload] }
      have taken : Receives env ((conn.collected env).messageTaken env) (ended.receiver rest) :=
        collected.takeText unlimited nothing rfl
      have passed := taken.congr (congrArg Prod.snd (cmOnmessage_intake env
        (((conn.collected env).messageTaken env).log
          (.message ((conn.collected env).messageTaken env).view)) (talk.draft frame).payload sync))
      rw [Loop.run_of_again (frameRound_decreasing env sync) round, passed.loop_more]
      refine ⟨.message _ _ _ rfl rfl ?_, passed⟩
      rw [Conn.completes, collected.depicts.message_eq, collected.depicts.payload_eq]
      rfl

end

end Jabsocket
