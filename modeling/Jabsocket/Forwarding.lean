import Jabsocket.Safety

/-!
# From the browser to the XMPP server

Messages of the browser are kept in a buffer until the header of its stream is complete, the buffer
is written when the XMPP server is connected, and later messages are written at once.  Messages
which arrive in between are dropped.
-/

namespace Jabsocket

/-- What happens to a manager while no side closes. -/
inductive Feed where
  /-- A text message of the browser arrives. -/
  | message (bytes : List UInt8)
  /-- The connection to the XMPP server is established. -/
  | connected
  deriving DecidableEq, Repr

/-- A connection, and the bytes of all messages which have arrived. -/
structure Fed where
  conn : Conn
  received : List UInt8

/-- One step of the manager.  The connection is established once, after `cm_connect`; a message
which the stream parser rejects is left out. -/
def feedStep (env : Environment) (state : Fed) : Feed → Option Fed
  | .message bytes =>
      let conn := cmOnmessage env state.conn bytes false
      if conn.cm.parser.any (·.error) then none
      else some { conn, received := state.received ++ bytes }
  | .connected =>
      if state.conn.cm.state = .connect then
        some
          { state with
            conn := cmEventcb state.conn { connected := true, error := false, eof := false } }
      else none

/-- Bytes of the browser which the manager has written or will write. -/
def CManager.held (cm : CManager) : List UInt8 :=
  match cm.state with
  | .start | .connect => (cm.buffer.map Buffer.data).getD []
  | .forward => (cm.bev.map XmppBev.written).getD []

/-- No message arrives between `cm_connect` and the establishment of the connection. -/
def ArrivesInTime (state : Fed) : Feed → Prop
  | .message bytes => state.conn.cm.state = .connect → bytes = []
  | .connected => True

/-- The resources of the manager while no side closes. -/
structure CManager.Open (cm : CManager) : Prop where
  parser_some : cm.state = .start → cm.parser.isSome = true
  buffer_some : ∃ buffer, cm.buffer = some buffer ∧ buffer.maxLength = 0
  bev_some : cm.state ≠ .start →
    ∃ bev, cm.bev = some bev ∧ (cm.state = .connect → bev.written = [])

theorem open_cmCreate : cmCreate.Open where
  parser_some := fun _ => rfl
  buffer_some := ⟨bufferCreate 0, rfl, rfl⟩
  bev_some := fun other => absurd rfl other

section

variable {conn : Conn}

/-- A message which arrives before the header of the stream is complete is kept in the buffer. -/
theorem CManager.Open.onStart (opened : conn.cm.Open) (env : Environment) (bytes : List UInt8)
    (start : conn.cm.state = .start)
    (sound : (cmOnmessage env conn bytes false).cm.parser.any (·.error) = false) :
    (cmOnmessage env conn bytes false).cm.Open ∧
      (cmOnmessage env conn bytes false).cm.held = conn.cm.held ++ bytes := by
  obtain ⟨parser, parser_eq⟩ := Option.isSome_iff_exists.mp (opened.parser_some start)
  obtain ⟨buffer, buffer_eq, unlimited⟩ := opened.buffer_some
  have kept : ∃ filled : Buffer, (bufferAppend 0 buffer bytes).1 = filled ∧
      filled.maxLength = 0 ∧ filled.data = buffer.data ++ bytes :=
    ⟨_, rfl, by simp [unlimited], bufferAppend_data_unlimited bytes unlimited⟩
  obtain ⟨filled, filled_eq, filled_unlimited, filled_data⟩ := kept
  have held_eq : conn.cm.held = buffer.data := by
    simp [CManager.held, start, buffer_eq]
  simp only [cmOnmessage, start, cmOnStart, parser_eq, buffer_eq, filled_eq] at sound ⊢
  generalize (streamparserAdd env.expat parser (cstr bytes)).1 = parser' at sound ⊢
  split_ifs at sound ⊢ with failed
  · simp [failed] at sound
  · split
    · refine ⟨⟨fun _ => rfl, ⟨filled, rfl, filled_unlimited⟩, fun other => absurd rfl other⟩, ?_⟩
      rw [held_eq]
      simp [CManager.held, filled_data]
    · refine ⟨⟨fun _ => rfl, ⟨filled, rfl, filled_unlimited⟩,
        fun _ => ⟨{ input := [], written := [] }, rfl, fun _ => rfl⟩⟩, ?_⟩
      rw [held_eq]
      simp [CManager.held, cmConnect, filled_data]

/-- A message which arrives when the connection is established is written. -/
theorem CManager.Open.onForward (opened : conn.cm.Open) (env : Environment) (bytes : List UInt8)
    (forward : conn.cm.state = .forward) :
    (cmOnmessage env conn bytes false).cm.Open ∧
      (cmOnmessage env conn bytes false).cm.held = conn.cm.held ++ bytes := by
  obtain ⟨bev, bev_eq, -⟩ := opened.bev_some (by simp [forward])
  simp only [cmOnmessage, forward, bev_eq]
  refine ⟨⟨fun start => ?_, opened.buffer_some, fun _ => ⟨_, rfl, fun connect => ?_⟩⟩, ?_⟩
  · cases start
  · cases connect
  · simp [CManager.held, forward, bev_eq]

/-- The buffer is written when the connection is established. -/
theorem CManager.Open.onConnected (opened : conn.cm.Open) (connecting : conn.cm.state = .connect) :
    (cmEventcb conn { connected := true, error := false, eof := false }).cm.Open ∧
      (cmEventcb conn { connected := true, error := false, eof := false }).cm.held =
        conn.cm.held := by
  obtain ⟨buffer, buffer_eq, unlimited⟩ := opened.buffer_some
  obtain ⟨bev, bev_eq, unwritten⟩ := opened.bev_some (by simp [connecting])
  simp only [cmEventcb, Conn.log, buffer_eq, bev_eq, if_true]
  refine ⟨⟨fun start => ?_, ⟨_, rfl, by simpa using unlimited⟩,
    fun _ => ⟨_, rfl, fun connect => ?_⟩⟩, ?_⟩
  · cases start
  · cases connect
  · simp [CManager.held, connecting, buffer_eq, unwritten connecting]

end

/-! ## Steps -/

/-- A step keeps the resources, and the manager then holds all of a message which arrives in time
and nothing of the others. -/
theorem CManager.Open.step {env : Environment} {state next : Fed} {label : Feed}
    (opened : state.conn.cm.Open) (stepped : feedStep env state label = some next) :
    next.conn.cm.Open ∧ ∃ bytes, next.received = state.received ++ bytes ∧
      ((ArrivesInTime state label ∧ next.conn.cm.held = state.conn.cm.held ++ bytes) ∨
        (¬ ArrivesInTime state label ∧ next.conn.cm.held = state.conn.cm.held ∧ bytes ≠ [])) := by
  cases label with
  | message bytes =>
      simp only [feedStep] at stepped
      split_ifs at stepped with failed
      injection stepped with next_eq
      rw [← next_eq]
      cases state_eq : state.conn.cm.state with
      | start =>
          obtain ⟨opened', held_eq⟩ := opened.onStart env bytes state_eq (by simpa using failed)
          refine ⟨opened', bytes, rfl, Or.inl ⟨fun connect => ?_, held_eq⟩⟩
          simp [state_eq] at connect
      | connect =>
          have dropped : cmOnmessage env state.conn bytes false = state.conn := by
            simp [cmOnmessage, state_eq]
          rw [dropped]
          refine ⟨opened, bytes, rfl, ?_⟩
          by_cases empty : bytes = []
          · exact Or.inl ⟨fun _ => empty, by simp [empty]⟩
          · exact Or.inr ⟨fun inTime => empty (inTime state_eq), rfl, empty⟩
      | forward =>
          obtain ⟨opened', held_eq⟩ := opened.onForward env bytes state_eq
          refine ⟨opened', bytes, rfl, Or.inl ⟨fun connect => ?_, held_eq⟩⟩
          simp [state_eq] at connect
  | connected =>
      simp only [feedStep] at stepped
      split_ifs at stepped with connecting
      injection stepped with next_eq
      rw [← next_eq]
      obtain ⟨opened', held_eq⟩ := opened.onConnected connecting
      exact ⟨opened', [], by simp, Or.inl ⟨trivial, by simp [held_eq]⟩⟩

/-- What every step keeps: the resources are there, and what is held arrived in this order. -/
def Fed.Kept (state : Fed) : Prop :=
  state.conn.cm.Open ∧ state.conn.cm.held.Sublist state.received

/-- Every message is held. -/
def Fed.Complete (state : Fed) : Prop :=
  state.conn.cm.held = state.received

theorem kept_of_feedStep {env : Environment} (state : Fed) (label : Feed) (next : Fed)
    (kept : state.Kept) (stepped : feedStep env state label = some next) : next.Kept := by
  obtain ⟨opened, bytes, received_eq, held | held⟩ := kept.1.step stepped
  · refine ⟨opened, ?_⟩
    rw [held.2, received_eq]
    exact kept.2.append_right bytes
  · refine ⟨opened, ?_⟩
    rw [held.2.1, received_eq]
    exact kept.2.trans (List.sublist_append_left _ _)

/-- What was dropped is never made up for. -/
theorem Fed.Kept.complete_of_step {env : Environment} {state next : Fed} {label : Feed}
    (kept : state.Kept) (stepped : feedStep env state label = some next)
    (complete : next.Complete) : state.Complete := by
  obtain ⟨opened, bytes, received_eq, held | held⟩ := kept.1.step stepped
  · rw [Fed.Complete, held.2, received_eq] at complete
    exact List.append_cancel_right complete
  · rw [Fed.Complete, held.2.1, received_eq] at complete
    have shorter := kept.2.length_le
    have positive := List.length_pos_of_ne_nil held.2.2
    rw [complete, List.length_append] at shorter
    omega

theorem Fed.Kept.complete_iff {env : Environment} {state next : Fed} {label : Feed}
    (kept : state.Kept) (complete : state.Complete)
    (stepped : feedStep env state label = some next) :
    next.Complete ↔ ArrivesInTime state label := by
  obtain ⟨opened, bytes, received_eq, held | held⟩ := kept.1.step stepped
  · refine iff_of_true ?_ held.1
    rw [Fed.Complete, held.2, received_eq, complete]
  · refine iff_of_false (fun complete' => ?_) held.1
    rw [Fed.Complete, held.2.1, received_eq, complete] at complete'
    exact held.2.2 (by simpa using complete')

/-! ## Runs -/

/-- The connection is established and all messages so far were written, in the order of their
arrival. -/
def Fed.Forwarded (state : Fed) : Prop :=
  ∃ bev, state.conn.cm.bev = some bev ∧ bev.written = state.received

theorem Fed.Kept.forwarded_iff_complete {state : Fed} (kept : state.Kept)
    (established : state.conn.cm.state = .forward) : state.Forwarded ↔ state.Complete := by
  obtain ⟨bev, bev_eq, -⟩ := kept.1.bev_some (by simp [established])
  simp [Fed.Forwarded, Fed.Complete, CManager.held, established, bev_eq]

/-- In a run which has established the connection, all messages were written in the order of their
arrival exactly when none arrived while connecting. -/
theorem forwarded_iff (env : Environment) (conn : Conn) {labels : List Feed} {final : Fed}
    (execution : Execution.run (feedStep env)
      { conn := { conn with cm := cmCreate }, received := [] } labels = some final)
    (established : final.conn.cm.state = .forward) :
    final.Forwarded ↔ Execution.Guarded (feedStep env) ArrivesInTime
      { conn := { conn with cm := cmCreate }, received := [] } labels := by
  have start : Fed.Kept { conn := { conn with cm := cmCreate }, received := [] } :=
    ⟨open_cmCreate, List.Sublist.refl []⟩
  have kept := Execution.invariant_of_run kept_of_feedStep start execution
  rw [kept.forwarded_iff_complete established,
    ← Execution.always_iff_guarded kept_of_feedStep
      (fun _ _ _ kept complete stepped => kept.complete_iff complete stepped) start rfl execution]
  exact Execution.always_iff_last kept_of_feedStep
    (fun _ _ _ kept stepped complete => kept.complete_of_step stepped complete) start execution

/-- The header of a stream arrives before the connection is established and a stanza afterwards. -/
theorem forwarded_iff_stanza :
    ∃ final, Execution.run (feedStep sessionEnvironment)
        { conn := { wsconnCreate sessionEnvironment with cm := cmCreate }, received := [] }
        [.message streamHeader, .connected, .message (text "<a/>")] = some final ∧
      final.conn.cm.state = .forward ∧
      (final.Forwarded ↔ Execution.Guarded (feedStep sessionEnvironment) ArrivesInTime
        { conn := { wsconnCreate sessionEnvironment with cm := cmCreate }, received := [] }
        [.message streamHeader, .connected, .message (text "<a/>")]) := by
  obtain ⟨final, execution, established⟩ : ∃ final, Execution.run (feedStep sessionEnvironment)
        { conn := { wsconnCreate sessionEnvironment with cm := cmCreate }, received := [] }
        [.message streamHeader, .connected, .message (text "<a/>")] = some final ∧
      final.conn.cm.state = .forward := by
    decide +kernel
  exact ⟨final, execution, established, forwarded_iff _ _ execution established⟩

/-- A stanza which arrives while the manager connects is lost. -/
theorem not_forwarded_stanza :
    ∃ final, Execution.run (feedStep sessionEnvironment)
        { conn := { wsconnCreate sessionEnvironment with cm := cmCreate }, received := [] }
        [.message streamHeader, .message (text "<a/>"), .connected] = some final ∧
      final.conn.cm.state = .forward ∧
      final.conn.cm.bev = some { input := [], written := streamHeader } ∧
      final.received = streamHeader ++ text "<a/>" ∧ ¬ final.Forwarded := by
  obtain ⟨final, execution, established, bev_eq, received_eq⟩ :
      ∃ final, Execution.run (feedStep sessionEnvironment)
          { conn := { wsconnCreate sessionEnvironment with cm := cmCreate }, received := [] }
          [.message streamHeader, .message (text "<a/>"), .connected] = some final ∧
        final.conn.cm.state = .forward ∧
        final.conn.cm.bev = some { input := [], written := streamHeader } ∧
        final.received = streamHeader ++ text "<a/>" := by
    decide +kernel
  refine ⟨final, execution, established, bev_eq, received_eq, ?_⟩
  rintro ⟨bev, same, written_eq⟩
  rw [bev_eq] at same
  obtain rfl := Option.some.inj same
  rw [received_eq] at written_eq
  exact absurd written_eq (by decide +kernel)

end Jabsocket
