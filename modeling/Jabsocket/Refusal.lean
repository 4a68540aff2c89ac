import Jabsocket.Intake
import Jabsocket.Parking

/-!
# Frames which have to be refused

A server has to fail on a reserved opcode, on a control frame with more than 125 bytes and on a
frame without a mask.  The receiver looks at none of the three: such a frame is refused only when it
is a fragment of a control frame, out of sequence, or has no room in the message.
-/

namespace Jabsocket

/-! ## Illegal frames -/

/-- Opcodes without a meaning. -/
def ReservedOpcode (opcode : Nat) : Prop :=
  (3 ≤ opcode ∧ opcode ≤ 7) ∨ (11 ≤ opcode ∧ opcode ≤ 15)

instance (opcode : Nat) : Decidable (ReservedOpcode opcode) :=
  inferInstanceAs (Decidable (_ ∨ _))

/-- A frame which a server must not accept from a browser. -/
def Frame.Illegal (frame : Frame) : Prop :=
  ReservedOpcode frame.opcode ∨ (isControl frame.opcode = true ∧ 125 < frame.payload.length) ∨
    frame.mask = false

/-- The receiver refuses a frame: it is a fragment of a control frame, out of sequence, or the
message is full. -/
def WsMsg.Rejects (wsmsg : WsMsg) (frame : Frame) : Prop :=
  if isControl frame.opcode then frame.fin = false
  else
    wsmsg.messageStarted ≠ (frame.opcode == opcodeContinuation) ∨
      (frame.payload ≠ [] ∧ 0 < wsmsg.messageBuffer.maxLength ∧
        wsmsg.messageBuffer.maxLength ≤ wsmsg.messageBuffer.length)

/-- A connection whose receiver is in a given state closes, and answers nothing. -/
def ClosesUnanswered (sizeMod : Nat) (wsmsg : WsMsg) : Prop :=
  ∀ env sync conn, conn.wsmsg = wsmsg →
    frameRoundSized sizeMod env sync conn = .leave (wsconnClose conn) ∧
      (wsconnClose conn).queued = conn.queued

/-- Illegal frames are rejected in a call: the call ends with each of them, the receiver has failed,
no control frame waits to be answered, and the connection closes.  Messages which are delivered are
text or binary. -/
structure FailsCall (sizeMod : Nat) (heap : Heap) (wsmsg : WsMsg) (call : ReceiverCall) : Prop where
  rejected : ∀ visited frame rest, ComesTo sizeMod heap wsmsg call visited →
    scanFrame visited.frameBuffer.data = .item frame rest → frame.Illegal →
    wsmsgProcessRound sizeMod heap visited = .leave (wsmsgCall sizeMod heap (wsmsg, []) call).1 ∧
      (wsmsgCall sizeMod heap (wsmsg, []) call).1.error = true ∧
      (wsmsgCall sizeMod heap (wsmsg, []) call).1.frame = false ∧
      ClosesUnanswered sizeMod (wsmsgCall sizeMod heap (wsmsg, []) call).1
  delivered : ∀ opcode payload,
    .message opcode payload ∈ (wsmsgCall sizeMod heap (wsmsg, []) call).2 →
    opcode = opcodeText ∨ opcode = opcodeBinary

/-- Every illegal frame which a call takes is refused for another reason. -/
def RefusesCall (sizeMod : Nat) (heap : Heap) (wsmsg : WsMsg) (call : ReceiverCall) : Prop :=
  ∀ visited frame rest, ComesTo sizeMod heap wsmsg call visited →
    scanFrame visited.frameBuffer.data = .item frame rest → frame.Illegal → visited.Rejects frame

/-- One call. -/
def receiverStep (sizeMod : Nat) (heap : Heap) (wsmsg : WsMsg) (call : ReceiverCall) :
    Option WsMsg :=
  some (wsmsgCall sizeMod heap (wsmsg, []) call).1

/-! ## One round -/

/-- What a round of the loop does with a frame which it takes. -/
inductive TakesFrame (wsmsg : WsMsg) (frame : Frame) : Round WsMsg → Prop
  | rejected {final : WsMsg} (rejects : wsmsg.Rejects frame) (error : final.error = true)
      (frame_eq : final.frame = wsmsg.frame)
      (started_eq : final.messageStarted = wsmsg.messageStarted)
      (opcode_eq : final.messageOpcode = wsmsg.messageOpcode) :
      TakesFrame wsmsg frame (.leave final)
  | parked {final : WsMsg} (taken : ¬ wsmsg.Rejects frame) (frame_eq : final.frame = true)
      (started_eq : final.messageStarted = wsmsg.messageStarted)
      (opcode_eq : final.messageOpcode = wsmsg.messageOpcode) :
      TakesFrame wsmsg frame (.leave final)
  | accepted {next : WsMsg} (taken : ¬ wsmsg.Rejects frame)
      (data : isControl frame.opcode = false)
      (sequence : wsmsg.messageStarted = (frame.opcode == opcodeContinuation))
      (opcode_eq : next.messageOpcode =
        if wsmsg.messageStarted then wsmsg.messageOpcode else frame.opcode) :
      TakesFrame wsmsg frame (.again next)

section

variable {maxFrameSize maxMessageSize : Nat} {wsmsg : WsMsg} {receiver : Receiver (List UInt8)}
  {frame : Frame} {rest : List UInt8}

theorem clipped_eq_nil_iff {limit : Nat} {input : List UInt8} :
    clipped limit input = [] ↔ input = [] := by
  unfold clipped
  split_ifs with unlimited
  · rfl
  · simp [unlimited]

theorem admitted_eq_none_iff {limit : Nat} {content input : List UInt8} :
    admitted limit content input = none ↔
      input ≠ [] ∧ 0 < limit ∧ limit ≤ content.length := by
  unfold admitted
  split_ifs with empty unlimited room
  · simp [empty]
  · simp [unlimited]
  · simp [room]
  · simp [empty, Nat.pos_of_ne_zero unlimited, Nat.le_of_not_lt room]

theorem Depicts.takesFrame_inSequence
    (depicts : Depicts maxFrameSize maxMessageSize wsmsg receiver) (heap : Heap)
    (found : scanFrame receiver.source = .item frame rest) (data : isControl frame.opcode = false)
    (sequence : wsmsg.messageStarted = (frame.opcode == opcodeContinuation)) :
    TakesFrame wsmsg frame (wsmsgProcessRound 0 heap wsmsg) := by
  obtain ⟨stored, ready, kept, -⟩ := depicts.getFrame_eq heap found
  have in_sequence : (wsmsg.messageStarted && frame.opcode != opcodeContinuation) = false ∧
      (!wsmsg.messageStarted && frame.opcode == opcodeContinuation) = false := by
    rw [sequence, bne]
    cases frame.opcode == opcodeContinuation <;> exact ⟨rfl, rfl⟩
  have rejects_iff : wsmsg.Rejects frame ↔
      admitted wsmsg.messageBuffer.maxLength wsmsg.messageBuffer.data stored.data = none := by
    rw [admitted_eq_none_iff, kept, ne_eq, clipped_eq_nil_iff]
    simp [WsMsg.Rejects, data, sequence, Buffer.length]
  obtain ⟨-, ok⟩ := bufferAppend_eq_admitted wsmsg.messageBuffer stored.data
  rcases outcome : bufferAppend 0 wsmsg.messageBuffer stored.data with ⟨messageBuffer, result⟩
  rw [outcome] at ok
  cases result with
  | false =>
      simp only [wsmsgProcessRound, ready, data, in_sequence, outcome, Bool.false_eq_true, if_false]
      refine .rejected (rejects_iff.mpr ?_) rfl rfl rfl rfl
      simpa using ok.symm
  | true =>
      simp only [wsmsgProcessRound, ready, data, in_sequence, outcome, Bool.false_eq_true, if_false]
      refine .accepted (fun rejects => ?_) data sequence rfl
      rw [rejects_iff.mp rejects] at ok
      cases ok

/-- A round takes a frame in one of these ways. -/
theorem Depicts.takesFrame (depicts : Depicts maxFrameSize maxMessageSize wsmsg receiver)
    (heap : Heap) (found : scanFrame wsmsg.frameBuffer.data = .item frame rest) :
    TakesFrame wsmsg frame (wsmsgProcessRound 0 heap wsmsg) := by
  rw [depicts.bytes_eq] at found
  obtain ⟨stored, ready, kept, -⟩ := depicts.getFrame_eq heap found
  cases control : isControl frame.opcode with
  | true =>
      cases final : frame.fin with
      | true =>
          simp only [wsmsgProcessRound, ready, control, final, if_true]
          exact .parked (by simp [WsMsg.Rejects, control, final]) rfl rfl rfl
      | false =>
          simp only [wsmsgProcessRound, ready, control, final, if_true, Bool.false_eq_true,
            if_false]
          exact .rejected (by simp [WsMsg.Rejects, control, final]) rfl rfl rfl rfl
  | false =>
      by_cases sequence : wsmsg.messageStarted = (frame.opcode == opcodeContinuation)
      · exact depicts.takesFrame_inSequence heap found control sequence
      · have leave : wsmsgProcessRound 0 heap wsmsg = .leave
            { wsmsg with
              frameBuffer := { wsmsg.frameBuffer with data := rest }
              frameData := stored
              error := true } := by
          cases started : wsmsg.messageStarted <;> simp_all [wsmsgProcessRound]
        rw [leave]
        exact .rejected (by simp [WsMsg.Rejects, control, sequence]) rfl rfl rfl rfl

/-- The states which the loop visits are receivers without a control frame. -/
theorem Depicts.visits (depicts : Depicts maxFrameSize maxMessageSize wsmsg receiver) {heap : Heap}
    (unparked : receiver.parked = none) {visited : WsMsg}
    (visits : Loop.Visits (wsmsgProcessRound 0 heap) wsmsg visited) :
    ∃ receiver, Depicts maxFrameSize maxMessageSize visited receiver ∧ receiver.parked = none := by
  induction visits generalizing receiver with
  | start => exact ⟨receiver, depicts, unparked⟩
  | round again later ih =>
      have related := depicts.round heap unparked
      rw [again] at related
      generalize receiver.round (clipping maxFrameSize maxMessageSize) = round at related
      cases related with
      | again related => exact ih related.1 related.2

theorem Depicts.comesTo (depicts : Depicts maxFrameSize maxMessageSize wsmsg receiver) {heap : Heap}
    {call : ReceiverCall} {visited : WsMsg} (comes : ComesTo 0 heap wsmsg call visited) :
    ∃ receiver, Depicts maxFrameSize maxMessageSize visited receiver ∧ visited.frame = false := by
  obtain ⟨entered, visits⟩ := comes
  obtain ⟨handed, handed_depicts⟩ := depicts.handed call
  have free : (wsmsg.handed call).frame = false := by
    have pending := entered.2
    simp only [WsMsg.pending, Bool.or_eq_false_iff] at pending
    exact pending.1.2
  have unparked : handed.parked = none := by
    rw [handed_depicts.frame_eq] at free
    simpa using free
  obtain ⟨receiver, visited_depicts, unparked⟩ := handed_depicts.visits unparked visits
  refine ⟨receiver, visited_depicts, ?_⟩
  rw [visited_depicts.frame_eq, unparked]
  rfl

theorem opcode_lt_of_scanFrame {bytes : List UInt8}
    (found : scanFrame bytes = .item frame rest) : frame.opcode < 16 := by
  obtain ⟨-, -, messageLength, headerLength, -, -, rfl, -⟩ := scanFrame_eq_item_iff.mp found
  have masked : (byteAt bytes 0 &&& 0x0f).toNat ≤ 15 := by
    rw [UInt8.toNat_and]
    exact Nat.and_le_right
  exact Nat.lt_succ_of_le masked

/-! ## Calls -/

/-- The message being assembled is text or binary. -/
def WsMsg.TextOrBinary (wsmsg : WsMsg) : Prop :=
  wsmsg.messageStarted = true →
    wsmsg.messageOpcode = opcodeText ∨ wsmsg.messageOpcode = opcodeBinary

/-- A message which is started by a legal frame is text or binary. -/
theorem WsMsg.TextOrBinary.accepted {next : WsMsg} (kind : wsmsg.TextOrBinary)
    (legal : ¬ frame.Illegal) (bound : frame.opcode < 16) (data : isControl frame.opcode = false)
    (sequence : wsmsg.messageStarted = (frame.opcode == opcodeContinuation))
    (opcode_eq : next.messageOpcode =
      if wsmsg.messageStarted then wsmsg.messageOpcode else frame.opcode) : next.TextOrBinary := by
  intro _
  cases started : wsmsg.messageStarted with
  | true =>
      rw [opcode_eq, if_pos started]
      exact kind started
  | false =>
      have unreserved : ¬ ReservedOpcode frame.opcode := fun reserved => legal (Or.inl reserved)
      rw [opcode_eq, if_neg (by simp [started])]
      rw [started, Bool.false_eq, beq_eq_false_iff_ne] at sequence
      simp only [isControl, Bool.or_eq_false_iff, beq_eq_false_iff_ne] at data
      obtain ⟨⟨not_close, not_ping⟩, not_pong⟩ := data
      unfold ReservedOpcode at unreserved
      unfold opcodeContinuation opcodeClose opcodePing opcodePong at *
      unfold opcodeText opcodeBinary
      omega

theorem Depicts.textOrBinary_run (depicts : Depicts maxFrameSize maxMessageSize wsmsg receiver)
    (unparked : receiver.parked = none) {heap : Heap} (kind : wsmsg.TextOrBinary)
    (refuses : ∀ visited frame rest, Loop.Visits (wsmsgProcessRound 0 heap) wsmsg visited →
      scanFrame visited.frameBuffer.data = .item frame rest → frame.Illegal →
      visited.Rejects frame) :
    (wsmsgProcessLoop 0 heap wsmsg).TextOrBinary := by
  let invariant : WsMsg → Prop := fun state =>
    Loop.Visits (wsmsgProcessRound 0 heap) wsmsg state ∧ state.TextOrBinary
  refine Loop.run_induction invariant WsMsg.TextOrBinary
    (wsmsgProcessRound_decreasing heap) ?_ ?_ ⟨.start, kind⟩
  · rintro state next ⟨visits, kind⟩ again
    refine ⟨visits.again again, ?_⟩
    obtain ⟨receiver, depicts, -⟩ := depicts.visits unparked visits
    cases found : scanFrame state.frameBuffer.data with
    | more =>
        obtain ⟨stored, building, -⟩ := getFrame_of_more heap (Or.inl rfl) state.frameData found
        simp [wsmsgProcessRound, building] at again
    | fail =>
        have error : getFrame 0 heap state.frameBuffer state.frameData = .error state.frameData :=
          getFrame_of_fail heap found
        simp [wsmsgProcessRound, error] at again
    | item frame rest =>
        have takes := depicts.takesFrame heap found
        rw [again] at takes
        cases takes with
        | accepted taken data sequence opcode_eq =>
            have legal : ¬ frame.Illegal := fun illegal =>
              taken (refuses state frame rest visits found illegal)
            exact kind.accepted legal (opcode_lt_of_scanFrame found) data sequence opcode_eq
  · rintro state final ⟨visits, kind⟩ leave
    obtain ⟨receiver, depicts, -⟩ := depicts.visits unparked visits
    cases found : scanFrame state.frameBuffer.data with
    | more =>
        obtain ⟨stored, building, -⟩ := getFrame_of_more heap (Or.inl rfl) state.frameData found
        simp only [wsmsgProcessRound, building] at leave
        injection leave with final_eq
        rw [← final_eq]
        exact kind
    | fail =>
        have error : getFrame 0 heap state.frameBuffer state.frameData = .error state.frameData :=
          getFrame_of_fail heap found
        simp only [wsmsgProcessRound, error] at leave
        injection leave with final_eq
        rw [← final_eq]
        exact kind
    | item frame rest =>
        have takes := depicts.takesFrame heap found
        rw [leave] at takes
        cases takes with
        | rejected rejects error frame_eq started_eq opcode_eq =>
            intro started
            rw [opcode_eq]
            exact kind (started_eq ▸ started)
        | parked taken frame_eq started_eq opcode_eq =>
            intro started
            rw [opcode_eq]
            exact kind (started_eq ▸ started)

theorem closesUnanswered_of_error (sizeMod : Nat) (failed : wsmsg.error = true) :
    ClosesUnanswered sizeMod wsmsg := by
  rintro env sync conn rfl
  refine ⟨if_pos failed, ?_⟩
  unfold wsconnClose
  dsimp only
  split_ifs <;> rfl

theorem WsMsg.TextOrBinary.handed (kind : wsmsg.TextOrBinary) (call : ReceiverCall) :
    (wsmsg.handed call).TextOrBinary := by
  cases call with
  | add chunk => exact kind
  | getFrame =>
      unfold WsMsg.handed
      dsimp only
      split_ifs
      · exact kind
      · exact kind
  | getMessage =>
      unfold WsMsg.handed
      dsimp only
      split_ifs
      · intro started
        cases started
      · exact kind

/-- A message which is delivered is the one which was assembled. -/
theorem Depicts.delivered (depicts : Depicts maxFrameSize maxMessageSize wsmsg receiver)
    (kind : wsmsg.TextOrBinary) {heap : Heap} {call : ReceiverCall} {opcode : Nat}
    {payload : List UInt8}
    (delivered : .message opcode payload ∈ (wsmsgCall 0 heap (wsmsg, []) call).2) :
    opcode = opcodeText ∨ opcode = opcodeBinary := by
  cases call with
  | add chunk => simp [wsmsgCall] at delivered
  | getFrame =>
      simp only [wsmsgCall] at delivered
      split_ifs at delivered <;> simp at delivered
  | getMessage =>
      cases complete : wsmsg.message with
      | false => simp [wsmsgCall, wsmsgGetMessage, complete] at delivered
      | true =>
          have started : wsmsg.messageStarted = true := by
            rw [depicts.message_eq] at complete
            rw [depicts.started_eq]
            cases stage : receiver.stage <;> simp_all [Stage.isComplete, Stage.isOpen]
          simp only [wsmsgCall] at delivered
          split_ifs at delivered with ok
          · have opcode_eq : opcode = wsmsg.messageOpcode := by
              simp [wsmsgGetMessage, complete] at delivered
              exact delivered.1
            rw [opcode_eq]
            exact kind started
          · simp at delivered

/-- A call rejects all illegal frames exactly when it refuses them for another reason. -/
theorem Depicts.failsCall_iff (depicts : Depicts maxFrameSize maxMessageSize wsmsg receiver)
    (kind : wsmsg.TextOrBinary) {sizeMod : Nat} (large : 2 ^ 33 ≤ sizeMod) (heap : Heap)
    {call : ReceiverCall} (moderate : wsmsg.ModerateCall call) :
    FailsCall sizeMod heap wsmsg call ↔ RefusesCall sizeMod heap wsmsg call := by
  constructor
  · intro fails visited frame rest comes found illegal
    obtain ⟨leave, -, unparked, -⟩ := fails.rejected visited frame rest comes found illegal
    have comes' := (moderate.comesTo_iff large heap).mp comes
    obtain ⟨receiver, depicts, -⟩ := depicts.comesTo comes'
    have takes := depicts.takesFrame heap found
    rw [← moderate.round_eq large heap comes', leave] at takes
    cases takes with
    | rejected rejects => exact rejects
    | parked taken frame_eq => simp [unparked] at frame_eq
  · intro refuses
    refine ⟨?_, fun opcode payload delivered => ?_⟩
    · intro visited frame rest comes found illegal
      have rejects := refuses visited frame rest comes found illegal
      have comes' := (moderate.comesTo_iff large heap).mp comes
      obtain ⟨receiver, depicts, free⟩ := depicts.comesTo comes'
      have takes := depicts.takesFrame heap found
      rw [moderate.round_eq large heap comes', moderate.wsmsgCall_eq large heap]
      cases outcome : wsmsgProcessRound 0 heap visited with
      | again next =>
          rw [outcome] at takes
          cases takes with
          | accepted taken => exact absurd rejects taken
      | leave final =>
          have final_eq : (wsmsgCall 0 heap (wsmsg, []) call).1 = final := by
            rw [wsmsgCall_fst, if_pos comes.1, wsmsgProcessLoop,
              comes'.2.run_eq (wsmsgProcessRound_decreasing heap)]
            exact Loop.run_of_leave _ outcome
          rw [outcome] at takes
          rw [final_eq]
          cases takes with
          | rejected rejects error frame_eq =>
              exact ⟨rfl, error, frame_eq.trans free, closesUnanswered_of_error sizeMod error⟩
          | parked taken => exact absurd rejects taken
    · rw [wsmsgCall_snd] at delivered
      exact depicts.delivered kind delivered

/-- A call which refuses illegal frames starts text and binary messages only. -/
theorem Depicts.textOrBinary_call (depicts : Depicts maxFrameSize maxMessageSize wsmsg receiver)
    (kind : wsmsg.TextOrBinary) {heap : Heap} {call : ReceiverCall}
    (refuses : RefusesCall 0 heap wsmsg call) :
    (wsmsgCall 0 heap (wsmsg, []) call).1.TextOrBinary := by
  rw [wsmsgCall_fst]
  split_ifs with enters
  · obtain ⟨handed, handed_depicts⟩ := depicts.handed call
    have unparked : handed.parked = none := by
      have pending := enters.2
      simp only [WsMsg.pending, Bool.or_eq_false_iff, handed_depicts.frame_eq] at pending
      simpa using pending.1.2
    exact handed_depicts.textOrBinary_run unparked (kind.handed call)
      fun visited frame rest visits => refuses visited frame rest ⟨enters, visits⟩
  · exact kind.handed call

end

/-- A run of calls rejects all illegal frames exactly when each of its calls refuses those which it
takes for another reason, in runs which come to no large announced length. -/
theorem guarded_failsCall_iff (heap : Heap) (maxFrameSize maxMessageSize : Nat)
    (calls : List ReceiverCall)
    (moderate : Execution.Guarded (receiverStep (2 ^ 64) heap) WsMsg.ModerateCall
      (wsmsgCreate maxFrameSize maxMessageSize) calls) :
    Execution.Guarded (receiverStep (2 ^ 64) heap) (FailsCall (2 ^ 64) heap)
        (wsmsgCreate maxFrameSize maxMessageSize) calls ↔
      Execution.Guarded (receiverStep (2 ^ 64) heap) (RefusesCall (2 ^ 64) heap)
        (wsmsgCreate maxFrameSize maxMessageSize) calls := by
  have large : 2 ^ 33 ≤ 2 ^ 64 := by decide
  let invariant : WsMsg → Prop := fun wsmsg =>
    (∃ receiver, Depicts maxFrameSize maxMessageSize wsmsg receiver) ∧ wsmsg.TextOrBinary
  have start : invariant (wsmsgCreate maxFrameSize maxMessageSize) :=
    ⟨⟨_, depicts_wsmsgCreate _ _⟩, fun started => by cases started⟩
  refine Execution.guarded_congr_of_assumed ?_ ?_ start moderate
  · rintro wsmsg call ⟨⟨receiver, depicts⟩, kind⟩ moderate
    exact depicts.failsCall_iff kind large heap moderate
  · rintro wsmsg call next ⟨⟨receiver, depicts⟩, kind⟩ moderate refuses stepped
    obtain rfl := Option.some.inj stepped
    have refuses' : RefusesCall 0 heap wsmsg call := fun visited frame rest comes =>
      refuses visited frame rest ((moderate.comesTo_iff large heap).mpr comes)
    rw [moderate.wsmsgCall_eq large heap]
    exact ⟨⟨_, (depicts.call heap [] call).1⟩, depicts.textOrBinary_call kind refuses'⟩

/-- An unmasked fragment of a ping is refused, and no pong can be made of it. -/
theorem guarded_failsCall_fragment :
    Execution.Guarded (receiverStep (2 ^ 64) fun _ _ => 0) (FailsCall (2 ^ 64) fun _ _ => 0)
      (wsmsgCreate 0 0) [.add [0x09, 0x01, 0x21], .getFrame] := by
  refine (guarded_failsCall_iff _ 0 0 _ (by decide +kernel)).mpr ⟨?_, fun next stepped => ?_⟩
  · rintro visited frame rest ⟨-, visits⟩ found -
    have refused : wsmsgProcessRound (2 ^ 64) (fun _ _ => 0)
        ((wsmsgCreate 0 0).handed (.add [0x09, 0x01, 0x21])) =
        .leave (wsmsgAdd (2 ^ 64) (fun _ _ => 0) (wsmsgCreate 0 0) [0x09, 0x01, 0x21]).1 := by
      decide +kernel
    cases visits with
    | start =>
        have fragment : scanFrame [0x09, 0x01, 0x21] = .item
            { fin := false, opcode := 9, mask := false, payload := [0x21] } [] := by
          rfl
        obtain ⟨rfl, -⟩ := Scan.item.inj (fragment.symm.trans found)
        rfl
    | round again _ => cases refused.symm.trans again
  · obtain rfl := Option.some.inj stepped
    refine ⟨fun visited frame rest comes => ?_, fun _ _ => trivial⟩
    exact absurd comes.1 (by decide +kernel)

/-- A frame with a reserved opcode. -/
def reservedFrame : WireFrame :=
  { fiveBytes with opcode := 3, key := some fun _ => 0, small := fiveBytes.small }

/-- The frame is delivered as a message, and the receiver has not failed. -/
theorem not_failsCall_reservedFrame :
    ([.add reservedFrame.bytes, .getMessage].foldl (wsmsgCall (2 ^ 64) fun _ _ => 0)
        (wsmsgCreate 0 0, [])).2 = [.message 3 reservedFrame.payload] ∧
      ([.add reservedFrame.bytes, .getMessage].foldl (wsmsgCall (2 ^ 64) fun _ _ => 0)
        (wsmsgCreate 0 0, [])).1.error = false ∧
      ¬ Execution.Guarded (receiverStep (2 ^ 64) fun _ _ => 0) (FailsCall (2 ^ 64) fun _ _ => 0)
        (wsmsgCreate 0 0) [.add reservedFrame.bytes, .getMessage] := by
  refine ⟨by decide +kernel, by decide +kernel, fun guarded => ?_⟩
  obtain ⟨-, failed, -⟩ := guarded.1.rejected _ reservedFrame.decoded []
    ⟨by decide +kernel, .start⟩ (reservedFrame.scanFrame_bytes []) (Or.inl (by decide))
  revert failed
  decide +kernel

/-! ## Connections -/

/-- The receiver can be brought to a state by calls. -/
def Callable (env : Environment) (wsmsg : WsMsg) : Prop :=
  ∃ calls, Execution.run (receiverStep 0 env.heap)
    (wsmsgCreate env.conf.maxFrameSize env.conf.maxMessageSize) calls = some wsmsg

theorem Callable.call {env : Environment} {wsmsg : WsMsg} (callable : Callable env wsmsg)
    (call : ReceiverCall) : Callable env (wsmsgCall 0 env.heap (wsmsg, []) call).1 := by
  obtain ⟨calls, execution⟩ := callable
  exact ⟨calls ++ [call], Execution.run_append.mpr ⟨wsmsg, execution, rfl⟩⟩

theorem Callable.frameTaken {env : Environment} {conn : Conn} (callable : Callable env conn.wsmsg) :
    Callable env (conn.frameTaken env).wsmsg :=
  callable.call .getFrame

theorem Callable.messageTaken {env : Environment} {conn : Conn}
    (callable : Callable env conn.wsmsg) (unlimited : conn.messageBuffer.maxLength = 0) :
    Callable env (conn.messageTaken env).wsmsg := by
  have same : (conn.messageTaken env).wsmsg =
      (wsmsgCall 0 env.heap (conn.wsmsg, []) .getMessage).1 := by
    obtain ⟨emptied, -⟩ := bufferMove_unlimited conn.wsmsg.messageBuffer unlimited
    obtain ⟨emptied', -⟩ :=
      bufferMove_unlimited conn.wsmsg.messageBuffer (bufferCreate_maxLength 0)
    cases complete : conn.wsmsg.message <;>
      simp [Conn.messageTaken, wsmsgCall, wsmsgGetMessage, complete, emptied, emptied']
  rw [same]
  exact callable.call .getMessage

theorem Callable.congr {env : Environment} {conn other : Conn} (callable : Callable env conn.wsmsg)
    (same : other.intake.2 = conn.intake.2) : Callable env other.wsmsg := by
  have wsmsg_eq : other.wsmsg = conn.wsmsg := congrArg Prod.fst same
  exact wsmsg_eq ▸ callable

end Jabsocket
