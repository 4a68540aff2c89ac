import Jabsocket.Execution
import Jabsocket.Lengths
import Jabsocket.Reference

/-!
# The configured limits

The limits ask that a frame or a message which exceeds them is refused and never delivered.  The
buffers of the code keep what they have room for, and refuse only when there is no room at all.  The
two policies agree as long as every frame is within the limits, or finds the message at its limit.
-/

namespace Jabsocket

/-! ## What the limits ask for -/

/-- A stream of frames of which a number of bytes has arrived. -/
structure Arriving where
  upcoming : List WireFrame
  count : Nat

/-- The first frame of a stream, when all of its bytes have arrived. -/
def Arriving.scan (source : Arriving) : Arrival Arriving :=
  match source.upcoming with
  | [] => .more
  | frame :: frames =>
      if frame.bytes.length ≤ source.count then
        .item frame.decoded { upcoming := frames, count := source.count - frame.bytes.length }
      else .more

theorem Arriving.scan_lt {source rest : Arriving} {frame : Frame}
    (found : source.scan = .item frame rest) : rest.upcoming.length < source.upcoming.length := by
  unfold Arriving.scan at found
  split at found
  · cases found
  · rename_i first frames upcoming_eq
    split at found
    · injection found with _ rest_eq
      rw [← rest_eq, upcoming_eq]
      exact Nat.lt_succ_self _
    · cases found

/-- The policy which the limits ask for: payloads are kept whole or refused, and a message which
was refused is lost. -/
def strict (maxFrameSize maxMessageSize : Nat) : Policy Arriving where
  scan := Arriving.scan
  size source := source.upcoming.length
  size_lt := Arriving.scan_lt
  chunk source chunk := some { source with count := source.count + chunk.length }
  control payload := if payload.length ≤ maxFrameSize then some payload else none
  data content payload :=
    if payload.length ≤ maxFrameSize ∧ content.length + payload.length ≤ maxMessageSize then
      some payload
    else none
  refused _ := .idle

/-! ## Calls -/

/-- Calls of the interface of `wsmessage.h`. -/
inductive ReceiverCall where
  | add (chunk : List UInt8)
  | getFrame
  | getMessage
  deriving DecidableEq, Repr

/-- One call, with what was delivered so far. -/
def Receiver.call {σ : Type*} (policy : Policy σ) (state : Receiver σ × List Delivery) :
    ReceiverCall → Receiver σ × List Delivery
  | .add chunk => (state.1.add policy chunk, state.2)
  | .getFrame =>
      let out := state.1.takeFrame policy
      (out.1, state.2 ++ (out.2.map fun frame => .control frame.opcode frame.payload).toList)
  | .getMessage =>
      let out := state.1.takeMessage policy
      (out.1, state.2 ++ (out.2.map fun draft => .message draft.opcode draft.payload).toList)

/-- One call of the code, with what was delivered so far; the caller's buffer is not limited. -/
def wsmsgCall (sizeMod : Nat) (heap : Heap) (state : WsMsg × List Delivery) :
    ReceiverCall → WsMsg × List Delivery
  | .add chunk => ((wsmsgAdd sizeMod heap state.1 chunk).1, state.2)
  | .getFrame =>
      let out := wsmsgGetFrame sizeMod heap state.1 (bufferCreate 0) false 0 false
      (out.wsmsg,
        if out.result then state.2 ++ [.control out.opcode out.buffer.data] else state.2)
  | .getMessage =>
      let out := wsmsgGetMessage sizeMod heap state.1 (bufferCreate 0) 0
      (out.wsmsg,
        if out.result then state.2 ++ [.message out.opcode out.buffer.data] else state.2)

/-- The bytes which are added by calls. -/
def addedBytes (calls : List ReceiverCall) : List UInt8 :=
  calls.flatMap fun call =>
    match call with
    | .add chunk => chunk
    | .getFrame | .getMessage => []

/-- Calls of the code are calls of the receiver with the policy of the code. -/
theorem Depicts.call {maxFrameSize maxMessageSize : Nat} {wsmsg : WsMsg}
    {receiver : Receiver (List UInt8)} (heap : Heap)
    (depicts : Depicts maxFrameSize maxMessageSize wsmsg receiver) (log : List Delivery)
    (call : ReceiverCall) :
    Depicts maxFrameSize maxMessageSize (wsmsgCall 0 heap (wsmsg, log) call).1
        (Receiver.call (clipping maxFrameSize maxMessageSize) (receiver, log) call).1 ∧
      (wsmsgCall 0 heap (wsmsg, log) call).2 =
        (Receiver.call (clipping maxFrameSize maxMessageSize) (receiver, log) call).2 := by
  cases call with
  | add chunk => exact ⟨depicts.add heap chunk, rfl⟩
  | getFrame =>
      cases parked : receiver.parked with
      | none =>
          have flag : wsmsg.frame = false := by rw [depicts.frame_eq, parked]; rfl
          simpa [wsmsgCall, wsmsgGetFrame, flag, Receiver.call, Receiver.takeFrame, parked]
            using depicts
      | some frame =>
          obtain ⟨taken, opcode_eq, payload_eq, ok⟩ :=
            depicts.takeFrame heap parked (bufferCreate_maxLength 0) false 0 false
          refine ⟨taken, ?_⟩
          simp [wsmsgCall, ok, opcode_eq, payload_eq, Receiver.call, Receiver.takeFrame, parked]
  | getMessage =>
      cases stage : receiver.stage with
      | complete draft =>
          obtain ⟨taken, opcode_eq, payload_eq, -, ok⟩ :=
            depicts.takeMessage heap stage (bufferCreate_maxLength 0) 0
          refine ⟨taken, ?_⟩
          simp [wsmsgCall, ok, opcode_eq, payload_eq, Receiver.call, Receiver.takeMessage, stage]
      | idle =>
          have flag : wsmsg.message = false := by rw [depicts.message_eq, stage]; rfl
          simpa [wsmsgCall, wsmsgGetMessage, flag, Receiver.call, Receiver.takeMessage, stage]
            using depicts
      | started draft =>
          have flag : wsmsg.message = false := by rw [depicts.message_eq, stage]; rfl
          simpa [wsmsgCall, wsmsgGetMessage, flag, Receiver.call, Receiver.takeMessage, stage]
            using depicts

/-- A call which brings no large announced length does the same in 64 bits as where no sum wraps. -/
theorem wsmsgCall_of_moderate {sizeMod : Nat} (large : 2 ^ 33 ≤ sizeMod) (heap : Heap)
    {wsmsg : WsMsg} (log : List Delivery) {call : ReceiverCall}
    (moderate : AllModerate (wsmsg.frameBuffer.data ++ addedBytes [call])) :
    wsmsgCall sizeMod heap (wsmsg, log) call = wsmsgCall 0 heap (wsmsg, log) call := by
  cases call with
  | add chunk =>
      have added : addedBytes [.add chunk] = chunk := List.append_nil chunk
      rw [added] at moderate
      simp only [wsmsgCall, wsmsgAdd_of_moderate heap large moderate]
  | getFrame => simp only [wsmsgCall, wsmsgGetFrame_of_moderate heap large moderate.of_append]
  | getMessage => simp only [wsmsgCall, wsmsgGetMessage_of_moderate heap large moderate.of_append]

/-! ## Frames on which the policies agree -/

/-- A frame is within the limits, and then so is what follows it; or it ends the processing as a
control frame, or it is refused because it is out of sequence or because the message has just
reached its limit. -/
def FrameWithin (maxFrameSize maxMessageSize : Nat) (stage : Stage) (frame : WireFrame)
    (next : Prop) : Prop :=
  if isControl frame.opcode then frame.fin = true → frame.payload.length ≤ maxFrameSize
  else if stage.accepts frame.decoded then
    (stage.Settled ∧ stage.draft.payload.length = maxMessageSize ∧ frame.payload ≠ []) ∨
      (frame.payload.length ≤ maxFrameSize ∧
        stage.draft.payload.length + frame.payload.length ≤ maxMessageSize ∧ next)
  else True

instance (stage : Stage) : Decidable stage.Settled :=
  decidable_of_iff _ Stage.settled_iff.symm

instance (maxFrameSize maxMessageSize : Nat) (stage : Stage) (frame : WireFrame) (next : Prop)
    [Decidable next] : Decidable (FrameWithin maxFrameSize maxMessageSize stage frame next) := by
  unfold FrameWithin
  infer_instance

/-- The frames which have arrived are within the limits, as far as they are handled at once. -/
def WithinLimits (maxFrameSize maxMessageSize : Nat) : Stage → List WireFrame → Nat → Prop
  | _, [], _ => True
  | stage, frame :: frames, count =>
      frame.bytes.length ≤ count →
        FrameWithin maxFrameSize maxMessageSize stage frame
          (WithinLimits maxFrameSize maxMessageSize (stage.extend frame.decoded) frames
            (count - frame.bytes.length))

instance decidableWithinLimits (maxFrameSize maxMessageSize : Nat) :
    ∀ stage frames count,
      Decidable (WithinLimits maxFrameSize maxMessageSize stage frames count)
  | _, [], _ => isTrue trivial
  | stage, frame :: frames, count =>
      have := decidableWithinLimits maxFrameSize maxMessageSize (stage.extend frame.decoded) frames
        (count - frame.bytes.length)
      inferInstanceAs (Decidable (frame.bytes.length ≤ count →
        FrameWithin maxFrameSize maxMessageSize stage frame
          (WithinLimits maxFrameSize maxMessageSize (stage.extend frame.decoded) frames
            (count - frame.bytes.length))))

/-- The code's receiver does what the limits ask for; `later` are bytes still to be added. -/
structure Agrees (later : List UInt8) (code : Receiver (List UInt8)) (spec : Receiver Arriving) :
    Prop where
  count_eq : spec.source.count = code.source.length
  beginning : code.source ++ later <+: spec.source.upcoming.flatMap WireFrame.bytes
  moderate : AllModerate (code.source ++ later)
  parked_eq : code.parked = spec.parked
  failed_eq : code.failed = spec.failed
  stage_eq : code.stage = spec.stage ∨
    (spec.failed = true ∧ code.stage.Settled ∧ spec.stage.Settled)

section

variable {maxFrameSize maxMessageSize : Nat} {later : List UInt8}
  {code : Receiver (List UInt8)} {spec : Receiver Arriving}

theorem Agrees.isComplete_eq (agrees : Agrees later code spec) :
    code.stage.isComplete = spec.stage.isComplete := by
  obtain same | ⟨-, settled, settled'⟩ := agrees.stage_eq
  · rw [same]
  · rw [Stage.settled_iff.mp settled, Stage.settled_iff.mp settled']

theorem Agrees.blocked_eq (agrees : Agrees later code spec) : code.blocked = spec.blocked := by
  rw [Receiver.blocked, Receiver.blocked, agrees.isComplete_eq, agrees.parked_eq, agrees.failed_eq]

/-- Both receivers find the same frame, or none. -/
theorem Agrees.scan (agrees : Agrees later code spec) :
    (scanFrame code.source = .more ∧ spec.source.scan = .more) ∨
      ∃ frame frames rest, spec.source.upcoming = frame :: frames ∧
        frame.bytes.length ≤ spec.source.count ∧
        scanFrame code.source = .item frame.decoded rest ∧
        spec.source.scan = .item frame.decoded
          { upcoming := frames, count := spec.source.count - frame.bytes.length } ∧
        spec.source.count - frame.bytes.length = rest.length ∧
        rest ++ later <+: frames.flatMap WireFrame.bytes := by
  have beginning := agrees.beginning
  have count_eq := agrees.count_eq
  rcases spec_eq : spec.source with ⟨upcoming, count⟩
  rw [spec_eq] at beginning count_eq
  dsimp only at beginning count_eq
  cases upcoming with
  | nil =>
      have nothing : code.source ++ later = [] := by simpa using beginning
      refine Or.inl ⟨?_, by simp [Arriving.scan]⟩
      rw [(List.append_eq_nil_iff.mp nothing).1]
      rfl
  | cons frame frames =>
      rw [List.flatMap_cons] at beginning
      by_cases complete : frame.bytes.length ≤ count
      · have front : frame.bytes <+: code.source :=
          List.prefix_of_prefix_length_le (List.prefix_append _ _)
            ((List.prefix_append _ _).trans beginning) (by omega)
        obtain ⟨rest, source_eq⟩ := front
        rw [← source_eq, List.append_assoc, List.prefix_append_right_inj] at beginning
        refine Or.inr ⟨frame, frames, rest, rfl, complete, ?_, ?_, ?_, beginning⟩
        · rw [← source_eq]
          exact frame.scanFrame_bytes rest
        · simp [Arriving.scan, complete]
        · rw [count_eq, ← source_eq, List.length_append, Nat.add_sub_cancel_left]
      · have inside : code.source <+: frame.bytes :=
          List.prefix_of_prefix_length_le ((List.prefix_append _ _).trans beginning)
            (List.prefix_append _ _) (by omega)
        have proper : code.source ≠ frame.bytes := by
          intro same
          rw [← same] at complete
          omega
        exact Or.inl ⟨frame.scanFrame_of_isPrefix inside proper, by simp [Arriving.scan, complete]⟩

/-- The receivers agree in the middle of processing, and the frames to come are within the
limits. -/
structure AgreesWithin (maxFrameSize maxMessageSize : Nat) (later : List UInt8)
    (code : Receiver (List UInt8)) (spec : Receiver Arriving) : Prop
    extends Agrees later code spec where
  same : code.stage = spec.stage
  within : WithinLimits maxFrameSize maxMessageSize spec.stage spec.source.upcoming
    spec.source.count

section Round

variable (frame_positive : 0 < maxFrameSize) (message_positive : 0 < maxMessageSize)
include frame_positive message_positive

/-- A frame within the limits is handled in the same way. -/
theorem Agrees.handle (agrees : Agrees later code spec) (same : code.stage = spec.stage)
    {frame : WireFrame}
    (limits : FrameWithin maxFrameSize maxMessageSize spec.stage frame
      (WithinLimits maxFrameSize maxMessageSize (spec.stage.extend frame.decoded)
        spec.source.upcoming spec.source.count)) :
    Round.Related (AgreesWithin maxFrameSize maxMessageSize later) (Agrees later)
      (code.handle (clipping maxFrameSize maxMessageSize) frame.decoded)
      (spec.handle (strict maxFrameSize maxMessageSize) frame.decoded) := by
  by_cases refused : spec.stage.Refuses frame.decoded
  · have refused' : code.stage.Refuses frame.decoded := by rwa [same]
    rw [Receiver.handle_of_refuses refused, Receiver.handle_of_refuses refused']
    exact .leave { agrees with failed_eq := rfl, stage_eq := Or.inl same }
  unfold Stage.Refuses at refused
  unfold FrameWithin at limits
  cases control : isControl frame.decoded.opcode with
  | true =>
      rw [control, if_pos rfl] at refused
      rw [show isControl frame.opcode = true from control, if_pos rfl] at limits
      have final : frame.decoded.fin = true := by simpa using refused
      have frame_le := limits final
      rw [Receiver.handle_of_parked control final (congrArg some (clipped_of_le frame_le)),
        Receiver.handle_of_parked control final (if_pos frame_le)]
      exact .leave { agrees with parked_eq := rfl }
  | false =>
      rw [control, if_neg (by simp)] at refused
      rw [show isControl frame.opcode = false from control, if_neg (by simp)] at limits
      have accepted : spec.stage.accepts frame.decoded = true := by simpa using refused
      have accepted' : code.stage.accepts frame.decoded = true := by rwa [same]
      have data_eq : (clipping maxFrameSize maxMessageSize).data code.stage.draft.payload
          frame.payload = admitted maxMessageSize spec.stage.draft.payload
            (clipped maxFrameSize frame.payload) := by
        rw [same]
        rfl
      rw [accepted, if_pos rfl] at limits
      obtain ⟨settled, full, nonempty⟩ | ⟨frame_le, message_le, within⟩ := limits
      · rw [← full, admitted_of_full (by omega) (clipped_ne_nil frame_positive nonempty)] at data_eq
        have positive := List.length_pos_of_ne_nil nonempty
        have exceeded : (strict maxFrameSize maxMessageSize).data spec.stage.draft.payload
            frame.payload = none := if_neg (by omega)
        rw [← full] at exceeded ⊢
        rw [Receiver.handle_of_none control accepted exceeded,
          Receiver.handle_of_none control accepted' data_eq]
        refine .leave { agrees with failed_eq := rfl, stage_eq := Or.inr ⟨rfl, ?_, trivial⟩ }
        exact same ▸ settled
      · rw [clipped_of_le frame_le, admitted_of_le message_le] at data_eq
        have kept : (strict maxFrameSize maxMessageSize).data spec.stage.draft.payload
            frame.payload = some frame.payload := if_pos ⟨frame_le, message_le⟩
        rw [Receiver.handle_of_kept control accepted kept,
          Receiver.handle_of_kept control accepted' data_eq]
        have extended : code.stage.extend frame.decoded = spec.stage.extend frame.decoded := by
          rw [same]
        exact .again
          { agrees with
            stage_eq := Or.inl extended
            same := extended
            within := within }

theorem AgreesWithin.round (agrees : AgreesWithin maxFrameSize maxMessageSize later code spec) :
    Round.Related (AgreesWithin maxFrameSize maxMessageSize later) (Agrees later)
      (code.round (clipping maxFrameSize maxMessageSize))
      (spec.round (strict maxFrameSize maxMessageSize)) := by
  have scan_eq : (strict maxFrameSize maxMessageSize).scan spec.source = spec.source.scan := rfl
  rw [Receiver.round_clipping, Receiver.round, scan_eq]
  obtain ⟨nothing, nothing'⟩ | ⟨frame, frames, rest, upcoming_eq, complete, found, found', count_eq,
    beginning⟩ := agrees.toAgrees.scan
  · rw [nothing, nothing']
    exact .leave agrees.toAgrees
  · rw [found, found']
    have within := agrees.within
    rw [upcoming_eq, WithinLimits] at within
    have taken : Agrees later { code with source := rest }
        { spec with
          source := { upcoming := frames, count := spec.source.count - frame.bytes.length } } :=
      { agrees with
        count_eq := count_eq
        beginning := beginning
        moderate := agrees.moderate.of_unpacks ((Unpacks.refl.frame found).append later) }
    exact taken.handle frame_positive message_positive agrees.same (within complete)

end Round

/-- Processing keeps the agreement. -/
theorem Agrees.process (frame_positive : 0 < maxFrameSize) (message_positive : 0 < maxMessageSize)
    (agrees : Agrees later code spec)
    (within : spec.blocked = false → WithinLimits maxFrameSize maxMessageSize spec.stage
      spec.source.upcoming spec.source.count) :
    Agrees later (code.process (clipping maxFrameSize maxMessageSize))
      (spec.process (strict maxFrameSize maxMessageSize)) := by
  unfold Receiver.process
  rw [agrees.blocked_eq]
  cases free : spec.blocked with
  | true => exact agrees
  | false =>
      have healthy : spec.failed = false := by
        simp only [Receiver.blocked, Bool.or_eq_false_iff] at free
        exact free.2
      have same : code.stage = spec.stage :=
        agrees.stage_eq.resolve_right fun failed => by simp [healthy] at failed
      exact Loop.run_related (Receiver.round_decreasing _) (Receiver.round_decreasing _)
        (fun _ _ => AgreesWithin.round frame_positive message_positive)
        { agrees with same, within := within free }

end

/-! ## Runs -/

/-- All bytes of a call fit into `frame_buffer`. -/
def FitsCall (maxFrameSize : Nat) (spec : Receiver Arriving) : ReceiverCall → Prop
  | .add chunk => spec.source.count + chunk.length ≤ 2 * maxFrameSize
  | .getFrame | .getMessage => True

/-- The frames which a receiver is going to handle are within the limits. -/
def Receiver.Within (maxFrameSize maxMessageSize : Nat) (spec : Receiver Arriving) : Prop :=
  spec.blocked = false →
    WithinLimits maxFrameSize maxMessageSize spec.stage spec.source.upcoming spec.source.count

/-- The frames which a receiver handles in a call are within the limits. -/
def WithinCall (maxFrameSize maxMessageSize : Nat) (spec : Receiver Arriving) :
    ReceiverCall → Prop
  | .add chunk =>
      Receiver.Within maxFrameSize maxMessageSize
        { spec with source := { spec.source with count := spec.source.count + chunk.length } }
  | .getFrame =>
      spec.parked.isSome = true →
        Receiver.Within maxFrameSize maxMessageSize { spec with parked := none }
  | .getMessage =>
      spec.stage.isComplete = true →
        Receiver.Within maxFrameSize maxMessageSize { spec with stage := .idle }

instance (maxFrameSize : Nat) (spec : Receiver Arriving) (call : ReceiverCall) :
    Decidable (FitsCall maxFrameSize spec call) :=
  match call with
  | .add _ => inferInstanceAs (Decidable (_ ≤ _))
  | .getFrame | .getMessage => isTrue trivial

instance (maxFrameSize maxMessageSize : Nat) (spec : Receiver Arriving) :
    Decidable (spec.Within maxFrameSize maxMessageSize) :=
  inferInstanceAs (Decidable (_ → _))

instance (maxFrameSize maxMessageSize : Nat) (spec : Receiver Arriving) (call : ReceiverCall) :
    Decidable (WithinCall maxFrameSize maxMessageSize spec call) :=
  match call with
  | .add _ => inferInstanceAs (Decidable (Receiver.Within _ _ _))
  | .getFrame | .getMessage => inferInstanceAs (Decidable (_ → Receiver.Within _ _ _))

/-- The receiver which enforces the limits, before the stream arrives. -/
def strictStart (frames : List WireFrame) : Receiver Arriving × List Delivery :=
  (Receiver.create { upcoming := frames, count := 0 }, [])

/-- One call of the receiver which enforces the limits. -/
def strictStep (maxFrameSize maxMessageSize : Nat) (state : Receiver Arriving × List Delivery)
    (call : ReceiverCall) : Option (Receiver Arriving × List Delivery) :=
  some (Receiver.call (strict maxFrameSize maxMessageSize) state call)

/-- The code enforces its limits in a run of calls on a stream of frames: it delivers the messages
and control frames which it has to deliver, with their complete payloads, and it has failed exactly
if it has to. -/
def Enforces (heap : Heap) (maxFrameSize maxMessageSize : Nat) (frames : List WireFrame)
    (calls : List ReceiverCall) : Prop :=
  let code := calls.foldl (wsmsgCall (2 ^ 64) heap) (wsmsgCreate maxFrameSize maxMessageSize, [])
  let spec := calls.foldl (Receiver.call (strict maxFrameSize maxMessageSize)) (strictStart frames)
  code.2 = spec.2 ∧ code.1.error = spec.1.failed

section

variable {maxFrameSize maxMessageSize : Nat} (frame_positive : 0 < maxFrameSize)
  (message_positive : 0 < maxMessageSize) {code : Receiver (List UInt8)} {spec : Receiver Arriving}
include frame_positive message_positive

theorem Agrees.call {call : ReceiverCall} {calls : List ReceiverCall}
    (agrees : Agrees (addedBytes (call :: calls)) code spec) (log : List Delivery)
    (fits : FitsCall maxFrameSize spec call)
    (within : WithinCall maxFrameSize maxMessageSize spec call) :
    Agrees (addedBytes calls)
        (Receiver.call (clipping maxFrameSize maxMessageSize) (code, log) call).1
        (Receiver.call (strict maxFrameSize maxMessageSize) (spec, log) call).1 ∧
      (Receiver.call (clipping maxFrameSize maxMessageSize) (code, log) call).2 =
        (Receiver.call (strict maxFrameSize maxMessageSize) (spec, log) call).2 := by
  cases call with
  | add chunk =>
      refine ⟨?_, rfl⟩
      have room : code.source.length + chunk.length ≤ 2 * maxFrameSize := by
        rw [← agrees.count_eq]
        exact fits
      have stored : (clipping maxFrameSize maxMessageSize).chunk code.source chunk =
          some (code.source ++ chunk) := by
        simp [clipping, admitted_of_le room]
      simp only [Receiver.call, Receiver.add, stored]
      have added : Agrees (addedBytes calls) { code with source := code.source ++ chunk }
          { spec with source := { spec.source with count := spec.source.count + chunk.length } } :=
        { agrees with
          count_eq := by rw [List.length_append, agrees.count_eq]
          beginning := by
            rw [List.append_assoc]
            exact agrees.beginning
          moderate := by
            rw [List.append_assoc]
            exact agrees.moderate }
      exact added.process frame_positive message_positive within
  | getFrame =>
      simp only [Receiver.call, Receiver.takeFrame, agrees.parked_eq]
      cases parked : spec.parked with
      | none => exact ⟨{ agrees with }, rfl⟩
      | some frame =>
          refine ⟨?_, rfl⟩
          have taken : Agrees (addedBytes calls) { code with parked := none }
              { spec with parked := none } := { agrees with parked_eq := rfl }
          exact taken.process frame_positive message_positive (within (by rw [parked]; rfl))
  | getMessage =>
      by_cases settled : spec.stage.Settled
      · have settled' : code.stage.Settled := by
          rw [Stage.settled_iff, agrees.isComplete_eq]
          exact Stage.settled_iff.mp settled
        simp only [Receiver.call, Receiver.takeMessage_of_settled _ settled,
          Receiver.takeMessage_of_settled _ settled']
        exact ⟨{ agrees with }, trivial⟩
      · have same : code.stage = spec.stage :=
          agrees.stage_eq.resolve_right fun failed => settled failed.2.2
        cases stage : spec.stage with
        | complete draft =>
            simp only [Receiver.call, Receiver.takeMessage, same, stage]
            refine ⟨?_, trivial⟩
            have taken : Agrees (addedBytes calls) { code with stage := .idle }
                { spec with stage := .idle } := { agrees with stage_eq := Or.inl rfl }
            exact taken.process frame_positive message_positive (within (by rw [stage]; rfl))
        | idle => exact absurd (stage ▸ trivial) settled
        | started draft => exact absurd (stage ▸ trivial) settled

/-- A run of calls of the code is one of the receiver which enforces the limits. -/
theorem Agrees.calls {calls : List ReceiverCall} (agrees : Agrees (addedBytes calls) code spec)
    {wsmsg : WsMsg} (depicts : Depicts maxFrameSize maxMessageSize wsmsg code) (heap : Heap)
    (log : List Delivery)
    (fits : Execution.Guarded (strictStep maxFrameSize maxMessageSize)
      (fun state => FitsCall maxFrameSize state.1) (spec, log) calls)
    (within : Execution.Guarded (strictStep maxFrameSize maxMessageSize)
      (fun state => WithinCall maxFrameSize maxMessageSize state.1) (spec, log) calls) :
    (calls.foldl (wsmsgCall (2 ^ 64) heap) (wsmsg, log)).2 =
        (calls.foldl (Receiver.call (strict maxFrameSize maxMessageSize)) (spec, log)).2 ∧
      (calls.foldl (wsmsgCall (2 ^ 64) heap) (wsmsg, log)).1.error =
        (calls.foldl (Receiver.call (strict maxFrameSize maxMessageSize)) (spec, log)).1.failed := by
  induction calls generalizing wsmsg code spec log with
  | nil => exact ⟨rfl, depicts.error_eq.trans agrees.failed_eq⟩
  | cons call calls ih =>
      have moderate : AllModerate (wsmsg.frameBuffer.data ++ addedBytes [call]) := by
        have bytes_eq : addedBytes (call :: calls) = addedBytes [call] ++ addedBytes calls :=
          @List.flatMap_append _ _ [call] calls _
        have stored := agrees.moderate
        rw [bytes_eq, ← List.append_assoc] at stored
        rw [depicts.bytes_eq]
        exact stored.of_append
      obtain ⟨depicted, code_log⟩ := depicts.call heap log call
      obtain ⟨next, spec_log⟩ := agrees.call frame_positive message_positive log fits.1 within.1
      have later := ih next depicted (Receiver.call (strict maxFrameSize maxMessageSize)
        (spec, log) call).2 (fits.2 _ rfl) (within.2 _ rfl)
      rw [List.foldl_cons, List.foldl_cons, wsmsgCall_of_moderate (by decide) heap log moderate]
      rwa [Prod.mk.eta, ← spec_log, ← code_log, Prod.mk.eta] at later

end

/-- The code enforces its limits in every run in which the frames which each call handles are within
the limits, or find the message at its limit, on a stream of frames of less than 2^31 bytes. -/
theorem enforces_of_within (heap : Heap) {maxFrameSize maxMessageSize : Nat}
    (frame_positive : 0 < maxFrameSize) (message_positive : 0 < maxMessageSize)
    {frames : List WireFrame} {calls : List ReceiverCall}
    (fed : addedBytes calls <+: frames.flatMap WireFrame.bytes)
    (short : ∀ frame ∈ frames, frame.body.length < 2 ^ 31)
    (fits : Execution.Guarded (strictStep maxFrameSize maxMessageSize)
      (fun state => FitsCall maxFrameSize state.1) (strictStart frames) calls)
    (within : Execution.Guarded (strictStep maxFrameSize maxMessageSize)
      (fun state => WithinCall maxFrameSize maxMessageSize state.1) (strictStart frames) calls) :
    Enforces heap maxFrameSize maxMessageSize frames calls := by
  have start : Agrees (addedBytes calls) (Receiver.create [])
      (Receiver.create { upcoming := frames, count := 0 }) :=
    { count_eq := rfl
      beginning := fed
      moderate := (allModerate_frames short).of_isPrefix fed
      parked_eq := rfl
      failed_eq := rfl
      stage_eq := Or.inl rfl }
  exact start.calls frame_positive message_positive
    (depicts_wsmsgCreate maxFrameSize maxMessageSize) heap [] fits within

/-- The fragments of a message which has exactly the allowed size, with a ping between them. -/
def fragmentCalls : List ReceiverCall :=
  (fragmentedHello.map fun frame => .add frame.bytes) ++ [.getFrame, .getMessage]

theorem enforces_fragmentCalls : Enforces (fun _ _ => 0) 8 5 fragmentedHello fragmentCalls :=
  enforces_of_within _ (by decide) (by decide) (by decide +kernel) (by simp [fragmentedHello])
    (by decide +kernel) (by decide +kernel)

/-- A text frame with five bytes. -/
def fiveBytes : WireFrame where
  fin := true
  opcode := 1
  key := none
  form := .seven
  body := [0x68, 0x65, 0x6c, 0x6c, 0x6f]
  fits := by decide
  small := by decide

/-- With a limit of four bytes for a frame, the frame is delivered without its last byte. -/
theorem not_enforces_fiveBytes :
    Execution.Guarded (strictStep 4 16) (fun state => FitsCall 4 state.1) (strictStart [fiveBytes])
        [.add fiveBytes.bytes, .getMessage] ∧
      ([.add fiveBytes.bytes, .getMessage].foldl (wsmsgCall (2 ^ 64) fun _ _ => 0)
          (wsmsgCreate 4 16, [])).2 =
        [.message 1 [0x68, 0x65, 0x6c, 0x6c]] ∧
      ¬ Enforces (fun _ _ => 0) 4 16 [fiveBytes] [.add fiveBytes.bytes, .getMessage] := by
  refine ⟨by decide +kernel, by decide +kernel, ?_⟩
  unfold Enforces
  decide +kernel

end Jabsocket
