import Jabsocket.Reassembly

/-!
# The receiver under a policy

A receiver which keeps undecoded bytes, the message being assembled and at most one control frame.
A policy says what the receiver keeps of a chunk, of a control frame and of a data frame, and when
it gives up.  Under the policy `clipping` it does what `wsmessage.c` does with its three limited
buffers, call by call.
-/

namespace Jabsocket

/-! ## Policies -/

/-- What is found at the front of a source of frames. -/
inductive Arrival (σ : Type*) where
  /-- No frame is complete. -/
  | more
  /-- There can be no frame. -/
  | fail
  /-- A frame, and the source behind it. -/
  | item (frame : Frame) (rest : σ)

/-- How a receiver gets at its frames, and what it keeps of them; `none` is a refusal. -/
structure Policy (σ : Type*) where
  /-- Look for a frame at the front of the source. -/
  scan : σ → Arrival σ
  /-- A bound on the number of frames in the source. -/
  size : σ → Nat
  /-- A frame is taken out of the source. -/
  size_lt : ∀ {source frame rest}, scan source = .item frame rest → size rest < size source
  /-- The source with a chunk behind it. -/
  chunk : σ → List UInt8 → Option σ
  /-- The payload with which a control frame is parked. -/
  control : List UInt8 → Option (List UInt8)
  /-- What is put behind the payload of the message being assembled. -/
  data : List UInt8 → List UInt8 → Option (List UInt8)
  /-- What is left of the message when a data frame is refused. -/
  refused : Stage → Stage

/-- What a buffer with a limit adds to its content; a full buffer refuses. -/
def admitted (limit : Nat) (content input : List UInt8) : Option (List UInt8) :=
  if input = [] then some []
  else if limit = 0 then some input
  else if content.length < limit then some (input.take (limit - content.length))
  else none

/-- What a buffer with a limit keeps of an input which replaces its content. -/
def clipped (limit : Nat) (input : List UInt8) : List UInt8 :=
  if limit = 0 then input else input.take limit

/-- The decision on a byte string, for a receiver. -/
def arrivalOf (bytes : List UInt8) : Arrival (List UInt8) :=
  match scanFrame bytes with
  | .more => .more
  | .fail => .fail
  | .item frame rest => .item frame rest

theorem arrivalOf_eq_item_iff {bytes rest : List UInt8} {frame : Frame} :
    arrivalOf bytes = .item frame rest ↔ scanFrame bytes = .item frame rest := by
  unfold arrivalOf
  split <;> simp_all

/-- The policy of the code: every buffer keeps what it has room for. -/
def clipping (maxFrameSize maxMessageSize : Nat) : Policy (List UInt8) where
  scan := arrivalOf
  size := List.length
  size_lt found := frameScanner.rest_length_lt (arrivalOf_eq_item_iff.mp found)
  chunk bytes chunk := (admitted (2 * maxFrameSize) bytes chunk).map (bytes ++ ·)
  control payload := some (clipped maxFrameSize payload)
  data content payload := admitted maxMessageSize content (clipped maxFrameSize payload)
  refused stage := stage

theorem clipped_of_le {limit : Nat} {input : List UInt8} (fits : input.length ≤ limit) :
    clipped limit input = input := by
  unfold clipped
  split
  · rfl
  · exact List.take_of_length_le fits

theorem admitted_of_le {limit : Nat} {content input : List UInt8}
    (fits : content.length + input.length ≤ limit) : admitted limit content input = some input := by
  unfold admitted
  by_cases empty : input = []
  · rw [if_pos empty, empty]
  have positive := List.length_pos_of_ne_nil empty
  rw [if_neg empty, if_neg (show ¬ limit = 0 by omega), if_pos (by omega),
    List.take_of_length_le (by omega)]

theorem admitted_unlimited (content input : List UInt8) :
    admitted 0 content input = some input := by
  rw [admitted, if_pos rfl]
  split_ifs with empty
  · rw [empty]
  · rfl

theorem admitted_of_full {content input : List UInt8} (positive : 0 < content.length)
    (nonempty : input ≠ []) : admitted content.length content input = none := by
  unfold admitted
  rw [if_neg nonempty, if_neg (by omega), if_neg (Nat.lt_irrefl _)]

theorem clipped_ne_nil {limit : Nat} (positive : 0 < limit) {input : List UInt8}
    (nonempty : input ≠ []) : clipped limit input ≠ [] := by
  unfold clipped
  rw [if_neg (by omega)]
  simp [nonempty, Nat.ne_of_gt positive]

theorem bufferAppend_eq_admitted (buffer : Buffer) (input : List UInt8) :
    (bufferAppend 0 buffer input).1.data =
        buffer.data ++ (admitted buffer.maxLength buffer.data input).getD [] ∧
      (bufferAppend 0 buffer input).2 = (admitted buffer.maxLength buffer.data input).isSome := by
  unfold admitted
  by_cases empty : input = []
  · simp [bufferAppend, empty]
  rw [if_neg empty]
  by_cases unlimited : buffer.maxLength = 0
  · rw [if_pos unlimited]
    exact bufferAppend_unlimited buffer input unlimited (Or.inl rfl)
  rw [if_neg unlimited]
  obtain ⟨data, ok⟩ := bufferAppend_limited buffer unlimited empty (Or.inl (rfl : (0 : Nat) = 0))
  rw [data, ok, Buffer.length]
  by_cases room : buffer.data.length < buffer.maxLength
  · simp [room]
  · simp [room, Nat.sub_eq_zero_of_le (Nat.le_of_not_lt room)]

/-! ## The receiver -/

/-- A receiver without its buffers. -/
structure Receiver (σ : Type*) where
  /-- What is not decoded yet. -/
  source : σ
  /-- The message being assembled. -/
  stage : Stage
  /-- A control frame which was not taken. -/
  parked : Option Frame
  /-- The connection has to be terminated. -/
  failed : Bool
  deriving DecidableEq, Repr

namespace Receiver

variable {σ : Type*}

/-- A new receiver. -/
def create (source : σ) : Receiver σ where
  source
  stage := .idle
  parked := none
  failed := false

/-- Something has to be taken from the receiver, or it has failed. -/
def blocked (receiver : Receiver σ) : Bool :=
  receiver.stage.isComplete || receiver.parked.isSome || receiver.failed

variable (policy : Policy σ)

/-- Handle one frame which was taken out of the source. -/
def handle (receiver : Receiver σ) (frame : Frame) : Round (Receiver σ) :=
  if isControl frame.opcode then
    if frame.fin then
      match policy.control frame.payload with
      | some payload => .leave { receiver with parked := some { frame with payload } }
      | none => .leave { receiver with failed := true }
    else .leave { receiver with failed := true }
  else if receiver.stage.accepts frame then
    match policy.data receiver.stage.draft.payload frame.payload with
    | some payload =>
        .again { receiver with stage := receiver.stage.extend { frame with payload } }
    | none => .leave { receiver with failed := true, stage := policy.refused receiver.stage }
  else .leave { receiver with failed := true }

/-- Take one frame out of the source. -/
def round (receiver : Receiver σ) : Round (Receiver σ) :=
  match policy.scan receiver.source with
  | .more => .leave receiver
  | .fail => .leave { receiver with failed := true }
  | .item frame rest => handle policy { receiver with source := rest } frame

/-- Take frames until something has to be taken from the receiver, or nothing is complete. -/
def process (receiver : Receiver σ) : Receiver σ :=
  if receiver.blocked then receiver
  else Loop.run (round policy) (fun receiver => policy.size receiver.source) receiver

/-- Put a chunk into the receiver. -/
def add (receiver : Receiver σ) (chunk : List UInt8) : Receiver σ :=
  match policy.chunk receiver.source chunk with
  | none => receiver
  | some source => process policy { receiver with source }

/-- Take the control frame. -/
def takeFrame (receiver : Receiver σ) : Receiver σ × Option Frame :=
  match receiver.parked with
  | none => (receiver, none)
  | some frame => (process policy { receiver with parked := none }, some frame)

/-- Take a complete message. -/
def takeMessage (receiver : Receiver σ) : Receiver σ × Option Draft :=
  match receiver.stage with
  | .complete draft => (process policy { receiver with stage := .idle }, some draft)
  | .idle | .started _ => (receiver, none)

theorem parked_eq_none_of_not_blocked {receiver : Receiver σ} (free : ¬ receiver.blocked = true) :
    receiver.parked = none := by
  cases parked : receiver.parked with
  | none => rfl
  | some frame => simp [blocked, parked] at free

theorem takeMessage_of_settled {receiver : Receiver σ} (settled : receiver.stage.Settled) :
    receiver.takeMessage policy = (receiver, none) := by
  unfold takeMessage
  split
  · rename_i draft complete
    rw [complete] at settled
    exact settled.elim
  · rfl
  · rfl

section Handle

variable {policy} {receiver : Receiver σ} {frame : Frame} {payload : List UInt8}

theorem handle_of_parked (control : isControl frame.opcode = true) (final : frame.fin = true)
    (kept : policy.control frame.payload = some payload) :
    handle policy receiver frame =
      .leave { receiver with parked := some { frame with payload } } := by
  simp [handle, control, final, kept]

theorem handle_of_refuses (refuses : receiver.stage.Refuses frame) :
    handle policy receiver frame = .leave { receiver with failed := true } := by
  unfold Stage.Refuses at refuses
  cases control : isControl frame.opcode with
  | true =>
      have fragmented : frame.fin = false := by simpa [control] using refuses
      simp [handle, control, fragmented]
  | false =>
      have out_of_sequence : receiver.stage.accepts frame = false := by
        simpa [control] using refuses
      simp [handle, control, out_of_sequence]

theorem handle_of_kept (data : isControl frame.opcode = false)
    (accepted : receiver.stage.accepts frame = true)
    (kept : policy.data receiver.stage.draft.payload frame.payload = some payload) :
    handle policy receiver frame =
      .again { receiver with stage := receiver.stage.extend { frame with payload } } := by
  simp [handle, data, accepted, kept]

theorem handle_of_none (data : isControl frame.opcode = false)
    (accepted : receiver.stage.accepts frame = true)
    (none : policy.data receiver.stage.draft.payload frame.payload = none) :
    handle policy receiver frame =
      .leave { receiver with failed := true, stage := policy.refused receiver.stage } := by
  simp [handle, data, accepted, none]

end Handle

theorem handle_again {receiver next : Receiver σ} {frame : Frame}
    (again : handle policy receiver frame = .again next) : next.source = receiver.source := by
  unfold handle at again
  split at again
  · split at again
    · split at again <;> cases again
    · cases again
  · split at again
    · split at again
      · injection again with next_eq
        rw [← next_eq]
      · cases again
    · cases again

/-- The loop is left because something has to be taken or the receiver has failed. -/
theorem handle_leave {receiver final : Receiver σ} {frame : Frame}
    (leave : handle policy receiver frame = .leave final) :
    final.source = receiver.source ∧ final.blocked = true := by
  unfold handle at leave
  split at leave
  · split at leave
    · split at leave <;> injection leave with final_eq <;> rw [← final_eq] <;> simp [blocked]
    · injection leave with final_eq
      rw [← final_eq]
      simp [blocked]
  · split at leave
    · split at leave
      · cases leave
      · injection leave with final_eq
        rw [← final_eq]
        simp [blocked]
    · injection leave with final_eq
      rw [← final_eq]
      simp [blocked]

theorem round_decreasing :
    Loop.Decreasing (round policy) (fun receiver => policy.size receiver.source) := by
  intro receiver next again
  unfold round at again
  split at again
  · cases again
  · cases again
  · rename_i frame rest found
    dsimp only
    rw [handle_again policy again]
    exact policy.size_lt found

/-- Nothing is complete in the source, unless something has to be taken first. -/
def Exhausted (receiver : Receiver σ) : Prop :=
  receiver.blocked = false → policy.scan receiver.source = .more

theorem exhausted_process (receiver : Receiver σ) : (receiver.process policy).Exhausted policy := by
  unfold process
  split
  · rename_i blocked
    intro free
    simp [blocked] at free
  · refine Loop.run_induction (fun _ => True) (Exhausted policy) (round_decreasing policy)
      (fun _ _ _ _ => trivial) ?_ trivial
    intro state final _ leave
    unfold round at leave
    split at leave
    · rename_i nothing
      injection leave with final_eq
      rw [← final_eq]
      exact fun _ => nothing
    · injection leave with final_eq
      rw [← final_eq]
      intro free
      simp [blocked] at free
    · intro free
      simp [(handle_leave policy leave).2] at free

theorem Exhausted.add {policy : Policy σ} {receiver : Receiver σ}
    (exhausted : receiver.Exhausted policy) (chunk : List UInt8) :
    (receiver.add policy chunk).Exhausted policy := by
  unfold Receiver.add
  split
  · exact exhausted
  · exact exhausted_process _ _

theorem Exhausted.takeFrame {policy : Policy σ} {receiver : Receiver σ}
    (exhausted : receiver.Exhausted policy) : (receiver.takeFrame policy).1.Exhausted policy := by
  unfold Receiver.takeFrame
  split
  · exact exhausted
  · exact exhausted_process _ _

theorem Exhausted.takeMessage {policy : Policy σ} {receiver : Receiver σ}
    (exhausted : receiver.Exhausted policy) : (receiver.takeMessage policy).1.Exhausted policy := by
  unfold Receiver.takeMessage
  split
  · exact exhausted_process _ _
  · exact exhausted
  · exact exhausted

/-- The code looks for frames in its undecoded bytes. -/
theorem round_clipping (maxFrameSize maxMessageSize : Nat) (receiver : Receiver (List UInt8)) :
    receiver.round (clipping maxFrameSize maxMessageSize) =
      match scanFrame receiver.source with
      | .more => .leave receiver
      | .fail => .leave { receiver with failed := true }
      | .item frame rest =>
          handle (clipping maxFrameSize maxMessageSize) { receiver with source := rest } frame := by
  have scan_eq : (clipping maxFrameSize maxMessageSize).scan receiver.source =
      arrivalOf receiver.source := rfl
  rw [round, scan_eq, arrivalOf]
  cases scanFrame receiver.source <;> rfl

end Receiver

/-- Bytes are left when frames are taken out of a byte string one after the other. -/
inductive Unpacks (bytes : List UInt8) : List UInt8 → Prop
  | refl : Unpacks bytes bytes
  | frame {middle rest : List UInt8} {frame : Frame} (earlier : Unpacks bytes middle)
      (found : scanFrame middle = .item frame rest) : Unpacks bytes rest

/-- Processing takes whole frames out of the undecoded bytes. -/
theorem Receiver.unpacks_process (maxFrameSize maxMessageSize : Nat)
    (receiver : Receiver (List UInt8)) :
    Unpacks receiver.source
      (receiver.process (clipping maxFrameSize maxMessageSize)).source := by
  unfold Receiver.process
  split
  · exact .refl
  · refine Loop.run_induction (fun state => Unpacks receiver.source state.source)
      (fun state => Unpacks receiver.source state.source) (Receiver.round_decreasing _) ?_ ?_ .refl
    · intro state next unpacks again
      rw [Receiver.round_clipping] at again
      split at again
      · cases again
      · cases again
      · rename_i frame rest found
        rw [Receiver.handle_again _ again]
        exact unpacks.frame found
    · intro state final unpacks leave
      rw [Receiver.round_clipping] at leave
      split at leave
      · injection leave with final_eq
        rwa [← final_eq]
      · injection leave with final_eq
        rwa [← final_eq]
      · rename_i frame rest found
        rw [(Receiver.handle_leave _ leave).1]
        exact unpacks.frame found

/-! ## The code as a receiver -/

/-- `wsmsg_t` with two limits is a receiver. -/
structure Depicts (maxFrameSize maxMessageSize : Nat) (wsmsg : WsMsg)
    (receiver : Receiver (List UInt8)) : Prop where
  frameBuffer_limit : wsmsg.frameBuffer.maxLength = 2 * maxFrameSize
  frameData_limit : wsmsg.frameData.maxLength = maxFrameSize
  messageBuffer_limit : wsmsg.messageBuffer.maxLength = maxMessageSize
  bytes_eq : wsmsg.frameBuffer.data = receiver.source
  frame_eq : wsmsg.frame = receiver.parked.isSome
  error_eq : wsmsg.error = receiver.failed
  parked_eq : ∀ frame ∈ receiver.parked,
    wsmsg.fin = frame.fin ∧ wsmsg.opcode = frame.opcode ∧ wsmsg.mask = frame.mask ∧
      wsmsg.frameData.data = frame.payload
  started_eq : wsmsg.messageStarted = receiver.stage.isOpen
  message_eq : wsmsg.message = receiver.stage.isComplete
  opcode_eq : receiver.stage.isOpen = true → wsmsg.messageOpcode = receiver.stage.draft.opcode
  payload_eq : wsmsg.messageBuffer.data = receiver.stage.draft.payload

theorem depicts_wsmsgCreate (maxFrameSize maxMessageSize : Nat) :
    Depicts maxFrameSize maxMessageSize (wsmsgCreate maxFrameSize maxMessageSize)
      (Receiver.create []) where
  frameBuffer_limit := rfl
  frameData_limit := rfl
  messageBuffer_limit := rfl
  bytes_eq := rfl
  frame_eq := rfl
  error_eq := rfl
  parked_eq := by simp [Receiver.create]
  started_eq := rfl
  message_eq := rfl
  opcode_eq := by simp [Receiver.create, Stage.isOpen]
  payload_eq := rfl

section

variable {maxFrameSize maxMessageSize : Nat} {wsmsg : WsMsg}
  {receiver : Receiver (List UInt8)} (heap : Heap)

section Item

variable {frame : Frame} {rest : List UInt8}

/-- `get_frame` takes a complete frame out and keeps of its payload what `frame_data` holds. -/
theorem Depicts.getFrame_eq (depicts : Depicts maxFrameSize maxMessageSize wsmsg receiver)
    (found : scanFrame receiver.source = .item frame rest) :
    ∃ stored : Buffer,
      getFrame 0 heap wsmsg.frameBuffer wsmsg.frameData =
        .ready frame.fin frame.opcode frame.mask { wsmsg.frameBuffer with data := rest } stored ∧
      stored.data = clipped maxFrameSize frame.payload ∧ stored.maxLength = maxFrameSize := by
  rw [← depicts.bytes_eq] at found
  obtain ⟨stored, ready, payload_eq, limit⟩ :=
    getFrame_of_item heap (Or.inl rfl) wsmsg.frameData found
  refine ⟨stored, ready, ?_, ?_⟩
  · rw [payload_eq, Buffer.clip, depicts.frameData_limit, clipped]
  · rw [limit, depicts.frameData_limit]

/-- A frame which is handled is no longer among the undecoded bytes. -/
theorem Depicts.opened (depicts : Depicts maxFrameSize maxMessageSize wsmsg receiver)
    (unparked : receiver.parked = none) (rest : List UInt8) {stored : Buffer}
    (limit : stored.maxLength = maxFrameSize) :
    Depicts maxFrameSize maxMessageSize
      { wsmsg with frameBuffer := { wsmsg.frameBuffer with data := rest }, frameData := stored }
      { receiver with source := rest } :=
  { depicts with
    frameData_limit := limit
    bytes_eq := rfl
    parked_eq := by simp [unparked] }

theorem Depicts.round_control (depicts : Depicts maxFrameSize maxMessageSize wsmsg receiver)
    (unparked : receiver.parked = none) (found : scanFrame receiver.source = .item frame rest)
    (control : isControl frame.opcode = true) :
    Round.Related
      (fun wsmsg receiver =>
        Depicts maxFrameSize maxMessageSize wsmsg receiver ∧ receiver.parked = none)
      (Depicts maxFrameSize maxMessageSize)
      (wsmsgProcessRound 0 heap wsmsg)
      (Receiver.handle (clipping maxFrameSize maxMessageSize) { receiver with source := rest }
        frame) := by
  obtain ⟨stored, ready, kept, limit⟩ := depicts.getFrame_eq heap found
  have opened := depicts.opened unparked rest limit
  cases final : frame.fin with
  | true =>
      simp only [wsmsgProcessRound, ready, Receiver.handle, control, final, if_true, clipping]
      exact .leave { opened with frame_eq := rfl, parked_eq := by simp [kept] }
  | false =>
      simp only [wsmsgProcessRound, ready, Receiver.handle, control, final, if_true,
        Bool.false_eq_true, if_false]
      exact .leave { opened with error_eq := rfl }

theorem Depicts.round_accepted (depicts : Depicts maxFrameSize maxMessageSize wsmsg receiver)
    (unparked : receiver.parked = none) (found : scanFrame receiver.source = .item frame rest)
    (data : isControl frame.opcode = false) (accepted : receiver.stage.accepts frame = true) :
    Round.Related
      (fun wsmsg receiver =>
        Depicts maxFrameSize maxMessageSize wsmsg receiver ∧ receiver.parked = none)
      (Depicts maxFrameSize maxMessageSize)
      (wsmsgProcessRound 0 heap wsmsg)
      (Receiver.handle (clipping maxFrameSize maxMessageSize) { receiver with source := rest }
        frame) := by
  obtain ⟨stored, ready, kept, limit⟩ := depicts.getFrame_eq heap found
  have opened := depicts.opened unparked rest limit
  have sequence : (wsmsg.messageStarted && frame.opcode != opcodeContinuation) = false ∧
      (!wsmsg.messageStarted && frame.opcode == opcodeContinuation) = false := by
    rw [Stage.accepts_eq, ← depicts.started_eq] at accepted
    cases started : wsmsg.messageStarted <;> simp_all
  obtain ⟨appended, ok⟩ := bufferAppend_eq_admitted wsmsg.messageBuffer stored.data
  have append_limit := bufferAppend_maxLength 0 wsmsg.messageBuffer stored.data
  rw [depicts.messageBuffer_limit, depicts.payload_eq] at appended ok
  rw [depicts.messageBuffer_limit] at append_limit
  rcases outcome : bufferAppend 0 wsmsg.messageBuffer stored.data with ⟨messageBuffer, result⟩
  rw [outcome] at appended ok append_limit
  cases taken_eq : admitted maxMessageSize receiver.stage.draft.payload stored.data with
  | none =>
      obtain rfl : result = false := by simpa [taken_eq] using ok
      rw [taken_eq, Option.getD_none, List.append_nil] at appended
      rw [kept] at taken_eq
      simp only [wsmsgProcessRound, ready, data, sequence, outcome, Receiver.handle, accepted,
        clipping, taken_eq, Bool.false_eq_true, if_false, if_true]
      exact .leave
        { opened with
          messageBuffer_limit := append_limit
          error_eq := rfl
          payload_eq := appended }
  | some taken =>
      obtain rfl : result = true := by simpa [taken_eq] using ok
      rw [taken_eq, Option.getD_some] at appended
      rw [kept] at taken_eq
      simp only [wsmsgProcessRound, ready, data, sequence, outcome, Receiver.handle, accepted,
        clipping, taken_eq, Bool.false_eq_true, if_false, if_true]
      refine .again ⟨
        { opened with
          messageBuffer_limit := append_limit
          started_eq := (Stage.isOpen_extend _ _).symm
          message_eq := by rw [Stage.isComplete_extend, depicts.message_eq]
          parked_eq := by simp [unparked]
          opcode_eq := ?_
          payload_eq := ?_ }, unparked⟩
      · intro _
        rw [Stage.draft_extend, Stage.draftWith_eq, ← depicts.started_eq]
        dsimp only
        split
        · rename_i started
          exact depicts.opcode_eq (depicts.started_eq ▸ started)
        · rfl
      · rw [Stage.draft_extend, Stage.draftWith_eq]
        exact appended

theorem Depicts.round_outOfSequence
    (depicts : Depicts maxFrameSize maxMessageSize wsmsg receiver)
    (unparked : receiver.parked = none) (found : scanFrame receiver.source = .item frame rest)
    (data : isControl frame.opcode = false) (refused : receiver.stage.accepts frame = false) :
    Round.Related
      (fun wsmsg receiver =>
        Depicts maxFrameSize maxMessageSize wsmsg receiver ∧ receiver.parked = none)
      (Depicts maxFrameSize maxMessageSize)
      (wsmsgProcessRound 0 heap wsmsg)
      (Receiver.handle (clipping maxFrameSize maxMessageSize) { receiver with source := rest }
        frame) := by
  obtain ⟨stored, ready, -, limit⟩ := depicts.getFrame_eq heap found
  have opened := depicts.opened unparked rest limit
  have leave : wsmsgProcessRound 0 heap wsmsg = .leave
      { wsmsg with
        frameBuffer := { wsmsg.frameBuffer with data := rest }
        frameData := stored
        error := true } := by
    have sequence := refused
    rw [Stage.accepts_eq, ← depicts.started_eq] at sequence
    cases started : wsmsg.messageStarted <;> simp_all [wsmsgProcessRound]
  simp only [leave, Receiver.handle, data, refused, Bool.false_eq_true, if_false]
  exact .leave { opened with error_eq := rfl }

end Item

/-- What `_wsmsg_process` does in one round is what the receiver does. -/
theorem Depicts.round (depicts : Depicts maxFrameSize maxMessageSize wsmsg receiver)
    (unparked : receiver.parked = none) :
    Round.Related
      (fun wsmsg receiver =>
        Depicts maxFrameSize maxMessageSize wsmsg receiver ∧ receiver.parked = none)
      (Depicts maxFrameSize maxMessageSize)
      (wsmsgProcessRound 0 heap wsmsg)
      (receiver.round (clipping maxFrameSize maxMessageSize)) := by
  rw [Receiver.round_clipping]
  cases found : scanFrame receiver.source with
  | more =>
      rw [← depicts.bytes_eq] at found
      obtain ⟨stored, building, limit⟩ := getFrame_of_more heap (Or.inl rfl) wsmsg.frameData found
      simp only [wsmsgProcessRound, building]
      exact .leave
        { depicts with
          frameData_limit := by rw [limit, depicts.frameData_limit]
          parked_eq := by simp [unparked] }
  | fail =>
      rw [← depicts.bytes_eq] at found
      have error : getFrame 0 heap wsmsg.frameBuffer wsmsg.frameData = .error wsmsg.frameData :=
        getFrame_of_fail heap found
      simp only [wsmsgProcessRound, error]
      exact .leave { depicts with error_eq := rfl }
  | item frame rest =>
      cases control : isControl frame.opcode with
      | true => exact depicts.round_control heap unparked found control
      | false =>
          cases accepted : receiver.stage.accepts frame with
          | true => exact depicts.round_accepted heap unparked found control accepted
          | false => exact depicts.round_outOfSequence heap unparked found control accepted

/-! ## Calls -/

theorem Depicts.process (depicts : Depicts maxFrameSize maxMessageSize wsmsg receiver) :
    Depicts maxFrameSize maxMessageSize (wsmsgProcess 0 heap wsmsg)
      (receiver.process (clipping maxFrameSize maxMessageSize)) := by
  unfold wsmsgProcess Receiver.process Receiver.blocked
  rw [depicts.message_eq, depicts.frame_eq, depicts.error_eq]
  split_ifs with blocked
  · exact depicts
  · have unparked := Receiver.parked_eq_none_of_not_blocked blocked
    have rounds : ∀ state other,
        (Depicts maxFrameSize maxMessageSize state other ∧ other.parked = none) → _ :=
      fun _ _ related => Depicts.round heap related.1 related.2
    exact Loop.run_related (wsmsgProcessRound_decreasing heap)
      (Receiver.round_decreasing _) rounds ⟨depicts, unparked⟩

/-- `wsmsg_add`. -/
theorem Depicts.add (depicts : Depicts maxFrameSize maxMessageSize wsmsg receiver)
    (chunk : List UInt8) :
    Depicts maxFrameSize maxMessageSize (wsmsgAdd 0 heap wsmsg chunk).1
      (receiver.add (clipping maxFrameSize maxMessageSize) chunk) := by
  obtain ⟨appended, ok⟩ := bufferAppend_eq_admitted wsmsg.frameBuffer chunk
  have limit := bufferAppend_maxLength 0 wsmsg.frameBuffer chunk
  rw [depicts.frameBuffer_limit, depicts.bytes_eq] at appended ok
  rw [depicts.frameBuffer_limit] at limit
  rcases outcome : bufferAppend 0 wsmsg.frameBuffer chunk with ⟨frameBuffer, result⟩
  rw [outcome] at appended ok limit
  have policy_eq : (clipping maxFrameSize maxMessageSize).chunk receiver.source chunk =
      (admitted (2 * maxFrameSize) receiver.source chunk).map (receiver.source ++ ·) := rfl
  unfold wsmsgAdd Receiver.add
  rw [outcome, policy_eq]
  cases taken_eq : admitted (2 * maxFrameSize) receiver.source chunk with
  | none =>
      obtain rfl : result = false := by simpa [taken_eq] using ok
      rw [taken_eq, Option.getD_none, List.append_nil] at appended
      exact { depicts with frameBuffer_limit := limit, bytes_eq := appended }
  | some taken =>
      obtain rfl : result = true := by simpa [taken_eq] using ok
      rw [taken_eq, Option.getD_some] at appended
      apply Depicts.process
      exact { depicts with frameBuffer_limit := limit, bytes_eq := appended }

/-- `wsmsg_get_frame`, with an unlimited buffer for the payload. -/
theorem Depicts.takeFrame (depicts : Depicts maxFrameSize maxMessageSize wsmsg receiver)
    {frame : Frame} (parked : receiver.parked = some frame) {buffer : Buffer}
    (unlimited : buffer.maxLength = 0) (fin : Bool) (opcode : Nat) (mask : Bool) :
    Depicts maxFrameSize maxMessageSize
        (wsmsgGetFrame 0 heap wsmsg buffer fin opcode mask).wsmsg
        (receiver.takeFrame (clipping maxFrameSize maxMessageSize)).1 ∧
      (wsmsgGetFrame 0 heap wsmsg buffer fin opcode mask).opcode = frame.opcode ∧
      (wsmsgGetFrame 0 heap wsmsg buffer fin opcode mask).buffer.data = frame.payload ∧
      (wsmsgGetFrame 0 heap wsmsg buffer fin opcode mask).result = true := by
  obtain ⟨emptied, moved, -, ok⟩ := bufferMove_unlimited wsmsg.frameData unlimited
  obtain ⟨-, opcode_eq, -, payload_eq⟩ := depicts.parked_eq frame parked
  have flag : wsmsg.frame = true := by rw [depicts.frame_eq, parked]; rfl
  have taken : Depicts maxFrameSize maxMessageSize
      { wsmsg with frame := false, frameData := (bufferMove 0 wsmsg.frameData buffer).1 }
      { receiver with parked := none } :=
    { depicts with
      frameData_limit := by rw [emptied]; exact depicts.frameData_limit
      frame_eq := rfl
      parked_eq := by simp }
  simp only [wsmsgGetFrame, flag, Receiver.takeFrame, parked, Bool.not_true, Bool.false_eq_true,
    if_false]
  exact ⟨taken.process heap, opcode_eq, moved.trans payload_eq, ok⟩

/-- `wsmsg_get_message`, with an unlimited buffer for the payload. -/
theorem Depicts.takeMessage (depicts : Depicts maxFrameSize maxMessageSize wsmsg receiver)
    {draft : Draft} (complete : receiver.stage = .complete draft) {buffer : Buffer}
    (unlimited : buffer.maxLength = 0) (opcode : Nat) :
    Depicts maxFrameSize maxMessageSize (wsmsgGetMessage 0 heap wsmsg buffer opcode).wsmsg
        (receiver.takeMessage (clipping maxFrameSize maxMessageSize)).1 ∧
      (wsmsgGetMessage 0 heap wsmsg buffer opcode).opcode = draft.opcode ∧
      (wsmsgGetMessage 0 heap wsmsg buffer opcode).buffer.data = draft.payload ∧
      (wsmsgGetMessage 0 heap wsmsg buffer opcode).buffer.maxLength = 0 ∧
      (wsmsgGetMessage 0 heap wsmsg buffer opcode).result = true := by
  obtain ⟨emptied, moved, limit, ok⟩ := bufferMove_unlimited wsmsg.messageBuffer unlimited
  have flag : wsmsg.message = true := by rw [depicts.message_eq, complete]; rfl
  have opcode_eq : wsmsg.messageOpcode = draft.opcode := by
    rw [depicts.opcode_eq (by rw [complete]; rfl), complete]
    rfl
  have payload_eq : wsmsg.messageBuffer.data = draft.payload := by
    rw [depicts.payload_eq, complete]
    rfl
  have taken : Depicts maxFrameSize maxMessageSize
      { wsmsg with
        message := false
        messageStarted := false
        messageBuffer := (bufferMove 0 wsmsg.messageBuffer buffer).1 }
      { receiver with stage := .idle } :=
    { depicts with
      messageBuffer_limit := by rw [emptied]; exact depicts.messageBuffer_limit
      started_eq := rfl
      message_eq := rfl
      opcode_eq := by simp [Stage.isOpen]
      payload_eq := by rw [emptied]; rfl }
  simp only [wsmsgGetMessage, flag, Receiver.takeMessage, complete, Bool.not_true,
    Bool.false_eq_true, if_false]
  exact ⟨taken.process heap, opcode_eq, moved.trans payload_eq, limit, ok⟩

end

end Jabsocket
