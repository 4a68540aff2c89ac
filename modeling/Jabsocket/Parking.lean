import Jabsocket.Limits

/-!
# Control frames which wait

A control frame waits in `frame_data` until it is taken, and a complete message in
`message_buffer`.  As long as one of them waits, or after an error, `wsmsg_add` only stores bytes.
A control frame which waits has its whole payload exactly when the payload is within the limit of
`frame_data`.
-/

namespace Jabsocket

/-! ## Calls and the loop -/

/-- The receiver which a call hands to `_wsmsg_process`, or leaves behind without calling it. -/
def WsMsg.handed (wsmsg : WsMsg) : ReceiverCall → WsMsg
  | .add chunk => { wsmsg with frameBuffer := (bufferAppend 0 wsmsg.frameBuffer chunk).1 }
  | .getFrame =>
      if wsmsg.frame then
        { wsmsg with
          frame := false
          frameData := (bufferMove 0 wsmsg.frameData (bufferCreate 0)).1 }
      else wsmsg
  | .getMessage =>
      if wsmsg.message then
        { wsmsg with
          message := false
          messageStarted := false
          messageBuffer := (bufferMove 0 wsmsg.messageBuffer (bufferCreate 0)).1 }
      else wsmsg

/-- A call comes to `_wsmsg_process`. -/
def WsMsg.hands (wsmsg : WsMsg) : ReceiverCall → Bool
  | .add chunk => (bufferAppend 0 wsmsg.frameBuffer chunk).2
  | .getFrame => wsmsg.frame
  | .getMessage => wsmsg.message

/-- A control frame, a message or an error is pending. -/
def WsMsg.pending (wsmsg : WsMsg) : Bool :=
  wsmsg.message || wsmsg.frame || wsmsg.error

/-- A call enters the loop of `_wsmsg_process`. -/
def WsMsg.Enters (wsmsg : WsMsg) (call : ReceiverCall) : Prop :=
  wsmsg.hands call = true ∧ (wsmsg.handed call).pending = false

instance (wsmsg : WsMsg) (call : ReceiverCall) : Decidable (wsmsg.Enters call) :=
  inferInstanceAs (Decidable (_ ∧ _))

/-- The states in which a call looks for a frame. -/
def ComesTo (sizeMod : Nat) (heap : Heap) (wsmsg : WsMsg) (call : ReceiverCall)
    (visited : WsMsg) : Prop :=
  wsmsg.Enters call ∧ Loop.Visits (wsmsgProcessRound sizeMod heap) (wsmsg.handed call) visited

theorem wsmsgProcess_of_pending (sizeMod : Nat) (heap : Heap) {wsmsg : WsMsg}
    (pending : wsmsg.pending = true) : wsmsgProcess sizeMod heap wsmsg = wsmsg :=
  if_pos pending

theorem wsmsgCall_fst (sizeMod : Nat) (heap : Heap) (wsmsg : WsMsg) (log : List Delivery)
    (call : ReceiverCall) :
    (wsmsgCall sizeMod heap (wsmsg, log) call).1 =
      if wsmsg.Enters call then wsmsgProcessLoop sizeMod heap (wsmsg.handed call)
      else wsmsg.handed call := by
  have processed : (wsmsgCall sizeMod heap (wsmsg, log) call).1 =
      if wsmsg.hands call then wsmsgProcess sizeMod heap (wsmsg.handed call)
      else wsmsg.handed call := by
    cases call with
    | add chunk =>
        rcases outcome : bufferAppend 0 wsmsg.frameBuffer chunk with ⟨frameBuffer, result⟩
        cases result <;> simp [wsmsgCall, wsmsgAdd, WsMsg.handed, WsMsg.hands, outcome]
    | getFrame =>
        cases flag : wsmsg.frame <;>
          simp [wsmsgCall, wsmsgGetFrame, WsMsg.handed, WsMsg.hands, flag]
    | getMessage =>
        cases flag : wsmsg.message <;>
          simp [wsmsgCall, wsmsgGetMessage, WsMsg.handed, WsMsg.hands, flag]
  rw [processed]
  cases hands : wsmsg.hands call with
  | false => simp [WsMsg.Enters, hands]
  | true =>
      cases pending : (wsmsg.handed call).pending with
      | false =>
          rw [if_pos rfl, if_pos ⟨hands, pending⟩]
          exact if_neg (by simpa [WsMsg.pending] using pending)
      | true =>
          rw [if_pos rfl, wsmsgProcess_of_pending sizeMod heap pending,
            if_neg (by simp [WsMsg.Enters, pending])]

/-- What is delivered is taken before anything is processed. -/
theorem wsmsgCall_snd (sizeMod : Nat) (heap : Heap) (wsmsg : WsMsg) (log : List Delivery)
    (call : ReceiverCall) :
    (wsmsgCall sizeMod heap (wsmsg, log) call).2 = (wsmsgCall 0 heap (wsmsg, log) call).2 := by
  cases call with
  | add chunk => rfl
  | getFrame => cases flag : wsmsg.frame <;> simp [wsmsgCall, wsmsgGetFrame, flag]
  | getMessage => cases flag : wsmsg.message <;> simp [wsmsgCall, wsmsgGetMessage, flag]

/-- The bytes in which a call looks for frames come to no announced length of 2^31 or more. -/
def WsMsg.ModerateCall (wsmsg : WsMsg) (call : ReceiverCall) : Prop :=
  wsmsg.Enters call → AllModerate (wsmsg.handed call).frameBuffer.data

instance (wsmsg : WsMsg) (call : ReceiverCall) : Decidable (wsmsg.ModerateCall call) :=
  inferInstanceAs (Decidable (_ → AllModerate _))

section Moderate

variable {sizeMod : Nat} (large : 2 ^ 33 ≤ sizeMod) (heap : Heap) {wsmsg : WsMsg}
  {call : ReceiverCall} (moderate : wsmsg.ModerateCall call)

include large moderate

theorem WsMsg.ModerateCall.wsmsgCall_eq (log : List Delivery) :
    wsmsgCall sizeMod heap (wsmsg, log) call = wsmsgCall 0 heap (wsmsg, log) call := by
  refine Prod.ext ?_ (wsmsgCall_snd sizeMod heap wsmsg log call)
  rw [wsmsgCall_fst, wsmsgCall_fst]
  exact ite_congr rfl
    (fun enters => wsmsgProcessLoop_of_moderate heap large (moderate enters)) fun _ => rfl

theorem WsMsg.ModerateCall.comesTo_iff {visited : WsMsg} :
    ComesTo sizeMod heap wsmsg call visited ↔ ComesTo 0 heap wsmsg call visited :=
  and_congr_right fun enters => visits_of_moderate heap large (moderate enters)

/-- The rounds of such a call are those where no sum wraps. -/
theorem WsMsg.ModerateCall.round_eq {visited : WsMsg} (comes : ComesTo 0 heap wsmsg call visited) :
    wsmsgProcessRound sizeMod heap visited = wsmsgProcessRound 0 heap visited :=
  wsmsgProcessRound_of_visits heap large (moderate comes.1) visited comes.2

end Moderate

/-- The bytes which a call puts behind those in `frame_buffer`. -/
def WsMsg.storedBy (wsmsg : WsMsg) (call : ReceiverCall) : List UInt8 :=
  (wsmsg.handed call).frameBuffer.data.drop wsmsg.frameBuffer.length

theorem WsMsg.handed_bytes (wsmsg : WsMsg) (call : ReceiverCall) :
    (wsmsg.handed call).frameBuffer.data = wsmsg.frameBuffer.data ++ wsmsg.storedBy call := by
  have extends_bytes : wsmsg.frameBuffer.data <+: (wsmsg.handed call).frameBuffer.data := by
    cases call with
    | add chunk => exact ⟨_, (bufferAppend_eq_admitted wsmsg.frameBuffer chunk).1.symm⟩
    | getFrame => cases flag : wsmsg.frame <;> simp [handed, flag]
    | getMessage => cases flag : wsmsg.message <;> simp [handed, flag]
  obtain ⟨later, bytes_eq⟩ := extends_bytes
  rw [storedBy, ← bytes_eq, Buffer.length, List.drop_left]

/-! ## Frames taken out of the stored bytes -/

theorem Unpacks.length_le {bytes rest : List UInt8} (unpacks : Unpacks bytes rest) :
    rest.length ≤ bytes.length := by
  induction unpacks with
  | refl => exact Nat.le_refl _
  | frame earlier found ih =>
      exact Nat.le_trans (Nat.le_of_lt (frameScanner.rest_length_lt found)) ih

/-- Behind the first frame of a byte string comes what is left of it later. -/
theorem Unpacks.tail {bytes rest next : List UInt8} {frame : Frame} (unpacks : Unpacks bytes rest)
    (shorter : rest ≠ bytes) (found : scanFrame bytes = .item frame next) : Unpacks next rest := by
  induction unpacks with
  | refl => exact absurd rfl shorter
  | @frame middle rest taken earlier scanned ih =>
      by_cases first : middle = bytes
      · subst first
        rw [found] at scanned
        injection scanned with _ rest_eq
        exact rest_eq ▸ .refl
      · exact (ih first).frame scanned

/-- Frames are taken out in one order only. -/
theorem Unpacks.total {bytes first second : List UInt8} (left : Unpacks bytes first)
    (right : Unpacks bytes second) : Unpacks first second ∨ Unpacks second first := by
  induction left with
  | refl => exact Or.inl right
  | @frame middle rest taken earlier found ih =>
      rcases ih with before | after
      · by_cases same : second = middle
        · exact Or.inr (same ▸ (Unpacks.refl : Unpacks middle middle).frame found)
        · exact Or.inl (before.tail same found)
      · exact Or.inr (after.frame found)

/-- The frame which was taken out last is determined by what is left. -/
theorem Unpacks.last_unique {bytes first second rest : List UInt8} {frame other : Frame}
    (left : Unpacks bytes first) (right : Unpacks bytes second)
    (found : scanFrame first = .item frame rest) (found' : scanFrame second = .item other rest) :
    frame = other := by
  have same : first = second := by
    have first_lt := frameScanner.rest_length_lt found
    have second_lt := frameScanner.rest_length_lt found'
    by_contra different
    rcases left.total right with before | after
    · have := (before.tail (Ne.symm different) found).length_le
      omega
    · have := (after.tail different found').length_le
      omega
  subst same
  rw [found] at found'
  injection found'

/-! ## The state between two calls -/

/-- The frame which waits: the last one which was taken out of the bytes stored so far. -/
structure WsMsg.Parks (wsmsg : WsMsg) (stored : List UInt8) (frame : Frame) : Prop where
  last : ∃ before, Unpacks stored before ∧ scanFrame before = .item frame wsmsg.frameBuffer.data
  fin_eq : wsmsg.fin = frame.fin
  opcode_eq : wsmsg.opcode = frame.opcode
  mask_eq : wsmsg.mask = frame.mask

/-- What holds of a receiver between two calls, when `stored` are all bytes which were ever put into
`frame_buffer`. -/
structure WsMsg.Coherent (sizeMod : Nat) (heap : Heap) (stored : List UInt8) (wsmsg : WsMsg) :
    Prop where
  started_of_message : wsmsg.message = true → wsmsg.messageStarted = true
  empty_of_not_started : wsmsg.messageStarted = false → wsmsg.messageBuffer.data = []
  control_of_frame : wsmsg.frame = true → wsmsg.fin = true ∧ isControl wsmsg.opcode = true
  /-- The frame which waits has its payload in `frame_data`. -/
  payload_of_frame : wsmsg.frame = true →
    ∃ frame, wsmsg.Parks stored frame ∧ wsmsg.frameData.data = frame.payload
  /-- While something is pending, `wsmsg_add` changes nothing but `frame_buffer`. -/
  add_of_pending : wsmsg.pending = true →
    ∀ chunk, ∃ frameBuffer, (wsmsgAdd sizeMod heap wsmsg chunk).1 = { wsmsg with frameBuffer }
  /-- An error stays, nothing is taken out of `frame_buffer` any more, and the flags of frames and
  messages can only be cleared. -/
  call_of_error : wsmsg.error = true →
    ∀ call, (wsmsgCall sizeMod heap (wsmsg, []) call).1.error = true ∧
      wsmsg.frameBuffer.data <+: (wsmsgCall sizeMod heap (wsmsg, []) call).1.frameBuffer.data ∧
      ((wsmsgCall sizeMod heap (wsmsg, []) call).1.frame = true → wsmsg.frame = true) ∧
      ((wsmsgCall sizeMod heap (wsmsg, []) call).1.message = true → wsmsg.message = true)

/-- One call, with the bytes stored so far. -/
def trackedStep (sizeMod : Nat) (heap : Heap) (state : WsMsg × List UInt8) (call : ReceiverCall) :
    Option (WsMsg × List UInt8) :=
  some ((wsmsgCall sizeMod heap (state.1, []) call).1, state.2 ++ state.1.storedBy call)

/-- The first frame in `frame_buffer` is a control frame whose payload exceeds the limit of
`frame_data`. -/
def WsMsg.Overlong (wsmsg : WsMsg) : Prop :=
  ∃ frame rest, scanFrame wsmsg.frameBuffer.data = .item frame rest ∧
    isControl frame.opcode = true ∧ frame.fin = true ∧ 0 < wsmsg.frameData.maxLength ∧
    wsmsg.frameData.maxLength < frame.payload.length

/-- A call takes no control frame whose payload exceeds the limit. -/
def TakesWhole (sizeMod : Nat) (heap : Heap) (state : WsMsg × List UInt8) (call : ReceiverCall) :
    Prop :=
  ∀ visited, ComesTo sizeMod heap state.1 call visited → ¬ visited.Overlong

/-- What every run keeps: the frame which waits has of its payload what `frame_data` can hold. -/
structure WsMsg.Tracked (maxFrameSize maxMessageSize : Nat) (stored : List UInt8) (wsmsg : WsMsg) :
    Prop where
  depicts : ∃ receiver, Depicts maxFrameSize maxMessageSize wsmsg receiver
  unpacks : Unpacks stored wsmsg.frameBuffer.data
  parks : wsmsg.frame = true →
    ∃ frame, wsmsg.Parks stored frame ∧ frame.fin = true ∧ isControl frame.opcode = true ∧
      wsmsg.frameData.data = clipped maxFrameSize frame.payload

theorem WsMsg.Parks.unique {wsmsg : WsMsg} {stored : List UInt8} {frame other : Frame}
    (parks : wsmsg.Parks stored frame) (parks' : wsmsg.Parks stored other) : frame = other := by
  obtain ⟨before, unpacks, found⟩ := parks.last
  obtain ⟨before', unpacks', found'⟩ := parks'.last
  exact unpacks.last_unique unpacks' found found'

theorem clipped_eq_self_iff {limit : Nat} {input : List UInt8} :
    clipped limit input = input ↔ limit = 0 ∨ input.length ≤ limit := by
  unfold clipped
  split_ifs with unlimited
  · simp [unlimited]
  · simp [unlimited, List.take_eq_self_iff]

theorem WsMsg.handed_error (wsmsg : WsMsg) (call : ReceiverCall) :
    (wsmsg.handed call).error = wsmsg.error := by
  cases call with
  | add chunk => rfl
  | getFrame => cases flag : wsmsg.frame <;> simp [handed, flag]
  | getMessage => cases flag : wsmsg.message <;> simp [handed, flag]

theorem WsMsg.frame_of_handed {wsmsg : WsMsg} {call : ReceiverCall}
    (flag : (wsmsg.handed call).frame = true) :
    wsmsg.frame = true ∧ (wsmsg.handed call).frameData = wsmsg.frameData ∧
      (wsmsg.handed call).fin = wsmsg.fin ∧ (wsmsg.handed call).opcode = wsmsg.opcode ∧
      (wsmsg.handed call).mask = wsmsg.mask := by
  cases call with
  | add chunk => exact ⟨flag, rfl, rfl, rfl, rfl⟩
  | getFrame => cases parked : wsmsg.frame <;> simp [handed, parked] at flag
  | getMessage => cases complete : wsmsg.message <;> simp_all [handed]

theorem WsMsg.message_of_handed {wsmsg : WsMsg} {call : ReceiverCall}
    (flag : (wsmsg.handed call).message = true) : wsmsg.message = true := by
  cases call with
  | add chunk => exact flag
  | getFrame => cases parked : wsmsg.frame <;> simp_all [handed]
  | getMessage => cases complete : wsmsg.message <;> simp [handed, complete] at flag

/-- After an error no call processes anything. -/
theorem wsmsgCall_of_error (sizeMod : Nat) (heap : Heap) {wsmsg : WsMsg}
    (failed : wsmsg.error = true) (call : ReceiverCall) :
    (wsmsgCall sizeMod heap (wsmsg, []) call).1 = wsmsg.handed call := by
  rw [wsmsgCall_fst, if_neg]
  rintro ⟨-, free⟩
  simp [WsMsg.pending, WsMsg.handed_error, failed] at free

/-- A control frame waits without a part of its payload. -/
def WsMsg.Shortened (stored : List UInt8) (wsmsg : WsMsg) : Prop :=
  wsmsg.frame = true ∧ ∃ frame, wsmsg.Parks stored frame ∧ wsmsg.frameData.data ≠ frame.payload

/-- Everything but the payload of the frame which waits is as it should be in every run. -/
theorem WsMsg.Tracked.coherent_iff {maxFrameSize maxMessageSize : Nat} {stored : List UInt8}
    {wsmsg : WsMsg} (tracked : wsmsg.Tracked maxFrameSize maxMessageSize stored) (sizeMod : Nat)
    (heap : Heap) : wsmsg.Coherent sizeMod heap stored ↔ ¬ wsmsg.Shortened stored := by
  constructor
  · rintro coherent ⟨flag, frame, parks, lost⟩
    obtain ⟨other, parks', payload_eq⟩ := coherent.payload_of_frame flag
    exact lost (parks.unique parks' ▸ payload_eq)
  · intro whole
    obtain ⟨receiver, depicts⟩ := tracked.depicts
    refine
      { started_of_message := ?_
        empty_of_not_started := ?_
        control_of_frame := ?_
        payload_of_frame := ?_
        add_of_pending := ?_
        call_of_error := ?_ }
    · rw [depicts.message_eq, depicts.started_eq]
      cases receiver.stage <;> simp [Stage.isComplete, Stage.isOpen]
    · rw [depicts.started_eq, depicts.payload_eq]
      cases receiver.stage <;> simp [Stage.isOpen, Stage.draft]
    · intro flag
      obtain ⟨frame, parks, final, control, -⟩ := tracked.parks flag
      exact ⟨parks.fin_eq.trans final, by rw [parks.opcode_eq, control]⟩
    · intro flag
      obtain ⟨frame, parks, -⟩ := tracked.parks flag
      refine ⟨frame, parks, ?_⟩
      by_contra lost
      exact whole ⟨flag, frame, parks, lost⟩
    · intro pending chunk
      unfold wsmsgAdd
      split
      · exact ⟨_, rfl⟩
      · exact ⟨_, wsmsgProcess_of_pending sizeMod heap pending⟩
    · intro failed call
      rw [wsmsgCall_of_error sizeMod heap failed, wsmsg.handed_error]
      exact ⟨failed, ⟨_, (wsmsg.handed_bytes call).symm⟩,
        fun flag => (WsMsg.frame_of_handed flag).1, WsMsg.message_of_handed⟩

/-! ## One round -/

section

variable {maxFrameSize maxMessageSize : Nat} {stored : List UInt8} {wsmsg : WsMsg} {heap : Heap}

theorem WsMsg.Tracked.exists_depicts (tracked : wsmsg.Tracked maxFrameSize maxMessageSize stored)
    (free : wsmsg.frame = false) :
    ∃ receiver, Depicts maxFrameSize maxMessageSize wsmsg receiver ∧ receiver.parked = none := by
  obtain ⟨receiver, depicts⟩ := tracked.depicts
  refine ⟨receiver, depicts, ?_⟩
  rw [depicts.frame_eq] at free
  simpa using free

/-- Bytes in which no control frame was found just now. -/
theorem Depicts.tracked {receiver : Receiver (List UInt8)}
    (depicts : Depicts maxFrameSize maxMessageSize wsmsg receiver)
    (unparked : receiver.parked = none) (unpacks : Unpacks stored receiver.source) :
    wsmsg.Tracked maxFrameSize maxMessageSize stored ∧ wsmsg.frame = false := by
  have free : wsmsg.frame = false := by rw [depicts.frame_eq, unparked]; rfl
  refine ⟨⟨⟨receiver, depicts⟩, depicts.bytes_eq ▸ unpacks, fun flag => ?_⟩, free⟩
  simp [free] at flag

/-- A round which goes round again has taken a data frame. -/
theorem WsMsg.Tracked.again (tracked : wsmsg.Tracked maxFrameSize maxMessageSize stored)
    (free : wsmsg.frame = false) {next : WsMsg}
    (again : wsmsgProcessRound 0 heap wsmsg = .again next) :
    (next.Tracked maxFrameSize maxMessageSize stored ∧ next.frame = false) ∧ ¬ wsmsg.Overlong := by
  obtain ⟨receiver, depicts, unparked⟩ := tracked.exists_depicts free
  have unpacks := tracked.unpacks
  have related := depicts.round heap unparked
  rw [again, Receiver.round_clipping] at related
  rw [depicts.bytes_eq] at unpacks
  cases found : scanFrame receiver.source with
  | more =>
      rw [found] at related
      cases related
  | fail =>
      rw [found] at related
      cases related
  | item frame rest =>
      rw [found] at related
      dsimp only at related
      have data : isControl frame.opcode = false := by
        by_contra control
        rw [Bool.not_eq_false] at control
        cases final : frame.fin with
        | true =>
            rw [Receiver.handle_of_parked control final rfl] at related
            cases related
        | false =>
            rw [Receiver.handle_of_refuses (by simp [Stage.Refuses, control, final])] at related
            cases related
      cases handled : Receiver.handle (clipping maxFrameSize maxMessageSize)
          { receiver with source := rest } frame with
      | leave other =>
          rw [handled] at related
          cases related
      | again other =>
          rw [handled] at related
          cases related with
          | again related =>
              have source_eq := Receiver.handle_again _ handled
              refine ⟨related.1.tracked related.2 (source_eq ▸ unpacks.frame found), ?_⟩
              rintro ⟨frame', rest', found', control, -⟩
              rw [depicts.bytes_eq, found] at found'
              injection found' with frame_eq
              rw [← frame_eq, data] at control
              cases control

/-- Only a final control frame is parked. -/
theorem Receiver.handle_unparked {σ : Type*} {policy : Policy σ} {receiver other : Receiver σ}
    {frame : Frame} (leave : Receiver.handle policy receiver frame = .leave other)
    (passed : ¬ (isControl frame.opcode = true ∧ frame.fin = true)) :
    other.parked = receiver.parked := by
  unfold Receiver.handle at leave
  split at leave
  · rename_i control
    split at leave
    · rename_i final
      exact absurd ⟨control, final⟩ passed
    · injection leave with other_eq
      rw [← other_eq]
  · split at leave
    · split at leave
      · cases leave
      · injection leave with other_eq
        rw [← other_eq]
    · injection leave with other_eq
      rw [← other_eq]

/-- A control frame which is parked is the last one which was taken out, and keeps its payload
unless it is too long. -/
theorem WsMsg.Tracked.park (tracked : wsmsg.Tracked maxFrameSize maxMessageSize stored)
    {receiver : Receiver (List UInt8)}
    (depicts : Depicts maxFrameSize maxMessageSize wsmsg receiver) {frame : Frame}
    {rest : List UInt8} (found : scanFrame receiver.source = .item frame rest)
    (control : isControl frame.opcode = true) (is_final : frame.fin = true) {final : WsMsg}
    (parked : Depicts maxFrameSize maxMessageSize final
      { receiver with
        source := rest
        parked := some { frame with payload := clipped maxFrameSize frame.payload } }) :
    final.Tracked maxFrameSize maxMessageSize stored ∧
      (final.Shortened stored ↔ wsmsg.Overlong) := by
  have unpacks := tracked.unpacks
  rw [depicts.bytes_eq] at unpacks
  obtain ⟨fin_eq, opcode_eq, mask_eq, payload_eq⟩ := parked.parked_eq _ rfl
  have parks : final.Parks stored frame :=
    { last := ⟨receiver.source, unpacks, by rw [parked.bytes_eq]; exact found⟩
      fin_eq := fin_eq
      opcode_eq := opcode_eq
      mask_eq := mask_eq }
  have flag : final.frame = true := parked.frame_eq
  have bytes_eq : final.frameBuffer.data = rest := parked.bytes_eq
  refine ⟨⟨⟨_, parked⟩, bytes_eq ▸ unpacks.frame found, fun _ =>
    ⟨frame, parks, is_final, control, payload_eq⟩⟩, ?_⟩
  constructor
  · rintro ⟨-, other, parks', lost⟩
    rw [← parks.unique parks', payload_eq, ne_eq, clipped_eq_self_iff] at lost
    push Not at lost
    refine ⟨frame, rest, depicts.bytes_eq ▸ found, control, is_final, ?_, ?_⟩
    · rw [depicts.frameData_limit]
      exact Nat.pos_of_ne_zero lost.1
    · rw [depicts.frameData_limit]
      exact lost.2
  · rintro ⟨other, rest', found', -, -, positive, exceeds⟩
    rw [depicts.bytes_eq, found] at found'
    injection found' with frame_eq
    rw [depicts.frameData_limit] at positive exceeds
    refine ⟨flag, frame, parks, ?_⟩
    rw [payload_eq, ne_eq, clipped_eq_self_iff, frame_eq]
    omega

/-- A round which leaves the loop shortens a payload exactly when it parks a control frame which is
too long. -/
theorem WsMsg.Tracked.leave (tracked : wsmsg.Tracked maxFrameSize maxMessageSize stored)
    (free : wsmsg.frame = false) {final : WsMsg}
    (leave : wsmsgProcessRound 0 heap wsmsg = .leave final) :
    final.Tracked maxFrameSize maxMessageSize stored ∧
      (final.Shortened stored ↔ wsmsg.Overlong) := by
  obtain ⟨receiver, depicts, unparked⟩ := tracked.exists_depicts free
  have unpacks := tracked.unpacks
  rw [depicts.bytes_eq] at unpacks
  have related := depicts.round heap unparked
  rw [leave, Receiver.round_clipping] at related
  have quiet : ∀ {other : Receiver (List UInt8)},
      Depicts maxFrameSize maxMessageSize final other → other.parked = none →
      Unpacks stored other.source → ¬ wsmsg.Overlong →
      final.Tracked maxFrameSize maxMessageSize stored ∧
        (final.Shortened stored ↔ wsmsg.Overlong) := by
    intro other depicts unparked unpacks short
    obtain ⟨tracked, free⟩ := depicts.tracked unparked unpacks
    exact ⟨tracked, iff_of_false (fun ⟨flag, _⟩ => by simp [free] at flag) short⟩
  cases found : scanFrame receiver.source with
  | more =>
      rw [found] at related
      cases related with
      | leave related =>
          refine quiet related unparked unpacks ?_
          rintro ⟨frame, rest, found', -⟩
          simp [depicts.bytes_eq, found] at found'
  | fail =>
      rw [found] at related
      cases related with
      | leave related =>
          refine quiet related unparked unpacks ?_
          rintro ⟨frame, rest, found', -⟩
          simp [depicts.bytes_eq, found] at found'
  | item frame rest =>
      rw [found] at related
      dsimp only at related
      by_cases parks : isControl frame.opcode = true ∧ frame.fin = true
      · rw [Receiver.handle_of_parked parks.1 parks.2 rfl] at related
        cases related with
        | leave related => exact tracked.park depicts found parks.1 parks.2 related
      · cases handled : Receiver.handle (clipping maxFrameSize maxMessageSize)
            { receiver with source := rest } frame with
        | again other =>
            rw [handled] at related
            cases related
        | leave other =>
            rw [handled] at related
            cases related with
            | leave related =>
                have source_eq := (Receiver.handle_leave _ handled).1
                have still : other.parked = none :=
                  (Receiver.handle_unparked handled parks).trans unparked
                refine quiet related still (source_eq ▸ unpacks.frame found) ?_
                rintro ⟨frame', rest', found', control, final, -⟩
                rw [depicts.bytes_eq, found] at found'
                injection found' with frame_eq
                exact parks (frame_eq ▸ ⟨control, final⟩)

/-- The loop shortens a payload exactly when it comes to a control frame which is too long. -/
theorem WsMsg.Tracked.run (tracked : wsmsg.Tracked maxFrameSize maxMessageSize stored)
    (free : wsmsg.frame = false) (heap : Heap) :
    (wsmsgProcessLoop 0 heap wsmsg).Tracked maxFrameSize maxMessageSize stored ∧
      ((wsmsgProcessLoop 0 heap wsmsg).Shortened stored ↔
        ∃ visited, Loop.Visits (wsmsgProcessRound 0 heap) wsmsg visited ∧ visited.Overlong) := by
  let invariant : WsMsg → Prop := fun state =>
    state.Tracked maxFrameSize maxMessageSize stored ∧ state.frame = false
  have decreasing := wsmsgProcessRound_decreasing heap
  constructor
  · exact Loop.run_induction invariant (fun final => final.Tracked _ _ stored) decreasing
      (fun state next kept again => (kept.1.again kept.2 again).1)
      (fun state final kept leave => (kept.1.leave kept.2 leave).1) ⟨tracked, free⟩
  · exact Loop.run_faulty_iff decreasing
      (fun state next (kept : invariant state) again => kept.1.again kept.2 again)
      (fun state final kept leave => (kept.1.leave kept.2 leave).2) ⟨tracked, free⟩

/-! ## Calls -/

theorem WsMsg.Parks.handed {frame : Frame} (parks : wsmsg.Parks stored frame) {call : ReceiverCall}
    (flag : (wsmsg.handed call).frame = true) :
    (wsmsg.handed call).Parks (stored ++ wsmsg.storedBy call) frame := by
  obtain ⟨-, -, fin_eq, opcode_eq, mask_eq⟩ := WsMsg.frame_of_handed flag
  obtain ⟨before, unpacks, found⟩ := parks.last
  refine
    { last := ⟨before ++ wsmsg.storedBy call, unpacks.append _, ?_⟩
      fin_eq := fin_eq.trans parks.fin_eq
      opcode_eq := opcode_eq.trans parks.opcode_eq
      mask_eq := mask_eq.trans parks.mask_eq }
  rw [wsmsg.handed_bytes]
  exact frameScanner.scan_item_append _ found

theorem Depicts.handed {receiver : Receiver (List UInt8)}
    (depicts : Depicts maxFrameSize maxMessageSize wsmsg receiver) (call : ReceiverCall) :
    ∃ receiver, Depicts maxFrameSize maxMessageSize (wsmsg.handed call) receiver := by
  cases call with
  | add chunk =>
      refine ⟨{ receiver with source := (bufferAppend 0 wsmsg.frameBuffer chunk).1.data },
        { depicts with frameBuffer_limit := ?_, bytes_eq := rfl }⟩
      exact (bufferAppend_maxLength 0 wsmsg.frameBuffer chunk).trans depicts.frameBuffer_limit
  | getFrame =>
      unfold WsMsg.handed
      dsimp only
      split_ifs
      · obtain ⟨emptied, -⟩ := bufferMove_unlimited wsmsg.frameData (bufferCreate_maxLength 0)
        rw [emptied]
        exact ⟨{ receiver with parked := none },
          { depicts with
            frameData_limit := depicts.frameData_limit
            frame_eq := rfl
            parked_eq := by simp }⟩
      · exact ⟨receiver, depicts⟩
  | getMessage =>
      unfold WsMsg.handed
      dsimp only
      split_ifs
      · obtain ⟨emptied, -⟩ := bufferMove_unlimited wsmsg.messageBuffer (bufferCreate_maxLength 0)
        rw [emptied]
        exact ⟨{ receiver with stage := .idle },
          { depicts with
            messageBuffer_limit := depicts.messageBuffer_limit
            started_eq := rfl
            message_eq := rfl
            opcode_eq := by simp [Stage.isOpen]
            payload_eq := rfl }⟩
      · exact ⟨receiver, depicts⟩

theorem WsMsg.Tracked.handed (tracked : wsmsg.Tracked maxFrameSize maxMessageSize stored)
    (call : ReceiverCall) :
    (wsmsg.handed call).Tracked maxFrameSize maxMessageSize (stored ++ wsmsg.storedBy call) := by
  obtain ⟨receiver, depicts⟩ := tracked.depicts
  refine ⟨depicts.handed call, wsmsg.handed_bytes call ▸ tracked.unpacks.append _, fun flag => ?_⟩
  obtain ⟨waiting, data_eq, -⟩ := WsMsg.frame_of_handed flag
  obtain ⟨frame, parks, final, control, payload_eq⟩ := tracked.parks waiting
  exact ⟨frame, parks.handed flag, final, control, by rw [data_eq, payload_eq]⟩

/-- A frame which waits with its whole payload keeps it. -/
theorem WsMsg.Tracked.handed_whole (tracked : wsmsg.Tracked maxFrameSize maxMessageSize stored)
    (whole : ¬ wsmsg.Shortened stored) (call : ReceiverCall) :
    ¬ (wsmsg.handed call).Shortened (stored ++ wsmsg.storedBy call) := by
  rintro ⟨flag, frame, parks, lost⟩
  obtain ⟨waiting, data_eq, -⟩ := WsMsg.frame_of_handed flag
  obtain ⟨other, parks', -⟩ := tracked.parks waiting
  rw [← (parks'.handed flag).unique parks, data_eq] at lost
  exact whole ⟨waiting, other, parks', lost⟩

/-- What one call does. -/
theorem WsMsg.Tracked.call (tracked : wsmsg.Tracked maxFrameSize maxMessageSize stored)
    {sizeMod : Nat} (large : 2 ^ 33 ≤ sizeMod) (heap : Heap) {call : ReceiverCall}
    (moderate : wsmsg.ModerateCall call) :
    (wsmsgCall sizeMod heap (wsmsg, []) call).1.Tracked maxFrameSize maxMessageSize
        (stored ++ wsmsg.storedBy call) ∧
      (¬ wsmsg.Shortened stored →
        (¬ (wsmsgCall sizeMod heap (wsmsg, []) call).1.Shortened (stored ++ wsmsg.storedBy call) ↔
          TakesWhole sizeMod heap (wsmsg, stored) call)) := by
  have handed := tracked.handed call
  rw [moderate.wsmsgCall_eq large heap, wsmsgCall_fst]
  unfold TakesWhole
  simp only [moderate.comesTo_iff large heap]
  by_cases enters : wsmsg.Enters call
  · rw [if_pos enters]
    have free : (wsmsg.handed call).frame = false := by
      have pending := enters.2
      simp only [WsMsg.pending, Bool.or_eq_false_iff] at pending
      exact pending.1.2
    obtain ⟨next, shortened_iff⟩ := handed.run free heap
    refine ⟨next, fun _ => ?_⟩
    rw [shortened_iff]
    simp [ComesTo, enters]
  · rw [if_neg enters]
    refine ⟨handed, fun whole => iff_of_true (tracked.handed_whole whole call) ?_⟩
    rintro visited ⟨entered, -⟩
    exact absurd entered enters

theorem tracked_wsmsgCreate (maxFrameSize maxMessageSize : Nat) :
    (wsmsgCreate maxFrameSize maxMessageSize).Tracked maxFrameSize maxMessageSize [] where
  depicts := ⟨_, depicts_wsmsgCreate _ _⟩
  unpacks := .refl
  parks := by simp [wsmsgCreate]

end

/-- A receiver is as it should be after every call of a run exactly when no call of the run takes a
control frame whose payload exceeds the limit, in runs which come to no large announced length. -/
theorem always_coherent_iff (heap : Heap) (maxFrameSize maxMessageSize : Nat)
    (calls : List ReceiverCall)
    (moderate : Execution.Guarded (trackedStep (2 ^ 64) heap) (fun state => state.1.ModerateCall)
      (wsmsgCreate maxFrameSize maxMessageSize, []) calls) :
    Execution.Always (trackedStep (2 ^ 64) heap)
        (fun state => state.1.Coherent (2 ^ 64) heap state.2)
        (wsmsgCreate maxFrameSize maxMessageSize, []) calls ↔
      Execution.Guarded (trackedStep (2 ^ 64) heap) (TakesWhole (2 ^ 64) heap)
        (wsmsgCreate maxFrameSize maxMessageSize, []) calls := by
  have large : 2 ^ 33 ≤ 2 ^ 64 := by decide
  let sound : WsMsg × List UInt8 → Prop := fun state =>
    state.1.Tracked maxFrameSize maxMessageSize state.2 ∧
      state.1.Coherent (2 ^ 64) heap state.2
  have start := tracked_wsmsgCreate maxFrameSize maxMessageSize
  have first : (wsmsgCreate maxFrameSize maxMessageSize).Coherent (2 ^ 64) heap [] := by
    rw [start.coherent_iff]
    rintro ⟨flag, -⟩
    cases flag
  have total : ∀ state call, (trackedStep (2 ^ 64) heap state call).isSome = true :=
    fun _ _ => rfl
  obtain ⟨final, execution⟩ := Execution.exists_run_of_total total
    (wsmsgCreate maxFrameSize maxMessageSize, []) calls
  refine @Execution.always_iff_guarded_of_assumed _ _ _ sound _ _ _ ?_ ?_ _ _ _
    ⟨start, first⟩ first execution moderate
  · rintro state call next ⟨tracked, coherent⟩ moderate whole stepped
    obtain ⟨kept, shortened_iff⟩ := tracked.call large heap moderate
    obtain rfl := Option.some.inj stepped
    have next_coherent := (kept.coherent_iff (2 ^ 64) heap).mpr
      ((shortened_iff ((tracked.coherent_iff _ heap).mp coherent)).mpr whole)
    exact ⟨⟨kept, next_coherent⟩, next_coherent⟩
  · rintro state call next ⟨tracked, coherent⟩ moderate stepped next_coherent
    obtain ⟨kept, shortened_iff⟩ := tracked.call large heap moderate
    obtain rfl := Option.some.inj stepped
    exact (shortened_iff ((tracked.coherent_iff _ heap).mp coherent)).mp
      ((kept.coherent_iff _ heap).mp next_coherent)

/-- A ping with five bytes. -/
def fiveBytePing : WireFrame :=
  { fiveBytes with opcode := 9, small := fiveBytes.small }

/-- With a limit of five bytes for a frame, the ping waits whole. -/
theorem always_coherent_fiveBytePing :
    Execution.Always (trackedStep (2 ^ 64) fun _ _ => 0)
      (fun state => state.1.Coherent (2 ^ 64) (fun _ _ => 0) state.2) (wsmsgCreate 5 16, [])
      [.add fiveBytePing.bytes] := by
  refine (always_coherent_iff _ 5 16 _ (by decide +kernel)).mpr ⟨?_, fun _ _ => trivial⟩
  rintro visited ⟨-, visits⟩ ⟨frame, rest, found, -, -, -, exceeds⟩
  have taken : wsmsgProcessRound (2 ^ 64) (fun _ _ => 0)
      ((wsmsgCreate 5 16).handed (.add fiveBytePing.bytes)) =
      .leave (wsmsgAdd (2 ^ 64) (fun _ _ => 0) (wsmsgCreate 5 16) fiveBytePing.bytes).1 := by
    decide +kernel
  cases visits with
  | start =>
      have same : scanFrame fiveBytePing.bytes = .item fiveBytePing.decoded [] :=
        fiveBytePing.scanFrame_bytes []
      obtain ⟨rfl, -⟩ := Scan.item.inj (same.symm.trans found)
      exact absurd exceeds (by decide)
  | round again _ => cases taken.symm.trans again

/-- With a limit of four bytes for a frame, the ping waits without its last byte. -/
theorem not_coherent_fiveBytePing :
    (wsmsgAdd (2 ^ 64) (fun _ _ => 0) (wsmsgCreate 4 16) fiveBytePing.bytes).1.frame = true ∧
      (wsmsgAdd (2 ^ 64) (fun _ _ => 0) (wsmsgCreate 4 16) fiveBytePing.bytes).1.frameData.data =
        [0x68, 0x65, 0x6c, 0x6c] ∧
      ¬ Execution.Always (trackedStep (2 ^ 64) fun _ _ => 0)
        (fun state => state.1.Coherent (2 ^ 64) (fun _ _ => 0) state.2) (wsmsgCreate 4 16, [])
        [.add fiveBytePing.bytes] := by
  refine ⟨by decide +kernel, by decide +kernel, fun always => ?_⟩
  have coherent := always [.add fiveBytePing.bytes] [] _ rfl rfl
  have large : 2 ^ 33 ≤ 2 ^ 64 := by decide
  have moderate : (wsmsgCreate 4 16).ModerateCall (.add fiveBytePing.bytes) := by decide +kernel
  obtain ⟨tracked, shortened_iff⟩ :=
    (tracked_wsmsgCreate 4 16).call large (fun _ _ => 0) moderate
  have whole : ¬ (wsmsgCreate 4 16).Shortened [] := fun ⟨flag, _⟩ => by cases flag
  have takes := (shortened_iff whole).mp ((tracked.coherent_iff _ _).mp coherent)
  refine takes _ ⟨by decide +kernel, .start⟩ ⟨fiveBytePing.decoded, [], ?_, ?_⟩
  · exact fiveBytePing.scanFrame_bytes []
  · decide +kernel

end Jabsocket
